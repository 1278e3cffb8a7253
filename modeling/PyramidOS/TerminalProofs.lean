import Mathlib.Logic.Function.Basic
import PyramidOS.ShellProofs

/-! # The text terminal

    `terminal.c`: 2000 cells of video memory and a cursor that outlives the calls.
    Three kinds of characters move it, two wraps follow each of them, and the second
    clears the screen.

    * `termPutChar_onScreen` — one character keeps the cursor and the stores on the
      screen;
    * `termCall_events` — a call is its characters, one by one;
    * `terminal_stays_on_screen` — after every character of every sequence of calls. -/

namespace PyramidTerminal

open PyramidString PyramidShell

/-! ## The driver -/

/-- A cell: the attribute and the character. -/
abbrev Cell := BitVec 16

/-- `VGA_COLS` and `VGA_ROWS`. -/
def vgaCols : Nat := 80
def vgaRows : Nat := 25

/-- `VGA_DEFAULT_ATTR`. -/
def vgaDefaultAttr : UInt8 := 0x0F

/-- Conversion to `uint16_t`. -/
def u16 (x : Nat) : Nat := x % 2 ^ 16

/-- A character in a colour. -/
def cellOf (color c : UInt8) : Cell := color.toBitVec.setWidth 16 <<< 8 ||| c.toBitVec.setWidth 16

/-- What stands where nothing does. -/
def blankCell : Cell := cellOf vgaDefaultAttr 32

/-- The cells from `g_vga_buffer` on, the cursor, the position that the hardware shows
    it at, and which cells were written, the last first. -/
structure Terminal where
  vga : Nat → Cell
  x : Nat
  y : Nat
  shown : Nat
  written : List Nat

namespace Terminal

/-- The number of the cell under the cursor. -/
def index (t : Terminal) : Nat := t.y * vgaCols + t.x

/-- `g_vga_buffer[i] = cell`. -/
def store (t : Terminal) (i : Nat) (cell : Cell) : Terminal :=
  { t with vga := Function.update t.vga i cell, written := i :: t.written }

end Terminal

/-- `term_update_cursor`: the two halves go to the registers 0x0F and 0x0E. -/
def termUpdateCursor (t : Terminal) : Terminal := { t with shown := u16 t.index }

/-- The loop of `term_clear`, after `n` turns. -/
def clearLoop (t : Terminal) : Nat → Terminal
  | 0 => t
  | n + 1 => (clearLoop t n).store n blankCell

/-- `term_clear`. -/
def termClear (t : Terminal) : Terminal :=
  let t := clearLoop t (vgaCols * vgaRows)
  termUpdateCursor { t with x := 0, y := 0 }

/-- `term_init`. -/
def termInit (t : Terminal) : Terminal := termClear { t with x := 0, y := 0 }

/-- The two wraps at the end of the loop body of `term_print`. -/
def termWrap (t : Terminal) : Terminal :=
  let t := if t.x ≥ vgaCols then { t with x := 0, y := u16 (t.y + 1) } else t
  if t.y ≥ vgaRows then termClear { t with y := 0 } else t

/-- The loop body of `term_print`. -/
def termPutChar (color : UInt8) (t : Terminal) (c : UInt8) : Terminal :=
  termWrap (
    if c = 10 then { t with x := 0, y := u16 (t.y + 1) }
    else if c = 8 then
      if t.x > 0 then
        let t := { t with x := t.x - 1 }
        t.store t.index blankCell
      else t
    else
      let t := t.store t.index (cellOf color c)
      { t with x := u16 (t.x + 1) })

/-- `term_print`. -/
def termPrint (t : Terminal) (str : Option (List UInt8)) (color : UInt8) : Terminal :=
  match str with
  | none => t
  | some str => termUpdateCursor ((text str).foldl (termPutChar color) t)

/-- `hex_chars`. -/
def hexChars : List UInt8 := chars "0123456789ABCDEF"

/-- The strings that `term_print_hex` prints. -/
def hexStrings (n : Nat) : List (List UInt8) :=
  chars "0x" :: [28, 24, 20, 16, 12, 8, 4, 0].map fun shift =>
    [charAt hexChars (n >>> shift &&& 0xF), 0]

/-- `term_print_hex`. -/
def termPrintHex (t : Terminal) (n : Nat) (color : UInt8) : Terminal :=
  (hexStrings n).foldl (fun t str => termPrint t (some str) color) t

/-- A call. -/
def termCall (t : Terminal) : TermCall → Terminal
  | .print str color => termPrint t (some str) color
  | .hex value color => termPrintHex t value color
  | .clear => termClear t

/-- A sequence of calls. -/
def termCalls (t : Terminal) (calls : List TermCall) : Terminal := calls.foldl termCall t

variable {t : Terminal} {i : Nat} {color c : UInt8} {cell : Cell}

@[simp] theorem store_vga_self (t : Terminal) (i : Nat) (cell : Cell) :
    (t.store i cell).vga i = cell := Function.update_self ..

theorem store_vga_ne {k : Nat} (h : k ≠ i) : (t.store i cell).vga k = t.vga k :=
  Function.update_of_ne h ..

@[simp] theorem termUpdateCursor_vga (t : Terminal) : (termUpdateCursor t).vga = t.vga := rfl

/-! ## One character -/

/-- **ON THE SCREEN**: the cursor, and every cell that was written. -/
structure OnScreen (t : Terminal) : Prop where
  col : t.x < 80
  row : t.y < 25
  cells : ∀ i ∈ t.written, i < 2000

theorem OnScreen.index_lt (h : OnScreen t) : t.index < 2000 := by
  have hcol := h.col
  have hrow := h.row
  rw [Terminal.index, vgaCols]
  omega

theorem clearLoop_written (t : Terminal) (n : Nat) :
    ∀ i ∈ (clearLoop t n).written, i < n ∨ i ∈ t.written := by
  induction n with
  | zero => exact fun i hi => Or.inr hi
  | succ n ih =>
    intro i hi
    rcases List.mem_cons.mp hi with rfl | hold
    · exact Or.inl (Nat.lt_succ_self _)
    · exact (ih i hold).imp_left Nat.lt_succ_of_lt

theorem clearLoop_vga (t : Terminal) {n : Nat} (hi : i < n) :
    (clearLoop t n).vga i = blankCell := by
  induction n with
  | zero => exact absurd hi (Nat.not_lt_zero i)
  | succ n ih =>
    rw [clearLoop]
    by_cases hlast : i = n
    · rw [hlast, store_vga_self]
    · rw [store_vga_ne hlast]
      exact ih (by omega)

theorem termClear_vga (hi : i < 2000) : (termClear t).vga i = blankCell := by
  have hcells : i < vgaCols * vgaRows := hi
  simp only [termClear, termUpdateCursor]
  exact clearLoop_vga t hcells

@[simp] theorem termClear_x (t : Terminal) : (termClear t).x = 0 := rfl

@[simp] theorem termClear_y (t : Terminal) : (termClear t).y = 0 := rfl

theorem termClear_onScreen (hcells : ∀ i ∈ t.written, i < 2000) : OnScreen (termClear t) := by
  refine ⟨by rw [termClear_x]; decide, by rw [termClear_y]; decide, fun i hi => ?_⟩
  rcases clearLoop_written t (vgaCols * vgaRows) i hi with hclear | hold
  · exact hclear
  · exact hcells i hold

theorem termWrap_inside (hx : t.x < 80) (hy : t.y < 25) : termWrap t = t := by
  have hcol : ¬ t.x ≥ vgaCols := Nat.not_le.mpr hx
  rw [termWrap, if_neg hcol]
  exact if_neg (Nat.not_le.mpr hy)

/-- Behind the last column the next row begins. -/
theorem termWrap_edge (hx : t.x = 80) (hy : t.y < 24) :
    termWrap t = { t with x := 0, y := t.y + 1 } := by
  have hcol : t.x ≥ vgaCols := Nat.le_of_eq hx.symm
  have hrow : u16 (t.y + 1) = t.y + 1 := Nat.mod_eq_of_lt (by omega)
  rw [termWrap, if_pos hcol, hrow]
  exact if_neg (show ¬ t.y + 1 ≥ 25 by omega)

/-- Behind the last row the screen is cleared. -/
theorem termWrap_corner (hx : t.x = 80) (hy : t.y = 24) :
    termWrap t = termClear { t with x := 0, y := 0 } := by
  have hcol : t.x ≥ vgaCols := Nat.le_of_eq hx.symm
  rw [termWrap, if_pos hcol, hy]
  rfl

/-- And so behind a newline in it. -/
theorem termWrap_bottom (hx : t.x < 80) (hy : t.y = 25) :
    termWrap t = termClear { t with y := 0 } := by
  have hcol : ¬ t.x ≥ vgaCols := Nat.not_le.mpr hx
  rw [termWrap, if_neg hcol]
  exact if_pos (Nat.le_of_eq hy.symm)

theorem termPutChar_newline (hy : t.y < 24) (color : UInt8) :
    termPutChar color t 10 = { t with x := 0, y := t.y + 1 } := by
  have hrow : u16 (t.y + 1) = t.y + 1 := Nat.mod_eq_of_lt (by omega)
  rw [termPutChar, if_pos rfl, hrow]
  exact termWrap_inside (show 0 < 80 by decide) (show t.y + 1 < 25 by omega)

theorem termPutChar_newline_last (hy : t.y = 24) (color : UInt8) :
    termPutChar color t 10 = termClear { t with x := 0, y := 0 } := by
  have hrow : u16 (t.y + 1) = 25 := by
    rw [hy]
    rfl
  rw [termPutChar, if_pos rfl, hrow]
  exact termWrap_bottom (show 0 < 80 by decide) rfl

theorem termPutChar_regular (hnewline : c ≠ 10) (hback : c ≠ 8) :
    termPutChar color t c
      = termWrap { t.store t.index (cellOf color c) with x := u16 (t.x + 1) } := by
  rw [termPutChar, if_neg hnewline, if_neg hback]
  rfl

/-- A character before the last column. -/
theorem termPutChar_inside (h : OnScreen t) (hx : t.x < 79) (hnewline : c ≠ 10) (hback : c ≠ 8) :
    termPutChar color t c
      = { t.store t.index (cellOf color c) with x := t.x + 1 } := by
  have hnext : u16 (t.x + 1) = t.x + 1 := Nat.mod_eq_of_lt (by omega)
  rw [termPutChar_regular hnewline hback, hnext]
  exact termWrap_inside (show t.x + 1 < 80 by omega) h.row

/-- A character in the last column goes on in the next row. -/
theorem termPutChar_edge (hx : t.x = 79) (hy : t.y < 24) (hnewline : c ≠ 10) (hback : c ≠ 8) :
    termPutChar color t c
      = { t.store t.index (cellOf color c) with x := 0, y := t.y + 1 } := by
  have hnext : u16 (t.x + 1) = 80 := by
    rw [hx]
    rfl
  rw [termPutChar_regular hnewline hback, hnext]
  exact termWrap_edge rfl hy

/-- In the last cell it clears the screen. -/
theorem termPutChar_corner (hx : t.x = 79) (hy : t.y = 24) (hnewline : c ≠ 10) (hback : c ≠ 8) :
    termPutChar color t c
      = termClear { t.store t.index (cellOf color c) with x := 0, y := 0 } := by
  have hnext : u16 (t.x + 1) = 80 := by
    rw [hx]
    rfl
  rw [termPutChar_regular hnewline hback, hnext]
  exact termWrap_corner rfl hy

/-- A backspace clears the cell before the cursor. -/
theorem termPutChar_back (h : OnScreen t) (hx : t.x > 0) (color : UInt8) :
    termPutChar color t 8
      = Terminal.store { t with x := t.x - 1 } (t.y * vgaCols + (t.x - 1)) blankCell := by
  have hcol := h.col
  rw [termPutChar, if_neg (by decide), if_pos rfl, if_pos hx]
  exact termWrap_inside (show t.x - 1 < 80 by omega) h.row

/-- In column 0 it does nothing. -/
theorem termPutChar_stuck (h : OnScreen t) (hx : ¬ t.x > 0) (color : UInt8) :
    termPutChar color t 8 = t := by
  rw [termPutChar, if_neg (by decide), if_pos rfl, if_neg hx]
  exact termWrap_inside h.col h.row

/-- A backspace stays in its row. -/
theorem termPutChar_backspace (h : OnScreen t) (color : UInt8) :
    (termPutChar color t 8).y = t.y ∧ (termPutChar color t 8).x = t.x - 1 := by
  by_cases hx : t.x > 0
  · rw [termPutChar_back h hx]
    exact ⟨rfl, rfl⟩
  · rw [termPutChar_stuck h hx]
    exact ⟨rfl, by omega⟩

theorem store_cells (hcells : ∀ k ∈ t.written, k < 2000) (hi : i < 2000) (cell : Cell) :
    ∀ k ∈ (t.store i cell).written, k < 2000 := by
  intro k hk
  rcases List.mem_cons.mp hk with rfl | hold
  · exact hi
  · exact hcells k hold

/-- **ONE CHARACTER** keeps everything on the screen. -/
theorem termPutChar_onScreen (h : OnScreen t) (color c : UInt8) :
    OnScreen (termPutChar color t c) := by
  have hcol := h.col
  have hrow := h.row
  have hcells := store_cells h.cells h.index_lt (cellOf color c)
  by_cases hnewline : c = 10
  · subst hnewline
    by_cases hy : t.y < 24
    · rw [termPutChar_newline hy]
      exact ⟨show 0 < 80 by decide, show t.y + 1 < 25 by omega, h.cells⟩
    · rw [termPutChar_newline_last (by omega)]
      exact termClear_onScreen h.cells
  by_cases hback : c = 8
  · subst hback
    by_cases hx : t.x > 0
    · rw [termPutChar_back h hx]
      refine ⟨show t.x - 1 < 80 by omega, hrow, store_cells h.cells ?_ blankCell⟩
      rw [vgaCols]
      omega
    · rw [termPutChar_stuck h hx]
      exact h
  by_cases hx : t.x < 79
  · rw [termPutChar_inside h hx hnewline hback]
    exact ⟨show t.x + 1 < 80 by omega, hrow, hcells⟩
  have hedge : t.x = 79 := by omega
  by_cases hy : t.y < 24
  · rw [termPutChar_edge hedge hy hnewline hback]
    exact ⟨show 0 < 80 by decide, show t.y + 1 < 25 by omega, hcells⟩
  · rw [termPutChar_corner hedge (by omega) hnewline hback]
    exact termClear_onScreen hcells

/-! ## Character by character -/

/-- What a call does, in order: its characters, and the updates of the hardware
    cursor behind each string. -/
inductive TermEvent where
  | char (color c : UInt8)
  | cursor
  | clear

def termStep (t : Terminal) : TermEvent → Terminal
  | .char color c => termPutChar color t c
  | .cursor => termUpdateCursor t
  | .clear => termClear t

/-- A string. -/
def printEvents (color : UInt8) (str : List UInt8) : List TermEvent :=
  (text str).map (.char color) ++ [.cursor]

/-- A call. -/
def callEvents : TermCall → List TermEvent
  | .print str color => printEvents color str
  | .hex value color => (hexStrings value).flatMap (printEvents color)
  | .clear => [.clear]

theorem termPrint_events (t : Terminal) (str : List UInt8) (color : UInt8) :
    termPrint t (some str) color = (printEvents color str).foldl termStep t := by
  rw [printEvents, List.foldl_append, List.foldl_map]
  rfl

/-- **A CALL IS ITS EVENTS.** -/
theorem termCall_events (t : Terminal) (call : TermCall) :
    termCall t call = (callEvents call).foldl termStep t := by
  cases call with
  | print str color => exact termPrint_events t str color
  | clear => rfl
  | hex value color =>
    rw [termCall, termPrintHex, callEvents]
    induction hexStrings value generalizing t with
    | nil => rfl
    | cons str strs ih =>
      rw [List.foldl_cons, termPrint_events, ih, List.flatMap_cons, List.foldl_append]

theorem termCalls_events (t : Terminal) (calls : List TermCall) :
    termCalls t calls = (calls.flatMap callEvents).foldl termStep t := by
  induction calls generalizing t with
  | nil => rfl
  | cons call calls ih =>
    rw [termCalls, List.foldl_cons, List.flatMap_cons, List.foldl_append, ← termCall_events]
    exact ih _

theorem termStep_onScreen (h : OnScreen t) (e : TermEvent) : OnScreen (termStep t e) := by
  cases e with
  | char color c => exact termPutChar_onScreen h color c
  | cursor => exact ⟨h.col, h.row, h.cells⟩
  | clear => exact termClear_onScreen h.cells

theorem events_onScreen (h : OnScreen t) (es : List TermEvent) :
    OnScreen (es.foldl termStep t) := by
  induction es generalizing t with
  | nil => exact h
  | cons e es ih => exact ih (termStep_onScreen h e)

theorem termCalls_onScreen (h : OnScreen t) (calls : List TermCall) :
    OnScreen (termCalls t calls) := by
  rw [termCalls_events]
  exact events_onScreen h _

/-- **THE TERMINAL STAYS ON THE SCREEN**: a sequence of calls after `term_init` is the
    sequence of its characters, and after each of these the cursor is on the screen,
    no other cell was written, and a backspace would stay in its row. -/
theorem terminal_stays_on_screen (vga : Nat → Cell) (x y shown : Nat) (calls : List TermCall) :
    termCalls (termInit ⟨vga, x, y, shown, []⟩) calls
        = (calls.flatMap callEvents).foldl termStep (termInit ⟨vga, x, y, shown, []⟩)
      ∧ ∀ pre, pre <+: calls.flatMap callEvents → ∀ t,
          pre.foldl termStep (termInit ⟨vga, x, y, shown, []⟩) = t →
          t.x < 80 ∧ t.y < 25 ∧ (∀ i ∈ t.written, i < 2000)
            ∧ ∀ color, (termPutChar color t 8).y = t.y ∧ (termPutChar color t 8).x = t.x - 1 := by
  refine ⟨termCalls_events _ calls, ?_⟩
  rintro pre - t rfl
  have hstart : OnScreen (termInit ⟨vga, x, y, shown, []⟩) :=
    termClear_onScreen fun i hi => (nomatch hi)
  have hscreen := events_onScreen hstart pre
  exact ⟨hscreen.col, hscreen.row, hscreen.cells, termPutChar_backspace hscreen⟩

end PyramidTerminal
