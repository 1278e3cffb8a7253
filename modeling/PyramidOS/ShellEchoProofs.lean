import PyramidOS.TerminalProofs
import PyramidOS.RunProofs
import Mathlib.Data.List.Count

/-! # The echo of the shell

    The line buffer of the shell and the cells of the terminal, key by key.  The
    cursor moves along the cells as the index moves along the buffer, across the end
    of a row too, except for one key: a backspace in column 0 takes a character off
    the line, and the terminal ignores it.

    * `EchoStep.keyed` — what a key does to both;
    * `Echoing.step`, `Follows.step` — what every key keeps, and what every key but
      that one keeps;
    * `echo_follows_iff` — the screen shows the line all along a run if and only if no
      key of it was that one. -/

namespace PyramidShellEcho

open PyramidString PyramidKernel PyramidHeap PyramidBlock PyramidShell PyramidTerminal LabelledRun

variable {δ : Type}

/-- The shell and the terminal it prints to. -/
structure Echo (δ : Type) where
  shell : Shell δ
  term : Terminal

/-- The calls that the shell has made since. -/
def newCalls (s s' : Shell δ) : List TermCall := s'.term.drop s.term.length

/-- One turn of the loop of `shell_run`, and what the terminal does in it. -/
def echoKey (B : Blocks) (D : Devices δ) (e : Echo δ) (c : UInt8) : Except Halt (Echo δ) :=
  (shellKey B D e.shell c).map fun s' => ⟨s', termCalls e.term (newCalls e.shell s')⟩

/-- `shell_run`, over the characters of the keyboard. -/
def echoKeys (B : Blocks) (D : Devices δ) : List UInt8 → Echo δ → Except Halt (Echo δ)
  | [], e => .ok e
  | c :: keys, e => do
      let e ← echoKey B D e c
      echoKeys B D keys e

/-- One key of a line, labelled with the state it finds. -/
inductive EchoStep (B : Blocks) (D : Devices δ) : Echo δ → Echo δ × UInt8 → Echo δ → Prop where
  | key {e e' : Echo δ} {c : UInt8} (hnull : c ≠ 0) (henter : c ≠ 10)
      (hkey : echoKey B D e c = .ok e') : EchoStep B D e (e, c) e'

/-- The key deletes a character with the cursor in column 0. -/
def Stuck (p : Echo δ × UInt8) : Prop := p.2 = 8 ∧ 0 < p.1.shell.cmdIdx ∧ p.1.term.x = 0

/-- The key types a character in the last column. -/
def InLastColumn (p : Echo δ × UInt8) : Prop :=
  p.2 ≠ 8 ∧ p.1.shell.cmdIdx < 127 ∧ p.1.term.x = 79

instance (p : Echo δ × UInt8) : Decidable (InLastColumn p) :=
  inferInstanceAs (Decidable (p.2 ≠ 8 ∧ p.1.shell.cmdIdx < 127 ∧ p.1.term.x = 79))

/-- How many characters were typed in the last column. -/
def wraps (es : List (Echo δ × UInt8)) : Nat := es.countP fun p => InLastColumn p

/-- The line that Enter would execute. -/
def line (e : Echo δ) : List UInt8 := text e.shell.terminate.cmdBuffer

/-- **THE SCREEN SHOWS THE LINE**: from the prompt on stand its characters, behind the
    last stands the cursor, and no cell from there on was left written. -/
structure Follows (start e : Echo δ) : Prop where
  cursor : e.term.index = start.term.index + (line e).length
  shows : ∀ k a, (line e)[k]? = some a → e.term.vga (start.term.index + k) = cellOf 0x0F a
  blank : ∀ i ∈ e.term.written, start.term.index + (line e).length ≤ i → e.term.vga i = blankCell

/-- **BACK AT THE PROMPT**, with nothing left behind it. -/
structure Back (start e : Echo δ) : Prop where
  col : e.term.x = start.term.x
  row : e.term.y = start.term.y
  blank : ∀ i ∈ e.term.written, start.term.index ≤ i → e.term.vga i = blankCell

variable {B : Blocks} {D : Devices δ} {e e' start : Echo δ} {t : Terminal}
  {es : List (Echo δ × UInt8)} {p : Echo δ × UInt8} {c color : UInt8} {keys : List UInt8}

/-! ## One key -/

/-- What a key does.  A typed character moves the cursor to the next cell, in its row
    or in the next one, or it clears the screen from the last cell; a deleted one
    moves it back, but not out of column 0. -/
inductive Keyed (e : Echo δ) (c : UInt8) (e' : Echo δ) : Prop where
  | ignored (hidx : e'.shell.cmdIdx = e.shell.cmdIdx) (hterm : e'.term = e.term)
      (hlast : ¬ InLastColumn (e, c)) (hstuck : ¬ Stuck (e, c))
  | stuck (hstuck : Stuck (e, c)) (hidx : e'.shell.cmdIdx = e.shell.cmdIdx - 1)
      (hterm : e'.term = termUpdateCursor e.term)
  | deleted (hback : c = 8) (hsome : 0 < e.shell.cmdIdx)
      (hidx : e'.shell.cmdIdx = e.shell.cmdIdx - 1) (hx : 0 < e.term.x)
      (hterm : e'.term = termUpdateCursor (Terminal.store { e.term with x := e.term.x - 1 }
        (e.term.y * vgaCols + (e.term.x - 1)) blankCell))
  | typed (hback : c ≠ 8) (hroom : e.shell.cmdIdx < 127)
      (hidx : e'.shell.cmdIdx = e.shell.cmdIdx + 1)
      (hmove : e.term.x < 79 ∧ e'.term.x = e.term.x + 1 ∧ e'.term.y = e.term.y
        ∨ e.term.x = 79 ∧ e.term.y < 24 ∧ e'.term.x = 0 ∧ e'.term.y = e.term.y + 1)
      (hvga : e'.term.vga = (e.term.store e.term.index (cellOf 0x0F c)).vga)
      (hwritten : e'.term.written = e.term.index :: e.term.written)
  | cleared (hback : c ≠ 8) (hroom : e.shell.cmdIdx < 127)
      (hidx : e'.shell.cmdIdx = e.shell.cmdIdx + 1) (hx : e.term.x = 79) (hy : e.term.y = 24)
      (hterm : e'.term = termUpdateCursor (termClear
        { e.term.store e.term.index (cellOf 0x0F c) with x := 0, y := 0 }))

theorem termCalls_char (hnull : c ≠ 0) (t : Terminal) (color : UInt8) :
    termCalls t [.print [c] color] = termUpdateCursor (termPutChar color t c) := by
  have htext : text [c] = [c] := text_cons hnull []
  show termUpdateCursor ((text [c]).foldl (termPutChar color) t) = _
  rw [htext]
  rfl

/-- A character that goes into the buffer. -/
theorem keyed_typed (h : OnScreen e.term) (henter : c ≠ 10) (hback : c ≠ 8)
    (hroom : e.shell.cmdIdx < 127) (hidx : e'.shell.cmdIdx = e.shell.cmdIdx + 1)
    (hterm : e'.term = termUpdateCursor (termPutChar 0x0F e.term c)) : Keyed e c e' := by
  have hcol := h.col
  have hrow := h.row
  by_cases hx : e.term.x < 79
  · rw [termPutChar_inside h hx henter hback] at hterm
    refine .typed hback hroom hidx (Or.inl ⟨hx, ?_, ?_⟩) ?_ ?_
    all_goals
      rw [hterm]
      rfl
  have hedge : e.term.x = 79 := by omega
  by_cases hy : e.term.y < 24
  · rw [termPutChar_edge hedge hy henter hback] at hterm
    refine .typed hback hroom hidx (Or.inr ⟨hedge, hy, ?_, ?_⟩) ?_ ?_
    all_goals
      rw [hterm]
      rfl
  · have hlast : e.term.y = 24 := by omega
    rw [termPutChar_corner hedge hlast henter hback] at hterm
    exact .cleared hback hroom hidx hedge hlast hterm

/-- A backspace that takes a character off. -/
theorem keyed_deleted (h : OnScreen e.term) (hback : c = 8) (hsome : 0 < e.shell.cmdIdx)
    (hidx : e'.shell.cmdIdx = e.shell.cmdIdx - 1)
    (hterm : e'.term = termUpdateCursor (termPutChar 0x07 e.term 8)) : Keyed e c e' := by
  by_cases hx : e.term.x > 0
  · rw [termPutChar_back h hx] at hterm
    exact .deleted hback hsome hidx hx hterm
  · rw [termPutChar_stuck h hx] at hterm
    exact .stuck ⟨hback, hsome, Nat.eq_zero_of_not_pos hx⟩ hidx hterm

/-- **ONE KEY** of a line. -/
theorem EchoStep.keyed (h : OnScreen e.term) (hstep : EchoStep B D e p e') :
    p.1 = e ∧ Keyed e p.2 e' := by
  obtain ⟨hnull, henter, hkey⟩ := hstep
  rename_i c
  refine ⟨rfl, ?_⟩
  rw [echoKey, shellKey, if_neg hnull, if_neg henter] at hkey
  by_cases hback : c = 8
  · rw [if_pos hback] at hkey
    by_cases hsome : e.shell.cmdIdx > 0
    · rw [if_pos hsome] at hkey
      cases hkey
      refine keyed_deleted h hback hsome rfl ?_
      exact (congrArg (termCalls e.term) List.drop_left).trans (termCalls_char (by decide) _ _)
    · rw [if_neg hsome] at hkey
      cases hkey
      exact .ignored rfl (congrArg (termCalls e.term) (List.drop_length ..))
        (fun hlast => hlast.1 hback) fun hstuck => hsome hstuck.2.1
  · rw [if_neg hback] at hkey
    by_cases hroom : e.shell.cmdIdx < cmdBufSize - 1
    · rw [dif_pos hroom] at hkey
      cases hkey
      refine keyed_typed h henter hback hroom rfl ?_
      exact (congrArg (termCalls e.term) List.drop_left).trans (termCalls_char hnull _ _)
    · rw [dif_neg hroom] at hkey
      cases hkey
      exact .ignored rfl (congrArg (termCalls e.term) (List.drop_length ..))
        (fun hlast => hroom hlast.2.1) fun hstuck => hback hstuck.1

/-- The cursor goes to the next cell, in either row. -/
theorem Terminal.index_next {t t' : Terminal}
    (hmove : t.x < 79 ∧ t'.x = t.x + 1 ∧ t'.y = t.y
      ∨ t.x = 79 ∧ t.y < 24 ∧ t'.x = 0 ∧ t'.y = t.y + 1) : t'.index = t.index + 1 := by
  rw [Terminal.index, Terminal.index, vgaCols]
  omega

/-! ## What every key keeps -/

/-- The cursor is on the screen, nothing was left written from it on, and the buffer
    holds the line. -/
structure Echoing (e : Echo δ) : Prop where
  screen : OnScreen e.term
  fresh : ∀ i ∈ e.term.written, e.term.index ≤ i → e.term.vga i = blankCell
  types : Types (line e) e.shell

theorem EchoStep.screen (h : OnScreen e.term) (hstep : EchoStep B D e p e') :
    OnScreen e'.term := by
  obtain ⟨-, -, hkey⟩ := hstep
  rename_i c
  rw [echoKey] at hkey
  cases hs : shellKey B D e.shell c with
  | error halt =>
    rw [hs] at hkey
    cases hkey
  | ok s' =>
    rw [hs] at hkey
    cases hkey
    exact termCalls_onScreen h _

/-- The key does to the line what it does to the buffer. -/
theorem EchoStep.types (h : Types (line e) e.shell) (hstep : EchoStep B D e p e') :
    line e' = typeKey (line e) p.2 ∧ Types (line e') e'.shell := by
  obtain ⟨hnull, henter, hkey⟩ := hstep
  obtain ⟨s', hs, htypes⟩ := h.shellKey (B := B) (D := D) hnull henter
  rw [echoKey, hs] at hkey
  cases hkey
  have hline : text s'.terminate.cmdBuffer = typeKey (line e) _ := htypes.text_terminate
  refine ⟨hline, ?_⟩
  rw [line, hline]
  exact htypes

theorem Keyed.fresh (h : Echoing e) (hscreen : OnScreen e'.term) (hkeyed : Keyed e c e') :
    ∀ i ∈ e'.term.written, e'.term.index ≤ i → e'.term.vga i = blankCell := by
  cases hkeyed with
  | ignored hidx hterm =>
    rw [hterm]
    exact h.fresh
  | stuck hstuck hidx hterm =>
    rw [hterm]
    exact h.fresh
  | deleted hback hsome hidx hx hterm =>
    rw [hterm]
    intro i hi hle
    have hle : e.term.y * vgaCols + (e.term.x - 1) ≤ i := hle
    by_cases hcell : i = e.term.y * vgaCols + (e.term.x - 1)
    · rw [hcell]
      exact store_vga_self ..
    · have hold : i ∈ e.term.written := (List.mem_cons.mp hi).resolve_left hcell
      have hindex : e.term.index ≤ i := by
        rw [Terminal.index]
        omega
      exact (store_vga_ne hcell).trans (h.fresh i hold hindex)
  | typed hback hroom hidx hmove hvga hwritten =>
    rw [hwritten, hvga, Terminal.index_next hmove]
    intro i hi hle
    have hcell : i ≠ e.term.index := by omega
    have hold : i ∈ e.term.written := (List.mem_cons.mp hi).resolve_left hcell
    exact (store_vga_ne hcell).trans (h.fresh i hold (Nat.le_of_succ_le hle))
  | cleared hback hroom hidx hx hy hterm =>
    intro i hi hle
    have hcell := hscreen.cells i hi
    rw [hterm, termUpdateCursor_vga]
    exact termClear_vga hcell

/-- **EVERY KEY** keeps it. -/
theorem Echoing.step (h : Echoing e) (hstep : EchoStep B D e p e') : Echoing e' :=
  have hscreen := hstep.screen h.screen
  ⟨hscreen, (hstep.keyed h.screen).2.fresh h hscreen, (hstep.types h.types).2⟩

/-! ## Where the cursor stands -/

/-- Before the first character in the last column, and after it. -/
inductive Position (start : Echo δ) : Nat → Echo δ → Prop where
  | row {e : Echo δ} (hx : e.term.x = start.term.x + e.shell.cmdIdx)
      (hy : e.term.y = start.term.y) : Position start 0 e
  | below {w : Nat} {e : Echo δ} (hx : e.term.x ≤ e.shell.cmdIdx)
      (hy : e.term.y = (start.term.y + (w + 1)) % 25) : Position start (w + 1) e

/-- A key moves it in its row, or it goes to the next row and is counted. -/
theorem Keyed.moves (h : OnScreen e.term) (hkeyed : Keyed e c e') :
    ¬ InLastColumn (e, c) ∧ e'.term.y = e.term.y
        ∧ (e'.term.x + e.shell.cmdIdx = e.term.x + e'.shell.cmdIdx
          ∨ Stuck (e, c) ∧ e'.term.x = 0)
      ∨ InLastColumn (e, c) ∧ e'.term.x = 0 ∧ e'.term.y = (e.term.y + 1) % 25 := by
  have hcol := h.col
  have hrow := h.row
  cases hkeyed with
  | ignored hidx hterm hlast =>
    rw [hterm, hidx]
    exact Or.inl ⟨hlast, rfl, Or.inl rfl⟩
  | stuck hstuck hidx hterm =>
    rw [hterm]
    exact Or.inl ⟨fun hlast => hlast.1 hstuck.1, rfl, Or.inr ⟨hstuck, hstuck.2.2⟩⟩
  | deleted hback hsome hidx hx hterm =>
    rw [hterm]
    refine Or.inl ⟨fun hlast => hlast.1 hback, rfl, Or.inl ?_⟩
    show e.term.x - 1 + e.shell.cmdIdx = e.term.x + e'.shell.cmdIdx
    omega
  | typed hback hroom hidx hmove =>
    rcases hmove with ⟨hin, hx, hy⟩ | ⟨hin, hlow, hx, hy⟩
    · refine Or.inl ⟨fun hlast => ?_, hy, Or.inl (by omega)⟩
      have hedge : e.term.x = 79 := hlast.2.2
      omega
    · exact Or.inr ⟨⟨hback, hroom, hin⟩, hx, by omega⟩
  | cleared hback hroom hidx hx hy hterm =>
    rw [hterm, hy]
    exact Or.inr ⟨⟨hback, hroom, hx⟩, rfl, rfl⟩

theorem wraps_snoc (es : List (Echo δ × UInt8)) (p : Echo δ × UInt8) :
    wraps (es ++ [p]) = wraps es + if InLastColumn p then 1 else 0 := by
  rw [wraps, List.countP_append, List.countP_singleton]
  by_cases hlast : InLastColumn p
  · simp [hlast, wraps]
  · simp [hlast, wraps]

theorem Position.not_stuck (hpos : Position start 0 e) : ¬ Stuck (e, c) := by
  rintro ⟨-, hsome, hx⟩
  have hsome : 0 < e.shell.cmdIdx := hsome
  have hx : e.term.x = 0 := hx
  obtain ⟨hcol, -⟩ := hpos
  omega

theorem Position.step {w : Nat} (hpos : Position start w e) (h : OnScreen e.term)
    (hkeyed : Keyed e c e') :
    Position start (w + if InLastColumn (e, c) then 1 else 0) e' := by
  rcases hkeyed.moves h with ⟨hlast, hy, hx⟩ | ⟨hlast, hx, hy⟩
  · rw [if_neg hlast, Nat.add_zero]
    cases hpos with
    | row hcol hrow =>
      have hpos : Position start 0 e := .row hcol hrow
      rcases hx with hx | ⟨hstuck, -⟩
      · exact .row (by omega) (hy.trans hrow)
      · exact absurd hstuck hpos.not_stuck
    | below hcol hrow => exact .below (by omega) (hy.trans hrow)
  · rw [if_pos hlast]
    cases hpos with
    | row _ hrow => exact .below (by omega) (by omega)
    | below _ hrow => exact .below (by omega) (by omega)

/-! ## What the screen shows -/

/-- A line starts at the prompt, in a row other than the last two. -/
structure Prompt (start : Echo δ) : Prop where
  col : start.term.x < 80
  row : start.term.y < 23
  empty : start.shell.cmdIdx = 0
  untouched : start.term.written = []

theorem Prompt.types (h : Prompt start) : line start = [] ∧ Types (line start) start.shell := by
  have htypes : Types [] start.shell :=
    ⟨h.empty, List.take_zero, fun _ hmem => absurd hmem List.not_mem_nil⟩
  have hline : line start = [] := htypes.text_terminate
  rw [hline]
  exact ⟨rfl, htypes⟩

theorem Prompt.echoing (h : Prompt start) : Echoing start := by
  have hcol := h.col
  have hrow := h.row
  refine ⟨⟨hcol, by omega, ?_⟩, ?_, h.types.2⟩
  all_goals
    rw [h.untouched]
    exact fun i hi => absurd hi List.not_mem_nil

theorem Prompt.follows (h : Prompt start) : Follows start start := by
  have hline := h.types.1
  refine ⟨?_, fun k a hk => ?_, fun i hi => ?_⟩
  · rw [hline, List.length_nil, Nat.add_zero]
  · rw [hline] at hk
    cases hk
  · rw [h.untouched] at hi
    cases hi

theorem Prompt.position (h : Prompt start) : Position start 0 start :=
  .row (by rw [h.empty, Nat.add_zero]) rfl

/-- The screen has room for a line. -/
theorem Prompt.index_le (h : Prompt start) : start.term.index ≤ 1839 := by
  have hcol := h.col
  have hrow := h.row
  rw [Terminal.index, vgaCols]
  omega

theorem Echoing.length (h : Echoing e) : (line e).length = e.shell.cmdIdx := h.types.idx.symm

/-- Nothing was left behind the cursor, so the cells and the cursor are what to show. -/
theorem Echoing.follows (h : Echoing e)
    (hcursor : e.term.index = start.term.index + (line e).length)
    (hshows : ∀ k a, (line e)[k]? = some a →
      e.term.vga (start.term.index + k) = cellOf 0x0F a) : Follows start e :=
  ⟨hcursor, hshows, fun i hi hle => h.fresh i hi (by omega)⟩

theorem Echoing.back (h : Echoing e) (hx : e.term.x = start.term.x)
    (hy : e.term.y = start.term.y) : Back start e := by
  have hindex : e.term.index = start.term.index := by rw [Terminal.index, Terminal.index, hx, hy]
  exact ⟨hx, hy, fun i hi hle => h.fresh i hi (by omega)⟩

theorem typeKey_eq_self {l : List UInt8} (h : (typeKey l c).length = l.length) :
    typeKey l c = l := by
  rw [typeKey] at h ⊢
  by_cases hback : c = 8
  · rw [if_pos hback] at h ⊢
    rw [List.length_dropLast] at h
    have hnil : l = [] := List.eq_nil_of_length_eq_zero (by omega)
    rw [hnil, List.dropLast_nil]
  · rw [if_neg hback] at h ⊢
    by_cases hroom : l.length < 127
    · rw [if_pos hroom, List.length_append, List.length_singleton] at h
      omega
    · rw [if_neg hroom]

/-- A character of the line after a deletion was there before it, one cell at least
    ahead of the cleared one. -/
theorem shows_deleted (hf : Follows start e) (hcursor : e'.term.index + 1 = e.term.index)
    (hdrop : line e' = (line e).dropLast)
    (hvga : e'.term.vga = (e.term.store e'.term.index blankCell).vga) :
    ∀ k a, (line e')[k]? = some a → e'.term.vga (start.term.index + k) = cellOf 0x0F a := by
  intro k a hk
  rw [hdrop, List.getElem?_dropLast] at hk
  by_cases hlt : k < (line e).length - 1
  · rw [if_pos hlt] at hk
    have hindex := hf.cursor
    have hcell : start.term.index + k ≠ e'.term.index := by omega
    rw [hvga, store_vga_ne hcell]
    exact hf.shows k a hk
  · rw [if_neg hlt] at hk
    cases hk

/-- A typed character goes to the cell behind the line. -/
theorem shows_typed (hf : Follows start e) (hline : line e' = line e ++ [c])
    (hvga : e'.term.vga = (e.term.store e.term.index (cellOf 0x0F c)).vga) :
    ∀ k a, (line e')[k]? = some a → e'.term.vga (start.term.index + k) = cellOf 0x0F a := by
  intro k a hk
  have hindex := hf.cursor
  rw [hline] at hk
  rw [hvga]
  by_cases hlt : k < (line e).length
  · rw [List.getElem?_append_left hlt] at hk
    have hcell : start.term.index + k ≠ e.term.index := by omega
    rw [store_vga_ne hcell]
    exact hf.shows k a hk
  · have hlen : k < (line e ++ [c]).length := (List.getElem?_eq_some_iff.mp hk).1
    rw [List.length_append, List.length_singleton] at hlen
    have hlast : k = (line e).length := by omega
    rw [hlast, List.getElem?_concat_length] at hk
    rw [hlast, ← hindex, store_vga_self, Option.some.inj hk]

/-- **EVERY KEY BUT ONE** keeps the screen equal to the line. -/
theorem Follows.step (hprompt : Prompt start) (hf : Follows start e) (h : Echoing e)
    (hstep : EchoStep B D e p e') (hnot : ¬ Stuck p) : Follows start e' := by
  have h' := h.step hstep
  obtain ⟨hp, hkeyed⟩ := hstep.keyed h.screen
  have hline := (hstep.types h.types).1
  obtain ⟨e₀, c⟩ := p
  obtain rfl : e₀ = e := hp
  have hindex := hf.cursor
  have hlen := h.length
  have hlen' := h'.length
  cases hkeyed with
  | ignored hidx hterm =>
    have hsame : line e' = line e₀ := by
      rw [hline]
      exact typeKey_eq_self (by rw [← hline]; omega)
    refine h'.follows ?_ ?_
    all_goals rw [hterm, hsame]
    · exact hf.cursor
    · exact hf.shows
  | stuck hstuck => exact absurd hstuck hnot
  | deleted hback hsome hidx hx hterm =>
    have hcell : e'.term.index = e₀.term.y * vgaCols + (e₀.term.x - 1) := by
      rw [hterm]
      rfl
    have hcursor : e'.term.index + 1 = e₀.term.index := by
      rw [hcell, Terminal.index]
      omega
    have hdrop : line e' = (line e₀).dropLast := by rw [hline, typeKey, if_pos hback]
    have hvga : e'.term.vga = (e₀.term.store e'.term.index blankCell).vga := by
      rw [hcell, hterm]
      rfl
    exact h'.follows (by omega) (shows_deleted hf hcursor hdrop hvga)
  | typed hback hroom hidx hmove hvga =>
    have hnext := Terminal.index_next hmove
    have htyped : line e' = line e₀ ++ [c] := by
      rw [hline, typeKey, if_neg hback, if_pos (by omega)]
    exact h'.follows (by omega) (shows_typed hf htyped hvga)
  | cleared hback hroom hidx hx hy =>
    have hlast := hprompt.index_le
    rw [Terminal.index, hx, hy, vgaCols] at hindex
    omega

/-- After that one the cursor is too far. -/
theorem Follows.stuck (hf : Follows start e) (h : Echoing e) (hstep : EchoStep B D e p e')
    (hstuck : Stuck p) : ¬ Follows start e' := by
  intro hf'
  have hlen := h.length
  have hlen' := (h.step hstep).length
  have hindex := hf.cursor
  have hindex' := hf'.cursor
  obtain ⟨hp, hkeyed⟩ := hstep.keyed h.screen
  obtain ⟨e₀, c⟩ := p
  obtain rfl : e₀ = e := hp
  obtain ⟨hback, hsome, hcol⟩ := hstuck
  have hcol : e₀.term.x = 0 := hcol
  cases hkeyed with
  | ignored _ _ _ hnot => exact hnot ⟨hback, hsome, hcol⟩
  | stuck _ hidx hterm =>
    have hsame : e'.term.index = e₀.term.index := by
      rw [hterm]
      rfl
    have hsome : 0 < e₀.shell.cmdIdx := hsome
    omega
  | deleted _ _ _ hx => exact absurd hcol (Nat.ne_of_gt hx)
  | typed hreg => exact hreg hback
  | cleared hreg => exact hreg hback

/-! ## Runs of the echo -/

theorem run_echoing (hprompt : Prompt start) (hrun : Run (EchoStep B D) start es e) :
    Echoing e :=
  hrun.invariant hprompt.echoing fun _ _ _ h hstep => h.step hstep

/-- Keys of a line are always served, and that is a run. -/
theorem echoKeys_run (h : Echoing e) (hkeys : ∀ c ∈ keys, c ≠ 0 ∧ c ≠ 10) :
    ∃ es e', echoKeys B D keys e = .ok e' ∧ Run (EchoStep B D) e es e'
      ∧ es.map Prod.snd = keys := by
  induction keys generalizing e with
  | nil => exact ⟨[], e, rfl, .nil, rfl⟩
  | cons c keys ih =>
    obtain ⟨hnull, henter⟩ := hkeys c List.mem_cons_self
    obtain ⟨s', hs, -⟩ := h.types.shellKey (B := B) (D := D) hnull henter
    have hkey : echoKey B D e c = .ok ⟨s', termCalls e.term (newCalls e.shell s')⟩ := by
      rw [echoKey, hs]
      rfl
    have hstep : EchoStep B D e (e, c) _ := .key hnull henter hkey
    obtain ⟨es, e', hrest, hrun, hsnd⟩ :=
      ih (h.step hstep) fun a ha => hkeys a (List.mem_cons_of_mem c ha)
    refine ⟨[(e, c)] ++ es, e', ?_, (Run.single hstep).append hrun, ?_⟩
    · rw [echoKeys, hkey]
      exact hrest
    · rw [List.map_append, hsnd]
      rfl

theorem run_position (hprompt : Prompt start) (hrun : Run (EchoStep B D) start es e) :
    Position start (wraps es) e ∧ (wraps es = 0 → ∀ p ∈ es, ¬ Stuck p) := by
  induction hrun with
  | nil => exact ⟨hprompt.position, fun _ p hp => absurd hp List.not_mem_nil⟩
  | @snoc es a b p hrun hstep ih =>
    have hscreen := (run_echoing hprompt hrun).screen
    obtain ⟨hpos, hnone⟩ := ih
    obtain ⟨hp, hkeyed⟩ := hstep.keyed hscreen
    obtain ⟨a₀, c⟩ := p
    obtain rfl : a₀ = a := hp
    rw [wraps_snoc]
    refine ⟨hpos.step hscreen hkeyed, fun hzero p hp => ?_⟩
    have hbefore : wraps es = 0 := Nat.eq_zero_of_add_eq_zero_right hzero
    rcases List.mem_append.mp hp with hold | hlast
    · exact hnone hbefore p hold
    · rw [List.mem_singleton.mp hlast]
      rw [hbefore] at hpos
      exact hpos.not_stuck

theorem run_follows (hprompt : Prompt start) (hrun : Run (EchoStep B D) start es e)
    (hnone : ∀ p ∈ es, ¬ Stuck p) : (∀ p ∈ es, Follows start p.1) ∧ Follows start e := by
  induction hrun with
  | nil => exact ⟨fun p hp => absurd hp List.not_mem_nil, hprompt.follows⟩
  | @snoc es a b p hrun hstep ih =>
    obtain ⟨hall, hf⟩ := ih fun q hq => hnone q (List.mem_append_left _ hq)
    have hlast : ¬ Stuck p := hnone p (List.mem_append_right _ (List.mem_singleton_self p))
    have hecho := run_echoing hprompt hrun
    refine ⟨fun q hq => ?_, hf.step hprompt hecho hstep hlast⟩
    rcases List.mem_append.mp hq with hold | hq
    · exact hall q hold
    · rw [List.mem_singleton.mp hq, (hstep.keyed hecho.screen).1]
      exact hf

theorem run_not_stuck (hprompt : Prompt start) (hrun : Run (EchoStep B D) start es e)
    (hall : ∀ p ∈ es, Follows start p.1) (hf : Follows start e) : ∀ p ∈ es, ¬ Stuck p := by
  induction hrun with
  | nil => exact fun p hp => absurd hp List.not_mem_nil
  | @snoc es a b p hrun hstep ih =>
    have hecho := run_echoing hprompt hrun
    have hfirst : ∀ q ∈ es, Follows start q.1 := fun q hq => hall q (List.mem_append_left _ hq)
    have hbefore : Follows start a := by
      have hlast := hall p (List.mem_append_right _ (List.mem_singleton_self p))
      rw [(hstep.keyed hecho.screen).1] at hlast
      exact hlast
    intro q hq hstuck
    rcases List.mem_append.mp hq with hold | hlast
    · exact ih hfirst hbefore q hold hstuck
    · rw [List.mem_singleton.mp hlast] at hstuck
      exact hbefore.stuck hecho hstep hstuck hf

/-- An empty line that is shown leaves the cursor at the prompt. -/
theorem Follows.back (hprompt : Prompt start) (hf : Follows start e) (h : Echoing e)
    (hempty : e.shell.cmdIdx = 0) : Back start e := by
  have hcol := hprompt.col
  have hcol' := h.screen.col
  have hindex := hf.cursor
  rw [h.length, hempty, Terminal.index, Terminal.index, vgaCols] at hindex
  exact h.back (by omega) (by omega)

/-- Below the prompt, the cursor of an empty line is in column 0 of the row that the
    last wrap led to. -/
theorem Position.back_iff {w : Nat} (hprompt : Prompt start) (hpos : Position start w e)
    (h : Echoing e) (hempty : e.shell.cmdIdx = 0) :
    Back start e ↔ w = 0 ∨ start.term.x = 0 ∧ 25 ∣ w := by
  have hrow := hprompt.row
  constructor
  · rintro ⟨hx, hy, -⟩
    cases hpos with
    | row _ _ => exact Or.inl rfl
    | below hcol hmod => exact Or.inr ⟨by omega, by omega⟩
  · intro hw
    cases hpos with
    | row hcol hmod => exact h.back (by omega) hmod
    | below hcol hmod => exact h.back (by omega) (by omega)

/-- **THE ECHO FOLLOWS THE LINE**: whatever keys are typed at a prompt, in all states
    the screen shows the line if and only if no character was deleted in column 0.  If
    one was and the line is empty at the end, the cursor is not at the prompt, unless
    the typing went once or more around the whole screen from column 0. -/
theorem echo_follows_iff (B : Blocks) (D : Devices δ) (start : Echo δ) (hprompt : Prompt start)
    (keys : List UInt8) (hkeys : ∀ c ∈ keys, c ≠ 0 ∧ c ≠ 10) :
    ∃ es e, echoKeys B D keys start = .ok e ∧ Run (EchoStep B D) start es e
      ∧ es.map Prod.snd = keys
      ∧ ((∀ p ∈ es, Follows start p.1) ∧ Follows start e ↔ ∀ p ∈ es, ¬ Stuck p)
      ∧ (e.shell.cmdIdx = 0 → (Back start e ↔
        (∀ p ∈ es, ¬ Stuck p) ∨ start.term.x = 0 ∧ 25 ∣ wraps es)) := by
  obtain ⟨es, e, hcall, hrun, hsnd⟩ := echoKeys_run (B := B) (D := D) hprompt.echoing hkeys
  have hecho := run_echoing hprompt hrun
  obtain ⟨hpos, hnone⟩ := run_position hprompt hrun
  refine ⟨es, e, hcall, hrun, hsnd, ?_, fun hempty => ?_⟩
  · exact ⟨fun hall => run_not_stuck hprompt hrun hall.1 hall.2, run_follows hprompt hrun⟩
  constructor
  · intro hback
    exact ((hpos.back_iff hprompt hecho hempty).mp hback).imp_left hnone
  · rintro (hnot | hround)
    · exact (run_follows hprompt hrun hnot).2.back hprompt hecho hempty
    · exact (hpos.back_iff hprompt hecho hempty).mpr (Or.inr hround)

/-! ## Two lines -/

/-- A blank screen with the prompt in row 5. -/
def promptRow5 : Echo Unit := ⟨shellInit smallConsole, ⟨fun _ => blankCell, 11, 5, 411, []⟩⟩

theorem promptRow5_prompt : Prompt promptRow5 := ⟨by decide, by decide, rfl, rfl⟩

/-- The index and the cursor after the keys. -/
def echoSeen (keys : List UInt8) : Except Halt (Nat × Nat × Nat) :=
  (echoKeys noBlocks smallDevices keys promptRow5).map
    fun e => (e.shell.cmdIdx, e.term.x, e.term.y)

theorem echo_follows_hi :
    ∃ es e, echoKeys noBlocks smallDevices (chars "hi\x08\x08") promptRow5 = .ok e
      ∧ Run (EchoStep noBlocks smallDevices) promptRow5 es e
      ∧ es.map Prod.snd = chars "hi\x08\x08"
      ∧ ((∀ p ∈ es, Follows promptRow5 p.1) ∧ Follows promptRow5 e ↔ ∀ p ∈ es, ¬ Stuck p)
      ∧ (e.shell.cmdIdx = 0 → (Back promptRow5 e ↔
        (∀ p ∈ es, ¬ Stuck p) ∨ promptRow5.term.x = 0 ∧ 25 ∣ wraps es)) :=
  echo_follows_iff noBlocks smallDevices promptRow5 promptRow5_prompt (chars "hi\x08\x08")
    (by decide +kernel)

/-- 69 characters reach the next row, and 69 backspaces do not come back from it. -/
theorem echo_not_back :
    ∃ e, echoKeys noBlocks smallDevices (List.replicate 69 97 ++ List.replicate 69 8) promptRow5
        = .ok e
      ∧ e.shell.cmdIdx = 0 ∧ e.term.x = 0 ∧ e.term.y = 6 ∧ ¬ Back promptRow5 e := by
  have hseen : echoSeen (List.replicate 69 97 ++ List.replicate 69 8) = .ok (0, 0, 6) := by
    decide +kernel
  rw [echoSeen] at hseen
  cases hrun : echoKeys noBlocks smallDevices (List.replicate 69 97 ++ List.replicate 69 8)
      promptRow5 with
  | error halt =>
    rw [hrun] at hseen
    cases hseen
  | ok e =>
    rw [hrun] at hseen
    obtain ⟨hempty, hcursor⟩ := Prod.mk.inj (Except.ok.inj hseen)
    obtain ⟨hx, hy⟩ := Prod.mk.inj hcursor
    refine ⟨e, rfl, hempty, hx, hy, fun hback => ?_⟩
    have hrow : e.term.y = 5 := hback.row
    omega

end PyramidShellEcho
