import PyramidOS.KernelBaseProofs
import Mathlib.Tactic.Common

/-! # Right-to-left text

    `gfx_write_u16_rtl` of `stage2.asm` and the tables of `arabic_forms.inc`: a string of
    16-bit code units is drawn from the right to the left, Arabic letters in the form
    their neighbours ask for, Lam-Alef pairs as one glyph, digit runs in their own order.

    The string is the list of units from SI on; the end of the list stands for the
    terminator, and SI counts units.  Every glyph asked for is logged with the unit it
    stands for.

    * `RtlInv` — what holds at `.next_cp`, kept by one turn (`RtlInv.step`);
    * `gfxWriteU16Rtl_spec` — the routine ends, and draws every letter outside a ligature
      once the way `codeGlyph` computes it. -/

namespace PyramidBoot

open PyramidKernel

/-! ## The tables -/

/-- The join types `'D'`, `'R'` and `'U'`. -/
def typeD : UInt8 := 0x44
def typeR : UInt8 := 0x52
def typeU : UInt8 := 0x55

/-- An entry of `ar_form_table`. -/
structure ArForm where
  baseCp : UInt16
  joinType : UInt8
  isoLow : UInt8
  finLow : UInt8
  iniLow : UInt8
  medLow : UInt8

/-- `ar_form_table`. -/
def arFormTable : List ArForm :=
  [⟨0x0621, typeU, 0x80, 0x00, 0x00, 0x00⟩, ⟨0x0622, typeR, 0x81, 0x82, 0x00, 0x00⟩,
    ⟨0x0623, typeR, 0x83, 0x84, 0x00, 0x00⟩, ⟨0x0624, typeR, 0x85, 0x86, 0x00, 0x00⟩,
    ⟨0x0625, typeR, 0x87, 0x88, 0x00, 0x00⟩, ⟨0x0626, typeD, 0x89, 0x8A, 0x8B, 0x8C⟩,
    ⟨0x0627, typeR, 0x8D, 0x8E, 0x00, 0x00⟩, ⟨0x0628, typeD, 0x8F, 0x90, 0x91, 0x92⟩,
    ⟨0x0629, typeR, 0x93, 0x94, 0x00, 0x00⟩, ⟨0x062A, typeD, 0x95, 0x96, 0x97, 0x98⟩,
    ⟨0x062B, typeD, 0x99, 0x9A, 0x9B, 0x9C⟩, ⟨0x062C, typeD, 0x9D, 0x9E, 0x9F, 0xA0⟩,
    ⟨0x062D, typeD, 0xA1, 0xA2, 0xA3, 0xA4⟩, ⟨0x062E, typeD, 0xA5, 0xA6, 0xA7, 0xA8⟩,
    ⟨0x062F, typeR, 0xA9, 0xAA, 0x00, 0x00⟩, ⟨0x0630, typeR, 0xAB, 0xAC, 0x00, 0x00⟩,
    ⟨0x0631, typeR, 0xAD, 0xAE, 0x00, 0x00⟩, ⟨0x0632, typeR, 0xAF, 0xB0, 0x00, 0x00⟩,
    ⟨0x0633, typeD, 0xB1, 0xB2, 0xB3, 0xB4⟩, ⟨0x0634, typeD, 0xB5, 0xB6, 0xB7, 0xB8⟩,
    ⟨0x0635, typeD, 0xB9, 0xBA, 0xBB, 0xBC⟩, ⟨0x0636, typeD, 0xBD, 0xBE, 0xBF, 0xC0⟩,
    ⟨0x0637, typeD, 0xC1, 0xC2, 0xC3, 0xC4⟩, ⟨0x0638, typeD, 0xC5, 0xC6, 0xC7, 0xC8⟩,
    ⟨0x0639, typeD, 0xC9, 0xCA, 0xCB, 0xCC⟩, ⟨0x063A, typeD, 0xCD, 0xCE, 0xCF, 0xD0⟩,
    ⟨0x0641, typeD, 0xD1, 0xD2, 0xD3, 0xD4⟩, ⟨0x0642, typeD, 0xD5, 0xD6, 0xD7, 0xD8⟩,
    ⟨0x0643, typeD, 0xD9, 0xDA, 0xDB, 0xDC⟩, ⟨0x0644, typeD, 0xDD, 0xDE, 0xDF, 0xE0⟩,
    ⟨0x0645, typeD, 0xE1, 0xE2, 0xE3, 0xE4⟩, ⟨0x0646, typeD, 0xE5, 0xE6, 0xE7, 0xE8⟩,
    ⟨0x0647, typeD, 0xE9, 0xEA, 0xEB, 0xEC⟩, ⟨0x0648, typeR, 0xED, 0xEE, 0x00, 0x00⟩,
    ⟨0x0649, typeD, 0xEF, 0xF0, 0x00, 0x00⟩, ⟨0x064A, typeD, 0xF1, 0xF2, 0xF3, 0xF4⟩]

/-- An entry of `ar_lamalef_table`. -/
structure LamAlef where
  variantCp : UInt16
  isoLow : UInt8
  finLow : UInt8

/-- `ar_lamalef_table`. -/
def arLamalefTable : List LamAlef :=
  [⟨0x0622, 0xF5, 0xF6⟩, ⟨0x0623, 0xF7, 0xF8⟩, ⟨0x0625, 0xF9, 0xFA⟩, ⟨0x0627, 0xFB, 0xFC⟩]

/-- `ar_find_entry`; `none` for CF=1. -/
def arFindEntry (ax : UInt16) : Option ArForm := arFormTable.find? fun e => e.baseCp = ax

/-- `ar_find_lamalef`; `none` for CF=1. -/
def arFindLamalef (ax : UInt16) : Option LamAlef :=
  arLamalefTable.find? fun e => e.variantCp = ax

/-- `gfx_u16_is_digit`. -/
def gfxU16IsDigit (ax : UInt16) : Bool :=
  decide ((0x0030 ≤ ax ∧ ax ≤ 0x0039) ∨ (0x0660 ≤ ax ∧ ax ≤ 0x0669))

/-! ## The code -/

/-- A call of `gfx_draw_glyph_8x16`: the unit it is for, and BH, AX, DX and BL. -/
structure GlyphDraw where
  unit : Nat
  glyph : UInt8
  x : UInt16
  y : UInt16
  color : UInt8

/-- SI, `gfx_cursor_x`, `ar_prev_type`, and the glyphs drawn so far. -/
structure RtlText where
  si : Nat
  cursorX : UInt16
  prevType : UInt8
  draws : List GlyphDraw

section Code

variable (s : List UInt16) (y : UInt16) (color : UInt8)

/-- `[si]`, with the terminator behind the string. -/
def unitAt (i : Nat) : UInt16 := s.getD i 0

/-- Draw BH at the cursor, and move the cursor by `GFX_FONT_W`. -/
def RtlText.emit (t : RtlText) (unit : Nat) (bh : UInt8) : RtlText :=
  { t with
    draws := t.draws ++ [⟨unit, bh, t.cursorX, y, color⟩]
    cursorX := t.cursorX - 8 }

/-- `.scan`: the number of digits at the front. -/
def scanDigits : List UInt16 → Nat
  | [] => 0
  | ax :: rest => if ax = 0 then 0 else if gfxU16IsDigit ax then scanDigits rest + 1 else 0

/-- BH for a digit. -/
def digitGlyph (ax : UInt16) : UInt8 :=
  if ax < 0x0660 then ax.toUInt8 else (ax - 0x0660).toUInt8 + 0x10

/-- `.draw_digits`, over CX digits down from DI. -/
def drawDigits : Nat → Nat → RtlText → RtlText
  | 0, _, t => t
  | cx + 1, di, t => drawDigits cx (di - 1) (t.emit y color di (digitGlyph (unitAt s di)))

/-- `.digit_run`. -/
def digitRun (t : RtlText) : RtlText :=
  let cx := scanDigits (s.drop t.si)
  { drawDigits s y color cx (t.si + cx - 1) t with si := t.si + cx, prevType := 0 }

/-- DH: the letter connects to the one before. -/
def arConnectPrev (prevType dl : UInt8) : UInt8 :=
  if prevType = typeD ∧ (dl = typeD ∨ dl = typeR) then 1 else 0

/-- AL: the letter connects to the one after.  Where the lookup fails, or finds a type
    that does not connect, AL still holds the low byte of the unit. -/
def arConnectNext (dl : UInt8) (next : UInt16) : UInt8 :=
  if dl ≠ typeD then 0
  else if next = 0 then next.toUInt8
  else
    match arFindEntry next with
    | none => next.toUInt8
    | some e => if e.joinType = typeD ∨ e.joinType = typeR then 1 else next.toUInt8

/-- BH: the form byte, and the isolated one where there is none. -/
def arSelectForm (e : ArForm) (dh al : UInt8) : UInt8 :=
  let bh :=
    if dh ≠ 0 then if al ≠ 0 then e.medLow else e.finLow
    else if al ≠ 0 then e.iniLow else e.isoLow
  if bh = 0 then e.isoLow else bh

/-- BH for a unit that is neither a digit nor a letter. -/
def nonArabicGlyph (ax : UInt16) : UInt8 :=
  if ax = 0x0028 then 0x29
  else if ax = 0x0029 then 0x28
  else if ax < 0x0100 then ax.toUInt8 else 0x3F

/-- The look for a Lam-Alef pair. -/
def lamalefAt (i : Nat) : Option LamAlef :=
  if unitAt s i = 0x0644 ∧ unitAt s (i + 1) ≠ 0 then arFindLamalef (unitAt s (i + 1)) else none

/-- One turn of `.next_cp`, at a unit that is not the terminator. -/
def rtlStep (t : RtlText) : RtlText :=
  let ax := unitAt s t.si
  if gfxU16IsDigit ax then digitRun s y color t
  else
    match lamalefAt s t.si with
    | some e =>
        { t.emit y color t.si (if t.prevType = typeD then e.finLow else e.isoLow) with
          si := t.si + 2, prevType := 0 }
    | none =>
        match arFindEntry ax with
        | some e =>
            let dh := arConnectPrev t.prevType e.joinType
            let al := arConnectNext e.joinType (unitAt s (t.si + 1))
            { t.emit y color t.si (arSelectForm e dh al) with
              si := t.si + 1, prevType := e.joinType }
        | none =>
            { t.emit y color t.si (nonArabicGlyph ax) with si := t.si + 1, prevType := 0 }

/-- The loop of `gfx_write_u16_rtl`. -/
def rtlLoop : Nat → RtlText → Except Halt RtlText
  | 0, _ => .error .diverges
  | fuel + 1, t => if unitAt s t.si = 0 then .ok t else rtlLoop fuel (rtlStep s y color t)

/-- `gfx_write_u16_rtl` at (AX, DX) = (x, y), in color BL.  Every turn moves SI, so a
    string of `n` units takes `n` turns at most. -/
def gfxWriteU16Rtl (x : UInt16) : Except Halt RtlText :=
  rtlLoop s y color (s.length + 1) ⟨0, x, 0, []⟩

end Code

variable {s : List UInt16} {x y : UInt16} {color : UInt8} {t t' : RtlText} {i j n : Nat}
  {u : UInt16}

/-! ## Positions in the string -/

/-- How many units stand before the terminator. -/
def textLen : List UInt16 → Nat
  | [] => 0
  | u :: rest => if u = 0 then 0 else textLen rest + 1

theorem textLen_le (s : List UInt16) : textLen s ≤ s.length := by
  induction s with
  | nil => exact Nat.le_refl 0
  | cons u rest ih =>
      rw [textLen]
      split
      · exact Nat.zero_le _
      · exact Nat.succ_le_succ ih

/-- None of them is the terminator. -/
theorem unitAt_ne_zero (hi : i < textLen s) : unitAt s i ≠ 0 := by
  induction s generalizing i with
  | nil => exact absurd hi (Nat.not_lt_zero i)
  | cons u rest ih =>
      rw [textLen] at hi
      split at hi
      · exact absurd hi (Nat.not_lt_zero i)
      · next hu =>
          cases i with
          | zero => exact hu
          | succ i => exact ih (Nat.lt_of_succ_lt_succ hi)

theorem unitAt_textLen (s : List UInt16) : unitAt s (textLen s) = 0 := by
  induction s with
  | nil => rfl
  | cons u rest ih =>
      rw [textLen]
      split
      · next hu => exact hu
      · exact ih

/-- The unit after one of the string is the terminator or one of the string. -/
theorem succ_lt_textLen (hi : i < textLen s) (hnext : unitAt s (i + 1) ≠ 0) :
    i + 1 < textLen s := by
  refine Nat.lt_of_le_of_ne hi fun heq => hnext ?_
  rw [heq]
  exact unitAt_textLen s

theorem unitAt_drop (s : List UInt16) (i j : Nat) : unitAt (s.drop i) j = unitAt s (i + j) := by
  simp [unitAt, List.getD_eq_getElem?_getD]

/-- What `.scan` counts are digits of the string. -/
theorem scanDigits_digit (l : List UInt16) :
    ∀ j, j < scanDigits l → unitAt l j ≠ 0 ∧ gfxU16IsDigit (unitAt l j) = true := by
  induction l with
  | nil => intro j hj; exact absurd hj (Nat.not_lt_zero j)
  | cons u rest ih =>
      intro j hj
      rw [scanDigits] at hj
      split at hj
      · exact absurd hj (Nat.not_lt_zero j)
      · next hu =>
          split at hj
          · next hdigit =>
              cases j with
              | zero => exact ⟨hu, hdigit⟩
              | succ j => exact ih j (Nat.lt_of_succ_lt_succ hj)
          · exact absurd hj (Nat.not_lt_zero j)

/-- At a digit it counts one at least. -/
theorem scanDigits_pos {l : List UInt16} (hu : unitAt l 0 ≠ 0)
    (hdigit : gfxU16IsDigit (unitAt l 0) = true) : 0 < scanDigits l := by
  cases l with
  | nil => exact absurd rfl hu
  | cons u rest =>
      have hu' : u ≠ 0 := hu
      have hdigit' : gfxU16IsDigit u = true := hdigit
      rw [scanDigits, if_neg hu', if_pos hdigit']
      exact Nat.succ_pos _

/-! ## The tables -/

/-- An entry found is one of the table, for the unit looked up. -/
theorem arFindEntry_some {e : ArForm} (h : arFindEntry u = some e) :
    e ∈ arFormTable ∧ e.baseCp = u := by
  have hcp : decide (e.baseCp = u) = true :=
    List.find?_some (p := fun e : ArForm => decide (e.baseCp = u)) h
  exact ⟨List.mem_of_find?_eq_some h, of_decide_eq_true hcp⟩

/-- Digits are no letters. -/
theorem arFindEntry_digit (h : gfxU16IsDigit u = true) : arFindEntry u = none := by
  have hnone : ∀ e ∈ arFormTable, gfxU16IsDigit e.baseCp = false := by decide
  cases hfind : arFindEntry u with
  | none => rfl
  | some e =>
      obtain ⟨hmem, hcp⟩ := arFindEntry_some hfind
      have hno := hnone e hmem
      rw [hcp, h] at hno
      cases hno

/-- The alef variants are letters, but not LAM. -/
theorem arFindLamalef_some {e : LamAlef} (h : arFindLamalef u = some e) : u ≠ 0x0644 := by
  have hnone : ∀ e ∈ arLamalefTable, e.variantCp ≠ 0x0644 := by decide
  have hcp : decide (e.variantCp = u) = true :=
    List.find?_some (p := fun e : LamAlef => decide (e.variantCp = u)) h
  rw [← of_decide_eq_true hcp]
  exact hnone e (List.mem_of_find?_eq_some h)

/-- The join type of a unit; 0 for what is no letter of the table. -/
def joinTypeOf (u : UInt16) : UInt8 := ((arFindEntry u).map ArForm.joinType).getD 0

theorem joinTypeOf_some {e : ArForm} (h : arFindEntry u = some e) : joinTypeOf u = e.joinType := by
  rw [joinTypeOf, h]
  rfl

/-! ## Letters outside of ligatures -/

/-- A Lam-Alef pair begins at `i`. -/
def LamAlefAt (s : List UInt16) (i : Nat) : Prop := (lamalefAt s i).isSome = true

instance (s : List UInt16) (i : Nat) : Decidable (LamAlefAt s i) :=
  inferInstanceAs (Decidable (_ = _))

/-- The unit at `i` is a letter of the table and neither half of a Lam-Alef pair. -/
def DrawnAlone (s : List UInt16) (i : Nat) : Prop :=
  i < textLen s ∧ (arFindEntry (unitAt s i)).isSome = true ∧ ¬ LamAlefAt s i
    ∧ ¬ (0 < i ∧ LamAlefAt s (i - 1))

instance (s : List UInt16) (i : Nat) : Decidable (DrawnAlone s i) :=
  inferInstanceAs (Decidable (_ ∧ _))

/-- `ar_prev_type` at `.next_cp` in front of unit `i`. -/
def prevTypeAt (s : List UInt16) (i : Nat) : UInt8 :=
  if 0 < i ∧ DrawnAlone s (i - 1) then joinTypeOf (unitAt s (i - 1)) else 0

/-- The glyph the routine picks for the letter at `i`. -/
def codeGlyph (s : List UInt16) (i : Nat) : UInt8 :=
  match arFindEntry (unitAt s i) with
  | none => 0
  | some e => arSelectForm e (arConnectPrev (prevTypeAt s i) e.joinType)
      (arConnectNext e.joinType (unitAt s (i + 1)))

/-- A LAM and a unit of the string after it. -/
theorem LamAlefAt.lam (h : LamAlefAt s i) :
    unitAt s i = 0x0644 ∧ unitAt s (i + 1) ≠ 0 ∧ unitAt s (i + 1) ≠ 0x0644 := by
  rw [LamAlefAt, lamalefAt] at h
  split at h
  · next hcond =>
      obtain ⟨e, he⟩ := Option.isSome_iff_exists.mp h
      exact ⟨hcond.1, hcond.2, arFindLamalef_some he⟩
  · cases h

/-- Nothing else begins a pair. -/
theorem not_lamAlefAt (h : unitAt s i ≠ 0x0644) : ¬ LamAlefAt s i := fun hl => h hl.lam.1

/-- LAM is a letter, so no digit and nothing outside of the table is one. -/
theorem ne_lam_of_none (h : arFindEntry u = none) : u ≠ 0x0644 := by
  rintro rfl
  have hlam : (arFindEntry 0x0644).isSome = true := by decide
  rw [h] at hlam
  cases hlam

/-! ## The loop -/

/-- **AT `.next_cp`**: SI stands in front of a unit that ends no pair, `ar_prev_type` is
    the type of the letter before, and what lies behind was drawn. -/
structure RtlInv (s : List UInt16) (t : RtlText) : Prop where
  le : t.si ≤ textLen s
  boundary : ¬ (0 < t.si ∧ LamAlefAt s (t.si - 1))
  prev : t.prevType = prevTypeAt s t.si
  past : ∀ d ∈ t.draws, d.unit < t.si
  drawn : ∀ i, i < t.si → DrawnAlone s i → ∃ d ∈ t.draws, d.unit = i
  glyph : ∀ d ∈ t.draws, DrawnAlone s d.unit → d.glyph = codeGlyph s d.unit

/-- SI moves on, and the units it passed were dealt with by the draws `ds`. -/
theorem RtlInv.advance (h : RtlInv s t) (ds : List GlyphDraw) (hlt : t.si < t'.si)
    (hle : t'.si ≤ textLen s) (hboundary : ¬ LamAlefAt s (t'.si - 1))
    (hprev : t'.prevType = prevTypeAt s t'.si) (hdraws : t'.draws = t.draws ++ ds)
    (hunits : ∀ d ∈ ds, t.si ≤ d.unit ∧ d.unit < t'.si)
    (hdrawn : ∀ i, t.si ≤ i → i < t'.si → DrawnAlone s i → ∃ d ∈ ds, d.unit = i)
    (hglyph : ∀ d ∈ ds, DrawnAlone s d.unit → d.glyph = codeGlyph s d.unit) : RtlInv s t' := by
  refine ⟨hle, fun hc => hboundary hc.2, hprev, ?_, ?_, ?_⟩
  · rw [hdraws]
    intro d hd
    rcases List.mem_append.mp hd with hold | hnew
    · exact Nat.lt_trans (h.past d hold) hlt
    · exact (hunits d hnew).2
  · rw [hdraws]
    intro i hi halone
    by_cases hold : i < t.si
    · obtain ⟨d, hd, hunit⟩ := h.drawn i hold halone
      exact ⟨d, List.mem_append_left _ hd, hunit⟩
    · obtain ⟨d, hd, hunit⟩ := hdrawn i (Nat.not_lt.mp hold) hi halone
      exact ⟨d, List.mem_append_right _ hd, hunit⟩
  · rw [hdraws]
    intro d hd
    rcases List.mem_append.mp hd with hold | hnew
    · exact h.glyph d hold
    · exact hglyph d hnew

/-- With no letter drawn before it, `ar_prev_type` is 0. -/
theorem prevTypeAt_of_not (h : ¬ DrawnAlone s (i - 1)) : prevTypeAt s i = 0 :=
  if_neg fun hc => h hc.2

/-- The draws of a digit run are for its units. -/
theorem drawDigits_draws (s : List UInt16) (y : UInt16) (color : UInt8) :
    ∀ (cx di : Nat) (t : RtlText), cx ≤ di + 1 → ∃ ds,
      (drawDigits s y color cx di t).draws = t.draws ++ ds
      ∧ ∀ d ∈ ds, di + 1 - cx ≤ d.unit ∧ d.unit ≤ di := by
  intro cx
  induction cx with
  | zero => intro di t _; exact ⟨[], (List.append_nil _).symm, fun d hd => (nomatch hd)⟩
  | succ cx ih =>
      intro di t hle
      obtain ⟨ds, hds, hunits⟩ := ih (di - 1) (t.emit y color di (digitGlyph (unitAt s di)))
        (by omega)
      refine ⟨⟨di, digitGlyph (unitAt s di), t.cursorX, y, color⟩ :: ds, ?_, fun d hd => ?_⟩
      · rw [drawDigits, hds]
        exact List.append_assoc ..
      · rcases List.mem_cons.mp hd with rfl | hmem
        · exact ⟨by show di + 1 - (cx + 1) ≤ di; omega, Nat.le_refl di⟩
        · have hunit := hunits d hmem
          omega

/-- **A DIGIT RUN** holds no letter. -/
theorem RtlInv.digitRun (h : RtlInv s t) (hi : t.si < textLen s)
    (hdigit : gfxU16IsDigit (unitAt s t.si) = true) :
    RtlInv s (digitRun s y color t) ∧ t.si < (digitRun s y color t).si := by
  have hpos : 0 < scanDigits (s.drop t.si) :=
    scanDigits_pos (by rw [unitAt_drop]; exact unitAt_ne_zero hi)
      (by rw [unitAt_drop]; exact hdigit)
  have hrun : ∀ j, t.si ≤ j → j < t.si + scanDigits (s.drop t.si) →
      unitAt s j ≠ 0 ∧ gfxU16IsDigit (unitAt s j) = true := by
    intro j hlo hhi
    obtain ⟨k, rfl⟩ := Nat.exists_eq_add_of_le hlo
    rw [← unitAt_drop]
    exact scanDigits_digit _ k (by omega)
  have hnone : ∀ j, t.si ≤ j → j < t.si + scanDigits (s.drop t.si) → ¬ DrawnAlone s j := by
    intro j hlo hhi halone
    have hsome := halone.2.1
    rw [arFindEntry_digit (hrun j hlo hhi).2] at hsome
    cases hsome
  have hlen : ∀ j, j ≤ scanDigits (s.drop t.si) → t.si + j ≤ textLen s := by
    intro j
    induction j with
    | zero => intro _; exact h.le
    | succ j ih =>
        intro hj
        have hle := ih (by omega)
        refine Nat.lt_of_le_of_ne hle fun heq => ?_
        have hend : t.si + j = textLen s := heq
        have hne := (hrun (t.si + j) (by omega) (by omega)).1
        rw [hend] at hne
        exact hne (unitAt_textLen s)
  obtain ⟨ds, hds, hunits⟩ := drawDigits_draws s y color (scanDigits (s.drop t.si))
    (t.si + scanDigits (s.drop t.si) - 1) t (by omega)
  have hsi : (PyramidBoot.digitRun s y color t).si = t.si + scanDigits (s.drop t.si) := rfl
  have hlast := hrun (t.si + scanDigits (s.drop t.si) - 1) (by omega) (by omega)
  refine ⟨h.advance ds (by omega) (hlen _ (Nat.le_refl _)) ?_ ?_ hds ?_ ?_ ?_, by omega⟩
  · exact not_lamAlefAt (ne_lam_of_none (arFindEntry_digit hlast.2))
  · exact (prevTypeAt_of_not (hnone _ (by omega) (by omega))).symm
  · intro d hd
    have hunit := hunits d hd
    omega
  · intro i hlo hhi halone
    exact absurd halone (hnone i hlo hhi)
  · intro d hd halone
    have hunit := hunits d hd
    exact absurd halone (hnone d.unit (by omega) (by omega))

/-- **A LAM-ALEF PAIR**: neither half is drawn alone. -/
theorem RtlInv.lamalef {e : LamAlef} (h : RtlInv s t) (hi : t.si < textLen s)
    (hpair : lamalefAt s t.si = some e) (bh : UInt8) :
    RtlInv s { t.emit y color t.si bh with si := t.si + 2, prevType := 0 } := by
  have hat : LamAlefAt s t.si := by
    rw [LamAlefAt, hpair]
    rfl
  obtain ⟨-, hnext, hnotlam⟩ := hat.lam
  have hnone : ∀ j, t.si ≤ j → j < t.si + 2 → ¬ DrawnAlone s j := by
    rintro j hlo hhi ⟨-, -, hfirst, hsecond⟩
    by_cases hj : j = t.si
    · exact hfirst (hj ▸ hat)
    · refine hsecond ⟨by omega, ?_⟩
      rw [show j - 1 = t.si by omega]
      exact hat
  refine h.advance [⟨t.si, bh, t.cursorX, y, color⟩] (by show t.si < t.si + 2; omega)
    (succ_lt_textLen hi hnext) (not_lamAlefAt hnotlam)
    (prevTypeAt_of_not (hnone _ (by show t.si ≤ t.si + 2 - 1; omega)
      (by show t.si + 2 - 1 < _; omega))).symm rfl ?_ ?_ ?_
  · intro d hd
    rw [List.mem_singleton.mp hd]
    exact ⟨Nat.le_refl _, by show t.si < t.si + 2; omega⟩
  · intro i hlo hhi halone
    exact absurd halone (hnone i hlo hhi)
  · intro d hd halone
    rw [List.mem_singleton.mp hd] at halone
    exact absurd halone (hnone t.si (Nat.le_refl _) (by omega))

/-- **ONE UNIT**, drawn with the glyph that is meant for it if it is a letter. -/
theorem RtlInv.single (h : RtlInv s t) (hi : t.si < textLen s) (hpair : lamalefAt s t.si = none)
    {bh prev : UInt8} (hprev : prev = joinTypeOf (unitAt s t.si))
    (hglyph : DrawnAlone s t.si → bh = codeGlyph s t.si) :
    RtlInv s { t.emit y color t.si bh with si := t.si + 1, prevType := prev } := by
  have hat : ¬ LamAlefAt s t.si := by
    rw [LamAlefAt, hpair]
    exact Bool.false_ne_true
  refine h.advance [⟨t.si, bh, t.cursorX, y, color⟩] (Nat.lt_succ_self _) hi hat ?_ rfl
    ?_ ?_ ?_
  · show prev = prevTypeAt s (t.si + 1)
    rw [prevTypeAt, Nat.add_sub_cancel, hprev]
    by_cases hsome : (arFindEntry (unitAt s t.si)).isSome = true
    · exact (if_pos ⟨Nat.succ_pos _, hi, hsome, hat, h.boundary⟩).symm
    · rw [if_neg fun hc => hsome hc.2.2.1, joinTypeOf, Option.not_isSome_iff_eq_none.mp hsome]
      rfl
  · intro d hd
    rw [List.mem_singleton.mp hd]
    exact ⟨Nat.le_refl _, Nat.lt_succ_self _⟩
  · intro i hlo hhi _
    exact ⟨_, List.mem_singleton_self _, Nat.le_antisymm hlo (Nat.lt_succ_iff.mp hhi)⟩
  · intro d hd halone
    rw [List.mem_singleton.mp hd] at halone ⊢
    exact hglyph halone

/-- **ONE TURN** keeps the invariant and moves SI. -/
theorem RtlInv.step (h : RtlInv s t) (y : UInt16) (color : UInt8) (hi : t.si < textLen s) :
    RtlInv s (rtlStep s y color t) ∧ t.si < (rtlStep s y color t).si := by
  rw [rtlStep]
  by_cases hdigit : gfxU16IsDigit (unitAt s t.si) = true
  · simp only [if_pos hdigit]
    exact h.digitRun hi hdigit
  · simp only [if_neg hdigit]
    cases hpair : lamalefAt s t.si with
    | some e => exact ⟨h.lamalef hi hpair _, by show t.si < t.si + 2; omega⟩
    | none =>
        cases hfind : arFindEntry (unitAt s t.si) with
        | some e =>
            refine ⟨h.single hi hpair (joinTypeOf_some hfind).symm fun _ => ?_, Nat.lt_succ_self _⟩
            rw [codeGlyph, hfind, h.prev]
        | none =>
            refine ⟨h.single hi hpair ?_ fun halone => ?_, Nat.lt_succ_self _⟩
            · rw [joinTypeOf, hfind]
              rfl
            · have hsome := halone.2.1
              rw [hfind] at hsome
              cases hsome

/-- **THE LOOP** ends at the terminator. -/
theorem rtlLoop_spec (y : UInt16) (color : UInt8) :
    ∀ (fuel : Nat) (t : RtlText), RtlInv s t → textLen s - t.si < fuel →
    ∃ t', rtlLoop s y color fuel t = .ok t' ∧ RtlInv s t' ∧ t'.si = textLen s := by
  intro fuel
  induction fuel with
  | zero => intro t _ hfuel; exact absurd hfuel (Nat.not_lt_zero _)
  | succ fuel ih =>
      intro t h hfuel
      rw [rtlLoop]
      by_cases hend : t.si = textLen s
      · rw [if_pos (by rw [hend]; exact unitAt_textLen s)]
        exact ⟨t, rfl, h, hend⟩
      · have hi : t.si < textLen s := Nat.lt_of_le_of_ne h.le hend
        obtain ⟨hstep, hmore⟩ := h.step y color hi
        rw [if_neg (unitAt_ne_zero hi)]
        exact ih _ hstep (by omega)

/-- The start. -/
theorem rtlInv_start (s : List UInt16) (x : UInt16) : RtlInv s ⟨0, x, 0, []⟩ :=
  ⟨Nat.zero_le _, fun hc => absurd hc.1 (Nat.lt_irrefl 0),
    (if_neg fun hc => absurd hc.1 (Nat.lt_irrefl 0)).symm, fun _ hd => (nomatch hd),
    fun _ hi => absurd hi (Nat.not_lt_zero _), fun _ hd => (nomatch hd)⟩

/-- **`gfx_write_u16_rtl`** ends, and draws every letter outside of a ligature with the
    glyph the code picks for it. -/
theorem gfxWriteU16Rtl_spec (s : List UInt16) (x y : UInt16) (color : UInt8) :
    ∃ t, gfxWriteU16Rtl s y color x = .ok t
      ∧ ∀ i, DrawnAlone s i → (∃ d ∈ t.draws, d.unit = i)
        ∧ ∀ d ∈ t.draws, d.unit = i → d.glyph = codeGlyph s i := by
  have hlen := textLen_le s
  obtain ⟨t, hok, hinv, hend⟩ := rtlLoop_spec y color (s.length + 1) ⟨0, x, 0, []⟩
    (rtlInv_start s x) (by show textLen s - 0 < _; omega)
  refine ⟨t, hok, fun i halone => ⟨hinv.drawn i (by rw [hend]; exact halone.1) halone, ?_⟩⟩
  rintro d hd rfl
  exact hinv.glyph d hd halone

end PyramidBoot
