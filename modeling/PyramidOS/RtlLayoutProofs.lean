import PyramidOS.RtlTextProofs
import PyramidOS.RunReversalProofs

/-! # Right-to-left layout

    What `gfx_write_u16_rtl` draws, seen from the string: which units have a glyph, in
    which order they are drawn, and where.

    * `drawOrder` — the units but the second halves of Lam-Alef pairs, with every run of
      digits reversed;
    * `RtlLayout` — what was drawn when the loop is at `.next_cp`, kept by one turn
      (`RtlLayout.step`);
    * `rtl_layout` — for every string: the order, the places and the glyphs. -/

namespace PyramidBoot

open PyramidKernel RunReversal

/-! ## The layout of a string -/

/-- The units at `i` and behind it are a LAM and an Alef of `ar_lamalef_table`. -/
def LamAlefPair (s : List UInt16) (i : Nat) : Prop :=
  unitAt s i = 0x0644 ∧ ∃ e ∈ arLamalefTable, e.variantCp = unitAt s (i + 1)

instance (s : List UInt16) (i : Nat) : Decidable (LamAlefPair s i) :=
  inferInstanceAs (Decidable (_ ∧ _))

/-- The units before `n` but the Alefs of pairs. -/
def glyphUnits (s : List UInt16) (n : Nat) : List Nat :=
  (List.range n).filter fun i => ¬ (0 < i ∧ LamAlefPair s (i - 1))

/-- The unit at `i` is a digit, of either kind. -/
def isDigitAt (s : List UInt16) (i : Nat) : Bool := gfxU16IsDigit (unitAt s i)

/-- **THE ORDER**: the units that have a glyph, with every maximal run of digits
    reversed. -/
def drawOrder (s : List UInt16) : List Nat :=
  reverseRuns (isDigitAt s) (glyphUnits s (textLen s))

/-- Draw `k` stands `8 * k` to the left of `x`, on the given row. -/
def OnRow (x y : UInt16) (color : UInt8) (ds : List GlyphDraw) : Prop :=
  ∀ k (h : k < ds.length),
    ds[k].x = x - 8 * UInt16.ofNat k ∧ ds[k].y = y ∧ ds[k].color = color

/-- The glyph of a unit that is a digit, or no letter. -/
def PlainGlyph (s : List UInt16) (d : GlyphDraw) : Prop :=
  (isDigitAt s d.unit = true → d.glyph = digitGlyph (unitAt s d.unit))
    ∧ (isDigitAt s d.unit = false → arFindEntry (unitAt s d.unit) = none →
      d.glyph = nonArabicGlyph (unitAt s d.unit))

variable {s : List UInt16} {x y : UInt16} {color bh : UInt8} {t t' : RtlText} {i j u : Nat}
  {ds : List GlyphDraw}

/-! ## Pairs and digits -/

/-- The code finds the pairs. -/
theorem lamAlefPair_iff : LamAlefPair s i ↔ LamAlefAt s i := by
  have hnonzero : ∀ e ∈ arLamalefTable, e.variantCp ≠ 0 := by decide
  rw [LamAlefAt, lamalefAt]
  constructor
  · rintro ⟨hlam, e, he, hvariant⟩
    rw [if_pos ⟨hlam, hvariant ▸ hnonzero e he⟩, arFindLamalef, List.find?_isSome]
    exact ⟨e, he, decide_eq_true hvariant⟩
  · intro hsome
    split at hsome
    · next hlam =>
      rw [arFindLamalef, List.find?_isSome] at hsome
      obtain ⟨e, he, hvariant⟩ := hsome
      exact ⟨hlam.1, e, he, of_decide_eq_true hvariant⟩
    · cases hsome

theorem LamAlefPair.not_digit (h : LamAlefPair s i) :
    isDigitAt s i = false ∧ isDigitAt s (i + 1) = false := by
  have hnone : ∀ e ∈ arLamalefTable, gfxU16IsDigit e.variantCp = false := by decide
  obtain ⟨hlam, e, he, hvariant⟩ := h
  rw [isDigitAt, isDigitAt, hlam, ← hvariant]
  exact ⟨by decide, hnone e he⟩

/-- What stops `.scan` is no digit. -/
theorem scanDigits_stop (l : List UInt16) : gfxU16IsDigit (unitAt l (scanDigits l)) = false := by
  have hend : gfxU16IsDigit 0 = false := by decide
  induction l with
  | nil => exact hend
  | cons u rest ih =>
    rw [scanDigits]
    split
    · next hu =>
      rw [show unitAt (u :: rest) 0 = u from rfl, hu]
      exact hend
    · split
      · exact ih
      · next hdigit => exact Bool.eq_false_iff.mpr hdigit

/-! ## Units with a glyph -/

theorem glyphUnits_succ (h : ¬ (0 < i ∧ LamAlefPair s (i - 1))) :
    glyphUnits s (i + 1) = glyphUnits s i ++ [i] := by
  rw [glyphUnits, List.range_succ, List.filter_append, List.filter_cons, if_pos (decide_eq_true h)]
  rfl

/-- A pair has one. -/
theorem glyphUnits_pair (h : ¬ (0 < i ∧ LamAlefPair s (i - 1))) (hpair : LamAlefPair s i) :
    glyphUnits s (i + 2) = glyphUnits s i ++ [i] := by
  have hsecond : decide (¬ (0 < i + 1 ∧ LamAlefPair s (i + 1 - 1))) = false :=
    decide_eq_false (not_not.mpr ⟨Nat.succ_pos i, hpair⟩)
  rw [← glyphUnits_succ h, glyphUnits, List.range_succ, List.filter_append, List.filter_cons,
    hsecond]
  exact List.append_nil _

/-- Digits have one each. -/
theorem glyphUnits_digits (c : Nat) (h : ∀ j, i ≤ j → j < i + c → isDigitAt s j = true) :
    glyphUnits s (i + c) = glyphUnits s i ++ List.range' i c := by
  induction c with
  | zero => exact (List.append_nil _).symm
  | succ c ih =>
    have hdigit := h (i + c) (by omega) (by omega)
    have hnot : ¬ (0 < i + c ∧ LamAlefPair s (i + c - 1)) := by
      rintro ⟨hpos, hpair⟩
      have hfalse := hpair.not_digit.2
      rw [Nat.sub_add_cancel hpos, hdigit] at hfalse
      cases hfalse
    rw [← Nat.add_assoc, glyphUnits_succ hnot, ih fun j hlo hhi => h j hlo (by omega),
      List.range'_1_concat, List.append_assoc]

/-! ## Places -/

theorem OnRow.snoc {d : GlyphDraw} (h : OnRow x y color ds)
    (hd : d.x = x - 8 * UInt16.ofNat ds.length ∧ d.y = y ∧ d.color = color) :
    OnRow x y color (ds ++ [d]) := by
  intro k hk
  rw [List.length_append, List.length_singleton] at hk
  by_cases hold : k < ds.length
  · rw [List.getElem_append_left hold]
    exact h k hold
  · obtain rfl : k = ds.length := by omega
    rw [List.getElem_concat_length rfl]
    exact hd

/-- The cursor after `n` glyphs. -/
theorem cursor_succ (x : UInt16) (n : Nat) :
    x - 8 * UInt16.ofNat n - 8 = x - 8 * UInt16.ofNat (n + 1) := by
  rw [UInt16.ofNat_add]
  grind

theorem emit_cursorX (t : RtlText) (y : UInt16) (color : UInt8) (u : Nat) (bh : UInt8) :
    (t.emit y color u bh).cursorX = t.cursorX - 8 := rfl

theorem emit_draws (t : RtlText) (y : UInt16) (color : UInt8) (u : Nat) (bh : UInt8) :
    (t.emit y color u bh).draws = t.draws ++ [⟨u, bh, t.cursorX, y, color⟩] := rfl

/-- **WHAT WAS DRAWN** stands in its place, and the cursor behind it. -/
structure Drawn (s : List UInt16) (x y : UInt16) (color : UInt8) (t : RtlText) : Prop where
  cursor : t.cursorX = x - 8 * UInt16.ofNat t.draws.length
  row : OnRow x y color t.draws
  plain : ∀ d ∈ t.draws, PlainGlyph s d

/-- One more glyph. -/
theorem Drawn.emit (h : Drawn s x y color t) (hplain : PlainGlyph s ⟨u, bh, t.cursorX, y, color⟩) :
    Drawn s x y color (t.emit y color u bh) := by
  constructor
  · rw [emit_cursorX, emit_draws, h.cursor, cursor_succ, List.length_append, List.length_singleton]
  · rw [emit_draws]
    exact h.row.snoc ⟨h.cursor, rfl, rfl⟩
  · rw [emit_draws]
    intro d hd
    rcases List.mem_append.mp hd with hold | hnew
    · exact h.plain d hold
    · rw [List.mem_singleton.mp hnew]
      exact hplain

/-- `.draw_digits`: the digits from `di` down. -/
theorem Drawn.drawDigits (cx : Nat) :
    ∀ (di : Nat) (t : RtlText), Drawn s x y color t → cx ≤ di + 1 →
      (∀ j, di + 1 - cx ≤ j → j ≤ di → isDigitAt s j = true) →
      Drawn s x y color (drawDigits s y color cx di t)
        ∧ (PyramidBoot.drawDigits s y color cx di t).draws.map GlyphDraw.unit
          = t.draws.map GlyphDraw.unit ++ (List.range' (di + 1 - cx) cx).reverse := by
  induction cx with
  | zero => exact fun di t h _ _ => ⟨h, (List.append_nil _).symm⟩
  | succ cx ih =>
    intro di t h hle hdigits
    have hplain : PlainGlyph s ⟨di, digitGlyph (unitAt s di), t.cursorX, y, color⟩ := by
      refine ⟨fun _ => rfl, fun hfalse => ?_⟩
      have htrue := hdigits di (by omega) (Nat.le_refl di)
      rw [show isDigitAt s di = false from hfalse] at htrue
      cases htrue
    obtain ⟨hdrawn, hunits⟩ := ih (di - 1) _ (h.emit hplain) (by omega)
      fun j hlo hhi => hdigits j (by omega) (by omega)
    refine ⟨hdrawn, ?_⟩
    rw [PyramidBoot.drawDigits, hunits, emit_draws, List.map_append, List.append_assoc,
      List.range'_1_concat, List.reverse_append, show di + 1 - (cx + 1) + cx = di by omega]
    rcases Nat.eq_zero_or_pos cx with rfl | hpos
    · rfl
    · rw [show di - 1 + 1 - cx = di + 1 - (cx + 1) by omega]
      rfl

/-! ## The loop -/

/-- **AT `.next_cp`**: the units before SI are drawn in their order, and no run of digits
    goes on from them. -/
structure RtlLayout (s : List UInt16) (x y : UInt16) (color : UInt8) (t : RtlText) : Prop where
  order : t.draws.map GlyphDraw.unit = reverseRuns (isDigitAt s) (glyphUnits s t.si)
  edge : ∀ i ∈ (glyphUnits s t.si).getLast?, (isDigitAt s i && isDigitAt s t.si) = false
  drawn : Drawn s x y color t

/-- SI moves on over the units `m`, which were drawn. -/
theorem RtlLayout.advance {m : List Nat} (h : RtlLayout s x y color t)
    (hm : glyphUnits s t'.si = glyphUnits s t.si ++ m) (hhead : m.head? = some t.si)
    (hunits : t'.draws.map GlyphDraw.unit
      = t.draws.map GlyphDraw.unit ++ reverseRuns (isDigitAt s) m)
    (hedge : ∀ i ∈ m.getLast?, (isDigitAt s i && isDigitAt s t'.si) = false)
    (hdrawn : Drawn s x y color t') : RtlLayout s x y color t' := by
  refine ⟨?_, ?_, hdrawn⟩
  · rw [hunits, h.order, hm, reverseRuns_append]
    intro a ha b hb
    rw [hhead] at hb
    rw [← Option.mem_some.mp hb]
    exact h.edge a ha
  · have hne : m ≠ [] := by
      rintro rfl
      cases hhead
    rw [hm, List.getLast?_append_of_ne_nil _ hne]
    exact hedge

/-- **A DIGIT RUN** is drawn backwards. -/
theorem RtlLayout.digitRun (h : RtlLayout s x y color t) (hi : t.si < textLen s)
    (hdigit : gfxU16IsDigit (unitAt s t.si) = true) :
    RtlLayout s x y color (digitRun s y color t) := by
  have hpos : 0 < scanDigits (s.drop t.si) :=
    scanDigits_pos (by rw [unitAt_drop]; exact unitAt_ne_zero hi)
      (by rw [unitAt_drop]; exact hdigit)
  have hstop := scanDigits_stop (s.drop t.si)
  have hrun : ∀ k, k < scanDigits (s.drop t.si) → isDigitAt s (t.si + k) = true := by
    intro k hk
    rw [isDigitAt, ← unitAt_drop]
    exact (scanDigits_digit _ k hk).2
  rw [unitAt_drop] at hstop
  rw [PyramidBoot.digitRun]
  generalize scanDigits (s.drop t.si) = c at hpos hstop hrun
  have hrun' : ∀ j, t.si ≤ j → j < t.si + c → isDigitAt s j = true := by
    intro j hlo hhi
    obtain ⟨k, rfl⟩ := Nat.exists_eq_add_of_le hlo
    exact hrun k (by omega)
  obtain ⟨hdrawn, hunits⟩ := h.drawn.drawDigits c (t.si + c - 1) t (by omega)
    fun j hlo hhi => hrun' j (by omega) (by omega)
  rw [show t.si + c - 1 + 1 - c = t.si by omega] at hunits
  have hall : ∀ j ∈ List.range' t.si c, isDigitAt s j = true := by
    intro j hj
    obtain ⟨hlo, hhi⟩ := List.mem_range'_1.mp hj
    exact hrun' j hlo hhi
  refine h.advance (glyphUnits_digits c hrun') ?_ ?_ ?_ ⟨hdrawn.cursor, hdrawn.row, hdrawn.plain⟩
  · obtain ⟨c, rfl⟩ := Nat.exists_eq_succ_of_ne_zero (Nat.ne_of_gt hpos)
    rfl
  · rw [reverseRuns_of_forall hall]
    exact hunits
  · intro j _
    rw [show isDigitAt s (t.si + c) = false from hstop, Bool.and_false]

/-- **ONE GLYPH** for a unit that is no digit, and for what follows it in a pair. -/
theorem RtlLayout.single {n : Nat} {prev : UInt8} (h : RtlLayout s x y color t)
    (hdigit : isDigitAt s t.si = false) (hm : glyphUnits s n = glyphUnits s t.si ++ [t.si])
    (hplain : PlainGlyph s ⟨t.si, bh, t.cursorX, y, color⟩) :
    RtlLayout s x y color { t.emit y color t.si bh with si := n, prevType := prev } := by
  have hdrawn := h.drawn.emit hplain
  refine h.advance hm rfl ?_ ?_ ⟨hdrawn.cursor, hdrawn.row, hdrawn.plain⟩
  · rw [reverseRuns_singleton]
    exact List.map_append
  · intro i hlast
    obtain rfl : t.si = i := Option.some.inj hlast
    rw [hdigit, Bool.false_and]

/-- **ONE TURN** keeps the layout. -/
theorem RtlLayout.step (h : RtlLayout s x y color t) (hinv : RtlInv s t) (hi : t.si < textLen s) :
    RtlLayout s x y color (rtlStep s y color t) := by
  have hfirst : ¬ (0 < t.si ∧ LamAlefPair s (t.si - 1)) :=
    fun hc => hinv.boundary ⟨hc.1, lamAlefPair_iff.mp hc.2⟩
  rw [rtlStep]
  by_cases hdigit : gfxU16IsDigit (unitAt s t.si) = true
  · simp only [if_pos hdigit]
    exact h.digitRun hi hdigit
  simp only [if_neg hdigit]
  have hno : isDigitAt s t.si = false := Bool.eq_false_iff.mpr hdigit
  have hplain : ∀ {bh : UInt8},
      (arFindEntry (unitAt s t.si) = none → bh = nonArabicGlyph (unitAt s t.si)) →
      PlainGlyph s ⟨t.si, bh, t.cursorX, y, color⟩ :=
    fun hglyph => ⟨fun htrue => absurd htrue hdigit, fun _ => hglyph⟩
  cases hpair : lamalefAt s t.si with
  | some e =>
    have hat : LamAlefAt s t.si := by
      rw [LamAlefAt, hpair]
      rfl
    refine h.single hno (glyphUnits_pair hfirst (lamAlefPair_iff.mpr hat)) (hplain fun hnone => ?_)
    exact absurd hat.lam.1 (ne_lam_of_none hnone)
  | none =>
    cases hfind : arFindEntry (unitAt s t.si) with
    | some e =>
      refine h.single hno (glyphUnits_succ hfirst) (hplain fun hnone => ?_)
      rw [hfind] at hnone
      cases hnone
    | none => exact h.single hno (glyphUnits_succ hfirst) (hplain fun _ => rfl)

/-- The loop keeps it, by induction on the turns. -/
theorem rtlLoop_layout {fuel : Nat} (h : RtlLayout s x y color t) (hinv : RtlInv s t)
    (hloop : rtlLoop s y color fuel t = .ok t') : RtlLayout s x y color t' := by
  induction fuel generalizing t with
  | zero => cases hloop
  | succ fuel ih =>
    rw [rtlLoop] at hloop
    by_cases hend : unitAt s t.si = 0
    · rw [if_pos hend] at hloop
      cases hloop
      exact h
    · rw [if_neg hend] at hloop
      have hi : t.si < textLen s := Nat.lt_of_le_of_ne hinv.le fun heq => hend <| by
        rw [heq]
        exact unitAt_textLen s
      exact ih (h.step hinv hi) (hinv.step y color hi).1 hloop

/-- The start. -/
theorem rtlLayout_start (s : List UInt16) (x y : UInt16) (color : UInt8) :
    RtlLayout s x y color ⟨0, x, 0, []⟩ := by
  refine ⟨rfl, fun i hi => absurd hi (Option.not_mem_none i), ?_, ?_, ?_⟩
  · exact (UInt16.sub_zero x).symm
  · exact fun k hk => absurd hk (Nat.not_lt_zero k)
  · exact fun d hd => absurd hd List.not_mem_nil

/-- LAM, ALEF, a space, three digits of both kinds, and BEH. -/
example : drawOrder [0x0644, 0x0627, 0x0020, 0x0031, 0x0662, 0x0033, 0x0628, 0x0000]
    = [0, 2, 5, 4, 3, 6] := by
  decide

end PyramidBoot
