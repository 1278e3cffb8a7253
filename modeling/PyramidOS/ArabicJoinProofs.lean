import PyramidOS.RtlTextProofs

/-! # The joining forms of Arabic letters

    Which form a letter should take depends on its type and on its two neighbours.  The
    code looks one unit ahead with the lookup that shapes letters, and where the lookup
    finds no letter the flag it leaves in AL is the low byte of that unit: the letter
    then joins to a space or a digit.

    * `letterForm` — the form a letter should take;
    * `codeGlyph_eq_iff` — when the code picks it;
    * `arabic_joining_iff` — the strings that are shaped as they should. -/

namespace PyramidBoot

open PyramidKernel

/-! ## The forms -/

/-- The type joins to the letter before it. -/
def Joins (ty : UInt8) : Prop := ty = typeD ∨ ty = typeR

instance (ty : UInt8) : Decidable (Joins ty) := inferInstanceAs (Decidable (_ ∨ _))

/-- The letter at `i` connects to the unit before it, which was drawn as a letter of type
    D and not in a ligature. -/
def ConnectsBack (s : List UInt16) (i : Nat) : Prop :=
  (0 < i ∧ DrawnAlone s (i - 1) ∧ joinTypeOf (unitAt s (i - 1)) = typeD)
    ∧ Joins (joinTypeOf (unitAt s i))

/-- It connects to the unit after it. -/
def ConnectsForward (s : List UInt16) (i : Nat) : Prop :=
  joinTypeOf (unitAt s i) = typeD ∧ Joins (joinTypeOf (unitAt s (i + 1)))

instance (s : List UInt16) (i : Nat) : Decidable (ConnectsBack s i) :=
  inferInstanceAs (Decidable (_ ∧ _))

instance (s : List UInt16) (i : Nat) : Decidable (ConnectsForward s i) :=
  inferInstanceAs (Decidable (_ ∧ _))

/-- The final, initial, medial or isolated form; the isolated one if there is no such. -/
def joiningForm (e : ArForm) (back forward : Bool) : UInt8 :=
  let form :=
    match back, forward with
    | true, true => e.medLow
    | true, false => e.finLow
    | false, true => e.iniLow
    | false, false => e.isoLow
  if form = 0 then e.isoLow else form

/-- The form the letter at `i` should take. -/
def letterForm (s : List UInt16) (i : Nat) : UInt8 :=
  match arFindEntry (unitAt s i) with
  | none => 0
  | some e => joiningForm e (decide (ConnectsBack s i)) (decide (ConnectsForward s i))

/-- Every letter outside of a ligature is drawn, and in the form it should take. -/
def DrawsForms (s : List UInt16) (draws : List GlyphDraw) : Prop :=
  ∀ i, DrawnAlone s i → (∃ d ∈ draws, d.unit = i)
    ∧ ∀ d ∈ draws, d.unit = i → d.glyph = letterForm s i

/-! ## What the code picks -/

variable {s : List UInt16} {i : Nat} {e : ArForm} {dh al : UInt8} {u : UInt16}

/-- The selection by DH and AL. -/
theorem arSelectForm_eq (e : ArForm) (dh al : UInt8) :
    arSelectForm e dh al = joiningForm e (decide (dh ≠ 0)) (decide (al ≠ 0)) := by
  by_cases hdh : dh = 0
  · by_cases hal : al = 0
    · simp [arSelectForm, joiningForm, hdh, hal]
    · simp [arSelectForm, joiningForm, hdh, hal]
  · by_cases hal : al = 0
    · simp [arSelectForm, joiningForm, hdh, hal]
    · simp [arSelectForm, joiningForm, hdh, hal]

/-- DH is right. -/
theorem arConnectPrev_iff (hfind : arFindEntry (unitAt s i) = some e) :
    arConnectPrev (prevTypeAt s i) e.joinType ≠ 0 ↔ ConnectsBack s i := by
  have hprev : prevTypeAt s i = typeD ↔
      0 < i ∧ DrawnAlone s (i - 1) ∧ joinTypeOf (unitAt s (i - 1)) = typeD := by
    rw [prevTypeAt]
    by_cases hcond : 0 < i ∧ DrawnAlone s (i - 1)
    · rw [if_pos hcond]
      exact ⟨fun h => ⟨hcond.1, hcond.2, h⟩, fun h => h.2.2⟩
    · rw [if_neg hcond]
      exact iff_of_false (by decide) fun h => hcond ⟨h.1, h.2.1⟩
  rw [ConnectsBack, joinTypeOf_some hfind, ← hprev, arConnectPrev]
  by_cases hboth : prevTypeAt s i = typeD ∧ (e.joinType = typeD ∨ e.joinType = typeR)
  · rw [if_pos hboth]
    exact iff_of_true (by decide) hboth
  · rw [if_neg hboth]
    exact iff_of_false (not_not.mpr rfl) hboth

/-- The look ahead goes wrong: the unit after the letter does not join, and its low byte
    is not 0. -/
def Misread (s : List UInt16) (i : Nat) : Prop :=
  joinTypeOf (unitAt s i) = typeD ∧ ¬ Joins (joinTypeOf (unitAt s (i + 1)))
    ∧ (unitAt s (i + 1)).toUInt8 ≠ 0

/-- AL is set for the letters that connect, and where the look ahead goes wrong. -/
theorem arConnectNext_iff (hfind : arFindEntry (unitAt s i) = some e) :
    arConnectNext e.joinType (unitAt s (i + 1)) ≠ 0 ↔ ConnectsForward s i ∨ Misread s i := by
  rw [ConnectsForward, Misread, joinTypeOf_some hfind, arConnectNext]
  by_cases hdual : e.joinType = typeD
  · rw [if_neg (not_not.mpr hdual)]
    by_cases hend : unitAt s (i + 1) = 0
    · have hnone : joinTypeOf 0 = 0 := by decide
      rw [if_pos hend, hend, hnone]
      refine iff_of_false (not_not.mpr rfl) ?_
      rintro (⟨-, hjoins⟩ | ⟨-, -, hlow⟩)
      · exact absurd hjoins (by decide)
      · exact hlow rfl
    · rw [if_neg hend]
      cases hnext : arFindEntry (unitAt s (i + 1)) with
      | none =>
          have hnot : ¬ Joins (joinTypeOf (unitAt s (i + 1))) := by
            rw [joinTypeOf, hnext]
            decide
          constructor
          · exact fun hlow => Or.inr ⟨hdual, hnot, hlow⟩
          · rintro (⟨-, hjoins⟩ | ⟨-, -, hlow⟩)
            · exact absurd hjoins hnot
            · exact hlow
      | some next =>
          rw [joinTypeOf_some hnext]
          by_cases hjoins : Joins next.joinType
          · simp only [show next.joinType = typeD ∨ next.joinType = typeR from hjoins, if_true]
            exact iff_of_true (by decide) (Or.inl ⟨hdual, hjoins⟩)
          · have hor : ¬ (next.joinType = typeD ∨ next.joinType = typeR) := hjoins
            simp only [if_neg hor]
            constructor
            · exact fun hlow => Or.inr ⟨hdual, hjoins, hlow⟩
            · rintro (⟨-, hyes⟩ | ⟨-, -, hlow⟩)
              · exact absurd hyes hjoins
              · exact hlow
  · rw [if_pos hdual]
    refine iff_of_false (not_not.mpr rfl) ?_
    rintro (⟨hd, -⟩ | ⟨hd, -⟩)
    · exact hdual hd
    · exact hdual hd

/-- The forms that connect forward differ from those that do not, but for ALEF MAKSURA
    (0649), which has neither an initial nor a medial form: alone it is isolated anyway. -/
theorem joiningForm_forward (he : e ∈ arFormTable) (hdual : e.joinType = typeD) (back : Bool) :
    joiningForm e back true = joiningForm e back false ↔ e.baseCp = 0x0649 ∧ back = false := by
  have hall : ∀ e ∈ arFormTable, e.joinType = typeD → ∀ back,
      (joiningForm e back true = joiningForm e back false
        ↔ e.baseCp = 0x0649 ∧ back = false) := by
    decide
  exact hall e he hdual back

/-- **WHEN THE CODE PICKS THE RIGHT FORM**: always, unless the look ahead goes wrong, and
    even then for an ALEF MAKSURA that connects to nothing. -/
theorem codeGlyph_eq_iff (halone : DrawnAlone s i) :
    codeGlyph s i = letterForm s i
      ↔ (Misread s i → unitAt s i = 0x0649 ∧ ¬ ConnectsBack s i) := by
  obtain ⟨e, hfind⟩ := Option.isSome_iff_exists.mp halone.2.1
  obtain ⟨hmem, hcp⟩ := arFindEntry_some hfind
  have hback : decide (arConnectPrev (prevTypeAt s i) e.joinType ≠ 0)
      = decide (ConnectsBack s i) := decide_eq_decide.mpr (arConnectPrev_iff hfind)
  rw [codeGlyph, letterForm, hfind]
  simp only [arSelectForm_eq, hback]
  by_cases hmis : Misread s i
  · have hdual : e.joinType = typeD := joinTypeOf_some hfind ▸ hmis.1
    have hnot : ¬ ConnectsForward s i := fun hc => hmis.2.1 hc.2
    rw [decide_eq_true ((arConnectNext_iff hfind).mpr (Or.inr hmis)), decide_eq_false hnot,
      joiningForm_forward hmem hdual, hcp, decide_eq_false_iff_not]
    exact ⟨fun h _ => h, fun h => h hmis⟩
  · have hforward : decide (arConnectNext e.joinType (unitAt s (i + 1)) ≠ 0)
        = decide (ConnectsForward s i) := by
      refine decide_eq_decide.mpr ((arConnectNext_iff hfind).trans ?_)
      exact or_iff_left hmis
    rw [hforward]
    exact iff_of_true rfl fun h => absurd h hmis

/-- **ARABIC LETTERS TAKE THEIR JOINING FORMS**: the routine ends on every string, and it
    draws every letter in its form exactly when each letter of type D outside of a
    ligature is followed by a letter that joins, by a unit whose low byte is 0, as that of
    the terminator is, or is an ALEF MAKSURA that does not connect backwards. -/
theorem arabic_joining_iff (s : List UInt16) (x y : UInt16) (color : UInt8) :
    ∃ t, gfxWriteU16Rtl s y color x = .ok t
      ∧ (DrawsForms s t.draws ↔ ∀ i, DrawnAlone s i → joinTypeOf (unitAt s i) = typeD →
        Joins (joinTypeOf (unitAt s (i + 1))) ∨ (unitAt s (i + 1)).toUInt8 = 0
          ∨ (unitAt s i = 0x0649 ∧ ¬ ConnectsBack s i)) := by
  obtain ⟨t, hok, hdraws⟩ := gfxWriteU16Rtl_spec s x y color
  refine ⟨t, hok, ?_, ?_⟩
  · intro hforms i halone hdual
    obtain ⟨⟨d, hd, hunit⟩, hcode⟩ := hdraws i halone
    have hglyph : codeGlyph s i = letterForm s i :=
      (hcode d hd hunit).symm.trans ((hforms i halone).2 d hd hunit)
    by_cases hjoins : Joins (joinTypeOf (unitAt s (i + 1)))
    · exact Or.inl hjoins
    · by_cases hlow : (unitAt s (i + 1)).toUInt8 = 0
      · exact Or.inr (Or.inl hlow)
      · exact Or.inr (Or.inr ((codeGlyph_eq_iff halone).mp hglyph ⟨hdual, hjoins, hlow⟩))
  · intro hclean i halone
    obtain ⟨hsome, hcode⟩ := hdraws i halone
    refine ⟨hsome, fun d hd hunit => (hcode d hd hunit).trans ((codeGlyph_eq_iff halone).mpr ?_)⟩
    rintro ⟨hdual, hnot, hlow⟩
    rcases hclean i halone hdual with hjoins | hzero | hmaksura
    · exact absurd hjoins hnot
    · exact absurd hzero hlow
    · exact hmaksura

/-- BEH and a space: the letter is drawn in its initial form, as if it were joined to the
    space. -/
theorem beh_joins_space :
    ¬ ∀ (s : List UInt16) (x y : UInt16) (color : UInt8) (t : RtlText),
      gfxWriteU16Rtl s y color x = .ok t → DrawsForms s t.draws := by
  intro hall
  have hok : gfxWriteU16Rtl [0x0628, 0x0020] 0 15 8
      = .ok ⟨2, 65528, 0, [⟨0, 0x91, 8, 0, 15⟩, ⟨1, 0x20, 0, 0, 15⟩]⟩ := rfl
  have halone : DrawnAlone [0x0628, 0x0020] 0 := by decide
  have hglyph := (hall _ _ _ _ _ hok 0 halone).2 ⟨0, 0x91, 8, 0, 15⟩ (List.mem_cons_self ..) rfl
  exact absurd hglyph (by decide)

end PyramidBoot
