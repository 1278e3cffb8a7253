import PyramidOS.PmmProofs

/-! # The word scan finds the least free frame

    `pmm_find_free_in_range` looks at 32 frames at a time, through masks that
    clip the first and the last word of the range.  This file shows that it
    agrees with a plain scan over the bits:

    * `pmmCandidates_getLsbD` — a candidate bit of a word is exactly a frame of
      the range whose bitmap bit is clear;
    * `pmmScanWords_spec` — the word loop, whose invariant is that every free
      frame of the range still lies ahead;
    * `pmmFindFreeInRange_spec` — the function itself. -/

namespace PyramidPmm

open ByteMem WordBitmap PyramidKernel

variable {p : Pmm} {s e w i : Nat}

/-- Byte `i / 8` of the word is where bit `i` of the word comes from. -/
theorem pmmBitmapWord_getLsbD (hi : i < 32) :
    (pmmBitmapWord p w).getLsbD i
      = (pmmBitmapWordByte p (w * 4 + i / 8)).getLsbD (i % 8) := by
  show (pmmBitmapWordByte p (w * 4 + 3) ++ pmmBitmapWordByte p (w * 4 + 2)
    ++ pmmBitmapWordByte p (w * 4 + 1) ++ pmmBitmapWordByte p (w * 4)).getLsbD i = _
  rw [BitVec.getLsbD_append, BitVec.getLsbD_append, BitVec.getLsbD_append]
  by_cases h0 : i < 8
  · rw [if_pos h0, show i / 8 = 0 by omega, show i % 8 = i by omega]
    rfl
  · rw [if_neg h0]
    by_cases h1 : i - 8 < 8
    · rw [if_pos h1, show i / 8 = 1 by omega, show i % 8 = i - 8 by omega]
    · rw [if_neg h1]
      by_cases h2 : i - 8 - 8 < 8
      · rw [if_pos h2, show i / 8 = 2 by omega, show i % 8 = i - 8 - 8 by omega]
      · rw [if_neg h2, show i / 8 = 3 by omega,
          show i % 8 = i - 8 - 8 - 8 by omega]

/-- Inside the bitmap the word shows the frames' bits. -/
theorem pmmBitmapWord_bit (hi : i < 32) (hin : w * 32 + i < 8 * p.bitmapSize) :
    (pmmBitmapWord p w).getLsbD i = p.bit (w * 32 + i) := by
  have hbyte : w * 4 + i / 8 < p.bitmapSize := by omega
  rw [pmmBitmapWord_getLsbD hi, pmmBitmapWordByte, if_pos hbyte, Pmm.bit, bitAt,
    show (w * 32 + i) / 8 = w * 4 + i / 8 by omega,
    show (w * 32 + i) % 8 = i % 8 by omega]

/-- A candidate bit is a clear bit inside the range. -/
theorem pmmCandidates_getLsbD (hse : s < e) (hlo : s / 32 ≤ w)
    (hhi : w ≤ (e - 1) / 32) (hi : i < 32) :
    (pmmCandidates p s e w).getLsbD i
      = (!(pmmBitmapWord p w).getLsbD i
        && (decide (s ≤ w * 32 + i) && decide (w * 32 + i < e))) := by
  have hfull : (0xFFFFFFFF#32).getLsbD i = true := by
    have h := getLsbD_full_shiftLeft (k := 0) hi
    rw [BitVec.shiftLeft_zero] at h
    rw [h, decide_eq_true (Nat.zero_le i)]
  -- the two clipping masks, each as a comparison on frame numbers
  have hstart : ∀ m : BitVec 32, m.getLsbD i = true →
      (if w = s / 32 ∧ s % 32 ≠ 0 then m &&& 0xFFFFFFFF#32 <<< (s % 32) else m).getLsbD i
        = decide (s ≤ w * 32 + i) := by
    intro m hm
    by_cases h : w = s / 32 ∧ s % 32 ≠ 0
    · rw [if_pos h, BitVec.getLsbD_and, hm, getLsbD_full_shiftLeft hi, Bool.true_and]
      exact decide_eq_decide.mpr (by omega)
    · rw [if_neg h, hm, decide_eq_true (by omega)]
  have hend : ∀ m : BitVec 32,
      (if w = (e - 1) / 32 ∧ (e - 1) % 32 ≠ 31
        then m &&& (1#32 <<< ((e - 1) % 32 + 1) - 1#32) else m).getLsbD i
        = (m.getLsbD i && decide (w * 32 + i < e)) := by
    intro m
    by_cases h : w = (e - 1) / 32 ∧ (e - 1) % 32 ≠ 31
    · rw [if_pos h, BitVec.getLsbD_and, getLsbD_one_shiftLeft_sub_one (by omega)]
      have hd : decide (i < (e - 1) % 32 + 1) = decide (w * 32 + i < e) :=
        decide_eq_decide.mpr (by omega)
      rw [hd]
    · rw [if_neg h, decide_eq_true (by omega), Bool.and_true]
  show (~~~(pmmBitmapWord p w) &&& _).getLsbD i = _
  rw [BitVec.getLsbD_and, BitVec.getLsbD_not, decide_eq_true hi, Bool.true_and]
  refine congrArg _ ?_
  refine (hend _).trans ?_
  rw [hstart _ hfull]

/-- The first set bit of a non-zero word. -/
theorem pmmFindFirstSetBit_spec {v : BitVec 32} (hv : v ≠ 0#32) :
    ∃ b : Nat, b < 32 ∧ pmmFindFirstSetBit v = (b : Int) ∧ v.getLsbD b = true
      ∧ ∀ k, k < b → v.getLsbD k = false := by
  have hread : ∀ k, k < 32 →
      (decide (v &&& 1#32 <<< k ≠ 0#32) = true ↔ v.getLsbD k = true) := by
    intro k hk
    rw [decide_eq_true_eq]
    exact and_oneBit_ne_zero hk
  rcases firstFrom_spec (fun bit => decide (v &&& 1#32 <<< bit ≠ 0#32)) 32 0 with
    ⟨b, hb, -, hlt, hset, hmin⟩ | ⟨-, hall⟩
  · have hb32 : b < 32 := by omega
    refine ⟨b, hb32, ?_, (hread b hb32).mp hset, fun k hk => ?_⟩
    · rw [pmmFindFirstSetBit, hb]
      exact i32_of_lt (by omega)
    · have hk2 := hmin k (Nat.zero_le k) hk
      rw [← Bool.not_eq_true] at hk2 ⊢
      exact fun h => hk2 ((hread k (by omega)).mpr h)
  · exfalso
    refine hv (BitVec.eq_of_getLsbD_eq fun k hk => ?_)
    have hk2 := hall k (Nat.zero_le k) (by omega)
    rw [BitVec.getLsbD_zero, ← Bool.not_eq_true]
    exact fun h => Bool.noConfusion (hk2.symm.trans ((hread k hk).mpr h))

/-- **THE WORD LOOP**: if every free frame of the range lies at or beyond word
    `w`, scanning the remaining words finds the least one. -/
theorem pmmScanWords_spec (hse : s < e) (hcov : e ≤ 8 * p.bitmapSize)
    (he : e ≤ 2 ^ 32) :
    ∀ (words w : Nat), s / 32 ≤ w → w + words = (e - 1) / 32 + 1 →
      (∀ f ∈ clearIn p.bit s e, w * 32 ≤ f) →
      (∃ f, IsLeast (clearIn p.bit s e) f ∧ pmmScanWords p s e w words = i32 f)
      ∨ (clearIn p.bit s e = ∅ ∧ pmmScanWords p s e w words = -1) := by
  intro words
  induction words with
  | zero =>
      intro w _ hsum hahead
      refine Or.inr ⟨?_, rfl⟩
      refine Set.eq_empty_iff_forall_notMem.mpr fun f hf => ?_
      have h1 := hahead f hf
      have h2 : f < e := hf.2.1
      omega
  | succ n ih =>
      intro w hlo hsum hahead
      have hhi : w ≤ (e - 1) / 32 := by omega
      -- a frame of word `w` is free and in range iff its candidate bit is set
      have hcand : ∀ i, i < 32 → ((pmmCandidates p s e w).getLsbD i = true
          ↔ w * 32 + i ∈ clearIn p.bit s e) := by
        intro i hi
        rw [pmmCandidates_getLsbD hse hlo hhi hi, Bool.and_eq_true,
          Bool.and_eq_true, Bool.not_eq_true', decide_eq_true_eq, decide_eq_true_eq]
        constructor
        · rintro ⟨hb, h1, h2⟩
          refine ⟨h1, h2, ?_⟩
          rw [← pmmBitmapWord_bit hi (by omega)]
          exact hb
        · rintro ⟨h1, h2, hb⟩
          refine ⟨?_, h1, h2⟩
          rw [pmmBitmapWord_bit hi (by omega)]
          exact hb
      by_cases hz : pmmCandidates p s e w = 0#32
      · have hstep : pmmScanWords p s e w (n + 1) = pmmScanWords p s e (w + 1) n :=
          if_neg (not_not.mpr hz)
        rw [hstep]
        refine ih (w + 1) (by omega) (by omega) fun f hf => ?_
        have hf1 := hahead f hf
        by_contra hlt
        have hset := (hcand (f - w * 32) (by omega)).mpr
          (by rw [show w * 32 + (f - w * 32) = f by omega]; exact hf)
        rw [hz, BitVec.getLsbD_zero] at hset
        exact Bool.false_ne_true hset
      · obtain ⟨b, hb32, hbit, hset, hmin⟩ := pmmFindFirstSetBit_spec hz
        have hmem := (hcand b hb32).mp hset
        have hlt : w * 32 + b < e := hmem.2.1
        refine Or.inl ⟨w * 32 + b, ⟨hmem, fun f hf => ?_⟩, ?_⟩
        · have hf1 := hahead f hf
          by_contra hlt2
          have hset2 := (hcand (f - w * 32) (by omega)).mpr
            (by rw [show w * 32 + (f - w * 32) = f by omega]; exact hf)
          rw [hmin (f - w * 32) (by omega)] at hset2
          exact Bool.false_ne_true hset2
        · have hstep : pmmScanWords p s e w (n + 1)
              = i32 (u32 (w * 32 + castU32 (pmmFindFirstSetBit (pmmCandidates p s e w)))) := by
            rw [pmmScanWords]
            simp only []
            rw [if_pos hz, if_pos (by rw [hbit]; omega)]
          rw [hstep, hbit, ← i32_of_lt (show b < 2 ^ 31 by omega),
            castU32_i32 (by omega), u32_of_lt (by omega)]

/-- **THE SCAN IS EXACT**: `pmm_find_free_in_range` returns the least free
    frame of the range, and -1 when the range has none. -/
theorem pmmFindFreeInRange_spec (hcov : e ≤ 8 * p.bitmapSize) (he : e ≤ 2 ^ 32) :
    (∃ f, IsLeast (clearIn p.bit s e) f ∧ pmmFindFreeInRange p s e = i32 f)
    ∨ (clearIn p.bit s e = ∅ ∧ pmmFindFreeInRange p s e = -1) := by
  by_cases hse : s ≥ e
  · refine Or.inr ⟨?_, if_pos hse⟩
    refine Set.eq_empty_iff_forall_notMem.mpr fun f hf => ?_
    have h1 : s ≤ f := hf.1
    have h2 : f < e := hf.2.1
    omega
  · have hscan : pmmFindFreeInRange p s e
        = pmmScanWords p s e (s / 32) ((e - 1) / 32 + 1 - s / 32) := if_neg hse
    rw [hscan]
    refine pmmScanWords_spec (by omega) hcov he _ _ (Nat.le_refl _) (by omega) ?_
    intro f hf
    have h1 : s ≤ f := hf.1
    omega

end PyramidPmm
