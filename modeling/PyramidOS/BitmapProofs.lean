import Mathlib.Data.Finset.Card
import Mathlib.Data.Nat.Bitwise
import Mathlib.Order.Bounds.Basic
import PyramidOS.ByteMemoryProofs

/-! # Bitmaps in byte memory, and searching them

    A bitmap packs one bit per item, eight to a byte, from a base address on.
    This file has what any allocator over such a bitmap needs:

    * `bitAt`/`setBit`/`clearBit` — reading and changing one bit touches no
      other bit (`bitAt_setBit`, `bitAt_clearBit`);
    * `setCount` — how many of the first `n` bits are set, and how one change
      moves that number;
    * `firstFrom` — the linear scan, which finds the least hit;
    * the masks with which a 32-bit word scan is clipped at both ends. -/

namespace WordBitmap

open ByteMem

/-! ## One bit -/

/-- Bit `i` of the bitmap at `base`. -/
def bitAt (m : Mem) (base i : Nat) : Bool :=
  (m.byte (base + i / 8)).getLsbD (i % 8)

/-- `bitmap[i / 8] |= 1 << (i % 8)`. -/
def setBit (m : Mem) (base i : Nat) : Mem :=
  m.store8 (base + i / 8) (m.byte (base + i / 8) ||| 1#8 <<< (i % 8))

/-- `bitmap[i / 8] &= ~(1 << (i % 8))`. -/
def clearBit (m : Mem) (base i : Nat) : Mem :=
  m.store8 (base + i / 8) (m.byte (base + i / 8) &&& ~~~(1#8 <<< (i % 8)))

/-- A one-bit word has exactly its own bit set. -/
theorem getLsbD_one_shiftLeft {n i j : Nat} (hj : j < n) :
    (1#n <<< i).getLsbD j = decide (j = i) := by
  rw [← BitVec.twoPow_eq, BitVec.getLsbD_twoPow]
  by_cases h : j = i
  · subst h; simp [hj]
  · simp [h, Ne.symm h]

/-- Testing against the one-bit word reads the bit. -/
theorem and_oneBit_ne_zero {n : Nat} {b : BitVec n} {i : Nat} (hi : i < n) :
    b &&& 1#n <<< i ≠ 0#n ↔ b.getLsbD i = true := by
  constructor
  · intro hne
    by_contra hb
    refine hne (BitVec.eq_of_getLsbD_eq fun j hj => ?_)
    rw [BitVec.getLsbD_and, getLsbD_one_shiftLeft hj, BitVec.getLsbD_zero]
    by_cases hji : j = i
    · rw [hji, Bool.eq_false_iff.mpr hb]; rfl
    · simp [hji]
  · intro hb hz
    have h := congrArg (fun v : BitVec n => v.getLsbD i) hz
    simp [BitVec.getLsbD_and, getLsbD_one_shiftLeft hi, hb] at h

theorem bitAt_setBit (m : Mem) (base i j : Nat) :
    bitAt (setBit m base i) base j = (bitAt m base j || decide (j = i)) := by
  unfold bitAt setBit
  by_cases hq : base + j / 8 = base + i / 8
  · rw [hq, byte_store8_self, BitVec.getLsbD_or,
      getLsbD_one_shiftLeft (Nat.mod_lt _ (by decide))]
    have hd : decide (j % 8 = i % 8) = decide (j = i) :=
      decide_eq_decide.mpr (by omega)
    rw [hd]
  · have hne : j ≠ i := fun h => hq (by rw [h])
    rw [byte_store8_ne hq]
    simp [hne]

theorem bitAt_clearBit (m : Mem) (base i j : Nat) :
    bitAt (clearBit m base i) base j = (bitAt m base j && !decide (j = i)) := by
  unfold bitAt clearBit
  by_cases hq : base + j / 8 = base + i / 8
  · have hj : j % 8 < 8 := Nat.mod_lt _ (by decide)
    rw [hq, byte_store8_self, BitVec.getLsbD_and, BitVec.getLsbD_not,
      getLsbD_one_shiftLeft hj]
    have hd : decide (j % 8 = i % 8) = decide (j = i) :=
      decide_eq_decide.mpr (by omega)
    rw [hd]
    simp [hj]
  · have hne : j ≠ i := fun h => hq (by rw [h])
    rw [byte_store8_ne hq]
    simp [hne]

/-- A bit depends on its byte only. -/
theorem bitAt_congr {m m' : Mem} {base i : Nat}
    (h : m'.byte (base + i / 8) = m.byte (base + i / 8)) :
    bitAt m' base i = bitAt m base i := by
  unfold bitAt
  rw [h]

/-! ## Counting set bits -/

/-- How many of the first `n` items have `p`. -/
def setCount (p : Nat → Bool) (n : Nat) : Nat :=
  ((Finset.range n).filter fun i => p i = true).card

theorem setCount_le (p : Nat → Bool) (n : Nat) : setCount p n ≤ n := by
  have h := Finset.card_filter_le (Finset.range n) fun i => p i = true
  rw [Finset.card_range] at h
  exact h

theorem setCount_congr {p q : Nat → Bool} {n : Nat}
    (h : ∀ i, i < n → p i = q i) : setCount p n = setCount q n := by
  unfold setCount
  congr 1
  refine Finset.filter_congr fun i hi => ?_
  rw [h i (Finset.mem_range.mp hi)]

/-- Setting a clear bit counts one more. -/
theorem setCount_set {p q : Nat → Bool} {n i : Nat} (hi : i < n)
    (hp : p i = false) (hq : ∀ j, q j = (p j || decide (j = i))) :
    setCount q n = setCount p n + 1 := by
  unfold setCount
  have hset : ((Finset.range n).filter fun j => q j = true)
      = insert i ((Finset.range n).filter fun j => p j = true) := by
    ext j
    simp only [Finset.mem_filter, Finset.mem_insert, Finset.mem_range, hq,
      Bool.or_eq_true, decide_eq_true_eq]
    constructor
    · rintro ⟨hj, hpj | hji⟩
      · exact Or.inr ⟨hj, hpj⟩
      · exact Or.inl hji
    · rintro (hji | ⟨hj, hpj⟩)
      · exact ⟨hji ▸ hi, Or.inr hji⟩
      · exact ⟨hj, Or.inl hpj⟩
  rw [hset, Finset.card_insert_of_notMem]
  simp [hp]

/-- Clearing a set bit counts one less. -/
theorem setCount_clear {p q : Nat → Bool} {n i : Nat} (hi : i < n)
    (hp : p i = true) (hq : ∀ j, q j = (p j && !decide (j = i))) :
    setCount p n = setCount q n + 1 := by
  refine setCount_set hi ?_ ?_
  · rw [hq]; simp
  · intro j
    rw [hq]
    by_cases hji : j = i
    · subst hji; simp [hp]
    · simp [hji]

/-- A clear bit below `n` keeps the count below `n`. -/
theorem setCount_lt {p : Nat → Bool} {n i : Nat} (hi : i < n)
    (hp : p i = false) : setCount p n < n := by
  have h := setCount_le (fun j => p j || decide (j = i)) n
  rw [setCount_set hi hp (fun _ => rfl)] at h
  omega

/-- If the count is below `n`, some bit below `n` is clear. -/
theorem exists_clear_of_setCount_lt {p : Nat → Bool} {n : Nat}
    (h : setCount p n < n) : ∃ i, i < n ∧ p i = false := by
  by_contra hno
  have hall : ∀ i, i < n → p i = (fun _ => true) i := by
    intro i hi
    cases hp : p i with
    | true => rfl
    | false => exact absurd ⟨i, hi, hp⟩ hno
  rw [setCount_congr hall] at h
  simp [setCount] at h

/-- How many of the first `n` items do not have `p`. -/
def clearCount (p : Nat → Bool) (n : Nat) : Nat :=
  ((Finset.range n).filter fun i => p i = false).card

/-- Set and clear items are all the items. -/
theorem setCount_add_clearCount (p : Nat → Bool) (n : Nat) :
    setCount p n + clearCount p n = n := by
  have hsum := Finset.card_filter_add_card_filter_not (s := Finset.range n)
    fun i => p i = true
  simp only [Bool.not_eq_true, Finset.card_range] at hsum
  exact hsum

/-- Setting a clear item takes one off the count of the clear ones. -/
theorem clearCount_set {p q : Nat → Bool} {n i : Nat} (hi : i < n) (hp : p i = false)
    (hq : ∀ j, q j = (p j || decide (j = i))) : clearCount q n + 1 = clearCount p n := by
  have hset := setCount_set hi hp hq
  have h1 := setCount_add_clearCount p n
  have h2 := setCount_add_clearCount q n
  omega

/-- Clearing a set item adds one. -/
theorem clearCount_clear {p q : Nat → Bool} {n i : Nat} (hi : i < n) (hp : p i = true)
    (hq : ∀ j, q j = (p j && !decide (j = i))) : clearCount q n = clearCount p n + 1 := by
  have hset := setCount_clear hi hp hq
  have h1 := setCount_add_clearCount p n
  have h2 := setCount_add_clearCount q n
  omega

/-- Nothing is clear exactly when everything is set. -/
theorem clearCount_eq_zero {p : Nat → Bool} {n : Nat} :
    clearCount p n = 0 ↔ ∀ i, i < n → p i = true := by
  rw [clearCount, Finset.card_eq_zero, Finset.filter_eq_empty_iff]
  constructor
  · intro h i hi
    exact Bool.not_eq_false _ ▸ h (Finset.mem_range.mpr hi)
  · intro h i hi
    rw [h i (Finset.mem_range.mp hi)]
    decide

/-- Two bitmaps with the same bits have the same bytes. -/
theorem byte_eq_of_bitAt {m m' : Mem} {base : Nat} (h : ∀ i, bitAt m' base i = bitAt m base i)
    (k : Nat) : m'.byte (base + k) = m.byte (base + k) := by
  ext i hi
  have hbit := h (8 * k + i)
  rw [bitAt, bitAt, show (8 * k + i) / 8 = k by omega, show (8 * k + i) % 8 = i by omega] at hbit
  exact hbit

/-! ## The least hit -/

/-- The clear items of `[s, e)`. -/
def clearIn (p : Nat → Bool) (s e : Nat) : Set Nat :=
  {i | s ≤ i ∧ i < e ∧ p i = false}

/-- Scan `n` items from `i` on for the first one with `p`. -/
def firstFrom (p : Nat → Bool) : Nat → Nat → Option Nat
  | _, 0 => none
  | i, n + 1 => if p i then some i else firstFrom p (i + 1) n

/-- **The scan returns the least hit**, or nothing when there is none. -/
theorem firstFrom_spec (p : Nat → Bool) :
    ∀ (n i : Nat),
      (∃ j, firstFrom p i n = some j ∧ i ≤ j ∧ j < i + n ∧ p j = true
        ∧ ∀ k, i ≤ k → k < j → p k = false)
      ∨ (firstFrom p i n = none ∧ ∀ k, i ≤ k → k < i + n → p k = false) := by
  intro n
  induction n with
  | zero => intro i; exact Or.inr ⟨rfl, fun k h1 h2 => absurd h2 (by omega)⟩
  | succ n ih =>
      intro i
      by_cases hp : p i = true
      · refine Or.inl ⟨i, if_pos hp, Nat.le_refl i, by omega, hp, ?_⟩
        intro k h1 h2
        exact absurd h2 (by omega)
      · have hstep : firstFrom p i (n + 1) = firstFrom p (i + 1) n := if_neg hp
        have hpi : p i = false := Bool.eq_false_iff.mpr hp
        rw [hstep]
        rcases ih (i + 1) with ⟨j, hj, hle, hlt, hpj, hmin⟩ | ⟨hnone, hall⟩
        · refine Or.inl ⟨j, hj, by omega, by omega, hpj, fun k h1 h2 => ?_⟩
          by_cases hki : k = i
          · rw [hki]; exact hpi
          · exact hmin k (by omega) h2
        · refine Or.inr ⟨hnone, fun k h1 h2 => ?_⟩
          by_cases hki : k = i
          · rw [hki]; exact hpi
          · exact hall k (by omega) (by omega)

/-! ## The masks of a word scan -/

/-- `0xFFFFFFFF << k` keeps the bits from `k` up. -/
theorem getLsbD_full_shiftLeft {k i : Nat} (hi : i < 32) :
    (0xFFFFFFFF#32 <<< k).getLsbD i = decide (k ≤ i) := by
  rw [show 0xFFFFFFFF#32 = BitVec.allOnes 32 from rfl, BitVec.getLsbD_shiftLeft,
    BitVec.getLsbD_allOnes]
  by_cases h : k ≤ i
  · have h2 : i - k < 32 := by omega
    simp [hi, h, h2]
  · simp [hi, h, Nat.lt_of_not_le h]

/-- `(1 << k) - 1` keeps the bits below `k`, for `k < 32`. -/
theorem getLsbD_one_shiftLeft_sub_one {k i : Nat} (hk : k < 32) :
    (1#32 <<< k - 1#32).getLsbD i = decide (i < k) := by
  have hpow : 2 ^ k < 2 ^ 32 := Nat.pow_lt_pow_right (by decide) hk
  have hpos : 0 < 2 ^ k := Nat.two_pow_pos k
  have hval : (1#32 <<< k - 1#32).toNat = 2 ^ k - 1 := by
    rw [BitVec.toNat_sub, BitVec.toNat_shiftLeft, BitVec.toNat_ofNat,
      Nat.shiftLeft_eq]
    omega
  rw [BitVec.getLsbD, hval, Nat.testBit_two_pow_sub_one]

end WordBitmap
