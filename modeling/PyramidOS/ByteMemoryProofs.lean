import Mathlib.Algebra.Group.Nat.Defs

/-! # Byte-addressed memory with a store log

    A little-endian byte memory in which every store is also recorded, so that
    a statement can speak about the addresses a program WRITES and not only
    about the bytes whose value changed.

    * `load32`/`store32` and `load8`/`store8` — the accesses of a 32-bit
      machine; an access to `a` touches the bytes `a, …, a + 3`;
    * `WritesIn P m m'` — `m'` comes from `m` by stores into `P` only: the log
      grew by addresses in `P`, and every other byte is what it was;
    * `memset` — the byte loop of the C library. -/

namespace ByteMem

/-- One byte. -/
abbrev Byte := BitVec 8

/-- A memory: the byte at every address, and the addresses stored to so far,
    newest first. -/
structure Mem where
  byte : Nat → Byte
  wrote : List Nat

/-- Byte `i` of a little-endian integer. -/
def byteOf (v i : Nat) : Byte := BitVec.ofNat 8 (v / 256 ^ i)

/-- Store one byte. -/
def Mem.store8 (m : Mem) (a : Nat) (b : Byte) : Mem where
  byte := fun x => if x = a then b else m.byte x
  wrote := a :: m.wrote

/-- Load one byte, as an unsigned value. -/
def Mem.load8 (m : Mem) (a : Nat) : Nat := (m.byte a).toNat

/-- Load a little-endian 32-bit value. -/
def Mem.load32 (m : Mem) (a : Nat) : Nat :=
  (m.byte a).toNat + 256 * (m.byte (a + 1)).toNat
    + 65536 * (m.byte (a + 2)).toNat + 16777216 * (m.byte (a + 3)).toNat

/-- Store the low 32 bits of a value, little-endian. -/
def Mem.store32 (m : Mem) (a v : Nat) : Mem :=
  (((m.store8 a (byteOf v 0)).store8 (a + 1) (byteOf v 1)).store8
    (a + 2) (byteOf v 2)).store8 (a + 3) (byteOf v 3)

/-- Store the low 16 bits of a value, little-endian. -/
def Mem.store16 (m : Mem) (a v : Nat) : Mem :=
  (m.store8 a (byteOf v 0)).store8 (a + 1) (byteOf v 1)

/-- Load a little-endian 64-bit value. -/
def Mem.load64 (m : Mem) (a : Nat) : Nat := m.load32 a + 2 ^ 32 * m.load32 (a + 4)

/-- The byte loop of `memset`: `len` bytes from `dest` on become `val`. -/
def memset (m : Mem) (dest : Nat) (val : Byte) : Nat → Mem
  | 0 => m
  | len + 1 => memset (m.store8 dest val) (dest + 1) val len

/-- The bytes `bs` from `a` on, one after the other. -/
def Mem.storeBytes (m : Mem) (a : Nat) : List Byte → Mem
  | [] => m
  | b :: bs => (m.store8 a b).storeBytes (a + 1) bs

/-- Four bytes of a list, little-endian. -/
def le32 (bytes : List Byte) (off : Nat) : Nat :=
  (bytes.getD off 0).toNat + 256 * (bytes.getD (off + 1) 0).toNat
    + 65536 * (bytes.getD (off + 2) 0).toNat + 16777216 * (bytes.getD (off + 3) 0).toNat

/-! ## What a store changes -/

@[simp] theorem byte_store8_self (m : Mem) (a : Nat) (b : Byte) :
    (m.store8 a b).byte a = b := if_pos rfl

theorem byte_store8_ne {m : Mem} {a x : Nat} {b : Byte} (h : x ≠ a) :
    (m.store8 a b).byte x = m.byte x := if_neg h

/-- Bytes outside the stored word keep their value. -/
theorem byte_store32_outside {m : Mem} {a v x : Nat} (h : x < a ∨ a + 4 ≤ x) :
    (m.store32 a v).byte x = m.byte x := by
  unfold Mem.store32
  rw [byte_store8_ne (by omega), byte_store8_ne (by omega),
    byte_store8_ne (by omega), byte_store8_ne (by omega)]

/-- The four bytes of the stored word. -/
theorem byte_store32_inside (m : Mem) (a v : Nat) :
    (m.store32 a v).byte a = byteOf v 0
      ∧ (m.store32 a v).byte (a + 1) = byteOf v 1
      ∧ (m.store32 a v).byte (a + 2) = byteOf v 2
      ∧ (m.store32 a v).byte (a + 3) = byteOf v 3 := by
  unfold Mem.store32
  refine ⟨?_, ?_, ?_, byte_store8_self _ _ _⟩
  · rw [byte_store8_ne (by omega), byte_store8_ne (by omega),
      byte_store8_ne (by omega), byte_store8_self]
  · rw [byte_store8_ne (by omega), byte_store8_ne (by omega), byte_store8_self]
  · rw [byte_store8_ne (by omega), byte_store8_self]

/-- Reading back a stored word gives its low 32 bits. -/
theorem load32_store32_self (m : Mem) (a v : Nat) :
    (m.store32 a v).load32 a = v % 2 ^ 32 := by
  obtain ⟨h0, h1, h2, h3⟩ := byte_store32_inside m a v
  unfold Mem.load32
  rw [h0, h1, h2, h3]
  simp only [byteOf, BitVec.toNat_ofNat]
  omega

/-- A load depends on its four bytes only. -/
theorem load32_congr {m m' : Mem} {a : Nat}
    (h : ∀ x, a ≤ x → x < a + 4 → m'.byte x = m.byte x) :
    m'.load32 a = m.load32 a := by
  unfold Mem.load32
  rw [h a (by omega) (by omega), h (a + 1) (by omega) (by omega),
    h (a + 2) (by omega) (by omega), h (a + 3) (by omega) (by omega)]

theorem load8_congr {m m' : Mem} {a : Nat} (h : m'.byte a = m.byte a) :
    m'.load8 a = m.load8 a := congrArg BitVec.toNat h

theorem load32_store32_ne {m : Mem} {a b v : Nat} (h : b + 4 ≤ a ∨ a + 4 ≤ b) :
    (m.store32 a v).load32 b = m.load32 b :=
  load32_congr fun _ _ _ => byte_store32_outside (by omega)

theorem load32_store8_ne {m : Mem} {a b : Nat} {v : Byte}
    (h : b + 4 ≤ a ∨ a + 1 ≤ b) : (m.store8 a v).load32 b = m.load32 b :=
  load32_congr fun _ _ _ => byte_store8_ne (by omega)

theorem load8_store32_ne {m : Mem} {a b v : Nat} (h : b < a ∨ a + 4 ≤ b) :
    (m.store32 a v).load8 b = m.load8 b :=
  load8_congr (byte_store32_outside h)

theorem load8_store8_self (m : Mem) (a : Nat) (b : Byte) :
    (m.store8 a b).load8 a = b.toNat := congrArg BitVec.toNat (byte_store8_self m a b)

/-- Four bytes never make more than a 32-bit value. -/
theorem load32_lt (m : Mem) (a : Nat) : m.load32 a < 2 ^ 32 := by
  unfold Mem.load32
  have h0 := (m.byte a).isLt
  have h1 := (m.byte (a + 1)).isLt
  have h2 := (m.byte (a + 2)).isLt
  have h3 := (m.byte (a + 3)).isLt
  omega

theorem le32_lt (bytes : List Byte) (off : Nat) : le32 bytes off < 2 ^ 32 := by
  unfold le32
  have h0 := (bytes.getD off 0).isLt
  have h1 := (bytes.getD (off + 1) 0).isLt
  have h2 := (bytes.getD (off + 2) 0).isLt
  have h3 := (bytes.getD (off + 3) 0).isLt
  omega

theorem byte_store16_outside {m : Mem} {a v x : Nat} (h : x < a ∨ a + 2 ≤ x) :
    (m.store16 a v).byte x = m.byte x := by
  rw [Mem.store16, byte_store8_ne (by omega), byte_store8_ne (by omega)]

theorem load32_store16_ne {m : Mem} {a b v : Nat} (h : b + 4 ≤ a ∨ a + 2 ≤ b) :
    (m.store16 a v).load32 b = m.load32 b :=
  load32_congr fun _ _ _ => byte_store16_outside (by omega)

/-- A word stored over the low half of a 32-bit field leaves the high half. -/
theorem load32_store16_self (m : Mem) (a v : Nat) :
    (m.store16 a v).load32 a = v % 2 ^ 16 + 65536 * (m.byte (a + 2)).toNat
      + 16777216 * (m.byte (a + 3)).toNat := by
  have h0 : (m.store16 a v).byte a = byteOf v 0 := by
    rw [Mem.store16, byte_store8_ne (by omega), byte_store8_self]
  have h1 : (m.store16 a v).byte (a + 1) = byteOf v 1 := byte_store8_self _ _ _
  rw [Mem.load32, h0, h1, byte_store16_outside (by omega), byte_store16_outside (by omega)]
  simp only [byteOf, BitVec.toNat_ofNat]
  omega

/-! ## 16-bit accesses -/

/-- The two bytes of a 16-bit store. -/
theorem byte_store16_inside (m : Mem) (a v : Nat) :
    (m.store16 a v).byte a = byteOf v 0 ∧ (m.store16 a v).byte (a + 1) = byteOf v 1 := by
  refine ⟨?_, byte_store8_self _ _ _⟩
  rw [Mem.store16, byte_store8_ne (by omega), byte_store8_self]

/-- Load a little-endian 16-bit value. -/
def Mem.load16 (m : Mem) (a : Nat) : Nat := (m.byte a).toNat + 256 * (m.byte (a + 1)).toNat

theorem load16_congr {m m' : Mem} {a : Nat} (h : ∀ x, a ≤ x → x < a + 2 → m'.byte x = m.byte x) :
    m'.load16 a = m.load16 a := by
  unfold Mem.load16
  rw [h a (by omega) (by omega), h (a + 1) (by omega) (by omega)]

/-- Reading back a stored half word. -/
theorem load16_store16_self (m : Mem) (a v : Nat) : (m.store16 a v).load16 a = v % 2 ^ 16 := by
  obtain ⟨h0, h1⟩ := byte_store16_inside m a v
  rw [Mem.load16, h0, h1]
  simp only [byteOf, BitVec.toNat_ofNat]
  omega

theorem load16_store16_ne {m : Mem} {a b v : Nat} (h : b + 2 ≤ a ∨ a + 2 ≤ b) :
    (m.store16 a v).load16 b = m.load16 b :=
  load16_congr fun _ _ _ => byte_store16_outside (by omega)

theorem load16_store8_ne {m : Mem} {a b : Nat} {v : Byte} (h : b + 2 ≤ a ∨ a < b) :
    (m.store8 a v).load16 b = m.load16 b :=
  load16_congr fun _ _ _ => byte_store8_ne (by omega)

theorem load8_store16_ne {m : Mem} {a b v : Nat} (h : b < a ∨ a + 2 ≤ b) :
    (m.store16 a v).load8 b = m.load8 b :=
  load8_congr (byte_store16_outside h)

/-! ## Little-endian integers -/

theorem load32_of_bytes {m : Mem} {a v : Nat} (h : ∀ k, k < 4 → m.byte (a + k) = byteOf v k) :
    m.load32 a = v % 2 ^ 32 := by
  rw [Mem.load32, show m.byte a = byteOf v 0 from h 0 (by omega), h 1 (by omega),
    h 2 (by omega), h 3 (by omega)]
  simp only [byteOf, BitVec.toNat_ofNat]
  omega

theorem load64_of_bytes {m : Mem} {a v : Nat} (h : ∀ k, k < 8 → m.byte (a + k) = byteOf v k) :
    m.load64 a = v % 2 ^ 64 := by
  have hlow : m.load32 a = v % 2 ^ 32 := load32_of_bytes fun k hk => h k (by omega)
  have hhigh : m.load32 (a + 4) = v / 2 ^ 32 % 2 ^ 32 := by
    refine load32_of_bytes fun k hk => ?_
    rw [Nat.add_assoc, h (4 + k) (by omega), byteOf, byteOf, Nat.pow_add, ← Nat.div_div_eq_div_mul]
    rfl
  rw [Mem.load64, hlow, hhigh]
  omega

/-! ## Where a program writes -/

/-- `m'` comes from `m` by stores to addresses in `P` only. -/
def WritesIn (P : Nat → Prop) (m m' : Mem) : Prop :=
  ∃ w, m'.wrote = w ++ m.wrote ∧ (∀ a ∈ w, P a)
    ∧ ∀ a, ¬ P a → m'.byte a = m.byte a

theorem WritesIn.refl (P : Nat → Prop) (m : Mem) : WritesIn P m m :=
  ⟨[], rfl, fun _ h => (nomatch h), fun _ _ => rfl⟩

theorem WritesIn.trans {P : Nat → Prop} {m m' m'' : Mem}
    (h1 : WritesIn P m m') (h2 : WritesIn P m' m'') : WritesIn P m m'' := by
  obtain ⟨w1, hw1, hP1, hb1⟩ := h1
  obtain ⟨w2, hw2, hP2, hb2⟩ := h2
  refine ⟨w2 ++ w1, by rw [hw2, hw1, List.append_assoc], ?_, ?_⟩
  · intro a ha
    rcases List.mem_append.mp ha with h | h
    · exact hP2 a h
    · exact hP1 a h
  · intro a ha
    rw [hb2 a ha, hb1 a ha]

theorem WritesIn.mono {P Q : Nat → Prop} {m m' : Mem}
    (h : WritesIn P m m') (hPQ : ∀ a, P a → Q a) : WritesIn Q m m' := by
  obtain ⟨w, hw, hP, hb⟩ := h
  exact ⟨w, hw, fun a ha => hPQ a (hP a ha), fun a ha => hb a fun hp => ha (hPQ a hp)⟩

/-- Bytes outside the written set are unchanged. -/
theorem WritesIn.byte_eq {P : Nat → Prop} {m m' : Mem} (h : WritesIn P m m')
    {a : Nat} (ha : ¬ P a) : m'.byte a = m.byte a := by
  obtain ⟨_, _, _, hb⟩ := h
  exact hb a ha

theorem WritesIn.store8 {P : Nat → Prop} {m m' : Mem} {a : Nat} (b : Byte)
    (h : WritesIn P m m') (ha : P a) : WritesIn P m (m'.store8 a b) := by
  refine h.trans ⟨[a], rfl, ?_, ?_⟩
  · intro x hx
    rw [List.mem_singleton.mp hx]
    exact ha
  · intro x hx
    refine byte_store8_ne fun hxa => hx ?_
    rw [hxa]
    exact ha

theorem WritesIn.store32 {P : Nat → Prop} {m m' : Mem} {a : Nat} (v : Nat)
    (h : WritesIn P m m') (ha : ∀ i, i < 4 → P (a + i)) :
    WritesIn P m (m'.store32 a v) :=
  (((h.store8 _ (ha 0 (by omega))).store8 _ (ha 1 (by omega))).store8 _
    (ha 2 (by omega))).store8 _ (ha 3 (by omega))

/-! ## The byte loop -/

/-- `memset` sets its range and nothing else. -/
theorem byte_memset (val : Byte) :
    ∀ (len : Nat) (m : Mem) (dest x : Nat),
      (memset m dest val len).byte x
        = if dest ≤ x ∧ x < dest + len then val else m.byte x := by
  intro len
  induction len with
  | zero => intro m dest x; rw [if_neg (by omega)]; rfl
  | succ len ih =>
      intro m dest x
      show (memset (m.store8 dest val) (dest + 1) val len).byte x = _
      rw [ih]
      by_cases hin : dest + 1 ≤ x ∧ x < dest + 1 + len
      · rw [if_pos hin, if_pos (by omega)]
      · rw [if_neg hin]
        by_cases hx : x = dest
        · rw [hx, byte_store8_self, if_pos (by omega)]
        · rw [byte_store8_ne hx, if_neg (by omega)]

theorem WritesIn.memset {P : Nat → Prop} {m : Mem} {val : Byte} {len : Nat} :
    ∀ {m' : Mem} {dest : Nat}, WritesIn P m m' → (∀ i, i < len → P (dest + i)) →
      WritesIn P m (memset m' dest val len) := by
  induction len with
  | zero => exact fun h _ => h
  | succ len ih =>
      intro m' dest h hdest
      refine ih (h.store8 val (hdest 0 (Nat.zero_lt_succ _))) fun i hi => ?_
      have hnext := hdest (i + 1) (Nat.succ_lt_succ hi)
      rw [show dest + 1 + i = dest + (i + 1) by omega]
      exact hnext

/-- Storing bytes changes their range and nothing else. -/
theorem byte_storeBytes (bs : List Byte) (m : Mem) (a x : Nat) :
    (m.storeBytes a bs).byte x
      = if a ≤ x ∧ x < a + bs.length then bs.getD (x - a) 0 else m.byte x := by
  induction bs generalizing m a with
  | nil =>
      rw [if_neg (by simp), Mem.storeBytes]
  | cons b bs ih =>
      rw [Mem.storeBytes, ih, List.length_cons]
      by_cases hx : x = a
      · subst hx
        rw [if_neg (by omega), if_pos (by omega), byte_store8_self]
        simp
      · rw [byte_store8_ne hx]
        by_cases hin : a + 1 ≤ x ∧ x < a + 1 + bs.length
        · obtain ⟨k, hk⟩ : ∃ k, x - a = k + 1 := ⟨x - a - 1, by omega⟩
          have hk' : x - (a + 1) = k := by omega
          rw [if_pos hin, if_pos (by omega), hk, hk']
          simp
        · rw [if_neg hin, if_neg (by omega)]

/-- A word of the bytes just stored. -/
theorem load32_storeBytes (bs : List Byte) (m : Mem) (a : Nat) {off : Nat}
    (h : off + 4 ≤ bs.length) : (m.storeBytes a bs).load32 (a + off) = le32 bs off := by
  have hbyte : ∀ k, k < 4 →
      (m.storeBytes a bs).byte (a + off + k) = bs.getD (off + k) 0 := by
    intro k hk
    rw [byte_storeBytes, if_pos (by omega), Nat.add_assoc, Nat.add_sub_cancel_left]
  rw [Mem.load32, le32, hbyte 1 (by omega), hbyte 2 (by omega), hbyte 3 (by omega),
    show (m.storeBytes a bs).byte (a + off) = bs.getD off 0 from hbyte 0 (by omega)]

theorem WritesIn.storeBytes {P : Nat → Prop} {m m' : Mem} {bs : List Byte} :
    ∀ {a : Nat}, WritesIn P m m' → (∀ i, i < bs.length → P (a + i)) →
      WritesIn P m (m'.storeBytes a bs) := by
  induction bs generalizing m' with
  | nil => exact fun h _ => h
  | cons b bs ih =>
      intro a h ha
      refine ih (h.store8 b (ha 0 (Nat.zero_lt_succ _))) fun i hi => ?_
      have hnext := ha (i + 1) (Nat.succ_lt_succ hi)
      rw [show a + 1 + i = a + (i + 1) by omega]
      exact hnext

-- callers go through this lemma: unfolding thousands of stores never helps
attribute [irreducible] memset

end ByteMem
