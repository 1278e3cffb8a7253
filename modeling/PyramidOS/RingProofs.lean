import Mathlib.Data.List.Infix
import Mathlib.Logic.Function.Basic

/-! # A ring buffer between one writer and one reader

    `N` slots and two indices that wrap.  The writer stores behind its index and moves
    it, unless it would meet the reader's; the reader moves its own.  One slot stays
    free, so equal indices mean an empty ring.

    * `Holds N r stored released` — the ring after the elements `stored` went in, of
      which the reader let the first `released` go;
    * `Holds.empty_iff`, `Holds.full_iff` — what the two index comparisons decide;
    * `Holds.put`, `Holds.release` — the two operations keep it. -/

namespace RingBuffer

/-- Slots, and the two indices. -/
structure RingBuf (α : Type) where
  buf : Nat → α
  write : Nat
  read : Nat

variable {α : Type} {N a b k released : Nat} {c d : α} {r : RingBuf α} {stored : List α}

/-- Moving the write index would meet the read index. -/
def RingBuf.Full (N : Nat) (r : RingBuf α) : Prop := (r.write + 1) % N = r.read

instance (N : Nat) (r : RingBuf α) : Decidable (r.Full N) := inferInstanceAs (Decidable (_ = _))

/-- The writer: store and move, or drop when the ring is full. -/
def RingBuf.put (N : Nat) (r : RingBuf α) (c : α) : RingBuf α :=
  if r.Full N then r
  else { r with buf := Function.update r.buf r.write c, write := (r.write + 1) % N }

/-- What has gone into the ring, after `c` was offered. -/
def RingBuf.log (N : Nat) (r : RingBuf α) (stored : List α) (c : α) : List α :=
  if r.Full N then stored else stored ++ [c]

/-- The reader lets the oldest element go. -/
def RingBuf.release (N : Nat) (r : RingBuf α) : RingBuf α := { r with read := (r.read + 1) % N }

/-- **THE RING INVARIANT.** -/
structure Holds (N : Nat) (r : RingBuf α) (stored : List α) (released : Nat) : Prop where
  write : r.write = stored.length % N
  read : r.read = released % N
  le : released ≤ stored.length
  room : stored.length < released + N
  slots : ∀ k c, released ≤ k → stored[k]? = some c → r.buf (k % N) = c

/-- Counts less than `N` apart have different slots. -/
theorem eq_of_mod_eq (hle : a ≤ b) (hlt : b < a + N) (h : a % N = b % N) : a = b := by
  have hdvd : (b - a) % N = 0 := Nat.sub_mod_eq_zero_of_mod_eq h.symm
  rw [Nat.mod_eq_of_lt (by omega)] at hdvd
  omega

/-- An empty ring. -/
theorem Holds.empty (hN : 0 < N) (buf : Nat → α) : Holds N ⟨buf, 0, 0⟩ [] 0 :=
  ⟨(Nat.zero_mod N).symm, (Nat.zero_mod N).symm, Nat.le_refl 0, by simpa using hN,
    fun _ _ _ hk => nomatch hk⟩

/-- **EQUAL INDICES**: everything was let go. -/
theorem Holds.empty_iff (h : Holds N r stored released) :
    r.read = r.write ↔ released = stored.length := by
  rw [h.read, h.write]
  exact ⟨eq_of_mod_eq h.le h.room, congrArg (· % N)⟩

/-- **THE RING IS FULL** when `N - 1` elements are in it. -/
theorem Holds.full_iff (h : Holds N r stored released) :
    r.Full N ↔ stored.length + 1 = released + N := by
  have hle := h.le
  have hroom := h.room
  rw [RingBuf.Full, h.write, h.read, Nat.mod_add_mod]
  constructor
  · intro heq
    by_contra hne
    have hlt : stored.length + 1 < released + N := by omega
    have := eq_of_mod_eq (by omega) hlt heq.symm
    omega
  · intro heq
    rw [heq, Nat.add_mod_right]

/-- The slot the writer is about to fill holds nothing that waits. -/
theorem Holds.write_fresh (h : Holds N r stored released) (hfull : ¬ r.Full N)
    (hk : released ≤ k) (hlt : k < stored.length) : k % N ≠ r.write := by
  have hroom := h.room
  have hne := mt h.full_iff.mpr hfull
  rw [h.write]
  intro heq
  have := eq_of_mod_eq (Nat.le_of_lt hlt) (by omega) heq
  omega

/-- **THE WRITER** keeps the invariant. -/
theorem Holds.put (h : Holds N r stored released) (c : α) :
    Holds N (r.put N c) (r.log N stored c) released := by
  rw [RingBuf.put, RingBuf.log]
  by_cases hfull : r.Full N
  · rw [if_pos hfull, if_pos hfull]
    exact h
  · rw [if_neg hfull, if_neg hfull]
    have hle := h.le
    have hroom := h.room
    have hne := mt h.full_iff.mpr hfull
    constructor
    · rw [List.length_append, List.length_singleton, h.write, Nat.mod_add_mod]
    · exact h.read
    · rw [List.length_append]
      omega
    · rw [List.length_append, List.length_singleton]
      omega
    · intro k d hk hd
      show Function.update r.buf r.write c (k % N) = d
      by_cases hlt : k < stored.length
      · rw [List.getElem?_append_left hlt] at hd
        rw [Function.update_of_ne (h.write_fresh hfull hk hlt)]
        exact h.slots k d hk hd
      · -- the new element, in the slot of the write index
        have hlen := (List.getElem?_eq_some_iff.mp hd).1
        rw [List.length_append, List.length_singleton] at hlen
        have hkl : k = stored.length := by omega
        subst hkl
        rw [List.getElem?_concat_length] at hd
        rw [← h.write, Function.update_self]
        exact Option.some.inj hd

/-- What waits next stands at the read index. -/
theorem Holds.next (h : Holds N r stored released) (hlt : released < stored.length) :
    stored[released]? = some (r.buf r.read) := by
  have hget : stored[released]? = some stored[released] := List.getElem?_eq_getElem hlt
  rw [h.read, h.slots released _ (Nat.le_refl _) hget]
  exact hget

/-- **THE READER** keeps the invariant. -/
theorem Holds.release (h : Holds N r stored released) (hlt : released < stored.length) :
    Holds N (r.release N) stored (released + 1) := by
  have hroom := h.room
  constructor
  · exact h.write
  · show (r.read + 1) % N = _
    rw [h.read, Nat.mod_add_mod]
  · exact hlt
  · omega
  · intro k c hk
    exact h.slots k c (by omega)

/-- What went in before is still there. -/
theorem stored_mono (N : Nat) (r : RingBuf α) (stored : List α) (c : α) :
    stored <+: r.log N stored c := by
  rw [RingBuf.log]
  split
  · exact List.prefix_refl stored
  · exact List.prefix_append stored [c]

end RingBuffer
