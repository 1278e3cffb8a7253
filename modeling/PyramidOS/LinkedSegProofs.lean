import Mathlib.Data.List.Basic

/-! # Doubly linked segments

    A run of nodes in memory, each with a pointer to the node before it and one
    to the node after it.  The layout of a node is a parameter: `N m a p n` says
    that memory `m` holds the node `a` with predecessor `p` and successor `n`.

    * `Seg addr N m p l z` — the nodes `l` are linked, between a node at `p` and
      a node at `z`;
    * `seg_append`, `seg_at` — segments compose, and split at any node;
    * `Seg.frame` — a segment survives what its nodes survive. -/

namespace LinkedSeg

variable {M α : Type} {addr : α → Nat} {N : M → α → Nat → Nat → Prop}
  {m m' : M} {p z : Nat} {a : α} {l xs ys : List α}

/-- The address of the first node, or `z` past the end. -/
def headOr (addr : α → Nat) (z : Nat) : List α → Nat
  | [] => z
  | a :: _ => addr a

/-- The address of the last node, or `p` before the start. -/
def lastOr (addr : α → Nat) (p : Nat) : List α → Nat
  | [] => p
  | a :: rest => lastOr addr (addr a) rest

/-- The nodes `l`, linked between `p` and `z`. -/
def Seg (addr : α → Nat) (N : M → α → Nat → Nat → Prop) (m : M) :
    Nat → List α → Nat → Prop
  | _, [], _ => True
  | p, a :: rest, z => N m a p (headOr addr z rest) ∧ Seg addr N m (addr a) rest z

theorem headOr_append (xs ys : List α) :
    headOr addr z (xs ++ ys) = headOr addr (headOr addr z ys) xs := by
  cases xs with
  | nil => rfl
  | cons a rest => rfl

@[simp] theorem lastOr_concat (xs : List α) (a : α) :
    lastOr addr p (xs ++ [a]) = addr a := by
  induction xs generalizing p with
  | nil => rfl
  | cons b rest ih => exact ih

/-- **COMPOSITION**: two segments make one when each ends where the other
    begins. -/
theorem seg_append : Seg addr N m p (xs ++ ys) z ↔
    Seg addr N m p xs (headOr addr z ys) ∧ Seg addr N m (lastOr addr p xs) ys z := by
  induction xs generalizing p with
  | nil => exact ⟨fun h => ⟨trivial, h⟩, fun h => h.2⟩
  | cons a rest ih =>
      show N m a p (headOr addr z (rest ++ ys)) ∧ Seg addr N m (addr a) (rest ++ ys) z ↔
        (N m a p (headOr addr (headOr addr z ys) rest)
          ∧ Seg addr N m (addr a) rest (headOr addr z ys))
          ∧ Seg addr N m (lastOr addr (addr a) rest) ys z
      rw [headOr_append, ih, and_assoc]

/-- Splitting at a node. -/
theorem seg_at : Seg addr N m p (xs ++ a :: ys) z ↔
    Seg addr N m p xs (addr a) ∧ N m a (lastOr addr p xs) (headOr addr z ys)
      ∧ Seg addr N m (addr a) ys z := seg_append

/-- **FRAME**: what every node survives, the segment survives. -/
theorem Seg.frame (h : Seg addr N m p l z)
    (hN : ∀ a ∈ l, ∀ q n, N m a q n → N m' a q n) : Seg addr N m' p l z := by
  induction l generalizing p with
  | nil => trivial
  | cons a rest ih =>
      obtain ⟨ha, hrest⟩ := h
      exact ⟨hN a (List.mem_cons_self ..) _ _ ha,
        ih hrest fun b hb => hN b (List.mem_cons_of_mem _ hb)⟩

end LinkedSeg
