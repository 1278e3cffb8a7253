/-! # Three-way comparisons

    A comparison function returns an integer whose sign tells how its arguments
    compare.

    * `Compares r x y` — the sign of `r` is the order of `x` and `y`;
    * `Compares.swap`, `Compares.trans` — such signs are antisymmetric and transitive;
    * `Compares.nil_cons`, `Compares.cons_self`, `Compares.cons_ne` — lexicographic
      order, element by element. -/

namespace ThreeWay

variable {α : Type} [LT α] {x y z : α} {r r' r'' : Int} {l m : List α}

/-- **THE SIGN IS THE ORDER.** -/
structure Compares (r : Int) (x y : α) : Prop where
  neg : r < 0 ↔ x < y
  zero : r = 0 ↔ x = y
  pos : 0 < r ↔ y < x

/-- Exchanged arguments change the sign. -/
theorem Compares.swap (h : Compares r x y) (h' : Compares r' y x) :
    (r' < 0 ↔ 0 < r) ∧ (0 < r' ↔ r < 0) :=
  ⟨h'.neg.trans h.pos.symm, h'.pos.trans h.neg.symm⟩

/-- In a linear order the signs are transitive. -/
theorem Compares.trans [LE α] [Std.IsLinearOrder α] [Std.LawfulOrderLT α] (h : Compares r x y)
    (h' : Compares r' y z) (h'' : Compares r'' x z) (hr : r ≤ 0) (hr' : r' ≤ 0) : r'' ≤ 0 := by
  have hxy : x ≤ y := Std.not_lt.mp fun hlt => Int.not_lt.mpr hr (h.pos.mpr hlt)
  have hyz : y ≤ z := Std.not_lt.mp fun hlt => Int.not_lt.mpr hr' (h'.pos.mpr hlt)
  refine Int.not_lt.mp fun hpos => ?_
  exact Std.not_lt.mpr (Std.le_trans hxy hyz) (h''.pos.mp hpos)

/-! ## Lists -/

theorem Compares.nil : Compares 0 ([] : List α) [] :=
  ⟨iff_of_false (Int.lt_irrefl 0) (List.not_lt_nil _), iff_of_true rfl rfl,
    iff_of_false (Int.lt_irrefl 0) (List.not_lt_nil _)⟩

/-- The end of a list comes before every element. -/
theorem Compares.nil_cons (hr : r < 0) (y : α) (m : List α) : Compares r [] (y :: m) :=
  ⟨iff_of_true hr (List.nil_lt_cons y m),
    iff_of_false (Int.ne_of_lt hr) (List.cons_ne_nil y m).symm,
    iff_of_false (Int.not_lt.mpr (Int.le_of_lt hr)) (List.not_lt_nil _)⟩

theorem Compares.cons_nil (hr : 0 < r) (x : α) (l : List α) : Compares r (x :: l) [] :=
  ⟨iff_of_false (Int.not_lt.mpr (Int.le_of_lt hr)) (List.not_lt_nil _),
    iff_of_false (Int.ne_of_gt hr) (List.cons_ne_nil x l),
    iff_of_true hr (List.nil_lt_cons x l)⟩

/-- Behind equal elements the rest decides. -/
theorem Compares.cons_self (hirrefl : ¬ x < x) (h : Compares r l m) :
    Compares r (x :: l) (x :: m) := by
  have hlt : ∀ l m : List α, x :: l < x :: m ↔ l < m := fun l m => by
    rw [List.cons_lt_cons_iff]
    exact ⟨fun hor => hor.elim (fun hx => absurd hx hirrefl) And.right, fun hl => Or.inr ⟨rfl, hl⟩⟩
  refine ⟨h.neg.trans (hlt l m).symm, h.zero.trans ⟨congrArg (x :: ·), fun heq => ?_⟩,
    h.pos.trans (hlt m l).symm⟩
  exact (List.cons.inj heq).2

/-- The first elements that differ decide. -/
theorem Compares.cons_ne (h : Compares r x y) (hne : x ≠ y) (l m : List α) :
    Compares r (x :: l) (y :: m) := by
  refine ⟨h.neg.trans ?_, ?_, h.pos.trans ?_⟩
  · rw [List.cons_lt_cons_iff]
    exact ⟨Or.inl, fun hor => hor.resolve_right fun hx => hne hx.1⟩
  · exact iff_of_false (fun hr => hne (h.zero.mp hr)) fun heq => hne (List.cons.inj heq).1
  · rw [List.cons_lt_cons_iff]
    exact ⟨Or.inl, fun hor => hor.resolve_right fun hx => hne hx.1.symm⟩

end ThreeWay
