import Mathlib.Data.List.SplitBy
import Mathlib.Tactic.Common

/-! # Reversal of runs

    A list in which some elements are marked falls into maximal runs of marked elements
    and single other ones.  Text layout draws the former backwards and leaves the latter
    in place.

    * `reverseRuns p l` — every maximal run of elements with `p` reversed;
    * `reverseRuns_perm` — nothing is lost and nothing doubled;
    * `reverseRuns_append` — lists that do not meet in a run are handled apart;
    * `reverseRuns_of_forall`, `reverseRuns_singleton` — one run, one element. -/

namespace RunReversal

variable {α : Type} {p : α → Bool} {l m : List α}

/-- Every maximal run of elements with `p` reversed, everything else in place. -/
def reverseRuns (p : α → Bool) (l : List α) : List α :=
  (l.splitBy fun a b => p a && p b).flatMap List.reverse

example : reverseRuns (fun n : Nat => 5 < n) [1, 7, 8, 2, 9, 6, 3] = [1, 8, 7, 2, 6, 9, 3] := by
  decide

/-- **NOTHING IS LOST.** -/
theorem reverseRuns_perm (p : α → Bool) (l : List α) : (reverseRuns p l).Perm l := by
  have hflat : ∀ gs : List (List α), (gs.flatMap List.reverse).Perm gs.flatten := by
    intro gs
    induction gs with
    | nil => exact List.Perm.refl []
    | cons g gs ih => exact (List.reverse_perm g).append ih
  have hruns := hflat (l.splitBy fun a b => p a && p b)
  rw [List.flatten_splitBy] at hruns
  exact hruns

/-- **NO RUN ACROSS**: where one list ends and the other begins, not both are marked. -/
theorem reverseRuns_append (h : ∀ a ∈ l.getLast?, ∀ b ∈ m.head?, (p a && p b) = false) :
    reverseRuns p (l ++ m) = reverseRuns p l ++ reverseRuns p m := by
  rw [reverseRuns, List.splitBy_append h, List.flatMap_append]
  rfl

/-- **ONE RUN.** -/
theorem reverseRuns_of_forall (h : ∀ a ∈ l, p a = true) : reverseRuns p l = l.reverse := by
  by_cases hl : l = []
  · rw [hl]
    rfl
  · have hchain : l.IsChain fun a b => (p a && p b) = true := by
      refine List.Pairwise.isChain (List.pairwise_iff_forall_sublist.mpr fun {a b} hab => ?_)
      have hmem := hab.subset
      rw [h a (hmem (by simp)), h b (hmem (by simp))]
      rfl
    rw [reverseRuns, List.splitBy_of_isChain hl hchain, List.flatMap_singleton]

theorem reverseRuns_singleton (p : α → Bool) (a : α) : reverseRuns p [a] = [a] := rfl

end RunReversal
