import Mathlib.Data.List.Basic

/-! # Bounded polling

    A loop that asks its environment for observations until one of them decides, and
    gives up after so many.  What it asks is a state transformer, so the environment
    may answer in any way at all.

    * `poll_spec` — the observations made, and what the result says of them;
    * `Polled.length_le`, `Polled.last` — the two facts callers use. -/

namespace BoundedPoll

variable {σ β ρ : Type} {observe : σ → β × σ} {verdict : β → Option ρ} {timeout r : ρ}
  {bs : List β} {n : Nat}

/-- At most `n` observations, until one decides. -/
def poll (observe : σ → β × σ) (verdict : β → Option ρ) (timeout : ρ) : Nat → σ → ρ × σ
  | 0, s => (timeout, s)
  | n + 1, s =>
      match verdict (observe s).1 with
      | some r => (r, (observe s).2)
      | none => poll observe verdict timeout n (observe s).2

/-- `s'` is `s` after the observations `bs`. -/
inductive Observed (observe : σ → β × σ) : σ → List β → σ → Prop where
  | nil {s : σ} : Observed observe s [] s
  | cons {s s' : σ} {bs : List β} (h : Observed observe (observe s).2 bs s') :
      Observed observe s ((observe s).1 :: bs) s'

/-- What a result says of the observations: the last one decided, or none did and
    there were as many as allowed. -/
inductive Polled (verdict : β → Option ρ) (timeout : ρ) (n : Nat) : List β → ρ → Prop where
  | decided {bs : List β} {b : β} {r : ρ} (hwait : ∀ c ∈ bs, verdict c = none)
      (hlast : verdict b = some r) (hlen : bs.length < n) :
      Polled verdict timeout n (bs ++ [b]) r
  | timedOut {bs : List β} (hwait : ∀ c ∈ bs, verdict c = none) (hlen : bs.length = n) :
      Polled verdict timeout n bs timeout

/-- An observation that decides nothing comes before the others. -/
theorem Polled.cons {b : β} (hb : verdict b = none) (h : Polled verdict timeout n bs r) :
    Polled verdict timeout (n + 1) (b :: bs) r := by
  have hfirst : ∀ cs : List β, (∀ c ∈ cs, verdict c = none) →
      ∀ c ∈ b :: cs, verdict c = none := by
    intro cs hcs c hc
    rcases List.mem_cons.mp hc with rfl | hrest
    · exact hb
    · exact hcs c hrest
  cases h with
  | decided hwait hlast hlen => exact .decided (hfirst _ hwait) hlast (Nat.succ_lt_succ hlen)
  | timedOut hwait hlen => exact .timedOut (hfirst _ hwait) (congrArg Nat.succ hlen)

/-- **POLLING**, whatever is observed. -/
theorem poll_spec (observe : σ → β × σ) (verdict : β → Option ρ) (timeout : ρ) (n : Nat) (s : σ) :
    ∃ bs, Observed observe s bs (poll observe verdict timeout n s).2
      ∧ Polled verdict timeout n bs (poll observe verdict timeout n s).1 := by
  induction n generalizing s with
  | zero => exact ⟨[], .nil, .timedOut (fun c hc => (nomatch hc)) rfl⟩
  | succ n ih =>
    rw [poll]
    cases hb : verdict (observe s).1 with
    | some r =>
      have hfirst : ∀ c ∈ ([] : List β), verdict c = none := fun c hc => (nomatch hc)
      exact ⟨[(observe s).1], .cons .nil, .decided hfirst hb (Nat.zero_lt_succ n)⟩
    | none =>
      obtain ⟨bs, hobserved, hpolled⟩ := ih (observe s).2
      exact ⟨(observe s).1 :: bs, .cons hobserved, hpolled.cons hb⟩

theorem Polled.length_le (h : Polled verdict timeout n bs r) : bs.length ≤ n := by
  cases h with
  | decided _ _ hlen =>
    rw [List.length_append]
    exact hlen
  | timedOut _ hlen => exact Nat.le_of_eq hlen

/-- A result that is not the timeout was decided by the last observation. -/
theorem Polled.last (h : Polled verdict timeout n bs r) (hr : r ≠ timeout) :
    ∃ cs b, bs = cs ++ [b] ∧ (∀ c ∈ cs, verdict c = none) ∧ verdict b = some r := by
  cases h with
  | decided hwait hlast _ => exact ⟨_, _, rfl, hwait, hlast⟩
  | timedOut _ _ => exact absurd rfl hr

end BoundedPoll
