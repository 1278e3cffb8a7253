import PyramidOS.ByteMemoryProofs

/-! # A stack of words

    A stack in byte memory that grows down, one 32-bit word at a time, with the
    pointer at the word pushed last.

    * `Holds m sp ws` — from `sp` on, memory holds the words `ws`;
    * `Holds.push`, `Holds.pop` — the two ends of a word's life;
    * `Holds.congr` — the words depend on their own bytes only. -/

namespace WordStack

open ByteMem

/-- The words `ws` stand in memory from `sp` on. -/
def Holds (m : Mem) : Nat → List Nat → Prop
  | _, [] => True
  | sp, w :: ws => m.load32 sp = w ∧ Holds m (sp + 4) ws

variable {m m' : Mem} {sp v w : Nat} {ws vs : List Nat}

/-- The words are what their bytes are. -/
theorem Holds.congr (h : Holds m sp ws)
    (hsame : ∀ x, sp ≤ x → x < sp + 4 * ws.length → m'.byte x = m.byte x) :
    Holds m' sp ws := by
  induction ws generalizing sp with
  | nil => trivial
  | cons w ws ih =>
    rw [List.length_cons] at hsame
    refine ⟨?_, ih h.2 fun x hlow hhigh => hsame x (by omega) (by omega)⟩
    rw [load32_congr fun x hlow hhigh => hsame x hlow (by omega)]
    exact h.1

/-- **PUSH**: below the words a store leaves them alone and puts one more on top. -/
theorem Holds.push (h : Holds m (sp + 4) ws) (hv : v < 2 ^ 32) :
    Holds (m.store32 sp v) sp (v :: ws) := by
  refine ⟨?_, h.congr fun x hlow _ => byte_store32_outside (Or.inr hlow)⟩
  rw [load32_store32_self, Nat.mod_eq_of_lt hv]

/-- **POP**: the word on top, and what was below it. -/
theorem Holds.pop (h : Holds m sp (w :: ws)) : m.load32 sp = w ∧ Holds m (sp + 4) ws := h

/-- Past the first words stand the others. -/
theorem Holds.drop (h : Holds m sp ws) (n : Nat) : Holds m (sp + 4 * n) (ws.drop n) := by
  induction n generalizing sp ws with
  | zero => exact h
  | succ n ih =>
    cases ws with
    | nil => trivial
    | cons w ws =>
      rw [List.drop_succ_cons, show sp + 4 * (n + 1) = sp + 4 + 4 * n by omega]
      exact ih h.2

/-- Word `n` of the stack. -/
theorem Holds.word (h : Holds m sp ws) {n : Nat} (hn : n < ws.length) :
    m.load32 (sp + 4 * n) = ws[n] := by
  have hdrop := h.drop n
  rw [List.drop_eq_getElem_cons hn] at hdrop
  exact hdrop.1

end WordStack
