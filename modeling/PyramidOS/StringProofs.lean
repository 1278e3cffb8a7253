import Mathlib.Algebra.Group.Nat.Defs
import Mathlib.Data.List.TakeWhile
import Mathlib.Tactic.Common
import PyramidOS.ComparisonProofs

/-! # Strings

    `string.c`.  A `char` pointer is the list of bytes from it on; the string
    ends at the first NUL, and the end of the list stands for one too.  `text s`
    is the string proper, and every function here is a function of the texts:

    * `strlen_eq`;
    * `compares_turn` — one turn of the two comparison loops;
    * `strcmp_compares`, `strncmp_compares` — their sign, and when it is 0. -/

namespace PyramidString

open ThreeWay

variable {s t : List UInt8} {a : UInt8} {i n : Nat} {r : Int}

/-- `s[i]`. -/
def charAt (s : List UInt8) (i : Nat) : UInt8 := s.getD i 0

/-- The characters before the NUL. -/
def text (s : List UInt8) : List UInt8 := s.takeWhile (· ≠ 0)

/-- `strlen`. -/
def strlen : List UInt8 → Nat
  | [] => 0
  | a :: s => if a = 0 then 0 else strlen s + 1

/-- `strcmp`: the difference of the first characters that differ. -/
def strcmp : List UInt8 → List UInt8 → Int
  | [], t => 0 - (charAt t 0).toNat
  | a :: s, t =>
      if a ≠ 0 ∧ a = charAt t 0 then strcmp s t.tail
      else a.toNat - (charAt t 0).toNat

/-- `strncmp`: the same over at most `n` characters. -/
def strncmp : List UInt8 → List UInt8 → Nat → Int
  | _, _, 0 => 0
  | [], t, _ + 1 => 0 - (charAt t 0).toNat
  | a :: s, t, n + 1 =>
      if a ≠ 0 ∧ a = charAt t 0 then strncmp s t.tail n
      else a.toNat - (charAt t 0).toNat

/-- Conversion to `int`, which wraps. -/
def int32 (x : Int) : Int := Int.bmod x (2 ^ 32)

/-- The loop of `atoi`, from the digit at hand on. -/
def atoiLoop : List UInt8 → Int → Int
  | [], res => res
  | a :: s, res =>
      if a = 0 then res
      else if 48 ≤ a ∧ a ≤ 57 then atoiLoop s (int32 (res * 10 + a.toNat - 48))
      else res

/-- `atoi`. -/
def atoi (s : List UInt8) : Int :=
  if charAt s 0 = 45 then int32 (-1 * atoiLoop (s.drop 1) 0) else int32 (1 * atoiLoop s 0)

/-- The characters of a string literal. -/
def chars (s : String) : List UInt8 := s.toList.map fun c => UInt8.ofNat c.toNat

example : atoi (chars "-5") = -5 ∧ atoi (chars "2147483648x") < 0 := by decide +kernel

/-! ## Texts -/

@[simp] theorem text_nil : text [] = [] := rfl

@[simp] theorem text_cons_zero (s : List UInt8) : text (0 :: s) = [] := by
  simp [text]

theorem text_cons (ha : a ≠ 0) (s : List UInt8) : text (a :: s) = a :: text s := by
  simp [text, ha]

theorem text_ne_zero (ha : a ∈ text s) : a ≠ 0 := by
  simpa using List.mem_takeWhile_imp ha

/-- A string without NUL, followed by one, is its own text. -/
theorem text_append_zero (hs : ∀ a ∈ s, a ≠ 0) (t : List UInt8) :
    text (s ++ 0 :: t) = s := by
  rw [text, List.takeWhile_append_of_pos (by simpa using hs)]
  simp

theorem text_of_ne_zero (hs : ∀ a ∈ s, a ≠ 0) : text s = s :=
  List.takeWhile_eq_self_iff.mpr (by simpa using hs)

@[simp] theorem text_text (s : List UInt8) : text (text s) = text s :=
  text_of_ne_zero fun _ ha => text_ne_zero ha

@[simp] theorem charAt_nil (i : Nat) : charAt [] i = 0 := rfl

@[simp] theorem charAt_cons_zero (a : UInt8) (s : List UInt8) : charAt (a :: s) 0 = a := rfl

@[simp] theorem charAt_cons_succ (a : UInt8) (s : List UInt8) (i : Nat) :
    charAt (a :: s) (i + 1) = charAt s i := rfl

theorem charAt_drop (s : List UInt8) (n i : Nat) : charAt (s.drop n) i = charAt s (n + i) := by
  simp [charAt, List.getD_eq_getElem?_getD]

/-- Up to its NUL a string and its text have the same characters. -/
theorem charAt_text (hi : i ≤ (text s).length) : charAt (text s) i = charAt s i := by
  induction s generalizing i with
  | nil => rfl
  | cons a s ih =>
      by_cases ha : a = 0
      · subst ha
        simp only [text_cons_zero, List.length_nil, Nat.le_zero] at hi
        subst hi
        simp
      · rw [text_cons ha] at hi ⊢
        cases i with
        | zero => rfl
        | succ i => simpa using ih (Nat.le_of_succ_le_succ hi)

/-- Dropping characters before the NUL. -/
theorem text_drop (hn : n ≤ (text s).length) : text (s.drop n) = (text s).drop n := by
  induction s generalizing n with
  | nil => simp
  | cons a s ih =>
      by_cases ha : a = 0
      · subst ha
        simp only [text_cons_zero, List.length_nil, Nat.le_zero] at hn
        subst hn
        simp
      · rw [text_cons ha] at hn ⊢
        cases n with
        | zero => simp [text_cons ha]
        | succ n => simpa using ih (Nat.le_of_succ_le_succ hn)

/-- The first character of a string is NUL when its text is empty. -/
theorem charAt_zero_eq_zero_iff : charAt s 0 = 0 ↔ text s = [] := by
  cases s with
  | nil => simp
  | cons a s =>
      by_cases ha : a = 0
      · simp [ha]
      · simp [ha, text_cons ha]

/-- No character before the NUL is one, and the NUL is. -/
theorem charAt_ne_zero (hi : i < (text s).length) : charAt s i ≠ 0 := by
  have hget : charAt (text s) i = (text s)[i] := by
    simp [charAt, List.getD_eq_getElem?_getD, hi]
  rw [← charAt_text (Nat.le_of_lt hi), hget]
  exact text_ne_zero (List.getElem_mem hi)

theorem charAt_length (s : List UInt8) : charAt s (text s).length = 0 := by
  rw [← charAt_text (Nat.le_refl _)]
  simp [charAt, List.getD_eq_getElem?_getD]

theorem charAt_zero_eq_iff (ha : a ≠ 0) : charAt s 0 = a ↔ (text s).head? = some a := by
  cases s with
  | nil => simp [Ne.symm ha]
  | cons b s =>
      by_cases hb : b = 0
      · subst hb
        simp [Ne.symm ha]
      · simp [text_cons hb]

/-! ## The functions -/

theorem strlen_eq (s : List UInt8) : strlen s = (text s).length := by
  induction s with
  | nil => rfl
  | cons a s ih =>
      by_cases ha : a = 0
      · simp [strlen, ha]
      · simp [strlen, ha, text_cons ha, ih]

/-- Two characters differ by 0 when they are equal. -/
theorem sub_eq_zero_iff (a b : UInt8) : (a.toNat : Int) - b.toNat = 0 ↔ a = b := by
  rw [← UInt8.toNat_inj]
  omega

theorem text_eq (s : List UInt8) :
    text s = if charAt s 0 = 0 then [] else charAt s 0 :: text s.tail := by
  cases s with
  | nil => rfl
  | cons a s =>
    by_cases ha : a = 0
    · simp [ha]
    · simp [ha, text_cons ha]

theorem strcmp_eq (s t : List UInt8) :
    strcmp s t = if charAt s 0 ≠ 0 ∧ charAt s 0 = charAt t 0 then strcmp s.tail t.tail
      else (charAt s 0).toNat - (charAt t 0).toNat := by
  cases s with
  | nil => rfl
  | cons a s => rfl

theorem strncmp_eq (s t : List UInt8) (n : Nat) :
    strncmp s t (n + 1) = if charAt s 0 ≠ 0 ∧ charAt s 0 = charAt t 0 then strncmp s.tail t.tail n
      else (charAt s 0).toNat - (charAt t 0).toNat := by
  cases s with
  | nil => rfl
  | cons a s => rfl

theorem compares_sub (a b : UInt8) : Compares ((a.toNat : Int) - b.toNat) a b := by
  refine ⟨?_, sub_eq_zero_iff a b, ?_⟩
  · rw [UInt8.lt_iff_toNat_lt]
    omega
  · rw [UInt8.lt_iff_toNat_lt]
    omega

/-- **ONE TURN**: a NUL ends the string, equal characters leave the rest to decide, and
    other characters decide. -/
theorem compares_turn (a b : UInt8) (s t : List UInt8) (h : a ≠ 0 → a = b → Compares r s t) :
    Compares (if a ≠ 0 ∧ a = b then r else (a.toNat : Int) - b.toNat)
      (if a = 0 then [] else a :: s) (if b = 0 then [] else b :: t) := by
  have hzero : ∀ c : UInt8, c ≠ 0 → 0 < (c.toNat : Int) := fun c hc => by
    have hpos := (compares_sub c 0).zero.not.mpr hc
    have hval : ((0 : UInt8).toNat : Int) = 0 := rfl
    omega
  by_cases ha : a = 0
  · subst ha
    rw [if_neg fun hcond => hcond.1 rfl, if_pos rfl]
    by_cases hb : b = 0
    · subst hb
      exact .nil
    · rw [if_neg hb]
      have hpos := hzero b hb
      exact .nil_cons (show (0 : Int) - b.toNat < 0 by omega) b t
  · rw [if_neg ha]
    by_cases hab : a = b
    · subst hab
      rw [if_pos ⟨ha, rfl⟩, if_neg ha]
      exact .cons_self (UInt8.lt_irrefl a) (h ha rfl)
    · rw [if_neg fun hcond => hab hcond.2]
      by_cases hb : b = 0
      · subst hb
        rw [if_pos rfl]
        have hpos := hzero a ha
        exact .cons_nil (show 0 < (a.toNat : Int) - 0 by omega) a s
      · rw [if_neg hb]
        exact (compares_sub a b).cons_ne hab s t

/-- **`strcmp`** compares the texts. -/
theorem strcmp_compares (s t : List UInt8) : Compares (strcmp s t) (text s) (text t) := by
  induction s generalizing t with
  | nil =>
    rw [strcmp_eq, text_eq, text_eq t]
    exact compares_turn _ _ _ _ fun ha => absurd rfl ha
  | cons a s ih =>
    rw [strcmp_eq, text_eq, text_eq t]
    exact compares_turn _ _ _ _ fun _ _ => ih t.tail

theorem take_text (s : List UInt8) (n : Nat) :
    (text s).take (n + 1)
      = if charAt s 0 = 0 then [] else charAt s 0 :: (text s.tail).take n := by
  rw [text_eq]
  by_cases hs : charAt s 0 = 0
  · rw [if_pos hs, if_pos hs, List.take_nil]
  · rw [if_neg hs, if_neg hs, List.take_succ_cons]

/-- **`strncmp`** compares their first `n` characters. -/
theorem strncmp_compares (s t : List UInt8) (n : Nat) :
    Compares (strncmp s t n) ((text s).take n) ((text t).take n) := by
  induction n generalizing s t with
  | zero =>
    rw [List.take_zero, List.take_zero]
    unfold strncmp
    exact .nil
  | succ n ih =>
    rw [strncmp_eq, take_text, take_text]
    exact compares_turn _ _ _ _ fun _ _ => ih s.tail t.tail

/-- **`strcmp` returns 0 on equal texts only.** -/
theorem strcmp_eq_zero_iff (s t : List UInt8) : strcmp s t = 0 ↔ text s = text t :=
  (strcmp_compares s t).zero

/-- **`strncmp` returns 0 on texts that agree for `n` characters only.** -/
theorem strncmp_eq_zero_iff (s t : List UInt8) (n : Nat) :
    strncmp s t n = 0 ↔ (text s).take n = (text t).take n :=
  (strncmp_compares s t n).zero

end PyramidString
