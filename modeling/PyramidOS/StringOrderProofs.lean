import PyramidOS.StringProofs

/-! # String comparison

    `strcmp` and `strncmp` stop at the first characters that differ, at the NUL of
    both strings, or after `n` characters.  Each way their sign is the lexicographic
    order of what they looked at, and they look at nothing behind it.

    * `strcmp_compares`, `strncmp_compares` — the sign;
    * `strcmpRead`, `strncmpRead` — the same loops on memory that ends;
    * `string_order` — both, for all strings. -/

namespace PyramidString

open ThreeWay

variable {a b : UInt8} {r : Int}

/-! ## The loops on memory that ends -/

/-- `strcmp` where each string is all that may be read; `none` for a read behind it.  A
    turn of the loop and the return both read one `char` of each string, signed in the
    loop. -/
def strcmpRead : List UInt8 → List UInt8 → Option Int
  | a :: s, b :: t =>
      if a.toInt8 ≠ 0 ∧ a.toInt8 = b.toInt8 then strcmpRead s t
      else some (a.toNat - b.toNat)
  | _, _ => none

/-- `strncmp` in the same way.  With `n` used up it reads nothing. -/
def strncmpRead : List UInt8 → List UInt8 → Nat → Option Int
  | _, _, 0 => some 0
  | a :: s, b :: t, n + 1 =>
      if a.toInt8 ≠ 0 ∧ a.toInt8 = b.toInt8 then strncmpRead s t n
      else some (a.toNat - b.toNat)
  | _, _, _ + 1 => none

/-! ## One turn -/

/-- Equality is the same for signed characters. -/
theorem toInt8_inj : a.toInt8 = b.toInt8 ↔ a = b :=
  ⟨fun h => by simpa using congrArg Int8.toUInt8 h, fun h => congrArg UInt8.toInt8 h⟩

/-- What may be read of a string: its text and the NUL. -/
theorem region_eq (s : List UInt8) :
    text s ++ [0] = charAt s 0 :: if charAt s 0 = 0 then [] else text s.tail ++ [0] := by
  rw [text_eq]
  by_cases hs : charAt s 0 = 0
  · rw [if_pos hs, if_pos hs, hs, List.nil_append]
  · rw [if_neg hs, if_neg hs, List.cons_append]

/-- **THE LOOP GOES ON** behind equal characters that are not NUL, where both strings have
    more to read. -/
theorem read_turn (a b : UInt8) {o : Option Int}
    (h : a ≠ 0 → a = b → o = some r) :
    (if a.toInt8 ≠ 0 ∧ a.toInt8 = b.toInt8 then o else some ((a.toNat : Int) - b.toNat))
      = some (if a ≠ 0 ∧ a = b then r else (a.toNat : Int) - b.toNat) := by
  have hsigned : (a.toInt8 ≠ 0 ∧ a.toInt8 = b.toInt8) ↔ (a ≠ 0 ∧ a = b) :=
    and_congr (not_congr (toInt8_inj (b := 0))) toInt8_inj
  by_cases hab : a ≠ 0 ∧ a = b
  · rw [if_pos (hsigned.mpr hab), if_pos hab, h hab.1 hab.2]
  · rw [if_neg (hsigned.not.mpr hab), if_neg hab]

/-! ## Whole runs -/

theorem strcmpRead_eq (s t : List UInt8) :
    strcmpRead (text s ++ [0]) (text t ++ [0]) = some (strcmp s t) := by
  induction s generalizing t with
  | nil =>
    rw [region_eq t, strcmp_eq]
    exact read_turn 0 _ fun ha => absurd rfl ha
  | cons a s ih =>
    rw [region_eq, region_eq t, strcmp_eq]
    refine read_turn _ _ fun ha hab => ?_
    rw [if_neg ha, if_neg (hab ▸ ha)]
    exact ih t.tail

theorem strncmpRead_eq (s t : List UInt8) (n : Nat) :
    strncmpRead ((text s ++ [0]).take n) ((text t ++ [0]).take n) n = some (strncmp s t n) := by
  induction n generalizing s t with
  | zero =>
    unfold strncmpRead strncmp
    rfl
  | succ n ih =>
    rw [region_eq, region_eq t, strncmp_eq, List.take_succ_cons, List.take_succ_cons]
    refine read_turn _ _ fun ha hab => ?_
    rw [if_neg ha, if_neg (hab ▸ ha)]
    exact ih s.tail t.tail

/-- **STRING COMPARISON IS ONE TOTAL ORDER.**  For all strings the sign of `strcmp` is the
    lexicographic order of the texts by unsigned bytes, hence antisymmetric and transitive;
    that of `strncmp` is the order of their first `n` characters; and both return from
    memory that ends with the NUL or, for `strncmp`, with the `n`-th character. -/
theorem string_order (a b c : List UInt8) (n : Nat) :
    Compares (strcmp a b) (text a) (text b)
      ∧ Compares (strncmp a b n) ((text a).take n) ((text b).take n)
      ∧ ((strcmp b a < 0 ↔ 0 < strcmp a b) ∧ (0 < strcmp b a ↔ strcmp a b < 0))
      ∧ (strcmp a b ≤ 0 → strcmp b c ≤ 0 → strcmp a c ≤ 0)
      ∧ strcmpRead (text a ++ [0]) (text b ++ [0]) = some (strcmp a b)
      ∧ strncmpRead ((text a ++ [0]).take n) ((text b ++ [0]).take n) n
          = some (strncmp a b n) := by
  refine ⟨strcmp_compares a b, strncmp_compares a b n, ?_, ?_, strcmpRead_eq a b,
    strncmpRead_eq a b n⟩
  · exact (strcmp_compares a b).swap (strcmp_compares b a)
  · exact (strcmp_compares a b).trans (strcmp_compares b c) (strcmp_compares a c)

end PyramidString
