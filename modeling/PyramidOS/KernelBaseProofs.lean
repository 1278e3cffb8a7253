import Mathlib.Algebra.Group.Int.Defs
import Mathlib.Algebra.Group.Nat.Defs

/-! # Machine integers and abnormal ends of kernel calls

    What every kernel module below shares: how a call can fail to return, and
    the C conversions between the integer types of an i386 build.

    A C value of type `uint32_t`, `size_t` or a pointer is a natural number; a
    result that the C code computes modulo a power of two carries an explicit
    `u32` or `u64`.  Where the arithmetic cannot leave its range, the lemmas
    `u32_of_lt` and `u64_of_lt` drop the wrap again. -/

namespace PyramidKernel

/-- The ways a kernel call ends without returning.  `panic` prints its message
    and hangs with interrupts off, `pmm_panic_u32` first prints a message and a
    value of its own, and a loop may also run forever. -/
inductive Halt where
  | panic (message : String)
  | pmmPanic (message : String) (value : Nat)
  | diverges
deriving DecidableEq, Repr

/-- Conversion to `uint32_t`. -/
def u32 (x : Nat) : Nat := x % 2 ^ 32

/-- Conversion to `uint64_t`. -/
def u64 (x : Nat) : Nat := x % 2 ^ 64

/-- Conversion of an unsigned value to `int32_t`. -/
def i32 (x : Nat) : Int :=
  if u32 x < 2 ^ 31 then (u32 x : Int) else (u32 x : Int) - 2 ^ 32

/-- Conversion of an `int32_t` to `uint32_t`. -/
def castU32 (x : Int) : Nat := (x % 2 ^ 32).toNat

theorem u32_of_lt {x : Nat} (h : x < 2 ^ 32) : u32 x = x := Nat.mod_eq_of_lt h

theorem u32_lt (x : Nat) : u32 x < 2 ^ 32 := Nat.mod_lt _ (by decide)

theorem u64_of_lt {x : Nat} (h : x < 2 ^ 64) : u64 x = x := Nat.mod_eq_of_lt h

theorem i32_of_lt {x : Nat} (h : x < 2 ^ 31) : i32 x = (x : Int) := by
  have hx : u32 x = x := u32_of_lt (by omega)
  rw [i32, hx, if_pos h]

theorem i32_neg {x : Nat} (h1 : 2 ^ 31 ≤ x) (h2 : x < 2 ^ 32) : i32 x < 0 := by
  have hx : u32 x = x := u32_of_lt h2
  rw [i32, hx, if_neg (by omega)]
  omega

/-- Converting a `uint32_t` to `int32_t` and back loses nothing. -/
theorem castU32_i32 {x : Nat} (h : x < 2 ^ 32) : castU32 (i32 x) = x := by
  have hx : u32 x = x := u32_of_lt h
  rw [castU32, i32, hx]
  by_cases hlt : x < 2 ^ 31
  · rw [if_pos hlt]; omega
  · rw [if_neg hlt]; omega

/-- A monadic step that returned had a first part that returned. -/
theorem bind_ok {α β : Type} {x : Except Halt α} {k : α → Except Halt β} {b : β}
    (h : (x >>= k) = .ok b) : ∃ a, x = .ok a ∧ k a = .ok b := by
  cases x with
  | error e => exact nomatch h
  | ok a => exact ⟨a, rfl, h⟩

end PyramidKernel
