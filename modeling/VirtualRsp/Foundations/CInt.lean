import Mathlib.Algebra.Group.Nat.Defs
import Mathlib.Algebra.Ring.Int.Defs

/-!
# The integers of C

An `int` has 32 bits. A conversion to it wraps (`asInt`), an operation whose result it cannot hold
is a fault (`checked`).
-/

namespace VirtualRsp

/-- An `uint32_t` as an `int`. -/
def asInt (n : ℕ) : ℤ := if n < 2 ^ 31 then n else n - 2 ^ 32

/-- An `int` as an `uint32_t`. -/
def asUInt32 (n : ℤ) : ℕ := (n % 2 ^ 32).toNat

/-- The result of an operation on `int`s. -/
def checked (n : ℤ) : Option ℤ := if -2 ^ 31 ≤ n ∧ n < 2 ^ 31 then some n else none

theorem asInt_of_lt {n : ℕ} (h : n < 2 ^ 31) : asInt n = n := if_pos h

theorem asInt_neg {n : ℕ} (h : ¬ n < 2 ^ 31) (hlt : n < 2 ^ 32) : asInt n < 0 := by
  rw [asInt, if_neg h]
  omega

theorem asInt_bounds {n : ℕ} (h : n < 2 ^ 32) : -2 ^ 31 ≤ asInt n ∧ asInt n < 2 ^ 31 := by
  rw [asInt]
  split <;> omega

theorem asUInt32_of_lt {n : ℕ} (h : n < 2 ^ 32) : asUInt32 n = n := by
  rw [asUInt32]
  omega

theorem checked_eq_some {n m : ℤ} : checked n = some m ↔ (-2 ^ 31 ≤ n ∧ n < 2 ^ 31) ∧ n = m := by
  rw [checked]
  split
  · rename_i h
    rw [Option.some.injEq, and_iff_right h]
  · rename_i h
    exact iff_of_false (Option.some_ne_none m ∘ Eq.symm) fun hn => h hn.1

theorem checked_of {n : ℤ} (hlow : -2 ^ 31 ≤ n) (hhigh : n < 2 ^ 31) : checked n = some n :=
  if_pos ⟨hlow, hhigh⟩

theorem checked_eq_none {n : ℤ} (h : 2 ^ 31 ≤ n) : checked n = none := if_neg (by omega)

end VirtualRsp
