import Mathlib.Data.Int.Basic
import Mathlib.Tactic.Linarith

/-!
# Arithmetic of 32 bits that may overflow

An operation on integers of 32 bits has its exact result when that fits, and none otherwise.
-/

namespace Library

/-- The result of an operation on signed integers. -/
def int32 (value : Int) : Option Int := if -2147483648 ≤ value ∧ value ≤ 2147483647 then some value else none

/-- The result of an operation on unsigned integers. -/
def uint32 (value : Int) : Option Nat := if 0 ≤ value ∧ value ≤ 4294967295 then some value.toNat else none

theorem int32_eq {value : Int} (hlow : -2147483648 ≤ value) (hhigh : value ≤ 2147483647) : int32 value = some value :=
  if_pos ⟨hlow, hhigh⟩

theorem uint32_eq {value : Int} {n : Nat} (h : value = n) (hfits : n ≤ 4294967295) : uint32 value = some n := by
  subst h
  exact if_pos ⟨Int.natCast_nonneg n, by omega⟩

/-- A quotient towards zero lies between the bounds that its dividend does not reach. -/
theorem tdiv_bounds {value divisor low high : Int} (hdivisor : 0 < divisor) (hlow : (low - 1) * divisor < value)
    (hhigh : value < (high + 1) * divisor) (hzero : low ≤ 0 ∧ 0 ≤ high) :
    low ≤ value.tdiv divisor ∧ value.tdiv divisor ≤ high := by
  rcases Int.le_total 0 value with hvalue | hvalue
  · rw [Int.tdiv_eq_ediv_of_nonneg hvalue]
    exact ⟨hzero.1.trans (Int.ediv_nonneg hvalue hdivisor.le), Int.lt_add_one_iff.mp (Int.ediv_lt_of_lt_mul hdivisor hhigh)⟩
  · have hneg : value.tdiv divisor = -(-value / divisor) := by
      rw [← Int.tdiv_eq_ediv_of_nonneg (Int.neg_nonneg.mpr hvalue), Int.neg_tdiv, Int.neg_neg]
    have hquotient : -value / divisor < -low + 1 := Int.ediv_lt_of_lt_mul hdivisor (by linarith)
    have hnonneg : 0 ≤ -value / divisor := Int.ediv_nonneg (Int.neg_nonneg.mpr hvalue) hdivisor.le
    omega

end Library
