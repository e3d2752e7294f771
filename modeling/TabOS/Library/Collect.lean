import Mathlib.Algebra.BigOperators.Group.Finset.Piecewise
import Mathlib.Algebra.Order.BigOperators.Group.Finset
import Mathlib.Data.Fintype.BigOperators

/-!
# What slots hold

The values of finitely many slots, each of which holds at most one, as a multiset.
-/

namespace Library

open scoped BigOperators

variable {ι α : Type*} [Fintype ι]

/-- The values of the slots that hold one. -/
def collect (slots : ι → Option α) : Multiset α := ∑ i, (slots i).elim 0 fun value => {value}

variable {slots : ι → Option α}

theorem collect_none : collect (fun _ : ι => (none : Option α)) = 0 := Finset.sum_const_zero

theorem exists_none_of_card_lt (h : (collect slots).card < Fintype.card ι) : ∃ i, slots i = none := by
  by_contra hnone
  refine absurd h (Nat.not_lt.2 ?_)
  rw [collect, Multiset.card_sum, Fintype.card_eq_sum_ones]
  refine Finset.sum_le_sum fun i _ => ?_
  cases hi : slots i with
  | none => exact absurd ⟨i, hi⟩ hnone
  | some value => exact Nat.le_refl 1

/-- A value that is put into an empty slot is one more. -/
theorem collect_update [DecidableEq ι] {i : ι} (h : slots i = none) (value : α) :
    collect (Function.update slots i (some value)) = value ::ₘ collect slots := by
  have hslots : ∀ j, (Function.update slots i (some value) j).elim 0 (fun value => ({value} : Multiset α)) =
      Function.update (fun j => (slots j).elim 0 fun value => ({value} : Multiset α)) i {value} j := by
    intro j
    by_cases hj : j = i
    · rw [hj, Function.update_self, Function.update_self]
      rfl
    · rw [Function.update_of_ne hj, Function.update_of_ne hj]
  have hempty : (slots i).elim 0 (fun value => ({value} : Multiset α)) = 0 := by rw [h, Option.elim_none]
  rw [collect, Finset.sum_congr rfl fun j _ => hslots j, Finset.sum_update_of_mem (Finset.mem_univ i), Multiset.singleton_add,
    collect, Finset.sum_eq_add_sum_sdiff_singleton i _ fun hi => absurd (Finset.mem_univ i) hi, hempty, zero_add]

end Library
