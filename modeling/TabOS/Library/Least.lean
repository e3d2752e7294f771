import Mathlib.Data.List.Basic
import Mathlib.Data.List.Induction

/-!
# The least element of a list

A scan of a list that keeps the first eligible element whose key is below the best one so far, starting from a bound.
-/

namespace Library

variable {ι : Type*} (eligible : ι → Bool) (key : ι → Nat)

/-- A round of the scan. -/
def keepLeast (best : Option ι × Nat) (index : ι) : Option ι × Nat :=
  if eligible index = true ∧ key index < best.2 then (some index, key index) else best

/-- The scan of a list. -/
def leastBelow (bound : Nat) (l : List ι) : Option ι := (l.foldl (keepLeast eligible key) (none, bound)).1

variable {eligible key}

/-- What the scan has found. -/
theorem foldl_keepLeast (bound : Nat) (l : List ι) :
    (l.foldl (keepLeast eligible key) (none, bound) = (none, bound) ∧ ∀ j ∈ l, eligible j = true → bound ≤ key j) ∨
      ∃ i, l.foldl (keepLeast eligible key) (none, bound) = (some i, key i) ∧ i ∈ l ∧ eligible i = true ∧ key i < bound ∧
        ∀ j ∈ l, eligible j = true → key i ≤ key j := by
  induction l using List.reverseRecOn with
  | nil => exact Or.inl ⟨rfl, fun j hmem => absurd hmem List.not_mem_nil⟩
  | append_singleton l last ih =>
    rw [List.foldl_append, List.foldl_cons, List.foldl_nil]
    rcases ih with ⟨hbest, hall⟩ | ⟨i, hbest, hmem, heligible, hlt, hall⟩
    · rw [hbest, keepLeast]
      by_cases hlast : eligible last = true ∧ key last < bound
      · rw [if_pos hlast]
        refine Or.inr ⟨last, rfl, List.mem_concat_self, hlast.1, hlast.2, fun j hmem hj => ?_⟩
        rcases List.mem_append.1 hmem with hmem | hmem
        · exact Nat.le_trans (Nat.le_of_lt hlast.2) (hall j hmem hj)
        · exact (List.mem_singleton.1 hmem) ▸ Nat.le_refl _
      · rw [if_neg hlast]
        refine Or.inl ⟨rfl, fun j hmem hj => ?_⟩
        rcases List.mem_append.1 hmem with hmem | hmem
        · exact hall j hmem hj
        · obtain rfl := List.mem_singleton.1 hmem
          exact Nat.le_of_not_lt fun hlt => hlast ⟨hj, hlt⟩
    · rw [hbest, keepLeast]
      by_cases hlast : eligible last = true ∧ key last < key i
      · rw [if_pos hlast]
        refine Or.inr ⟨last, rfl, List.mem_concat_self, hlast.1, Nat.lt_trans hlast.2 hlt, fun j hmem hj => ?_⟩
        rcases List.mem_append.1 hmem with hmem | hmem
        · exact Nat.le_trans (Nat.le_of_lt hlast.2) (hall j hmem hj)
        · exact (List.mem_singleton.1 hmem) ▸ Nat.le_refl _
      · rw [if_neg hlast]
        refine Or.inr ⟨i, rfl, List.mem_append_left _ hmem, heligible, hlt, fun j hmem hj => ?_⟩
        rcases List.mem_append.1 hmem with hmem | hmem
        · exact hall j hmem hj
        · obtain rfl := List.mem_singleton.1 hmem
          exact Nat.le_of_not_lt fun hlt => hlast ⟨hj, hlt⟩

/-- What the scan finds is eligible, below the bound and least. -/
theorem leastBelow_eq_some {bound : Nat} {l : List ι} {i : ι} (h : leastBelow eligible key bound l = some i) :
    i ∈ l ∧ eligible i = true ∧ key i < bound ∧ ∀ j ∈ l, eligible j = true → key i ≤ key j := by
  rcases foldl_keepLeast (ι := ι) bound l with ⟨hbest, -⟩ | ⟨i', hbest, hfound⟩
  · rw [leastBelow, hbest] at h
    cases h
  · rw [leastBelow, hbest] at h
    exact Option.some.inj h ▸ hfound

/-- Where the scan finds nothing, no eligible element is below the bound. -/
theorem le_of_leastBelow_eq_none {bound : Nat} {l : List ι} (h : leastBelow eligible key bound l = none) {j : ι} (hmem : j ∈ l)
    (hj : eligible j = true) : bound ≤ key j := by
  rcases foldl_keepLeast (ι := ι) bound l with ⟨-, hall⟩ | ⟨i, hbest, -⟩
  · exact hall j hmem hj
  · rw [leastBelow, hbest] at h
    cases h

end Library
