import Mathlib.Data.List.Nodup
import Mathlib.Logic.Relation

/-!
# Topological orders

A list of distinct elements is a topological order of a relation `needs` when every element comes after all that it needs. Taking
the elements one by one from the end, every element is taken after all that need it; giving them back one by one in the order of the
list, every element is given back after all that it needs.
-/

namespace Library

variable {α : Type*} {needs : α → α → Prop} {order : List α}

/-- Distinct elements, each after all that it needs. -/
structure TopologicalOrder (needs : α → α → Prop) (order : List α) : Prop where
  nodup : order.Nodup
  before : ∀ k a, order[k]? = some a → ∀ b, needs a b → b ∈ order.take k

namespace TopologicalOrder

theorem nil : TopologicalOrder needs [] where
  nodup := List.nodup_nil
  before := by
    intro k a h
    nomatch h

/-- An element may follow when all that it needs is there. -/
theorem snoc (h : TopologicalOrder needs order) {a : α} (hmem : a ∉ order) (hneeds : ∀ b, needs a b → b ∈ order) :
    TopologicalOrder needs (order ++ [a]) where
  nodup := List.nodup_append.2 ⟨h.nodup, List.nodup_singleton a, by
    intro x hx y hy heq
    rw [List.mem_singleton] at hy
    exact hmem (hy ▸ heq ▸ hx)⟩
  before := by
    intro k c hk b hb
    rcases Nat.lt_trichotomy k order.length with hlt | heq | hgt
    · rw [List.getElem?_append_left hlt] at hk
      rw [List.take_append_of_le_length (Nat.le_of_lt hlt)]
      exact h.before k c hk b hb
    · subst heq
      rw [List.getElem?_concat_length] at hk
      obtain rfl := Option.some.inj hk
      rw [List.take_left]
      exact hneeds b hb
    · rw [List.getElem?_eq_none (by simp; omega)] at hk
      cases hk

/-- What an element needs is not among what comes with it or later. -/
theorem not_mem_drop (h : TopologicalOrder needs order) {k : Nat} {a b : α} (hk : order[k]? = some a) (hb : needs a b) :
    b ∉ order.drop k := by
  intro hdrop
  have hnodup := h.nodup
  rw [← List.take_append_drop k order, List.nodup_append] at hnodup
  exact hnodup.2.2 b (h.before k a hk b hb) b hdrop rfl

/-- What needs an element comes later. -/
theorem mem_drop (h : TopologicalOrder needs order) {k : Nat} {a c : α} (hk : order[k]? = some a) (hc : c ∈ order)
    (hneeds : needs c a) : c ∈ order.drop (k + 1) := by
  obtain ⟨j, hj, rfl⟩ := List.mem_iff_getElem.1 hc
  have htake := h.before j order[j] (List.getElem?_eq_getElem hj) a hneeds
  obtain ⟨i, hi, hget⟩ := List.mem_take_iff_getElem.1 htake
  obtain ⟨hlt, heq⟩ := List.getElem?_eq_some_iff.1 hk
  have hik : i = k := (List.Nodup.getElem_inj_iff h.nodup).1 (hget.trans heq.symm)
  exact List.mem_drop_iff_getElem.2 ⟨j - (k + 1), by omega, by congr 1; omega⟩

/-- An element comes once. -/
theorem not_mem_drop_succ (h : TopologicalOrder needs order) {k : Nat} {a : α} (hk : order[k]? = some a) :
    a ∉ order.drop (k + 1) := by
  obtain ⟨hlt, rfl⟩ := List.getElem?_eq_some_iff.1 hk
  have hnodup := h.nodup.sublist (List.drop_sublist k order)
  rw [List.drop_eq_getElem_cons hlt] at hnodup
  exact (List.nodup_cons.1 hnodup).1

/-- An element does not come before itself. -/
theorem not_mem_take (h : TopologicalOrder needs order) {k : Nat} {a : α} (hk : order[k]? = some a) : a ∉ order.take k := by
  obtain ⟨hlt, rfl⟩ := List.getElem?_eq_some_iff.1 hk
  have hnodup := h.nodup
  rw [← List.take_append_drop k order, List.nodup_append] at hnodup
  intro htake
  refine hnodup.2.2 _ htake order[k] ?_ rfl
  rw [List.drop_eq_getElem_cons hlt]
  exact List.mem_cons_self

/-- What an element needs, and what that needs in turn, comes before it. -/
theorem mem_take_of_transGen (h : TopologicalOrder needs order) {k : Nat} {a b : α} (hk : order[k]? = some a)
    (hb : Relation.TransGen needs a b) : b ∈ order.take k := by
  induction hb with
  | single hneeds => exact h.before k a hk _ hneeds
  | tail _ hneeds ih =>
    obtain ⟨j, hj, hget⟩ := List.mem_take_iff_getElem.1 ih
    have hbefore := h.before j _ (List.getElem?_eq_some_iff.2 ⟨by omega, hget⟩) _ hneeds
    exact List.take_subset_take_left order (by omega) hbefore

/-- No element of the order needs itself in the end. -/
theorem not_transGen_self (h : TopologicalOrder needs order) {a : α} (ha : a ∈ order) : ¬Relation.TransGen needs a a := by
  intro hself
  obtain ⟨k, hk, rfl⟩ := List.mem_iff_getElem.1 ha
  have hget := List.getElem?_eq_getElem hk
  exact h.not_mem_take hget (h.mem_take_of_transGen hget hself)

end TopologicalOrder

end Library
