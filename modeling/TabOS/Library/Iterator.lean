import Mathlib.Data.List.Basic

/-!
# Iterators

An iterator gives one element after the other until it has none. `Yields` says which elements it gives from a state on.
-/

namespace Library

variable {σ α : Type*}

/-- From the state on, the iterator gives these elements and then none. -/
inductive Yields (next : σ → Option (α × σ)) : σ → List α → Prop
  | stop {s : σ} (h : next s = none) : Yields next s []
  | more {s s' : σ} {a : α} {l : List α} (h : next s = some (a, s')) (hrest : Yields next s' l) : Yields next s (a :: l)

variable {next : σ → Option (α × σ)} {s : σ} {l l' : List α}

/-- An iterator gives the same elements each time. -/
theorem Yields.unique (h : Yields next s l) (h' : Yields next s l') : l = l' := by
  induction h generalizing l' with
  | stop hstop =>
    cases h' with
    | stop _ => rfl
    | more hmore _ => rw [hstop] at hmore; cases hmore
  | more hmore _ ih =>
    cases h' with
    | stop hstop => rw [hstop] at hmore; cases hmore
    | more hmore' hrest =>
      rw [hmore] at hmore'
      obtain ⟨rfl, rfl⟩ := Prod.mk.inj (Option.some.inj hmore')
      rw [ih hrest]

/-- An iterator that always progresses stops. -/
theorem exists_yields (measure : σ → Nat) (hprogress : ∀ s a s', next s = some (a, s') → measure s' < measure s) (s : σ) :
    ∃ l, Yields next s l ∧ l.length ≤ measure s := by
  induction hmeasure : measure s using Nat.strongRecOn generalizing s with
  | ind n ih =>
    cases hnext : next s with
    | none => exact ⟨[], .stop hnext, Nat.zero_le _⟩
    | some result =>
      obtain ⟨a, s'⟩ := result
      have hlt := hprogress s a s' hnext
      rw [hmeasure] at hlt
      obtain ⟨l, hl, hlength⟩ := ih (measure s') hlt s' rfl
      exact ⟨a :: l, .more hnext hl, Nat.succ_le_of_lt (Nat.lt_of_le_of_lt hlength hlt)⟩

end Library
