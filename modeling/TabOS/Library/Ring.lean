import Mathlib.Logic.Function.Basic
import Mathlib.Data.Nat.ModEq

/-!
# Lines of a ring

A store indexed by slots holds one value for each number of a window no longer than its capacity, when a number's slot is the
number modulo the capacity: two numbers of such a window never share a slot.
-/

namespace Library

variable {β : Type*} {capacity a b : Nat}

/-- Two numbers of a window shorter than the capacity have different slots. -/
theorem slot_ne_of_lt (hab : a < b) (hw : b - a < capacity) : a % capacity ≠ b % capacity := by
  intro h
  have hdvd : capacity ∣ b - a := (Nat.modEq_iff_dvd' (Nat.le_of_lt hab)).1 h
  exact absurd (Nat.le_of_dvd (by omega) hdvd) (by omega)

/-- Two numbers of a window shorter than the capacity share a slot exactly when they are the same. -/
theorem slot_eq_iff (hab : a - b < capacity) (hba : b - a < capacity) : a % capacity = b % capacity ↔ a = b := by
  refine ⟨fun h => ?_, fun h => by rw [h]⟩
  rcases Nat.lt_trichotomy a b with hlt | heq | hgt
  · exact absurd h (slot_ne_of_lt hlt hba)
  · exact heq
  · exact absurd h.symm (slot_ne_of_lt hgt hab)

/-- Writing a number's slot leaves the slots of the other numbers of the window. -/
theorem update_slot_of_ne (store : Nat → β) (v : β) (hne : a ≠ b) (hab : a - b < capacity) (hba : b - a < capacity) :
    Function.update store (b % capacity) v (a % capacity) = store (a % capacity) :=
  Function.update_of_ne (fun h => hne ((slot_eq_iff hab hba).1 h)) v store

end Library
