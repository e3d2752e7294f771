import Mathlib.Algebra.Ring.Nat
import Mathlib.Data.List.Basic

/-!
# Handles and the slots they name

A table of slots gives out handles: taking a slot opens it under a new generation, and the slot and the generation make the handle.
`pack` puts the two into one number, the index in the low digits. `Names` says that a slot is open under a generation. A handle is
outstanding when it was given out and has not been returned since.
-/

namespace Library

/-! ## Outstanding handles -/

/-- What happens to handles. -/
inductive Use (η : Type*) where
  | given (handle : η)
  | returned (handle : η)

/-- The handle was given out and has not been returned since; the log has the latest use first. -/
def Outstanding {η : Type*} (handle : η) : List (Use η) → Prop
  | [] => False
  | .given other :: log => handle = other ∨ Outstanding handle log
  | .returned other :: log => handle ≠ other ∧ Outstanding handle log

section Uses

variable {η : Type*} (handle other : η) (log : List (Use η))

@[simp] theorem outstanding_nil : ¬Outstanding handle [] := id

@[simp] theorem outstanding_given : Outstanding handle (.given other :: log) ↔ handle = other ∨ Outstanding handle log := Iff.rfl

@[simp] theorem outstanding_returned :
    Outstanding handle (.returned other :: log) ↔ handle ≠ other ∧ Outstanding handle log := Iff.rfl

end Uses

/-! ## Packed handles -/

section Packed

variable {capacity : Nat} [NeZero capacity]

/-- The handle of an index under a generation. -/
def pack (index : Fin capacity) (generation : Nat) : Nat := generation * capacity + index

/-- The index of a handle. -/
def slotOf (capacity : Nat) [NeZero capacity] (handle : Nat) : Fin capacity := Fin.ofNat capacity handle

@[simp] theorem slotOf_pack (index : Fin capacity) (generation : Nat) : slotOf capacity (pack index generation) = index := by
  refine Fin.ext ?_
  show (generation * capacity + index) % capacity = index
  rw [Nat.mul_add_mod_of_lt index.isLt]

@[simp] theorem pack_div (index : Fin capacity) (generation : Nat) : pack index generation / capacity = generation := by
  have hpos : 0 < capacity := Nat.pos_of_neZero capacity
  rw [pack, Nat.add_comm, Nat.add_mul_div_right _ _ hpos, Nat.div_eq_of_lt index.isLt, Nat.zero_add]

theorem pack_slotOf (handle : Nat) : pack (slotOf capacity handle) (handle / capacity) = handle := Nat.div_add_mod' handle capacity

theorem pack_inj {i j : Fin capacity} {g g' : Nat} : pack i g = pack j g' ↔ i = j ∧ g = g' := by
  constructor
  · intro h
    constructor
    · rw [← slotOf_pack i g, h, slotOf_pack]
    · rw [← pack_div i g, h, pack_div]
  · rintro ⟨rfl, rfl⟩
    rfl

theorem pack_pos (index : Fin capacity) {generation : Nat} (h : 0 < generation) : 0 < pack index generation :=
  Nat.add_pos_left (Nat.mul_pos h (Nat.pos_of_neZero capacity)) _

end Packed

/-! ## Slots -/

/-- A slot of a table. -/
structure Slot (γ α : Type*) where
  content : α
  generation : γ
  isOpen : Bool
  deriving DecidableEq, Repr

variable {γ α : Type*} {slots : List (Slot γ α)} {i j : Nat} {g g' : γ}

/-- The slot is open under this generation. -/
def Names (slots : List (Slot γ α)) (i : Nat) (g : γ) : Prop := ∃ slot, slots[i]? = some slot ∧ slot.isOpen = true ∧ slot.generation = g

/-- The first slot that is not open. -/
def firstClosed (slots : List (Slot γ α)) : Option Nat := slots.findIdx? fun slot => !slot.isOpen

/-- Puts a content into a slot and opens it. -/
def acquire (slots : List (Slot γ α)) (i : Nat) (slot : Slot γ α) : List (Slot γ α) := slots.set i { slot with isOpen := true }

/-- Closes a slot. -/
def release (slots : List (Slot γ α)) (i : Nat) : List (Slot γ α) := slots.modify i fun slot => { slot with isOpen := false }

theorem firstClosed_spec (h : firstClosed slots = some i) : ∃ slot, slots[i]? = some slot ∧ slot.isOpen = false := by
  obtain ⟨hlt, hclosed, _⟩ := List.findIdx?_eq_some_iff_getElem.1 h
  exact ⟨slots[i], List.getElem?_eq_getElem hlt, by simpa using hclosed⟩

theorem Names.lt (h : Names slots i g) : i < slots.length := by
  obtain ⟨slot, hslot, _⟩ := h
  exact (List.getElem?_eq_some_iff.1 hslot).1

theorem Names.unique (h : Names slots i g) (h' : Names slots i g') : g = g' := by
  obtain ⟨slot, hslot, _, rfl⟩ := h
  obtain ⟨slot', hslot', _, rfl⟩ := h'
  rw [hslot] at hslot'
  rw [Option.some.inj hslot']

/-- A slot that is taken is open under the new generation, and the others are as they were. -/
theorem names_acquire (slot : Slot γ α) (hi : firstClosed slots = some i) :
    Names (acquire slots i slot) j g ↔ j = i ∧ g = slot.generation ∨ Names slots j g := by
  obtain ⟨old, hold, hclosed⟩ := firstClosed_spec hi
  obtain ⟨hlt, _⟩ := List.getElem?_eq_some_iff.1 hold
  unfold Names acquire
  by_cases hji : j = i
  · subst hji
    rw [List.getElem?_set_self hlt]
    constructor
    · rintro ⟨other, hother, _, rfl⟩
      obtain rfl := Option.some.inj hother
      exact Or.inl ⟨rfl, rfl⟩
    · rintro (⟨-, rfl⟩ | ⟨other, hother, hopen, _⟩)
      · exact ⟨_, rfl, rfl, rfl⟩
      · rw [hold] at hother
        obtain rfl := Option.some.inj hother
        exact absurd (hclosed.symm.trans hopen) (by decide)
  · rw [List.getElem?_set_ne (Ne.symm hji)]
    exact ⟨Or.inr, fun h => h.resolve_left fun hsame => hji hsame.1⟩

/-- A slot that is closed is not open, and the others are as they were. -/
theorem names_release (slots : List (Slot γ α)) (i j : Nat) (g : γ) : Names (release slots i) j g ↔ j ≠ i ∧ Names slots j g := by
  unfold Names release
  by_cases hji : j = i
  · subst hji
    rw [List.getElem?_modify_eq]
    refine ⟨?_, fun h => absurd rfl h.1⟩
    rintro ⟨slot, hslot, hopen, -⟩
    obtain ⟨old, _, rfl⟩ := Option.map_eq_some_iff.1 hslot
    cases hopen
  · rw [List.getElem?_modify_ne _ _ (Ne.symm hji)]
    exact (and_iff_right hji).symm

@[simp] theorem length_acquire (slots : List (Slot γ α)) (i : Nat) (slot : Slot γ α) : (acquire slots i slot).length = slots.length :=
  List.length_set

@[simp] theorem length_release (slots : List (Slot γ α)) (i : Nat) : (release slots i).length = slots.length := List.length_modify _ _ _

end Library
