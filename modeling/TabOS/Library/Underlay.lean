import Mathlib.Data.List.Nodup
import Mathlib.Logic.Function.Basic

/-!
# What is drawn over, and put back

A pass over some items saves what the memory has at the address of each, and may draw there. When the items have addresses and slots of
their own, each slot holds what was there before the pass, so writing the slots back undoes it, whatever they held before.
-/

namespace Library

variable {ι α σ β : Type*} [DecidableEq α] {address : ι → α} {slot : ι → σ} {ink : ι → Option β}

/-- No two items share an address or a slot. -/
def Apart (address : ι → α) (slot : ι → σ) (l : List ι) : Prop := l.Pairwise fun i j => address i ≠ address j ∧ slot i ≠ slot j

/-- What an item draws. -/
def drawItem (address : ι → α) (ink : ι → Option β) (memory : α → β) (i : ι) : α → β :=
  match ink i with
  | some color => Function.update memory (address i) color
  | none => memory

/-- Writing the slot of an item back. -/
def restoreItem (address : ι → α) (slot : ι → σ) (saved : σ → β) (memory : α → β) (i : ι) : α → β :=
  Function.update memory (address i) (saved (slot i))

theorem drawItem_self (memory : α → β) (i : ι) : drawItem address ink memory i (address i) = (ink i).getD (memory (address i)) := by
  unfold drawItem
  rcases ink i with _ | color
  · rfl
  · exact Function.update_self _ _ _

theorem drawItem_of_ne {memory : α → β} {i : ι} {a : α} (h : a ≠ address i) : drawItem address ink memory i a = memory a := by
  unfold drawItem
  rcases ink i with _ | color
  · rfl
  · exact Function.update_of_ne h _ _

theorem restoreItems_other {l : List ι} {a : α} (h : ∀ i ∈ l, a ≠ address i) (saved : σ → β) (memory : α → β) :
    l.foldl (restoreItem address slot saved) memory a = memory a := by
  induction l generalizing memory with
  | nil => rfl
  | cons i l ih =>
    obtain ⟨hi, hl⟩ := List.forall_mem_cons.mp h
    rw [List.foldl_cons, ih hl]
    exact Function.update_of_ne hi _ _

theorem restoreItems_apply {l : List ι} (h : Apart address slot l) (saved : σ → β) (memory : α → β) {i : ι} (hi : i ∈ l) :
    l.foldl (restoreItem address slot saved) memory (address i) = saved (slot i) := by
  induction l generalizing memory with
  | nil => exact absurd hi List.not_mem_nil
  | cons j l ih =>
    obtain ⟨hj, hl⟩ := List.pairwise_cons.mp h
    rw [List.foldl_cons]
    rcases List.mem_cons.mp hi with rfl | hi
    · rw [restoreItems_other fun k hk => (hj k hk).1]
      exact Function.update_self _ _ _
    · exact ih hl _ hi

section Save

variable [DecidableEq σ]

/-- Saving what is at the address of an item, and drawing there. -/
def saveItem (address : ι → α) (slot : ι → σ) (ink : ι → Option β) (state : (σ → β) × (α → β)) (i : ι) : (σ → β) × (α → β) :=
  (Function.update state.1 (slot i) (state.2 (address i)), drawItem address ink state.2 i)

/-- The pass leaves the addresses of other items. -/
theorem saveItems_other {l : List ι} {a : α} (h : ∀ i ∈ l, a ≠ address i) (state : (σ → β) × (α → β)) :
    (l.foldl (saveItem address slot ink) state).2 a = state.2 a := by
  induction l generalizing state with
  | nil => rfl
  | cons i l ih =>
    obtain ⟨hi, hl⟩ := List.forall_mem_cons.mp h
    rw [List.foldl_cons, ih hl]
    exact drawItem_of_ne hi

/-- The pass leaves the slots of other items. -/
theorem saveItems_slot_other {l : List ι} {k : σ} (h : ∀ i ∈ l, k ≠ slot i) (state : (σ → β) × (α → β)) :
    (l.foldl (saveItem address slot ink) state).1 k = state.1 k := by
  induction l generalizing state with
  | nil => rfl
  | cons i l ih =>
    obtain ⟨hi, hl⟩ := List.forall_mem_cons.mp h
    rw [List.foldl_cons, ih hl]
    exact Function.update_of_ne hi _ _

/-- The pass draws each item, and its slot holds what was there before. -/
theorem saveItems_apply {l : List ι} (h : Apart address slot l) (state : (σ → β) × (α → β)) {i : ι} (hi : i ∈ l) :
    (l.foldl (saveItem address slot ink) state).1 (slot i) = state.2 (address i) ∧
      (l.foldl (saveItem address slot ink) state).2 (address i) = (ink i).getD (state.2 (address i)) := by
  induction l generalizing state with
  | nil => exact absurd hi List.not_mem_nil
  | cons j l ih =>
    obtain ⟨hj, hl⟩ := List.pairwise_cons.mp h
    rw [List.foldl_cons]
    rcases List.mem_cons.mp hi with rfl | hi
    · rw [saveItems_slot_other fun k hk => (hj k hk).2, saveItems_other fun k hk => (hj k hk).1]
      exact ⟨Function.update_self _ _ _, drawItem_self _ _⟩
    · obtain ⟨hslot, hink⟩ := ih hl (saveItem address slot ink state j) hi
      have hkeep : (saveItem address slot ink state j).2 (address i) = state.2 (address i) := drawItem_of_ne (hj i hi).1.symm
      rw [hkeep] at hslot hink
      exact ⟨hslot, hink⟩

/-- Writing back what a pass has saved undoes it. -/
theorem restoreItems_saveItems {l : List ι} (h : Apart address slot l) (state : (σ → β) × (α → β)) :
    l.foldl (restoreItem address slot (l.foldl (saveItem address slot ink) state).1) (l.foldl (saveItem address slot ink) state).2 =
      state.2 := by
  funext a
  by_cases ha : ∃ i ∈ l, a = address i
  · obtain ⟨i, hi, rfl⟩ := ha
    rw [restoreItems_apply h _ _ hi]
    exact (saveItems_apply h state hi).1
  · have hother : ∀ i ∈ l, a ≠ address i := fun i hi heq => ha ⟨i, hi, heq⟩
    rw [restoreItems_other hother, saveItems_other hother]

end Save

end Library
