import TabOS.Library.Ring
import Mathlib.Data.List.Range

/-!
# Queues of fixed capacity

A queue keeps its values in the slots of a ring from its head on. Its contents are a list; what is put in goes to the back of it and
what is taken out comes from the front. A queue into which values are put and from whose front they are taken holds the last values
of all that were put in.
-/

namespace Library

/-- A ring of slots, the slot of the oldest value and the number of values. -/
structure Queue (α : Type*) (capacity : Nat) where
  slots : Nat → α
  head : Nat
  count : Nat

namespace Queue

variable {α : Type*} {capacity : Nat}

/-- Puts a value behind the others. -/
def pushBack (q : Queue α capacity) (value : α) : Queue α capacity :=
  { q with slots := Function.update q.slots ((q.head + q.count) % capacity) value, count := q.count + 1 }

/-- The oldest value. -/
def front (q : Queue α capacity) : α := q.slots q.head

/-- Takes the oldest value out. -/
def popFront (q : Queue α capacity) : Queue α capacity := { q with head := (q.head + 1) % capacity, count := q.count - 1 }

/-- Takes every value out. -/
def clear (q : Queue α capacity) : Queue α capacity := { q with head := 0, count := 0 }

/-- The values, the oldest first. -/
def contents (q : Queue α capacity) : List α := (List.range q.count).map fun index => q.slots ((q.head + index) % capacity)

/-- The head is a slot, and no more values are held than there are slots. -/
structure Fits (q : Queue α capacity) : Prop where
  head_lt : q.head < capacity
  count_le : q.count ≤ capacity

variable {q : Queue α capacity}

@[simp] theorem length_contents (q : Queue α capacity) : q.contents.length = q.count := by
  rw [contents, List.length_map, List.length_range]

@[simp] theorem contents_clear (q : Queue α capacity) : q.clear.contents = [] := rfl

theorem contents_pushBack (hcount : q.count < capacity) (value : α) : (q.pushBack value).contents = q.contents ++ [value] := by
  have hlast : (q.pushBack value).slots ((q.head + q.count) % capacity) = value := Function.update_self _ _ _
  have hothers : ∀ index ∈ List.range q.count,
      (q.pushBack value).slots ((q.head + index) % capacity) = q.slots ((q.head + index) % capacity) := by
    intro index hindex
    have hlt : index < q.count := List.mem_range.1 hindex
    exact update_slot_of_ne _ _ (by omega) (by omega) (by omega)
  rw [contents, show (q.pushBack value).count = q.count + 1 from rfl, List.range_succ, List.map_append, List.map_singleton]
  exact congrArg₂ _ (List.map_congr_left hothers) (congrArg (fun last => [last]) hlast)

theorem contents_eq_cons (h : q.Fits) (hcount : 0 < q.count) : q.contents = q.front :: q.popFront.contents := by
  obtain ⟨count, hsucc⟩ := Nat.exists_eq_succ_of_ne_zero (Nat.ne_of_gt hcount)
  have hfront : q.slots ((q.head + 0) % capacity) = q.front := by rw [Nat.add_zero, Nat.mod_eq_of_lt h.head_lt, front]
  have hrest : ∀ index, q.slots ((q.head + (index + 1)) % capacity) = q.popFront.slots ((q.popFront.head + index) % capacity) := by
    intro index
    rw [popFront, Nat.mod_add_mod, Nat.add_assoc, Nat.add_comm 1 index]
  have hcount' : q.popFront.count = count := by rw [popFront, hsucc, Nat.succ_sub_one]
  rw [contents, hsucc, List.range_succ_eq_map, List.map_cons, List.map_map, hfront, contents, hcount']
  exact congrArg _ (List.map_congr_left fun index _ => hrest index)

theorem contents_popFront (h : q.Fits) : q.popFront.contents = q.contents.tail := by
  by_cases hcount : 0 < q.count
  · rw [contents_eq_cons h hcount, List.tail_cons]
  · have hzero : q.count = 0 := Nat.eq_zero_of_not_pos hcount
    rw [contents, contents, popFront, hzero]
    rfl

theorem Fits.pushBack (h : q.Fits) (hcount : q.count < capacity) (value : α) : (q.pushBack value).Fits :=
  ⟨h.head_lt, hcount⟩

theorem Fits.popFront (h : q.Fits) : q.popFront.Fits :=
  ⟨Nat.mod_lt _ (Nat.lt_of_le_of_lt (Nat.zero_le _) h.head_lt), le_trans (Nat.sub_le _ _) h.count_le⟩

theorem Fits.clear (h : q.Fits) : q.clear.Fits := ⟨Nat.lt_of_le_of_lt (Nat.zero_le _) h.head_lt, Nat.zero_le _⟩

/-! ## The last values of a history -/

/-- The queue holds the last values of a history, so all that are missing are older. -/
structure HoldsLast (q : Queue α capacity) (history : List α) : Prop extends q.Fits where
  suffix : q.contents <:+ history

variable {history : List α}

theorem HoldsLast.count_le_length (h : q.HoldsLast history) : q.count ≤ history.length := by
  rw [← length_contents q]
  exact h.suffix.length_le

theorem HoldsLast.pushBack (h : q.HoldsLast history) (hcount : q.count < capacity) (value : α) :
    (q.pushBack value).HoldsLast (history ++ [value]) := by
  refine ⟨h.toFits.pushBack hcount value, ?_⟩
  obtain ⟨before, hbefore⟩ := h.suffix
  exact ⟨before, by rw [contents_pushBack hcount, ← List.append_assoc, hbefore]⟩

theorem HoldsLast.popFront (h : q.HoldsLast history) : q.popFront.HoldsLast history :=
  ⟨h.toFits.popFront, by rw [contents_popFront h.toFits]; exact (List.tail_suffix _).trans h.suffix⟩

theorem HoldsLast.clear (h : q.HoldsLast history) : q.clear.HoldsLast history :=
  ⟨h.toFits.clear, List.nil_suffix⟩

/-- The oldest value of the queue is the one after those that are missing. -/
theorem HoldsLast.getElem?_front (h : q.HoldsLast history) (hcount : 0 < q.count) :
    history[history.length - q.count]? = some q.front := by
  obtain ⟨before, hbefore⟩ := h.suffix
  have hlength : history.length - q.count = before.length := by
    rw [← hbefore, List.length_append, length_contents, Nat.add_sub_cancel]
  rw [hlength, ← hbefore, contents_eq_cons h.toFits hcount, List.getElem?_append_right (le_refl _), Nat.sub_self]
  rfl

end Queue
end Library
