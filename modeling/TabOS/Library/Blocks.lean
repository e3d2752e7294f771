import TabOS.Library.Queue

/-!
# Blocks of a queue

A block of values is put into a queue or taken out of it by two copies, one up to the end of the slots and one from their beginning.
When the block fits, this is to put in, or to take out, its values one after another.
-/

namespace Library

variable {α : Type*}

/-- Copies values into the slots from an offset on. -/
def copyIn (slots : Nat → α) (offset : Nat) : List α → Nat → α
  | [] => slots
  | value :: values => copyIn (Function.update slots offset value) (offset + 1) values

/-- The values of some slots from an offset on. -/
def copyOut (slots : Nat → α) (offset length : Nat) : List α := (List.range length).map fun index => slots (offset + index)

theorem copyIn_append (slots : Nat → α) (offset : Nat) (values later : List α) :
    copyIn slots offset (values ++ later) = copyIn (copyIn slots offset values) (offset + values.length) later := by
  induction values generalizing slots offset with
  | nil => rfl
  | cons value values ih =>
    rw [List.cons_append, copyIn, ih, copyIn, List.length_cons, Nat.add_assoc, Nat.add_comm 1]

/-- One value more at the end is one slot more. -/
theorem copyIn_concat (slots : Nat → α) (offset : Nat) (values : List α) (value : α) :
    copyIn slots offset (values ++ [value]) = Function.update (copyIn slots offset values) (offset + values.length) value :=
  copyIn_append slots offset values [value]

/-- A copy leaves the other slots as they are. -/
theorem copyIn_outside (slots : Nat → α) {offset place : Nat} {values : List α} (h : place < offset ∨ offset + values.length ≤ place) :
    copyIn slots offset values place = slots place := by
  induction values generalizing slots offset with
  | nil => rfl
  | cons value values ih =>
    rw [List.length_cons] at h
    have hne : place ≠ offset := by omega
    rw [copyIn, ih _ (by omega), Function.update_of_ne hne]

theorem copyIn_inside (slots : Nat → α) (offset : Nat) {values : List α} {index : Nat} (h : index < values.length) :
    copyIn slots offset values (offset + index) = values[index] := by
  induction values generalizing slots offset index with
  | nil => exact absurd h (Nat.not_lt_zero index)
  | cons value values ih =>
    cases index with
    | zero =>
      have hlater : offset + 0 < offset + 1 := Nat.lt_succ_self offset
      rw [copyIn, copyIn_outside _ (Or.inl hlater)]
      exact Function.update_self offset value slots
    | succ index =>
      have hrest := ih (Function.update slots offset value) (offset + 1) (Nat.lt_of_succ_lt_succ h)
      rw [copyIn, show offset + (index + 1) = offset + 1 + index from by omega, hrest]
      rfl

theorem copyOut_congr {slots slots' : Nat → α} {offset length : Nat}
    (h : ∀ index < length, slots (offset + index) = slots' (offset + index)) :
    copyOut slots offset length = copyOut slots' offset length :=
  List.map_congr_left fun index hindex => h index (List.mem_range.1 hindex)

/-- What was copied in is there to be copied out. -/
theorem copyOut_copyIn (slots : Nat → α) (offset : Nat) (values : List α) :
    copyOut (copyIn slots offset values) offset values.length = values := by
  unfold copyOut
  refine List.ext_getElem ?_ fun index _ hindex => ?_
  · rw [List.length_map, List.length_range]
  · rw [List.getElem_map, List.getElem_range, copyIn_inside slots offset hindex]

namespace Queue

variable {capacity : Nat}

/-- Puts a block behind the values, in two copies. -/
def pushBlock (q : Queue α capacity) (values : List α) : Queue α capacity :=
  let tail := (q.head + q.count) % capacity
  let first := min (capacity - tail) values.length
  { q with slots := copyIn (copyIn q.slots tail (values.take first)) 0 (values.drop first), count := q.count + values.length }

/-- Takes a block from the front, in two copies. -/
def popBlock (q : Queue α capacity) (length : Nat) : List α × Queue α capacity :=
  let first := min (capacity - q.head) length
  (copyOut q.slots q.head first ++ copyOut q.slots 0 (length - first),
    { q with head := (q.head + length) % capacity, count := q.count - length })

variable {q : Queue α capacity}

/-- One value more at the end of a block. -/
theorem pushBlock_concat (h : q.Fits) (values : List α) (value : α) (hroom : q.count + values.length < capacity) :
    q.pushBlock (values ++ [value]) = (q.pushBlock values).pushBack value := by
  have hpos : 0 < capacity := Nat.lt_of_le_of_lt (Nat.zero_le _) h.head_lt
  have htail : (q.head + q.count) % capacity < capacity := Nat.mod_lt _ hpos
  have hnext : (q.head + (q.count + values.length)) % capacity = ((q.head + q.count) % capacity + values.length) % capacity := by
    rw [Nat.mod_add_mod, Nat.add_assoc]
  unfold pushBlock pushBack
  dsimp only
  rw [hnext, List.length_append, List.length_singleton]
  generalize (q.head + q.count) % capacity = tail at htail ⊢
  refine congrArg₂ (fun slots count => (⟨slots, q.head, count⟩ : Queue α capacity)) ?_ (Nat.add_assoc _ _ _).symm
  by_cases hend : tail + values.length < capacity
  · have hfirst : min (capacity - tail) (values.length + 1) = values.length + 1 := by omega
    have hfirst' : min (capacity - tail) values.length = values.length := by omega
    rw [hfirst, hfirst', Nat.mod_eq_of_lt hend, List.take_of_length_le (by simp), List.drop_of_length_le (by simp),
      List.take_length, List.drop_length, copyIn_concat]
    rfl
  · have hfirst : min (capacity - tail) (values.length + 1) = capacity - tail := by omega
    have hfirst' : min (capacity - tail) values.length = capacity - tail := by omega
    have hslot : (tail + values.length) % capacity = 0 + (values.drop (capacity - tail)).length := by
      rw [List.length_drop, Nat.mod_eq_sub_mod (by omega), Nat.mod_eq_of_lt (by omega)]
      omega
    rw [hfirst, hfirst', List.take_append_of_le_length (by omega), List.drop_append_of_le_length (by omega), copyIn_concat, hslot]

/-- To put a block in is to put in its values one after another. -/
theorem pushBlock_eq_foldl (h : q.Fits) (values : List α) (hroom : q.count + values.length ≤ capacity) :
    q.pushBlock values = values.foldl pushBack q := by
  induction values using List.reverseRecOn with
  | nil => simp [pushBlock, copyIn]
  | append_singleton values value ih =>
    rw [List.length_append, List.length_singleton] at hroom
    rw [pushBlock_concat h values value (by omega), List.foldl_append, ih (by omega)]
    rfl

/-- Values that are put in one after another come behind the others. -/
theorem contents_foldl_pushBack (h : q.Fits) (values : List α) (hroom : q.count + values.length ≤ capacity) :
    (values.foldl pushBack q).contents = q.contents ++ values ∧ (values.foldl pushBack q).Fits ∧
    (values.foldl pushBack q).count = q.count + values.length := by
  induction values generalizing q with
  | nil => exact ⟨(List.append_nil _).symm, h, rfl⟩
  | cons value values ih =>
    rw [List.length_cons] at hroom
    have hcount : (q.pushBack value).count = q.count + 1 := rfl
    obtain ⟨hcontents, hfits, hlength⟩ := ih (h.pushBack (by omega) value) (by omega)
    refine ⟨?_, hfits, ?_⟩
    · rw [List.foldl_cons, hcontents, contents_pushBack (by omega), List.append_assoc]
      rfl
    · rw [List.foldl_cons, hlength, hcount, List.length_cons]
      omega

theorem popFront_iterate (h : q.Fits) (length : Nat) (hlength : length ≤ q.count) :
    popFront^[length] q = { q with head := (q.head + length) % capacity, count := q.count - length } := by
  induction length with
  | zero => rw [Function.iterate_zero_apply, Nat.add_zero, Nat.mod_eq_of_lt h.head_lt, Nat.sub_zero]
  | succ length ih =>
    rw [Function.iterate_succ_apply', ih (by omega), popFront]
    simp only [Nat.mod_add_mod, Nat.add_assoc, Nat.sub_sub]

/-- To take a block out is to take its values out one after another. -/
theorem popBlock_eq_iterate (h : q.Fits) (length : Nat) (hlength : length ≤ q.count) :
    (q.popBlock length).2 = popFront^[length] q := (popFront_iterate h length hlength).symm

/-- A block that is taken out holds the oldest values. -/
theorem popBlock_eq_take (h : q.Fits) (length : Nat) (hlength : length ≤ q.count) :
    (q.popBlock length).1 = q.contents.take length := by
  have hcount := h.count_le
  have hhead := h.head_lt
  unfold popBlock contents copyOut
  dsimp only
  rw [← List.map_take, List.take_range, Nat.min_eq_left hlength]
  obtain ⟨first, rest, hfirst, hsum, hwrap⟩ : ∃ first rest, min (capacity - q.head) length = first ∧ length = first + rest ∧
      (rest = 0 ∨ first = capacity - q.head) :=
    ⟨min (capacity - q.head) length, length - min (capacity - q.head) length, rfl, by omega, by omega⟩
  rw [hfirst, hsum, Nat.add_sub_cancel_left, List.range_add, List.map_append, List.map_map]
  refine congrArg₂ _ ?_ ?_
  · refine List.map_congr_left fun index hindex => ?_
    have hlt := List.mem_range.1 hindex
    rw [Nat.mod_eq_of_lt (by omega)]
  · refine List.map_congr_left fun index hindex => ?_
    have hlt := List.mem_range.1 hindex
    have hslot : (q.head + (first + index)) % capacity = 0 + index := by
      rw [Nat.mod_eq_sub_mod (by omega), Nat.mod_eq_of_lt (by omega)]
      omega
    exact congrArg q.slots hslot.symm

theorem contents_popFront_iterate (h : q.Fits) (length : Nat) :
    (popFront^[length] q).contents = q.contents.drop length ∧ (popFront^[length] q).Fits ∧
    (popFront^[length] q).count = q.count - length := by
  induction length with
  | zero => exact ⟨rfl, h, rfl⟩
  | succ length ih =>
    obtain ⟨hcontents, hfits, hcount⟩ := ih
    rw [Function.iterate_succ_apply']
    refine ⟨?_, hfits.popFront, ?_⟩
    · rw [contents_popFront hfits, hcontents, List.tail_drop]
    · show (popFront^[length] q).count - 1 = q.count - (length + 1)
      omega

end Queue
end Library
