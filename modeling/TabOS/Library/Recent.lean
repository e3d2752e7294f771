import Mathlib.Data.List.DropRight
import Mathlib.Data.List.Destutter

/-!
# The newest of the values remembered

A list remembers a value unless it is the one remembered last. A list of bounded length that drops the oldest value for a new one holds
the newest of what an unbounded one remembers, and that is the values without the repetitions of one right after the other.
-/

namespace Library

variable {α : Type*} {capacity : Nat}

theorem length_rtake_le (values : List α) (capacity : Nat) : (values.rtake capacity).length ≤ capacity := by
  rw [List.rtake, List.length_drop]
  omega

/-- The last of the newest values is the last of all. -/
theorem getLast?_rtake (hcapacity : 0 < capacity) (values : List α) : (values.rtake capacity).getLast? = values.getLast? := by
  rw [List.rtake, List.getLast?_drop]
  split
  · rename_i hle
    have hnil : values = [] := List.eq_nil_of_length_eq_zero (by omega)
    rw [hnil]
    rfl
  · rfl

variable [DecidableEq α]

/-- Adds a value behind the others, unless it is the last of them. -/
def remember (values : List α) (value : α) : List α :=
  if values.getLast? = some value then values else values ++ [value]

/-- Adds a value behind the others, unless it is the last of them; a full list drops its first one. -/
def rememberIn (capacity : Nat) (values : List α) (value : α) : List α :=
  if values.getLast? = some value then values
  else (if values.length = capacity then values.tail else values) ++ [value]

variable {values : List α}

/-- What is remembered after a value is what is different from the one before. -/
theorem foldl_remember (before : List α) (value : α) (values : List α) :
    values.foldl remember (before ++ [value]) = before ++ values.destutter' (· ≠ ·) value := by
  induction values generalizing before value with
  | nil => rfl
  | cons next values ih =>
    rw [List.foldl_cons, remember, List.getLast?_concat]
    by_cases heq : value = next
    · rw [if_pos (congrArg some heq), List.destutter'_cons_neg _ (fun hne => hne heq)]
      exact ih before value
    · rw [if_neg (fun hsome => heq (Option.some.inj hsome)), List.destutter'_cons_pos _ heq, ih]
      simp

theorem foldl_remember_nil (values : List α) : values.foldl remember [] = values.destutter (· ≠ ·) := by
  cases values with
  | nil => rfl
  | cons value values => exact foldl_remember [] value values

/-- A bounded list goes on holding the newest values. -/
theorem rememberIn_rtake (hcapacity : 0 < capacity) (values : List α) (value : α) :
    rememberIn capacity (values.rtake capacity) value = (remember values value).rtake capacity := by
  obtain ⟨room, rfl⟩ : ∃ room, capacity = room + 1 := ⟨capacity - 1, by omega⟩
  rw [rememberIn, remember, getLast?_rtake hcapacity]
  split
  · rfl
  · rw [List.rtake_concat_succ]
    refine congrArg (· ++ [value]) ?_
    split
    · rename_i hfull
      rw [List.rtake, List.length_drop] at hfull
      rw [List.rtake, List.rtake, List.tail_drop]
      exact congrArg (values.drop ·) (by omega)
    · rename_i hroom
      have hle := length_rtake_le values (room + 1)
      rw [List.rtake, List.length_drop] at hroom hle
      rw [List.rtake, List.rtake]
      exact congrArg (values.drop ·) (by omega)

/-- A bounded list holds the newest of the values without repetitions. -/
theorem foldl_rememberIn (hcapacity : 0 < capacity) (values : List α) :
    values.foldl (rememberIn capacity) [] = (values.destutter (· ≠ ·)).rtake capacity := by
  rw [← foldl_remember_nil]
  have hrun : ∀ held : List α,
      values.foldl (rememberIn capacity) (held.rtake capacity) = (values.foldl remember held).rtake capacity := by
    induction values with
    | nil => exact fun _ => rfl
    | cons value values ih =>
      intro held
      rw [List.foldl_cons, List.foldl_cons, rememberIn_rtake hcapacity, ih]
  rw [← hrun [], List.rtake_nil]

/-- Values without repetitions that fit are all remembered. -/
theorem foldl_rememberIn_self (hcapacity : 0 < capacity) (hchain : values.IsChain (· ≠ ·)) (hlength : values.length ≤ capacity) :
    values.foldl (rememberIn capacity) [] = values := by
  rw [foldl_rememberIn hcapacity, List.destutter_of_isChain _ _ hchain, List.rtake, Nat.sub_eq_zero_of_le hlength]
  rfl

/-- The newest values have no repetitions. -/
theorem isChain_foldl_rememberIn (hcapacity : 0 < capacity) (values : List α) :
    (values.foldl (rememberIn capacity) []).IsChain (· ≠ ·) := by
  rw [foldl_rememberIn hcapacity]
  exact (List.isChain_destutter _ _).drop _

end Library
