import TabOS.Library.Recent

/-!
# The history of the shell

`apps/shell/src/history.c`: the lines that were entered, the newest last. A line is added when it is a bounded text of printable
characters, is not blank and is not the newest line again.
-/

namespace TabOS
namespace Shell

open Library

/-- `SHELL_HISTORY_CAPACITY`. -/
def historyCapacity : Nat := 32

/-- `SHELL_LINE_CAPACITY`. -/
def lineCapacity : Nat := 256

/-- `shell_history_t`; the count is the number of entries. -/
structure History where
  entries : List (List UInt8)
  cursor : Nat
  draft : List UInt8
  deriving DecidableEq, Repr

/-- A history that holds nothing. -/
def History.empty : History := ⟨[], 0, []⟩

def shellHistoryResetNavigation (history : History) : History := { history with cursor := history.entries.length, draft := [] }

/-- The length of a line, which ends at its first zero, and whether a character of it is not a space. -/
def scan : List UInt8 → Nat → Bool → Option (Nat × Bool)
  | [], length, nonblank => some (length, nonblank)
  | character :: line, length, nonblank =>
    if character = 0 then some (length, nonblank)
    else if length ≥ lineCapacity - 1 ∨ character < 0x20 ∨ character > 0x7e then none
    else scan line (length + 1) (nonblank || character ≠ 0x20)

def shellHistoryAdd (history : History) (line : List UInt8) : Bool × History :=
  match scan line 0 false with
  | none => (false, history)
  | some (length, nonblank) =>
    let text := line.take length
    if nonblank = false ∨ history.entries.getLast? = some text then (false, history)
    else
      let kept := if history.entries.length = historyCapacity then history.entries.tail else history.entries
      (true, shellHistoryResetNavigation { history with entries := kept ++ [text] })

/-- The entry before the cursor; at the end the draft is kept. -/
def shellHistoryPrevious (draft : List UInt8) (history : History) : Option (List UInt8) × History :=
  if history.cursor = 0 then (none, history)
  else
    let history := if history.cursor = history.entries.length then { history with draft := draft } else history
    (history.entries[history.cursor - 1]?, { history with cursor := history.cursor - 1 })

/-- The entry after the cursor; behind the last one stands the draft. -/
def shellHistoryNext (history : History) : Option (List UInt8) × History :=
  if history.cursor = history.entries.length then (none, history)
  else
    let history := { history with cursor := history.cursor + 1 }
    (if history.cursor = history.entries.length then some history.draft else history.entries[history.cursor]?, history)

/-! ## The lines that are added -/

/-- A bounded text of printable characters. -/
def Printable (text : List UInt8) : Prop :=
  (∀ character ∈ text, 0x20 ≤ character ∧ character ≤ 0x7e) ∧ text.length < lineCapacity

instance (text : List UInt8) : Decidable (Printable text) :=
  @decidable_of_iff _ ((∀ character ∈ text, 0x20 ≤ character ∧ character ≤ 0x7e) ∧ text.length < lineCapacity) Iff.rfl
    (@instDecidableAnd _ _ (List.decidableBAll _ text) (Nat.decLt _ _))

/-- A text with a character that is not a space. -/
def Nonblank (text : List UInt8) : Prop := ∃ character ∈ text, character ≠ 0x20

instance (text : List UInt8) : Decidable (Nonblank text) := decidable_of_iff (∃ character ∈ text, character ≠ 0x20) Iff.rfl

/-- The text of a line that can be entered. -/
def entryOf (line : List UInt8) : Option (List UInt8) :=
  let text := line.takeWhile (· ≠ 0)
  if Printable text ∧ Nonblank text then some text else none

/-- The scan of a line from a length on. -/
theorem scan_eq (line : List UInt8) {length : Nat} (hlength : length < lineCapacity) (nonblank : Bool) :
    scan line length nonblank =
      if (line.takeWhile (· ≠ 0)).all (fun character => decide (0x20 ≤ character ∧ character ≤ 0x7e)) = true ∧
        length + (line.takeWhile (· ≠ 0)).length < lineCapacity
      then some (length + (line.takeWhile (· ≠ 0)).length, nonblank || (line.takeWhile (· ≠ 0)).any (· ≠ 0x20)) else none := by
  induction line generalizing length nonblank with
  | nil =>
    rw [scan, List.takeWhile_nil, if_pos ⟨List.all_nil, hlength⟩]
    simp
  | cons character line ih =>
    rw [scan]
    by_cases hzero : character = 0
    · have htext : (character :: line).takeWhile (· ≠ 0) = [] := by simp [hzero]
      rw [if_pos hzero, htext, if_pos ⟨List.all_nil, hlength⟩]
      simp
    · have htext : (character :: line).takeWhile (· ≠ 0) = character :: line.takeWhile (· ≠ 0) := by simp [hzero]
      rw [if_neg hzero, htext]
      by_cases hbad : length ≥ lineCapacity - 1 ∨ character < 0x20 ∨ character > 0x7e
      · rw [if_pos hbad, if_neg]
        rintro ⟨hprintable, hroom⟩
        obtain ⟨hlow, hhigh⟩ := of_decide_eq_true (List.all_eq_true.1 hprintable character List.mem_cons_self)
        rw [List.length_cons] at hroom
        rcases hbad with hfull | hbelow | habove
        · omega
        · exact absurd hlow (UInt8.not_le.2 hbelow)
        · exact absurd hhigh (UInt8.not_le.2 habove)
      · rw [if_neg hbad, ih (by omega)]
        have hcharacter : 0x20 ≤ character ∧ character ≤ 0x7e :=
          ⟨UInt8.not_lt.1 fun hlow => hbad (Or.inr (Or.inl hlow)), UInt8.not_lt.1 fun hhigh => hbad (Or.inr (Or.inr hhigh))⟩
        have hsum : length + 1 + (line.takeWhile (· ≠ 0)).length = length + (character :: line.takeWhile (· ≠ 0)).length := by
          rw [List.length_cons]
          omega
        rw [hsum, List.any_cons, Bool.or_assoc]
        rw [List.all_cons, decide_eq_true hcharacter, Bool.true_and]

/-- The scan of a whole line finds its text when that is printable. -/
theorem scan_zero (line : List UInt8) :
    scan line 0 false = if Printable (line.takeWhile (· ≠ 0))
      then some ((line.takeWhile (· ≠ 0)).length, decide (Nonblank (line.takeWhile (· ≠ 0)))) else none := by
  have hany : ∀ text : List UInt8, (text.any (· ≠ 0x20)) = decide (Nonblank text) := by
    intro text
    rw [Bool.eq_iff_iff, List.any_eq_true, decide_eq_true_iff]
    exact exists_congr fun character => and_congr_right fun _ => decide_eq_true_iff
  rw [scan_eq line (by decide), hany, Nat.zero_add, Bool.false_or]
  refine if_congr (and_congr ?_ Iff.rfl) rfl rfl
  rw [List.all_eq_true]
  exact forall_congr' fun character => imp_congr_right fun _ => decide_eq_true_iff

/-- A line is added when it can be entered and is not the newest entry again. -/
theorem entries_shellHistoryAdd (history : History) (line : List UInt8) :
    (shellHistoryAdd history line).2.entries =
      (entryOf line).elim history.entries (rememberIn historyCapacity history.entries) := by
  have htake : line.take (line.takeWhile (· ≠ 0)).length = line.takeWhile (· ≠ 0) :=
    (List.prefix_iff_eq_take.1 (List.takeWhile_prefix _)).symm
  unfold shellHistoryAdd entryOf
  rw [scan_zero]
  dsimp only
  generalize line.takeWhile (· ≠ 0) = text at htake ⊢
  by_cases hprintable : Printable text
  · rw [if_pos hprintable]
    dsimp only
    rw [htake]
    by_cases hblank : Nonblank text
    · have hentry : (if Printable text ∧ Nonblank text then some text else none) = some text := if_pos ⟨hprintable, hblank⟩
      rw [hentry, Option.elim_some, rememberIn]
      by_cases hlast : history.entries.getLast? = some text
      · rw [if_pos (Or.inr hlast), if_pos hlast]
      · rw [if_neg (by simp [hlast, hblank]), if_neg hlast]
        rfl
    · have hentry : (if Printable text ∧ Nonblank text then some text else none) = none := if_neg fun h => hblank h.2
      rw [hentry, if_pos (Or.inl (decide_eq_false hblank))]
      rfl
  · have hentry : (if Printable text ∧ Nonblank text then some text else none) = none := if_neg fun h => hprintable h.1
    rw [hentry, if_neg hprintable]
    rfl

/-- The history after lines were added. -/
def addAll (history : History) (lines : List (List UInt8)) : History :=
  lines.foldl (fun history line => (shellHistoryAdd history line).2) history

theorem entries_addAll (history : History) (lines : List (List UInt8)) :
    (addAll history lines).entries = (lines.filterMap entryOf).foldl (rememberIn historyCapacity) history.entries := by
  induction lines generalizing history with
  | nil => rfl
  | cons line lines ih =>
    rw [addAll, List.foldl_cons]
    refine (ih _).trans ?_
    rw [entries_shellHistoryAdd, List.filterMap_cons]
    cases entryOf line <;> rfl

/-! ## Valid histories -/

/-- No more entries than there is room for, each of which can be entered, and none right after itself. -/
structure Valid (history : History) : Prop where
  length_le : history.entries.length ≤ historyCapacity
  entry : ∀ entry ∈ history.entries, Printable entry ∧ Nonblank entry
  chain : history.entries.IsChain (· ≠ ·)

theorem entryOf_spec {line text : List UInt8} (h : entryOf line = some text) : Printable text ∧ Nonblank text := by
  unfold entryOf at h
  dsimp only at h
  split at h
  · rename_i hentry
    obtain rfl := Option.some.inj h
    exact hentry
  · exact absurd h.symm (Option.some_ne_none _)

/-- A printable text has no zero in it, so it is the text of itself. -/
theorem takeWhile_of_printable {text : List UInt8} (h : Printable text) : text.takeWhile (· ≠ 0) = text := by
  rw [List.takeWhile_eq_self_iff]
  intro character hmem
  have hlow := (h.1 character hmem).1
  exact decide_eq_true fun hzero => absurd (hzero ▸ hlow) (by decide)

theorem entryOf_of_printable {text : List UInt8} (h : Printable text) :
    entryOf text = if Nonblank text then some text else none := by
  unfold entryOf
  dsimp only
  rw [takeWhile_of_printable h]
  simp only [h, true_and]

theorem valid_addAll (lines : List (List UInt8)) : Valid (addAll .empty lines) := by
  have hentries := entries_addAll .empty lines
  have hcapacity : 0 < historyCapacity := by decide
  have hnewest := foldl_rememberIn hcapacity (lines.filterMap entryOf)
  refine ⟨?_, ?_, ?_⟩
  · rw [hentries]
    show (List.foldl (rememberIn historyCapacity) [] _).length ≤ historyCapacity
    rw [hnewest]
    exact length_rtake_le _ _
  · rw [hentries]
    intro entry hmem
    have hmem' := List.mem_of_mem_drop (hnewest ▸ hmem)
    obtain ⟨line, -, hline⟩ := List.mem_filterMap.1 ((List.destutter_sublist _ _).mem hmem')
    exact entryOf_spec hline
  · rw [hentries]
    exact isChain_foldl_rememberIn (by decide) _

/-- The entries of a valid history, added in order, are its entries. -/
theorem entries_addAll_of_valid {history : History} (h : Valid history) :
    (addAll .empty history.entries).entries = history.entries := by
  have hself : history.entries.filterMap entryOf = history.entries := by
    rw [List.filterMap_congr (g := some)]
    · exact List.filterMap_some
    · intro entry hmem
      obtain ⟨hprintable, hblank⟩ := h.entry entry hmem
      rw [entryOf_of_printable hprintable, if_pos hblank]
  rw [entries_addAll, hself]
  exact foldl_rememberIn_self (by decide) h.chain h.length_le

/-! ## The cursor -/

/-- Moving in the history leaves its entries, and the cursor stands at one of them or behind the last. -/
theorem shellHistoryPrevious_spec (draft : List UInt8) {history : History} (h : history.cursor ≤ history.entries.length) :
    (shellHistoryPrevious draft history).2.entries = history.entries ∧
    (shellHistoryPrevious draft history).2.cursor ≤ history.entries.length := by
  unfold shellHistoryPrevious
  split
  · exact ⟨rfl, h⟩
  · dsimp only
    split
    · exact ⟨rfl, by dsimp only; omega⟩
    · exact ⟨rfl, by omega⟩

theorem shellHistoryNext_spec {history : History} (h : history.cursor ≤ history.entries.length) :
    (shellHistoryNext history).2.entries = history.entries ∧ (shellHistoryNext history).2.cursor ≤ history.entries.length := by
  unfold shellHistoryNext
  split
  · exact ⟨rfl, h⟩
  · refine ⟨rfl, ?_⟩
    dsimp only
    omega

end Shell
end TabOS
