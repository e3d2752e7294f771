import TabOS.Shell.History

/-!
# The history file

`apps/shell/src/history_file.c`: the entries are saved as lines and loaded again character by character. A line that is too long or not
printable is left out, and so is a carriage return before the end of a line. The answers of the storage are inputs.
-/

namespace TabOS
namespace Shell

open Library

def newline : UInt8 := 0x0a

def carriageReturn : UInt8 := 0x0d

/-- The values of `errno` that the code names. -/
def eio : Nat := 5
def enoent : Nat := 2
def eexist : Nat := 17

/-- The files at `history_path` and at `temporary_path`. -/
structure Files where
  history : Option (List UInt8)
  temporary : Option (List UInt8)
  deriving DecidableEq, Repr

/-! ## Loading -/

/-- The line that is read, and the history so far. -/
structure LineState where
  used : List UInt8
  invalid : Bool
  carriageReturn : Bool
  history : History
  deriving DecidableEq, Repr

/-- The state at the start of a line. -/
def LineState.fresh (history : History) : LineState := ⟨[], false, false, history⟩

def readCharacter (state : LineState) (character : UInt8) : LineState :=
  if character = newline then
    .fresh (if state.invalid = false then (shellHistoryAdd state.history state.used).2 else state.history)
  else if character = carriageReturn ∧ state.carriageReturn = false then { state with carriageReturn := true }
  else if state.carriageReturn ∨ character < 0x20 ∨ character > 0x7e ∨ state.used.length = lineCapacity - 1 then
    { state with invalid := true }
  else { state with used := state.used ++ [character] }

/-- The history after the last character, when there is a line without a newline left. -/
def finishLine (state : LineState) : History :=
  if state.invalid = false ∧ state.carriageReturn = false ∧ state.used ≠ [] then (shellHistoryAdd state.history state.used).2
  else state.history

/-- What goes wrong while the file is read: it is there and cannot be opened, it can be read up to some length only, it cannot be
closed. -/
structure ReadFaults where
  openError : Option { errno : Nat // errno ≠ enoent }
  readError : Option Nat
  closeError : Option Nat
  deriving DecidableEq, Repr

/-- Nothing goes wrong. -/
def ReadFaults.none : ReadFaults := ⟨.none, .none, .none⟩

/-- `fopen` of the history for reading. -/
def openHistory (faults : ReadFaults) (files : Files) : Except Nat (List UInt8) :=
  match faults.openError, files.history with
  | some errno, _ => .error errno
  | none, none => .error enoent
  | none, some content => .ok content

/-- The error, if there is one, and the history. -/
def shellHistoryLoad (faults : ReadFaults) (files : Files) : Option Nat × History :=
  match openHistory faults files with
  | .error errno => (if errno = enoent then none else some errno, .empty)
  | .ok content =>
    let delivered := faults.readError.elim content content.take
    let state := delivered.foldl readCharacter (.fresh .empty)
    let error := if faults.readError.isSome then eio else 0
    let history := if error = 0 then finishLine state else state.history
    let error := if error = 0 then faults.closeError.getD 0 else error
    (if error ≠ 0 then some error else none, shellHistoryResetNavigation history)

/-! ## Saving -/

/-- What goes wrong while the file is written: the directory cannot be made, the temporary file cannot be opened, an entry cannot be
printed but for some bytes of it, the file cannot be closed, it cannot be renamed, it cannot be removed. A failed rename sets `errno`. -/
structure WriteFaults where
  mkdirError : Option Nat
  openError : Option Nat
  printError : Nat → Option (Nat × Nat)
  closeError : Option Nat
  renameError : Option { errno : Nat // errno ≠ 0 }
  unlinkFails : Bool

/-- An error number, where a missing one counts as an input or output error. -/
def errnoOrEio (errno : Nat) : Nat := if errno ≠ 0 then errno else eio

/-- The text that is printed for an entry. -/
def entryLine (entry : List UInt8) : List UInt8 := entry ++ [newline]

/-- The bytes written for the entries from an index on, and the error. -/
def printEntries (faults : WriteFaults) : Nat → List (List UInt8) → List UInt8 × Nat
  | _, [] => ([], 0)
  | index, entry :: entries =>
    match faults.printError index with
    | some (errno, written) => ((entryLine entry).take written, errnoOrEio errno)
    | none =>
      let (text, error) := printEntries faults (index + 1) entries
      (entryLine entry ++ text, error)

/-- The error, if there is one, and the files. -/
def shellHistorySave (faults : WriteFaults) (history : History) (files : Files) : Option Nat × Files :=
  match faults.mkdirError.filter (· ≠ eexist), faults.openError with
  | some errno, _ => (some errno, files)
  | none, some errno => (some errno, files)
  | none, none =>
    let (text, error) := printEntries faults 0 history.entries
    let error := if error = 0 then faults.closeError.elim 0 errnoOrEio else error
    let renamed := decide (error = 0 ∧ faults.renameError = none)
    let error := if error = 0 then faults.renameError.elim 0 Subtype.val else error
    if renamed then (none, { history := some text, temporary := none })
    else if error ≠ 0 then (some error, { files with temporary := if faults.unlinkFails then some text else none })
    else (none, { files with temporary := some text })

/-! ## The lines of a file -/

/-- The text of a line that a newline ends: a carriage return may come before it. -/
def terminatedText (piece : List UInt8) : Option (List UInt8) :=
  if Printable piece then some piece
  else if piece.getLast? = some carriageReturn ∧ Printable piece.dropLast then some piece.dropLast
  else none

/-- The well-formed lines of a file; what stands behind the last newline has no newline itself. -/
def wellFormedLines (content : List UInt8) : List (List UInt8) :=
  let pieces := content.splitOn newline
  pieces.dropLast.filterMap terminatedText ++ pieces.getLast?.toList.filter (Printable ·)

theorem wellFormedLines_of_not_mem {piece : List UInt8} (h : newline ∉ piece) :
    wellFormedLines piece = if Printable piece then [piece] else [] := by
  unfold wellFormedLines
  rw [List.splitOn_eq_singleton h]
  by_cases hprintable : Printable piece <;> simp [hprintable]

theorem wellFormedLines_append {piece : List UInt8} (h : newline ∉ piece) (rest : List UInt8) :
    wellFormedLines (piece ++ newline :: rest) = (terminatedText piece).toList ++ wellFormedLines rest := by
  have hpieces : (piece ++ newline :: rest).splitOn newline = piece :: rest.splitOn newline := by
    rw [List.splitOn_append_cons_self, List.splitOn_eq_singleton h]
    rfl
  have hrest : rest.splitOn newline ≠ [] := List.splitOn_ne_nil newline rest
  unfold wellFormedLines
  dsimp only
  rw [hpieces, List.dropLast_cons_of_ne_nil hrest, List.filterMap_cons, List.getLast?_cons_of_ne_nil hrest]
  cases terminatedText piece <;> rfl

/-! ## The line that is read -/

/-- The state after a piece of a line: the piece is printable, or it is but for a carriage return at its end, or it is neither. -/
def Reads (piece : List UInt8) (state : LineState) : Prop :=
  (Printable piece ∧ state.used = piece ∧ state.invalid = false ∧ state.carriageReturn = false) ∨
  (∃ text, piece = text ++ [carriageReturn] ∧ Printable text ∧
    state.used = text ∧ state.invalid = false ∧ state.carriageReturn = true) ∨
  (¬Printable piece ∧ (∀ text, piece = text ++ [carriageReturn] → ¬Printable text) ∧ state.invalid = true)

theorem not_printable_of_mem {text : List UInt8} (h : carriageReturn ∈ text) : ¬Printable text :=
  fun hprintable => absurd (hprintable.1 _ h).1 (by decide)

theorem Printable.of_append {text later : List UInt8} (h : Printable (text ++ later)) : Printable text := by
  obtain ⟨hcharacters, hlength⟩ := h
  rw [List.length_append] at hlength
  exact ⟨fun character hmem => hcharacters character (List.mem_append_left _ hmem), by omega⟩

theorem printable_append_singleton {text : List UInt8} (h : Printable text) (character : UInt8) :
    Printable (text ++ [character]) ↔ ¬(character < 0x20 ∨ character > 0x7e ∨ text.length = lineCapacity - 1) := by
  obtain ⟨hcharacters, hlength⟩ := h
  constructor
  · rintro ⟨hall, hroom⟩ hbad
    obtain ⟨hlow, hhigh⟩ := hall character (List.mem_append_right _ List.mem_cons_self)
    rw [List.length_append, List.length_singleton] at hroom
    rcases hbad with hbelow | habove | hfull
    · exact absurd hlow (UInt8.not_le.2 hbelow)
    · exact absurd hhigh (UInt8.not_le.2 habove)
    · omega
  · intro hgood
    have hlow : 0x20 ≤ character := UInt8.not_lt.1 fun h => hgood (Or.inl h)
    have hhigh : character ≤ 0x7e := UInt8.not_lt.1 fun h => hgood (Or.inr (Or.inl h))
    have hroom : text.length ≠ lineCapacity - 1 := fun h => hgood (Or.inr (Or.inr h))
    refine ⟨?_, ?_⟩
    · intro other hmem
      rcases List.mem_append.1 hmem with hmem | hmem
      · exact hcharacters other hmem
      · rw [List.mem_singleton.1 hmem]
        exact ⟨hlow, hhigh⟩
    · rw [List.length_append, List.length_singleton]
      omega

/-- One more character of the line. -/
theorem Reads.readCharacter {piece : List UInt8} {state : LineState} (h : Reads piece state) {character : UInt8}
    (hcharacter : character ≠ newline) :
    Reads (piece ++ [character]) (readCharacter state character) ∧ (readCharacter state character).history = state.history := by
  unfold Shell.readCharacter
  rw [if_neg hcharacter]
  have hends : ∀ text, piece ++ [character] = text ++ [carriageReturn] → piece = text ∧ character = carriageReturn := by
    intro text heq
    obtain ⟨hpiece, hlast⟩ := List.append_inj' heq rfl
    exact ⟨hpiece, List.head_eq_of_cons_eq hlast⟩
  rcases h with ⟨hprintable, hused, hinvalid, hreturn⟩ | ⟨text, hpiece, hprintable, hused, hinvalid, hreturn⟩ |
    ⟨hnot, hnone, hinvalid⟩
  · by_cases hcr : character = carriageReturn
    · rw [if_pos ⟨hcr, hreturn⟩]
      exact ⟨Or.inr (Or.inl ⟨piece, by rw [hcr], hprintable, hused, hinvalid, rfl⟩), rfl⟩
    · rw [if_neg (fun h => hcr h.1)]
      have hiff := printable_append_singleton hprintable character
      by_cases hbad : character < 0x20 ∨ character > 0x7e ∨ piece.length = lineCapacity - 1
      · rw [if_pos (Or.inr (by rw [hused]; exact hbad))]
        refine ⟨Or.inr (Or.inr ⟨fun h => (hiff.1 h) hbad, fun text heq => absurd (hends text heq).2 hcr, rfl⟩), rfl⟩
      · rw [if_neg (by rw [hused, hreturn]; exact fun h => h.elim Bool.false_ne_true hbad)]
        exact ⟨Or.inl ⟨hiff.2 hbad, by rw [hused], hinvalid, hreturn⟩, rfl⟩
  · rw [if_neg (by rw [hreturn]; exact fun h => absurd h.2 (by decide)), if_pos (Or.inl hreturn)]
    have hmem : carriageReturn ∈ piece := by
      rw [hpiece]
      exact List.mem_append_right _ List.mem_cons_self
    refine ⟨Or.inr (Or.inr ⟨not_printable_of_mem (List.mem_append_left _ hmem), ?_, rfl⟩), rfl⟩
    intro text' heq
    exact (hends text' heq).1 ▸ not_printable_of_mem hmem
  · have hlater : ¬Printable (piece ++ [character]) := fun h => hnot h.of_append
    have hrest : ∀ text, piece ++ [character] = text ++ [carriageReturn] → ¬Printable text :=
      fun text heq => (hends text heq).1 ▸ hnot
    split
    · exact ⟨Or.inr (Or.inr ⟨hlater, hrest, hinvalid⟩), rfl⟩
    · split
      · exact ⟨Or.inr (Or.inr ⟨hlater, hrest, rfl⟩), rfl⟩
      · exact ⟨Or.inr (Or.inr ⟨hlater, hrest, hinvalid⟩), rfl⟩

/-- A piece of a line, read from its start. -/
theorem reads_piece (history : History) {piece : List UInt8} (h : newline ∉ piece) :
    Reads piece (piece.foldl readCharacter (.fresh history)) ∧ (piece.foldl readCharacter (.fresh history)).history = history := by
  induction piece using List.reverseRecOn with
  | nil => exact ⟨Or.inl ⟨⟨fun _ hmem => absurd hmem List.not_mem_nil, by decide⟩, rfl, rfl, rfl⟩, rfl⟩
  | append_singleton piece character ih =>
    obtain ⟨hreads, hhistory⟩ := ih fun hmem => h (List.mem_append_left _ hmem)
    have hcharacter : character ≠ newline := fun heq => h (heq ▸ List.mem_append_right _ List.mem_cons_self)
    rw [List.foldl_append]
    obtain ⟨hreads', hhistory'⟩ := hreads.readCharacter hcharacter
    exact ⟨hreads', hhistory'.trans hhistory⟩

/-- A newline adds the text of the line. -/
theorem Reads.newline {piece : List UInt8} {state : LineState} (h : Reads piece state) :
    Shell.readCharacter state newline = .fresh (addAll state.history (terminatedText piece).toList) := by
  unfold Shell.readCharacter terminatedText
  rw [if_pos rfl]
  refine congrArg LineState.fresh ?_
  rcases h with ⟨hprintable, hused, hinvalid, -⟩ | ⟨text, hpiece, hprintable, hused, hinvalid, -⟩ | ⟨hnot, hnone, hinvalid⟩
  · rw [if_pos hprintable, if_pos hinvalid, hused]
    rfl
  · have hnot : ¬Printable piece := by
      refine not_printable_of_mem ?_
      rw [hpiece]
      exact List.mem_append_right _ List.mem_cons_self
    have hlast : piece.getLast? = some carriageReturn := by rw [hpiece, List.getLast?_concat]
    have hdrop : piece.dropLast = text := by rw [hpiece, List.dropLast_concat]
    rw [if_pos hinvalid, if_neg hnot, if_pos ⟨hlast, hdrop ▸ hprintable⟩, hused, hdrop]
    rfl
  · have hneither : ¬(piece.getLast? = some carriageReturn ∧ Printable piece.dropLast) := by
      rintro ⟨hlast, hprintable⟩
      exact hnone piece.dropLast (List.dropLast_append_getLast? carriageReturn hlast).symm hprintable
    rw [if_neg (by rw [hinvalid]; decide), if_neg hnot, if_neg hneither]
    rfl

/-- At the end of the file the rest of it is added if it is printable. -/
theorem Reads.finishLine {piece : List UInt8} {state : LineState} (h : Reads piece state) :
    Shell.finishLine state = addAll state.history (if Printable piece then [piece] else []) := by
  unfold Shell.finishLine
  rcases h with ⟨hprintable, hused, hinvalid, hreturn⟩ | ⟨text, hpiece, -, -, -, hreturn⟩ | ⟨hnot, -, hinvalid⟩
  · rw [if_pos hprintable]
    by_cases hempty : piece = []
    · rw [if_neg (fun h => h.2.2 (hused.trans hempty)), hempty]
      rfl
    · rw [if_pos ⟨hinvalid, hreturn, by rw [hused]; exact hempty⟩, hused]
      rfl
  · have hnot : ¬Printable piece := by
      refine not_printable_of_mem ?_
      rw [hpiece]
      exact List.mem_append_right _ List.mem_cons_self
    rw [if_neg (by rw [hreturn]; exact fun h => absurd h.2.1 (by decide)), if_neg hnot]
    rfl
  · rw [if_neg (by rw [hinvalid]; exact fun h => absurd h.1 (by decide)), if_neg hnot]
    rfl

/-! ## Loading a file -/

/-- The characters of a file add its well-formed lines. -/
theorem finishLine_foldl (content : List UInt8) (history : History) :
    finishLine (content.foldl readCharacter (.fresh history)) = addAll history (wellFormedLines content) := by
  induction hlength : content.length using Nat.strong_induction_on generalizing content history with
  | _ length ih =>
    by_cases hmem : newline ∈ content
    · obtain ⟨piece, rest, rfl, hpiece⟩ := List.eq_append_cons_of_mem hmem
      obtain ⟨hreads, hhistory⟩ := reads_piece history hpiece
      have hshort : rest.length < length := by
        rw [← hlength, List.length_append, List.length_cons]
        omega
      rw [List.foldl_append, List.foldl_cons, hreads.newline, hhistory, ih rest.length hshort _ _ rfl, wellFormedLines_append hpiece]
      exact (List.foldl_append ..).symm
    · obtain ⟨hreads, hhistory⟩ := reads_piece history hmem
      rw [hreads.finishLine, hhistory, wellFormedLines_of_not_mem hmem]

/-- A load that succeeds has added the well-formed lines of the file in order. -/
theorem shellHistoryLoad_success {faults : ReadFaults} {files : Files} {content : List UInt8} (hfile : files.history = some content)
    (hload : (shellHistoryLoad faults files).1 = none) :
    (shellHistoryLoad faults files).2 = shellHistoryResetNavigation (addAll .empty (wellFormedLines content)) := by
  unfold shellHistoryLoad openHistory at hload ⊢
  rw [hfile] at hload ⊢
  cases hopen : faults.openError with
  | some errno =>
    rw [hopen] at hload
    dsimp only at hload
    rw [if_neg errno.2] at hload
    exact absurd hload (Option.some_ne_none _)
  | none =>
    rw [hopen] at hload
    dsimp only at hload ⊢
    cases hread : faults.readError with
    | some length =>
      rw [hread] at hload
      exact absurd hload (by simp [eio])
    | none =>
      rw [if_pos (show (if (Option.isSome (none : Option Nat)) = true then eio else 0) = 0 from rfl)]
      exact congrArg _ (finishLine_foldl content .empty)

/-- A load without faults succeeds. -/
theorem shellHistoryLoad_none (files : Files) : (shellHistoryLoad .none files).1 = none := by
  unfold shellHistoryLoad openHistory ReadFaults.none
  cases files.history <;> rfl

/-! ## Saving a history -/

/-- What is printed without an error is a line for each entry. -/
theorem printEntries_success {faults : WriteFaults} {index : Nat} {entries : List (List UInt8)}
    (h : (printEntries faults index entries).2 = 0) : (printEntries faults index entries).1 = (entries.map entryLine).flatten := by
  induction entries generalizing index with
  | nil => rfl
  | cons entry entries ih =>
    rw [printEntries] at h ⊢
    cases hprint : faults.printError index with
    | some error =>
      rw [hprint] at h
      refine absurd h ?_
      show errnoOrEio error.1 ≠ 0
      unfold errnoOrEio
      split
      · assumption
      · decide
    | none =>
      rw [hprint] at h
      show entryLine entry ++ (printEntries faults (index + 1) entries).1 = _
      rw [ih h]
      rfl

/-- A save that succeeds leaves a line for each entry in the file. -/
theorem shellHistorySave_success {faults : WriteFaults} {history : History} {files : Files}
    (h : (shellHistorySave faults history files).1 = none) :
    (shellHistorySave faults history files).2.history = some ((history.entries.map entryLine).flatten) := by
  unfold shellHistorySave at h ⊢
  split at h
  · exact absurd h (Option.some_ne_none _)
  · exact absurd h (Option.some_ne_none _)
  · dsimp only at h ⊢
    have herrno : ∀ errno, errnoOrEio errno ≠ 0 := by
      intro errno
      unfold errnoOrEio
      split
      · assumption
      · decide
    cases herror : (printEntries faults 0 history.entries).2 with
    | succ error =>
      rw [herror] at h
      exact absurd h (Option.some_ne_none _)
    | zero =>
      rw [herror] at h
      cases hclose : faults.closeError with
      | some errno =>
        rw [hclose] at h
        exact absurd h (by simp [herrno errno])
      | none =>
        cases hrename : faults.renameError with
        | some errno =>
          rw [hclose, hrename] at h
          exact absurd h (by simp [errno.2])
        | none =>
          have hprinted := printEntries_success herror
          simp [hprinted]

/-- The lines of the saved entries are the entries. -/
theorem wellFormedLines_saved {entries : List (List UInt8)} (h : ∀ entry ∈ entries, Printable entry) :
    wellFormedLines (entries.map entryLine).flatten = entries ++ [[]] := by
  induction entries with
  | nil =>
    have hempty : Printable [] := ⟨fun _ hmem => absurd hmem List.not_mem_nil, by decide⟩
    exact (wellFormedLines_of_not_mem List.not_mem_nil).trans (if_pos hempty)
  | cons entry entries ih =>
    have hprintable := h entry List.mem_cons_self
    have hnewline : newline ∉ entry := fun hmem => absurd (hprintable.1 _ hmem).1 (by decide)
    rw [List.map_cons, List.flatten_cons, entryLine, List.append_assoc, List.singleton_append, wellFormedLines_append hnewline,
      ih fun other hmem => h other (List.mem_cons_of_mem _ hmem), terminatedText, if_pos hprintable]
    rfl

/-! ## Persistence -/

/-- The well-formed lines that are entries. -/
theorem filterMap_wellFormedLines (content : List UInt8) :
    (wellFormedLines content).filterMap entryOf = (wellFormedLines content).filter (Nonblank ·) := by
  have hprintable : ∀ line ∈ wellFormedLines content, Printable line := by
    intro line hmem
    rcases List.mem_append.1 hmem with hterminated | hrest
    · obtain ⟨piece, -, hpiece⟩ := List.mem_filterMap.1 hterminated
      unfold terminatedText at hpiece
      split at hpiece
      · rename_i h
        exact Option.some.inj hpiece ▸ h
      · split at hpiece
        · rename_i h
          exact Option.some.inj hpiece ▸ h.2
        · exact absurd hpiece.symm (Option.some_ne_none _)
    · exact of_decide_eq_true (List.mem_filter.1 hrest).2
  generalize wellFormedLines content = lines at hprintable ⊢
  induction lines with
  | nil => rfl
  | cons line lines ih =>
    have hentry := entryOf_of_printable (hprintable line List.mem_cons_self)
    have hlines := ih fun other hmem => hprintable other (List.mem_cons_of_mem _ hmem)
    rw [List.filterMap_cons, List.filter_cons, hentry, ← hlines]
    by_cases hblank : Nonblank line <;> simp [hblank]

/-- A history that was saved is loaded again, entry by entry; and a load of any file that succeeds leaves a valid history, whose entries
are those that the well-formed lines of the file leave when they are added in order: the newest of them without the blank ones and those
that repeat the one before. -/
theorem history_persistence :
    (∀ lines saving files reading,
      let history := addAll .empty lines
      let saved := shellHistorySave saving history files
      let loaded := shellHistoryLoad reading saved.2
      saved.1 = none → (loaded.1 = none → loaded.2.entries = history.entries) ∧ (reading = .none → loaded.1 = none)) ∧
    (∀ content files reading, files.history = some content →
      let loaded := shellHistoryLoad reading files
      loaded.1 = none → Valid loaded.2 ∧
        loaded.2.entries = (addAll .empty (wellFormedLines content)).entries ∧
        loaded.2.entries = (((wellFormedLines content).filter (Nonblank ·)).destutter (· ≠ ·)).rtake historyCapacity) := by
  refine ⟨?_, ?_⟩
  · intro lines saving files reading history saved loaded hsaved
    have hvalid : Valid history := valid_addAll lines
    have hfile := shellHistorySave_success hsaved
    refine ⟨fun hloaded => ?_, fun hnone => ?_⟩
    swap
    · rw [show loaded = shellHistoryLoad .none saved.2 from congrArg (shellHistoryLoad · saved.2) hnone]
      exact shellHistoryLoad_none saved.2
    rw [shellHistoryLoad_success hfile hloaded, wellFormedLines_saved fun entry hmem => (hvalid.entry entry hmem).1]
    show (addAll .empty (history.entries ++ [[]])).entries = history.entries
    rw [addAll, List.foldl_append]
    exact entries_addAll_of_valid hvalid
  · intro content files reading hfile loaded hloaded
    have hentries : loaded.2.entries = (addAll .empty (wellFormedLines content)).entries := by
      show (shellHistoryLoad reading files).2.entries = _
      rw [shellHistoryLoad_success hfile hloaded]
      rfl
    obtain ⟨hlength, hentry, hchain⟩ := valid_addAll (wellFormedLines content)
    rw [← hentries] at hlength hentry hchain
    refine ⟨⟨hlength, hentry, hchain⟩, hentries, ?_⟩
    rw [hentries, entries_addAll, filterMap_wellFormedLines]
    exact foldl_rememberIn (by decide) _

end Shell
end TabOS
