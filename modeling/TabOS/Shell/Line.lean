import TabOS.Shell.History

/-!
# Editing the line of the shell

`apps/shell/src/input.c` and `apps/shell/src/line.c`: the bytes of the terminal are filtered into actions, each of which changes the line
and writes what shows the change. The text of a line is its whole array; what it writes is read as printing with destructive backspace.
-/

namespace TabOS
namespace Shell

/-- `shell_input_state_t`. -/
inductive InputState where
  | text | escape | csi | string | stringEscape
  deriving DecidableEq, Repr

/-- `shell_input_filter_t`. -/
structure InputFilter where
  state : InputState
  csiParameters : Bool
  deriving DecidableEq, Repr

/-- `shell_input_action_t`, with the character that is put out. -/
inductive Action where
  | none | character (output : UInt8) | up | down | enter | backspace
  deriving DecidableEq, Repr

def shellInputFilter (filter : InputFilter) (input : UInt8) : Action × InputFilter :=
  match filter.state with
  | .text =>
    if input = 0x1b then (.none, { filter with state := .escape })
    else if input = 0x0a then (.enter, filter)
    else if input = 0x08 then (.backspace, filter)
    else if input ≥ 0x20 ∧ input ≤ 0x7e then (.character input, filter)
    else (.none, filter)
  | .escape =>
    if input = 0x5b then (.none, ⟨.csi, false⟩)
    else if input = 0x5d ∨ input = 0x50 ∨ input = 0x58 ∨ input = 0x5e ∨ input = 0x5f then (.none, { filter with state := .string })
    else if input < 0x20 ∨ input > 0x2f then (.none, { filter with state := .text })
    else (.none, filter)
  | .csi =>
    if input = 0x1b then (.none, { filter with state := .escape })
    else if input ≥ 0x40 ∧ input ≤ 0x7e then
      (if filter.csiParameters = false ∧ input = 0x41 then .up else if filter.csiParameters = false ∧ input = 0x42 then .down else .none,
        { filter with state := .text })
    else (.none, { filter with csiParameters := true })
  | .string =>
    if input = 0x07 then (.none, { filter with state := .text })
    else if input = 0x1b then (.none, { filter with state := .stringEscape })
    else (.none, filter)
  | .stringEscape =>
    if input = 0x5c then (.none, { filter with state := .text })
    else if input ≠ 0x1b then (.none, { filter with state := .string })
    else (.none, filter)

/-- The text of an array of characters, which ends at the first zero. -/
def cString (text : List UInt8) : List UInt8 := text.takeWhile (· ≠ 0)

/-- `strcpy` into an array. -/
def strcpy (text source : List UInt8) : List UInt8 := source ++ 0 :: text.drop (source.length + 1)

/-- `shell_line_t`. -/
structure Line where
  text : List UInt8
  used : Nat
  filter : InputFilter
  deriving DecidableEq, Repr

/-- `replace_line`, with what it writes. -/
def replaceLine (line : Line) : Option (List UInt8) → Line × List UInt8
  | none => (line, [])
  | some replacement =>
    let text := strcpy line.text replacement
    let used := (cString text).length
    ({ line with text := text, used := used }, List.replicate line.used 0x08 ++ text.take used)

/-- The line and the history after an action, what it writes, and whether it ended the line. -/
def act (line : Line) (history : History) : Action → Bool × Line × History × List UInt8
  | .enter => (true, line, history, [0x0a])
  | .backspace =>
    if line.used > 0 then
      (false, { line with used := line.used - 1, text := line.text.set (line.used - 1) 0 }, shellHistoryResetNavigation history, [0x08])
    else (false, line, history, [])
  | .character character =>
    if line.used < lineCapacity - 1 then
      (false, { line with used := line.used + 1, text := (line.text.set line.used character).set (line.used + 1) 0 },
        shellHistoryResetNavigation history, [character])
    else (false, line, history, [])
  | .up =>
    let recalled := shellHistoryPrevious (cString line.text) history
    let replaced := replaceLine line recalled.1
    (false, replaced.1, recalled.2, replaced.2)
  | .down =>
    let recalled := shellHistoryNext history
    let replaced := replaceLine line recalled.1
    (false, replaced.1, recalled.2, replaced.2)
  | .none => (false, line, history, [])

def shellLineFeed (line : Line) (history : History) (byte : UInt8) : Bool × Line × History × List UInt8 :=
  let filtered := shellInputFilter line.filter byte
  act { line with filter := filtered.2 } history filtered.1

def shellLineReset (history : History) : Line × History :=
  (⟨List.replicate lineCapacity 0, 0, ⟨.text, false⟩⟩, shellHistoryResetNavigation history)

/-- A line that is being entered: all that was written, and whether the last byte ended it. -/
structure Session where
  line : Line
  history : History
  output : List UInt8
  returned : Bool
  deriving DecidableEq, Repr

def start (history : History) : Session := ⟨(shellLineReset history).1, (shellLineReset history).2, [], false⟩

/-- No byte is fed once the line has ended. -/
def Session.feed (session : Session) (byte : UInt8) : Session :=
  if session.returned then session
  else
    let fed := shellLineFeed session.line session.history byte
    ⟨fed.2.1, fed.2.2.1, session.output ++ fed.2.2.2, fed.1⟩

def Session.feedAll (session : Session) (bytes : List UInt8) : Session := bytes.foldl Session.feed session

/-! ## What the output displays -/

/-- A character is shown behind the others, and a backspace takes the last one away. -/
def put (shown : List UInt8) (character : UInt8) : List UInt8 := if character = 0x08 then shown.dropLast else shown ++ [character]

/-- What the output displays behind what is shown. -/
def displayOn (shown output : List UInt8) : List UInt8 := output.foldl put shown

def display (output : List UInt8) : List UInt8 := displayOn [] output

theorem displayOn_append (shown first second : List UInt8) :
    displayOn shown (first ++ second) = displayOn (displayOn shown first) second :=
  List.foldl_append

theorem displayOn_printable {text : List UInt8} (h : ∀ character ∈ text, 0x20 ≤ character) (shown : List UInt8) :
    displayOn shown text = shown ++ text := by
  induction text generalizing shown with
  | nil => exact (List.append_nil shown).symm
  | cons character text ih =>
    have hcharacter : character ≠ 0x08 := fun hback => absurd (hback ▸ h character List.mem_cons_self) (by decide)
    show displayOn (put shown character) text = _
    rw [put, if_neg hcharacter, ih (fun other hmem => h other (List.mem_cons_of_mem _ hmem)), List.append_assoc]
    rfl

theorem displayOn_erase (shown : List UInt8) : displayOn shown (List.replicate shown.length 0x08) = [] := by
  induction hlength : shown.length generalizing shown with
  | zero =>
    rw [List.length_eq_zero_iff.1 hlength]
    rfl
  | succ length ih =>
    show displayOn (put shown 0x08) _ = []
    rw [put, if_pos rfl]
    exact ih shown.dropLast (by rw [List.length_dropLast, hlength, Nat.add_sub_cancel])

/-! ## What a line shows -/

/-- The array begins with the text and a zero, and the text is printable. -/
structure Shows (line : Line) (text : List UInt8) : Prop where
  printable : Printable text
  used : line.used = text.length
  array : ∃ rest, line.text = text ++ 0 :: rest
  size : line.text.length = lineCapacity

theorem cString_append {text : List UInt8} (h : Printable text) (rest : List UInt8) : cString (text ++ 0 :: rest) = text := by
  have hzero : ∀ character ∈ text, decide (character ≠ 0) = true := by
    intro character hmem
    exact decide_eq_true fun hzero => absurd (hzero ▸ (h.1 character hmem).1) (by decide)
  rw [cString, List.takeWhile_append_of_pos hzero, List.takeWhile_cons_of_neg (by simp), List.append_nil]

theorem Shows.cString {line : Line} {text : List UInt8} (h : Shows line text) : cString line.text = text := by
  obtain ⟨rest, harray⟩ := h.array
  rw [harray, cString_append h.printable]

theorem printable_nil : Printable [] := ⟨fun _ hmem => absurd hmem List.not_mem_nil, by decide⟩

/-- A copied text is shown, and what is written for it displays it in the place of the old one. -/
theorem replaceLine_spec {line : Line} {text replacement : List UInt8} (h : Shows line text) (hprintable : Printable replacement) :
    Shows (replaceLine line (some replacement)).1 replacement ∧
    displayOn text (replaceLine line (some replacement)).2 = replacement := by
  have hroom := hprintable.2
  have hcopied : TabOS.Shell.cString (strcpy line.text replacement) = replacement := cString_append hprintable _
  refine ⟨⟨hprintable, congrArg List.length hcopied, ⟨_, rfl⟩, ?_⟩, ?_⟩
  · show (replacement ++ 0 :: line.text.drop (replacement.length + 1)).length = lineCapacity
    rw [List.length_append, List.length_cons, List.length_drop, h.size]
    omega
  · have htaken : (strcpy line.text replacement).take replacement.length = replacement := List.take_left
    show displayOn text (List.replicate line.used 0x08 ++
      (strcpy line.text replacement).take (TabOS.Shell.cString (strcpy line.text replacement)).length) = replacement
    rw [hcopied, htaken, h.used, displayOn_append, displayOn_erase]
    exact displayOn_printable (fun character hmem => (hprintable.1 character hmem).1) []

/-- A character that is put behind the text. -/
theorem Shows.append {line : Line} {text : List UInt8} (h : Shows line text) {character : UInt8}
    (hcharacter : 0x20 ≤ character ∧ character ≤ 0x7e) (hroom : line.used < lineCapacity - 1) :
    Shows { line with used := line.used + 1, text := (line.text.set line.used character).set (line.used + 1) 0 }
      (text ++ [character]) := by
  obtain ⟨rest, harray⟩ := h.array
  have hused := h.used
  have hsize := h.size
  rw [harray, List.length_append, List.length_cons] at hsize
  obtain ⟨first, rest, rfl⟩ : ∃ first others, rest = first :: others := by
    cases rest with
    | nil =>
      rw [List.length_nil] at hsize
      omega
    | cons first others => exact ⟨first, others, rfl⟩
  refine ⟨⟨?_, ?_⟩, ?_, ⟨rest, ?_⟩, ?_⟩
  · intro other hmem
    rcases List.mem_append.1 hmem with hmem | hmem
    · exact h.printable.1 other hmem
    · rw [List.mem_singleton.1 hmem]
      exact hcharacter
  · rw [List.length_append, List.length_singleton]
    omega
  · show line.used + 1 = _
    rw [List.length_append, List.length_singleton, hused]
  · show (line.text.set line.used character).set (line.used + 1) 0 = _
    rw [harray, hused, List.set_append_right _ _ (Nat.le_refl _), Nat.sub_self, List.set_cons_zero,
      List.set_append_right _ _ (Nat.le_add_right _ 1), Nat.add_sub_cancel_left, List.set_cons_succ, List.set_cons_zero]
    exact (List.append_assoc text [character] _).symm
  · show ((line.text.set line.used character).set (line.used + 1) 0).length = lineCapacity
    rw [List.length_set, List.length_set, h.size]

/-- The text without its last character. -/
theorem Shows.dropLast {line : Line} {text : List UInt8} (h : Shows line text) (hused : line.used > 0) :
    Shows { line with used := line.used - 1, text := line.text.set (line.used - 1) 0 } text.dropLast := by
  obtain ⟨rest, harray⟩ := h.array
  have hlength := h.used
  have hnonempty : text ≠ [] := fun hnil => by
    rw [hnil, List.length_nil] at hlength
    omega
  have hsplit := List.dropLast_concat_getLast hnonempty
  have hroom := h.printable.2
  refine ⟨⟨fun other hmem => h.printable.1 other ((List.dropLast_subset text) hmem), ?_⟩, ?_, ⟨0 :: rest, ?_⟩, ?_⟩
  · rw [List.length_dropLast]
    omega
  · rw [List.length_dropLast]
    exact congrArg (· - 1) hlength
  · show line.text.set (line.used - 1) 0 = _
    have hposition : line.used - 1 = text.dropLast.length := by rw [List.length_dropLast, hlength]
    have harray' : line.text = text.dropLast ++ text.getLast hnonempty :: 0 :: rest := by
      calc line.text = text ++ 0 :: rest := harray
        _ = (text.dropLast ++ [text.getLast hnonempty]) ++ 0 :: rest := by rw [hsplit]
        _ = text.dropLast ++ text.getLast hnonempty :: 0 :: rest := List.append_assoc _ _ _
    rw [hposition, harray', List.set_append_right _ _ (Nat.le_refl _), Nat.sub_self, List.set_cons_zero]
  · show (line.text.set (line.used - 1) 0).length = lineCapacity
    rw [List.length_set, h.size]

/-! ## What every byte keeps -/

/-- The cursor is in its range, the draft can be shown, and so can the entries. -/
structure Navigable (history : History) : Prop where
  cursor_le : history.cursor ≤ history.entries.length
  draft : Printable history.draft
  entry : ∀ entry ∈ history.entries, Printable entry

theorem navigable_reset {history : History} (h : ∀ entry ∈ history.entries, Printable entry) :
    Navigable (shellHistoryResetNavigation history) :=
  ⟨Nat.le_refl _, printable_nil, h⟩

theorem navigable_shellHistoryPrevious {history : History} (h : Navigable history) {draft : List UInt8} (hdraft : Printable draft) :
    Navigable (shellHistoryPrevious draft history).2 ∧ ∀ text ∈ (shellHistoryPrevious draft history).1, Printable text := by
  have hcursor := h.cursor_le
  unfold shellHistoryPrevious
  split
  · exact ⟨h, fun _ hmem => absurd hmem (Option.not_mem_none _)⟩
  · dsimp only
    split
    · exact ⟨⟨Nat.le_trans (Nat.sub_le _ _) hcursor, hdraft, h.entry⟩, fun text hmem => h.entry text (List.mem_of_getElem? hmem)⟩
    · exact ⟨⟨Nat.le_trans (Nat.sub_le _ _) hcursor, h.draft, h.entry⟩, fun text hmem => h.entry text (List.mem_of_getElem? hmem)⟩

theorem navigable_shellHistoryNext {history : History} (h : Navigable history) :
    Navigable (shellHistoryNext history).2 ∧ ∀ text ∈ (shellHistoryNext history).1, Printable text := by
  have hcursor := h.cursor_le
  unfold shellHistoryNext
  split
  · exact ⟨h, fun _ hmem => absurd hmem (Option.not_mem_none _)⟩
  · refine ⟨⟨?_, h.draft, h.entry⟩, ?_⟩
    · dsimp only
      omega
    · dsimp only
      split
      · intro text hmem
        rw [← Option.mem_some.1 hmem]
        exact h.draft
      · exact fun text hmem => h.entry text (List.mem_of_getElem? hmem)

/-- The character that the filter puts out is printable. -/
theorem shellInputFilter_character {filter : InputFilter} {input character : UInt8}
    (h : (shellInputFilter filter input).1 = .character character) : 0x20 ≤ character ∧ character ≤ 0x7e := by
  unfold shellInputFilter at h
  cases hstate : filter.state with
  | text =>
    simp only [hstate] at h
    split_ifs at h with h1 h2 h3 hprintable
    obtain rfl := Action.character.inj h
    exact hprintable
  | escape | csi | string | stringEscape =>
    simp only [hstate] at h
    split_ifs at h

/-- An action of a line that shows a text leaves one that shows what was written, and the entries. -/
theorem act_spec {line : Line} {history : History} {text : List UInt8} (hshows : Shows line text) (hhistory : Navigable history)
    {action : Action} (haction : ∀ character, action = .character character → 0x20 ≤ character ∧ character ≤ 0x7e) :
    (∃ text', Shows (act line history action).2.1 text' ∧
      displayOn text (act line history action).2.2.2 = text' ++ if (act line history action).1 then [0x0a] else []) ∧
    Navigable (act line history action).2.2.1 ∧ (act line history action).2.2.1.entries = history.entries := by
  -- a recall replaces the text by one that the history gave
  have hrecall : ∀ recalled : Option (List UInt8) × History, (∀ text ∈ recalled.1, Printable text) →
      ∃ text', Shows (replaceLine line recalled.1).1 text' ∧
        displayOn text (replaceLine line recalled.1).2 = text' ++ if false then [0x0a] else [] := by
    rintro ⟨recalled, -⟩
    cases recalled with
    | none => exact fun _ => ⟨text, hshows, (List.append_nil text).symm⟩
    | some replacement =>
      intro hprintable
      obtain ⟨hreplaced, hwritten⟩ := replaceLine_spec hshows (hprintable replacement rfl)
      exact ⟨replacement, hreplaced, hwritten.trans (List.append_nil _).symm⟩
  cases action with
  | none => exact ⟨⟨text, hshows, (List.append_nil text).symm⟩, hhistory, rfl⟩
  | enter => exact ⟨⟨text, hshows, rfl⟩, hhistory, rfl⟩
  | backspace =>
    by_cases hused : line.used > 0
    · have hact : act line history .backspace = _ := if_pos hused
      rw [hact]
      exact ⟨⟨text.dropLast, hshows.dropLast hused, (List.append_nil _).symm⟩, navigable_reset hhistory.entry, rfl⟩
    · have hact : act line history .backspace = _ := if_neg hused
      rw [hact]
      exact ⟨⟨text, hshows, (List.append_nil text).symm⟩, hhistory, rfl⟩
  | character character =>
    have hcharacter := haction character rfl
    by_cases hroom : line.used < lineCapacity - 1
    · have hact : act line history (.character character) = _ := if_pos hroom
      rw [hact]
      refine ⟨⟨text ++ [character], hshows.append hcharacter hroom, ?_⟩, navigable_reset hhistory.entry, rfl⟩
      have hsingle : ∀ other ∈ [character], (0x20 : UInt8) ≤ other := fun other hmem => List.mem_singleton.1 hmem ▸ hcharacter.1
      exact (displayOn_printable hsingle text).trans (List.append_nil _).symm
    · have hact : act line history (.character character) = _ := if_neg hroom
      rw [hact]
      exact ⟨⟨text, hshows, (List.append_nil text).symm⟩, hhistory, rfl⟩
  | up =>
    obtain ⟨hkept, hprintable⟩ := navigable_shellHistoryPrevious hhistory (hshows.cString.symm ▸ hshows.printable)
    exact ⟨hrecall _ hprintable, hkept, (shellHistoryPrevious_spec _ hhistory.cursor_le).1⟩
  | down =>
    obtain ⟨hkept, hprintable⟩ := navigable_shellHistoryNext hhistory
    exact ⟨hrecall _ hprintable, hkept, (shellHistoryNext_spec hhistory.cursor_le).1⟩

/-- The output displays the text of the line, then the line break that ended it. -/
structure Displayed (entries : List (List UInt8)) (session : Session) : Prop where
  shows : Shows session.line (cString session.line.text)
  display : display session.output = cString session.line.text ++ if session.returned then [0x0a] else []
  history : Navigable session.history
  entries : session.history.entries = entries

theorem displayed_start {history : History} (h : Valid history) : Displayed history.entries (start history) := by
  have hempty : cString (List.replicate lineCapacity 0) = [] := cString_append printable_nil _
  have hshows : Shows (shellLineReset history).1 [] := ⟨printable_nil, rfl, ⟨_, rfl⟩, List.length_replicate⟩
  refine ⟨?_, ?_, navigable_reset fun entry hmem => (h.entry entry hmem).1, rfl⟩
  · show Shows (shellLineReset history).1 (cString (List.replicate lineCapacity 0))
    rw [hempty]
    exact hshows
  · show [] = cString (List.replicate lineCapacity 0) ++ []
    rw [hempty]
    rfl

theorem Displayed.feed {entries : List (List UInt8)} {session : Session} (h : Displayed entries session) (byte : UInt8) :
    Displayed entries (session.feed byte) := by
  unfold Session.feed
  split
  · exact h
  · rename_i hreturned
    have hshows : Shows { session.line with filter := (shellInputFilter session.line.filter byte).2 } (cString session.line.text) :=
      ⟨h.shows.printable, h.shows.used, h.shows.array, h.shows.size⟩
    obtain ⟨⟨text, htext, hwritten⟩, hkept, hentries⟩ := act_spec hshows h.history fun _ => shellInputFilter_character
    have hstring := htext.cString
    refine ⟨?_, ?_, hkept, hentries.trans h.entries⟩
    · rw [← hstring] at htext
      exact htext
    · have hdisplay := h.display
      rw [if_neg hreturned, List.append_nil] at hdisplay
      have hall : TabOS.Shell.display (session.output ++ (shellLineFeed session.line session.history byte).2.2.2) =
          displayOn (TabOS.Shell.display session.output) (shellLineFeed session.line session.history byte).2.2.2 :=
        displayOn_append [] _ _
      refine hall.trans ?_
      rw [hdisplay]
      refine hwritten.trans ?_
      rw [← hstring]
      rfl

theorem displayed_feedAll {entries : List (List UInt8)} {session : Session} (h : Displayed entries session) (bytes : List UInt8) :
    Displayed entries (session.feedAll bytes) := by
  induction bytes generalizing session with
  | nil => exact h
  | cons byte bytes ih => exact ih (h.feed byte)

/-! ## The walk through the history -/

inductive Arrow where
  | up | down
  deriving DecidableEq, Repr

def Arrow.action : Arrow → Action
  | .up => .up
  | .down => .down

/-- The next position of a walk, which stays between the original text and the oldest entry. -/
def Arrow.move (count position : Nat) : Arrow → Nat
  | .up => min (position + 1) count
  | .down => position - 1

/-- The position after some arrows. -/
def walk (count : Nat) (arrows : List Arrow) : Nat := arrows.foldl (Arrow.move count) 0

/-- The actions of a stream of bytes. -/
def actions (filter : InputFilter) : List UInt8 → List Action
  | [] => []
  | byte :: bytes => (shellInputFilter filter byte).1 :: actions (shellInputFilter filter byte).2 bytes

/-- The session stands at a position of a walk from a text: the cursor is as far from the end, and the text is the entry there. -/
structure At (original : List UInt8) (position : Nat) (session : Session) : Prop where
  returned : session.returned = false
  cursor : session.history.cursor + position = session.history.entries.length
  text : (original :: session.history.entries.reverse)[position]? = some (cString session.line.text)
  draft : 0 < position → session.history.draft = original

theorem getElem?_reverse_of_add {entries : List (List UInt8)} {cursor position : Nat} (h : cursor + 1 + position = entries.length) :
    entries.reverse[position]? = entries[cursor]? := by
  rw [List.getElem?_reverse (by omega)]
  congr 1
  omega

/-- The session after a byte that the filter reads as an action. -/
theorem feed_of_action {session : Session} (hreturned : session.returned = false) {byte : UInt8} {action : Action}
    (hbyte : (shellInputFilter session.line.filter byte).1 = action) :
    session.feed byte =
      let acted := act { session.line with filter := (shellInputFilter session.line.filter byte).2 } session.history action
      ⟨acted.2.1, acted.2.2.1, session.output ++ acted.2.2.2, acted.1⟩ := by
  rw [Session.feed, if_neg (by rw [hreturned]; decide), shellLineFeed]
  dsimp only
  rw [hbyte]

/-- An action that is no key leaves the walk where it is. -/
theorem At.none {original : List UInt8} {position : Nat} {session : Session} (h : At original position session) {byte : UInt8}
    (hbyte : (shellInputFilter session.line.filter byte).1 = .none) : At original position (session.feed byte) := by
  have hfeed : session.feed byte =
      ⟨{ session.line with filter := (shellInputFilter session.line.filter byte).2 }, session.history, session.output ++ [], false⟩ :=
    feed_of_action h.returned hbyte
  rw [hfeed]
  exact ⟨rfl, h.cursor, h.text, h.draft⟩

theorem At.up {original : List UInt8} {position : Nat} {session : Session} (h : At original position session)
    (hhistory : Navigable session.history) {byte : UInt8} (hbyte : (shellInputFilter session.line.filter byte).1 = .up) :
    At original (min (position + 1) session.history.entries.length) (session.feed byte) := by
  have hcursor := h.cursor
  have hfeed : session.feed byte =
      ⟨(replaceLine { session.line with filter := (shellInputFilter session.line.filter byte).2 }
          (shellHistoryPrevious (cString session.line.text) session.history).1).1,
        (shellHistoryPrevious (cString session.line.text) session.history).2,
        session.output ++ (replaceLine { session.line with filter := (shellInputFilter session.line.filter byte).2 }
          (shellHistoryPrevious (cString session.line.text) session.history).1).2, false⟩ :=
    feed_of_action h.returned hbyte
  rw [hfeed]
  unfold shellHistoryPrevious
  by_cases holdest : session.history.cursor = 0
  · have hposition : min (position + 1) session.history.entries.length = position := by omega
    rw [if_pos holdest, hposition]
    exact ⟨rfl, h.cursor, h.text, h.draft⟩
  · have hposition : min (position + 1) session.history.entries.length = position + 1 := by omega
    have hlt : session.history.cursor - 1 < session.history.entries.length := by omega
    have hentry := List.getElem?_eq_getElem hlt
    have hprintable := hhistory.entry _ (List.mem_of_getElem? hentry)
    have hshown : cString (strcpy session.line.text session.history.entries[session.history.cursor - 1]) =
        session.history.entries[session.history.cursor - 1] := cString_append hprintable _
    have htext : (original :: session.history.entries.reverse)[position + 1]? =
        some (cString (strcpy session.line.text session.history.entries[session.history.cursor - 1])) := by
      have hold : session.history.entries.reverse[position]? = session.history.entries[session.history.cursor - 1]? :=
        getElem?_reverse_of_add (by omega)
      rw [hshown, List.getElem?_cons_succ, hold, hentry]
    rw [if_neg holdest, hposition]
    dsimp only
    split
    · rename_i hend
      have hzero : position = 0 := by omega
      rw [hentry]
      refine ⟨rfl, ?_, htext, fun _ => ?_⟩
      · dsimp only
        omega
      · have horiginal := h.text
        rw [hzero] at horiginal
        exact (Option.some.inj horiginal).symm
    · rw [hentry]
      refine ⟨rfl, ?_, htext, fun _ => h.draft (by omega)⟩
      dsimp only
      omega

theorem At.down {original : List UInt8} {position : Nat} {session : Session} (h : At original position session)
    (hhistory : Navigable session.history) (horiginal : Printable original) {byte : UInt8}
    (hbyte : (shellInputFilter session.line.filter byte).1 = .down) : At original (position - 1) (session.feed byte) := by
  have hcursor := h.cursor
  have hfeed : session.feed byte =
      ⟨(replaceLine { session.line with filter := (shellInputFilter session.line.filter byte).2 }
          (shellHistoryNext session.history).1).1, (shellHistoryNext session.history).2,
        session.output ++ (replaceLine { session.line with filter := (shellInputFilter session.line.filter byte).2 }
          (shellHistoryNext session.history).1).2, false⟩ :=
    feed_of_action h.returned hbyte
  rw [hfeed]
  unfold shellHistoryNext
  by_cases hnewest : session.history.cursor = session.history.entries.length
  · have hposition : position - 1 = position := by omega
    rw [if_pos hnewest, hposition]
    exact ⟨rfl, h.cursor, h.text, h.draft⟩
  · obtain ⟨position, rfl⟩ : ∃ before, position = before + 1 := ⟨position - 1, by omega⟩
    have hdraft := h.draft (Nat.succ_pos position)
    rw [if_neg hnewest, Nat.add_sub_cancel]
    dsimp only
    by_cases hend : session.history.cursor + 1 = session.history.entries.length
    · have hzero : position = 0 := by omega
      have hshown : cString (strcpy session.line.text original) = original := cString_append horiginal _
      rw [if_pos hend, hdraft, hzero]
      refine ⟨rfl, hend, ?_, fun _ => rfl⟩
      exact congrArg some hshown.symm
    · have hlt : session.history.cursor + 1 < session.history.entries.length := by omega
      have hentry := List.getElem?_eq_getElem hlt
      have hprintable := hhistory.entry _ (List.mem_of_getElem? hentry)
      have hshown : cString (strcpy session.line.text session.history.entries[session.history.cursor + 1]) =
          session.history.entries[session.history.cursor + 1] := cString_append hprintable _
      rw [if_neg hend, hentry]
      refine ⟨rfl, by dsimp only; omega, ?_, fun _ => hdraft⟩
      show (original :: session.history.entries.reverse)[position]? =
        some (cString (strcpy session.line.text session.history.entries[session.history.cursor + 1]))
      obtain ⟨position, rfl⟩ : ∃ before, position = before + 1 := ⟨position - 1, by omega⟩
      have hold : session.history.entries.reverse[position]? = session.history.entries[session.history.cursor + 1]? :=
        getElem?_reverse_of_add (by omega)
      rw [hshown, List.getElem?_cons_succ, hold, hentry]

theorem filter_act (line : Line) (history : History) (action : Action) : (act line history action).2.1.filter = line.filter := by
  have hreplace : ∀ replacement : Option (List UInt8), (replaceLine line replacement).1.filter = line.filter := by
    intro replacement
    cases replacement <;> rfl
  cases action with
  | none => rfl
  | enter => rfl
  | up => exact hreplace _
  | down => exact hreplace _
  | backspace =>
    dsimp only [act]
    split <;> rfl
  | character character =>
    dsimp only [act]
    split <;> rfl

/-- The filter of a line that has not ended is the one its bytes leave. -/
theorem filter_feed {session : Session} (hreturned : session.returned = false) (byte : UInt8) :
    (session.feed byte).line.filter = (shellInputFilter session.line.filter byte).2 := by
  rw [feed_of_action hreturned rfl]
  exact filter_act _ _ _

/-- A session that stands in a walk, and moves by arrows and bytes that are no action, stands where the arrows lead. -/
theorem At.feedAll {original : List UInt8} (horiginal : Printable original) {entries : List (List UInt8)} {position : Nat}
    {session : Session} (h : At original position session) (hdisplayed : Displayed entries session) {bytes : List UInt8}
    {arrows : List Arrow} (hbytes : (actions session.line.filter bytes).filter (· ≠ .none) = arrows.map Arrow.action) :
    At original (arrows.foldl (Arrow.move entries.length) position) (session.feedAll bytes) := by
  induction bytes generalizing session position arrows with
  | nil =>
    obtain rfl := List.map_eq_nil_iff.1 hbytes.symm
    exact h
  | cons byte bytes ih =>
    have hnext := hdisplayed.feed byte
    have hfilter := filter_feed h.returned byte
    have hlength : session.history.entries.length = entries.length := by rw [hdisplayed.entries]
    rw [actions, List.filter_cons] at hbytes
    show At original _ ((session.feed byte).feedAll bytes)
    by_cases hnone : (shellInputFilter session.line.filter byte).1 = .none
    · rw [if_neg (by rw [hnone]; decide), ← hfilter] at hbytes
      exact ih (h.none hnone) hnext hbytes
    · rw [if_pos (decide_eq_true hnone), ← hfilter] at hbytes
      cases arrows with
      | nil => exact absurd hbytes (List.cons_ne_nil _ _)
      | cons arrow arrows =>
        obtain ⟨hbyte, hrest⟩ := List.cons.inj hbytes
        cases arrow with
        | up =>
          have hmoved := h.up hdisplayed.history hbyte
          rw [hlength] at hmoved
          exact ih hmoved hnext hrest
        | down => exact ih (h.down hdisplayed.history horiginal hbyte) hnext hrest

/-- The bytes that the terminal sends for an arrow. -/
def Arrow.bytes : Arrow → List UInt8
  | .up => [0x1b, 0x5b, 0x41]
  | .down => [0x1b, 0x5b, 0x42]

/-- The arrow keys are read as the arrows, from any filter that reads text. -/
theorem actions_arrows (arrows : List Arrow) {filter : InputFilter} (htext : filter.state = .text) :
    (actions filter (arrows.flatMap Arrow.bytes)).filter (· ≠ .none) = arrows.map Arrow.action := by
  induction arrows generalizing filter with
  | nil => rfl
  | cons arrow arrows ih =>
    obtain ⟨state, parameters⟩ := filter
    obtain rfl : state = .text := htext
    cases arrow with
    | up => exact congrArg (Action.up :: ·) (ih rfl)
    | down => exact congrArg (Action.down :: ·) (ih rfl)

/-- Whatever bytes are fed to a reset line, its length is that of its text and there is room for its end; the output displays the text,
the entries stay, and arrows walk from a line that is not navigated to the entry as far behind the newest, or back to the text. -/
theorem line_editing {history : History} (hhistory : Valid history) (bytes : List UInt8) :
    let session := (start history).feedAll bytes
    session.line.used = (cString session.line.text).length ∧ session.line.used < lineCapacity ∧
    session.line.text.length = lineCapacity ∧
    display session.output = cString session.line.text ++ (if session.returned then [0x0a] else []) ∧
    session.history.entries = history.entries ∧
    (session.returned = false → session.history.cursor = history.entries.length →
      ∀ (more : List UInt8) (arrows : List Arrow),
        (actions session.line.filter more).filter (· ≠ .none) = arrows.map Arrow.action →
        (session.feedAll more).returned = false ∧
        (cString session.line.text :: history.entries.reverse)[walk history.entries.length arrows]? =
          some (cString (session.feedAll more).line.text)) := by
  intro session
  have hdisplayed : Displayed history.entries session := displayed_feedAll (displayed_start hhistory) bytes
  refine ⟨hdisplayed.shows.used, ?_, hdisplayed.shows.size, hdisplayed.display, hdisplayed.entries, ?_⟩
  · rw [hdisplayed.shows.used]
    exact hdisplayed.shows.printable.2
  · intro hreturned hcursor more arrows hmore
    have hstands : At (cString session.line.text) 0 session :=
      ⟨hreturned, by rw [hcursor, hdisplayed.entries, Nat.add_zero], rfl, fun hlt => absurd hlt (Nat.lt_irrefl 0)⟩
    have hmoved := hstands.feedAll hdisplayed.shows.printable hdisplayed hmore
    have hentries := (displayed_feedAll hdisplayed more).entries
    refine ⟨hmoved.returned, ?_⟩
    rw [← hentries, walk]
    rw [← hentries] at hmoved
    exact hmoved.text

/-- After `x` was typed, the up key recalls the only entry, and the down key brings `x` back. -/
theorem line_editing_recall :
    cString (((start (addAll .empty [[0x61]])).feedAll [0x78]).feedAll [0x1b, 0x5b, 0x41]).line.text = [0x61] ∧
    cString (((start (addAll .empty [[0x61]])).feedAll [0x78]).feedAll [0x1b, 0x5b, 0x41, 0x1b, 0x5b, 0x42]).line.text = [0x78] := by
  have hwalk := (line_editing (valid_addAll [[0x61]]) [0x78]).2.2.2.2.2 rfl rfl
  have hrecalled := (hwalk [0x1b, 0x5b, 0x41] [.up] rfl).2
  have hreturned := (hwalk [0x1b, 0x5b, 0x41, 0x1b, 0x5b, 0x42] [.up, .down] rfl).2
  exact ⟨(Option.some.inj hrecalled).symm, (Option.some.inj hreturned).symm⟩

end Shell
end TabOS
