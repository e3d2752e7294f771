import TabOS.Shell.Line

/-!
# Keys of the shell

`shell_input_filter` of `apps/shell/src/input.c` takes the bytes of the terminal one by one and says what the shell does with each. It is
compared with a decoder that starts a new sequence at every escape: an escape that follows another one makes `shell_input_filter` leave
the sequence, and what follows is taken for text.
-/

namespace TabOS
namespace Shell

/-- The escape byte. -/
abbrev esc : UInt8 := 0x1B

/-- A byte that introduces a control string. -/
abbrev StringStart (input : UInt8) : Prop := input = 0x5D ∨ input = 0x50 ∨ input = 0x58 ∨ input = 0x5E ∨ input = 0x5F

/-- The filter of a shell that starts. -/
def InputFilter.start : InputFilter := ⟨.text, false⟩

/-! ## The sequences of a stream -/

/-- Where a stream is: in the text, in an escape sequence with or without bytes since its escape, in a control sequence that an escape
introduced at once or not, with or without parameters, or in a control string. -/
inductive Place where
  | text
  | escape (bare : Bool)
  | csi (bare : Bool) (parameters : Bool)
  | string
  | stringEscape
  deriving DecidableEq

/-- The place after a byte; an escape in an escape sequence or a control sequence starts a new one. -/
def Place.next : Place → UInt8 → Place
  | .text, input => if input = esc then .escape true else .text
  | .escape bare, input =>
    if input = esc then .escape true
    else if input = 0x5B then .csi bare false
    else if StringStart input then .string
    else if input ≥ 0x20 ∧ input ≤ 0x2F then .escape false
    else .text
  | .csi bare _, input => if input = esc then .escape true else if input ≥ 0x40 ∧ input ≤ 0x7E then .text else .csi bare true
  | .string, input => if input = 0x07 then .text else if input = esc then .stringEscape else .string
  | .stringEscape, input => if input = 0x5C then .text else if input = esc then .stringEscape else .string

/-- What a byte of the text means. -/
def textAction (input : UInt8) : Action :=
  if input = 0x0A then .enter
  else if input = 0x08 then .backspace
  else if input ≥ 0x20 ∧ input ≤ 0x7E then .character input
  else .none

/-- What a byte means at a place: the bytes of sequences mean nothing, but for the last byte of the two for the cursor. -/
def Place.action : Place → UInt8 → Action
  | .text, input => textAction input
  | .csi true false, input => if input = 0x41 then .up else if input = 0x42 then .down else .none
  | _, _ => .none

/-- What the bytes of a stream mean. -/
def meanings (place : Place) : List UInt8 → List Action
  | [] => []
  | input :: inputs => place.action input :: meanings (place.next input) inputs

/-! ## The streams that are understood -/

/-- A place, and whether the last byte is the second escape of a pair in one escape sequence. -/
structure Scan where
  place : Place
  doubled : Bool

def Scan.start : Scan := ⟨.text, false⟩

/-- The place is in an escape sequence. -/
def Place.inEscape : Place → Bool
  | .escape _ => true
  | _ => false

def Scan.next (scan : Scan) (input : UInt8) : Scan :=
  ⟨scan.place.next input, decide (scan.place.inEscape = true ∧ input = esc ∧ scan.doubled = false)⟩

/-- A byte that is understood: behind a second escape it means nothing as text, and it does not end a control sequence without parameters
that had bytes before its bracket as one for the cursor. -/
def Scan.Understood (scan : Scan) (input : UInt8) : Prop :=
  (scan.doubled = true → textAction input = .none) ∧ (scan.place = .csi false false → input ≠ 0x41 ∧ input ≠ 0x42)

def Understood (scan : Scan) : List UInt8 → Prop
  | [] => True
  | input :: inputs => scan.Understood input ∧ Understood (scan.next input) inputs

/-- The filter is where the stream is, or it has left an escape sequence at the second escape of a pair. -/
inductive Follows : InputFilter → Scan → Prop
  | text (parameters : Bool) : Follows ⟨.text, parameters⟩ ⟨.text, false⟩
  | escape (parameters bare : Bool) : Follows ⟨.escape, parameters⟩ ⟨.escape bare, false⟩
  | doubled (parameters : Bool) : Follows ⟨.text, parameters⟩ ⟨.escape true, true⟩
  | csi (bare parameters : Bool) : Follows ⟨.csi, parameters⟩ ⟨.csi bare parameters, false⟩
  | string (parameters : Bool) : Follows ⟨.string, parameters⟩ ⟨.string, false⟩
  | stringEscape (parameters : Bool) : Follows ⟨.stringEscape, parameters⟩ ⟨.stringEscape, false⟩

theorem textAction_eq_none {input : UInt8} :
    textAction input = .none ↔ input ≠ 0x0A ∧ input ≠ 0x08 ∧ ¬(input ≥ 0x20 ∧ input ≤ 0x7E) := by
  unfold textAction
  split
  · rename_i h
    exact iff_of_false (by simp) fun hnone => hnone.1 h
  split
  · rename_i h
    exact iff_of_false (by simp) fun hnone => hnone.2.1 h
  split
  · rename_i h
    exact iff_of_false (by simp) fun hnone => hnone.2.2 h
  · rename_i h₁ h₂ h₃
    exact iff_of_true rfl ⟨h₁, h₂, h₃⟩

/-- A byte of the text. -/
theorem filter_text (parameters : Bool) (input : UInt8) (h : input ≠ esc) :
    shellInputFilter ⟨.text, parameters⟩ input = (textAction input, ⟨.text, parameters⟩) := by
  unfold shellInputFilter textAction
  dsimp only
  rw [if_neg h]
  split
  · rfl
  split
  · rfl
  split <;> rfl

theorem filter_text_esc (parameters : Bool) : shellInputFilter ⟨.text, parameters⟩ esc = (.none, ⟨.escape, parameters⟩) := rfl

theorem next_of_ne {input : UInt8} (h : input ≠ esc) (scan : Scan) : scan.next input = ⟨scan.place.next input, false⟩ := by
  unfold Scan.next
  rw [decide_eq_false fun hescape => h hescape.2.1]

theorem Scan.understood_iff_of_doubled {scan : Scan} (hdoubled : scan.doubled = true) (hplace : scan.place ≠ .csi false false)
    (input : UInt8) : scan.Understood input ↔ textAction input = .none :=
  ⟨fun h => h.1 hdoubled, fun h => ⟨fun _ => h, fun hcsi => absurd hcsi hplace⟩⟩

/-- A byte that means nothing as text ends an escape sequence. -/
theorem next_escape_of_silent {input : UInt8} (hesc : input ≠ esc) (h : textAction input = .none) (bare : Bool) :
    Place.next (.escape bare) input = .text := by
  obtain ⟨-, -, hprintable⟩ := textAction_eq_none.1 h
  have hne (value : UInt8) (hvalue : value ≥ 0x20 ∧ value ≤ 0x7E) : input ≠ value := fun heq => hprintable (heq ▸ hvalue)
  have hstring : ¬StringStart input := by
    rintro (h | h | h | h | h)
    all_goals exact hne _ (by decide) h
  unfold Place.next
  dsimp only
  rw [if_neg hesc, if_neg (hne 0x5B (by decide)), if_neg hstring]
  refine if_neg fun hrange => hprintable ⟨hrange.1, ?_⟩
  exact UInt8.le_trans hrange.2 (by decide)

/-- A place at which every byte is understood, and what follows. -/
theorem Follows.step_of_eq {filter : InputFilter} {scan : Scan} {input : UInt8} {filter' : InputFilter} {action : Action}
    (hunderstood : scan.Understood input) (hfilter : shellInputFilter filter input = (action, filter'))
    (haction : scan.place.action input = action) (hnext : Follows filter' (scan.next input)) :
    ((shellInputFilter filter input).1 = scan.place.action input ↔ scan.Understood input) ∧
      (scan.Understood input → Follows (shellInputFilter filter input).2 (scan.next input)) := by
  rw [hfilter]
  exact ⟨iff_of_true haction.symm hunderstood, fun _ => hnext⟩

theorem filter_escape (parameters bare : Bool) (input : UInt8) :
    ∃ filter', shellInputFilter ⟨.escape, parameters⟩ input = (.none, filter') ∧
      Follows filter' (Scan.next ⟨.escape bare, false⟩ input) := by
  by_cases hesc : input = esc
  · rw [hesc]
    exact ⟨⟨.text, parameters⟩, rfl, .doubled parameters⟩
  rw [next_of_ne hesc]
  unfold shellInputFilter Place.next
  dsimp only
  rw [if_neg hesc]
  by_cases hbracket : input = 0x5B
  · rw [if_pos hbracket, if_pos hbracket]
    exact ⟨_, rfl, .csi bare false⟩
  by_cases hstring : StringStart input
  · rw [if_neg hbracket, if_pos hstring, if_neg hbracket, if_pos hstring]
    exact ⟨_, rfl, .string parameters⟩
  rw [if_neg hbracket, if_neg hstring, if_neg hbracket, if_neg hstring]
  by_cases hout : input < 0x20 ∨ input > 0x2F
  · have hnot : ¬(input ≥ 0x20 ∧ input ≤ 0x2F) := fun h =>
      hout.elim (fun hlow => UInt8.not_lt.2 h.1 hlow) fun hhigh => UInt8.not_lt.2 h.2 hhigh
    rw [if_pos hout, if_neg hnot]
    exact ⟨_, rfl, .text parameters⟩
  · obtain ⟨hlow, hhigh⟩ := not_or.1 hout
    rw [if_neg hout, if_pos ⟨UInt8.not_lt.1 hlow, UInt8.not_lt.1 hhigh⟩]
    exact ⟨_, rfl, .escape parameters false⟩

theorem filter_string (parameters : Bool) (input : UInt8) :
    ∃ filter', shellInputFilter ⟨.string, parameters⟩ input = (.none, filter') ∧ Follows filter' (Scan.next ⟨.string, false⟩ input) := by
  by_cases hesc : input = esc
  · rw [hesc]
    exact ⟨⟨.stringEscape, parameters⟩, rfl, .stringEscape parameters⟩
  rw [next_of_ne hesc]
  unfold shellInputFilter Place.next
  dsimp only
  by_cases hbell : input = 0x07
  · rw [if_pos hbell, if_pos hbell]
    exact ⟨_, rfl, .text parameters⟩
  · rw [if_neg hbell, if_neg hesc, if_neg hbell, if_neg hesc]
    exact ⟨_, rfl, .string parameters⟩

theorem filter_stringEscape (parameters : Bool) (input : UInt8) :
    ∃ filter', shellInputFilter ⟨.stringEscape, parameters⟩ input = (.none, filter') ∧
      Follows filter' (Scan.next ⟨.stringEscape, false⟩ input) := by
  by_cases hesc : input = esc
  · rw [hesc]
    exact ⟨⟨.stringEscape, parameters⟩, rfl, .stringEscape parameters⟩
  rw [next_of_ne hesc]
  unfold shellInputFilter Place.next
  dsimp only
  by_cases hend : input = 0x5C
  · rw [if_pos hend, if_pos hend]
    exact ⟨_, rfl, .text parameters⟩
  · rw [if_neg hend, if_pos hesc, if_neg hend, if_neg hesc]
    exact ⟨_, rfl, .string parameters⟩

/-- The last byte of a control sequence. -/
theorem filter_csi_end (parameters : Bool) {input : UInt8} (hend : input ≥ 0x40 ∧ input ≤ 0x7E) :
    shellInputFilter ⟨.csi, parameters⟩ input = (Place.action (.csi true parameters) input, ⟨.text, parameters⟩) := by
  have hesc : input ≠ esc := fun h => absurd (h ▸ hend.1) (by decide)
  unfold shellInputFilter
  dsimp only
  rw [if_neg hesc, if_pos hend]
  cases parameters with
  | true =>
    rw [if_neg fun h => Bool.noConfusion h.1, if_neg fun h => Bool.noConfusion h.1]
    rfl
  | false =>
    unfold Place.action
    dsimp only
    by_cases hup : input = 0x41
    · rw [if_pos ⟨rfl, hup⟩, if_pos hup]
    rw [if_neg fun h => hup h.2, if_neg hup]
    by_cases hdown : input = 0x42
    · rw [if_pos ⟨rfl, hdown⟩, if_pos hdown]
    · rw [if_neg fun h => hdown h.2, if_neg hdown]

/-- The last byte of a control sequence is understood when the filter takes it for what it means. -/
theorem action_csi_end (bare parameters : Bool) (input : UInt8) :
    Place.action (.csi true parameters) input = Place.action (.csi bare parameters) input ↔
      Scan.Understood ⟨.csi bare parameters, false⟩ input := by
  cases bare with
  | true => exact iff_of_true rfl ⟨fun h => (nomatch h), fun h => (nomatch h)⟩
  | false =>
    cases parameters with
    | true => exact iff_of_true rfl ⟨fun h => (nomatch h), fun h => (nomatch h)⟩
    | false =>
      unfold Scan.Understood Place.action
      dsimp only
      by_cases hup : input = 0x41
      · rw [if_pos hup]
        exact iff_of_false (by decide) fun h => (h.2 rfl).1 hup
      rw [if_neg hup]
      by_cases hdown : input = 0x42
      · rw [if_pos hdown]
        exact iff_of_false (by decide) fun h => (h.2 rfl).2 hdown
      · rw [if_neg hdown]
        exact iff_of_true rfl ⟨fun h => (nomatch h), fun _ => ⟨hup, hdown⟩⟩

theorem Follows.step_csi (bare parameters : Bool) (input : UInt8) :
    ((shellInputFilter ⟨.csi, parameters⟩ input).1 = Place.action (.csi bare parameters) input ↔
        Scan.Understood ⟨.csi bare parameters, false⟩ input) ∧
      (Scan.Understood ⟨.csi bare parameters, false⟩ input →
        Follows (shellInputFilter ⟨.csi, parameters⟩ input).2 (Scan.next ⟨.csi bare parameters, false⟩ input)) := by
  by_cases hesc : input = esc
  · rw [hesc]
    have hunderstood : Scan.Understood ⟨.csi bare parameters, false⟩ esc := ⟨fun h => (nomatch h), fun _ => by decide⟩
    have haction : Place.action (.csi bare parameters) esc = .none := by cases bare <;> cases parameters <;> rfl
    exact step_of_eq hunderstood rfl haction (.escape parameters true)
  rw [next_of_ne hesc]
  unfold Place.next
  dsimp only
  rw [if_neg hesc]
  by_cases hend : input ≥ 0x40 ∧ input ≤ 0x7E
  · rw [filter_csi_end parameters hend, if_pos hend]
    exact ⟨action_csi_end bare parameters input, fun _ => .text parameters⟩
  · have hfilter : shellInputFilter ⟨.csi, parameters⟩ input = (.none, ⟨.csi, true⟩) := by
      unfold shellInputFilter
      dsimp only
      rw [if_neg hesc, if_neg hend]
    have hne : input ≠ 0x41 ∧ input ≠ 0x42 := ⟨fun h => hend (h ▸ by decide), fun h => hend (h ▸ by decide)⟩
    have haction : Place.action (.csi bare parameters) input = .none := by
      cases bare with
      | false => rfl
      | true =>
        cases parameters with
        | true => rfl
        | false => exact (if_neg hne.1).trans (if_neg hne.2)
    rw [hfilter, if_neg hend]
    exact ⟨iff_of_true haction.symm ⟨fun h => (nomatch h), fun _ => hne⟩, fun _ => .csi bare true⟩

/-- What a byte does to a filter that follows the stream. -/
theorem Follows.step {filter : InputFilter} {scan : Scan} (h : Follows filter scan) (input : UInt8) :
    ((shellInputFilter filter input).1 = scan.place.action input ↔ scan.Understood input) ∧
      (scan.Understood input → Follows (shellInputFilter filter input).2 (scan.next input)) := by
  cases h with
  | text parameters =>
    have hunderstood : Scan.Understood ⟨.text, false⟩ input := ⟨fun h => (nomatch h), fun h => (nomatch h)⟩
    by_cases hesc : input = esc
    · rw [hesc] at hunderstood ⊢
      exact step_of_eq hunderstood (filter_text_esc parameters) rfl (.escape parameters true)
    · refine step_of_eq hunderstood (filter_text parameters input hesc) rfl ?_
      rw [next_of_ne hesc]
      unfold Place.next
      dsimp only
      rw [if_neg hesc]
      exact .text parameters
  | escape parameters bare =>
    have hunderstood : Scan.Understood ⟨.escape bare, false⟩ input := ⟨fun h => (nomatch h), fun h => (nomatch h)⟩
    obtain ⟨filter', hfilter, hnext⟩ := filter_escape parameters bare input
    exact step_of_eq hunderstood hfilter rfl hnext
  | doubled parameters =>
    have hiff := @Scan.understood_iff_of_doubled ⟨.escape true, true⟩ rfl (by decide) input
    rw [hiff]
    by_cases hesc : input = esc
    · rw [hesc]
      exact ⟨iff_of_true rfl (by decide), fun _ => .escape parameters true⟩
    · rw [filter_text parameters input hesc, next_of_ne hesc]
      refine ⟨Iff.rfl, fun hsilent => ?_⟩
      dsimp only
      rw [next_escape_of_silent hesc hsilent]
      exact .text parameters
  | csi bare parameters => exact step_csi bare parameters input
  | string parameters =>
    have hunderstood : Scan.Understood ⟨.string, false⟩ input := ⟨fun h => (nomatch h), fun h => (nomatch h)⟩
    obtain ⟨filter', hfilter, hnext⟩ := filter_string parameters input
    exact step_of_eq hunderstood hfilter rfl hnext
  | stringEscape parameters =>
    have hunderstood : Scan.Understood ⟨.stringEscape, false⟩ input := ⟨fun h => (nomatch h), fun h => (nomatch h)⟩
    obtain ⟨filter', hfilter, hnext⟩ := filter_stringEscape parameters input
    exact step_of_eq hunderstood hfilter rfl hnext

/-- A filter that follows a stream gives its meanings when and only when every byte is understood. -/
theorem Follows.actions {filter : InputFilter} {scan : Scan} (h : Follows filter scan) (stream : List UInt8) :
    actions filter stream = meanings scan.place stream ↔ Understood scan stream := by
  induction stream generalizing filter scan with
  | nil => exact iff_of_true rfl trivial
  | cons input inputs ih =>
    obtain ⟨hiff, hnext⟩ := h.step input
    constructor
    · intro heq
      obtain ⟨haction, hrest⟩ := List.cons.inj heq
      have hunderstood := hiff.1 haction
      exact ⟨hunderstood, (ih (hnext hunderstood)).1 hrest⟩
    · rintro ⟨hunderstood, hrest⟩
      exact List.cons_eq_cons.2 ⟨hiff.2 hunderstood, (ih (hnext hunderstood)).2 hrest⟩

/-- The actions of the shell are what the bytes of a stream mean when and only when every byte is understood. -/
theorem keys_are_decoded (stream : List UInt8) :
    actions .start stream = meanings .text stream ↔ Understood .start stream :=
  (Follows.text false).actions stream

/-- The sequence for the cursor, with its escape doubled, is taken for text. -/
theorem doubled_escape_leaks : actions .start [esc, esc, 0x5B, 0x41] ≠ meanings .text [esc, esc, 0x5B, 0x41] := by
  decide

end Shell
end TabOS
