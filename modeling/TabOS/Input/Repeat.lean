import TabOS.Input.Gaps
import Mathlib.Data.Finset.Basic
import Mathlib.Data.Finset.Card

/-!
# The held key

The account of held keys counts the keys that are set. The key that repeats is the last one that went down, under the logical key that
entered the queue for it, until it goes up or the input is reset. An event that is marked as a repetition is ignored, whatever it says.
-/

namespace TabOS
namespace Input

/-! ## What was pressed -/

/-- The event of an operation that is a press of a key other than a modifier. -/
def pressOf : Operation → Option InputEvent
  | .submit event _ =>
    if event.repeated = false ∧ event.type = .keyDown ∧ modifierKey event.key = false then some event else none
  | _ => none

/-- The last press. -/
def lastPress (operations : List Operation) : Option InputEvent := (operations.filterMap pressOf).getLast?

/-- An operation is a reset, or the release of the key that was pressed last. -/
def Releases (before : List Operation) : Operation → Prop
  | .submit event _ => event.repeated = false ∧ event.type = .keyUp ∧ (lastPress before).map InputEvent.key = some event.key
  | .reset _ => True
  | _ => False

/-- The events that enter the queue with an operation. -/
def enqueuedBy (s : InputState) (operation : Operation) : List InputEvent := (step s operation).events.drop s.events.length

theorem lastPress_concat_some {operations : List Operation} {operation : Operation} {press : InputEvent}
    (h : pressOf operation = some press) : lastPress (operations ++ [operation]) = some press := by
  unfold lastPress
  rw [List.filterMap_append, List.filterMap_cons_some h, List.filterMap_nil, List.getLast?_concat]

theorem lastPress_concat_none {operations : List Operation} {operation : Operation} (h : pressOf operation = none) :
    lastPress (operations ++ [operation]) = lastPress operations := by
  unfold lastPress
  rw [List.filterMap_append, List.filterMap_cons_none h, List.filterMap_nil, List.append_nil]

/-! ## The account of held keys -/

/-- The set entries of `power_keys`. -/
def setKeys (keys : Nat → Bool) : Finset Nat := (Finset.range (keySym + 1)).filter fun key => keys key = true

theorem mem_setKeys {keys : Nat → Bool} {key : Nat} : key ∈ setKeys keys ↔ key < keySym + 1 ∧ keys key = true := by
  rw [setKeys, Finset.mem_filter, Finset.mem_range]

theorem setKeys_down {keys : Nat → Bool} {key : Nat} (h : keys key = false) (hkey : key ≤ keySym) :
    (setKeys (Function.update keys key true)).card = (setKeys keys).card + 1 := by
  have hnew : key ∉ setKeys keys := fun hin => Bool.false_ne_true (h.symm.trans (mem_setKeys.mp hin).2)
  have hinsert : setKeys (Function.update keys key true) = insert key (setKeys keys) := by
    ext other
    rw [Finset.mem_insert, mem_setKeys, mem_setKeys]
    by_cases hother : other = key
    · subst hother
      rw [Function.update_self]
      exact iff_of_true ⟨Nat.lt_succ_of_le hkey, rfl⟩ (Or.inl rfl)
    · rw [Function.update_of_ne hother]
      exact (or_iff_right hother).symm
  rw [hinsert, Finset.card_insert_of_notMem hnew]

theorem setKeys_up {keys : Nat → Bool} {key : Nat} (h : keys key = true) (hkey : key ≤ keySym) :
    (setKeys (Function.update keys key false)).card = (setKeys keys).card - 1 := by
  have hold : key ∈ setKeys keys := mem_setKeys.mpr ⟨Nat.lt_succ_of_le hkey, h⟩
  have herase : setKeys (Function.update keys key false) = (setKeys keys).erase key := by
    ext other
    rw [Finset.mem_erase, mem_setKeys, mem_setKeys]
    by_cases hother : other = key
    · subst hother
      rw [Function.update_self]
      exact iff_of_false (fun hset => Bool.false_ne_true hset.2) fun hset => hset.1 rfl
    · rw [Function.update_of_ne hother]
      exact (and_iff_right hother).symm
  rw [herase, Finset.card_erase_of_mem hold]

/-- What holds of the held key and the account after some operations. -/
structure Held (operations : List Operation) (s : InputState) : Prop where
  count : s.powerHeldCount = (setKeys s.powerKeys).card
  down : keyUnknown < s.heldKey → s.heldKey ≤ keySym → s.powerKeys s.heldKey = true
  press : s.heldKey ≠ keyUnknown →
    ∃ event, lastPress operations = some event ∧ s.heldKey = event.key ∧ s.heldBinding = bindLogical event

/-- The states have the same held key and account. -/
structure SameHeld (s t : InputState) : Prop where
  key : t.heldKey = s.heldKey
  binding : t.heldBinding = s.heldBinding
  keys : t.powerKeys = s.powerKeys
  count : t.powerHeldCount = s.powerHeldCount

namespace SameHeld

variable {s t u : InputState}

theorem refl (s : InputState) : SameHeld s s := ⟨rfl, rfl, rfl, rfl⟩

theorem trans (h : SameHeld s t) (h' : SameHeld t u) : SameHeld s u :=
  ⟨h'.key.trans h.key, h'.binding.trans h.binding, h'.keys.trans h.keys, h'.count.trans h.count⟩

theorem enqueue (s : InputState) (event : InputEvent) : SameHeld s (enqueue s event) := by
  unfold Input.enqueue append makeRoom changeGeneration
  split <;> exact ⟨rfl, rfl, rfl, rfl⟩

theorem update (s : InputState) (now : Nat) : SameHeld s (inputUpdate s now) := by
  unfold inputUpdate
  split
  · exact refl s
  · have htext (s : InputState) : SameHeld s (repeatText s) := by
      unfold repeatText
      split
      · exact enqueue _ _
      · exact refl _
    have hpolled : SameHeld s { s with repeatTimer := s.repeatTimer.poll now } := ⟨rfl, rfl, rfl, rfl⟩
    exact (hpolled.trans (enqueue _ (repeatedKey _))).trans (htext _)

end SameHeld

section Invariant

variable {operations : List Operation} {s t : InputState}

theorem Held.same (h : Held operations s) (hsame : SameHeld s t) : Held operations t := by
  obtain ⟨hkey, hbinding, hkeys, hcount⟩ := hsame
  refine ⟨?_, ?_, ?_⟩
  · rw [hcount, hkeys]
    exact h.count
  · rw [hkey, hkeys]
    exact h.down
  · rw [hkey, hbinding]
    exact h.press

/-- An operation that is no press leaves the last press. -/
theorem Held.concat {operation : Operation} (h : Held operations s) (hpress : pressOf operation = none) :
    Held (operations ++ [operation]) s :=
  ⟨h.count, h.down, fun hheld => by
    rw [lastPress_concat_none hpress]
    exact h.press hheld⟩

/-- No key is held. -/
theorem Held.of_unknown (hcount : t.powerHeldCount = (setKeys t.powerKeys).card) (hkey : t.heldKey = keyUnknown) :
    Held operations t :=
  ⟨hcount, fun hpos => absurd hpos (by rw [hkey]; exact lt_irrefl _), fun hne => absurd hkey hne⟩

/-! ### Submitting an event -/

theorem trackPower_key (s : InputState) (event : InputEvent) :
    (trackPower s event).heldKey = s.heldKey ∧ (trackPower s event).heldBinding = s.heldBinding := by
  rw [trackPower]
  simp only [setPowerKey]
  split_ifs <;> exact ⟨rfl, rfl⟩

theorem setPowerKey_spec {key : Nat} (down : Bool) (hcount : s.powerHeldCount = (setKeys s.powerKeys).card) (hkey : key ≤ keySym) :
    (setPowerKey s key down).powerHeldCount = (setKeys (setPowerKey s key down).powerKeys).card ∧
      (setPowerKey s key down).powerKeys = Function.update s.powerKeys key down := by
  unfold setPowerKey
  split
  · next hsame =>
    refine ⟨hcount, ?_⟩
    rw [← hsame, Function.update_eq_self]
  · next hdiffer =>
    refine ⟨?_, rfl⟩
    cases down with
    | false =>
      rw [setKeys_up (Bool.eq_true_of_not_eq_false hdiffer) hkey, ← hcount]
      rfl
    | true =>
      rw [setKeys_down (Bool.eq_false_of_not_eq_true hdiffer) hkey, ← hcount]
      rfl

/-- The account after an event: a known key is as the event says, and the others are as they were. -/
theorem trackPower_spec (event : InputEvent) (hcount : s.powerHeldCount = (setKeys s.powerKeys).card) :
    (trackPower s event).powerHeldCount = (setKeys (trackPower s event).powerKeys).card ∧
      (trackPower s event).powerKeys =
        if event.isKey ∧ event.key > keyUnknown ∧ event.key ≤ keySym then
          Function.update s.powerKeys event.key (decide (event.type = .keyDown))
        else s.powerKeys := by
  unfold trackPower
  by_cases hkey : event.isKey
  · by_cases hknown : event.key > keyUnknown ∧ event.key ≤ keySym
    · rw [if_pos hkey, if_pos (show event.isKey ∧ _ from ⟨hkey, hknown⟩)]
      dsimp only
      rw [if_pos hknown]
      exact setPowerKey_spec (s := { s with powerActivityPending := true }) _ hcount hknown.2
    · rw [if_pos hkey, if_neg (show ¬(event.isKey ∧ _) from fun hboth => hknown hboth.2)]
      dsimp only
      rw [if_neg hknown]
      split_ifs <;> exact ⟨hcount, rfl⟩
  · rw [if_neg hkey, if_neg (show ¬(event.isKey ∧ _) from fun hboth => hkey hboth.1)]
    exact ⟨hcount, rfl⟩

theorem trackHeld_power (s : InputState) (event : InputEvent) (now : Nat) :
    (trackHeld s event now).powerKeys = s.powerKeys ∧ (trackHeld s event now).powerHeldCount = s.powerHeldCount := by
  unfold trackHeld refreshHeldRepeat
  split_ifs <;> exact ⟨rfl, rfl⟩

/-- The held key after an event that is no press: it is as it was, and not released by the event, or no key is held. -/
theorem trackHeld_cases {event : InputEvent} (now : Nat) (hpress : ¬(event.type = .keyDown ∧ modifierKey event.key = false)) :
    (trackHeld s event now).heldBinding = s.heldBinding ∧
      ((trackHeld s event now).heldKey = keyUnknown ∨
        (trackHeld s event now).heldKey = s.heldKey ∧ ¬(event.type = .keyUp ∧ event.key = s.heldKey)) := by
  unfold trackHeld
  rw [if_neg hpress]
  split
  · exact ⟨rfl, Or.inl rfl⟩
  · next hother =>
    unfold refreshHeldRepeat
    split_ifs <;> exact ⟨rfl, Or.inr ⟨rfl, hother⟩⟩

theorem Held.press_submit (h : Held operations s) {event : InputEvent} {now : Nat} (hpress : pressOf (.submit event now) = some event)
    (hdown : event.type = .keyDown ∧ modifierKey event.key = false) :
    Held (operations ++ [.submit event now]) (trackHeld (trackPower s event) event now) := by
  obtain ⟨hcount, hkeys⟩ := trackPower_spec event h.count
  obtain ⟨hpowerKeys, hpowerCount⟩ := trackHeld_power (trackPower s event) event now
  have hheld : (trackHeld (trackPower s event) event now).heldKey = event.key ∧
      (trackHeld (trackPower s event) event now).heldBinding = bindLogical event := by
    unfold trackHeld
    rw [if_pos hdown]
    exact ⟨rfl, rfl⟩
  refine ⟨?_, fun hpos hle => ?_, fun _ => ⟨event, lastPress_concat_some hpress, hheld.1, hheld.2⟩⟩
  · rw [hpowerCount, hpowerKeys]
    exact hcount
  · rw [hheld.1] at hpos hle ⊢
    rw [hpowerKeys, hkeys, if_pos ⟨Or.inl hdown.1, hpos, hle⟩, Function.update_self]
    exact decide_eq_true hdown.1

theorem Held.other_submit (h : Held operations s) {event : InputEvent} (now : Nat)
    (hpress : ¬(event.type = .keyDown ∧ modifierKey event.key = false)) :
    Held operations (trackHeld (trackPower s event) event now) := by
  obtain ⟨hcount, hkeys⟩ := trackPower_spec event h.count
  obtain ⟨hpowerKeys, hpowerCount⟩ := trackHeld_power (trackPower s event) event now
  obtain ⟨hkey, hbinding⟩ := trackPower_key s event
  obtain ⟨hbinding', hcases⟩ := trackHeld_cases (s := trackPower s event) now hpress
  have hcount' : (trackHeld (trackPower s event) event now).powerHeldCount =
      (setKeys (trackHeld (trackPower s event) event now).powerKeys).card := by
    rw [hpowerCount, hpowerKeys]
    exact hcount
  obtain hunknown | ⟨hsame, hkept⟩ := hcases
  · exact Held.of_unknown hcount' hunknown
  rw [hkey] at hsame hkept
  refine ⟨hcount', fun hpos hle => ?_, fun hne => ?_⟩
  · rw [hsame] at hpos hle ⊢
    rw [hpowerKeys, hkeys]
    split
    · next hknown =>
      by_cases hsameKey : s.heldKey = event.key
      · obtain hdown | hup := hknown.1
        · rw [hsameKey, Function.update_self]
          exact decide_eq_true hdown
        · exact absurd ⟨hup, hsameKey.symm⟩ hkept
      · rw [Function.update_of_ne hsameKey]
        exact h.down hpos hle
    · exact h.down hpos hle
  · rw [hsame] at hne ⊢
    rw [hbinding', hbinding]
    exact h.press hne

/-- Every operation keeps the account and the held key. -/
theorem Held.step (h : Held operations s) (operation : Operation) : Held (operations ++ [operation]) (step s operation) := by
  cases operation with
  | submit event now =>
    change Held _ (inputSubmit s event now)
    unfold inputSubmit
    by_cases hrepeated : event.repeated = true
    · rw [if_pos hrepeated]
      refine h.concat (if_neg fun hpress => ?_)
      exact Bool.false_ne_true (hpress.1.symm.trans hrepeated)
    · rw [if_neg hrepeated]
      refine Held.same ?_ (SameHeld.enqueue _ _)
      by_cases hdown : event.type = .keyDown ∧ modifierKey event.key = false
      · exact h.press_submit (if_pos ⟨Bool.eq_false_of_not_eq_true hrepeated, hdown⟩) hdown
      · exact (h.other_submit now hdown).concat (if_neg fun hpress => hdown hpress.2)
  | update now => exact (h.same (SameHeld.update s now)).concat rfl
  | poll =>
    refine (h.same ?_).concat rfl
    change SameHeld s (tabosInputPoll s)
    unfold tabosInputPoll
    split <;> exact ⟨rfl, rfl, rfl, rfl⟩
  | takePowerActivity =>
    have hsame : SameHeld s (inputTakePowerActivity s) := ⟨rfl, rfl, rfl, rfl⟩
    exact (h.same hsame).concat rfl
  | getState resynchronize =>
    refine (h.same ?_).concat rfl
    cases resynchronize <;> exact ⟨rfl, rfl, rfl, rfl⟩
  | reset clearPressed =>
    refine Held.of_unknown ?_ ?_
    · cases clearPressed with
      | false => exact h.count
      | true => exact (Finset.card_eq_zero.mpr (Finset.filter_false_of_mem fun _ _ => Bool.false_ne_true)).symm
    · cases clearPressed <;> rfl

end Invariant

theorem held_run (generation : UInt32) (operations : List Operation) : Held operations (run (.initial generation) operations) := by
  induction operations using List.reverseRecOn with
  | nil =>
    refine Held.of_unknown ?_ rfl
    exact (Finset.card_eq_zero.mpr (Finset.filter_false_of_mem fun _ _ => Bool.false_ne_true)).symm
  | append_singleton operations operation ih =>
    rw [run_append]
    exact ih.step operation

/-! ## What enters the queue -/

theorem enqueuedBy_eq {s : InputState} {operation : Operation} {events : List InputEvent}
    (h : (step s operation).events = s.events ++ events) : enqueuedBy s operation = events := by
  rw [enqueuedBy, h, List.drop_left]

theorem events_enqueue (s : InputState) (event : InputEvent) :
    ∃ generation, (enqueue s event).events = s.events ++ [{ event with generation := generation }] := by
  refine ⟨(makeRoom s).inputGeneration, ?_⟩
  have hroom : (makeRoom s).history.enqueued = s.history.enqueued := by
    unfold makeRoom changeGeneration
    split <;> rfl
  unfold enqueue append InputState.events
  dsimp only
  rw [hroom, List.map_append]
  rfl

theorem events_submit (s : InputState) {event : InputEvent} (now : Nat) (h : event.repeated = false) :
    ∃ generation, enqueuedBy s (.submit event now) = [{ bindLogical event with generation := generation }] := by
  obtain ⟨generation, hevents⟩ := events_enqueue (trackHeld (trackPower s event) event now) (bindLogical event)
  have hsame := (sameQueue_trackPower s event).trans (sameQueue_trackHeld _ event now)
  refine ⟨generation, enqueuedBy_eq ?_⟩
  change (inputSubmit s event now).events = _
  unfold inputSubmit
  rw [if_neg (by rw [h]; exact Bool.false_ne_true), hevents, InputState.events, hsame.history]
  rfl

theorem bindLogical_repeated (event : InputEvent) : (bindLogical event).repeated = event.repeated := by
  unfold bindLogical
  split <;> rfl

theorem events_repeatText (s : InputState) :
    ∃ texts, (repeatText s).events = s.events ++ texts ∧ ∀ event ∈ texts, event.type = .text := by
  unfold repeatText
  split
  · obtain ⟨generation, hevents⟩ := events_enqueue s (repeatedText s)
    refine ⟨_, hevents, fun event hin => ?_⟩
    obtain rfl := List.mem_singleton.mp hin
    rfl
  · exact ⟨[], (List.append_nil _).symm, fun _ hin => absurd hin List.not_mem_nil⟩

/-- The events of an update repeat the held key, and its text. -/
theorem events_update (s : InputState) (now : Nat) :
    enqueuedBy s (.update now) = [] ∨ s.heldKey ≠ keyUnknown ∧ ∀ event ∈ enqueuedBy s (.update now), event.type = .keyDown →
      event.key = s.heldKey ∧ event.logicalKey = s.heldBinding.logicalKey ∧ event.logicalModifiers = s.heldBinding.logicalModifiers := by
  by_cases hidle : s.heldKey = keyUnknown ∨ s.repeatTimer.fires now = false
  · refine Or.inl (enqueuedBy_eq ?_)
    have hsame : step s (.update now) = s := if_pos hidle
    rw [hsame, List.append_nil]
  · refine Or.inr ⟨fun hkey => hidle (Or.inl hkey), ?_⟩
    let polled := { s with repeatTimer := s.repeatTimer.poll now }
    have hupdate : step s (.update now) = repeatText (enqueue polled (repeatedKey polled)) := if_neg hidle
    obtain ⟨generation, hkey⟩ := events_enqueue polled (repeatedKey polled)
    obtain ⟨texts, htexts, htype⟩ := events_repeatText (enqueue polled (repeatedKey polled))
    have hevents : enqueuedBy s (.update now) = { repeatedKey polled with generation := generation } :: texts := by
      refine enqueuedBy_eq ?_
      rw [hupdate, htexts, hkey, List.append_assoc]
      rfl
    rw [hevents]
    intro event hin hdown
    rcases List.mem_cons.mp hin with rfl | hin
    · exact ⟨rfl, rfl, rfl⟩
    · rw [htype event hin] at hdown
      exact EventType.noConfusion hdown

/-- What repeats is the held key, under its binding. -/
theorem repeated_of_held (s : InputState) (operation : Operation) {event : InputEvent} (hin : event ∈ enqueuedBy s operation)
    (hrepeated : event.repeated = true) :
    s.heldKey ≠ keyUnknown ∧ (event.type = .keyDown →
      event.key = s.heldKey ∧ event.logicalKey = s.heldBinding.logicalKey ∧ event.logicalModifiers = s.heldBinding.logicalModifiers) := by
  have hnothing : (step s operation).events = s.events → event ∉ enqueuedBy s operation := by
    intro hsame
    rw [enqueuedBy_eq (hsame.trans (List.append_nil _).symm)]
    exact List.not_mem_nil
  cases operation with
  | submit submitted now =>
    by_cases hsubmitted : submitted.repeated = true
    · have hsame : step s (.submit submitted now) = s := if_pos hsubmitted
      exact absurd hin (hnothing (congrArg InputState.events hsame))
    · obtain ⟨generation, hevents⟩ := events_submit s now (Bool.eq_false_of_not_eq_true hsubmitted)
      rw [hevents] at hin
      obtain rfl := List.mem_singleton.mp hin
      exact absurd ((bindLogical_repeated submitted).symm.trans hrepeated) hsubmitted
  | update now =>
    obtain hempty | ⟨hheld, hkeys⟩ := events_update s now
    · rw [hempty] at hin
      exact absurd hin List.not_mem_nil
    · exact ⟨hheld, hkeys event hin⟩
  | poll =>
    refine absurd hin (hnothing ?_)
    change (tabosInputPoll s).events = s.events
    unfold tabosInputPoll
    split <;> rfl
  | takePowerActivity => exact absurd hin (hnothing rfl)
  | getState resynchronize => exact absurd hin (hnothing (by cases resynchronize <;> rfl))
  | reset clearPressed => exact absurd hin (hnothing (by cases clearPressed <;> rfl))

/-! ## After the release -/

theorem released {before : List Operation} {s : InputState} (h : Held before s) {release : Operation}
    (hrelease : Releases before release) : (step s release).heldKey = keyUnknown := by
  cases release with
  | submit event now =>
    obtain ⟨hrepeated, hup, hkey⟩ := hrelease
    have hnotDown : ¬(event.type = .keyDown ∧ modifierKey event.key = false) := fun hdown => by
      rw [hup] at hdown
      exact EventType.noConfusion hdown.1
    have hsubmit : (step s (.submit event now)).heldKey = (trackHeld (trackPower s event) event now).heldKey := by
      change (inputSubmit s event now).heldKey = _
      unfold inputSubmit
      rw [if_neg (by rw [hrepeated]; exact Bool.false_ne_true)]
      exact (SameHeld.enqueue _ _).key
    obtain ⟨-, hunknown | ⟨hsame, hkept⟩⟩ := trackHeld_cases (s := trackPower s event) now hnotDown
    · exact hsubmit.trans hunknown
    · rw [(trackPower_key s event).1] at hsame hkept
      rw [hsubmit, hsame]
      by_contra hheld
      obtain ⟨press, hpress, hheldKey, -⟩ := h.press hheld
      rw [hpress] at hkey
      exact hkept ⟨hup, (Option.some.inj hkey).symm.trans hheldKey.symm⟩
  | reset clearPressed => cases clearPressed <;> rfl
  | update now => exact absurd hrelease id
  | poll => exact absurd hrelease id
  | takePowerActivity => exact absurd hrelease id
  | getState resynchronize => exact absurd hrelease id

/-- Without a press no key comes to be held. -/
theorem unheld_step {s : InputState} (h : s.heldKey = keyUnknown) {operation : Operation} (hpress : pressOf operation = none) :
    (step s operation).heldKey = keyUnknown := by
  cases operation with
  | submit event now =>
    change (inputSubmit s event now).heldKey = _
    unfold inputSubmit
    by_cases hrepeated : event.repeated = true
    · rw [if_pos hrepeated]
      exact h
    · rw [if_neg hrepeated, (SameHeld.enqueue _ _).key]
      have hnotDown : ¬(event.type = .keyDown ∧ modifierKey event.key = false) := fun hdown => by
        have hsome : pressOf (.submit event now) = some event := if_pos ⟨Bool.eq_false_of_not_eq_true hrepeated, hdown⟩
        rw [hsome] at hpress
        exact absurd hpress (Option.some_ne_none event)
      obtain ⟨-, hunknown | ⟨hsame, -⟩⟩ := trackHeld_cases (s := trackPower s event) now hnotDown
      · exact hunknown
      · exact hsame.trans ((trackPower_key s event).1.trans h)
  | update now => exact (SameHeld.update s now).key.trans h
  | poll =>
    change (tabosInputPoll s).heldKey = _
    unfold tabosInputPoll
    split <;> exact h
  | takePowerActivity => exact h
  | getState resynchronize => cases resynchronize <;> exact h
  | reset clearPressed => cases clearPressed <;> rfl

theorem unheld_run {s : InputState} (h : s.heldKey = keyUnknown) {operations : List Operation}
    (hpress : ∀ operation ∈ operations, pressOf operation = none) : (run s operations).heldKey = keyUnknown := by
  induction operations generalizing s with
  | nil => exact h
  | cons operation operations ih =>
    obtain ⟨hfirst, hrest⟩ := List.forall_mem_cons.mp hpress
    exact ih (unheld_step h hfirst) hrest

/-- In every run: the account counts the keys that are set; a held key that is known is set; an event that is submitted enters the queue
with its logical key, or itself as its logical key; a key that repeats is the last one that was pressed, under that logical key; and from
its release, or a reset, until the next press nothing repeats. -/
theorem repeats_follow_presses (generation : UInt32) (before : List Operation) :
    (run (.initial generation) before).powerHeldCount = (setKeys (run (.initial generation) before).powerKeys).card ∧
      (keyUnknown < (run (.initial generation) before).heldKey → (run (.initial generation) before).heldKey ≤ keySym →
        (run (.initial generation) before).powerKeys (run (.initial generation) before).heldKey = true) ∧
      (∀ event now, event.repeated = false → ∃ current,
        enqueuedBy (run (.initial generation) before) (.submit event now) = [{ bindLogical event with generation := current }]) ∧
      (∀ operation, ∀ event ∈ enqueuedBy (run (.initial generation) before) operation, event.repeated = true → event.type = .keyDown →
        ∃ press, lastPress before = some press ∧ event.key = press.key ∧ event.logicalKey = (bindLogical press).logicalKey ∧
          event.logicalModifiers = (bindLogical press).logicalModifiers) ∧
      ∀ release between operation, Releases before release → (∀ operation ∈ between, pressOf operation = none) →
        ∀ event ∈ enqueuedBy (run (.initial generation) (before ++ release :: between)) operation, event.repeated = false := by
  have hheld := held_run generation before
  refine ⟨hheld.count, hheld.down, fun event now => events_submit _ now, fun operation event hin hrepeated hdown => ?_,
    fun release between operation hrelease hbetween event hin => ?_⟩
  · obtain ⟨hkey, hbinding⟩ := repeated_of_held _ operation hin hrepeated
    obtain ⟨press, hpress, hpressKey, hpressBinding⟩ := hheld.press hkey
    obtain ⟨heventKey, hlogical, hmodifiers⟩ := hbinding hdown
    rw [hpressBinding] at hlogical hmodifiers
    exact ⟨press, hpress, heventKey.trans hpressKey, hlogical, hmodifiers⟩
  · have hunheld : (run (.initial generation) (before ++ release :: between)).heldKey = keyUnknown := by
      rw [run_append]
      exact unheld_run (released hheld hrelease) hbetween
    by_contra hrepeated
    exact (repeated_of_held _ operation hin (Bool.eq_true_of_not_eq_false hrepeated)).1 hunheld

/-- The release of a key that is marked as a repetition does not end its repetition. -/
theorem repeats_after_ignored_release :
    ¬∀ (before between : List Operation) (event : InputEvent) (now : Nat) (operation : Operation), event.type = .keyUp →
      (lastPress before).map InputEvent.key = some event.key → (∀ operation ∈ between, pressOf operation = none) →
      ∀ repetition ∈ enqueuedBy (run (.initial 1) (before ++ .submit event now :: between)) operation, repetition.repeated = false := by
  intro hquiet
  let press : InputEvent := { InputEvent.zero with key := 4 }
  let ignored : InputEvent := { press with type := .keyUp, repeated := true }
  have hrepetition := hquiet [.submit press 0] [] ignored 10 (.update 400) rfl rfl (fun _ hin => absurd hin List.not_mem_nil)
    { press with repeated := true, logicalKey := 4, generation := 1 }
  exact Bool.noConfusion (hrepetition (by decide))

end Input
end TabOS
