import TabOS.Input.Basic
import TabOS.Library.Run
import Mathlib.Logic.Relation

/-!
# Detecting lost input

Every operation moves the queue in one of four ways. Between two events whose generation is still the current one the generation
has not changed, unless it went through all its values, so no event was dropped.
-/

namespace TabOS
namespace Input

open Library Relation

/-! ## Moves of the queue -/

/-- The states have the same queue, generation and history. -/
structure SameQueue (s t : InputState) : Prop where
  queue : t.queue = s.queue
  generation : t.inputGeneration = s.inputGeneration
  history : t.history = s.history

theorem SameQueue.trans {s t u : InputState} (h : SameQueue s t) (h' : SameQueue t u) : SameQueue s u :=
  ⟨h'.queue.trans h.queue, h'.generation.trans h.generation, h'.history.trans h.history⟩

theorem sameQueue_trackPower (s : InputState) (event : InputEvent) : SameQueue s (trackPower s event) := by
  rw [trackPower]
  simp only [setPowerKey]
  split_ifs <;> exact ⟨rfl, rfl, rfl⟩

theorem sameQueue_trackHeld (s : InputState) (event : InputEvent) (now : Nat) : SameQueue s (trackHeld s event now) := by
  rw [trackHeld]
  split_ifs <;> exact ⟨rfl, rfl, rfl⟩

/-- What an operation can do to the queue. -/
inductive Move : InputState → InputState → Prop
  | same {s t : InputState} (h : SameQueue s t) : Move s t
  | enqueue (s : InputState) (event : InputEvent) : Move s (enqueue s event)
  | discard (s : InputState) : Move s (discard s)
  | poll (s : InputState) (hcount : 0 < s.queue.count) : Move s (tabosInputPoll s)

/-- Every operation is a sequence of moves. -/
theorem moves_step (s : InputState) (operation : Operation) : ReflTransGen Move s (step s operation) := by
  cases operation with
  | submit event now =>
    show ReflTransGen Move s (inputSubmit s event now)
    rw [inputSubmit]
    split_ifs
    · exact .refl
    · exact .tail (.single (.same ((sameQueue_trackPower s event).trans (sameQueue_trackHeld _ event now)))) (.enqueue _ _)
  | update now =>
    show ReflTransGen Move s (inputUpdate s now)
    rw [inputUpdate]
    split_ifs
    · exact .refl
    · have hkey (s : InputState) : ReflTransGen Move s (repeatText s) := by
        rw [repeatText]
        split_ifs
        · exact .single (.enqueue _ _)
        · exact .refl
      have hpolled : SameQueue s { s with repeatTimer := s.repeatTimer.poll now } := ⟨rfl, rfl, rfl⟩
      exact ((ReflTransGen.single (.same hpolled)).tail (.enqueue _ (repeatedKey _))).trans (hkey _)
  | poll =>
    by_cases hcount : s.queue.count = 0
    · rw [step, tabosInputPoll, if_pos hcount]
    · exact .single (.poll s (Nat.pos_of_ne_zero hcount))
  | takePowerActivity => exact .single (.same ⟨rfl, rfl, rfl⟩)
  | getState resynchronize =>
    cases resynchronize with
    | false => exact .refl
    | true => exact .single (.discard s)
  | reset clearPressed =>
    refine .tail (.single (.discard s)) (.same ?_)
    cases clearPressed <;> exact ⟨rfl, rfl, rfl⟩

theorem run_append (s : InputState) (before after : List Operation) : run s (before ++ after) = run (run s before) after :=
  List.foldl_append

/-- What every move preserves holds at the end of every run. -/
theorem run_invariant {I : InputState → Prop} (hmove : ∀ s t, I s → Move s t → I t) {s : InputState} (operations : List Operation)
    (h : I s) : I (run s operations) := by
  refine foldl_invariant I (fun s operation hs => ?_) operations h
  exact (moves_step s operation).rec hs fun _ hlast ih => hmove _ _ ih hlast

/-! ## The account of the events -/

/-- The number of the event that the next poll returns. -/
def InputState.position (s : InputState) : Nat := s.history.enqueued.length - s.queue.count

def InputState.events (s : InputState) : List InputEvent := s.history.enqueued.map Stamped.event

/-- The queue holds the last events that entered it, the generation counts its changes, and every event carries the generation of
its time; the last one in the queue carries the current one. -/
structure Accounted (generation : UInt32) (s : InputState) : Prop where
  holds : s.queue.HoldsLast s.events
  current : s.inputGeneration = generation + UInt32.ofNat s.history.changes
  stamps : ∀ stamped ∈ s.history.enqueued,
    stamped.event.generation = generation + UInt32.ofNat stamped.changes ∧ stamped.changes ≤ s.history.changes
  newest : 0 < s.queue.count → ∃ stamped, s.history.enqueued.getLast? = some stamped ∧ stamped.changes = s.history.changes

theorem accounted_initial (generation : UInt32) : Accounted generation (.initial generation) where
  holds := ⟨⟨show 0 < 64 by decide, Nat.zero_le _⟩, List.suffix_refl _⟩
  current := (UInt32.add_zero _).symm
  stamps := fun stamped hmem => absurd hmem List.not_mem_nil
  newest := fun h => absurd h (lt_irrefl 0)

variable {generation : UInt32} {s t : InputState}

theorem accounted_current_succ (h : s.inputGeneration = generation + UInt32.ofNat s.history.changes) :
    s.inputGeneration + 1 = generation + UInt32.ofNat (s.history.changes + 1) := by
  rw [h, UInt32.ofNat_add, UInt32.add_assoc]
  rfl

theorem makeRoom_of_full (hfull : s.queue.count = inputQueueCapacity) :
    makeRoom s = changeGeneration { s with queue := s.queue.popFront } := if_pos hfull

theorem makeRoom_of_room (hroom : s.queue.count ≠ inputQueueCapacity) : makeRoom s = s := if_neg hroom

theorem accounted_append (event : InputEvent) (hroom : s.queue.count < inputQueueCapacity) (hholds : s.queue.HoldsLast s.events)
    (hcurrent : s.inputGeneration = generation + UInt32.ofNat s.history.changes)
    (hstamps : ∀ stamped ∈ s.history.enqueued,
      stamped.event.generation = generation + UInt32.ofNat stamped.changes ∧ stamped.changes ≤ s.history.changes) :
    Accounted generation (append s event) where
  holds := by
    have hpush := hholds.pushBack hroom { event with generation := s.inputGeneration }
    simpa only [InputState.events, append, List.map_append, List.map_singleton] using hpush
  current := hcurrent
  stamps := by
    intro stamped hmem
    rcases List.mem_append.1 hmem with hmem | hmem
    · exact hstamps stamped hmem
    · obtain rfl := List.mem_singleton.1 hmem
      exact ⟨hcurrent, le_refl _⟩
  newest := fun _ => ⟨_, List.getLast?_concat, rfl⟩

theorem Accounted.move (h : Accounted generation s) (hmove : Move s t) : Accounted generation t := by
  cases hmove with
  | same hsame =>
    obtain ⟨hqueue, hgeneration, hhistory⟩ := hsame
    refine ⟨?_, ?_, ?_, ?_⟩
    · rw [InputState.events, hqueue, hhistory]
      exact h.holds
    · rw [hgeneration, hhistory]
      exact h.current
    · rw [hhistory]
      exact h.stamps
    · rw [hqueue, hhistory]
      exact h.newest
  | enqueue event =>
    rw [enqueue]
    by_cases hfull : s.queue.count = inputQueueCapacity
    · rw [makeRoom_of_full hfull]
      refine accounted_append event ?_ h.holds.popFront (accounted_current_succ h.current) fun stamped hmem => ?_
      · show s.queue.count - 1 < inputQueueCapacity
        rw [hfull]
        decide
      · obtain ⟨hgeneration, hchanges⟩ := h.stamps stamped hmem
        exact ⟨hgeneration, le_trans hchanges (Nat.le_succ _)⟩
    · rw [makeRoom_of_room hfull]
      exact accounted_append event (lt_of_le_of_ne h.holds.count_le hfull) h.holds h.current h.stamps
  | discard =>
    refine ⟨h.holds.clear, accounted_current_succ h.current, fun stamped hmem => ?_, fun hcount => absurd hcount (lt_irrefl 0)⟩
    obtain ⟨hgeneration, hchanges⟩ := h.stamps stamped hmem
    exact ⟨hgeneration, le_trans hchanges (Nat.le_succ _)⟩
  | poll hcount =>
    rw [tabosInputPoll, if_neg (Nat.ne_of_gt hcount)]
    exact ⟨h.holds.popFront, h.current, h.stamps, fun _ => h.newest hcount⟩

theorem accounted_run (generation : UInt32) (operations : List Operation) :
    Accounted generation (run (.initial generation) operations) :=
  run_invariant (fun _ _ h hmove => h.move hmove) operations (accounted_initial generation)

/-! ## Events in order -/

/-- The events that entered the queue from one number up to another. -/
def InputState.between (s : InputState) (first last : Nat) : List InputEvent := (s.events.take last).drop first

/-- The later state has polled every event up to the next one in order, unless the generation has changed. -/
structure InOrder (s t : InputState) : Prop where
  enqueued : s.history.enqueued <+: t.history.enqueued
  changes : s.history.changes ≤ t.history.changes
  position : t.history.changes = s.history.changes → s.position ≤ t.position
  polled : t.history.changes = s.history.changes → t.history.polled = s.history.polled ++ t.between s.position t.position

theorem InOrder.refl (s : InputState) : InOrder s s where
  enqueued := List.prefix_refl _
  changes := le_refl _
  position := fun _ => le_refl _
  polled := fun _ => by rw [InputState.between, List.drop_take_self, List.append_nil]

variable {u : InputState}

/-- A move that changes the generation leaves nothing to show. -/
theorem InOrder.of_changes (h : InOrder s t) (henqueued : t.history.enqueued <+: u.history.enqueued)
    (hchanges : t.history.changes < u.history.changes) : InOrder s u where
  enqueued := h.enqueued.trans henqueued
  changes := le_trans h.changes (Nat.le_of_lt hchanges)
  position := fun heq => absurd (h.changes.trans_lt hchanges) (by rw [heq]; exact lt_irrefl _)
  polled := fun heq => absurd (h.changes.trans_lt hchanges) (by rw [heq]; exact lt_irrefl _)

theorem InOrder.move (h : InOrder s t) (ht : Accounted generation t) (hmove : Move t u) : InOrder s u := by
  cases hmove with
  | same hsame =>
    obtain ⟨hqueue, -, hhistory⟩ := hsame
    have hposition : u.position = t.position := by rw [InputState.position, InputState.position, hqueue, hhistory]
    have hevents : u.events = t.events := by rw [InputState.events, InputState.events, hhistory]
    refine ⟨?_, ?_, ?_, ?_⟩
    · rw [hhistory]
      exact h.enqueued
    · rw [hhistory]
      exact h.changes
    · rw [hhistory, hposition]
      exact h.position
    · rw [hhistory, hposition, InputState.between, hevents]
      exact h.polled
  | enqueue event =>
    rw [enqueue]
    by_cases hfull : t.queue.count = inputQueueCapacity
    · rw [makeRoom_of_full hfull]
      exact h.of_changes (List.prefix_append _ _) (Nat.lt_succ_self _)
    · rw [makeRoom_of_room hfull]
      have hle := ht.holds.count_le_length
      have hposition : (append t event).position = t.position := by
        rw [InputState.events, List.length_map] at hle
        simp only [InputState.position, append, Queue.pushBack, List.length_append, List.length_singleton]
        omega
      refine ⟨h.enqueued.trans (List.prefix_append _ _), h.changes, fun heq => ?_, fun heq => ?_⟩
      · rw [hposition]
        exact h.position heq
      · have htake : (append t event).events.take t.position = t.events.take t.position := by
          rw [InputState.events, append, List.map_append, List.take_append_of_le_length]
          · rfl
          · rw [List.length_map]
            exact Nat.sub_le _ _
        rw [hposition, InputState.between, htake]
        exact h.polled heq
  | discard => exact h.of_changes (List.prefix_refl _) (Nat.lt_succ_self _)
  | poll hcount =>
    have hfront := ht.holds.getElem?_front hcount
    rw [InputState.events, List.length_map] at hfront
    have hle := ht.holds.count_le_length
    rw [InputState.events, List.length_map] at hle
    rw [tabosInputPoll, if_neg (Nat.ne_of_gt hcount)]
    refine ⟨h.enqueued, h.changes, fun heq => ?_, fun heq => ?_⟩
    · exact le_trans (h.position heq) (Nat.sub_le_sub_left (Nat.sub_le _ _) _)
    · have hpolled := h.polled heq
      have hnext : t.history.enqueued.length - (t.queue.count - 1) = t.position + 1 := by
        rw [InputState.position]
        omega
      have htake : t.events.take (t.position + 1) = t.events.take t.position ++ [t.queue.front] := by
        rw [List.take_add_one, InputState.events, InputState.position, hfront]
        rfl
      show t.history.polled ++ [t.queue.front] =
        s.history.polled ++ (t.events.take (t.history.enqueued.length - (t.queue.count - 1))).drop s.position
      rw [hnext, htake, hpolled, List.append_assoc, InputState.between, List.drop_append_of_le_length]
      rw [List.length_take, InputState.events, List.length_map]
      have hposition := h.position heq
      rw [InputState.position] at hposition ⊢
      omega

theorem InOrder.run (hs : Accounted generation s) (operations : List Operation) : InOrder s (run s operations) := by
  refine (run_invariant (I := fun t => Accounted generation t ∧ InOrder s t) ?_ operations ⟨hs, .refl s⟩).2
  rintro t u ⟨ht, horder⟩ hmove
  exact ⟨ht.move hmove, horder.move ht hmove⟩

/-! ## Generations -/

theorem getElem?_position (h : Accounted generation s) {event : InputEvent} (hpoll : polledEvent s = some event) :
    ∃ stamped, s.history.enqueued[s.position]? = some stamped ∧ stamped.event = event := by
  rw [polledEvent] at hpoll
  split_ifs at hpoll with hcount
  have hfront := h.holds.getElem?_front (Nat.pos_of_ne_zero hcount)
  rw [InputState.events, List.length_map, List.getElem?_map] at hfront
  obtain ⟨stamped, hstamped, hevent⟩ := Option.map_eq_some_iff.1 hfront
  exact ⟨stamped, hstamped, hevent.trans (Option.some.inj hpoll)⟩

/-- The event that leaves the queue empty carries the current generation. -/
theorem generation_of_last (h : Accounted generation s) {event : InputEvent} (hpoll : polledEvent s = some event)
    (hlast : (tabosInputPoll s).queue.count = 0) : event.generation = s.inputGeneration := by
  obtain ⟨stamped, hstamped, rfl⟩ := getElem?_position h hpoll
  rw [polledEvent] at hpoll
  split_ifs at hpoll with hcount
  rw [tabosInputPoll, if_neg hcount] at hlast
  have hone : s.queue.count = 1 := by
    have hsub : s.queue.count - 1 = 0 := hlast
    omega
  obtain ⟨newest, hnewest, hchanges⟩ := h.newest (Nat.pos_of_ne_zero hcount)
  rw [List.getLast?_eq_getElem?] at hnewest
  rw [InputState.position, hone, hnewest] at hstamped
  obtain rfl := Option.some.inj hstamped
  have hmem : newest ∈ s.history.enqueued := List.mem_of_getElem? hnewest
  rw [(h.stamps newest hmem).1, hchanges, h.current]

/-- Counts less than all generations apart that give one generation are the same. -/
theorem changes_eq (generation : UInt32) {before after : Nat} (hle : before ≤ after) (hlt : after < before + 2 ^ 32)
    (heq : generation + UInt32.ofNat before = generation + UInt32.ofNat after) : after = before := by
  have hofNat : UInt32.ofNat before = UInt32.ofNat after := by
    have hsub := congrArg (· - generation) heq
    simpa [UInt32.add_comm generation] using hsub
  have hmod : before % 2 ^ 32 = after % 2 ^ 32 := by
    have htoNat := congrArg UInt32.toNat hofNat
    simpa using htoNat
  omega

/-- Two polled events of one generation, the second of which finds that generation current or leaves the queue empty, have every
event between them polled between them in order, unless the generation went through all its values. -/
theorem polled_in_order (generation : UInt32) (before between : List Operation) {first second : InputEvent}
    (hfirst : polledEvent (run (.initial generation) before) = some first)
    (hsecond : polledEvent (run (.initial generation) (before ++ .poll :: between)) = some second)
    (hgeneration : first.generation = second.generation)
    (hcurrent : second.generation = (run (.initial generation) (before ++ .poll :: between)).inputGeneration ∨
      (run (.initial generation) (before ++ .poll :: between ++ [.poll])).queue.count = 0)
    (hchanges : ∀ stamped, (run (.initial generation) before).history.enqueued[(run (.initial generation) before).position]? =
        some stamped →
      (run (.initial generation) (before ++ .poll :: between)).history.changes < stamped.changes + 2 ^ 32) :
    let s := run (.initial generation) before
    let t := run (.initial generation) (before ++ .poll :: between)
    let u := run (.initial generation) (before ++ .poll :: between ++ [.poll])
    u.history.polled = s.history.polled ++ u.between s.position (t.position + 1) ∧
      s.events[s.position]? = some first ∧ u.events[t.position]? = some second := by
  intro s t u
  have hs : Accounted generation s := accounted_run generation before
  have ht : Accounted generation t := accounted_run generation _
  have htrun : t = run s (.poll :: between) := run_append _ _ _
  have hurun : u = tabosInputPoll t := run_append _ _ _
  obtain ⟨stamped, hstamped, hevent⟩ := getElem?_position hs hfirst
  obtain ⟨hfirstStamp, hle⟩ := hs.stamps stamped (List.mem_of_getElem? hstamped)
  have horder : InOrder s t := htrun ▸ InOrder.run hs (.poll :: between)
  have hsecondCurrent : second.generation = t.inputGeneration := by
    rcases hcurrent with hcurrent | hlast
    · exact hcurrent
    · rw [show run (.initial generation) (before ++ .poll :: between ++ [.poll]) = tabosInputPoll t from hurun] at hlast
      exact generation_of_last ht hsecond hlast
  have hsame : t.history.changes = stamped.changes := by
    refine changes_eq generation (le_trans hle horder.changes) (hchanges stamped hstamped) ?_
    rw [← hfirstStamp, hevent, hgeneration, hsecondCurrent, ht.current]
  have hunchanged : u.history.changes = s.history.changes := by
    have huchanges : u.history.changes = t.history.changes := by
      rw [hurun, tabosInputPoll]
      split_ifs <;> rfl
    have hstle := horder.changes
    omega
  have huorder : InOrder s u := by
    have hrun : u = run s (.poll :: between ++ [.poll]) := by
      rw [hurun, htrun, run_append]
      rfl
    exact hrun ▸ InOrder.run hs (.poll :: between ++ [.poll])
  obtain ⟨stamped', hstamped', hevent'⟩ := getElem?_position ht hsecond
  have hcount : t.queue.count ≠ 0 := by
    intro hzero
    change polledEvent t = some second at hsecond
    rw [polledEvent, if_pos hzero] at hsecond
    cases hsecond
  have hu : u = { t with queue := t.queue.popFront, history := { t.history with polled := t.history.polled ++ [t.queue.front] } } :=
    hurun.trans (if_neg hcount)
  have hevents : u.events = t.events := by rw [hu]; rfl
  have hposition : u.position = t.position + 1 := by
    have hlength := ht.holds.count_le_length
    rw [InputState.events, List.length_map] at hlength
    rw [hu]
    simp only [InputState.position, Queue.popFront]
    omega
  refine ⟨?_, ?_, ?_⟩
  · rw [← hposition]
    exact huorder.polled hunchanged
  · rw [InputState.events, List.getElem?_map, hstamped, ← hevent]
    rfl
  · rw [hevents, InputState.events, List.getElem?_map, hstamped', ← hevent']
    rfl

/-- A text event. -/
def InputEvent.ofText (byte : UInt8) : InputEvent := { InputEvent.zero with type := .text, text := [byte] }

/-- An event polled between two others. -/
theorem polled_in_order_three :
    let submits : List Operation := [.submit (.ofText 0x61) 0, .submit (.ofText 0x62) 0, .submit (.ofText 0x63) 0]
    (run (.initial 1) (submits ++ .poll :: [.poll] ++ [.poll])).history.polled.map InputEvent.text = [[0x61], [0x62], [0x63]] := by
  intro submits
  have h := polled_in_order 1 submits [.poll] rfl rfl rfl (Or.inr rfl) fun stamped hstamped => by
    obtain rfl := Option.some.inj hstamped
    decide
  rw [h.1]
  rfl

/-- Resynchronising over and over empties the queue and counts every time. -/
theorem run_resynchronize (s : InputState) {n : Nat} (hn : 0 < n) :
    run s (List.replicate n (.getState true)) =
      { s with
        queue := s.queue.clear
        inputGeneration := s.inputGeneration + UInt32.ofNat n
        history := { s.history with changes := s.history.changes + n } } := by
  induction n, hn using Nat.le_induction generalizing s with
  | base => rfl
  | succ n hn ih =>
    have hgeneration : s.inputGeneration + 1 + UInt32.ofNat n = s.inputGeneration + UInt32.ofNat (n + 1) := by
      rw [UInt32.ofNat_add n 1, UInt32.add_comm (UInt32.ofNat n), UInt32.add_assoc]
      rfl
    have hchanges : s.history.changes + 1 + n = s.history.changes + (n + 1) := by omega
    rw [List.replicate_succ]
    show run (discard s) (List.replicate n (.getState true)) = _
    rw [ih]
    simp only [discard, changeGeneration, hgeneration, hchanges, Queue.clear]

/-- A run that resynchronises between two events. -/
theorem run_submit_resynchronize (s : InputState) (before after : InputEvent) {n : Nat} (hn : 0 < n) :
    run s (.submit before 0 :: (List.replicate n (.getState true) ++ [.submit after 0])) =
      inputSubmit
        { inputSubmit s before 0 with
          queue := (inputSubmit s before 0).queue.clear
          inputGeneration := (inputSubmit s before 0).inputGeneration + UInt32.ofNat n
          history := { (inputSubmit s before 0).history with changes := (inputSubmit s before 0).history.changes + n } } after 0 := by
  rw [← List.singleton_append, run_append, run_append]
  show inputSubmit (run (inputSubmit s before 0) (List.replicate n (.getState true))) after 0 = _
  rw [run_resynchronize _ hn]

/-- An event that is dropped while one of its generation waits behind it is not noticed at that one, and a generation that went
through all its values is not noticed at all. -/
theorem polled_with_gap :
    (let s := run (.initial 1) [.submit (.ofText 0x61) 0]
      let between := .submit (.ofText 0x62) 0 :: List.replicate inputQueueCapacity (.submit (.ofText 0x63) 0)
      let t := run (tabosInputPoll s) between
      let u := tabosInputPoll t
      (polledEvent s).map InputEvent.generation = some 1 ∧ (polledEvent t).map InputEvent.generation = some 1 ∧
        u.history.polled.map InputEvent.text = [[0x61], [0x63]] ∧
          (u.between s.position (t.position + 1)).map InputEvent.text = [[0x61], [0x62], [0x63]]) ∧
      let s := run (.initial 1) [.submit (.ofText 0x61) 0]
      let between := .submit (.ofText 0x62) 0 :: (List.replicate (2 ^ 32) (.getState true) ++ [.submit (.ofText 0x63) 0])
      let t := run (tabosInputPoll s) between
      let u := tabosInputPoll t
      (polledEvent s).map InputEvent.generation = some 1 ∧ (polledEvent t).map InputEvent.generation = some 1 ∧
        t.inputGeneration = 1 ∧ u.history.polled.map InputEvent.text = [[0x61], [0x63]] ∧
          (u.between s.position (t.position + 1)).map InputEvent.text = [[0x61], [0x62], [0x63]] := by
  refine ⟨by decide +kernel, ?_⟩
  simp only [run_submit_resynchronize _ _ _ (Nat.two_pow_pos 32)]
  decide +kernel

end Input
end TabOS
