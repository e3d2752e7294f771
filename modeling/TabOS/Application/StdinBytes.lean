import TabOS.Application.Stdin

/-!
# The bytes of standard input

What the reads of an application have returned, with the bytes that wait for its next read, are the encodings of the events that its reads
took, in their order.
-/

namespace TabOS
namespace Application
namespace Stdin

open Library

variable {ι : Type}

/-! ## The bytes of an event -/

/-- The last byte of the sequence of an arrow key. -/
def arrow (key : Nat) : Option UInt8 :=
  if key = keyUp then some 65
  else if key = keyDown then some 66
  else if key = keyRight then some 67
  else if key = keyLeft then some 68
  else none

/-- What an event is in standard input: the bytes of a text, the sequence of an arrow key, a backspace, else nothing. -/
def encode (event : Input.InputEvent) : List UInt8 :=
  match event.type with
  | .text => if event.text.length ≤ Input.inputTextMaxBytes then event.text else []
  | .keyDown => if event.key = keyBackspace then [8] else (arrow event.key).elim [] fun final => [0x1b, 0x5b, final]
  | .keyUp => []

/-- What a polled event adds to the standard input of the application: its bytes, if a read polled it and the console did not move its
viewport for it. -/
def Routed.streamed (r : Routed ι) : List UInt8 :=
  match r.call with
  | .fdRead _ => if (handleTtyNavigation r.state r.event).isSome then [] else encode r.event
  | _ => []

/-- The bytes that a call returned from descriptor 0. -/
def returnedBytes : Call × Result → List UInt8
  | (.fdRead _, .bytes data) => data
  | _ => []

/-- A read returns bytes, no more than it was asked for and none only if it was asked for none, or that there is nothing. -/
def Fulfilled : Call × Result → Prop
  | (.fdRead count, result) => result = .again ∨ ∃ data, result = .bytes data ∧ data.length ≤ count ∧ (0 < count → data ≠ [])
  | _ => True

/-- The bytes that wait for the next read. -/
def ElfApplication.pending (a : ElfApplication) : List UInt8 := a.inputPending.drop a.inputPendingOffset

/-- Some bytes wait, or the array is empty; it is empty while a read polls the console. -/
structure Sane (a : ElfApplication) : Prop where
  offset : a.inputPending = [] ∧ a.inputPendingOffset = 0 ∨ a.inputPendingOffset < a.inputPending.length
  reading : ∀ count, a.call = some (.fdRead count) → a.inputPending = [] ∧ 0 < count

theorem sane_new : Sane .new := ⟨.inl ⟨rfl, rfl⟩, by simp [ElfApplication.new]⟩

theorem Sane.pending_eq_nil {a : ElfApplication} (h : Sane a) : a.pending = [] ↔ a.inputPending = [] := by
  unfold ElfApplication.pending
  rw [List.drop_eq_nil_iff]
  rcases h.offset with ⟨hnil, hzero⟩ | hlt
  · simp [hnil]
  · refine ⟨fun hle => absurd hlt (by omega), fun hnil => ?_⟩
    simp [hnil] at hlt

/-- The pending bytes of an application and what a read takes of them. -/
structure Taken (a : ElfApplication) (count : Nat) (data : List UInt8) (b : ElfApplication) : Prop where
  bytes : data ++ b.pending = a.pending
  length_le : data.length ≤ count
  none : data = [] ↔ count = 0 ∨ a.pending = []
  offset : b.inputPending = [] ∧ b.inputPendingOffset = 0 ∨ b.inputPendingOffset < b.inputPending.length

theorem readPendingInput_taken {a : ElfApplication} (h : a.inputPending = [] ∧ a.inputPendingOffset = 0 ∨
    a.inputPendingOffset < a.inputPending.length) (count : Nat) :
    Taken a count (readPendingInput a count).1 (readPendingInput a count).2 := by
  have hpending : a.pending.length = a.inputPending.length - a.inputPendingOffset := by simp [ElfApplication.pending]
  have hnil : a.pending = [] ↔ a.inputPending.length - a.inputPendingOffset = 0 := by rw [← hpending, List.length_eq_zero_iff]
  unfold readPendingInput
  dsimp only
  generalize hcopied : (if a.inputPending.length - a.inputPendingOffset < count then a.inputPending.length - a.inputPendingOffset
    else count) = copied
  have hcount : copied ≤ count ∧ copied ≤ a.inputPending.length - a.inputPendingOffset ∧
      (copied = 0 ↔ count = 0 ∨ a.inputPending.length - a.inputPendingOffset = 0) := by
    rw [← hcopied]
    split <;> omega
  obtain ⟨hle, havailable, hzero⟩ := hcount
  rw [← hnil] at hzero
  have hdata : ((a.inputPending.drop a.inputPendingOffset).take copied).length = copied := by
    rw [List.length_take, List.length_drop]
    omega
  by_cases hnone : copied = 0
  · rw [if_pos hnone]
    exact ⟨rfl, Nat.zero_le _, ⟨fun _ => hzero.1 hnone, fun _ => rfl⟩, h⟩
  · have hsome : (a.inputPending.drop a.inputPendingOffset).take copied = [] ↔ count = 0 ∨ a.pending = [] := by
      rw [← hzero, ← List.length_eq_zero_iff, hdata]
    rw [if_neg hnone]
    split
    · rename_i hlast
      refine ⟨?_, hdata.le.trans hle, hsome, .inl ⟨rfl, rfl⟩⟩
      have hall : (a.inputPending.drop a.inputPendingOffset).take copied = a.inputPending.drop a.inputPendingOffset := by
        rw [List.take_of_length_le]
        rw [List.length_drop]
        omega
      simp [ElfApplication.pending, hall]
    · refine ⟨?_, hdata.le.trans hle, hsome, .inr ?_⟩
      · simp only [ElfApplication.pending]
        rw [← List.drop_drop, List.take_append_drop]
      · dsimp only
        omega

/-- An event that is put into an empty array puts its bytes there. -/
theorem queueInputEvent_pending {a : ElfApplication} (hempty : a.inputPending = []) {event : Input.InputEvent}
    (hkey : ¬(event.type = .keyDown ∧ event.key = keyBackspace)) :
    ((queueInputEvent a event).1 = true → encode event ≠ [] ∧ (queueInputEvent a event).2.inputPending = encode event ∧
      (queueInputEvent a event).2.inputPendingOffset = 0) ∧
    ((queueInputEvent a event).1 = false → encode event = []) := by
  unfold queueInputEvent encode arrow
  simp only [hempty, List.length_nil, ne_eq, not_true_eq_false, if_false]
  cases htype : event.type with
  | keyUp => simp
  | keyDown =>
    have hback : event.key ≠ keyBackspace := fun heq => hkey ⟨htype, heq⟩
    simp only [hback, if_false, reduceCtorEq, not_true_eq_false]
    split_ifs <;> simp
  | text =>
    simp only [if_true]
    by_cases hlength : event.text.length = 0 ∨ event.text.length > Input.inputTextMaxBytes
    · rw [if_pos hlength]
      rcases hlength with hzero | hlong
      · have hnil : event.text = [] := List.length_eq_zero_iff.1 hzero
        simp [hnil]
      · simp [Nat.not_le.2 hlong]
    · rw [if_neg hlength]
      simp only [not_or, Nat.not_lt] at hlength
      obtain ⟨hsome, hle⟩ := hlength
      have hne : event.text ≠ [] := by
        intro hnil
        simp [hnil] at hsome
      simp [hle, hne]

/-! ## The stream -/

variable [DecidableEq ι]

/-- What the reads of an application have returned. -/
def System.read (s : System ι) (i : ι) : List UInt8 := s.returned.flatMap fun r => if r.1 = i then returnedBytes r.2 else []

/-- What the reads of an application have taken from the console. -/
def System.taken (s : System ι) (i : ι) : List UInt8 := s.routed.flatMap fun r => if r.application = i then r.streamed else []

structure Streams (s : System ι) : Prop where
  sane : ∀ i, Sane (s.application i)
  bytes : ∀ i, s.read i ++ (s.application i).pending = s.taken i
  delivered : s.routed.map (fun r => (r.application, r.event)) = s.console.history.delivered
  fulfilled : ∀ r ∈ s.returned, Fulfilled r.2

variable {s t : System ι}

/-- A step of one application: it takes events and returns results, and the bytes that wait before and those of the events are the ones that
are returned and those that wait afterwards. -/
structure Advances (s t : System ι) (i : ι) (events : List (Routed ι)) (results : List (Call × Result)) : Prop where
  others : ∀ j, j ≠ i → t.application j = s.application j
  returned : t.returned = s.returned ++ results.map fun r => (i, r)
  routed : t.routed = s.routed ++ events
  own : ∀ r ∈ events, r.application = i
  delivered : t.console.history.delivered = s.console.history.delivered ++ events.map fun r => (r.application, r.event)
  sane : Sane (t.application i)
  bytes : results.flatMap returnedBytes ++ (t.application i).pending = (s.application i).pending ++ events.flatMap Routed.streamed
  fulfilled : ∀ r ∈ results, Fulfilled r

theorem Streams.advance (h : Streams s) {i : ι} {events : List (Routed ι)} {results : List (Call × Result)}
    (hadvances : Advances s t i events results) : Streams t := by
  refine ⟨fun j => ?_, fun j => ?_, ?_, fun r hr => ?_⟩
  · by_cases hji : j = i
    · subst hji
      exact hadvances.sane
    · rw [hadvances.others j hji]
      exact h.sane j
  · have hold := h.bytes j
    unfold System.read System.taken at hold ⊢
    rw [hadvances.returned, hadvances.routed, List.flatMap_append, List.flatMap_append, List.flatMap_map]
    by_cases hji : j = i
    · subst hji
      have hevents : (events.flatMap fun r => if r.application = j then r.streamed else []) = events.flatMap Routed.streamed :=
        List.flatMap_congr fun r hr => if_pos (hadvances.own r hr)
      simp only [if_true]
      rw [hevents, List.append_assoc, hadvances.bytes, ← List.append_assoc, hold]
    · have hevents : (events.flatMap fun r => if r.application = j then r.streamed else []) = [] := by
        rw [List.flatMap_eq_nil_iff]
        intro r hr
        rw [if_neg]
        rw [hadvances.own r hr]
        exact fun heq => hji heq.symm
      have hresults : (results.flatMap fun r => if i = j then returnedBytes r else []) = [] := by
        rw [List.flatMap_eq_nil_iff]
        exact fun r _ => if_neg fun heq => hji heq.symm
      rw [hevents, hresults, hadvances.others j hji, List.append_nil, List.append_nil, hold]
  · rw [hadvances.routed, hadvances.delivered, List.map_append, h.delivered]
  · rw [hadvances.returned, List.mem_append, List.mem_map] at hr
    rcases hr with hr | ⟨result, hresult, rfl⟩
    · exact h.fulfilled r hr
    · exact hadvances.fulfilled result hresult

/-- The state in the middle of a step of an application, when it has polled some events. -/
structure Takes (s t : System ι) (i : ι) (events : List (Routed ι)) : Prop where
  application : t.application = s.application
  returned : t.returned = s.returned
  routed : t.routed = s.routed ++ events
  own : ∀ r ∈ events, r.application = i
  delivered : t.console.history.delivered = s.console.history.delivered ++ events.map fun r => (r.application, r.event)

variable {i : ι} {events : List (Routed ι)}

omit [DecidableEq ι] in
theorem Takes.refl (s : System ι) (i : ι) : Takes s s i [] := ⟨rfl, rfl, by simp, by simp, by simp⟩

/-- The application goes on as it is. -/
theorem Takes.keep (h : Takes s t i events) (hs : Streams s) (hnone : events.flatMap Routed.streamed = []) : Advances s t i events [] where
  others j _ := by rw [h.application]
  returned := by simp [h.returned]
  routed := h.routed
  own := h.own
  delivered := h.delivered
  sane := by
    rw [h.application]
    exact hs.sane i
  bytes := by simp [h.application, hnone]
  fulfilled := by simp

/-- The application goes on changed. -/
theorem Takes.stay (h : Takes s t i events) {a : ElfApplication} (hsane : Sane a)
    (hbytes : a.pending = (s.application i).pending ++ events.flatMap Routed.streamed) :
    Advances s (t.setApplication i a) i events [] where
  others j hj := by simp [System.setApplication, hj, h.application]
  returned := by simp [System.setApplication, h.returned]
  routed := h.routed
  own := h.own
  delivered := h.delivered
  sane := by simpa [System.setApplication] using hsane
  bytes := by simpa [System.setApplication] using hbytes
  fulfilled := by simp

/-- The call returns. -/
theorem Takes.return (h : Takes s t i events) {a : ElfApplication} {call : Call} {result : Result}
    (hoffset : a.inputPending = [] ∧ a.inputPendingOffset = 0 ∨ a.inputPendingOffset < a.inputPending.length)
    (hbytes : returnedBytes (call, result) ++ a.pending = (s.application i).pending ++ events.flatMap Routed.streamed)
    (hfulfilled : Fulfilled (call, result)) :
    Advances s (t.return i a call result) i events [(call, result)] where
  others j hj := by simp [System.return, System.setApplication, hj, h.application]
  returned := by simp [System.return, h.returned]
  routed := h.routed
  own := h.own
  delivered := h.delivered
  sane := by
    have hsane : Sane { a with call := none } := ⟨hoffset, by simp⟩
    simpa [System.return, System.setApplication] using hsane
  bytes := by simpa [System.return, System.setApplication, ElfApplication.pending] using hbytes
  fulfilled := by simpa using hfulfilled

theorem begin_streams (h : Streams s) (i : ι) (call : Call) : Streams (begin s i call) := by
  have hsane := h.sane i
  have htakes := Takes.refl s i
  unfold begin
  dsimp only
  split
  · exact h
  · rename_i hidle
    cases call with
    | fdRead count =>
      dsimp only
      split
      · exact h.advance (htakes.return hsane.offset (by simp [returnedBytes]) (.inr ⟨[], rfl, Nat.zero_le _, by omega⟩))
      · rename_i hcount
        have htaken := readPendingInput_taken hsane.offset count
        generalize readPendingInput (s.application i) count = both at htaken
        obtain ⟨data, a⟩ := both
        dsimp only at htaken ⊢
        split
        · rename_i hdata
          exact h.advance (htakes.return htaken.offset (by simpa [returnedBytes] using htaken.bytes)
            (.inr ⟨data, rfl, htaken.length_le, fun _ => hdata⟩))
        · rename_i hdata
          rw [ne_eq, not_not] at hdata
          have hbytes : a.pending = (s.application i).pending := by simpa [hdata] using htaken.bytes
          have hnone : (s.application i).pending = [] := (htaken.none.1 hdata).resolve_left hcount
          have hempty : a.inputPending = [] := by
            have hidleSane : Sane { a with call := none } := ⟨htaken.offset, by simp⟩
            exact hidleSane.pending_eq_nil.1 (hbytes.trans hnone)
          refine h.advance (htakes.stay ⟨htaken.offset, fun n hn => ⟨hempty, ?_⟩⟩ (hbytes.trans (by simp)))
          simp only [Option.some.injEq, Call.fdRead.injEq] at hn
          omega
    | inputPoll => exact h.advance (htakes.stay ⟨hsane.offset, by simp⟩ (by simp [ElfApplication.pending]))
    | consoleRead capacity =>
      dsimp only
      split
      · exact h.advance (htakes.return hsane.offset (by simp [returnedBytes]) trivial)
      · exact h.advance (htakes.stay ⟨hsane.offset, by simp⟩ (by simp [ElfApplication.pending]))

variable (presents : Nat → Bool)

omit [DecidableEq ι] in
theorem delivered_updateViewport (c : Console.System ι) (i : ι) (scroll : Console.Scroll) :
    (Console.updateViewport presents c i scroll).2.history.delivered = c.history.delivered :=
  congrArg Console.Focus.delivered (Console.repainted_updateViewport presents c i scroll).focus

omit [DecidableEq ι] in
theorem delivered_poll {c : Console.System ι} {i : ι} {event : Input.InputEvent} (hpolled : Console.consolePolled c i = some event)
    (now : Nat) : (Console.tabosConsolePoll c i now).history.delivered = c.history.delivered ++ [(i, event)] := by
  unfold Console.tabosConsolePoll
  rw [hpolled]
  exact congrArg Console.Focus.delivered (Console.repainted_restartCursorBlink _ now).focus

/-- An event that a call passes over adds nothing to standard input. -/
theorem Takes.skip {r : Routed ι} (h : Takes s t i [r]) (hs : Streams s) (hnone : r.streamed = []) : Streams t :=
  hs.advance (h.keep hs (by simp [hnone]))

/-- A read returns the bytes of an event. -/
theorem returnPending_streams {r : Routed ι} (h : Takes s t i [r]) (hs : Streams s) (hnone : (s.application i).pending = []) {a : ElfApplication}
    (hbytes : a.inputPending = r.streamed ∧ a.inputPendingOffset = 0) (hne : r.streamed ≠ []) (count : Nat) :
    Streams (t.returnPending i a count) := by
  have hpending : a.pending = r.streamed := by simp [ElfApplication.pending, hbytes.1, hbytes.2]
  have htaken := readPendingInput_taken (a := a) (.inr (by rw [hbytes.1, hbytes.2]; exact List.length_pos_iff.2 hne)) count
  unfold System.returnPending
  generalize readPendingInput a count = both at htaken
  obtain ⟨data, b⟩ := both
  refine hs.advance (h.return htaken.offset ?_ (.inr ⟨data, rfl, htaken.length_le, fun hcount hnil => ?_⟩))
  · simpa [returnedBytes, hnone, hpending] using htaken.bytes
  · rcases htaken.none.1 hnil with hzero | hempty
    · omega
    · exact hne (hpending.symm.trans hempty)

theorem handle_streams (hs : Streams s) {call : Call} {event : Input.InputEvent} (hcall : (s.application i).call = some call)
    (h : Takes s t i [⟨i, s.application i, call, event⟩]) : Streams (handle presents t i call event) := by
  have hsane := hs.sane i
  have hscroll : ∀ scroll, Takes s { t with console := (Console.updateViewport presents t.console i scroll).2 } i
      [⟨i, s.application i, call, event⟩] := fun scroll =>
    ⟨h.application, h.returned, h.routed, h.own, (delivered_updateViewport presents t.console i scroll).trans h.delivered⟩
  have happlication : t.application i = s.application i := congrFun h.application i
  unfold handle
  dsimp only
  rw [happlication]
  cases call with
  | fdRead count =>
    obtain ⟨hempty, hcount⟩ := hsane.reading count hcall
    have hnone : (s.application i).pending = [] := hsane.pending_eq_nil.2 hempty
    dsimp only
    cases hnav : handleTtyNavigation (s.application i) event with
    | some scroll => exact (hscroll scroll).skip hs (by simp [Routed.streamed, hnav])
    | none =>
      have hstreamed : (⟨i, s.application i, .fdRead count, event⟩ : Routed ι).streamed = encode event := by
        simp [Routed.streamed, hnav]
      have hqueued : ¬(event.type = .keyDown ∧ event.key = keyBackspace) →
          Streams (if (queueInputEvent (s.application i) event).1 then t.returnPending i (queueInputEvent (s.application i) event).2 count
            else t) := by
        intro hkey
        obtain ⟨hput, hleft⟩ := queueInputEvent_pending hempty hkey
        cases hresult : (queueInputEvent (s.application i) event).1 with
        | true =>
          obtain ⟨hne, hbytes⟩ := hput hresult
          exact returnPending_streams h hs hnone (by rwa [hstreamed]) (by rwa [hstreamed]) count
        | false => exact h.skip hs (hstreamed.trans (hleft hresult))
      dsimp only
      split
      · rename_i htext
        exact hqueued (by simp [htext])
      · split
        · rename_i hback
          refine hs.advance (h.return hsane.offset ?_ (.inr ⟨[8], rfl, by simp only [List.length_singleton]; omega, by simp⟩))
          simp [returnedBytes, hnone, hstreamed, encode, hback.1, hback.2]
        · rename_i hback
          exact hqueued hback
  | inputPoll =>
    dsimp only
    cases hnav : handleTtyNavigation (s.application i) event with
    | some scroll => exact (hscroll scroll).skip hs rfl
    | none =>
      dsimp only
      split
      · exact h.skip hs rfl
      · exact hs.advance (h.return hsane.offset (by simp [returnedBytes, Routed.streamed]) trivial)
  | consoleRead capacity =>
    dsimp only
    split_ifs
    · exact hs.advance (h.return hsane.offset (by simp [returnedBytes, Routed.streamed]) trivial)
    · exact hs.advance (h.return hsane.offset (by simp [returnedBytes, Routed.streamed]) trivial)
    · exact h.skip hs rfl

theorem turn_streams (hs : Streams s) (i : ι) (now : Nat) : Streams (turn presents s i now) := by
  unfold turn
  dsimp only
  cases hcall : (s.application i).call with
  | none => exact hs
  | some call =>
    dsimp only
    cases hpolled : Console.consolePolled s.console i with
    | some event =>
      exact handle_streams presents hs hcall ⟨rfl, rfl, rfl, by simp, by simpa using delivered_poll hpolled now⟩
    | none =>
      refine hs.advance ((Takes.refl s i).return (hs.sane i).offset ?_ ?_)
      · cases call <;> simp [returnedBytes]
      · cases call <;> simp [Fulfilled]

/-- Only a poll takes an event from the console. -/
theorem delivered_other (c : Console.System ι) {event : Console.Event ι} (hother : other event = true) :
    (Console.step presents c event).history.delivered = c.history.delivered := by
  have hturn := Console.turn_step presents c event
  have hfocus : (Console.step presents c event).focus.delivered = (Console.step presents c event).history.delivered := rfl
  rw [← hfocus]
  generalize (Console.step presents c event).focus = g at hturn
  cases hturn with
  | polled => simp [other] at hother
  | _ => rfl

theorem step_streams (hs : Streams s) (event : Event ι) : Streams (step presents s event) := by
  cases event with
  | begin i call => exact begin_streams hs i call
  | turn i now => exact turn_streams presents hs i now
  | ttySetMode i scrollKeys rawInput =>
    have hsane := hs.sane i
    exact hs.advance ((Takes.refl s i).stay ⟨hsane.offset, hsane.reading⟩ (by simp [ElfApplication.pending]))
  | graphics i active now =>
    have hsane := hs.sane i
    have hdelivered : (Console.consoleSetGraphicsActive presents s.console active now).history.delivered = s.console.history.delivered :=
      congrArg Console.Focus.delivered (Console.repainted_consoleSetGraphicsActive presents s.console active now).focus
    have hconsole : Takes s { s with console := Console.consoleSetGraphicsActive presents s.console active now } i [] :=
      ⟨rfl, rfl, by simp, by simp, by simpa using hdelivered⟩
    exact hs.advance (hconsole.stay (a := { s.application i with graphicsActive := active }) ⟨hsane.offset, hsane.reading⟩
      (by simp [ElfApplication.pending]))
  | console event hother =>
    exact ⟨hs.sane, hs.bytes, hs.delivered.trans (delivered_other presents s.console hother).symm, hs.fulfilled⟩

/-- In every run, for every application: what its reads have returned, with the bytes that wait for the next one, are the bytes of the events
that its reads took from the console, in their order, but for those that moved the viewport; every event that the console gave out was
polled by one application, in this order; a read returns at least a byte, and no more than it was asked for, or that there is nothing; and
while it waits for an event, no byte waits. -/
theorem stdin_exact (generation : UInt32) (events : List (Event ι)) :
    let s := run presents (System.boot ι generation) events
    (∀ i, s.read i ++ (s.application i).pending = s.taken i) ∧
      s.routed.map (fun r => (r.application, r.event)) = s.console.history.delivered ∧ (∀ r ∈ s.returned, Fulfilled r.2) ∧
      ∀ i count, (s.application i).call = some (.fdRead count) → (s.application i).pending = [] := by
  intro s
  have hboot : Streams (System.boot ι generation) := ⟨fun _ => sane_new, fun _ => rfl, rfl, fun r hr => absurd hr List.not_mem_nil⟩
  have hs : Streams s := foldl_invariant (fun t : System ι => Streams t) (fun t event ht => step_streams presents ht event) events hboot
  refine ⟨hs.bytes, hs.delivered, hs.fulfilled, fun i count hcall => ?_⟩
  exact (hs.sane i).pending_eq_nil.2 ((hs.sane i).reading count hcall).1

/-! ## The console below -/

/-- The console goes on by events of its own. -/
def Goes (c d : Console.System ι) : Prop :=
  ∃ events, d = Console.run presents c events ∧ Along (Console.step presents) (fun c event => Console.Orderly c.token event) c events

theorem Goes.refl (c : Console.System ι) : Goes presents c c := ⟨[], rfl, trivial⟩

theorem Goes.single (c : Console.System ι) (event : Console.Event ι) (horderly : Console.Orderly c.token event) :
    Goes presents c (Console.step presents c event) := ⟨[event], rfl, horderly, trivial⟩

theorem Goes.trans {c d e : Console.System ι} (h : Goes presents c d) (h' : Goes presents d e) : Goes presents c e := by
  obtain ⟨first, rfl, hfirst⟩ := h
  obtain ⟨second, rfl, hsecond⟩ := h'
  exact ⟨first ++ second, by simp [Console.run], (along_append _ _ _).2 ⟨hfirst, hsecond⟩⟩

@[simp] theorem console_return (s : System ι) (i : ι) (a : ElfApplication) (call : Call) (result : Result) :
    (s.return i a call result).console = s.console := rfl

@[simp] theorem console_returnPending (s : System ι) (i : ι) (a : ElfApplication) (count : Nat) :
    (s.returnPending i a count).console = s.console := rfl

theorem console_begin (s : System ι) (i : ι) (call : Call) : (begin s i call).console = s.console := by
  unfold begin
  dsimp only
  split
  · rfl
  · cases call with
    | fdRead count =>
      dsimp only
      split_ifs <;> rfl
    | inputPoll => rfl
    | consoleRead capacity =>
      dsimp only
      split_ifs <;> rfl

theorem handle_goes (s : System ι) (i : ι) (call : Call) (event : Input.InputEvent) :
    Goes presents s.console (handle presents s i call event).console := by
  have hscroll : ∀ scroll, Goes presents s.console (Console.updateViewport presents s.console i scroll).2 := fun scroll =>
    Goes.single presents s.console (.scroll i scroll) (by simp [Console.Orderly])
  have hsame := Goes.refl presents s.console
  unfold handle
  cases call with
  | fdRead count =>
    dsimp only
    split
    · exact hscroll _
    · split_ifs <;> exact hsame
  | inputPoll =>
    dsimp only
    split
    · exact hscroll _
    · split_ifs <;> exact hsame
  | consoleRead capacity =>
    dsimp only
    split_ifs <;> exact hsame

/-- The console is shut down when no session has a token. -/
def Orderly (s : System ι) : Event ι → Prop
  | .console event _ => Console.Orderly s.console.token event
  | _ => True

theorem step_goes (s : System ι) {event : Event ι} (horderly : Orderly s event) :
    Goes presents s.console (step presents s event).console := by
  cases event with
  | begin i call =>
    have hsame := console_begin s i call
    show Goes presents s.console (begin s i call).console
    rw [hsame]
    exact .refl presents s.console
  | turn i now =>
    show Goes presents s.console (turn presents s i now).console
    unfold turn
    dsimp only
    split
    · exact .refl presents s.console
    · split
      · refine (Goes.single presents s.console (.poll i now) (by simp [Console.Orderly])).trans presents ?_
        exact handle_goes presents _ i _ _
      · exact .refl presents s.console
  | ttySetMode i scrollKeys rawInput => exact .refl presents s.console
  | graphics i active now =>
    exact Goes.single presents s.console (.setGraphicsActive active now) (by simp [Console.Orderly])
  | console event hother => exact Goes.single presents s.console event horderly

def OrderlyRun (generation : UInt32) (events : List (Event ι)) : Prop :=
  Along (step presents) Orderly (System.boot ι generation) events

theorem run_goes {generation : UInt32} {events : List (Event ι)} (horderly : OrderlyRun presents generation events) :
    Goes presents (Console.System.boot ι generation) (run presents (System.boot ι generation) events).console :=
  horderly.invariant (fun s => Goes presents (Console.System.boot ι generation) s.console)
    (fun s _ hs hevent => hs.trans presents (step_goes presents s hevent)) (.refl presents _)

/-- An application that reads what is typed for it in two parts. -/
def typed : List (Event Bool) :=
  [.console (.init .threeByThree true) rfl, .console (.acquire true 0) rfl, .begin true (.fdRead 1),
    .console (.keyboard (.submit (Input.InputEvent.ofText 97) 1)) rfl, .turn true 2, .begin true (.fdRead 8),
    .console (.keyboard (.submit { Input.InputEvent.zero with key := keyUp } 3)) rfl, .turn true 4]

example : (run (fun _ => true) (System.boot Bool 7) typed).read true = [97, 0x1b, 0x5b, 65] := by decide

/-! ## Every call returns -/

/-- What the loop does with an event leaves the queue. -/
theorem input_handle (s : System ι) (i : ι) (call : Call) (event : Input.InputEvent) :
    (handle presents s i call event).console.input = s.console.input := by
  have hscroll : ∀ scroll, (Console.updateViewport presents s.console i scroll).2.input = s.console.input := fun scroll =>
    congrArg Console.Focus.input (Console.repainted_updateViewport presents s.console i scroll).focus
  unfold handle
  cases call with
  | fdRead count =>
    dsimp only
    split
    · exact hscroll _
    · split_ifs <;> rfl
  | inputPoll =>
    dsimp only
    split
    · exact hscroll _
    · split_ifs <;> rfl
  | consoleRead capacity =>
    dsimp only
    split_ifs <;> rfl

omit [DecidableEq ι] in
theorem count_poll {c : Console.System ι} {i : ι} {event : Input.InputEvent} (hpolled : Console.consolePolled c i = some event) (now : Nat) :
    (Console.tabosConsolePoll c i now).input.queue.count + 1 = c.input.queue.count := by
  have hinput : (Console.tabosConsolePoll c i now).input = Input.tabosInputPoll c.input := by
    unfold Console.tabosConsolePoll
    rw [hpolled]
    exact congrArg Console.Focus.input (Console.repainted_restartCursorBlink _ now).focus
  unfold Console.consolePolled Input.polledEvent at hpolled
  split at hpolled
  · split at hpolled
    · simp at hpolled
    · rename_i hcount
      simp only [hinput, Input.tabosInputPoll, if_neg hcount, Library.Queue.popFront]
      omega
  · simp at hpolled

end Stdin
end Application
end TabOS
