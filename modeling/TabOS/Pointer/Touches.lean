import TabOS.Pointer.Basic

/-!
# Touches that are delivered whole

The events of a stream are watched for the contacts that its reader has down. What is delivered once everything in the queue is read
changes only when an event enters the queue or the contacts are cancelled, and it stays well formed exactly when those events fit.
-/

namespace TabOS
namespace Pointer

open Library

/-! ## The pattern of a touch -/

/-- The contacts that are down after an event. -/
def observe (down : Nat → Bool) (event : PointerEvent) : Nat → Bool :=
  match event.type with
  | .down => Function.update down event.contactId true
  | .up => Function.update down event.contactId false
  | .cancel => Function.update down event.contactId false
  | _ => down

/-- A contact goes down only when it is not down, and everything else happens to it only when it is. -/
def Fitting (down : Nat → Bool) (event : PointerEvent) : Prop := event.type = .down ↔ down event.contactId = false

instance (down : Nat → Bool) (event : PointerEvent) : Decidable (Fitting down event) :=
  decidable_of_iff (event.type = .down ↔ down event.contactId = false) Iff.rfl

/-- The contacts that are down after some events, the latest first. -/
def contactsDown (events : List PointerEvent) : Nat → Bool := watch observe (fun _ => false) events

/-- The events of every contact, the latest first, are the start of a sequence of touches. -/
def WellFormed (events : List PointerEvent) : Prop := Always observe (fun _ => false) Fitting events

instance decidableWellFormed : ∀ events, Decidable (WellFormed events)
  | [] => isTrue trivial
  | event :: events => @instDecidableAnd (Fitting (contactsDown events) event) (WellFormed events) _ (decidableWellFormed events)

theorem wellFormed_cons {event : PointerEvent} {events : List PointerEvent} :
    WellFormed (event :: events) ↔ Fitting (contactsDown events) event ∧ WellFormed events := Iff.rfl

/-! ## What is delivered -/

/-- What is delivered once the queue is read, the latest first. -/
def PointerStream.promised (stream : PointerStream) : List PointerEvent := stream.queue.contents.reverse ++ stream.delivered

/-- The contacts that the reader has down. -/
def PointerStream.held (stream : PointerStream) : Nat → Bool := contactsDown stream.delivered

/-- The contacts that the reader has down once it has read the queue. -/
def PointerStream.due (stream : PointerStream) : Nat → Bool := contactsDown stream.promised

variable {stream : PointerStream} {deviceId : Nat} {event : PointerEvent}

theorem WellFormed.delivered (h : WellFormed stream.promised) : WellFormed stream.delivered := h.of_append

theorem promised_enqueue (hcount : stream.queue.count < pointerQueueCapacity) (event : PointerEvent) :
    (enqueue stream event).promised = event :: stream.promised := by
  rw [PointerStream.promised, enqueue, Queue.contents_pushBack hcount, List.reverse_append]
  rfl

theorem promised_takeEvent (hfits : stream.queue.Fits) (hcount : 0 < stream.queue.count) :
    (takeEvent stream).promised = stream.promised := by
  rw [PointerStream.promised, PointerStream.promised, Queue.contents_eq_cons hfits hcount, List.reverse_cons, List.append_assoc]
  rfl

/-! ## Cancellation -/

/-- Cancels the active contacts below a number. -/
def cancelBelow (deviceId : Nat) (stream : PointerStream) (bound : Nat) : PointerStream :=
  (List.range bound).foldl (cancelContact deviceId) { stream with queue := stream.queue.clear }

theorem cancelBelow_succ (deviceId : Nat) (stream : PointerStream) (bound : Nat) :
    cancelBelow deviceId stream (bound + 1) = cancelContact deviceId (cancelBelow deviceId stream bound) bound := by
  rw [cancelBelow, cancelBelow, List.range_succ, List.foldl_append]
  rfl

/-- What the cancellation of the contacts below a number makes of a stream. -/
structure CancelledBelow (stream : PointerStream) (bound : Nat) (t : PointerStream) : Prop where
  fits : t.queue.Fits
  count_le : t.queue.count ≤ bound
  contacts : ∀ contact, t.contacts contact = (stream.contacts contact && !decide (contact < bound))
  delivered : t.delivered = stream.delivered
  due : ∀ contact, t.due contact = (stream.held contact && !(stream.contacts contact && decide (contact < bound)))
  wellFormed : WellFormed t.promised ↔
    WellFormed stream.delivered ∧ ∀ contact < bound, stream.contacts contact = true → stream.held contact = true

theorem cancelledBelow (hfits : stream.queue.Fits) (deviceId : Nat) {bound : Nat} (hbound : bound ≤ pointerQueueCapacity) :
    CancelledBelow stream bound (cancelBelow deviceId stream bound) := by
  induction bound with
  | zero =>
    refine ⟨hfits.clear, le_refl _, fun contact => by simp [cancelBelow], rfl, fun contact => ?_, ?_⟩
    · simp only [Nat.not_lt_zero, decide_false, Bool.and_false, Bool.not_false, Bool.and_true]
      rfl
    · exact ⟨fun h => ⟨h, fun contact hlt => absurd hlt (Nat.not_lt_zero _)⟩, fun h => h.1⟩
  | succ bound ih =>
    have hspec := ih (Nat.le_of_succ_le hbound)
    rw [cancelBelow_succ, cancelContact]
    have hlt : ∀ contact, contact < bound + 1 ↔ contact = bound ∨ contact < bound := fun contact => by omega
    have hactive : (cancelBelow deviceId stream bound).contacts bound = stream.contacts bound := by
      rw [hspec.contacts, decide_eq_false (lt_irrefl _), Bool.not_false, Bool.and_true]
    have hheld : (cancelBelow deviceId stream bound).due bound = stream.held bound := by
      rw [hspec.due, decide_eq_false (lt_irrefl _), Bool.and_false, Bool.not_false, Bool.and_true]
    rw [hactive]
    by_cases hcontact : stream.contacts bound = true
    · rw [if_pos hcontact]
      have hcount : (cancelBelow deviceId stream bound).queue.count < pointerQueueCapacity := lt_of_le_of_lt hspec.count_le hbound
      have hpromised := promised_enqueue hcount (cancelEvent deviceId (cancelBelow deviceId stream bound) bound)
      refine ⟨hspec.fits.pushBack hcount _, Nat.succ_le_succ hspec.count_le, fun contact => ?_, hspec.delivered, fun contact => ?_, ?_⟩
      · show Function.update (cancelBelow deviceId stream bound).contacts bound false contact = _
        by_cases heq : contact = bound
        · rw [heq, Function.update_self, decide_eq_true (Nat.lt_succ_self _), Bool.not_true, Bool.and_false]
        · rw [Function.update_of_ne heq, hspec.contacts, decide_eq_decide.2 ((hlt contact).trans (or_iff_right heq))]
      · show contactsDown (enqueue (cancelBelow deviceId stream bound) _).promised contact = _
        rw [hpromised]
        show Function.update (cancelBelow deviceId stream bound).due bound false contact = _
        by_cases heq : contact = bound
        · rw [heq, Function.update_self, hcontact, decide_eq_true (Nat.lt_succ_self _), Bool.and_true, Bool.not_true, Bool.and_false]
        · rw [Function.update_of_ne heq, hspec.due, decide_eq_decide.2 ((hlt contact).trans (or_iff_right heq))]
      · show WellFormed (enqueue (cancelBelow deviceId stream bound) _).promised ↔ _
        rw [hpromised, wellFormed_cons, hspec.wellFormed]
        have hfitting : Fitting (contactsDown (cancelBelow deviceId stream bound).promised)
            (cancelEvent deviceId (cancelBelow deviceId stream bound) bound) ↔ stream.held bound = true := by
          rw [← hheld, ← Bool.not_eq_false]
          exact iff_false_left (show ¬PointerEventType.cancel = PointerEventType.down by decide)
        rw [hfitting]
        constructor
        · rintro ⟨hbounded, hdelivered, hothers⟩
          refine ⟨hdelivered, fun contact hcontactlt hactive => ?_⟩
          rcases (hlt contact).1 hcontactlt with rfl | hless
          · exact hbounded
          · exact hothers contact hless hactive
        · rintro ⟨hdelivered, hall⟩
          exact ⟨hall bound (Nat.lt_succ_self _) hcontact, hdelivered, fun contact hless => hall contact (Nat.lt_succ_of_lt hless)⟩
    · rw [if_neg hcontact]
      have hinactive : stream.contacts bound = false := Bool.eq_false_iff.2 hcontact
      have hand : ∀ contact, (stream.contacts contact && decide (contact < bound + 1)) =
          (stream.contacts contact && decide (contact < bound)) := by
        intro contact
        by_cases heq : contact = bound
        · rw [heq, hinactive, Bool.false_and, Bool.false_and]
        · rw [decide_eq_decide.2 ((hlt contact).trans (or_iff_right heq))]
      refine ⟨hspec.fits, Nat.le_succ_of_le hspec.count_le, fun contact => ?_, hspec.delivered, fun contact => ?_, ?_⟩
      · by_cases heq : contact = bound
        · rw [heq, hactive, hinactive, Bool.false_and]
        · rw [hspec.contacts, decide_eq_decide.2 ((hlt contact).trans (or_iff_right heq))]
      · rw [hspec.due, hand]
      · rw [hspec.wellFormed]
        refine and_congr_right fun _ => ⟨fun hothers contact hcontactlt hdown => ?_, fun hall contact hless => ?_⟩
        · rcases (hlt contact).1 hcontactlt with rfl | hless
          · exact absurd hdown hcontact
          · exact hothers contact hless hdown
        · exact hall contact (Nat.lt_succ_of_lt hless)

theorem cancelledBelow_all (hfits : stream.queue.Fits) (deviceId : Nat) :
    CancelledBelow stream pointerMaxContacts (cancelContacts deviceId stream) := cancelledBelow hfits deviceId (by decide)

/-- The reader has every active contact down, so that each cancellation ends a touch it knows. -/
def Cancellable (stream : PointerStream) : Prop :=
  ∀ contact < pointerMaxContacts, stream.contacts contact = true → stream.held contact = true

instance (stream : PointerStream) : Decidable (Cancellable stream) :=
  inferInstanceAs (Decidable (∀ contact < pointerMaxContacts, stream.contacts contact = true → stream.held contact = true))

/-! ## Submission -/

/-- The event fits behind what the queue holds, or, where the queue is full, behind the cancellation of the active contacts. -/
def CanReceive (stream : PointerStream) (event : PointerEvent) : Prop :=
  if stream.queue.count = pointerQueueCapacity then
    Cancellable stream ∧
      (event.type = .down ↔ (stream.held event.contactId && !stream.contacts event.contactId) = false)
  else Fitting stream.due event

instance (stream : PointerStream) (event : PointerEvent) : Decidable (CanReceive stream event) :=
  inferInstanceAs (Decidable (if stream.queue.count = pointerQueueCapacity then
      Cancellable stream ∧ (event.type = .down ↔ (stream.held event.contactId && !stream.contacts event.contactId) = false)
    else Fitting stream.due event))

theorem promised_trackContact (stream : PointerStream) (event : PointerEvent) :
    (trackContact stream event).promised = stream.promised := by
  rw [trackContact]
  split_ifs <;> rfl

theorem queue_trackContact (stream : PointerStream) (event : PointerEvent) : (trackContact stream event).queue = stream.queue := by
  rw [trackContact]
  split_ifs <;> rfl

theorem makeRoom_fits (hfits : stream.queue.Fits) (deviceId : Nat) :
    (makeRoom deviceId stream).queue.Fits ∧ (makeRoom deviceId stream).queue.count < pointerQueueCapacity := by
  rw [makeRoom]
  split_ifs with hfull
  · have hspec := cancelledBelow_all hfits deviceId
    exact ⟨hspec.fits, lt_of_le_of_lt hspec.count_le (by decide)⟩
  · exact ⟨hfits, lt_of_le_of_ne hfits.count_le hfull⟩

/-- An event enters a queue where it fits, and nowhere else, without spoiling what the queue promises. -/
theorem wellFormed_makeRoom_enqueue (hfits : stream.queue.Fits) (h : WellFormed stream.promised)
    (hcontact : event.contactId < pointerMaxContacts) (deviceId deviceId' : Nat) :
    WellFormed (enqueue (makeRoom deviceId stream) { event with deviceId := deviceId' }).promised ↔ CanReceive stream event := by
  rw [promised_enqueue (makeRoom_fits hfits deviceId).2, wellFormed_cons, makeRoom, CanReceive]
  split_ifs with hfull
  · have hspec := cancelledBelow_all hfits deviceId
    have hdue : (cancelContacts deviceId stream).due event.contactId =
        (stream.held event.contactId && !stream.contacts event.contactId) := by
      rw [hspec.due, decide_eq_true hcontact, Bool.and_true]
    rw [hspec.wellFormed, ← hdue, and_comm]
    exact and_congr_left fun _ => and_iff_right h.delivered
  · exact and_iff_left h

/-! ## Steps -/

/-- No stream has an event or a cancellation that does not fit. -/
def Fits (s : PointerState) : Operation → Prop
  | .submit event => Accepted event → ∀ index, Receives s (s.streams index) → CanReceive (s.streams index) event
  | .setForegroundOwner owner => s.foregroundOwner ≠ owner →
      ∀ index, (s.streams index).isOpen = true ∧ (s.streams index).owner = s.foregroundOwner → Cancellable (s.streams index)
  | .removeDevice => ∀ index, (s.streams index).isOpen = true → Cancellable (s.streams index)
  | _ => True

instance decidableFits (s : PointerState) : ∀ operation, Decidable (Fits s operation)
  | .submit event => inferInstanceAs (Decidable (Accepted event → ∀ index, Receives s (s.streams index) →
      CanReceive (s.streams index) event))
  | .setForegroundOwner owner => inferInstanceAs (Decidable (s.foregroundOwner ≠ owner →
      ∀ index, (s.streams index).isOpen = true ∧ (s.streams index).owner = s.foregroundOwner → Cancellable (s.streams index)))
  | .removeDevice => inferInstanceAs (Decidable (∀ index, (s.streams index).isOpen = true → Cancellable (s.streams index)))
  | .setDeviceId _ => isTrue trivial
  | .open _ _ => isTrue trivial
  | .close _ _ => isTrue trivial
  | .read _ _ => isTrue trivial
  | .closeOwner _ => isTrue trivial
  | .takePowerActivity => isTrue trivial
  | .recordMovement => isTrue trivial

/-- Every queue stays within its capacity. -/
def Bounded (s : PointerState) : Prop := ∀ index, (s.streams index).queue.Fits

/-- Every stream promises whole touches. -/
def AllWellFormed (s : PointerState) : Prop := ∀ index, WellFormed (s.streams index).promised

/-- What the other operations do to a stream. -/
inductive Plain (stream : PointerStream) : PointerStream → Prop
  | same : Plain stream stream
  | fresh {t : PointerStream} (hpromised : t.promised = []) (hfits : t.queue.Fits) : Plain stream t
  | taken (hcount : 0 < stream.queue.count) : Plain stream (takeEvent stream)

variable {s : PointerState}

theorem Plain.fits {t : PointerStream} (h : Plain stream t) (hfits : stream.queue.Fits) : t.queue.Fits := by
  cases h with
  | same => exact hfits
  | fresh hpromised hfresh => exact hfresh
  | taken hcount => exact hfits.popFront

theorem Plain.wellFormed {t : PointerStream} (h : Plain stream t) (hfits : stream.queue.Fits) (hwf : WellFormed stream.promised) :
    WellFormed t.promised := by
  cases h with
  | same => exact hwf
  | fresh hpromised hfresh =>
    rw [hpromised]
    trivial
  | taken hcount => rwa [promised_takeEvent hfits hcount]

theorem plain_closed (stream : PointerStream) (generation : Nat) : Plain stream (.closed generation) :=
  .fresh rfl ⟨show 0 < 64 by decide, Nat.zero_le _⟩

theorem plain_setStream (s : PointerState) {index : Fin pointerStreamCapacity} {t : PointerStream} (h : Plain (s.streams index) t)
    (other : Fin pointerStreamCapacity) : Plain (s.streams other) ((setStream s index t).streams other) := by
  show Plain (s.streams other) (Function.update s.streams index t other)
  by_cases heq : other = index
  · rw [heq, Function.update_self]
    exact h
  · rw [Function.update_of_ne heq]
    exact .same

theorem plain_open (s : PointerState) (owner : Option Owner) (deviceId : Nat) (index : Fin pointerStreamCapacity) :
    Plain (s.streams index) ((pointerServiceOpen s owner deviceId).2.streams index) := by
  rw [pointerServiceOpen]
  split_ifs
  · exact .same
  · exact .same
  · cases firstClosed s with
    | none => exact .same
    | some first => exact plain_setStream s (.fresh rfl ⟨show 0 < 64 by decide, Nat.zero_le _⟩) index

theorem plain_close (s : PointerState) (owner : Option Owner) (handle : Int) (index : Fin pointerStreamCapacity) :
    Plain (s.streams index) ((pointerServiceClose s owner handle).2.streams index) := by
  rw [pointerServiceClose]
  cases ownedStream s owner handle with
  | none => exact .same
  | some named => exact plain_setStream s (plain_closed _ _) index

theorem plain_read (s : PointerState) (owner : Option Owner) (handle : Int) (index : Fin pointerStreamCapacity) :
    Plain (s.streams index) ((pointerServiceRead s owner handle).2.2.streams index) := by
  rw [pointerServiceRead]
  cases ownedStream s owner handle with
  | none => exact .same
  | some named =>
    show Plain _ (PointerState.streams (if owner ≠ s.foregroundOwner then _ else _ : Int × Option PointerEvent × PointerState).2.2 index)
    by_cases hforeground : owner ≠ s.foregroundOwner
    · rw [if_pos hforeground]
      exact .same
    · rw [if_neg hforeground]
      by_cases hcount : (s.streams named).queue.count = 0
      · rw [if_pos hcount]
        exact .same
      · rw [if_neg hcount]
        exact plain_setStream s (.taken (Nat.pos_of_ne_zero hcount)) index

theorem plain_closeOwner (s : PointerState) (owner : Option Owner) (index : Fin pointerStreamCapacity) :
    Plain (s.streams index) ((pointerServiceCloseOwner s owner).streams index) := by
  rw [pointerServiceCloseOwner]
  by_cases hnone : owner = none
  · rw [if_pos hnone]
    exact .same
  · rw [if_neg hnone]
    by_cases howned : (s.streams index).isOpen = true ∧ (s.streams index).owner = owner
    · simp only [if_pos howned]
      exact plain_closed _ _
    · simp only [if_neg howned]
      exact .same

/-- What an event does to a stream that may receive it. -/
theorem receive_spec (hfits : stream.queue.Fits) (event : PointerEvent) :
    (receive s event stream).queue.Fits ∧ (event.contactId < pointerMaxContacts → WellFormed stream.promised →
      (WellFormed (receive s event stream).promised ↔ (Receives s stream → CanReceive stream event))) := by
  rw [receive]
  by_cases hreceives : Receives s stream
  · rw [if_pos hreceives, queue_trackContact, promised_trackContact]
    obtain ⟨hroom, hcount⟩ := makeRoom_fits hfits s.pointerDeviceId
    refine ⟨hroom.pushBack hcount _, fun hcontact hwf => ?_⟩
    rw [wellFormed_makeRoom_enqueue hfits hwf hcontact]
    exact ⟨fun h _ => h, fun h => h hreceives⟩
  · rw [if_neg hreceives]
    exact ⟨hfits, fun _ hwf => iff_of_true hwf fun h => absurd h hreceives⟩

theorem loseForeground_spec (hfits : stream.queue.Fits) :
    (loseForeground s stream).queue.Fits ∧ (WellFormed stream.promised →
      (WellFormed (loseForeground s stream).promised ↔
        (stream.isOpen = true ∧ stream.owner = s.foregroundOwner → Cancellable stream))) := by
  rw [loseForeground]
  by_cases hcancelled : stream.isOpen = true ∧ stream.owner = s.foregroundOwner
  · rw [if_pos hcancelled]
    have hspec := cancelledBelow_all hfits s.pointerDeviceId
    refine ⟨hspec.fits, fun hwf => ?_⟩
    rw [hspec.wellFormed, and_iff_right hwf.delivered]
    exact ⟨fun h _ => h, fun h => h hcancelled⟩
  · rw [if_neg hcancelled]
    exact ⟨hfits, fun hwf => iff_of_true hwf fun h => absurd h hcancelled⟩

theorem hangUp_spec (hfits : stream.queue.Fits) :
    (hangUp s stream).queue.Fits ∧ (WellFormed stream.promised →
      (WellFormed (hangUp s stream).promised ↔ (stream.isOpen = true → Cancellable stream))) := by
  rw [hangUp]
  by_cases hopen : stream.isOpen = true
  · rw [if_pos hopen]
    have hspec := cancelledBelow_all hfits s.pointerDeviceId
    refine ⟨hspec.fits, fun hwf => ?_⟩
    show WellFormed (cancelContacts s.pointerDeviceId stream).promised ↔ _
    rw [hspec.wellFormed, and_iff_right hwf.delivered]
    exact ⟨fun h _ => h, fun h => h hopen⟩
  · rw [if_neg hopen]
    exact ⟨hfits, fun hwf => iff_of_true hwf fun h => absurd h hopen⟩

/-- Operations other than submissions, focus changes and removal do only plain things. -/
theorem plain_spec {t : PointerState} (h : ∀ index, Plain (s.streams index) (t.streams index)) (hbounded : Bounded s) :
    Bounded t ∧ (AllWellFormed s → (AllWellFormed t ↔ True)) :=
  ⟨fun index => (h index).fits (hbounded index),
    fun hwf => iff_true_intro fun index => (h index).wellFormed (hbounded index) (hwf index)⟩

/-- An operation keeps the queues bounded, and keeps the promises of well-formed streams exactly when everything fits. -/
theorem step_spec (hbounded : Bounded s) (operation : Operation) :
    Bounded (step s operation) ∧ (AllWellFormed s → (AllWellFormed (step s operation) ↔ Fits s operation)) := by
  cases operation with
  | setDeviceId deviceId => exact plain_spec (fun _ => .same) hbounded
  | setForegroundOwner owner =>
    show Bounded (pointerServiceSetForegroundOwner s owner) ∧ _
    rw [step, pointerServiceSetForegroundOwner, Fits]
    by_cases hne : s.foregroundOwner ≠ owner
    · rw [if_pos hne]
      refine ⟨fun index => (loseForeground_spec (hbounded index)).1, fun hwf => ?_⟩
      have hspec : ∀ index, WellFormed (loseForeground s (s.streams index)).promised ↔ _ :=
        fun index => (loseForeground_spec (hbounded index)).2 (hwf index)
      exact (forall_congr' hspec).trans ⟨fun h _ => h, fun h => h hne⟩
    · rw [if_neg hne]
      exact ⟨hbounded, fun hwf => iff_of_true hwf fun h => absurd h hne⟩
  | «open» owner deviceId => exact plain_spec (plain_open s owner deviceId) hbounded
  | close owner handle => exact plain_spec (plain_close s owner handle) hbounded
  | read owner handle => exact plain_spec (plain_read s owner handle) hbounded
  | closeOwner owner => exact plain_spec (plain_closeOwner s owner) hbounded
  | takePowerActivity => exact plain_spec (fun _ => .same) hbounded
  | recordMovement => exact plain_spec (fun _ => .same) hbounded
  | submit event =>
    show Bounded (pointerServiceSubmit s event) ∧ _
    rw [step, pointerServiceSubmit, Fits]
    by_cases haccepted : Accepted event
    · rw [if_pos haccepted]
      refine ⟨fun index => (receive_spec (hbounded index) event).1, fun hwf => ?_⟩
      have hspec : ∀ index, WellFormed (receive s event (s.streams index)).promised ↔ _ :=
        fun index => (receive_spec (hbounded index) event).2 haccepted.2.1 (hwf index)
      exact (forall_congr' hspec).trans ⟨fun h _ => h, fun h => h haccepted⟩
    · rw [if_neg haccepted]
      exact ⟨hbounded, fun hwf => iff_of_true hwf fun h => absurd h haccepted⟩
  | removeDevice =>
    refine ⟨fun index => (hangUp_spec (hbounded index)).1, fun hwf => ?_⟩
    exact forall_congr' fun index => (hangUp_spec (hbounded index)).2 (hwf index)

/-! ## Runs -/

theorem bounded_run (hbounded : Bounded s) (operations : List Operation) : Bounded (run s operations) :=
  foldl_invariant Bounded (fun _ operation h => (step_spec h operation).1) operations hbounded

/-- The streams of every state of a run are well formed exactly when everything fits along the run. -/
theorem along_fits_iff (hbounded : Bounded s) (hwf : AllWellFormed s) (operations : List Operation) :
    Along step Fits s operations ↔ ∀ before, before <+: operations → AllWellFormed (run s before) := by
  induction operations generalizing s with
  | nil =>
    refine iff_of_true trivial fun before hbefore => ?_
    rw [List.prefix_nil.1 hbefore]
    exact hwf
  | cons operation operations ih =>
    obtain ⟨hbounded', hiff⟩ := step_spec hbounded operation
    rw [along_cons]
    constructor
    · rintro ⟨hfits, hrest⟩ before hbefore
      rcases List.prefix_cons_iff.1 hbefore with rfl | ⟨before', rfl, hbefore'⟩
      · exact hwf
      · exact (ih hbounded' ((hiff hwf).2 hfits)).1 hrest before' hbefore'
    · intro hall
      have hstep : AllWellFormed (step s operation) := hall [operation] (List.prefix_append [operation] operations)
      refine ⟨(hiff hwf).1 hstep, (ih hbounded' hstep).2 fun before hbefore => ?_⟩
      exact hall (operation :: before) (List.cons_prefix_cons.2 ⟨rfl, hbefore⟩)

theorem bounded_initial (pointerError : Int) (detected : Bool) : Bounded (.initial pointerError detected) :=
  fun _ => ⟨show 0 < 64 by decide, Nat.zero_le _⟩

theorem allWellFormed_initial (pointerError : Int) (detected : Bool) : AllWellFormed (.initial pointerError detected) :=
  fun _ => trivial

theorem count_le_capacity (pointerError : Int) (detected : Bool) (operations : List Operation) (index : Fin pointerStreamCapacity) :
    ((run (.initial pointerError detected) operations).streams index).queue.count ≤ pointerQueueCapacity :=
  (bounded_run (bounded_initial _ _) operations index).count_le

/-- In every run the queues stay within their capacity; where everything fits along the run, every stream has delivered the start
of a sequence of touches of each contact, and otherwise some state of the run promises something else. -/
theorem delivered_wellFormed (pointerError : Int) (detected : Bool) (operations : List Operation) :
    (∀ index, ((run (.initial pointerError detected) operations).streams index).queue.count ≤ pointerQueueCapacity) ∧
      (Along step Fits (.initial pointerError detected) operations →
        ∀ index, WellFormed ((run (.initial pointerError detected) operations).streams index).delivered) ∧
      (¬Along step Fits (.initial pointerError detected) operations →
        ∃ before, before <+: operations ∧
          ∃ index, ¬WellFormed ((run (.initial pointerError detected) before).streams index).promised) := by
  have hiff := along_fits_iff (bounded_initial pointerError detected) (allWellFormed_initial _ _) operations
  refine ⟨count_le_capacity pointerError detected operations, fun h index => ?_, fun h => ?_⟩
  · exact (hiff.1 h operations (List.prefix_refl _) index).delivered
  · rw [hiff] at h
    simpa only [AllWellFormed, not_forall, exists_prop] using h

def Operation.submitted? : Operation → Option PointerEvent
  | .submit event => some event
  | _ => none

/-- The submitted events of a run, the latest first. -/
def submitted (operations : List Operation) : List PointerEvent := (operations.filterMap Operation.submitted?).reverse

/-- The stream that is opened first. -/
def firstStream : Fin pointerStreamCapacity := ⟨0, by decide⟩

/-- An event of a contact. -/
def eventOf (type : PointerEventType) (contact : Nat) : PointerEvent := { PointerEvent.zero with type := type, contactId := contact }

/-- A stream of the foreground owner. -/
def opening : List Operation := [.setDeviceId 1, .open (some 7) 1, .setForegroundOwner (some 7)]

/-- A touch that is read while the next one is under way. -/
theorem delivered_wellFormed_two :
    let operations := opening ++ [.submit (eventOf .down 0), .submit (eventOf .up 0), .read (some 7) 8, .submit (eventOf .down 0),
      .read (some 7) 8, .read (some 7) 8, .setForegroundOwner none]
    (((run (.initial 0 true) operations).streams firstStream).delivered.map PointerEvent.type = [.down, .up, .down]) ∧
      WellFormed ((run (.initial 0 true) operations).streams firstStream).delivered :=
  ⟨by decide +kernel, (delivered_wellFormed 0 true _).2.1 (by decide +kernel) firstStream⟩

/-- Whole touches are not delivered whole: after an overflow the reader gets the end of a touch that it never saw begin, or the
beginning of a second one before the end of the first, and a stream that is opened late gets the middle of one. -/
theorem delivered_not_whole :
    let overflow := opening ++ .submit (eventOf .down 0) :: List.replicate pointerQueueCapacity (.submit (eventOf .move 0)) ++
      [.read (some 7) 8]
    let lostEnd := opening ++ [.submit (eventOf .down 0), .submit (eventOf .down 1), .read (some 7) 8, .read (some 7) 8,
        .submit (eventOf .up 0)] ++ List.replicate (pointerQueueCapacity - 1) (.submit (eventOf .move 1)) ++
      [.submit (eventOf .down 2), .submit (eventOf .down 0)] ++ List.replicate 3 (.read (some 7) 8)
    let lateOpen := .submit (eventOf .down 0) :: opening ++ [.submit (eventOf .move 0), .read (some 7) 8]
    ∀ operations ∈ [overflow, lostEnd, lateOpen],
      WellFormed (submitted operations) ∧ ¬WellFormed ((run (.initial 0 true) operations).streams firstStream).delivered := by
  decide +kernel

end Pointer
end TabOS
