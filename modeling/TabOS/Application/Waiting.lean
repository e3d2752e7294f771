import Mathlib.Algebra.Group.Nat.Defs
import Mathlib.Data.List.Basic
import Mathlib.Order.Monotone.Basic
import TabOS.Timer

/-!
# Waiting for several sources

`elf_wait_sources` of `loader/elf_application.c` waits for items whose sources are sockets, which the platform waits for, or services,
which are polled in turn. The answers of the platform are put back at the indices of their items, and the loop ends with as many items
ready as have events.
-/

namespace TabOS
namespace Waiting

/-- The bits of `events`. -/
abbrev Events := BitVec 32

/-- `TABOS_WAIT_READABLE`. -/
def readable : Events := BitVec.twoPow 32 0

/-- `TABOS_WAIT_WRITABLE`. -/
def writable : Events := BitVec.twoPow 32 1

/-- `TABOS_WAIT_STATE_CHANGED`. -/
def stateChanged : Events := BitVec.twoPow 32 2

/-- `TABOS_WAIT_ERROR`. -/
def error : Events := BitVec.twoPow 32 3

/-- `TABOS_WAIT_HANGUP`. -/
def hangup : Events := BitVec.twoPow 32 4

/-- `TABOS_SOCKET_MAX`. -/
def socketMax : Nat := 8

/-- `TABOS_WAIT_TIMEOUT_INFINITE`. -/
def timeoutInfinite : Nat := 0xffffffff

/-- `ELF_WAIT_POLL_SLICE_MS`. -/
def pollSliceMs : Nat := 10

/-- The values of `-TABOS_EBADF`, `-TABOS_EINVAL` and `-TABOS_ECANCELED`, with the other errors of services and the platform. -/
inductive WaitError where
  | ebadf
  | einval
  | ecanceled
  | other (code : Int)
  deriving DecidableEq

/-- `elf_wait_source_type_t`. -/
inductive WaitSourceType where
  | input
  | socket
  | deviceSubscription
  | audio
  | pointer
  | camera
  deriving DecidableEq

/-- `elf_wait_source_t`. -/
structure WaitSource where
  type : WaitSourceType
  parent : Nat
  deriving DecidableEq

/-- `tabos_elf_wait_item_t`. -/
structure WaitItem where
  source : Int
  events : Events
  returnedEvents : Events
  deriving DecidableEq

/-- `platform_network_wait_item_t` before the wait. -/
structure SocketItem where
  socket : Int
  events : Events
  deriving DecidableEq

/-! ## The adapters of the sources -/

/-- What `audio_service_poll` reads of a stream; `frame` is space for a frame, or a frame, in its ring. -/
structure AudioState where
  faulted : Bool
  playback : Bool
  frame : Bool

/-- What `pointer_service_poll` reads of a stream. -/
structure PointerState where
  foreground : Bool
  queued : Bool
  hangup : Bool

/-- What `camera_service_poll` reads of a stream. -/
structure CameraState where
  frame : Bool
  faulted : Bool
  hangup : Bool

/-- What the services have for a source that is polled. -/
structure Readiness where
  foreground : Bool
  inputPending : Bool
  deviceEvents : Except WaitError Nat
  audio : Except WaitError AudioState
  pointer : Except WaitError PointerState
  camera : Except WaitError CameraState

/-- `elf_wait_poll_input`. -/
def pollInput (r : Readiness) (requested : Events) : Except WaitError Events :=
  if r.foreground = false then .error .ebadf else .ok (if r.inputPending then requested &&& readable else 0)

/-- `elf_wait_poll_device_subscription`. -/
def pollDeviceSubscription (r : Readiness) (requested : Events) : Except WaitError Events :=
  match r.deviceEvents with
  | .error e => .error e
  | .ok pending => .ok (if pending > 0 then requested &&& (readable ||| stateChanged) else 0)

/-- `audio_service_poll`. -/
def pollAudio (r : Readiness) (requested : Events) : Except WaitError Events :=
  match r.audio with
  | .error e => .error e
  | .ok stream =>
    let ready := if stream.faulted then error ||| hangup else 0
    let ready := if stream.playback && stream.frame then ready ||| writable else ready
    let ready := if !stream.playback && stream.frame then ready ||| readable else ready
    .ok (ready &&& requested)

/-- `pointer_service_poll`. -/
def pollPointer (r : Readiness) (requested : Events) : Except WaitError Events :=
  match r.pointer with
  | .error e => .error e
  | .ok stream =>
    let result := if stream.foreground && stream.queued && decide (requested &&& readable ≠ 0) then readable else 0
    .ok (if stream.hangup && decide (requested &&& hangup ≠ 0) then result ||| hangup else result)

/-- `camera_service_poll`. -/
def pollCamera (r : Readiness) (requested : Events) : Except WaitError Events :=
  match r.camera with
  | .error e => .error e
  | .ok stream =>
    let result := if stream.frame then requested &&& readable else 0
    let result := if stream.faulted then result ||| (requested &&& error) else result
    .ok (if stream.hangup then result ||| (requested &&& hangup) else result)

/-- The `valid_events` of `elf_wait_source_adapters`. -/
def WaitSourceType.validEvents : WaitSourceType → Events
  | .input => readable
  | .socket => readable ||| writable ||| error ||| hangup
  | .deviceSubscription => readable ||| stateChanged ||| error ||| hangup
  | .audio => readable ||| writable ||| error ||| hangup
  | .pointer => readable ||| error ||| hangup
  | .camera => readable ||| error ||| hangup

/-- The `poll` of `elf_wait_source_adapters`; a socket has none. -/
def WaitSourceType.poll : WaitSourceType → Option (Readiness → Events → Except WaitError Events)
  | .input => some pollInput
  | .socket => none
  | .deviceSubscription => some pollDeviceSubscription
  | .audio => some pollAudio
  | .pointer => some pollPointer
  | .camera => some pollCamera

/-! ## The loop -/

/-- What the application, the services and the platform answer. Before the first round, and in each round, a source of the application is
open or not; the readings of the clock follow one another. -/
structure World where
  sources : Int → Option WaitSource
  isOpen : Nat → Int → Bool
  platformSocket : Nat → Option Int
  readiness : Nat → Nat → Readiness
  socketWait : Nat → List SocketItem → Nat → Except WaitError (Nat → Events)
  clock : Nat → Nat
  waitCancelRequested : Nat → Bool

variable (w : World)

/-- `elf_wait_source`, before the first round or in one. -/
def World.source (time : Nat) (source : Int) : Option WaitSource := if w.isOpen time source then w.sources source else none

/-- What the loop over the items prepares: the items for the platform, the indices of their items, and whether a source is polled. -/
structure Prepared where
  socketItems : List SocketItem
  socketItemIndices : List Nat
  requiresPolling : Bool

/-- The loop that checks the items and prepares the wait. -/
def prepareItems : Nat → List WaitItem → Prepared → Except WaitError Prepared
  | _, [], p => .ok p
  | index, item :: items, p =>
    match w.source 0 item.source with
    | none => .error .ebadf
    | some source =>
      if item.events = 0 ∨ item.events &&& ~~~source.type.validEvents ≠ 0 then .error .einval
      else if source.type.poll = none then
        if p.socketItems.length ≥ socketMax then .error .einval
        else
          match w.platformSocket source.parent with
          | none => .error .ebadf
          | some socket => prepareItems (index + 1) items
              { p with socketItems := p.socketItems ++ [⟨socket, item.events⟩], socketItemIndices := p.socketItemIndices ++ [index] }
      else prepareItems (index + 1) items { p with requiresPolling := true }

/-- An item in a round before the platform has waited. -/
def pollItem (round index : Nat) (item : WaitItem) : Except WaitError WaitItem :=
  match w.source (round + 1) item.source with
  | none => .error .ebadf
  | some source =>
    match source.type.poll with
    | none => .ok { item with returnedEvents := 0 }
    | some poll =>
      match poll (w.readiness round index) item.events with
      | .error e => .error e
      | .ok events => .ok { item with returnedEvents := events }

/-- The loop over the items of a round from some index on, with the number of those that are ready. -/
def pollItems (round : Nat) : Nat → List WaitItem → Except WaitError (Nat × List WaitItem)
  | _, [] => .ok (0, [])
  | index, item :: items => do
    let item ← pollItem w round index item
    let (ready, items) ← pollItems round (index + 1) items
    pure (if item.returnedEvents ≠ 0 then ready + 1 else ready, item :: items)

/-- The loop that puts the answers of the platform back, from some of its items on. -/
def mergeSockets (answers : Nat → Events) : Nat → List Nat → Nat × List WaitItem → Nat × List WaitItem
  | _, [], s => s
  | slot, index :: indices, (ready, items) =>
    mergeSockets answers (slot + 1) indices (if answers slot ≠ 0 then ready + 1 else ready,
      items.modify index fun item => { item with returnedEvents := answers slot })

/-- How long the platform waits in a round. -/
def socketTimeout (p : Prepared) (timeoutMs deadlineMs ready nowMs : Nat) : Nat :=
  if ready = 0 ∧ timeoutMs ≠ 0 ∧ (timeoutMs = timeoutInfinite ∨ nowMs < deadlineMs) then
    if p.requiresPolling = false then
      if timeoutMs ≠ timeoutInfinite then (deadlineMs - nowMs) % 2 ^ 32 else timeoutInfinite
    else if timeoutMs = timeoutInfinite then pollSliceMs
    else min ((deadlineMs - nowMs) % 2 ^ 32) pollSliceMs
  else 0

/-- A round up to its end: the number of items that are ready, and the items. -/
def waitRound (p : Prepared) (timeoutMs deadlineMs round : Nat) (items : List WaitItem) : Except WaitError (Nat × List WaitItem) := do
  let (ready, items) ← pollItems w round 0 items
  let nowMs := w.clock (2 * round + 1)
  if p.socketItems.length > 0 ∨ (ready = 0 ∧ p.requiresPolling = true ∧ timeoutMs ≠ 0) then
    let answers ← w.socketWait round p.socketItems (socketTimeout p timeoutMs deadlineMs ready nowMs)
    pure (mergeSockets answers 0 p.socketItemIndices (ready, items))
  else pure (ready, items)

/-- The loop over the rounds; there is no result while the fuel is not enough. -/
def waitLoop (p : Prepared) (timeoutMs deadlineMs : Nat) : Nat → Nat → List WaitItem → Option (Except WaitError (Nat × List WaitItem))
  | 0, _, _ => none
  | fuel + 1, round, items =>
    match waitRound w p timeoutMs deadlineMs round items with
    | .error e => some (.error e)
    | .ok (ready, items) =>
      if ready > 0 ∨ timeoutMs = 0 ∨ p.requiresPolling = false ∨
          (timeoutMs ≠ timeoutInfinite ∧ w.clock (2 * round + 2) ≥ deadlineMs) then some (.ok (ready, items))
      else if w.waitCancelRequested round then some (.error .ecanceled)
      else waitLoop p timeoutMs deadlineMs fuel (round + 1) items

/-- The deadline of a wait. -/
def World.deadlineMs (timeoutMs : Nat) : Nat :=
  if timeoutMs ≠ timeoutInfinite then timeDeadlineAfter (w.clock 0) timeoutMs else timeDeadlineNone

/-- `elf_wait_sources`: its result and the items, or its error. -/
def elfWaitSources (items : List WaitItem) (timeoutMs fuel : Nat) : Option (Except WaitError (Nat × List WaitItem)) :=
  match prepareItems w 0 items ⟨[], [], false⟩ with
  | .error e => some (.error e)
  | .ok p => waitLoop w p timeoutMs (w.deadlineMs timeoutMs) fuel 0 items

/-! ## Events -/

/-- The bits of some events are among those of others. -/
def Within (events allowed : Events) : Prop := ∀ bit, events.getLsbD bit = true → allowed.getLsbD bit = true

theorem within_zero (allowed : Events) : Within 0 allowed := by
  intro bit h
  have hzero : (0#32).getLsbD bit = false := BitVec.getLsbD_zero
  exact absurd (hzero.symm.trans h) Bool.false_ne_true

theorem within_and_left (events others : Events) : Within (events &&& others) events := by
  intro bit h
  rw [BitVec.getLsbD_and, Bool.and_eq_true] at h
  exact h.1

theorem within_and_right (events others : Events) : Within (others &&& events) events := by
  intro bit h
  rw [BitVec.getLsbD_and, Bool.and_eq_true] at h
  exact h.2

theorem Within.or {events others allowed : Events} (h : Within events allowed) (h' : Within others allowed) :
    Within (events ||| others) allowed := by
  intro bit hbit
  rw [BitVec.getLsbD_or, Bool.or_eq_true] at hbit
  exact hbit.elim (h bit) (h' bit)

theorem Within.trans_or {events allowed : Events} (h : Within events allowed) (others : Events) : Within events (allowed ||| others) := by
  intro bit hbit
  rw [BitVec.getLsbD_or, h bit hbit, Bool.true_or]

theorem within_ite {events others allowed : Events} (h : Within events allowed) (h' : Within others allowed) (c : Prop) [Decidable c] :
    Within (if c then events else others) allowed := by
  split
  · exact h
  · exact h'

/-- A bit that was asked for. -/
theorem within_twoPow {requested : Events} {bit : Nat} (h : requested &&& BitVec.twoPow 32 bit ≠ 0) :
    Within (BitVec.twoPow 32 bit) requested := by
  have hbit : requested.getLsbD bit = true := by
    by_contra hclear
    exact h ((BitVec.and_twoPow requested bit).trans (if_neg hclear))
  intro other hother
  rw [BitVec.getLsbD_twoPow, Bool.and_eq_true, decide_eq_true_eq, decide_eq_true_eq] at hother
  exact hother.2 ▸ hbit

/-- A bit that is set when it was asked for. -/
theorem within_ite_twoPow {requested : Events} {bit : Nat} (b : Bool) :
    Within (if b && decide (requested &&& BitVec.twoPow 32 bit ≠ 0) then BitVec.twoPow 32 bit else 0) requested := by
  split
  · rename_i h
    rw [Bool.and_eq_true, decide_eq_true_eq] at h
    exact within_twoPow h.2
  · exact within_zero requested

/-- A source that is polled returns events that were asked for. -/
theorem poll_within {type : WaitSourceType} {poll : Readiness → Events → Except WaitError Events} (hpoll : type.poll = some poll)
    {r : Readiness} {requested events : Events} (h : poll r requested = .ok events) : Within events requested := by
  cases type with
  | socket => cases hpoll
  | input =>
    obtain rfl := Option.some.inj hpoll
    unfold pollInput at h
    split at h
    · cases h
    · obtain rfl := Except.ok.inj h
      exact within_ite (within_and_left requested readable) (within_zero requested) _
  | deviceSubscription =>
    obtain rfl := Option.some.inj hpoll
    unfold pollDeviceSubscription at h
    split at h
    · cases h
    · obtain rfl := Except.ok.inj h
      exact within_ite (within_and_left requested _) (within_zero requested) _
  | audio =>
    obtain rfl := Option.some.inj hpoll
    unfold pollAudio at h
    split at h
    · cases h
    · obtain rfl := Except.ok.inj h
      exact within_and_right requested _
  | pointer =>
    obtain rfl := Option.some.inj hpoll
    unfold pollPointer at h
    split at h
    · cases h
    next stream _ =>
    obtain rfl := Except.ok.inj h
    have hread := @within_ite_twoPow requested 0 (stream.foreground && stream.queued)
    split
    · rename_i hhangup
      rw [Bool.and_eq_true, decide_eq_true_eq] at hhangup
      exact hread.or (within_twoPow hhangup.2)
    · exact hread
  | camera =>
    obtain rfl := Option.some.inj hpoll
    unfold pollCamera at h
    split at h
    · cases h
    next stream _ =>
    obtain rfl := Except.ok.inj h
    have hframe := within_ite (within_and_left requested readable) (within_zero requested) (stream.frame = true)
    have hfaulted := within_ite (hframe.or (within_and_left requested error)) hframe (stream.faulted = true)
    exact within_ite (hfaulted.or (within_and_left requested hangup)) hfaulted (stream.hangup = true)

/-! ## What is prepared -/

/-- The sockets of items from some index on, with their indices, and whether a source is polled. -/
inductive Prepares : Nat → List WaitItem → List (Nat × SocketItem) → Bool → Prop
  | nil (index : Nat) : Prepares index [] [] false
  | socket {index : Nat} {item : WaitItem} {items : List WaitItem} {slots : List (Nat × SocketItem)} {polling : Bool}
      {source : WaitSource}
      {socket : Int} (hsource : w.sources item.source = some source) (hpoll : source.type.poll = none)
      (hsocket : w.platformSocket source.parent = some socket) (hrest : Prepares (index + 1) items slots polling) :
    Prepares index (item :: items) ((index, ⟨socket, item.events⟩) :: slots) polling
  | polled {index : Nat} {item : WaitItem} {items : List WaitItem} {slots : List (Nat × SocketItem)} {polling : Bool}
      {source : WaitSource} (hsource : w.sources item.source = some source) (hpoll : source.type.poll ≠ none)
      (hrest : Prepares (index + 1) items slots polling) :
    Prepares index (item :: items) slots true

variable {w}

theorem World.sources_of_source {time : Nat} {handle : Int} {source : WaitSource} (h : w.source time handle = some source) :
    w.sources handle = some source := by
  unfold World.source at h
  split at h
  · exact h
  · cases h

theorem prepareItems_spec {index : Nat} {items : List WaitItem} {p q : Prepared} (h : prepareItems w index items p = .ok q) :
    ∃ slots polling, Prepares w index items slots polling ∧ q.socketItems = p.socketItems ++ slots.map Prod.snd ∧
      q.socketItemIndices = p.socketItemIndices ++ slots.map Prod.fst ∧ q.requiresPolling = (p.requiresPolling || polling) := by
  induction items generalizing index p with
  | nil =>
    obtain rfl := Except.ok.inj h
    exact ⟨[], false, .nil index, (List.append_nil _).symm, (List.append_nil _).symm, (Bool.or_false _).symm⟩
  | cons item items ih =>
    unfold prepareItems at h
    split at h
    · cases h
    next source hsource =>
    have hsources := World.sources_of_source hsource
    split at h
    · cases h
    split at h
    · next hpoll =>
      split at h
      · cases h
      split at h
      · cases h
      next socket hsocket =>
      obtain ⟨slots, polling, hrest, hitems, hindices, hpolling⟩ := ih h
      refine ⟨_, polling, .socket hsources hpoll hsocket hrest, ?_, ?_, hpolling⟩
      · rw [hitems, List.append_assoc]
        rfl
      · rw [hindices, List.append_assoc]
        rfl
    · next hpoll =>
      obtain ⟨slots, polling, hrest, hitems, hindices, hpolling⟩ := ih h
      refine ⟨slots, true, .polled hsources hpoll hrest, hitems, hindices, ?_⟩
      rw [hpolling, Bool.true_or, Bool.or_true]

theorem Prepares.le {index : Nat} {items : List WaitItem} {slots : List (Nat × SocketItem)} {polling : Bool}
    (h : Prepares w index items slots polling) : ∀ slot ∈ slots, index ≤ slot.1 := by
  induction h with
  | nil => exact fun slot hslot => absurd hslot List.not_mem_nil
  | socket _ _ _ _ ih =>
    intro slot hslot
    rcases List.mem_cons.1 hslot with rfl | hslot
    · exact Nat.le_refl _
    · exact Nat.le_of_succ_le (ih slot hslot)
  | polled _ _ _ ih => exact fun slot hslot => Nat.le_of_succ_le (ih slot hslot)

theorem Prepares.nodup {index : Nat} {items : List WaitItem} {slots : List (Nat × SocketItem)} {polling : Bool}
    (h : Prepares w index items slots polling) : (slots.map Prod.fst).Nodup := by
  induction h with
  | nil => exact List.nodup_nil
  | socket _ _ _ hrest ih =>
    refine List.nodup_cons.2 ⟨fun hmem => ?_, ih⟩
    obtain ⟨slot, hslot, heq⟩ := List.mem_map.1 hmem
    have hle := hrest.le slot hslot
    omega
  | polled _ _ _ ih => exact ih

/-- A socket has its item among those for the platform. -/
theorem Prepares.exists_slot {index : Nat} {items : List WaitItem} {slots : List (Nat × SocketItem)} {polling : Bool}
    (h : Prepares w index items slots polling) {place : Nat} {item : WaitItem} (hitem : items[place]? = some item) {source : WaitSource}
    (hsource : w.sources item.source = some source) (hpoll : source.type.poll = none) :
    ∃ socket, w.platformSocket source.parent = some socket ∧ (index + place, ⟨socket, item.events⟩) ∈ slots := by
  induction h generalizing place with
  | nil => cases hitem
  | @socket index first items slots polling source' socket hsource' hpoll' hsocket _ ih =>
    cases place with
    | zero =>
      obtain rfl := Option.some.inj hitem
      obtain rfl := Option.some.inj (hsource.symm.trans hsource')
      exact ⟨socket, hsocket, List.mem_cons_self⟩
    | succ place =>
      obtain ⟨socket', hsocket', hmem⟩ := ih hitem
      rw [show index + (place + 1) = index + 1 + place from by omega]
      exact ⟨socket', hsocket', List.mem_cons_of_mem _ hmem⟩
  | @polled index first items slots polling source' hsource' hpoll' _ ih =>
    cases place with
    | zero =>
      obtain rfl := Option.some.inj hitem
      obtain rfl := Option.some.inj (hsource.symm.trans hsource')
      exact absurd hpoll hpoll'
    | succ place =>
      obtain ⟨socket', hsocket', hmem⟩ := ih hitem
      rw [show index + (place + 1) = index + 1 + place from by omega]
      exact ⟨socket', hsocket', hmem⟩

/-- An item for the platform is that of a socket. -/
theorem Prepares.exists_item {index : Nat} {items : List WaitItem} {slots : List (Nat × SocketItem)} {polling : Bool}
    (h : Prepares w index items slots polling) {slot : Nat × SocketItem} (hslot : slot ∈ slots) :
    ∃ place item source, slot.1 = index + place ∧ items[place]? = some item ∧ w.sources item.source = some source ∧
      source.type.poll = none := by
  induction h with
  | nil => exact absurd hslot List.not_mem_nil
  | @socket index first items slots polling source' socket hsource' hpoll' hsocket _ ih =>
    rcases List.mem_cons.1 hslot with rfl | hslot
    · exact ⟨0, first, source', rfl, rfl, hsource', hpoll'⟩
    · obtain ⟨place, item, source, hplace, hitem, hsource, hpoll⟩ := ih hslot
      exact ⟨place + 1, item, source, by omega, hitem, hsource, hpoll⟩
  | @polled index first items slots polling source' hsource' hpoll' _ ih =>
    obtain ⟨place, item, source, hplace, hitem, hsource, hpoll⟩ := ih hslot
    exact ⟨place + 1, item, source, by omega, hitem, hsource, hpoll⟩

/-- Items that ask for the same events of the same sources. -/
def SameRequests (items items' : List WaitItem) : Prop :=
  items.map (fun item => (item.source, item.events)) = items'.map fun item => (item.source, item.events)

/-! ## A round -/

/-- The items that are ready. -/
def readyItems (items : List WaitItem) : Nat := items.countP fun item => decide (item.returnedEvents ≠ 0)

theorem readyItems_cons (item : WaitItem) (items : List WaitItem) :
    readyItems (item :: items) = if item.returnedEvents ≠ 0 then readyItems items + 1 else readyItems items := by
  unfold readyItems
  rw [List.countP_cons]
  by_cases h : item.returnedEvents ≠ 0
  · rw [if_pos h, if_pos (decide_eq_true h)]
  · rw [if_neg h, if_neg fun hdecide => h (of_decide_eq_true hdecide)]
    rfl

theorem pollItem_request {round index : Nat} {item item' : WaitItem} (h : pollItem w round index item = .ok item') :
    item'.source = item.source ∧ item'.events = item.events := by
  unfold pollItem at h
  split at h
  · cases h
  split at h
  · obtain rfl := Except.ok.inj h
    exact ⟨rfl, rfl⟩
  split at h
  · cases h
  · obtain rfl := Except.ok.inj h
    exact ⟨rfl, rfl⟩

theorem pollItems_cons {round index ready : Nat} {item : WaitItem} {items items' : List WaitItem}
    (h : pollItems w round index (item :: items) = .ok (ready, items')) :
    ∃ item' ready' rest, pollItem w round index item = .ok item' ∧ pollItems w round (index + 1) items = .ok (ready', rest) ∧
      ready = (if item'.returnedEvents ≠ 0 then ready' + 1 else ready') ∧ items' = item' :: rest := by
  unfold pollItems at h
  rcases hitem : pollItem w round index item with e | item'
  · rw [hitem] at h
    cases h
  rcases hrest : pollItems w round (index + 1) items with e | ⟨ready', rest⟩
  · rw [hitem, hrest] at h
    cases h
  · rw [hitem, hrest] at h
    obtain ⟨rfl, rfl⟩ := Prod.mk.inj (Except.ok.inj h)
    exact ⟨item', ready', rest, rfl, rfl, rfl, rfl⟩

theorem pollItems_spec {round index ready : Nat} {items items' : List WaitItem}
    (h : pollItems w round index items = .ok (ready, items')) :
    ready = readyItems items' ∧ SameRequests items' items ∧ ∀ place item, items[place]? = some item →
      ∃ item', items'[place]? = some item' ∧ pollItem w round (index + place) item = .ok item' := by
  induction items generalizing index ready items' with
  | nil =>
    obtain ⟨rfl, rfl⟩ := Prod.mk.inj (Except.ok.inj h)
    exact ⟨rfl, rfl, fun place item hitem => nomatch hitem⟩
  | cons first items ih =>
    obtain ⟨first', ready', rest, hfirst, hrest, rfl, rfl⟩ := pollItems_cons h
    obtain ⟨hready, hsame, hitems⟩ := ih hrest
    obtain ⟨hsource, hevents⟩ := pollItem_request hfirst
    refine ⟨?_, ?_, fun place item hitem => ?_⟩
    · rw [readyItems_cons, hready]
    · unfold SameRequests at hsame ⊢
      rw [List.map_cons, List.map_cons, hsame, hsource, hevents]
    · cases place with
      | zero =>
        obtain rfl := Option.some.inj hitem
        exact ⟨first', rfl, hfirst⟩
      | succ place =>
        obtain ⟨item', hitem', hpoll⟩ := hitems place item hitem
        rw [show index + (place + 1) = index + 1 + place from by omega]
        exact ⟨item', hitem', hpoll⟩

/-- The answer of the platform at the index of its item. -/
def setReturned (events : Events) (item : WaitItem) : WaitItem := { item with returnedEvents := events }

theorem readyItems_modify {items : List WaitItem} {index : Nat} {item : WaitItem} (hitem : items[index]? = some item)
    (hzero : item.returnedEvents = 0) (events : Events) :
    readyItems (items.modify index (setReturned events)) = if events ≠ 0 then readyItems items + 1 else readyItems items := by
  induction items generalizing index with
  | nil => cases hitem
  | cons first items ih =>
    cases index with
    | zero =>
      obtain rfl := Option.some.inj hitem
      rw [List.modify_zero_cons, readyItems_cons, readyItems_cons, if_neg (not_not.2 hzero)]
      rfl
    | succ index =>
      rw [List.modify_succ_cons, readyItems_cons, readyItems_cons, ih hitem]
      split <;> split <;> rfl

theorem sameRequests_modify (items : List WaitItem) (index : Nat) (events : Events) :
    SameRequests (items.modify index (setReturned events)) items := by
  unfold SameRequests
  induction items generalizing index with
  | nil => cases index <;> rfl
  | cons first items ih =>
    cases index with
    | zero => rfl
    | succ index => rw [List.modify_succ_cons, List.map_cons, List.map_cons, ih index]

/-- The answers of the platform are those of their items. -/
theorem mergeSockets_spec {answers : Nat → Events} {slot ready : Nat} {indices : List Nat} {items : List WaitItem}
    (hnodup : indices.Nodup)
    (hzero : ∀ index ∈ indices, ∃ item, items[index]? = some item ∧ item.returnedEvents = 0) (hready : ready = readyItems items) :
    (mergeSockets answers slot indices (ready, items)).1 = readyItems (mergeSockets answers slot indices (ready, items)).2 ∧
      SameRequests (mergeSockets answers slot indices (ready, items)).2 items ∧
      (∀ place, place ∉ indices → (mergeSockets answers slot indices (ready, items)).2[place]? = items[place]?) ∧
      ∀ k index, indices[k]? = some index →
        (mergeSockets answers slot indices (ready, items)).2[index]? = items[index]?.map (setReturned (answers (slot + k))) := by
  induction indices generalizing slot ready items with
  | nil => exact ⟨hready, rfl, fun _ _ => rfl, fun k index hindex => nomatch hindex⟩
  | cons first indices ih =>
    obtain ⟨hfirst, hnodup⟩ := List.nodup_cons.1 hnodup
    obtain ⟨item, hitem, hreturned⟩ := hzero first List.mem_cons_self
    have hother (place : Nat) (hplace : place ≠ first) :
        (items.modify first (setReturned (answers slot)))[place]? = items[place]? :=
      List.getElem?_modify_ne (setReturned (answers slot)) items hplace.symm
    have hready' : (if answers slot ≠ 0 then ready + 1 else ready) = readyItems (items.modify first (setReturned (answers slot))) := by
      rw [readyItems_modify hitem hreturned, hready]
    have hzero' : ∀ index ∈ indices, ∃ item, (items.modify first (setReturned (answers slot)))[index]? = some item ∧
        item.returnedEvents = 0 := by
      intro index hindex
      obtain ⟨item, hitem, hreturned⟩ := hzero index (List.mem_cons_of_mem first hindex)
      exact ⟨item, (hother index fun h => hfirst (h ▸ hindex)).trans hitem, hreturned⟩
    obtain ⟨hcount, hsame, hkeeps, hanswers⟩ := @ih (slot + 1) _ _ hnodup hzero' hready'
    have hunfold : mergeSockets answers slot (first :: indices) (ready, items) = mergeSockets answers (slot + 1) indices
        (if answers slot ≠ 0 then ready + 1 else ready, items.modify first (setReturned (answers slot))) := rfl
    rw [hunfold]
    refine ⟨hcount, hsame.trans (sameRequests_modify items first _), fun place hplace => ?_, fun k index hindex => ?_⟩
    · obtain ⟨hne, hnot⟩ := List.ne_and_not_mem_of_not_mem_cons hplace
      rw [hkeeps place hnot, hother place hne]
    · cases k with
      | zero =>
        obtain rfl := Option.some.inj hindex
        rw [hkeeps first hfirst, List.getElem?_modify_eq]
        rfl
      | succ k =>
        have hmem : index ∈ indices := List.mem_of_getElem? hindex
        rw [hanswers k index hindex, hother index fun h => hfirst (h ▸ hmem), show slot + (k + 1) = slot + 1 + k from by omega]

/-- An item has the answer of its own source in a round: a service was polled for its events, or the platform was asked for the socket
with its events. -/
inductive Answered (w : World) (socketItems : List SocketItem) (round index : Nat) (item item' : WaitItem) : Prop
  | polled {source : WaitSource} {poll : Readiness → Events → Except WaitError Events} (hsource : w.sources item.source = some source)
      (hpoll : source.type.poll = some poll) (hanswer : poll (w.readiness round index) item.events = .ok item'.returnedEvents)
  | waited {source : WaitSource} {socket : Int} {slot timeout : Nat} {answers : Nat → Events}
      (hsource : w.sources item.source = some source)
      (hpoll : source.type.poll = none) (hsocket : w.platformSocket source.parent = some socket)
      (hslot : socketItems[slot]? = some ⟨socket, item.events⟩) (hwait : w.socketWait round socketItems timeout = .ok answers)
      (hanswer : item'.returnedEvents = answers slot)

/-- What a round leaves of items: the events asked for, and an answer for each. -/
structure RoundAnswers (w : World) (socketItems : List SocketItem) (round ready : Nat) (items items' : List WaitItem) : Prop where
  count : ready = readyItems items'
  same : SameRequests items' items
  answered : ∀ index item, items[index]? = some item →
    ∃ item', items'[index]? = some item' ∧ Answered w socketItems round index item item'

theorem pollItem_cases {round index : Nat} {item item' : WaitItem} (h : pollItem w round index item = .ok item') :
    ∃ source, w.sources item.source = some source ∧
      ((source.type.poll = none ∧ item'.returnedEvents = 0) ∨
        ∃ poll, source.type.poll = some poll ∧ poll (w.readiness round index) item.events = .ok item'.returnedEvents) := by
  unfold pollItem at h
  split at h
  · cases h
  next source hsource =>
  refine ⟨source, World.sources_of_source hsource, ?_⟩
  split at h
  · next hpoll =>
    obtain rfl := Except.ok.inj h
    exact .inl ⟨hpoll, rfl⟩
  next poll hpoll =>
  split at h
  · cases h
  next events hevents =>
  obtain rfl := Except.ok.inj h
  exact .inr ⟨poll, hpoll, hevents⟩

/-- The items after the platform has waited. -/
theorem roundAnswers_of_merge {round ready timeout : Nat} {items polled : List WaitItem} {slots : List (Nat × SocketItem)}
    {polling : Bool}
    {answers : Nat → Events} (hprepares : Prepares w 0 items slots polling) (hpolled : pollItems w round 0 items = .ok (ready, polled))
    (hwait : w.socketWait round (slots.map Prod.snd) timeout = .ok answers) :
    RoundAnswers w (slots.map Prod.snd) round (mergeSockets answers 0 (slots.map Prod.fst) (ready, polled)).1 items
      (mergeSockets answers 0 (slots.map Prod.fst) (ready, polled)).2 := by
  obtain ⟨hready, hsame, hitems⟩ := pollItems_spec hpolled
  have hzero : ∀ index ∈ slots.map Prod.fst, ∃ item, polled[index]? = some item ∧ item.returnedEvents = 0 := by
    intro index hindex
    obtain ⟨slot, hslot, rfl⟩ := List.mem_map.1 hindex
    obtain ⟨place, item, source, hplace, hitem, hsource, hpoll⟩ := hprepares.exists_item hslot
    rw [Nat.zero_add] at hplace
    obtain ⟨item', hitem', hpollItem⟩ := hitems place item hitem
    obtain ⟨source', hsource', hcases⟩ := pollItem_cases hpollItem
    obtain rfl := Option.some.inj (hsource.symm.trans hsource')
    rcases hcases with ⟨-, hreturned⟩ | ⟨poll, hsome, -⟩
    · exact ⟨item', hplace ▸ hitem', hreturned⟩
    · exact absurd (hpoll.symm.trans hsome) (by simp)
  obtain ⟨hcount, hsame', hkeeps, hanswers⟩ := @mergeSockets_spec answers 0 ready _ polled hprepares.nodup hzero hready
  refine ⟨hcount, hsame'.trans hsame, fun index item hitem => ?_⟩
  obtain ⟨item', hitem', hpollItem⟩ := hitems index item hitem
  rw [Nat.zero_add] at hpollItem
  obtain ⟨source, hsource, hcases⟩ := pollItem_cases hpollItem
  rcases hcases with ⟨hnone, hreturned⟩ | ⟨poll, hsome, hanswer⟩
  · obtain ⟨socket, hsocket, hmem⟩ := hprepares.exists_slot hitem hsource hnone
    rw [Nat.zero_add] at hmem
    obtain ⟨slot, hslot⟩ := List.getElem?_of_mem hmem
    have hindex : (slots.map Prod.fst)[slot]? = some index := by rw [List.getElem?_map, hslot]; rfl
    have hsocketItem : (slots.map Prod.snd)[slot]? = some ⟨socket, item.events⟩ := by rw [List.getElem?_map, hslot]; rfl
    have hget := hanswers slot index hindex
    rw [hitem', Nat.zero_add] at hget
    exact ⟨_, hget, .waited hsource hnone hsocket hsocketItem hwait rfl⟩
  · have hnot : index ∉ slots.map Prod.fst := by
      intro hmem
      obtain ⟨slot, hslot, rfl⟩ := List.mem_map.1 hmem
      obtain ⟨place, other, source', hplace, hother, hsource', hpoll'⟩ := hprepares.exists_item hslot
      rw [Nat.zero_add] at hplace
      rw [hplace] at hitem
      obtain rfl := Option.some.inj (hitem.symm.trans hother)
      obtain rfl := Option.some.inj (hsource.symm.trans hsource')
      exact absurd (hpoll'.symm.trans hsome) (by simp)
    exact ⟨item', (hkeeps index hnot).trans hitem', .polled hsource hsome hanswer⟩

/-- The items of a round in which the platform does not wait: all are polled. -/
theorem roundAnswers_of_polled {round ready : Nat} {items polled : List WaitItem} {polling : Bool}
    (hprepares : Prepares w 0 items [] polling)
    (hpolled : pollItems w round 0 items = .ok (ready, polled)) : RoundAnswers w [] round ready items polled := by
  obtain ⟨hready, hsame, hitems⟩ := pollItems_spec hpolled
  refine ⟨hready, hsame, fun index item hitem => ?_⟩
  obtain ⟨item', hitem', hpollItem⟩ := hitems index item hitem
  rw [Nat.zero_add] at hpollItem
  obtain ⟨source, hsource, hcases⟩ := pollItem_cases hpollItem
  rcases hcases with ⟨hnone, -⟩ | ⟨poll, hsome, hanswer⟩
  · obtain ⟨socket, -, hmem⟩ := hprepares.exists_slot hitem hsource hnone
    exact absurd hmem List.not_mem_nil
  · exact ⟨item', hitem', .polled hsource hsome hanswer⟩

theorem waitRound_spec {p : Prepared} {timeoutMs deadlineMs round ready : Nat} {items items' : List WaitItem}
    {slots : List (Nat × SocketItem)}
    (hprepares : Prepares w 0 items slots p.requiresPolling) (hitems : p.socketItems = slots.map Prod.snd)
    (hindices : p.socketItemIndices = slots.map Prod.fst) (h : waitRound w p timeoutMs deadlineMs round items = .ok (ready, items')) :
    RoundAnswers w p.socketItems round ready items items' := by
  unfold waitRound at h
  rcases hpolled : pollItems w round 0 items with e | ⟨ready', polled⟩
  · rw [hpolled] at h
    cases h
  rw [hpolled] at h
  simp only [bind, Except.bind] at h
  split at h
  · next hwaits =>
    rcases hwait : w.socketWait round p.socketItems
      (socketTimeout p timeoutMs deadlineMs ready' (w.clock (2 * round + 1))) with e | answers
    · rw [hwait] at h
      cases h
    · rw [hwait] at h
      have heq := Except.ok.inj h
      rw [hindices] at heq
      rw [hitems] at hwait ⊢
      have hround := roundAnswers_of_merge hprepares hpolled hwait
      rw [heq] at hround
      exact hround
  · next hquiet =>
    obtain ⟨rfl, rfl⟩ := Prod.mk.inj (Except.ok.inj h)
    have hnone : slots = [] := by
      by_contra hne
      refine hquiet (.inl ?_)
      rw [hitems, List.length_map]
      exact List.length_pos_iff.2 hne
    subst hnone
    rw [hitems]
    exact roundAnswers_of_polled hprepares hpolled

/-! ## The rounds -/

theorem Prepares.of_same {index : Nat} {items items' : List WaitItem} {slots : List (Nat × SocketItem)} {polling : Bool}
    (h : Prepares w index items slots polling) (hsame : SameRequests items' items) : Prepares w index items' slots polling := by
  induction h generalizing items' with
  | nil index =>
    obtain rfl := List.map_eq_nil_iff.1 hsame
    exact .nil index
  | @socket index item items slots polling source socket hsource hpoll hsocket _ ih =>
    obtain ⟨item', rest, rfl, hitem, hrest⟩ := List.map_eq_cons_iff.1 hsame
    obtain ⟨hhandle, hevents⟩ := Prod.mk.inj hitem
    exact hevents ▸ .socket (hhandle ▸ hsource) hpoll hsocket (ih hrest)
  | @polled index item items slots polling source hsource hpoll _ ih =>
    obtain ⟨item', rest, rfl, hitem, hrest⟩ := List.map_eq_cons_iff.1 hsame
    obtain ⟨hhandle, hevents⟩ := Prod.mk.inj hitem
    exact .polled (hhandle ▸ hsource) hpoll (ih hrest)

theorem RoundAnswers.of_same {socketItems : List SocketItem} {round ready : Nat} {items items' first : List WaitItem}
    (h : RoundAnswers w socketItems round ready items items') (hsame : SameRequests items first) :
    RoundAnswers w socketItems round ready first items' := by
  refine ⟨h.count, h.same.trans hsame, fun index item hitem => ?_⟩
  have hget := congrArg (·[index]?) hsame
  rw [List.getElem?_map, List.getElem?_map, hitem] at hget
  obtain ⟨current, hcurrent, heq⟩ := Option.map_eq_some_iff.1 hget
  obtain ⟨hhandle, hevents⟩ := Prod.mk.inj heq
  obtain ⟨item', hitem', hanswered⟩ := h.answered index current hcurrent
  refine ⟨item', hitem', ?_⟩
  cases hanswered with
  | polled hsource hpoll hanswer => exact .polled (hhandle ▸ hsource) hpoll (hevents ▸ hanswer)
  | waited hsource hpoll hsocket hslot hwait hanswer => exact .waited (hhandle ▸ hsource) hpoll hsocket (hevents ▸ hslot) hwait hanswer

/-- What makes the loop return after a round. -/
def Ends (w : World) (p : Prepared) (timeoutMs deadlineMs round ready : Nat) : Prop :=
  ready > 0 ∨ timeoutMs = 0 ∨ p.requiresPolling = false ∨ (timeoutMs ≠ timeoutInfinite ∧ w.clock (2 * round + 2) ≥ deadlineMs)

instance (p : Prepared) (timeoutMs deadlineMs round ready : Nat) : Decidable (Ends w p timeoutMs deadlineMs round ready) :=
  inferInstanceAs (Decidable (_ ∨ _))

/-- The rounds of the loop up to the one that returns. -/
theorem waitLoop_spec {p : Prepared} {timeoutMs deadlineMs fuel round ready : Nat} {items items' : List WaitItem}
    {slots : List (Nat × SocketItem)} (hprepares : Prepares w 0 items slots p.requiresPolling)
    (hitems : p.socketItems = slots.map Prod.snd)
    (hindices : p.socketItemIndices = slots.map Prod.fst)
    (h : waitLoop w p timeoutMs deadlineMs fuel round items = some (.ok (ready, items'))) :
    ∃ rounds, waitLoop w p timeoutMs deadlineMs rounds round items = none ∧
      waitLoop w p timeoutMs deadlineMs (rounds + 1) round items = some (.ok (ready, items')) ∧
      RoundAnswers w p.socketItems (round + rounds) ready items items' ∧ Ends w p timeoutMs deadlineMs (round + rounds) ready := by
  induction fuel generalizing round items with
  | zero => cases h
  | succ fuel ih =>
    rcases hround : waitRound w p timeoutMs deadlineMs round items with e | ⟨ready', next⟩
    · rw [waitLoop, hround] at h
      cases h
    have hanswers := waitRound_spec hprepares hitems hindices hround
    have hunfold (fuel : Nat) : waitLoop w p timeoutMs deadlineMs (fuel + 1) round items =
        if Ends w p timeoutMs deadlineMs round ready' then some (.ok (ready', next))
        else if w.waitCancelRequested round then some (.error .ecanceled)
        else waitLoop w p timeoutMs deadlineMs fuel (round + 1) next := by
      rw [waitLoop, hround]
      rfl
    rw [hunfold fuel] at h
    by_cases hends : Ends w p timeoutMs deadlineMs round ready'
    · rw [if_pos hends] at h
      obtain ⟨rfl, rfl⟩ := Prod.mk.inj (Except.ok.inj (Option.some.inj h))
      exact ⟨0, rfl, (hunfold 0).trans (if_pos hends), hanswers, hends⟩
    · rw [if_neg hends] at h
      by_cases hcancel : w.waitCancelRequested round
      · rw [if_pos hcancel] at h
        cases h
      rw [if_neg hcancel] at h
      obtain ⟨rounds, hnone, hsome, hlast, hlastEnds⟩ := ih (hprepares.of_same hanswers.same) h
      rw [show round + 1 + rounds = round + (rounds + 1) from by omega] at hlast hlastEnds
      refine ⟨rounds + 1, ?_, ?_, hlast.of_same hanswers.same, hlastEnds⟩
      · rw [hunfold rounds, if_neg hends, if_neg hcancel, hnone]
      · rw [hunfold (rounds + 1), if_neg hends, if_neg hcancel, hsome]

/-- Readings that do not go back, and go on up to the latest deadline. -/
def Advancing (clock : Nat → Nat) : Prop := Monotone clock ∧ ∀ n, clock n < timeDeadlineLatest → ∃ m, clock n < clock m

theorem Advancing.exists_ge {clock : Nat → Nat} (h : Advancing clock) {deadline : Nat} (hdeadline : deadline ≤ timeDeadlineLatest) :
    ∃ n, deadline ≤ clock n := by
  have hreach (k : Nat) : ∃ n, min k timeDeadlineLatest ≤ clock n := by
    induction k with
    | zero => exact ⟨0, (Nat.min_le_left 0 _).trans (Nat.zero_le _)⟩
    | succ k ih =>
      obtain ⟨n, hn⟩ := ih
      by_cases hlate : timeDeadlineLatest ≤ clock n
      · exact ⟨n, (Nat.min_le_right _ _).trans hlate⟩
      · obtain ⟨m, hm⟩ := h.2 n (Nat.not_le.1 hlate)
        exact ⟨m, by omega⟩
  obtain ⟨n, hn⟩ := hreach deadline
  rw [Nat.min_eq_left hdeadline] at hn
  exact ⟨n, hn⟩

theorem deadlineMs_le {timeoutMs : Nat} (hfinite : timeoutMs ≠ timeoutInfinite) : w.deadlineMs timeoutMs ≤ timeDeadlineLatest := by
  unfold World.deadlineMs
  rw [if_pos hfinite]
  unfold timeDeadlineAfter
  split
  · exact Nat.le_refl _
  · omega

/-- The loop returns once the deadline has passed. -/
theorem waitLoop_isSome {p : Prepared} {timeoutMs deadlineMs : Nat} (hfinite : timeoutMs ≠ timeoutInfinite) {last : Nat}
    (hlast : deadlineMs ≤ w.clock (2 * last + 2)) {fuel round : Nat} (hfuel : last < round + fuel) (hround : round ≤ last)
    (items : List WaitItem) : (waitLoop w p timeoutMs deadlineMs fuel round items).isSome := by
  induction fuel generalizing round items with
  | zero => omega
  | succ fuel ih =>
    rw [waitLoop]
    split
    · rfl
    next ready next _ =>
    split
    · rfl
    next hends =>
    split
    · rfl
    · have hne : round ≠ last := by
        rintro rfl
        exact hends (.inr (.inr (.inr ⟨hfinite, hlast⟩)))
      exact ih (by omega) (by omega) next

/-- The platform reports no events of a socket but those that were asked for, errors and hang-ups. -/
def Reports (w : World) : Prop :=
  ∀ round socketItems timeout answers, w.socketWait round socketItems timeout = .ok answers →
    ∀ slot socketItem, socketItems[slot]? = some socketItem → Within (answers slot) (socketItem.events ||| (error ||| hangup))

/-- The events that an item may return. -/
def allowedEvents (w : World) (item : WaitItem) : Events :=
  if (w.sources item.source).map WaitSource.type = some .socket then item.events ||| (error ||| hangup) else item.events

/-- A source of the items is polled. -/
def PollsService (w : World) (items : List WaitItem) : Prop :=
  ∃ item ∈ items, ∃ source, w.sources item.source = some source ∧ source.type ≠ .socket

theorem poll_eq_none {type : WaitSourceType} : type.poll = none ↔ type = .socket := by
  cases type with
  | socket => exact iff_of_true rfl rfl
  | input | deviceSubscription | audio | pointer | camera => exact iff_of_false (fun h => nomatch h) fun h => nomatch h

theorem Answered.within (hreports : Reports w) {socketItems : List SocketItem} {round index : Nat} {item item' : WaitItem}
    (h : Answered w socketItems round index item item') : Within item'.returnedEvents (allowedEvents w item) := by
  unfold allowedEvents
  cases h with
  | @polled source poll hsource hpoll hanswer =>
    have hnot : (w.sources item.source).map WaitSource.type ≠ some .socket := by
      rw [hsource]
      intro h
      exact absurd ((poll_eq_none.2 (Option.some.inj h)).symm.trans hpoll) (by simp)
    rw [if_neg hnot]
    exact poll_within hpoll hanswer
  | @waited source socket slot timeout answers hsource hpoll hsocket hslot hwait hanswer =>
    have hsome : (w.sources item.source).map WaitSource.type = some .socket := by
      rw [hsource]
      exact congrArg some (poll_eq_none.1 hpoll)
    rw [if_pos hsome, hanswer]
    exact hreports _ _ _ _ hwait slot _ hslot

theorem Prepares.polling {index : Nat} {items : List WaitItem} {slots : List (Nat × SocketItem)} {polling : Bool}
    (h : Prepares w index items slots polling) (hpolls : PollsService w items) : polling = true := by
  obtain ⟨item, hitem, source, hsource, htype⟩ := hpolls
  induction h with
  | nil => exact absurd hitem List.not_mem_nil
  | @socket index first items slots polling source' socket hsource' hpoll' hsocket _ ih =>
    rcases List.mem_cons.1 hitem with rfl | hitem
    · obtain rfl := Option.some.inj (hsource.symm.trans hsource')
      exact absurd (poll_eq_none.1 hpoll') htype
    · exact ih hitem
  | polled => rfl

/-- A wait that ends without a round after the deadline. -/
theorem deadline_le_of_ends {p : Prepared} {timeoutMs round : Nat} (hclock : Monotone w.clock) (hfinite : timeoutMs ≠ timeoutInfinite)
    (hpolling : p.requiresPolling = true) (h : Ends w p timeoutMs (w.deadlineMs timeoutMs) round 0) :
    w.deadlineMs timeoutMs ≤ w.clock (2 * round + 2) := by
  rcases h with h | rfl | h | h
  · exact absurd h (Nat.lt_irrefl 0)
  · have hlater : w.clock 0 ≤ w.clock (2 * round + 2) := hclock (Nat.zero_le _)
    unfold World.deadlineMs
    rw [if_pos hfinite]
    unfold timeDeadlineAfter
    split
    · omega
    · omega
  · exact absurd (hpolling.symm.trans h) (by decide)
  · exact h.2

/-- The items that are ready are counted, each has the answer of its own source in the last round, and a wait with a timeout ends; with a
source that is polled it ends without an event only at the deadline. -/
theorem wait_answers_items (w : World) (hreports : Reports w) (items : List WaitItem) (timeoutMs : Nat) :
    (∀ (fuel ready : Nat) (items' : List WaitItem), elfWaitSources w items timeoutMs fuel = some (.ok (ready, items')) →
      ∃ p round, prepareItems w 0 items ⟨[], [], false⟩ = .ok p ∧ elfWaitSources w items timeoutMs round = none ∧
        elfWaitSources w items timeoutMs (round + 1) = some (.ok (ready, items')) ∧ ready = readyItems items' ∧
        RoundAnswers w p.socketItems round ready items items' ∧
        (∀ (index : Nat) (item item' : WaitItem), items[index]? = some item → items'[index]? = some item' →
          Within item'.returnedEvents (allowedEvents w item)) ∧
        (timeoutMs ≠ timeoutInfinite → Advancing w.clock → ready = 0 → PollsService w items →
          w.deadlineMs timeoutMs ≤ w.clock (2 * round + 2))) ∧
      (timeoutMs ≠ timeoutInfinite → Advancing w.clock → ∃ fuel, (elfWaitSources w items timeoutMs fuel).isSome) := by
  rcases hprepare : prepareItems w 0 items ⟨[], [], false⟩ with e | p
  · have hfails (fuel : Nat) : elfWaitSources w items timeoutMs fuel = some (.error e) := by
      unfold elfWaitSources
      rw [hprepare]
    refine ⟨fun fuel ready items' h => ?_, fun _ _ => ⟨0, by rw [hfails]; rfl⟩⟩
    rw [hfails] at h
    cases h
  have hloop (fuel : Nat) : elfWaitSources w items timeoutMs fuel = waitLoop w p timeoutMs (w.deadlineMs timeoutMs) fuel 0 items := by
    unfold elfWaitSources
    rw [hprepare]
  obtain ⟨slots, polling, hprepares, hitems, hindices, hpolling⟩ := prepareItems_spec hprepare
  rw [Bool.false_or] at hpolling
  rw [← hpolling] at hprepares
  refine ⟨fun fuel ready items' h => ?_, fun hfinite hclock => ?_⟩
  · rw [hloop] at h
    obtain ⟨round, hnone, hsome, hanswers, hends⟩ := waitLoop_spec hprepares hitems hindices h
    rw [Nat.zero_add] at hanswers hends
    refine ⟨p, round, rfl, (hloop round).trans hnone, (hloop (round + 1)).trans hsome, hanswers.count, hanswers,
      fun index item item' hitem hitem' => ?_, fun hfinite hclock hzero hpolls => ?_⟩
    · obtain ⟨answer, hanswer, hanswered⟩ := hanswers.answered index item hitem
      obtain rfl := Option.some.inj (hitem'.symm.trans hanswer)
      exact hanswered.within hreports
    · subst hzero
      exact deadline_le_of_ends hclock.1 hfinite (hprepares.polling hpolls) hends
  · obtain ⟨last, hlast⟩ := hclock.exists_ge (@deadlineMs_le w timeoutMs hfinite)
    have hlater : w.deadlineMs timeoutMs ≤ w.clock (2 * last + 2) := hlast.trans (hclock.1 (by omega))
    refine ⟨last + 1, ?_⟩
    rw [hloop]
    exact waitLoop_isSome hfinite hlater (by omega) (Nat.zero_le last) items

/-- A socket that stays quiet, and a keyboard with a key in its queue. -/
def keyWorld : World where
  sources source := if source = 1 then some ⟨.socket, 3⟩ else if source = 2 then some ⟨.input, 0⟩ else none
  isOpen _ _ := true
  platformSocket _ := some 7
  readiness _ _ := ⟨true, true, .ok 0, .ok ⟨false, false, false⟩, .ok ⟨true, false, false⟩, .ok ⟨false, false, false⟩⟩
  socketWait _ _ _ := .ok fun _ => 0
  clock n := n
  waitCancelRequested _ := false

theorem keyWorld_reports : Reports keyWorld := by
  intro round socketItems timeout answers h slot socketItem _
  obtain rfl := Except.ok.inj h
  exact within_zero _

theorem wait_answers_items_key :
    elfWaitSources keyWorld [⟨1, readable, 0⟩, ⟨2, readable, 0⟩] 100 1 = some (.ok (1, [⟨1, readable, 0⟩, ⟨2, readable, readable⟩])) ∧
      ∃ fuel, (elfWaitSources keyWorld [⟨1, readable, 0⟩, ⟨2, readable, 0⟩] 100 fuel).isSome :=
  ⟨by decide, (wait_answers_items keyWorld keyWorld_reports _ 100).2 (by decide)
    ⟨fun _ _ h => h, fun n _ => ⟨n + 1, Nat.lt_succ_self n⟩⟩⟩

end Waiting
end TabOS
