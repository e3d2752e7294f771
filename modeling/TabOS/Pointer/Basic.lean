import TabOS.Library.Monitor
import TabOS.Library.Queue
import TabOS.Library.Run

/-!
# Pointer streams

`pointer/pointer.c` once it is initialised; each operation runs under its mutex. A stream has a history variable that no branch reads:
the events that were read from it since it was opened, the latest first.
-/

namespace TabOS
namespace Pointer

open Library

/-- `POINTER_STREAM_CAPACITY`. -/
def pointerStreamCapacity : Nat := 8

/-- `POINTER_QUEUE_CAPACITY`. -/
def pointerQueueCapacity : Nat := 64

/-- `POINTER_STREAM_GENERATION_MAX`. -/
def pointerStreamGenerationMax : Nat := 0x7fffffff / 8

/-- `TABOS_POINTER_MAX_CONTACTS` of `config/Pointer.cmake`. -/
def pointerMaxContacts : Nat := 5

def displayWidth : Int := 1280
def displayHeight : Int := 720

/-- `TABOS_DEVICE_ID_INVALID`. -/
def deviceIdInvalid : Nat := 0xffffffff

def eagain : Int := 11
def eacces : Int := 13
def ebadf : Int := 9
def enodev : Int := 19
def einval : Int := 22
def emfile : Int := 24

/-- The types of events below `TABOS_POINTER_EVENT_TYPE_COUNT`, and the others. -/
inductive PointerEventType where
  | down | move | up | cancel | other
  deriving DecidableEq, Repr

/-- `tabos_pointer_event_t`. -/
structure PointerEvent where
  type : PointerEventType
  deviceId : Nat
  contactId : Nat
  x : Int
  y : Int
  buttons : Nat
  pressure : Nat
  flags : Nat
  deriving DecidableEq, Repr

def PointerEvent.zero : PointerEvent where
  type := .down
  deviceId := 0
  contactId := 0
  x := 0
  y := 0
  buttons := 0
  pressure := 0
  flags := 0

/-- The address of an owner; `NULL` is none. -/
abbrev Owner := Nat

/-- `pointer_stream_t`, with the events read from it. -/
structure PointerStream where
  owner : Option Owner
  queue : Queue PointerEvent pointerQueueCapacity
  contacts : Nat → Bool
  contactX : Nat → Int
  contactY : Nat → Int
  generation : Nat
  isOpen : Bool
  hangup : Bool
  delivered : List PointerEvent

/-- The zeroed stream with a generation. -/
def PointerStream.closed (generation : Nat) : PointerStream where
  owner := none
  queue := { slots := fun _ => .zero, head := 0, count := 0 }
  contacts := fun _ => false
  contactX := fun _ => 0
  contactY := fun _ => 0
  generation := generation
  isOpen := false
  hangup := false
  delivered := []

structure PointerState where
  streams : Fin pointerStreamCapacity → PointerStream
  foregroundOwner : Option Owner
  pointerDeviceId : Nat
  pointerError : Int
  detected : Bool
  powerContacts : Nat → Bool
  powerActivityPending : Bool

/-- What `pointer_service_init` leaves, with the answer of the platform. -/
def PointerState.initial (pointerError : Int) (detected : Bool) : PointerState where
  streams := fun _ => .closed 0
  foregroundOwner := none
  pointerDeviceId := deviceIdInvalid
  pointerError := pointerError
  detected := detected
  powerContacts := fun _ => false
  powerActivityPending := false

/-! ## Streams -/

def nextGeneration (generation : Nat) : Nat := if generation + 1 > pointerStreamGenerationMax then 1 else generation + 1

def streamHandle (index : Fin pointerStreamCapacity) (generation : Nat) : Int := generation * pointerStreamCapacity + index

/-- The slot that a handle names. -/
def handleIndex (handle : Int) : Fin pointerStreamCapacity := ⟨handle.toNat % pointerStreamCapacity, Nat.mod_lt _ (by decide)⟩

def ownedStream (s : PointerState) (owner : Option Owner) (handle : Int) : Option (Fin pointerStreamCapacity) :=
  if owner = none ∨ handle ≤ 0 then none
  else
    let index := handleIndex handle
    let stream := s.streams index
    if stream.isOpen = false ∨ stream.owner ≠ owner ∨ stream.generation ≠ handle.toNat / pointerStreamCapacity then none
    else some index

def setStream (s : PointerState) (index : Fin pointerStreamCapacity) (stream : PointerStream) : PointerState :=
  { s with streams := Function.update s.streams index stream }

def enqueue (stream : PointerStream) (event : PointerEvent) : PointerStream := { stream with queue := stream.queue.pushBack event }

/-- The event that cancels a contact. -/
def cancelEvent (deviceId : Nat) (stream : PointerStream) (contact : Nat) : PointerEvent :=
  { PointerEvent.zero with
    type := .cancel, deviceId := deviceId, contactId := contact, x := stream.contactX contact, y := stream.contactY contact }

/-- Cancels a contact if it is active. -/
def cancelContact (deviceId : Nat) (stream : PointerStream) (contact : Nat) : PointerStream :=
  if stream.contacts contact then
    { enqueue stream (cancelEvent deviceId stream contact) with contacts := Function.update stream.contacts contact false }
  else stream

def cancelContacts (deviceId : Nat) (stream : PointerStream) : PointerStream :=
  (List.range pointerMaxContacts).foldl (cancelContact deviceId) { stream with queue := stream.queue.clear }

/-! ## Operations -/

def pointerServiceSetDeviceId (s : PointerState) (deviceId : Nat) : PointerState := { s with pointerDeviceId := deviceId }

/-- The stream when the foreground goes from its owner to another one. -/
def loseForeground (s : PointerState) (stream : PointerStream) : PointerStream :=
  if stream.isOpen ∧ stream.owner = s.foregroundOwner then cancelContacts s.pointerDeviceId stream else stream

def pointerServiceSetForegroundOwner (s : PointerState) (owner : Option Owner) : PointerState :=
  if s.foregroundOwner ≠ owner then
    { s with streams := fun index => loseForeground s (s.streams index), foregroundOwner := owner }
  else s

/-- The first slot that is not open. -/
def firstClosed (s : PointerState) : Option (Fin pointerStreamCapacity) :=
  (List.finRange pointerStreamCapacity).find? fun index => !(s.streams index).isOpen

def pointerServiceOpen (s : PointerState) (owner : Option Owner) (deviceId : Nat) : Int × PointerState :=
  if s.detected = false ∨ s.pointerError ≠ 0 then (-enodev, s)
  else if owner = none ∨ deviceId = deviceIdInvalid ∨ deviceId ≠ s.pointerDeviceId then (-einval, s)
  else
    match firstClosed s with
    | none => (-emfile, s)
    | some index =>
      let generation := nextGeneration (s.streams index).generation
      (streamHandle index generation, setStream s index { PointerStream.closed generation with owner := owner, isOpen := true })

def pointerServiceClose (s : PointerState) (owner : Option Owner) (handle : Int) : Int × PointerState :=
  match ownedStream s owner handle with
  | none => (-ebadf, s)
  | some index => (0, setStream s index (.closed (s.streams index).generation))

/-- The stream after its oldest event is read. -/
def takeEvent (stream : PointerStream) : PointerStream :=
  { stream with queue := stream.queue.popFront, delivered := stream.queue.front :: stream.delivered }

def pointerServiceRead (s : PointerState) (owner : Option Owner) (handle : Int) : Int × Option PointerEvent × PointerState :=
  match ownedStream s owner handle with
  | none => (-ebadf, none, s)
  | some index =>
    let stream := s.streams index
    if owner ≠ s.foregroundOwner then (-eacces, none, s)
    else if stream.queue.count = 0 then (if stream.hangup then -enodev else -eagain, none, s)
    else (0, some stream.queue.front, setStream s index (takeEvent stream))

def pointerServiceCloseOwner (s : PointerState) (owner : Option Owner) : PointerState :=
  if owner = none then s
  else
    { s with
      streams := fun index =>
        let stream := s.streams index
        if stream.isOpen ∧ stream.owner = owner then .closed stream.generation else stream
      foregroundOwner := if s.foregroundOwner = owner then none else s.foregroundOwner }

def pointerServiceTakePowerActivity (s : PointerState) : PointerState := { s with powerActivityPending := false }

def pointerServiceRecordMovement (s : PointerState) : PointerState := { s with powerActivityPending := true }

/-- The events that `pointer_service_submit` does not turn away. -/
def Accepted (event : PointerEvent) : Prop :=
  event.type ≠ .other ∧ event.contactId < pointerMaxContacts ∧ 0 ≤ event.x ∧ 0 ≤ event.y ∧ event.x < displayWidth ∧
    event.y < displayHeight

instance (event : PointerEvent) : Decidable (Accepted event) :=
  decidable_of_iff (event.type ≠ .other ∧ event.contactId < pointerMaxContacts ∧ 0 ≤ event.x ∧ 0 ≤ event.y ∧
    event.x < displayWidth ∧ event.y < displayHeight) Iff.rfl

def trackPower (powerContacts : Nat → Bool) (event : PointerEvent) : Nat → Bool :=
  match event.type with
  | .down => Function.update powerContacts event.contactId true
  | .up => Function.update powerContacts event.contactId false
  | .cancel => Function.update powerContacts event.contactId false
  | _ => powerContacts

/-- The contacts of a stream after an event. -/
def trackContact (stream : PointerStream) (event : PointerEvent) : PointerStream :=
  if event.type = .down ∨ event.type = .move then
    { stream with
      contacts := Function.update stream.contacts event.contactId true
      contactX := Function.update stream.contactX event.contactId event.x
      contactY := Function.update stream.contactY event.contactId event.y }
  else { stream with contacts := Function.update stream.contacts event.contactId false }

/-- A full queue gives way to the cancellation of its contacts. -/
def makeRoom (deviceId : Nat) (stream : PointerStream) : PointerStream :=
  if stream.queue.count = pointerQueueCapacity then cancelContacts deviceId stream else stream

/-- The streams that a submitted event goes to. -/
def Receives (s : PointerState) (stream : PointerStream) : Prop :=
  stream.isOpen = true ∧ stream.owner = s.foregroundOwner ∧ stream.hangup = false

instance (s : PointerState) (stream : PointerStream) : Decidable (Receives s stream) :=
  decidable_of_iff (stream.isOpen = true ∧ stream.owner = s.foregroundOwner ∧ stream.hangup = false) Iff.rfl

def receive (s : PointerState) (event : PointerEvent) (stream : PointerStream) : PointerStream :=
  if Receives s stream then
    trackContact (enqueue (makeRoom s.pointerDeviceId stream) { event with deviceId := s.pointerDeviceId }) event
  else stream

def pointerServiceSubmit (s : PointerState) (event : PointerEvent) : PointerState :=
  if Accepted event then
    { s with
      streams := fun index => receive s event (s.streams index)
      powerContacts := trackPower s.powerContacts event
      powerActivityPending := s.powerActivityPending || decide (event.type ≠ .cancel) }
  else s

/-- The stream when the device goes away. -/
def hangUp (s : PointerState) (stream : PointerStream) : PointerStream :=
  if stream.isOpen then { cancelContacts s.pointerDeviceId stream with hangup := true } else stream

def pointerServiceRemoveDevice (s : PointerState) : PointerState :=
  { s with
    streams := fun index => hangUp s (s.streams index)
    powerContacts := fun _ => false
    detected := false }

inductive Operation where
  | setDeviceId (deviceId : Nat)
  | setForegroundOwner (owner : Option Owner)
  | open (owner : Option Owner) (deviceId : Nat)
  | close (owner : Option Owner) (handle : Int)
  | read (owner : Option Owner) (handle : Int)
  | closeOwner (owner : Option Owner)
  | takePowerActivity
  | recordMovement
  | submit (event : PointerEvent)
  | removeDevice

def step (s : PointerState) : Operation → PointerState
  | .setDeviceId deviceId => pointerServiceSetDeviceId s deviceId
  | .setForegroundOwner owner => pointerServiceSetForegroundOwner s owner
  | .open owner deviceId => (pointerServiceOpen s owner deviceId).2
  | .close owner handle => (pointerServiceClose s owner handle).2
  | .read owner handle => (pointerServiceRead s owner handle).2.2
  | .closeOwner owner => pointerServiceCloseOwner s owner
  | .takePowerActivity => pointerServiceTakePowerActivity s
  | .recordMovement => pointerServiceRecordMovement s
  | .submit event => pointerServiceSubmit s event
  | .removeDevice => pointerServiceRemoveDevice s

def run (s : PointerState) (operations : List Operation) : PointerState := operations.foldl step s

end Pointer
end TabOS
