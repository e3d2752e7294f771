import TabOS.Fs.Path
import TabOS.Library.Handles
import TabOS.Library.Queue
import TabOS.Library.Run
import Mathlib.Algebra.Ring.Nat
import Mathlib.Data.List.FinRange

/-!
# The registry of devices

`kernel/device_registry.c`, after `device_registry_init`: the devices that drivers register, remove and set the state of, and the
subscriptions to the events about them. Each operation runs under the mutex of the registry. A history variable that no branch reads
has the events that were published, the latest last.
-/

namespace TabOS
namespace Device

open Library Fs

/-- `DEVICE_REGISTRY_CAPACITY`. -/
def registryCapacity : Nat := 32

/-- `DEVICE_SUBSCRIPTION_CAPACITY`. -/
def subscriptionCapacity : Nat := 16

/-- `DEVICE_EVENT_QUEUE_CAPACITY`. -/
def eventQueueCapacity : Nat := 32

/-- `1U << DEVICE_ID_SLOT_BITS`. -/
def idSlotLimit : Nat := 64

/-- `DEVICE_SUBSCRIPTION_GENERATION_MAX`. -/
def subscriptionGenerationMax : Nat := 0x7fffffff / subscriptionCapacity

/-- The values below which a `uint32_t` lies. -/
def uint32Limit : Nat := 0x100000000

/-- `TABOS_DEVICE_NAME_MAX`. -/
def nameMax : Nat := 15

/-- `TABOS_DEVICE_DRIVER_MAX`. -/
def driverMax : Nat := 31

/-- `TABOS_DEVICE_ID_INVALID`. -/
def idInvalid : Nat := 0xffffffff

/-- `TABOS_DEVICE_SUBSCRIPTION_INVALID`. -/
def subscriptionInvalid : Int := -1

/-- `TABOS_DEVICE_EVENT_OVERFLOW`. -/
def eventOverflow : Nat := 1

def ebadf : Int := 9
def eagain : Int := 11

def classDisplay : Int := 0
def classCount : Int := 11

def deviceReady : Int := 0
def deviceOffline : Int := 1
def deviceFault : Int := 2
def deviceStateCount : Int := 3

instance subscription_neZero : NeZero subscriptionCapacity := ⟨by decide⟩

instance registry_neZero : NeZero registryCapacity := ⟨by decide⟩

/-- `tabos_device_info_t`. -/
structure DeviceInfo where
  id : Nat
  deviceClass : Int
  state : Int
  features : Nat
  lastError : Int
  name : CString
  driver : CString
  deriving DecidableEq

/-- The zeroed record. -/
def DeviceInfo.zero : DeviceInfo where
  id := 0
  deviceClass := 0
  state := 0
  features := 0
  lastError := 0
  name := .empty
  driver := .empty

/-- `tabos_device_event_type_t`. -/
inductive EventType where
  | added
  | removed
  | ready
  | offline
  | fault
  deriving DecidableEq, Repr

/-- `tabos_device_event_t`. -/
structure DeviceEvent where
  type : EventType
  flags : Nat
  device : DeviceInfo
  deriving DecidableEq

/-- The zeroed event. -/
def DeviceEvent.zero : DeviceEvent := ⟨.added, 0, .zero⟩

/-- `device_registry_entry_t`. -/
structure Entry where
  info : DeviceInfo
  used : Bool
  present : Bool
  deriving DecidableEq

/-- The address of an owner; `NULL` is none. -/
abbrev Owner := Nat

/-- `device_subscription_t`; its queue has the events, the head and the count. -/
structure Subscription where
  owner : Option Owner
  queue : Queue DeviceEvent eventQueueCapacity
  generation : Nat
  used : Bool
  overflow : Bool

/-- A subscription that is cleared but for its generation. -/
def Subscription.cleared (generation : Nat) : Subscription where
  owner := none
  queue := ⟨fun _ => .zero, 0, 0⟩
  generation := generation
  used := false
  overflow := false

/-- `device_registry_registration_t`; a text may be `NULL`. -/
structure Registration where
  name : Option CString
  driver : Option CString
  deviceClass : Int
  state : Int
  features : Nat
  lastError : Int
  deriving DecidableEq

/-- The variables of the registry, with the history. -/
structure Registry where
  entries : Fin registryCapacity → Entry
  subscriptions : Fin subscriptionCapacity → Subscription
  registryGeneration : Nat
  activeCount : Nat
  published : List DeviceEvent

/-- What `device_registry_init` makes of the registry with the next generation, which fits into an identifier. -/
def deviceRegistryInit (nextGeneration : Nat) : Registry where
  entries := fun _ => ⟨.zero, false, false⟩
  subscriptions := fun _ => .cleared 0
  registryGeneration := nextGeneration
  activeCount := 0
  published := []

/-! ## Events -/

/-- A round of the loop of `publish_event`. -/
def Subscription.deliver (event : DeviceEvent) (s : Subscription) : Subscription :=
  if s.used = false then s
  else
    let s := if s.queue.count = eventQueueCapacity then { s with queue := s.queue.popFront, overflow := true } else s
    { s with queue := s.queue.pushBack event }

/-- `publish_event`. -/
def publishEvent (type : EventType) (info : DeviceInfo) (r : Registry) : Registry :=
  let event : DeviceEvent := ⟨type, 0, info⟩
  { r with
    subscriptions := fun index => (r.subscriptions index).deliver event
    published := r.published ++ [event] }

/-- `state_event`. -/
def stateEvent (state : Int) : EventType :=
  if state = deviceReady then .ready else if state = deviceOffline then .offline else .fault

/-! ## Checks and identifiers -/

/-- `valid_class`. -/
def validClass (deviceClass : Int) : Bool := decide (classDisplay ≤ deviceClass) && decide (deviceClass < classCount)

/-- `valid_state`. -/
def validState (state : Int) : Bool := decide (deviceReady ≤ state) && decide (state < deviceStateCount)

/-- `valid_text`: the text where it is valid. -/
def validText (text : Option CString) (maximum : Nat) : Option CString :=
  text.filter fun text => decide (text.bytes ≠ []) && decide (text.bytes.length ≤ maximum)

/-- `make_id`. -/
def makeId (r : Registry) (slot : Fin registryCapacity) : Nat := r.registryGeneration * idSlotLimit + (slot + 1)

/-- `decode_id`. -/
def decodeId (r : Registry) (id : Nat) : Option (Fin registryCapacity) :=
  if id = idInvalid ∨ id = 0 then none
  else
    let slotCode := id % idSlotLimit
    let generation := id / idSlotLimit
    if generation ≠ r.registryGeneration ∨ slotCode = 0 ∨ registryCapacity < slotCode then none
    else some (Fin.ofNat registryCapacity (slotCode - 1))

/-- `active_entry`. -/
def activeEntry (r : Registry) (id : Nat) : Option (Fin registryCapacity) :=
  (decodeId r id).filter fun slot =>
    (r.entries slot).used && (r.entries slot).present && decide ((r.entries slot).info.id = id)

/-- `name_used`. -/
def nameUsed (r : Registry) (name : CString) : Bool :=
  (List.finRange registryCapacity).any fun index => (r.entries index).used && decide ((r.entries index).info.name = name)

/-- The first entry that is not used. -/
def freeEntry (r : Registry) : Option (Fin registryCapacity) :=
  (List.finRange registryCapacity).find? fun index => !(r.entries index).used

/-- Replace an entry. -/
def Registry.setEntry (r : Registry) (slot : Fin registryCapacity) (entry : Entry) : Registry :=
  { r with entries := Function.update r.entries slot entry }

/-- Replace a subscription. -/
def Registry.setSubscription (r : Registry) (index : Fin subscriptionCapacity) (subscription : Subscription) : Registry :=
  { r with subscriptions := Function.update r.subscriptions index subscription }

/-! ## Devices -/

/-- `device_registry_register` for a registration with valid texts. -/
def registerDevice (registration : Registration) (name driver : CString) (r : Registry) : Nat × Registry :=
  if nameUsed r name then (idInvalid, r)
  else match freeEntry r with
    | none => (idInvalid, r)
    | some slot =>
      let info : DeviceInfo :=
        { id := makeId r slot
          deviceClass := registration.deviceClass
          state := registration.state
          features := registration.features
          lastError := registration.lastError
          name := name
          driver := driver }
      let r := r.setEntry slot ⟨info, true, true⟩
      (info.id, publishEvent .added info { r with activeCount := r.activeCount + 1 })

/-- `device_registry_register`. -/
def deviceRegistryRegister (registration : Option Registration) (r : Registry) : Nat × Registry :=
  match registration with
  | none => (idInvalid, r)
  | some registration =>
    match validText registration.name nameMax, validText registration.driver driverMax with
    | some name, some driver =>
      if validClass registration.deviceClass = false ∨ validState registration.state = false then (idInvalid, r)
      else registerDevice registration name driver r
    | _, _ => (idInvalid, r)

/-- `device_registry_remove`. -/
def deviceRegistryRemove (id : Nat) (r : Registry) : Bool × Registry :=
  match activeEntry r id with
  | none => (false, r)
  | some slot =>
    let r := publishEvent .removed (r.entries slot).info r
    let r := r.setEntry slot { r.entries slot with present := false }
    (true, { r with activeCount := r.activeCount - 1 })

/-- `device_registry_set_state`. -/
def deviceRegistrySetState (id : Nat) (state lastError : Int) (r : Registry) : Bool × Registry :=
  if validState state = false then (false, r)
  else match activeEntry r id with
    | none => (false, r)
    | some slot =>
      let entry := r.entries slot
      if entry.info.state = state ∧ entry.info.lastError = lastError then (true, r)
      else
        let info := { entry.info with state := state, lastError := lastError }
        (true, publishEvent (stateEvent state) info (r.setEntry slot { entry with info := info }))

/-- `device_registry_get`. -/
def deviceRegistryGet (r : Registry) (id : Nat) : Option DeviceInfo := (activeEntry r id).map fun slot => (r.entries slot).info

/-- The entries of the present devices in the order of `device_registry_at`. -/
def presentSlots (r : Registry) : List (Fin registryCapacity) :=
  (List.finRange registryCapacity).filter fun slot => (r.entries slot).present

/-! ## Subscriptions -/

/-- `subscription_handle`. -/
def subscriptionHandle (index : Fin subscriptionCapacity) (generation : Nat) : Int := pack index generation

/-- `owned_subscription`. -/
def ownedSubscription (r : Registry) (owner : Option Owner) (handle : Int) : Option (Fin subscriptionCapacity) :=
  if owner = none ∨ handle < 0 then none
  else
    let index := slotOf subscriptionCapacity handle.toNat
    let generation := handle.toNat / subscriptionCapacity
    if (r.subscriptions index).used = true ∧ (r.subscriptions index).owner = owner ∧ (r.subscriptions index).generation = generation then
      some index
    else none

/-- The first subscription that is not used. -/
def freeSubscription (r : Registry) : Option (Fin subscriptionCapacity) :=
  (List.finRange subscriptionCapacity).find? fun index => !(r.subscriptions index).used

/-- The generation after another one. -/
def nextSubscriptionGeneration (generation : Nat) : Nat :=
  let generation := (generation + 1) % uint32Limit
  if generation = 0 ∨ subscriptionGenerationMax < generation then 1 else generation

/-- `device_registry_subscribe`. -/
def deviceRegistrySubscribe (owner : Option Owner) (r : Registry) : Int × Registry :=
  if owner = none then (subscriptionInvalid, r)
  else match freeSubscription r with
    | none => (subscriptionInvalid, r)
    | some index =>
      let generation := nextSubscriptionGeneration (r.subscriptions index).generation
      (subscriptionHandle index generation,
        r.setSubscription index { Subscription.cleared generation with owner := owner, used := true })

/-- `device_registry_unsubscribe`. -/
def deviceRegistryUnsubscribe (owner : Option Owner) (handle : Int) (r : Registry) : Bool × Registry :=
  match ownedSubscription r owner handle with
  | none => (false, r)
  | some index => (true, r.setSubscription index (.cleared (r.subscriptions index).generation))

/-- `device_registry_unsubscribe_owner`. -/
def deviceRegistryUnsubscribeOwner (owner : Option Owner) (r : Registry) : Registry :=
  if owner = none then r
  else
    { r with subscriptions := fun index =>
        if (r.subscriptions index).used = true ∧ (r.subscriptions index).owner = owner then .cleared (r.subscriptions index).generation
        else r.subscriptions index }

/-- The flags of an event that is read. -/
def DeviceEvent.flagged (overflow : Bool) (event : DeviceEvent) : DeviceEvent :=
  if overflow then { event with flags := event.flags ||| eventOverflow } else event

/-- `device_registry_read_event`: the event or the error. -/
def deviceRegistryReadEvent (owner : Option Owner) (handle : Int) (r : Registry) : Except Int DeviceEvent × Registry :=
  match ownedSubscription r owner handle with
  | none => (.error (-ebadf), r)
  | some index =>
    let s := r.subscriptions index
    if s.queue.count = 0 then (.error (-eagain), r)
    else (.ok (s.queue.front.flagged s.overflow), r.setSubscription index { s with queue := s.queue.popFront, overflow := false })

/-! ## Runs -/

/-- An operation of the registry, by any thread. -/
inductive Op where
  | register (registration : Option Registration)
  | remove (id : Nat)
  | setState (id : Nat) (state lastError : Int)
  | subscribe (owner : Option Owner)
  | unsubscribe (owner : Option Owner) (handle : Int)
  | unsubscribeOwner (owner : Option Owner)
  | readEvent (owner : Option Owner) (handle : Int)
  deriving DecidableEq

/-- The registry after an operation. -/
def step (r : Registry) : Op → Registry
  | .register registration => (deviceRegistryRegister registration r).2
  | .remove id => (deviceRegistryRemove id r).2
  | .setState id state lastError => (deviceRegistrySetState id state lastError r).2
  | .subscribe owner => (deviceRegistrySubscribe owner r).2
  | .unsubscribe owner handle => (deviceRegistryUnsubscribe owner handle r).2
  | .unsubscribeOwner owner => deviceRegistryUnsubscribeOwner owner r
  | .readEvent owner handle => (deviceRegistryReadEvent owner handle r).2

/-- The event that an owner reads by a handle in an operation, if any. -/
def eventRead (owner : Option Owner) (handle : Int) (r : Registry) (op : Op) : List DeviceEvent :=
  if op = .readEvent owner handle then (deviceRegistryReadEvent owner handle r).1.toOption.toList else []

/-- The events that an owner reads by a handle in a run, in order. -/
def eventsRead (owner : Option Owner) (handle : Int) : Registry → List Op → List DeviceEvent
  | _, [] => []
  | r, op :: ops => eventRead owner handle r op ++ eventsRead owner handle (step r op) ops

end Device
end TabOS
