import TabOS.Library.Handles
import TabOS.Library.Least
import TabOS.Library.Run
import Mathlib.Data.Finset.Card
import Mathlib.Data.Fintype.Basic

/-!
# Camera streams

The frames of `camera/camera.c`: a producer submits them, and the owner of a stream acquires, copies and releases them; each operation
runs under the mutex of the camera. A stream has a history variable that no branch reads: the submissions that matched it, the frames
that were acquired with their data, and the leases that were released, the latest first.
-/

namespace TabOS
namespace Camera

open Library

/-- `CAMERA_STREAM_CAPACITY`. -/
def cameraStreamCapacity : Nat := 4

/-- `CAMERA_FRAME_CAPACITY`. -/
def cameraFrameCapacity : Nat := 3

/-- The values below which an index of a lease lies, `1U << CAMERA_LEASE_INDEX_BITS`. -/
def leaseIndexLimit : Nat := 4

/-- `UINT32_MAX`. -/
def uint32Max : Nat := 0xffffffff

/-- `CAMERA_STREAM_GENERATION_MAX`. -/
def streamGenerationMax : Nat := 0x7fffffff / cameraStreamCapacity

/-- `UINT32_MAX >> CAMERA_LEASE_INDEX_BITS`. -/
def leaseGenerationMax : Nat := uint32Max / leaseIndexLimit

def ebadf : Int := 9
def einval : Int := 22
def eagain : Int := 11
def enodev : Int := 19
def eio : Int := 5

def formatRaw8 : Nat := 0
def formatRgb565 : Nat := 1
def formatJpeg : Nat := 2
def formatH264 : Nat := 3
def formatCount : Nat := 4

/-- `tabos_camera_frame_t`. -/
structure CameraFrame where
  lease : Nat
  format : Nat
  width : Nat
  height : Nat
  strideBytes : Nat
  sizeBytes : Nat
  timestampMs : Nat
  sequence : Nat
  droppedFrames : Nat
  deriving DecidableEq, Repr

def CameraFrame.zero : CameraFrame where
  lease := 0
  format := 0
  width := 0
  height := 0
  strideBytes := 0
  sizeBytes := 0
  timestampMs := 0
  sequence := 0
  droppedFrames := 0

/-- `camera_frame_slot_t`; the data are the bytes up to its size. -/
structure FrameSlot where
  data : List UInt8
  capacity : Nat
  generation : Nat
  metadata : CameraFrame
  ready : Bool
  leased : Bool
  deriving DecidableEq, Repr

/-- The configuration of a stream, as far as frames are matched with it. -/
structure CameraConfig where
  format : Nat
  width : Nat
  height : Nat
  deriving DecidableEq, Repr

inductive FrameEvent where
  | submitted
  | acquired (frame : CameraFrame) (data : List UInt8)
  | released (lease : Nat)

/-- The address of an owner; `NULL` is none. -/
abbrev Owner := Nat

/-- `camera_stream_t`, with its history. -/
structure CameraStream where
  owner : Option Owner
  frames : Fin cameraFrameCapacity → FrameSlot
  config : CameraConfig
  generation : Nat
  sequence : Nat
  drops : Nat
  isOpen : Bool
  faulted : Bool
  hangup : Bool
  history : List FrameEvent

abbrev CameraState := Fin cameraStreamCapacity → CameraStream

/-- A slot as `camera_service_open` leaves it. -/
def FrameSlot.empty (capacity : Nat) : FrameSlot where
  data := []
  capacity := capacity
  generation := 0
  metadata := .zero
  ready := false
  leased := false

/-- A stream as `camera_service_open` leaves it. -/
def CameraStream.opened (owner : Owner) (config : CameraConfig) (generation capacity : Nat) : CameraStream where
  owner := some owner
  frames := fun _ => .empty capacity
  config := config
  generation := generation
  sequence := 0
  drops := 0
  isOpen := true
  faulted := false
  hangup := false
  history := []

/-- A call of `camera_service_submit`; its size is the length of its data. -/
structure Submission where
  data : Option (List UInt8)
  width : Nat
  height : Nat
  strideBytes : Nat
  format : Nat
  timestampMs : Nat

/-! ## Handles -/

def nextGeneration (generation maximum : Nat) : Nat := if generation + 1 > maximum then 1 else generation + 1

/-- The slot that a handle names. -/
def handleIndex (handle : Int) : Fin cameraStreamCapacity := ⟨handle.toNat % cameraStreamCapacity, Nat.mod_lt _ (by decide)⟩

def streamHandle (index : Fin cameraStreamCapacity) (generation : Nat) : Int := generation * cameraStreamCapacity + index

def ownedStream (s : CameraState) (owner : Option Owner) (handle : Int) : Option (Fin cameraStreamCapacity) :=
  if owner = none ∨ handle ≤ 0 then none
  else
    let index := handleIndex handle
    if (s index).isOpen = true ∧ (s index).owner = owner ∧ (s index).generation = handle.toNat / cameraStreamCapacity then some index
    else none

def leaseHandle (index : Fin cameraFrameCapacity) (generation : Nat) : Nat := generation * leaseIndexLimit + index

def leasedFrame (stream : CameraStream) (lease : Nat) : Option (Fin cameraFrameCapacity) :=
  if lease = 0 then none
  else if hindex : lease % leaseIndexLimit < cameraFrameCapacity then
    let index : Fin cameraFrameCapacity := ⟨lease % leaseIndexLimit, hindex⟩
    if (stream.frames index).leased = true ∧ (stream.frames index).generation = lease / leaseIndexLimit then some index else none
  else none

/-! ## Submission -/

def CameraStream.setFrame (stream : CameraStream) (index : Fin cameraFrameCapacity) (slot : FrameSlot) : CameraStream :=
  { stream with frames := Function.update stream.frames index slot }

/-- The first slot that is neither ready nor leased. -/
def freeFrame (stream : CameraStream) : Option (Fin cameraFrameCapacity) :=
  (List.finRange cameraFrameCapacity).find? fun index => !(stream.frames index).leased && !(stream.frames index).ready

/-- The slot of the oldest frame among the eligible ones. -/
def oldestFrame (stream : CameraStream) (eligible : FrameSlot → Bool) : Option (Fin cameraFrameCapacity) :=
  leastBelow (fun index => eligible (stream.frames index)) (fun index => (stream.frames index).metadata.sequence) uint32Max
    (List.finRange cameraFrameCapacity)

/-- Stores a submission in a slot. -/
def storeFrame (stream : CameraStream) (index : Fin cameraFrameCapacity) (submission : Submission) (data : List UInt8) : CameraStream :=
  let sequence := (stream.sequence + 1) % (uint32Max + 1)
  { stream.setFrame index
      { stream.frames index with
        data := data
        ready := true
        metadata :=
          { CameraFrame.zero with
            format := submission.format
            width := submission.width
            height := submission.height
            strideBytes := submission.strideBytes
            sizeBytes := data.length % (uint32Max + 1)
            timestampMs := submission.timestampMs
            sequence := sequence } } with
    sequence := sequence }

/-- A frame that does not fit its slot is a fault. -/
def fillFrame (stream : CameraStream) (index : Fin cameraFrameCapacity) (submission : Submission) (data : List UInt8) : CameraStream :=
  if data.length > (stream.frames index).capacity then { stream with faulted := true } else storeFrame stream index submission data

def dropFrame (stream : CameraStream) : CameraStream := { stream with drops := (stream.drops + 1) % (uint32Max + 1) }

/-- What happens where no slot is free. -/
def replaceFrame (stream : CameraStream) (submission : Submission) (data : List UInt8) : CameraStream :=
  if submission.format = formatH264 then { stream with faulted := true }
  else
    match oldestFrame stream fun slot => !slot.leased with
    | none => dropFrame stream
    | some index => fillFrame (dropFrame stream) index submission data

/-- Submissions of the format and the size of a stream. -/
def Matches (config : CameraConfig) (submission : Submission) : Prop :=
  submission.format = config.format ∧ submission.width = config.width ∧ submission.height = config.height

instance (config : CameraConfig) (submission : Submission) : Decidable (Matches config submission) :=
  decidable_of_iff (submission.format = config.format ∧ submission.width = config.width ∧ submission.height = config.height) Iff.rfl

/-- Frames of a packed format without a stride. -/
def Unpacked (submission : Submission) : Prop :=
  (submission.format = formatRaw8 ∨ submission.format = formatRgb565) ∧ submission.strideBytes = 0

instance (submission : Submission) : Decidable (Unpacked submission) :=
  decidable_of_iff ((submission.format = formatRaw8 ∨ submission.format = formatRgb565) ∧ submission.strideBytes = 0) Iff.rfl

def submitTo (submission : Submission) (data : List UInt8) (stream : CameraStream) : CameraStream :=
  if stream.isOpen = false ∨ stream.faulted = true ∨ stream.hangup = true then stream
  else if ¬Matches stream.config submission ∨ Unpacked submission then stream
  else
    let stream := { stream with history := .submitted :: stream.history }
    match freeFrame stream with
    | some index => fillFrame stream index submission data
    | none => replaceFrame stream submission data

def cameraServiceSubmit (s : CameraState) (submission : Submission) : CameraState :=
  match submission.data with
  | none => s
  | some data =>
    if data.length = 0 ∨ submission.format ≥ formatCount then s else fun index => submitTo submission data (s index)

/-! ## The owner of a stream -/

/-- The metadata under which a frame is acquired. -/
def acquiredFrame (stream : CameraStream) (index : Fin cameraFrameCapacity) : CameraFrame :=
  let slot := stream.frames index
  { slot.metadata with
    lease := leaseHandle index (nextGeneration slot.generation leaseGenerationMax)
    droppedFrames := stream.drops }

def acquireFrame (stream : CameraStream) (index : Fin cameraFrameCapacity) : CameraStream :=
  let slot := stream.frames index
  let frame := acquiredFrame stream index
  { stream.setFrame index
      { slot with
        ready := false
        leased := true
        generation := nextGeneration slot.generation leaseGenerationMax
        metadata := frame } with
    history := .acquired frame slot.data :: stream.history }

/-- The slot that is acquired next. -/
def readyFrame (stream : CameraStream) : Option (Fin cameraFrameCapacity) := oldestFrame stream fun slot => slot.ready && !slot.leased

def cameraServiceAcquire (s : CameraState) (owner : Option Owner) (handle : Int) : Int × Option CameraFrame × CameraState :=
  match ownedStream s owner handle with
  | none => (-ebadf, none, s)
  | some index =>
    match readyFrame (s index) with
    | some frame => (0, some (acquiredFrame (s index) frame), Function.update s index (acquireFrame (s index) frame))
    | none => (if (s index).faulted then -eio else if (s index).hangup then -enodev else -eagain, none, s)

/-- The slot of a lease in a stream that its owner names. -/
def ownedFrame (s : CameraState) (owner : Option Owner) (handle : Int) (lease : Nat) :
    Option (Fin cameraStreamCapacity × Fin cameraFrameCapacity) :=
  match ownedStream s owner handle with
  | none => none
  | some index => (leasedFrame (s index) lease).map fun frame => (index, frame)

def cameraServiceCopy (s : CameraState) (owner : Option Owner) (handle : Int) (lease offset capacity : Nat) : Int × List UInt8 :=
  if capacity = 0 then (-einval, [])
  else
    match ownedFrame s owner handle lease with
    | none => (-ebadf, [])
    | some (index, frame) =>
      let bytes := (((s index).frames frame).data.drop offset).take capacity
      (bytes.length, bytes)

def releaseFrame (stream : CameraStream) (lease : Nat) (index : Fin cameraFrameCapacity) : CameraStream :=
  { stream.setFrame index { stream.frames index with leased := false } with history := .released lease :: stream.history }

def cameraServiceRelease (s : CameraState) (owner : Option Owner) (handle : Int) (lease : Nat) : Int × CameraState :=
  match ownedFrame s owner handle lease with
  | none => (-ebadf, s)
  | some (index, frame) => (0, Function.update s index (releaseFrame (s index) lease frame))

/-- What `camera_service_error` does to the streams. -/
def cameraServiceError (s : CameraState) : CameraState := fun index =>
  { s index with faulted := (s index).faulted || (s index).isOpen }

/-- What the removal of the device does to the streams. -/
def cameraServiceRemove (s : CameraState) : CameraState := fun index => { s index with hangup := (s index).hangup || (s index).isOpen }

inductive Operation where
  | submit (submission : Submission)
  | acquire (owner : Option Owner) (handle : Int)
  | copy (owner : Option Owner) (handle : Int) (lease offset capacity : Nat)
  | release (owner : Option Owner) (handle : Int) (lease : Nat)
  | error
  | remove

def step (s : CameraState) : Operation → CameraState
  | .submit submission => cameraServiceSubmit s submission
  | .acquire owner handle => (cameraServiceAcquire s owner handle).2.2
  | .copy _ _ _ _ _ => s
  | .release owner handle lease => (cameraServiceRelease s owner handle lease).2
  | .error => cameraServiceError s
  | .remove => cameraServiceRemove s

def run (s : CameraState) (operations : List Operation) : CameraState := operations.foldl step s

end Camera
end TabOS
