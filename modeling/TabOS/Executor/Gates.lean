import TabOS.Executor.Layout

/-!
# Service gates of the host executor

An application calls a service by a jump to the gate of it. `step_inner` turns the registers into the arguments of the service, and a
guest pointer that it does not accept into a fault. An argument that is a pointer into the memory of the guest stands as the address
there.
-/

namespace TabOS
namespace Executor

/-- `HOST_RV32_API_GATES`, in its order. -/
inductive Gate where
  | consoleWrite
  | requestExit
  | hostReturn
  | consoleRead
  | consoleClear
  | fsGetcwd
  | fsChdir
  | fsList
  | exec
  | yield
  | consoleWriteRaw
  | fdOpen
  | fdClose
  | fdRead
  | fdWrite
  | fdSeek
  | fsStat
  | fdStat
  | fsMkdir
  | fsUnlink
  | fsRename
  | fdGetFlags
  | fdSetFlags
  | heapSbrk
  | fsRmdir
  | monotonicMs
  | systemInfo
  | graphicsOpen
  | graphicsClear
  | graphicsFillRect
  | graphicsBlit
  | graphicsPresent
  | graphicsClose
  | graphicsCapabilities
  | graphicsBlitEx
  | ttyGetMode
  | ttySetMode
  | inputPoll
  | wallTimeGet
  | wallTimeSet
  | systemAction
  | networkStatus
  | networkConnectSaved
  | networkDisconnect
  | networkResolve
  | networkEcho
  | socketOpen
  | socketClose
  | socketBind
  | socketListen
  | socketAccept
  | socketConnect
  | socketNonblocking
  | socketShutdown
  | socketSend
  | socketReceive
  | socketSendTo
  | socketReceiveFrom
  | socketLocalEndpoint
  | graphicsSetOverlays
  | tlsConnect
  | tlsClose
  | tlsSend
  | tlsReceive
  | deviceCount
  | deviceAt
  | deviceGet
  | deviceFind
  | deviceSubscribe
  | deviceClose
  | deviceEventRead
  | socketWaitSource
  | deviceSubscriptionWaitSource
  | wait
  | batteryStatus
  | batterySetCharging
  | batterySetFastCharging
  | audioInfo
  | audioOpen
  | audioClose
  | audioWrite
  | audioRead
  | audioSetVolume
  | audioSetRoute
  | audioStatus
  | audioWaitSource
  | audioFlush
  | pointerOpen
  | pointerClose
  | pointerRead
  | pointerWaitSource
  | cameraInfo
  | cameraOpen
  | cameraClose
  | cameraAcquire
  | cameraCopy
  | cameraRelease
  | cameraWaitSource
  | ttyGetSize
  | inputWaitSource
  | inputGetState
  | graphicsSubmit
  | graphicsSubmitBorrowed
  | graphicsWait
  | computeSubmit
  | computeWait
  | computePoll
  deriving DecidableEq, Repr

/-- `HOST_RV32_API_GATE_BASE`. -/
def apiGateBase : BitVec 32 := 0xffff0000

/-- The address that stands for a gate. -/
def Gate.address (gate : Gate) : BitVec 32 := apiGateBase + BitVec.ofNat 32 gate.ctorIdx * 4

/-- The gate that an address stands for. -/
def gateAt (pc : BitVec 32) : Option Gate :=
  let gate := Gate.ofNat ((pc - apiGateBase).toNat / 4)
  if gate.address = pc then some gate else none

theorem Gate.ctorIdx_lt (gate : Gate) : gate.ctorIdx < 113 := by
  cases gate <;> decide

theorem gateAt_eq_some {pc : BitVec 32} {gate : Gate} : gateAt pc = some gate ↔ pc = gate.address := by
  unfold gateAt
  dsimp only
  constructor
  · intro h
    split at h
    · next haddress => rw [← haddress, Option.some.inj h]
    · cases h
  · rintro rfl
    have hlt := gate.ctorIdx_lt
    have hindex : (gate.address - apiGateBase).toNat / 4 = gate.ctorIdx := by
      have hproduct : (BitVec.ofNat 32 gate.ctorIdx * 4).toNat = gate.ctorIdx * 4 := by
        rw [BitVec.toNat_mul, BitVec.toNat_ofNat]
        show gate.ctorIdx % 2 ^ 32 * 4 % 2 ^ 32 = gate.ctorIdx * 4
        omega
      rw [Gate.address, BitVec.add_comm, BitVec.add_sub_cancel, hproduct]
      omega
    rw [hindex, Gate.ofNat_ctorIdx, if_pos rfl]

/-! ## Guest memory -/

/-- The memory that `platform_riscv32_create` allocates. -/
structure Ram where
  bytes : List UInt8
  guard_le : guardBytes ≤ bytes.length
  length_le : bytes.length ≤ maxRamSize

def Ram.size (memory : Ram) : Nat := memory.bytes.length

/-- The memory of a layout, before the image and the arguments are copied into it. -/
def Ram.ofLayout {entryOffset memorySize minimumAddress heapBytes stackBytes : Nat} {arguments : List (Option (List UInt8))}
    {layout : GuestLayout} (h : guestLayout entryOffset memorySize minimumAddress heapBytes stackBytes arguments = some layout) :
    Ram where
  bytes := List.replicate layout.ramSize 0
  guard_le := Nat.le_trans (guestLayout_ramSize h).1 (Nat.le_of_eq List.length_replicate.symm)
  length_le := Nat.le_trans (Nat.le_of_eq List.length_replicate) (guestLayout_ramSize h).2

/-- A byte of the memory; nothing reads outside. -/
def Ram.byte (memory : Ram) (address : Nat) : BitVec 32 := ((memory.bytes[address]?).getD 0).toBitVec.setWidth 32

def readU16 (memory : Ram) (address : Nat) : BitVec 32 := memory.byte address ||| memory.byte (address + 1) <<< 8

def readU32 (memory : Ram) (address : Nat) : BitVec 32 :=
  memory.byte address ||| memory.byte (address + 1) <<< 8 ||| memory.byte (address + 2) <<< 16 ||| memory.byte (address + 3) <<< 24

/-- The range lies in the memory. -/
def Ram.Holds (memory : Ram) (address length : Nat) : Prop := address + length ≤ memory.size

instance (memory : Ram) (address length : Nat) : Decidable (memory.Holds address length) :=
  inferInstanceAs (Decidable (address + length ≤ memory.size))

/-- A string with its terminator lies in the memory. -/
def Ram.HoldsString (memory : Ram) (address : Nat) : Prop := address < memory.size ∧ 0 ∈ memory.bytes.drop address

instance (memory : Ram) (address : Nat) : Decidable (memory.HoldsString address) :=
  inferInstanceAs (Decidable (address < memory.size ∧ 0 ∈ memory.bytes.drop address))

/-! ## Arguments -/

/-- `tabos_graphics_blit_options_t` as the gate copies it; the pixels are an address. -/
structure BlitOptions where
  pixels : BitVec 32
  bitmapWidth : BitVec 32
  bitmapHeight : BitVec 32
  source : List (BitVec 32)
  destination : List (BitVec 32)
  rotation : BitVec 32
  mirrorX : Bool
  mirrorY : Bool
  opacity : BitVec 32
  colorKeyEnabled : Bool
  colorKeyLow : BitVec 32
  colorKeyHigh : BitVec 32
  deriving DecidableEq, Repr

/-- What is passed to a service. -/
inductive Argument where
  | value (value : BitVec 32)
  | pointer (address : BitVec 32)
  | absent
  | pointers (addresses : List (BitVec 32))
  | options (options : BlitOptions)
  deriving DecidableEq, Repr

instance register_neZero : NeZero (32 : Nat) := ⟨Nat.succ_ne_zero 31⟩

/-- `platform_riscv32_context`, without its input and output; `api` are the services that are there. -/
structure Context where
  memory : Ram
  regs : Fin 32 → BitVec 32
  pc : BitVec 32
  api : Gate → Bool
  heapBreak : BitVec 32
  heapEnd : BitVec 32
  waitDeadline : Nat
  waiting : Bool

def guestString (memory : Ram) (address : BitVec 32) : Option Argument :=
  if address.toNat ≥ memory.size ∨ 0 ∉ memory.bytes.drop address.toNat then none else some (.pointer address)

def guestBuffer (memory : Ram) (address : BitVec 32) (capacity : Nat) : Option Argument :=
  if address.toNat ≤ memory.size ∧ capacity ≤ memory.size - address.toNat then some (.pointer address) else none

/-- A register as an integer. -/
def Context.value (c : Context) (register : Fin 32) : Option Argument := some (.value (c.regs register))

def Context.string (c : Context) (register : Fin 32) : Option Argument := guestString c.memory (c.regs register)

/-- A structure of the size. -/
def Context.struct (c : Context) (register : Fin 32) (size : Nat) : Option Argument := guestBuffer c.memory (c.regs register) size

/-- A buffer whose size is in another register. -/
def Context.buffer (c : Context) (register capacity : Fin 32) : Option Argument :=
  guestBuffer c.memory (c.regs register) (c.regs capacity).toNat

/-- The endpoint of the gates that fault when it is not zero and not in the memory. -/
def Context.endpoint (c : Context) (register : Fin 32) (size : Nat) : Option Argument :=
  if c.regs register ≠ 0 then guestBuffer c.memory (c.regs register) size else some .absent

/-- The endpoint of `SOCKET_RECEIVE_FROM`, whose null pointer is no fault. -/
def Context.peer (c : Context) (register : Fin 32) (size : Nat) : Option Argument :=
  if c.regs register ≠ 0 then
    match guestBuffer c.memory (c.regs register) size with
    | some argument => some argument
    | none => some .absent
  else some .absent

/-! ## Sizes of the structures -/

def sizeofStat : Nat := 36
def sizeofTtySize : Nat := 8
def sizeofInputState : Nat := 268
def sizeofInputEvent : Nat := 36
def sizeofWallTime : Nat := 8
def sizeofNetworkStatus : Nat := 200
def sizeofNetworkAddress : Nat := 52
def sizeofNetworkEchoResult : Nat := 12
def sizeofSocketEndpoint : Nat := 56
def sizeofWaitItem : Nat := 12
def sizeofBatteryStatus : Nat := 40
def sizeofAudioInfo : Nat := 20
def sizeofAudioConfig : Nat := 16
def sizeofAudioStatus : Nat := 16
def sizeofPointerEvent : Nat := 32
def sizeofCameraInfo : Nat := 20
def sizeofCameraConfig : Nat := 20
def sizeofCameraFrame : Nat := 40
def sizeofDeviceInfo : Nat := 80
def sizeofDeviceEvent : Nat := 88
def sizeofSystemInfo : Nat := 112
def sizeofBlitOptions : Nat := 56
def sizeofColor : Nat := 2
def sizeofUint32 : Nat := 4

/-- `TABOS_WAIT_MAX`. -/
def waitMax : Nat := 16

/-! ## Arguments with a length of their own -/

/-- The pixels of a bitmap: the product of the sides is computed in 32 bits once it is known to fit. -/
def guestPixels (memory : Ram) (address width height : BitVec 32) : Option Argument :=
  if width ≠ 0 ∧ height.toNat > uint32Max / width.toNat then none
  else
    let pixelCount := width * height
    if pixelCount.toNat > uint32Max / sizeofColor then none
    else guestBuffer memory address (pixelCount * BitVec.ofNat 32 sizeofColor).toNat

/-- The options of `GRAPHICS_BLIT_EX`. -/
def guestOptions (memory : Ram) (address : BitVec 32) : Option Argument :=
  match guestBuffer memory address sizeofBlitOptions with
  | none => none
  | some _ =>
    let guest := address.toNat
    let bitmapWidth := readU32 memory (guest + 4)
    let bitmapHeight := readU32 memory (guest + 8)
    match guestPixels memory (readU32 memory guest) bitmapWidth bitmapHeight with
    | none => none
    | some _ =>
      some (.options
        { pixels := readU32 memory guest
          bitmapWidth := bitmapWidth
          bitmapHeight := bitmapHeight
          source := [readU32 memory (guest + 12), readU32 memory (guest + 16), readU32 memory (guest + 20), readU32 memory (guest + 24)]
          destination :=
            [readU32 memory (guest + 28), readU32 memory (guest + 32), readU32 memory (guest + 36), readU32 memory (guest + 40)]
          rotation := readU32 memory (guest + 44)
          mirrorX := decide (memory.byte (guest + 48) ≠ 0)
          mirrorY := decide (memory.byte (guest + 49) ≠ 0)
          opacity := memory.byte (guest + 50)
          colorKeyEnabled := decide (memory.byte (guest + 51) ≠ 0)
          colorKeyLow := readU16 memory (guest + 52)
          colorKeyHigh := readU16 memory (guest + 54) })

/-- The strings that the words of an array point to, unless one is not accepted. -/
def guestStrings (memory : Ram) (address : BitVec 32) : Nat → Nat → Option (List (BitVec 32))
  | _, 0 => some []
  | index, count + 1 =>
    let word := readU32 memory (address + BitVec.ofNat 32 index * 4).toNat
    match guestString memory word with
    | none => none
    | some _ =>
      match guestStrings memory address (index + 1) count with
      | none => none
      | some words => some (word :: words)

/-- The arguments of `EXEC`; the subtraction is one of `uint32_t`. -/
def guestArguments (memory : Ram) (address argc : BitVec 32) : Option Argument :=
  if argc.toNat > elfArgMax ∨ address > BitVec.ofNat 32 memory.size - (argc + 1) * 4 then none
  else
    match guestStrings memory address 0 argc.toNat with
    | none => none
    | some words => some (.pointers words)

/-- The items of `WAIT`. -/
def guestItems (memory : Ram) (address itemCount : BitVec 32) : Option Argument :=
  if itemCount = 0 ∨ itemCount.toNat > waitMax then none
  else guestBuffer memory address (itemCount * BitVec.ofNat 32 sizeofWaitItem).toNat

/-! ## The gates -/

/-- The arguments that a gate makes for its service, a null pointer that is a fault being none; no list for a gate without a service. -/
def gateArguments (c : Context) : Gate → Option (List (Option Argument))
  | .consoleWrite => some [c.string 10]
  | .requestExit => some [c.value 10]
  | .hostReturn => none
  | .consoleRead => some [c.buffer 10 11, c.value 11]
  | .consoleClear => some []
  | .fsGetcwd => some [c.buffer 10 11, c.value 11]
  | .fsChdir => some [c.string 10]
  | .fsList => some [c.string 10, c.buffer 11 12, c.value 12]
  | .exec => some [c.string 10, c.value 11, guestArguments c.memory (c.regs 12) (c.regs 11)]
  | .yield => some []
  | .consoleWriteRaw => some [c.string 10]
  | .fdOpen => some [c.string 10, c.value 11, c.value 12]
  | .fdClose => some [c.value 10]
  | .fdRead => some [c.value 10, c.buffer 11 12, c.value 12]
  | .fdWrite => some [c.value 10, c.buffer 11 12, c.value 12]
  | .fdSeek => some [c.value 10, c.value 11, c.value 12, c.struct 13 sizeofUint32]
  | .fsStat => some [c.string 10, c.struct 11 sizeofStat]
  | .fdStat => some [c.value 10, c.struct 11 sizeofStat]
  | .fsMkdir => some [c.string 10, c.value 11]
  | .fsUnlink => some [c.string 10]
  | .fsRename => some [c.string 10, c.string 11]
  | .fdGetFlags => some [c.value 10]
  | .fdSetFlags => some [c.value 10, c.value 11]
  | .heapSbrk => none
  | .fsRmdir => some [c.string 10]
  | .monotonicMs => some []
  | .systemInfo => some [c.struct 10 sizeofSystemInfo]
  | .graphicsOpen => some [c.struct 10 sizeofUint32, c.struct 11 sizeofUint32]
  | .graphicsClear => some [c.value 10]
  | .graphicsFillRect => some [c.value 10, c.value 11, c.value 12, c.value 13, c.value 14]
  | .graphicsBlit =>
    some [c.value 10, c.value 11, c.value 12, c.value 13, guestPixels c.memory (c.regs 14) (c.regs 12) (c.regs 13)]
  | .graphicsPresent => some []
  | .graphicsClose => some []
  | .graphicsCapabilities => some []
  | .graphicsBlitEx => some [guestOptions c.memory (c.regs 10)]
  | .ttyGetMode => some [c.value 10]
  | .ttySetMode => some [c.value 10, c.value 11]
  | .inputPoll => some [c.struct 10 sizeofInputEvent]
  | .wallTimeGet => some [c.struct 10 sizeofWallTime]
  | .wallTimeSet => some [c.struct 10 sizeofWallTime]
  | .systemAction => some [c.value 10]
  | .networkStatus => some [c.struct 10 sizeofNetworkStatus]
  | .networkConnectSaved => some []
  | .networkDisconnect => some []
  | .networkResolve => some [c.string 10, c.value 11, c.struct 12 sizeofNetworkAddress]
  | .networkEcho =>
    some [c.struct 10 sizeofNetworkAddress, c.value 11, c.value 12, c.value 13, c.struct 14 sizeofNetworkEchoResult]
  | .socketOpen => some [c.value 10, c.value 11]
  | .socketClose => some [c.value 10]
  | .socketBind => some [c.value 10, c.endpoint 11 sizeofSocketEndpoint]
  | .socketListen => some [c.value 10, c.value 11]
  | .socketAccept => some [c.value 10, c.endpoint 11 sizeofSocketEndpoint]
  | .socketConnect => some [c.value 10, c.endpoint 11 sizeofSocketEndpoint]
  | .socketNonblocking => some [c.value 10, c.value 11]
  | .socketShutdown => some [c.value 10, c.value 11]
  | .socketSend => some [c.value 10, c.buffer 11 12, c.value 12]
  | .socketReceive => some [c.value 10, c.buffer 11 12, c.value 12]
  | .socketSendTo =>
    some [c.value 10, c.buffer 11 12, c.value 12, if c.regs 13 ≠ 0 then c.struct 13 sizeofSocketEndpoint else none]
  | .socketReceiveFrom => some [c.value 10, c.buffer 11 12, c.value 12, c.peer 13 sizeofSocketEndpoint]
  | .socketLocalEndpoint => some [c.value 10, c.endpoint 11 sizeofSocketEndpoint]
  | .graphicsSetOverlays => some [c.value 10]
  | .tlsConnect => some [c.string 10, c.value 11]
  | .tlsClose => some [c.value 10]
  | .tlsSend => some [c.value 10, c.buffer 11 12, c.value 12]
  | .tlsReceive => some [c.value 10, c.buffer 11 12, c.value 12]
  | .deviceCount => some []
  | .deviceAt => some [c.value 10, c.struct 11 sizeofDeviceInfo]
  | .deviceGet => some [c.value 10, c.struct 11 sizeofDeviceInfo]
  | .deviceFind => some [c.string 10, c.struct 11 sizeofDeviceInfo]
  | .deviceSubscribe => some []
  | .deviceClose => some [c.value 10]
  | .deviceEventRead => some [c.value 10, c.struct 11 sizeofDeviceEvent]
  | .socketWaitSource => some [c.value 10]
  | .deviceSubscriptionWaitSource => some [c.value 10]
  | .wait => some [guestItems c.memory (c.regs 10) (c.regs 11), c.value 11, some (.value 0)]
  | .batteryStatus => some [c.struct 10 sizeofBatteryStatus]
  | .batterySetCharging => some [c.value 10]
  | .batterySetFastCharging => some [c.value 10]
  | .audioInfo => some [c.struct 10 sizeofAudioInfo]
  | .audioOpen => some [c.struct 10 sizeofAudioConfig]
  | .audioClose => some [c.value 10]
  | .audioWrite => some [c.value 10, c.buffer 11 12, c.value 12]
  | .audioRead => some [c.value 10, c.buffer 11 12, c.value 12]
  | .audioSetVolume => some [c.value 10, c.value 11]
  | .audioSetRoute => some [c.value 10, c.value 11]
  | .audioStatus => some [c.value 10, c.struct 11 sizeofAudioStatus]
  | .audioWaitSource => some [c.value 10]
  | .audioFlush => some [c.value 10]
  | .pointerOpen => some [c.value 10]
  | .pointerClose => some [c.value 10]
  | .pointerRead => some [c.value 10, c.struct 11 sizeofPointerEvent]
  | .pointerWaitSource => some [c.value 10]
  | .cameraInfo => some [c.value 10, c.struct 11 sizeofCameraInfo]
  | .cameraOpen => some [c.struct 10 sizeofCameraConfig]
  | .cameraClose => some [c.value 10]
  | .cameraAcquire => some [c.value 10, c.struct 11 sizeofCameraFrame]
  | .cameraCopy => some [c.value 10, c.value 11, c.value 12, c.buffer 13 14, c.value 14]
  | .cameraRelease => some [c.value 10, c.value 11]
  | .cameraWaitSource => some [c.value 10]
  | .ttyGetSize => some [c.value 10, c.struct 11 sizeofTtySize]
  | .inputWaitSource => some []
  | .inputGetState => some [c.struct 10 sizeofInputState, c.value 11]
  | .graphicsSubmit => some []
  | .graphicsSubmitBorrowed => some []
  | .graphicsWait => some []
  | .computeSubmit => none
  | .computeWait => none
  | .computePoll => none

/-- Every argument, unless one is missing. -/
def allArguments : List (Option Argument) → Option (List Argument)
  | [] => some []
  | none :: _ => none
  | some argument :: arguments =>
    match allArguments arguments with
    | none => none
    | some arguments => some (argument :: arguments)

/-- The services that are called without a look at whether they are there. -/
def Gate.unchecked (gate : Gate) : Bool := decide (gate = .fdRead) || decide (gate = .fdWrite)

/-- What a gate does before the answer of its service. -/
inductive Entry where
  | fault
  | call (arguments : List Argument)
  | own
  deriving DecidableEq, Repr

def enterGate (c : Context) (gate : Gate) : Entry :=
  match gateArguments c gate with
  | none => .own
  | some arguments =>
    match allArguments arguments with
    | none => .fault
    | some arguments => if c.api gate = true ∨ gate.unchecked = true then .call arguments else .fault

/-! ## A step at a gate -/

/-- `platform_riscv32_result_t`; `running` is the next round of the loop. -/
inductive Result where
  | running
  | yielded
  | returned (status : BitVec 32)
  | fault
  deriving DecidableEq, Repr

/-- What a service answers: its result, which has two words for the time, and the memory of the guest. -/
structure Answer where
  low : BitVec 32
  high : BitVec 32
  memory : Ram

def Context.setReg (c : Context) (register : Fin 32) (value : BitVec 32) : Context :=
  { c with regs := fun other => if other = register then value else c.regs other }

/-- The gate is left for the address in the return register. -/
def Context.leave (c : Context) : Context := { c with pc := c.regs 1 }

def uint64Max : Nat := 0xffffffffffffffff

/-- When a wait that starts now is over; `TABOS_WAIT_TIMEOUT_INFINITE` is the largest value. -/
def waitDeadlineOf (now : Nat) (timeout : BitVec 32) : Nat :=
  if timeout.toNat = uint32Max then uint64Max
  else if uint64Max - now ≤ timeout.toNat then uint64Max - 1
  else now + timeout.toNat

/-- The end of `WAIT`: a wait that is not over is tried again at the gate. -/
def finishWait (c : Context) (now : Nat) (ready : BitVec 32) : Result × Context :=
  let c := if c.waiting = true then c else { c with waitDeadline := waitDeadlineOf now (c.regs 12), waiting := true }
  if ready = 0 ∧ now < c.waitDeadline then (.yielded, c) else (.yielded, (({ c with waiting := false }).setReg 10 ready).leave)

/-- What a gate does with the answer of its service. -/
def leaveGate (c : Context) (gate : Gate) (now : Nat) (answer : Answer) : Result × Context :=
  let c := { c with memory := answer.memory }
  match gate with
  | .consoleWrite | .consoleWriteRaw | .requestExit => (.running, c.leave)
  | .yield => (.yielded, c.leave)
  | .monotonicMs => (.running, ((c.setReg 10 answer.low).setReg 11 answer.high).leave)
  | .graphicsPresent | .graphicsSubmit | .graphicsSubmitBorrowed => (.yielded, (c.setReg 10 answer.low).leave)
  | .wait => finishWait c now answer.low
  | _ => (.running, (c.setReg 10 answer.low).leave)

/-- `-TABOS_ENOTSUP`. -/
def notSupported : BitVec 32 := BitVec.ofInt 32 (-95)

/-- `HEAP_SBRK`. -/
def heapSbrk (c : Context) : Context :=
  let increment := c.regs 10
  if increment.toInt < 0 ∨ increment > c.heapEnd - c.heapBreak then (c.setReg 10 0xffffffff).leave
  else (({ c with heapBreak := c.heapBreak + increment }).setReg 10 c.heapBreak).leave

/-- A gate without a service. -/
def ownGate (c : Context) (gate : Gate) : Result × Context :=
  match gate with
  | .hostReturn => (.returned (c.regs 10), c)
  | .heapSbrk => (.running, heapSbrk c)
  | _ => (.running, (c.setReg 10 notSupported).leave)

/-- What a round of the loop of `step_inner` does: its result, the arguments of each call of a service and the context. -/
structure GateStep where
  result : Result
  calls : List (List Argument)
  context : Context

/-- A round at a gate; `serve` is the service of the gate, and `now` the time. -/
def stepGate (c : Context) (gate : Gate) (now : Nat) (serve : List Argument → Answer) : GateStep :=
  match enterGate c gate with
  | .fault => { result := .fault, calls := [], context := c }
  | .own => { result := (ownGate c gate).1, calls := [], context := (ownGate c gate).2 }
  | .call arguments =>
    let left := leaveGate c gate now (serve arguments)
    { result := left.1, calls := [arguments], context := left.2 }

/-- A round of the loop of `step_inner`; `cpu` is the interpreter, which executes instructions where no gate is. -/
def stepInner (c : Context) (now : Nat) (serve : Gate → List Argument → Answer) (cpu : Context → Result × Context) : GateStep :=
  match gateAt c.pc with
  | some gate => stepGate c gate now (serve gate)
  | none => { result := (cpu c).1, calls := [], context := (cpu c).2 }

end Executor
end TabOS
