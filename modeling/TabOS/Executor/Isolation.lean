import TabOS.Executor.Gates

/-!
# Isolation of the guest memory

`signature` is what `tabos_elf_api_t` declares of each service, whose arguments stand in the registers from 10 on. A gate is isolated if
it passes pointers that lie in the memory with all that the service reads or writes through them, and leaves out only what the guest left
out. Every gate is, but for `SOCKET_RECEIVE_FROM` with a peer outside the memory.
-/

namespace TabOS
namespace Executor

/-- A parameter of a service. The extent of a pointer is a string, or a number of bytes, which may be the values of other registers. -/
inductive Parameter where
  | value
  | string
  | struct (size : Nat)
  | optional (size : Nat)
  | buffer (capacity : Fin 32)
  | items (count : Fin 32) (size : Nat)
  | strings (count : Fin 32)
  | pixels (width height : Fin 32)
  | options
  deriving DecidableEq, Repr

/-- The parameters of the services in `tabos_elf_api_t`. -/
def Gate.signature : Gate → List Parameter
  | .consoleWrite | .consoleWriteRaw | .fsChdir | .fsUnlink | .fsRmdir => [.string]
  | .consoleRead | .fsGetcwd => [.buffer 11, .value]
  | .fsList => [.string, .buffer 12, .value]
  | .exec => [.string, .value, .strings 11]
  | .fdOpen => [.string, .value, .value]
  | .fsMkdir | .tlsConnect => [.string, .value]
  | .fsRename => [.string, .string]
  | .fsStat => [.string, .struct sizeofStat]
  | .deviceFind => [.string, .struct sizeofDeviceInfo]
  | .networkResolve => [.string, .value, .struct sizeofNetworkAddress]
  | .fdRead | .fdWrite | .socketSend | .socketReceive | .tlsSend | .tlsReceive | .audioWrite | .audioRead =>
    [.value, .buffer 12, .value]
  | .fdSeek => [.value, .value, .value, .struct sizeofUint32]
  | .fdStat => [.value, .struct sizeofStat]
  | .ttyGetSize => [.value, .struct sizeofTtySize]
  | .deviceAt | .deviceGet => [.value, .struct sizeofDeviceInfo]
  | .deviceEventRead => [.value, .struct sizeofDeviceEvent]
  | .audioStatus => [.value, .struct sizeofAudioStatus]
  | .pointerRead => [.value, .struct sizeofPointerEvent]
  | .cameraInfo => [.value, .struct sizeofCameraInfo]
  | .cameraAcquire => [.value, .struct sizeofCameraFrame]
  | .cameraCopy => [.value, .value, .value, .buffer 14, .value]
  | .systemInfo => [.struct sizeofSystemInfo]
  | .graphicsOpen => [.struct sizeofUint32, .struct sizeofUint32]
  | .inputPoll => [.struct sizeofInputEvent]
  | .inputGetState => [.struct sizeofInputState, .value]
  | .wallTimeGet | .wallTimeSet => [.struct sizeofWallTime]
  | .networkStatus => [.struct sizeofNetworkStatus]
  | .networkEcho => [.struct sizeofNetworkAddress, .value, .value, .value, .struct sizeofNetworkEchoResult]
  | .batteryStatus => [.struct sizeofBatteryStatus]
  | .audioInfo => [.struct sizeofAudioInfo]
  | .audioOpen => [.struct sizeofAudioConfig]
  | .cameraOpen => [.struct sizeofCameraConfig]
  | .socketBind | .socketAccept | .socketConnect | .socketLocalEndpoint => [.value, .optional sizeofSocketEndpoint]
  | .socketSendTo => [.value, .buffer 12, .value, .struct sizeofSocketEndpoint]
  | .socketReceiveFrom => [.value, .buffer 12, .value, .optional sizeofSocketEndpoint]
  | .wait => [.items 11 sizeofWaitItem, .value, .value]
  | .graphicsBlit => [.value, .value, .value, .value, .pixels 12 13]
  | .graphicsBlitEx => [.options]
  | .graphicsFillRect => [.value, .value, .value, .value, .value]
  | .fdSetFlags | .ttySetMode | .socketOpen | .socketListen | .socketNonblocking | .socketShutdown | .audioSetVolume
  | .audioSetRoute | .cameraRelease => [.value, .value]
  | .requestExit | .fdClose | .fdGetFlags | .graphicsClear | .ttyGetMode | .systemAction | .socketClose | .graphicsSetOverlays
  | .tlsClose | .deviceClose | .socketWaitSource | .deviceSubscriptionWaitSource | .batterySetCharging | .batterySetFastCharging
  | .audioClose | .audioWaitSource | .audioFlush | .pointerOpen | .pointerClose | .pointerWaitSource | .cameraClose
  | .cameraWaitSource => [.value]
  | .hostReturn | .consoleClear | .yield | .heapSbrk | .monotonicMs | .graphicsPresent | .graphicsClose | .graphicsCapabilities
  | .networkConnectSaved | .networkDisconnect | .deviceCount | .deviceSubscribe | .inputWaitSource | .graphicsSubmit
  | .graphicsSubmitBorrowed | .graphicsWait | .computeSubmit | .computeWait | .computePoll => []

/-- The argument is the guest's pointer and its extent lies in the memory, or there is no pointer because the guest gave none. -/
def Parameter.Passes (c : Context) (register : Fin 32) : Parameter → Argument → Prop
  | .value, .value _ => True
  | .string, .pointer address => address = c.regs register ∧ c.memory.HoldsString address.toNat
  | .struct size, .pointer address => address = c.regs register ∧ c.memory.Holds address.toNat size
  | .optional size, .pointer address => address = c.regs register ∧ c.memory.Holds address.toNat size
  | .optional _, .absent => c.regs register = 0
  | .buffer capacity, .pointer address => address = c.regs register ∧ c.memory.Holds address.toNat (c.regs capacity).toNat
  | .items count size, .pointer address => address = c.regs register ∧ c.memory.Holds address.toNat ((c.regs count).toNat * size)
  | .strings count, .pointers addresses =>
    c.memory.Holds (c.regs register).toNat (((c.regs count).toNat + 1) * 4) ∧ addresses.length = (c.regs count).toNat ∧
      ∀ index address, addresses[index]? = some address →
        address = readU32 c.memory ((c.regs register).toNat + index * 4) ∧ c.memory.HoldsString address.toNat
  | .pixels width height, .pointer address =>
    address = c.regs register ∧ c.memory.Holds address.toNat ((c.regs width).toNat * (c.regs height).toNat * sizeofColor)
  | .options, .options copied =>
    c.memory.Holds (c.regs register).toNat sizeofBlitOptions ∧ copied.pixels = readU32 c.memory (c.regs register).toNat ∧
      c.memory.Holds copied.pixels.toNat (copied.bitmapWidth.toNat * copied.bitmapHeight.toNat * sizeofColor)
  | _, _ => False

/-- The arguments pass the parameters, the first of which is in the register. -/
def PassesFrom (c : Context) : Fin 32 → List Parameter → List Argument → Prop
  | _, [], [] => True
  | register, parameter :: parameters, argument :: arguments =>
    parameter.Passes c register argument ∧ PassesFrom c (register + 1) parameters arguments
  | _, _, _ => False

/-- The gates that call no service. -/
def ownGates : List Gate := [.hostReturn, .heapSbrk, .computeSubmit, .computeWait, .computePoll]

/-- The step calls no service, which is a fault unless the gate has none, or calls it once with arguments that pass its parameters. -/
def Isolated (c : Context) (gate : Gate) (step : GateStep) : Prop :=
  (step.calls = [] ∧ (step.result = .fault ∨ gate ∈ ownGates)) ∨
    ∃ arguments, step.calls = [arguments] ∧ PassesFrom c 10 gate.signature arguments

/-! ## Pointers -/

variable {c : Context} {memory : Ram} {address : BitVec 32} {capacity : Nat} {register : Fin 32} {argument : Argument}

theorem Ram.size_lt (memory : Ram) : memory.size < 2 ^ 32 := Nat.lt_of_le_of_lt memory.length_le (by decide)

theorem guestString_eq_some (h : guestString memory address = some argument) :
    argument = .pointer address ∧ memory.HoldsString address.toNat := by
  unfold guestString at h
  split at h
  · cases h
  · next hstring =>
    rw [not_or, not_not] at hstring
    exact ⟨(Option.some.inj h).symm, Nat.lt_of_not_le hstring.1, hstring.2⟩

theorem guestBuffer_eq_some (h : guestBuffer memory address capacity = some argument) :
    argument = .pointer address ∧ memory.Holds address.toNat capacity := by
  unfold guestBuffer at h
  split at h
  · next hrange =>
    refine ⟨(Option.some.inj h).symm, ?_⟩
    unfold Ram.Holds
    omega
  · cases h

theorem guestBuffer_eq_none : guestBuffer memory address capacity = none ↔ ¬memory.Holds address.toNat capacity := by
  unfold guestBuffer Ram.Holds
  split
  · next hrange =>
    constructor
    · intro h
      cases h
    · intro h
      omega
  · next hrange =>
    constructor
    · intro _
      omega
    · intro _
      rfl

/-- What a gate makes for a parameter passes it. -/
def Accepted (c : Context) (register : Fin 32) (parameter : Parameter) (option : Option Argument) : Prop :=
  ∀ argument, option = some argument → parameter.Passes c register argument

@[simp] theorem accepted_value (value : BitVec 32) : Accepted c register .value (some (.value value)) := by
  intro argument h
  obtain rfl := Option.some.inj h
  trivial

@[simp] theorem accepted_register (other : Fin 32) : Accepted c register .value (c.value other) := accepted_value _

@[simp] theorem accepted_string : Accepted c register .string (c.string register) := by
  intro argument h
  obtain ⟨rfl, hstring⟩ := guestString_eq_some h
  exact ⟨rfl, hstring⟩

@[simp] theorem accepted_struct (size : Nat) : Accepted c register (.struct size) (c.struct register size) := by
  intro argument h
  obtain ⟨rfl, hholds⟩ := guestBuffer_eq_some h
  exact ⟨rfl, hholds⟩

@[simp] theorem accepted_required (size : Nat) :
    Accepted c register (.struct size) (if c.regs register = 0#32 then none else c.struct register size) := by
  intro argument h
  split at h
  · cases h
  · exact accepted_struct size argument h

@[simp] theorem accepted_buffer (capacity : Fin 32) : Accepted c register (.buffer capacity) (c.buffer register capacity) := by
  intro argument h
  obtain ⟨rfl, hholds⟩ := guestBuffer_eq_some h
  exact ⟨rfl, hholds⟩

@[simp] theorem accepted_endpoint (size : Nat) : Accepted c register (.optional size) (c.endpoint register size) := by
  intro argument h
  unfold Context.endpoint at h
  split at h
  · obtain ⟨rfl, hholds⟩ := guestBuffer_eq_some h
    exact ⟨rfl, hholds⟩
  · next hzero =>
    obtain rfl := Option.some.inj h
    exact not_not.1 hzero

@[simp] theorem accepted_items (count : Fin 32) :
    Accepted c register (.items count sizeofWaitItem) (guestItems c.memory (c.regs register) (c.regs count)) := by
  intro argument h
  unfold guestItems at h
  split at h
  · cases h
  · next hcount =>
    obtain ⟨rfl, hholds⟩ := guestBuffer_eq_some h
    unfold waitMax at hcount
    have hproduct : (c.regs count * BitVec.ofNat 32 sizeofWaitItem).toNat = (c.regs count).toNat * sizeofWaitItem := by
      rw [BitVec.toNat_mul, BitVec.toNat_ofNat, sizeofWaitItem, Nat.mod_eq_of_lt (by omega), Nat.mod_eq_of_lt (by omega)]
    rw [hproduct] at hholds
    exact ⟨rfl, hholds⟩

/-- A product of two sides that passed the check is the product of the numbers. -/
theorem toNat_sides {width height : BitVec 32} (h : ¬(width ≠ 0 ∧ height.toNat > uint32Max / width.toNat)) :
    (width * height).toNat = width.toNat * height.toNat := by
  have hlt : width.toNat * height.toNat < 2 ^ 32 := by
    by_cases hzero : width = 0
    · rw [hzero]
      show 0 * height.toNat < 2 ^ 32
      omega
    · have hpos : 0 < width.toNat := Nat.pos_of_ne_zero fun h0 => hzero (BitVec.eq_of_toNat_eq h0)
      have hle : height.toNat ≤ uint32Max / width.toNat := Nat.le_of_not_lt fun hlt => h ⟨hzero, hlt⟩
      have hmul := (Nat.le_div_iff_mul_le hpos).1 hle
      rw [Nat.mul_comm] at hmul
      unfold uint32Max at hmul
      omega
  rw [BitVec.toNat_mul, Nat.mod_eq_of_lt hlt]

theorem guestPixels_eq_some {width height : BitVec 32} (h : guestPixels memory address width height = some argument) :
    argument = .pointer address ∧ memory.Holds address.toNat (width.toNat * height.toNat * sizeofColor) := by
  unfold guestPixels at h
  split at h
  · cases h
  next hsides =>
  dsimp only at h
  split at h
  · cases h
  next hcount =>
  rw [toNat_sides hsides, uint32Max, sizeofColor] at hcount
  have hbytes : (width * height * BitVec.ofNat 32 sizeofColor).toNat = width.toNat * height.toNat * sizeofColor := by
    rw [BitVec.toNat_mul, toNat_sides hsides, BitVec.toNat_ofNat, sizeofColor]
    exact Nat.mod_eq_of_lt (by omega)
  rw [hbytes] at h
  exact guestBuffer_eq_some h

@[simp] theorem accepted_pixels (width height : Fin 32) :
    Accepted c register (.pixels width height) (guestPixels c.memory (c.regs register) (c.regs width) (c.regs height)) := by
  intro argument h
  obtain ⟨rfl, hholds⟩ := guestPixels_eq_some h
  exact ⟨rfl, hholds⟩

@[simp] theorem accepted_options : Accepted c register .options (guestOptions c.memory (c.regs register)) := by
  intro argument h
  unfold guestOptions at h
  split at h
  · cases h
  next hguest =>
  dsimp only at h
  split at h
  · cases h
  next hpixels =>
  obtain rfl := Option.some.inj h
  exact ⟨(guestBuffer_eq_some hguest).2, rfl, (guestPixels_eq_some hpixels).2⟩

/-- The words of the array are what is passed, and each points to a string. -/
theorem guestStrings_eq_some {count index : Nat} {words : List (BitVec 32)} (h : guestStrings memory address index count = some words)
    (hrange : address.toNat + (index + count) * 4 ≤ memory.size) :
    words.length = count ∧ ∀ offset word, words[offset]? = some word →
      word = readU32 memory (address.toNat + (index + offset) * 4) ∧ memory.HoldsString word.toNat := by
  induction count generalizing index words with
  | zero =>
    obtain rfl := Option.some.inj h
    exact ⟨rfl, fun offset word hword => by cases hword⟩
  | succ count ih =>
    have hsize := memory.size_lt
    have haddress : (address + BitVec.ofNat 32 index * 4).toNat = address.toNat + index * 4 := by
      have hindex : (BitVec.ofNat 32 index * 4).toNat = index * 4 := by
        rw [BitVec.toNat_mul, BitVec.toNat_ofNat]
        show index % 2 ^ 32 * 4 % 2 ^ 32 = index * 4
        omega
      rw [BitVec.toNat_add, hindex]
      exact Nat.mod_eq_of_lt (by omega)
    rw [guestStrings, haddress] at h
    cases hstring : guestString memory (readU32 memory (address.toNat + index * 4)) with
    | none =>
      rw [hstring] at h
      cases h
    | some argument =>
      cases hrest : guestStrings memory address (index + 1) count with
      | none =>
        rw [hstring, hrest] at h
        cases h
      | some rest =>
        rw [hstring, hrest] at h
        obtain rfl := Option.some.inj h
        obtain ⟨hlength, hwords⟩ := ih hrest (by omega)
        refine ⟨by rw [List.length_cons, hlength], fun offset word hword => ?_⟩
        cases offset with
        | zero =>
          obtain rfl := Option.some.inj hword
          exact ⟨rfl, (guestString_eq_some hstring).2⟩
        | succ offset =>
          obtain ⟨hword, hholds⟩ := hwords offset word hword
          refine ⟨?_, hholds⟩
          rw [hword, Nat.add_assoc index 1 offset, Nat.add_comm 1 offset]

@[simp] theorem accepted_strings (count : Fin 32) :
    Accepted c register (.strings count) (guestArguments c.memory (c.regs register) (c.regs count)) := by
  intro argument h
  unfold guestArguments at h
  split at h
  · cases h
  next hrange =>
  rw [not_or] at hrange
  obtain ⟨hcount, hend⟩ := hrange
  have hguard : guardBytes ≤ c.memory.size := c.memory.guard_le
  have hsize := c.memory.size_lt
  unfold guardBytes at hguard
  unfold elfArgMax at hcount
  have hargv : ((c.regs count + 1) * 4).toNat = ((c.regs count).toNat + 1) * 4 := by
    rw [BitVec.toNat_mul, BitVec.toNat_add]
    show ((c.regs count).toNat + 1) % 2 ^ 32 * 4 % 2 ^ 32 = _
    omega
  have hsub : (BitVec.ofNat 32 c.memory.size - (c.regs count + 1) * 4).toNat = c.memory.size - ((c.regs count).toNat + 1) * 4 := by
    rw [BitVec.toNat_sub, hargv, BitVec.toNat_ofNat]
    omega
  have hle : (c.regs register).toNat ≤ c.memory.size - ((c.regs count).toNat + 1) * 4 := by
    rw [← hsub]
    exact Nat.le_of_not_lt hend
  cases hwords : guestStrings c.memory (c.regs register) 0 (c.regs count).toNat with
  | none =>
    rw [hwords] at h
    cases h
  | some words =>
    rw [hwords] at h
    obtain rfl := Option.some.inj h
    obtain ⟨hlength, hall⟩ := guestStrings_eq_some hwords (by omega)
    refine ⟨?_, hlength, fun index word hword => ?_⟩
    · unfold Ram.Holds
      omega
    · obtain ⟨hword, hholds⟩ := hall index word hword
      rw [Nat.zero_add] at hword
      exact ⟨hword, hholds⟩

/-! ## Gates -/

variable {gate : Gate} {now : Nat} {serve : List Argument → Answer} {arguments : List Argument}

/-- The arguments that a gate makes pass the parameters. -/
def AcceptedFrom (c : Context) : Fin 32 → List Parameter → List (Option Argument) → Prop
  | _, [], [] => True
  | register, parameter :: parameters, option :: options =>
    Accepted c register parameter option ∧ AcceptedFrom c (register + 1) parameters options
  | _, _, _ => False

theorem AcceptedFrom.passes {parameters : List Parameter} {options : List (Option Argument)}
    (h : AcceptedFrom c register parameters options) (hall : allArguments options = some arguments) :
    PassesFrom c register parameters arguments := by
  induction parameters generalizing register options arguments with
  | nil =>
    cases options with
    | nil =>
      obtain rfl := Option.some.inj hall
      trivial
    | cons option options => exact h.elim
  | cons parameter parameters ih =>
    cases options with
    | nil => exact h.elim
    | cons option options =>
      cases option with
      | none => cases hall
      | some argument =>
        rw [allArguments] at hall
        cases hrest : allArguments options with
        | none =>
          rw [hrest] at hall
          cases hall
        | some rest =>
          rw [hrest] at hall
          obtain rfl := Option.some.inj hall
          exact ⟨h.1 argument rfl, ih h.2 hrest⟩

/-- Every gate but one makes arguments that pass the parameters of its service. -/
theorem gateArguments_accepted (hgate : gate ≠ .socketReceiveFrom) {options : List (Option Argument)}
    (h : gateArguments c gate = some options) : AcceptedFrom c 10 gate.signature options := by
  cases gate <;> simp only [gateArguments, reduceCtorEq, Option.some.injEq] at h <;> subst h <;>
    simp [AcceptedFrom, Gate.signature]
  exact absurd rfl hgate

theorem mem_ownGates (h : gateArguments c gate = none) : gate ∈ ownGates := by
  cases gate <;> simp only [gateArguments, reduceCtorEq] at h <;> decide

/-- A step calls the service at most once, with the arguments that the gate has made. -/
theorem stepGate_calls (c : Context) (gate : Gate) (now : Nat) (serve : List Argument → Answer) :
    ((stepGate c gate now serve).calls = [] ∧ ((stepGate c gate now serve).result = .fault ∨ gate ∈ ownGates)) ∨
      ∃ options arguments, (stepGate c gate now serve).calls = [arguments] ∧
      gateArguments c gate = some options ∧ allArguments options = some arguments ∧ (c.api gate = true ∨ gate.unchecked = true) := by
  unfold stepGate enterGate
  cases hoptions : gateArguments c gate with
  | none => exact Or.inl ⟨rfl, Or.inr (mem_ownGates hoptions)⟩
  | some options =>
    dsimp only
    cases hall : allArguments options with
    | none => exact Or.inl ⟨rfl, Or.inl rfl⟩
    | some arguments =>
      dsimp only
      by_cases hthere : c.api gate = true ∨ gate.unchecked = true
      · rw [if_pos hthere]
        exact Or.inr ⟨options, arguments, rfl, rfl, hall, hthere⟩
      · rw [if_neg hthere]
        exact Or.inl ⟨rfl, Or.inl rfl⟩

/-- The guest receives at `SOCKET_RECEIVE_FROM`, with data in the memory and a peer that is neither zero nor in it. -/
def LosesPeer (c : Context) : Prop :=
  c.pc = Gate.socketReceiveFrom.address ∧ c.api .socketReceiveFrom = true ∧ c.memory.Holds (c.regs 11).toNat (c.regs 12).toNat ∧
    c.regs 13 ≠ 0 ∧ ¬c.memory.Holds (c.regs 13).toNat sizeofSocketEndpoint

/-- A peer that is zero or in the memory is passed as at the other gates. -/
theorem peer_eq_endpoint (h : c.regs 13 = 0 ∨ c.memory.Holds (c.regs 13).toNat sizeofSocketEndpoint) :
    c.peer 13 sizeofSocketEndpoint = c.endpoint 13 sizeofSocketEndpoint := by
  unfold Context.peer Context.endpoint
  rcases h with hzero | hholds
  · rw [if_neg (not_not.2 hzero), if_neg (not_not.2 hzero)]
  · cases hbuffer : guestBuffer c.memory (c.regs 13) sizeofSocketEndpoint with
    | none => exact absurd hholds (guestBuffer_eq_none.1 hbuffer)
    | some argument => rfl

theorem peer_of_outside (hpeer : c.regs 13 ≠ 0) (houtside : ¬c.memory.Holds (c.regs 13).toNat sizeofSocketEndpoint) :
    c.peer 13 sizeofSocketEndpoint = some .absent := by
  rw [Context.peer, if_pos hpeer, guestBuffer_eq_none.2 houtside]

/-- A peer outside the memory is passed as if the guest had given none. -/
theorem calls_of_losesPeer (h : LosesPeer c) (now : Nat) (serve : List Argument → Answer) :
    (stepGate c .socketReceiveFrom now serve).calls =
      [[.value (c.regs 10), .pointer (c.regs 11), .value (c.regs 12), .absent]] := by
  obtain ⟨-, hthere, hdata, hpeer, houtside⟩ := h
  have hbuffer : c.buffer 11 12 = some (.pointer (c.regs 11)) := by
    cases hbuffer : guestBuffer c.memory (c.regs 11) (c.regs 12).toNat with
    | none => exact absurd hdata (guestBuffer_eq_none.1 hbuffer)
    | some argument =>
      rw [(guestBuffer_eq_some hbuffer).1] at hbuffer
      exact hbuffer
  have hall : allArguments [c.value 10, c.buffer 11 12, c.value 12, c.peer 13 sizeofSocketEndpoint] =
      some [.value (c.regs 10), .pointer (c.regs 11), .value (c.regs 12), .absent] := by
    rw [hbuffer, peer_of_outside hpeer houtside]
    rfl
  unfold stepGate enterGate gateArguments
  dsimp only
  rw [hall]
  dsimp only
  rw [if_pos (Or.inl hthere)]

/-- The arguments of `SOCKET_RECEIVE_FROM` pass the parameters if the peer does. -/
theorem receiveFrom_accepted (h : c.regs 13 = 0 ∨ c.memory.Holds (c.regs 13).toNat sizeofSocketEndpoint) :
    AcceptedFrom c 10 Gate.socketReceiveFrom.signature
      [c.value 10, c.buffer 11 12, c.value 12, c.peer 13 sizeofSocketEndpoint] := by
  rw [peer_eq_endpoint h]
  simp [AcceptedFrom, Gate.signature]

/-- Without the data in the memory, `SOCKET_RECEIVE_FROM` makes no arguments. -/
theorem holds_of_allArguments {options : List (Option Argument)}
    (h : allArguments (c.value 10 :: c.buffer 11 12 :: options) = some arguments) :
    c.memory.Holds (c.regs 11).toNat (c.regs 12).toNat := by
  by_contra houtside
  have hbuffer : c.buffer 11 12 = none := guestBuffer_eq_none.2 houtside
  rw [hbuffer] at h
  cases h

theorem not_isolated_of_losesPeer (h : LosesPeer c) (now : Nat) (serve : List Argument → Answer) :
    ¬Isolated c .socketReceiveFrom (stepGate c .socketReceiveFrom now serve) := by
  have hcalls := calls_of_losesPeer h now serve
  rintro (⟨hnone, -⟩ | ⟨arguments, hone, hpasses⟩)
  · rw [hcalls] at hnone
    cases hnone
  · rw [hcalls] at hone
    obtain rfl := List.head_eq_of_cons_eq hone
    exact h.2.2.2.1 hpasses.2.2.2.1

/-- A round at a gate that does not lose a peer is isolated. -/
theorem stepGate_isolated (hpc : c.pc = gate.address) (h : ¬LosesPeer c) (now : Nat) (serve : List Argument → Answer) :
    Isolated c gate (stepGate c gate now serve) := by
  rcases stepGate_calls c gate now serve with hnone | ⟨options, arguments, hone, hoptions, hall, hthere⟩
  · exact Or.inl hnone
  refine Or.inr ⟨arguments, hone, ?_⟩
  by_cases hgate : gate = .socketReceiveFrom
  · subst hgate
    obtain rfl := Option.some.inj hoptions
    have hdata := holds_of_allArguments hall
    have hpeer : c.regs 13 = 0 ∨ c.memory.Holds (c.regs 13).toNat sizeofSocketEndpoint := by
      by_contra houtside
      rw [not_or] at houtside
      exact h ⟨hpc, hthere.resolve_right (by decide), hdata, houtside.1, houtside.2⟩
    exact (receiveFrom_accepted hpeer).passes hall
  · exact (gateArguments_accepted hgate hoptions).passes hall

/-- A round of the executor is isolated at its gate exactly if it does not lose a peer. -/
theorem gates_isolated (c : Context) (now : Nat) (serve : Gate → List Argument → Answer) (cpu : Context → Result × Context) :
    (∀ gate, c.pc = gate.address → Isolated c gate (stepInner c now serve cpu)) ↔ ¬LosesPeer c := by
  have hround : ∀ gate, c.pc = gate.address → stepInner c now serve cpu = stepGate c gate now (serve gate) := by
    intro gate hpc
    rw [stepInner, gateAt_eq_some.2 hpc]
  constructor
  · intro hisolated hloses
    have hat := hisolated .socketReceiveFrom hloses.1
    rw [hround .socketReceiveFrom hloses.1] at hat
    exact not_isolated_of_losesPeer hloses now (serve .socketReceiveFrom) hat
  · intro hkeeps gate hpc
    rw [hround gate hpc]
    exact stepGate_isolated hpc hkeeps now (serve gate)

/-- A memory of zeros. -/
def zeroRam : Ram where
  bytes := List.replicate guardBytes 0
  guard_le := Nat.le_of_eq List.length_replicate.symm
  length_le := Nat.le_trans (Nat.le_of_eq List.length_replicate) (by decide)

/-- A guest that receives into the first four bytes of its memory, with a peer behind the end. -/
def receiver : Context where
  memory := zeroRam
  regs register := if register = 12 then 4 else if register = 13 then 0xf0000000 else 0
  pc := Gate.socketReceiveFrom.address
  api _ := true
  heapBreak := 0
  heapEnd := 0
  waitDeadline := 0
  waiting := false

theorem receiver_losesPeer : LosesPeer receiver := by
  have hsize : receiver.memory.size = 4096 := List.length_replicate
  refine ⟨rfl, rfl, ?_, by decide, ?_⟩
  · unfold Ram.Holds
    rw [hsize]
    decide
  · unfold Ram.Holds
    rw [hsize]
    decide

/-- The peer of the receiver is passed as if there were none. -/
theorem receive_from_not_isolated :
    ¬∀ (c : Context) (now : Nat) (serve : Gate → List Argument → Answer) (cpu : Context → Result × Context) (gate : Gate),
      c.pc = gate.address → Isolated c gate (stepInner c now serve cpu) := by
  intro h
  have hat := h receiver 0 (fun _ _ => ⟨0, 0, zeroRam⟩) (fun c => (.running, c)) .socketReceiveFrom rfl
  rw [stepInner, gateAt_eq_some.2 (rfl : receiver.pc = Gate.socketReceiveFrom.address)] at hat
  exact not_isolated_of_losesPeer receiver_losesPeer 0 _ hat

end Executor
end TabOS
