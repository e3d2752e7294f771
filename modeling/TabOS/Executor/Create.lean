import Mathlib.Data.List.ReduceOption
import TabOS.Executor.Layout
import TabOS.Library.Blocks

/-!
# The guest that the host executor creates

What `platform_riscv32_create` puts into the memory of a layout: the image, the gates of the services, the argument strings and the
pointers to them. The parts of the layout do not overlap, and every pointer leads to a copy of its argument.
-/

namespace TabOS
namespace Executor

open Library

/-- The offsets of `HOST_RV32_API_GATES`, in its order; a gate that is no service has none. -/
def apiOffsets : List (Option Nat) :=
  [some 4, some 8, none, some 12, some 16, some 20, some 24, some 28, some 32, some 36, some 40, some 44, some 48, some 52, some 56,
    some 60, some 64, some 68, some 72, some 76, some 80, some 84, some 88, some 92, some 96, some 100, some 104, some 108, some 112,
    some 116, some 120, some 124, some 128, some 132, some 136, some 140, some 144, some 148, some 152, some 156, some 160, some 164,
    some 168, some 172, some 176, some 180, some 184, some 188, some 192, some 196, some 200, some 204, some 208, some 212, some 216,
    some 220, some 224, some 228, some 232, some 248, some 252, some 256, some 260, some 264, some 268, some 272, some 276, some 280,
    some 284, some 288, some 292, some 296, some 300, some 304, some 236, some 240, some 244, some 308, some 312, some 316, some 320,
    some 324, some 328, some 332, some 336, some 340, some 344, some 348, some 352, some 356, some 360, some 364, some 368, some 372,
    some 376, some 380, some 384, some 388, some 392, some 396, some 400, some 404, some 408, some 412, some 416, some 420, some 424]

/-- `HOST_RV32_API_GATE_BASE`. -/
def gateBase : Nat := 0xffff0000

set_option maxRecDepth 4000 in
/-- The size of the table is that of the last offset with its word. -/
theorem apiSize_eq : apiSize = apiOffsets.reduceOption.foldl max 0 + 4 := by rfl

/-- The memory of a guest. -/
abbrev GuestMemory := Nat → UInt8

/-- `write_u32`. -/
def writeU32 (memory : GuestMemory) (address value : Nat) : GuestMemory :=
  copyIn memory address [.ofNat value, .ofNat (value / 2 ^ 8), .ofNat (value / 2 ^ 16), .ofNat (value / 2 ^ 24)]

/-- A word of the memory. -/
def wordAt (memory : GuestMemory) (address : Nat) : Nat :=
  (memory address).toNat + (memory (address + 1)).toNat * 2 ^ 8 + (memory (address + 2)).toNat * 2 ^ 16 +
    (memory (address + 3)).toNat * 2 ^ 24

/-- The loop that writes the gates from some index on. -/
def writeGates (apiAddress : Nat) : Nat → List (Option Nat) → GuestMemory → GuestMemory
  | _, [], memory => memory
  | index, none :: offsets, memory => writeGates apiAddress (index + 1) offsets memory
  | index, some offset :: offsets, memory =>
    writeGates apiAddress (index + 1) offsets (writeU32 memory (apiAddress + offset) (gateBase + index * 4))

/-- The loop that copies the arguments from some index on, the next to an address. -/
def writeArguments (argvAddress : Nat) : Nat → Nat → List (List UInt8) → GuestMemory → GuestMemory
  | _, _, [], memory => memory
  | index, next, argument :: arguments, memory =>
    writeArguments argvAddress (index + 1) (next + (argument.length + 1)) arguments
      (writeU32 (copyIn memory next (argument ++ [0])) (argvAddress + index * 4) next)

/-- `platform_riscv32_context`, with the registers that are set. -/
structure GuestContext where
  memory : GuestMemory
  memorySize : Nat
  heapBase : Nat
  heapBreak : Nat
  heapEnd : Nat
  pc : Nat
  stackPointer : Nat
  apiRegister : Nat
  argcRegister : Nat
  argvRegister : Nat

/-- `platform_riscv32_create`, with the layout that it computes; the memory for the guest is there. -/
def createGuest (entryOffset : Nat) (image : List UInt8) (minimumAddress heapBytes stackBytes abiVersion : Nat)
    (arguments : List (Option (List UInt8))) : Option (GuestLayout × GuestContext) :=
  match guestLayout entryOffset image.length minimumAddress heapBytes stackBytes arguments with
  | none => none
  | some layout =>
    let memory := copyIn (fun _ => 0) minimumAddress image
    let memory := writeU32 memory layout.apiAddress abiVersion
    let memory := writeGates layout.apiAddress 0 apiOffsets memory
    let memory := writeArguments layout.argvAddress 0 layout.argumentDataAddress arguments.reduceOption memory
    let memory := writeU32 memory (layout.argvAddress + arguments.length * 4) 0
    some (layout,
      { memory := memory, memorySize := layout.ramSize, heapBase := layout.heapBase, heapBreak := layout.heapBase,
        heapEnd := layout.heapEnd, pc := minimumAddress + entryOffset, stackPointer := layout.ramSize - 16,
        apiRegister := layout.apiAddress,
        argcRegister := arguments.length, argvRegister := layout.argvAddress })

/-! ## Words and strings in memory -/

theorem writeU32_outside (memory : GuestMemory) {address place : Nat} (value : Nat) (h : place < address ∨ address + 4 ≤ place) :
    writeU32 memory address value place = memory place := copyIn_outside memory h

theorem wordAt_writeU32 (memory : GuestMemory) (address : Nat) {value : Nat} (h : value < 2 ^ 32) :
    wordAt (writeU32 memory address value) address = value := by
  have hbyte (index : Nat) (hindex : index < 4) := @copyIn_inside UInt8 memory address
    [.ofNat value, .ofNat (value / 2 ^ 8), .ofNat (value / 2 ^ 16), .ofNat (value / 2 ^ 24)] index hindex
  have h₀ := hbyte 0 (by decide)
  have h₁ := hbyte 1 (by decide)
  have h₂ := hbyte 2 (by decide)
  have h₃ := hbyte 3 (by decide)
  unfold wordAt writeU32
  rw [Nat.add_zero] at h₀
  rw [h₀, h₁, h₂, h₃]
  simp only [List.getElem_cons_zero, List.getElem_cons_succ, UInt8.toNat_ofNat']
  omega

theorem wordAt_congr {memory memory' : GuestMemory} {address : Nat}
    (h : ∀ index < 4, memory (address + index) = memory' (address + index)) : wordAt memory address = wordAt memory' address := by
  have h₀ := h 0 (by decide)
  rw [Nat.add_zero] at h₀
  unfold wordAt
  rw [h₀, h 1 (by decide), h 2 (by decide), h 3 (by decide)]

/-- The bytes that strings take with their terminators. -/
def stringsLength (arguments : List (List UInt8)) : Nat := (arguments.map fun argument => argument.length + 1).sum

@[simp] theorem stringsLength_nil : stringsLength [] = 0 := rfl

@[simp] theorem stringsLength_cons (argument : List UInt8) (arguments : List (List UInt8)) :
    stringsLength (argument :: arguments) = argument.length + 1 + stringsLength arguments := by
  rw [stringsLength, List.map_cons, List.sum_cons, stringsLength]

/-- The loop over the arguments writes strings and pointers only. -/
theorem writeArguments_outside {argvAddress : Nat} {arguments : List (List UInt8)} {index next place : Nat} (memory : GuestMemory)
    (hstrings : place < next ∨ next + stringsLength arguments ≤ place)
    (hpointers : place < argvAddress + index * 4 ∨ argvAddress + (index + arguments.length) * 4 ≤ place) :
    writeArguments argvAddress index next arguments memory place = memory place := by
  induction arguments generalizing index next memory with
  | nil => rfl
  | cons argument arguments ih =>
    rw [stringsLength_cons] at hstrings
    rw [List.length_cons] at hpointers
    have hlength : (argument ++ [0]).length = argument.length + 1 := by rw [List.length_append, List.length_singleton]
    have hcopy := @copyIn_outside UInt8 memory next place (argument ++ [0]) (by omega)
    rw [writeArguments, ih _ (by omega) (by omega), writeU32_outside _ next (by omega), hcopy]

/-- The pointer to an argument leads to its copy. -/
theorem writeArguments_argument {argvAddress : Nat} {arguments : List (List UInt8)} {index next : Nat} (memory : GuestMemory)
    (hfits : next + stringsLength arguments ≤ argvAddress) (hlt : argvAddress < 2 ^ 32) {place : Nat}
    (hplace : place < arguments.length) :
    wordAt (writeArguments argvAddress index next arguments memory) (argvAddress + (index + place) * 4) =
        next + stringsLength (arguments.take place) ∧
      copyOut (writeArguments argvAddress index next arguments memory) (next + stringsLength (arguments.take place))
        (arguments[place].length + 1) = arguments[place] ++ [0] := by
  induction arguments generalizing index next memory place with
  | nil => exact absurd hplace (Nat.not_lt_zero place)
  | cons argument arguments ih =>
    rw [stringsLength_cons] at hfits
    rw [writeArguments]
    cases place with
    | zero =>
      have hlength : (argument ++ [0]).length = argument.length + 1 := by rw [List.length_append, List.length_singleton]
      simp only [List.take_zero, stringsLength_nil, Nat.add_zero, List.getElem_cons_zero]
      constructor
      · refine (wordAt_congr fun byte hbyte => ?_).trans (wordAt_writeU32 (copyIn memory next (argument ++ [0])) _ (by omega))
        exact writeArguments_outside _ (by omega) (by omega)
      · refine (copyOut_congr fun byte hbyte => ?_).trans (hlength ▸ copyOut_copyIn memory next (argument ++ [0]))
        rw [writeArguments_outside _ (by omega) (by omega), writeU32_outside _ next (by omega)]
    | succ place =>
      have hrest := @ih (index + 1) (next + (argument.length + 1))
        (writeU32 (copyIn memory next (argument ++ [0])) (argvAddress + index * 4) next) (by omega) place (Nat.lt_of_succ_lt_succ hplace)
      rw [List.take_succ_cons, stringsLength_cons, List.getElem_cons_succ, ← Nat.add_assoc next (argument.length + 1),
        show index + (place + 1) = index + 1 + place from by omega]
      exact hrest

/-! ## The layout -/

theorem le_alignUp (address : Nat) {alignment : Nat} (h : 0 < alignment) : address ≤ alignUp address alignment := by
  have hmod := Nat.mod_lt (address + (alignment - 1)) h
  have hdiv := Nat.div_add_mod (address + (alignment - 1)) alignment
  rw [Nat.mul_comm] at hdiv
  unfold alignUp
  omega

theorem alignUp_lt (address : Nat) {alignment : Nat} (h : 0 < alignment) : alignUp address alignment < address + alignment := by
  have hdiv := Nat.div_mul_le_self (address + (alignment - 1)) alignment
  unfold alignUp
  omega

/-- A sum that is not below its first part has not overflowed. -/
theorem mod_of_le {first second : Nat} (hfirst : first < sizeLimit) (hsecond : second < sizeLimit)
    (h : first ≤ (first + second) % sizeLimit) : (first + second) % sizeLimit = first + second := by
  unfold sizeLimit at hfirst hsecond h ⊢
  omega

theorem argumentDataEnd_eq {start address last : Nat} {arguments : List (Option (List UInt8))}
    (h : argumentDataEnd start address arguments = some last) :
    last = address + stringsLength arguments.reduceOption ∧ arguments = arguments.reduceOption.map some := by
  induction arguments generalizing address with
  | nil =>
    obtain rfl := Option.some.inj h
    exact ⟨rfl, rfl⟩
  | cons argument arguments ih =>
    cases argument with
    | none => cases h
    | some argument =>
      unfold argumentDataEnd at h
      dsimp only at h
      split at h
      · cases h
      · obtain ⟨hlast, hstrings⟩ := ih h
        rw [List.reduceOption_cons_of_some, stringsLength_cons]
        exact ⟨by omega, congrArg (some argument :: ·) hstrings⟩

/-- The parts of a guest of some image, in order: the image, the services, the strings of the arguments, the pointers to them, the heap,
the guard and the stack. -/
def GuestLayout.ranges (layout : GuestLayout) (minimumAddress imageSize stringsSize argc : Nat) : List (Nat × Nat) :=
  [(minimumAddress, minimumAddress + imageSize), (layout.apiAddress, layout.apiAddress + apiSize),
    (layout.argumentDataAddress, layout.argumentDataAddress + stringsSize),
    (layout.argvAddress, layout.argvAddress + (argc + 1) * 4), (layout.heapBase, layout.heapEnd), (layout.heapEnd, layout.stackBase),
    (layout.stackBase, layout.ramSize)]

/-- The parts follow one another, and no sum of their sizes has left the size of a `size_t`. -/
structure Ordered (layout : GuestLayout) (minimumAddress imageSize heapBytes stackBytes : Nat)
    (arguments : List (List UInt8)) : Prop where
  image : minimumAddress + imageSize ≤ layout.apiAddress
  services : layout.argumentDataAddress = layout.apiAddress + apiSize
  strings : layout.argumentDataAddress + stringsLength arguments ≤ layout.argvAddress
  pointers : layout.argvAddress + (arguments.length + 1) * 4 ≤ layout.heapBase
  heap : layout.heapEnd = layout.heapBase + heapBytes
  guard : layout.stackBase = layout.heapEnd + guardBytes
  stack : layout.ramSize = layout.stackBase + stackBytes
  ram : layout.ramSize ≤ maxRamSize

theorem guestLayout_ordered {entryOffset imageSize minimumAddress heapBytes stackBytes : Nat} {arguments : List (Option (List UInt8))}
    {layout : GuestLayout} (hheap : heapBytes < sizeLimit) (hstack : stackBytes < sizeLimit)
    (h : guestLayout entryOffset imageSize minimumAddress heapBytes stackBytes arguments = some layout) :
    Ordered layout minimumAddress imageSize heapBytes stackBytes arguments.reduceOption ∧
      arguments = arguments.reduceOption.map some := by
  unfold guestLayout at h
  dsimp only at h
  split at h
  · cases h
  split at h
  · cases h
  next hservices =>
  split at h
  · cases h
  next last hlast =>
  split at h
  · cases h
  next hpointers =>
  split at h
  · cases h
  next hbounds =>
  obtain rfl := Option.some.inj h
  obtain ⟨rfl, hstrings⟩ := argumentDataEnd_eq hlast
  have hlength := congrArg List.length hstrings
  rw [List.length_map] at hlength
  refine ⟨?_, hstrings⟩
  have himage := @le_alignUp (minimumAddress + imageSize) 16 (by decide)
  generalize alignUp (minimumAddress + imageSize) 16 = apiAddress at himage hservices hpointers hbounds ⊢
  have hstring := @le_alignUp (apiAddress + apiSize + stringsLength arguments.reduceOption) 4 (by decide)
  generalize alignUp (apiAddress + apiSize + stringsLength arguments.reduceOption) 4 = argvAddress at hstring hpointers hbounds ⊢
  have hpointer := @le_alignUp (argvAddress + (arguments.length + 1) * 4) 16 (by decide)
  have hlt := @alignUp_lt (argvAddress + (arguments.length + 1) * 4) 16 (by decide)
  generalize alignUp (argvAddress + (arguments.length + 1) * 4) 16 = heapBase at hpointer hlt hbounds ⊢
  obtain ⟨hheapEnd, hstackBase, hramSize, hmax, -⟩ := by simpa only [not_or, Nat.not_lt] using hbounds
  obtain ⟨-, hargv⟩ := by simpa only [not_or, Nat.not_lt] using hpointers
  have hheapBase : heapBase < sizeLimit := by
    unfold maxRamSize at hargv
    unfold sizeLimit
    omega
  have hheapSum := mod_of_le hheapBase hheap hheapEnd
  have hguardSum := mod_of_le (Nat.mod_lt _ (by decide)) (by decide) hstackBase
  have hstackSum := mod_of_le (Nat.mod_lt _ (by decide)) hstack hramSize
  exact ⟨himage, rfl, hstring, hlength ▸ hpointer, hheapSum, hguardSum, hstackSum, hmax⟩

theorem stringsLength_take {arguments : List (List UInt8)} {place : Nat} (hplace : place < arguments.length) :
    stringsLength (arguments.take place) + (arguments[place].length + 1) ≤ stringsLength arguments := by
  induction arguments generalizing place with
  | nil => exact absurd hplace (Nat.not_lt_zero place)
  | cons argument arguments ih =>
    rw [stringsLength_cons]
    cases place with
    | zero =>
      rw [List.take_zero, stringsLength_nil, List.getElem_cons_zero]
      omega
    | succ place =>
      have hrest := ih (Nat.lt_of_succ_lt_succ hplace)
      rw [List.take_succ_cons, stringsLength_cons, List.getElem_cons_succ]
      omega

/-- Each pointer of a list of pointers leads to a copy of its string in some range, and the list ends with a zero. -/
structure PointsTo (memory : GuestMemory) (argvAddress first last : Nat) (strings : List (List UInt8)) : Prop where
  inside : ∀ place, (hplace : place < strings.length) → first ≤ wordAt memory (argvAddress + place * 4) ∧
    wordAt memory (argvAddress + place * 4) + (strings[place].length + 1) ≤ last
  copied : ∀ place, (hplace : place < strings.length) →
    copyOut memory (wordAt memory (argvAddress + place * 4)) (strings[place].length + 1) = strings[place] ++ [0]
  ends : wordAt memory (argvAddress + strings.length * 4) = 0

theorem pointsTo_writeArguments (memory : GuestMemory) {argvAddress first : Nat} {strings : List (List UInt8)}
    (hfits : first + stringsLength strings ≤ argvAddress) (hlt : argvAddress < 2 ^ 32) :
    PointsTo (writeU32 (writeArguments argvAddress 0 first strings memory) (argvAddress + strings.length * 4) 0) argvAddress first
      (first + stringsLength strings) strings := by
  have hword (place : Nat) (hplace : place < strings.length) :
      wordAt (writeU32 (writeArguments argvAddress 0 first strings memory) (argvAddress + strings.length * 4) 0)
          (argvAddress + place * 4) =
        first + stringsLength (strings.take place) := by
    have hargument := (@writeArguments_argument argvAddress strings 0 first memory hfits hlt place hplace).1
    rw [Nat.zero_add] at hargument
    exact (wordAt_congr fun byte hbyte => writeU32_outside _ 0 (by omega)).trans hargument
  refine ⟨fun place hplace => ?_, fun place hplace => ?_, wordAt_writeU32 _ _ (by decide)⟩
  · have htake := stringsLength_take hplace
    rw [hword place hplace]
    omega
  · have htake := stringsLength_take hplace
    rw [hword place hplace]
    exact (copyOut_congr fun byte hbyte => writeU32_outside _ 0 (by omega)).trans
      (@writeArguments_argument argvAddress strings 0 first memory hfits hlt place hplace).2

theorem Ordered.ranges {layout : GuestLayout} {minimumAddress imageSize heapBytes stackBytes : Nat} {strings : List (List UInt8)}
    (h : Ordered layout minimumAddress imageSize heapBytes stackBytes strings) :
    (layout.ranges minimumAddress imageSize (stringsLength strings) strings.length).Pairwise (fun first second => first.2 ≤ second.1) ∧
      ∀ range ∈ layout.ranges minimumAddress imageSize (stringsLength strings) strings.length,
        range.1 ≤ range.2 ∧ range.2 ≤ layout.ramSize := by
  obtain ⟨himage, hservices, hstrings, hpointers, hheap, hguard, hstack, -⟩ := h
  unfold GuestLayout.ranges
  constructor
  · simp only [List.pairwise_cons, List.mem_cons, List.not_mem_nil, or_false, forall_eq_or_imp, forall_eq, List.Pairwise.nil, and_true,
      false_imp_iff, implies_true]
    omega
  · simp only [List.mem_cons, List.not_mem_nil, or_false, forall_eq_or_imp, forall_eq]
    omega

/-- The guest that is created has its parts one after another in its memory, and its argument pointers lead to the arguments. -/
theorem guest_parts_are_disjoint {entryOffset : Nat} {image : List UInt8} {minimumAddress heapBytes stackBytes abiVersion : Nat}
    {arguments : List (Option (List UInt8))} (hheap : heapBytes < sizeLimit) (hstack : stackBytes < sizeLimit) {layout : GuestLayout}
    {guest : GuestContext}
    (h : createGuest entryOffset image minimumAddress heapBytes stackBytes abiVersion arguments = some (layout, guest)) :
    ∃ strings, arguments = strings.map some ∧
      (layout.ranges minimumAddress image.length (stringsLength strings) strings.length).Pairwise
        (fun first second => first.2 ≤ second.1) ∧
      (∀ range ∈ layout.ranges minimumAddress image.length (stringsLength strings) strings.length,
        range.1 ≤ range.2 ∧ range.2 ≤ guest.memorySize) ∧
      Ordered layout minimumAddress image.length heapBytes stackBytes strings ∧ guest.memorySize = layout.ramSize ∧
      PointsTo guest.memory guest.argvRegister layout.argumentDataAddress
        (layout.argumentDataAddress + stringsLength strings) strings := by
  unfold createGuest at h
  rcases hlayout : guestLayout entryOffset image.length minimumAddress heapBytes stackBytes arguments with - | computed
  · rw [hlayout] at h
    cases h
  · rw [hlayout] at h
    obtain ⟨rfl, rfl⟩ := Prod.mk.inj (Option.some.inj h)
    obtain ⟨hordered, hstrings⟩ := guestLayout_ordered hheap hstack hlayout
    obtain ⟨hpairwise, hinside⟩ := hordered.ranges
    have hlength := congrArg List.length hstrings
    rw [List.length_map] at hlength
    have hlt : computed.argvAddress < 2 ^ 32 := by
      obtain ⟨-, -, -, hpointers, hheapSum, hguard, hstackSum, hram⟩ := hordered
      unfold maxRamSize at hram
      omega
    have hpoints := @pointsTo_writeArguments
      (writeGates computed.apiAddress 0 apiOffsets (writeU32 (copyIn (fun _ => 0) minimumAddress image) computed.apiAddress abiVersion))
      computed.argvAddress computed.argumentDataAddress arguments.reduceOption hordered.strings hlt
    rw [← hlength] at hpoints
    exact ⟨arguments.reduceOption, hstrings, hpairwise, hinside, hordered, rfl, hpoints⟩

/-- A guest with a small image and one argument. -/
theorem guest_parts_are_disjoint_small : ∃ layout guest, createGuest 0 [0] 0x1000 4096 4096 1 [some [0x61]] = some (layout, guest) ∧
    ∃ strings, [some [0x61]] = strings.map some ∧
      (layout.ranges 0x1000 1 (stringsLength strings) strings.length).Pairwise (fun first second => first.2 ≤ second.1) ∧
      (∀ range ∈ layout.ranges 0x1000 1 (stringsLength strings) strings.length, range.1 ≤ range.2 ∧ range.2 ≤ guest.memorySize) ∧
      Ordered layout 0x1000 1 4096 4096 strings ∧ guest.memorySize = layout.ramSize ∧
      PointsTo guest.memory guest.argvRegister layout.argumentDataAddress (layout.argumentDataAddress + stringsLength strings) strings :=
  ⟨_, _, rfl, @guest_parts_are_disjoint 0 [0] 0x1000 4096 4096 1 [some [0x61]] (by decide) (by decide) _ _ rfl⟩

end Executor
end TabOS
