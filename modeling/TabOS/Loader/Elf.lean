import TabOS.Library.Program

/-!
# The ELF loader

`loader/elf_loader.c`, function by function, for non-null arguments. The input is a list of bytes and `size` is its length. A read
outside the input goes wrong. Sums of `size_t` are taken modulo `SIZE_MAX + 1`, and `uint32_t` and `uint16_t` are bit vectors. Writes
to the image are made wherever they fall, inside the image or not, and are recorded.

What `*info` holds after a refused inspection is left out, since no caller reads it.
-/

namespace TabOS

open Library Library.Program

/-- `SIZE_MAX` of a platform whose `size_t` holds every `uint32_t`. -/
structure Target where
  sizeMax : Nat
  uint32_le : 4294967295 ≤ sizeMax

/-- A platform of 32 bits. -/
def Target.bits32 : Target := ⟨4294967295, Nat.le_refl _⟩

/-- The values of `loader_elf_result_t` other than `LOADER_ELF_OK` that loading from memory returns. -/
inductive ElfResult where
  | truncated
  | unsupportedFormat
  | unsupportedRelocation
  | invalidSegment
  | invalidEntry
  | imageTooLarge
  | noExecutableMemory
  | prepareFailed
  deriving DecidableEq, Repr

/-- `loader_elf_info_t`. -/
structure ElfInfo where
  entryAddress : BitVec 32
  minimumAddress : BitVec 32
  maximumAddress : BitVec 32
  imageSize : Nat
  loadSegmentCount : Nat
  applicationAbiVersion : BitVec 32
  requestedHeapBytes : Nat
  requestedStackBytes : Nat
  capabilities : BitVec 32
  metadataPresent : Bool
  deriving DecidableEq, Repr

/-- `(loader_elf_info_t) {0}`. -/
def ElfInfo.zero : ElfInfo := ⟨0, 0, 0, 0, 0, 0, 0, 0, 0, false⟩

/-- `TABOS_APPLICATION_ABI_VERSION` of `tabos/application.h`. -/
def applicationAbiVersion : BitVec 32 := 3

/-- `TABOS_APP_CAPABILITY_CONSOLE`. -/
def capabilityConsole : BitVec 32 := 1

/-- `LOADER_ELF_DEFAULT_HEAP_BYTES` and `LOADER_ELF_MIN_HEAP_BYTES`. -/
def minHeapBytes : Nat := 256 * 1024

/-- `LOADER_ELF_MAX_HEAP_BYTES`. -/
def maxHeapBytes : Nat := 16 * 1024 * 1024

/-- `LOADER_ELF_DEFAULT_STACK_BYTES` and `LOADER_ELF_MIN_STACK_BYTES`. -/
def minStackBytes : Nat := 16 * 1024

/-- `LOADER_ELF_MAX_STACK_BYTES`. -/
def maxStackBytes : Nat := 256 * 1024

/-- `ELF_MAX_IMAGE_SIZE`. -/
def elfMaxImageSize : Nat := 1024 * 1024

namespace Loader

variable {σ : Type}

/-! ## Reading -/

/-- A byte of the input. -/
def readByte (data : List (BitVec 8)) (offset : Nat) : Program ElfResult σ (BitVec 8) :=
  match data[offset]? with
  | some byte => pure byte
  | none => goWrong

/-- Two bytes, the low one first. -/
def word16 (b0 b1 : BitVec 8) : BitVec 16 := b0.setWidth 16 ||| b1.setWidth 16 <<< 8

/-- Four bytes, the low one first. -/
def word32 (b0 b1 b2 b3 : BitVec 8) : BitVec 32 :=
  b0.setWidth 32 ||| b1.setWidth 32 <<< 8 ||| b2.setWidth 32 <<< 16 ||| b3.setWidth 32 <<< 24

/-- `read_u16`. -/
def readU16 (data : List (BitVec 8)) (offset : Nat) : Program ElfResult σ (BitVec 16) := do
  let b0 ← readByte data offset
  let b1 ← readByte data (offset + 1)
  return word16 b0 b1

/-- `read_u32`, and `read_i32`, whose value has the same bits. -/
def readU32 (data : List (BitVec 8)) (offset : Nat) : Program ElfResult σ (BitVec 32) := do
  let b0 ← readByte data offset
  let b1 ← readByte data (offset + 1)
  let b2 ← readByte data (offset + 2)
  let b3 ← readByte data (offset + 3)
  return word32 b0 b1 b2 b3

/-- The bytes that `memcpy` reads. -/
def readBytes (data : List (BitVec 8)) (offset length : Nat) : Program ElfResult σ (List (BitVec 8)) :=
  if offset + length ≤ data.length then pure ((data.drop offset).take length) else goWrong

/-! ## Validation -/

/-- `range_valid`. -/
def rangeValid (offset length total : Nat) : Bool := decide (offset ≤ total) && decide (length ≤ total - offset)

/-- `table_valid`. -/
def tableValid (target : Target) (offset : BitVec 32) (count entrySize : BitVec 16) (total : Nat) : Bool :=
  decide (count = 0) || (decide (entrySize ≠ 0) && decide (count.toNat ≤ target.sizeMax / entrySize.toNat) &&
    rangeValid offset.toNat (count.toNat * entrySize.toNat) total)

/-- `aligned_four`: the mask `~3` clears the last two bits. -/
def alignedFour (target : Target) (value : BitVec 32) : Option Nat :=
  if target.sizeMax - 3 < value.toNat then none else some ((value.toNat + 3) / 4 * 4)

/-- The name of a TabOS note, `TABOS` and a NUL. -/
def metadataName : List (BitVec 8) := [0x54, 0x41, 0x42, 0x4f, 0x53, 0]

/-- `metadata_name_matches`: the name is read only when its size is right. -/
def metadataNameMatches (data : List (BitVec 8)) (name : Nat) (size : BitVec 32) : Program ElfResult σ Bool :=
  if size = 6 then do
    let bytes ← readBytes data name 6
    return decide (bytes = metadataName)
  else return false

/-- The check of a TabOS note's descriptor in `inspect_metadata`, and what it stores. -/
def inspectDescriptor (data : List (BitVec 8)) (descriptor : Nat) (info : ElfInfo) : Program ElfResult σ ElfInfo := do
  let version ← readU32 data descriptor
  let descriptorSize ← readU32 data (descriptor + 4)
  let abiVersion ← readU32 data (descriptor + 8)
  let reserved0 ← readU32 data (descriptor + 24)
  let reserved1 ← readU32 data (descriptor + 28)
  if version ≠ 1 ∨ descriptorSize ≠ 32 ∨ abiVersion ≠ TabOS.applicationAbiVersion ∨ reserved0 ≠ 0 ∨ reserved1 ≠ 0 then
    refuse .unsupportedFormat
  else do
    let heapBytes ← readU32 data (descriptor + 12)
    let stackBytes ← readU32 data (descriptor + 16)
    let capabilities ← readU32 data (descriptor + 20)
    if heapBytes.toNat < minHeapBytes ∨ maxHeapBytes < heapBytes.toNat ∨ heapBytes.toNat % 4096 ≠ 0 ∨
        stackBytes.toNat < minStackBytes ∨ maxStackBytes < stackBytes.toNat ∨ stackBytes.toNat % 16 ≠ 0 ∨
        capabilities &&& ~~~capabilityConsole ≠ 0 then
      refuse .unsupportedFormat
    else
      return { info with
        applicationAbiVersion := abiVersion
        requestedHeapBytes := heapBytes.toNat
        requestedStackBytes := stackBytes.toNat
        capabilities := capabilities
        metadataPresent := true }

/-- A round of the loop over the notes of a section in `inspect_metadata`, with the cursor below the section's size: the payload of
the note at the cursor, whether a TabOS note has been found, and the information so far. -/
def inspectNote (target : Target) (data : List (BitVec 8)) (noteOffset noteSize cursor : Nat) (found : Bool) (info : ElfInfo) :
    Program ElfResult σ (Nat × Bool × ElfInfo) :=
  if noteSize - cursor < 12 then refuse .truncated
  else do
    let note := noteOffset + cursor
    let nameSize ← readU32 data note
    let descSize ← readU32 data (note + 4)
    let noteType ← readU32 data (note + 8)
    match alignedFour target nameSize, alignedFour target descSize with
    | some namePadded, some descPadded =>
      let payloadSize := (namePadded + descPadded) % (target.sizeMax + 1)
      if payloadSize < namePadded ∨ noteSize - cursor - 12 < payloadSize then refuse .truncated
      else do
        let name := note + 12
        let named ← metadataNameMatches data name nameSize
        if named then
          if found = true ∨ noteType ≠ 1 ∨ descSize ≠ 32 then refuse .unsupportedFormat
          else do
            let info ← inspectDescriptor data (name + namePadded) info
            return (payloadSize, true, info)
        else return (payloadSize, found, info)
    | _, _ => refuse .truncated

/-- The loop over the notes of a section in `inspect_metadata`. The cursor stays at or below the section's size, so its sum does not
wrap. -/
def inspectNotes (target : Target) (data : List (BitVec 8)) (noteOffset noteSize cursor : Nat) (state : Bool × ElfInfo) :
    Program ElfResult σ (Bool × ElfInfo) :=
  if cursor < noteSize then do
    let (payloadSize, state) ← inspectNote target data noteOffset noteSize cursor state.1 state.2
    inspectNotes target data noteOffset noteSize (cursor + (12 + payloadSize)) state
  else return state
termination_by noteSize - cursor

/-- A round of the loop over the sections in `inspect_metadata`. -/
def inspectNoteSection (target : Target) (data : List (BitVec 8)) (sectionHeader : Nat) (state : Bool × ElfInfo) :
    Program ElfResult σ (Bool × ElfInfo) := do
  let type ← readU32 data (sectionHeader + 4)
  if type ≠ 7 then return state
  else do
    let noteOffset ← readU32 data (sectionHeader + 16)
    let noteSize ← readU32 data (sectionHeader + 20)
    if rangeValid noteOffset.toNat noteSize.toNat data.length then
      inspectNotes target data noteOffset.toNat noteSize.toNat 0 state
    else refuse .truncated

/-- What `inspect_metadata` stores before it looks at the sections. -/
def legacyMetadata (info : ElfInfo) : ElfInfo :=
  { info with
    applicationAbiVersion := TabOS.applicationAbiVersion
    requestedHeapBytes := minHeapBytes
    requestedStackBytes := minStackBytes
    capabilities := capabilityConsole
    metadataPresent := false }

/-- `inspect_metadata`. -/
def inspectMetadata (target : Target) (data : List (BitVec 8)) (info : ElfInfo) : Program ElfResult σ ElfInfo := do
  let sectionOffset ← readU32 data 32
  let sectionEntrySize ← readU16 data 46
  let sectionCount ← readU16 data 48
  let state ← (List.range sectionCount.toNat).foldlM (fun state index =>
    inspectNoteSection target data (sectionOffset.toNat + index * sectionEntrySize.toNat) state) (false, legacyMetadata info)
  return state.2

/-- A round of the loop of `inspect_sections`. -/
def inspectSection (data : List (BitVec 8)) (sectionHeader : Nat) : Program ElfResult σ Unit := do
  let type ← readU32 data (sectionHeader + 4)
  let fileOffset ← readU32 data (sectionHeader + 16)
  let sectionSize ← readU32 data (sectionHeader + 20)
  let entrySize ← readU32 data (sectionHeader + 36)
  if type = 9 ∧ 0 < sectionSize then refuse .unsupportedRelocation
  else if type = 4 ∧ (entrySize ≠ 12 ∨ sectionSize % entrySize ≠ 0 ∨
      rangeValid fileOffset.toNat sectionSize.toNat data.length = false) then refuse .truncated
  else return ()

/-- `inspect_sections`. -/
def inspectSections (target : Target) (data : List (BitVec 8)) : Program ElfResult σ Unit := do
  let sectionOffset ← readU32 data 32
  let sectionEntrySize ← readU16 data 46
  let sectionCount ← readU16 data 48
  if tableValid target sectionOffset sectionCount sectionEntrySize data.length = false ∨
      (0 < sectionCount ∧ sectionEntrySize ≠ 40) then refuse .truncated
  else
    (List.range sectionCount.toNat).foldlM (fun _ index =>
      inspectSection data (sectionOffset.toNat + index * sectionEntrySize.toNat)) ()

/-! ## Inspection -/

/-- What the loop over the program headers of `loader_elf_inspect` collects. -/
structure Bounds where
  minimum : BitVec 32
  maximum : BitVec 32
  executableEntry : Bool
  loadSegmentCount : Nat

/-- The checks of a LOAD segment in `loader_elf_inspect`. -/
def segmentInvalid (fileOffset virtualAddress fileSize memorySize alignment : BitVec 32) (size : Nat) : Bool :=
  decide (memorySize < fileSize) || !rangeValid fileOffset.toNat fileSize.toNat size || decide (memorySize = 0) ||
    decide (0xffffffff - memorySize < virtualAddress) ||
    (decide (1 < alignment) && (decide (alignment &&& (alignment - 1) ≠ 0) ||
      decide (fileOffset % alignment ≠ virtualAddress % alignment)))

/-- A round of the loop over the program headers of `loader_elf_inspect`. -/
def inspectProgram (data : List (BitVec 8)) (entry : BitVec 32) (bounds : Bounds) (program : Nat) :
    Program ElfResult σ Bounds := do
  let type ← readU32 data program
  if type = 2 then refuse .unsupportedRelocation
  else if type ≠ 1 then return bounds
  else do
    let fileOffset ← readU32 data (program + 4)
    let virtualAddress ← readU32 data (program + 8)
    let fileSize ← readU32 data (program + 16)
    let memorySize ← readU32 data (program + 20)
    let flags ← readU32 data (program + 24)
    let alignment ← readU32 data (program + 28)
    if segmentInvalid fileOffset virtualAddress fileSize memorySize alignment data.length then refuse .invalidSegment
    else
      let segmentEnd := virtualAddress + memorySize
      return {
        minimum := if virtualAddress < bounds.minimum then virtualAddress else bounds.minimum
        maximum := if bounds.maximum < segmentEnd then segmentEnd else bounds.maximum
        executableEntry := bounds.executableEntry ||
          (decide (flags &&& 1 ≠ 0) && decide (virtualAddress ≤ entry) && decide (entry < segmentEnd))
        loadSegmentCount := bounds.loadSegmentCount + 1 }

/-- The check of the ELF header in `loader_elf_inspect`. -/
def headerValid (data : List (BitVec 8)) : Program ElfResult σ Bool := do
  let ident ← readBytes data 0 7
  let type ← readU16 data 16
  let machine ← readU16 data 18
  let version ← readU32 data 20
  let headerSize ← readU16 data 40
  return decide (ident = [0x7f, 0x45, 0x4c, 0x46, 1, 1, 1]) && decide (type = 2) && decide (machine = 243) &&
    decide (version = 1) && decide (headerSize = 52)

/-- The end of `loader_elf_inspect`, after the loop over the program headers. -/
def finishInspection (entry : BitVec 32) (bounds : Bounds) (info : ElfInfo) : Program ElfResult σ ElfInfo :=
  if bounds.loadSegmentCount = 0 ∨ bounds.minimum = 0xffffffff ∨ bounds.maximum ≤ bounds.minimum then refuse .invalidSegment
  else if bounds.executableEntry = false then refuse .invalidEntry
  else if elfMaxImageSize < (bounds.maximum - bounds.minimum).toNat then refuse .imageTooLarge
  else
    return { info with
      entryAddress := entry
      minimumAddress := bounds.minimum
      maximumAddress := bounds.maximum
      imageSize := (bounds.maximum - bounds.minimum).toNat
      loadSegmentCount := bounds.loadSegmentCount }

/-- `loader_elf_inspect`. -/
def loaderElfInspect (target : Target) (data : List (BitVec 8)) : Program ElfResult σ ElfInfo :=
  if data.length < 52 then refuse .truncated
  else do
    let valid ← headerValid data
    if valid = false then refuse .unsupportedFormat
    else do
      let programOffset ← readU32 data 28
      let programEntrySize ← readU16 data 42
      let programCount ← readU16 data 44
      if programCount = 0 ∨ programEntrySize ≠ 32 ∨
          tableValid target programOffset programCount programEntrySize data.length = false then refuse .truncated
      else do
        inspectSections target data
        let info ← inspectMetadata target data .zero
        let entry ← readU32 data 24
        let bounds ← (List.range programCount.toNat).foldlM (fun bounds index =>
          inspectProgram data entry bounds (programOffset.toNat + index * programEntrySize.toNat))
          ⟨0xffffffff, 0, false, 0⟩
        finishInspection entry bounds info

/-! ## Loading -/

/-- What the loader asks of the platform, and does with its memory. -/
inductive Event where
  | allocate (size : Nat)
  | write (offset length : Nat)
  | prepare (size : Nat)
  | finalize (size : Nat)
  | free
  deriving DecidableEq, Repr

/-- The memory of an image by the distance from its start, and the events so far. -/
structure Image where
  bytes : Nat → BitVec 8
  events : List Event

/-- The memory before anything is loaded. -/
def Image.blank : Image := ⟨fun _ => 0, []⟩

/-- Record an event. -/
def Image.record (image : Image) (event : Event) : Image := { image with events := image.events ++ [event] }

/-- `memcpy` into the image. -/
def Image.copy (image : Image) (offset : Nat) (source : List (BitVec 8)) : Image :=
  { bytes := fun a => if offset ≤ a ∧ a < offset + source.length then source.getD (a - offset) 0 else image.bytes a
    events := image.events ++ [.write offset source.length] }

/-- `read_u32` of the image. -/
def Image.readU32 (image : Image) (offset : Nat) : BitVec 32 :=
  word32 (image.bytes offset) (image.bytes (offset + 1)) (image.bytes (offset + 2)) (image.bytes (offset + 3))

/-- `write_u32` to the image. -/
def Image.writeU32 (image : Image) (offset : Nat) (number : BitVec 32) : Image :=
  image.copy offset [number.setWidth 8, (number >>> 8).setWidth 8, (number >>> 16).setWidth 8, (number >>> 24).setWidth 8]

/-- The relocation types that `apply_relocations` leaves as they are: `NONE`, `BRANCH`, `JAL`, `CALL`, `CALL_PLT`, `PCREL_HI20`,
`PCREL_LO12_I`, `PCREL_LO12_S` and `RELAX`. -/
def relocationSkipped (type : BitVec 32) : Bool := decide (type ∈ [0, 16, 17, 18, 19, 23, 24, 25, 51])

/-- The relocation types that `apply_relocations` stores: `32`, `HI20`, `LO12_I` and `LO12_S`. -/
def relocationStored (type : BitVec 32) : Bool := decide (type ∈ [1, 26, 27, 28])

/-- The `switch` of `apply_relocations`: the word at the target, with the value in it. -/
def relocatedWord (type value instruction : BitVec 32) : BitVec 32 :=
  if type = 1 then value
  else if type = 26 then (instruction &&& 0x00000fff) ||| ((value + 0x800) &&& 0xfffff000)
  else if type = 27 then (instruction &&& 0x000fffff) ||| ((value &&& 0x00000fff) <<< 20)
  else (instruction &&& ~~~(0xfe000f80 : BitVec 32)) ||| ((value &&& 0x00000fe0) <<< 20) ||| ((value &&& 0x0000001f) <<< 7)

/-- A 32-bit relocation store. -/
structure Store where
  offset : Nat
  type : BitVec 32
  value : BitVec 32
  deriving DecidableEq, Repr

/-- The end of a round of the loop over the entries in `apply_relocations`. -/
def Store.apply (store : Store) (image : Image) : Image :=
  image.writeU32 store.offset (relocatedWord store.type store.value (image.readU32 store.offset))

/-- The check of a relocation's target address: `info->maximum_address - sizeof(uint32_t)` is a difference of `size_t`. -/
def targetRefused (target : Target) (info : ElfInfo) (targetAddress : BitVec 32) : Bool :=
  decide (targetAddress < info.minimumAddress) ||
    decide ((info.maximumAddress.toNat + (target.sizeMax + 1) - 4) % (target.sizeMax + 1) < targetAddress.toNat)

/-- A round of the loop over the entries of a section in `apply_relocations`. -/
def applyRelocation (target : Target) (data : List (BitVec 8)) (info : ElfInfo) (loadBias : BitVec 32) (sectionCount : BitVec 16)
    (symbolOffset symbolSize : BitVec 32) (relocation : Nat) : Program ElfResult Image Unit := do
  let targetAddress ← readU32 data relocation
  let relocationInfo ← readU32 data (relocation + 4)
  let type := relocationInfo &&& 0xff
  let symbolIndex := relocationInfo >>> 8
  let addend ← readU32 data (relocation + 8)
  if relocationSkipped type then return ()
  else if relocationStored type = false then refuse .unsupportedRelocation
  else if targetRefused target info targetAddress then refuse .unsupportedRelocation
  else if symbolSize / 16 ≤ symbolIndex then refuse .unsupportedRelocation
  else do
    let symbol := symbolOffset.toNat + symbolIndex.toNat * 16
    let symbolValue ← readU32 data (symbol + 4)
    let symbolSection ← readU16 data (symbol + 14)
    if symbolSection = 0 then refuse .unsupportedRelocation
    else if sectionCount ≤ symbolSection ∧ symbolSection ≠ 0xfff1 then refuse .unsupportedRelocation
    else
      let symbolBias := if symbolSection = 0xfff1 then 0 else loadBias
      modify (Store.apply {
        offset := (targetAddress - info.minimumAddress).toNat
        type := type
        value := symbolBias + symbolValue + addend })

/-- The loop over the entries of a section in `apply_relocations`. The offset `used` is a `uint32_t`; a loop that has not ended after
as many rounds as the section has bytes goes wrong. -/
def applyRelocationEntries (round : BitVec 32 → Program ElfResult Image Unit) (relocationSize : BitVec 32) :
    Nat → BitVec 32 → Program ElfResult Image Unit
  | 0, _ => goWrong
  | fuel + 1, used =>
    if used < relocationSize then do
      round used
      applyRelocationEntries round relocationSize fuel (used + 12)
    else return ()

/-- A round of the loop over the sections in `apply_relocations`; it returns `found_relocations`. -/
def applyRelocationSection (target : Target) (data : List (BitVec 8)) (info : ElfInfo) (loadBias : BitVec 32)
    (sectionOffset : BitVec 32) (sectionEntrySize sectionCount : BitVec 16) (found : Bool) (sectionIndex : Nat) :
    Program ElfResult Image Bool := do
  let header := fun index : Nat => sectionOffset.toNat + index * sectionEntrySize.toNat
  let type ← readU32 data (header sectionIndex + 4)
  if type ≠ 4 then return found
  else do
    let relocationOffset ← readU32 data (header sectionIndex + 16)
    let relocationSize ← readU32 data (header sectionIndex + 20)
    let symbolSectionIndex ← readU32 data (header sectionIndex + 24)
    let targetSectionIndex ← readU32 data (header sectionIndex + 28)
    if sectionCount.toNat ≤ targetSectionIndex.toNat then refuse .unsupportedRelocation
    else do
      let flags ← readU32 data (header targetSectionIndex.toNat + 8)
      if flags &&& 2 = 0 then return found
      else if sectionCount.toNat ≤ symbolSectionIndex.toNat then refuse .unsupportedRelocation
      else do
        let symbolSectionType ← readU32 data (header symbolSectionIndex.toNat + 4)
        let symbolEntrySize ← readU32 data (header symbolSectionIndex.toNat + 36)
        if symbolSectionType ≠ 2 ∨ symbolEntrySize ≠ 16 then refuse .unsupportedRelocation
        else do
          let symbolOffset ← readU32 data (header symbolSectionIndex.toNat + 16)
          let symbolSize ← readU32 data (header symbolSectionIndex.toNat + 20)
          if symbolSize = 0 ∨ symbolSize % 16 ≠ 0 ∨ rangeValid symbolOffset.toNat symbolSize.toNat data.length = false then
            refuse .truncated
          else do
            applyRelocationEntries (fun used => applyRelocation target data info loadBias sectionCount symbolOffset symbolSize
              (relocationOffset.toNat + used.toNat)) relocationSize (relocationSize.toNat + 1) 0
            return true

/-- `apply_relocations`, from the load bias on. -/
def applyRelocations (target : Target) (data : List (BitVec 8)) (info : ElfInfo) (loadBias : BitVec 32) :
    Program ElfResult Image Unit := do
  let sectionOffset ← readU32 data 32
  let sectionEntrySize ← readU16 data 46
  let sectionCount ← readU16 data 48
  if loadBias = 0 then return ()
  else do
    let found ← (List.range sectionCount.toNat).foldlM
      (applyRelocationSection target data info loadBias sectionOffset sectionEntrySize sectionCount) false
    if found then return () else refuse .unsupportedRelocation

/-- The platform's answers to the loader: `platform_executable_alloc`, the address of the memory that
`platform_executable_prepare` makes of it, `platform_executable_data_pointer` of an address, and `platform_executable_finalize`. -/
structure Platform where
  alloc : Nat → Bool
  prepare : Nat → Option Nat
  dataPointer : Nat → Nat
  finalize : Nat → Bool

/-- The load bias of `apply_relocations`. -/
def Platform.loadBias (platform : Platform) (info : ElfInfo) (executableMemory : Nat) : BitVec 32 :=
  if platform.dataPointer executableMemory = executableMemory then 0
  else BitVec.ofNat 32 executableMemory - info.minimumAddress

/-- `loader_elf_image_t`. -/
structure LoadedImage where
  memory : Nat
  memorySize : Nat
  entry : Nat
  info : ElfInfo
  deriving DecidableEq, Repr

/-- A round of the loop over the program headers of `loader_elf_load`. -/
def loadProgram (data : List (BitVec 8)) (info : ElfInfo) (program : Nat) : Program ElfResult Image Unit := do
  let type ← readU32 data program
  if type ≠ 1 then return ()
  else do
    let fileOffset ← readU32 data (program + 4)
    let virtualAddress ← readU32 data (program + 8)
    let fileSize ← readU32 data (program + 16)
    let bytes ← readBytes data fileOffset.toNat fileSize.toNat
    modify fun image => image.copy (virtualAddress - info.minimumAddress).toNat bytes

/-- The loop over the program headers of `loader_elf_load`. -/
def loadPrograms (data : List (BitVec 8)) (info : ElfInfo) : Program ElfResult Image Unit := do
  let programOffset ← readU32 data 28
  let programEntrySize ← readU16 data 42
  let programCount ← readU16 data 44
  (List.range programCount.toNat).foldlM (fun _ index =>
    loadProgram data info (programOffset.toNat + index * programEntrySize.toNat)) ()

/-- Free the image and be refused. -/
def freeAndRefuse {α : Type} (result : ElfResult) : Program ElfResult Image α := do
  modify fun image => image.record .free
  refuse result

/-- The end of `loader_elf_load`: the relocations are applied and the image is finalized, and freed where one of them fails. -/
def finishLoad (target : Target) (platform : Platform) (data : List (BitVec 8)) (info : ElfInfo) (executableMemory : Nat) :
    Program ElfResult Image LoadedImage := do
  caught (applyRelocations target data info (platform.loadBias info executableMemory)) fun result => freeAndRefuse result
  modify fun image => image.record (.finalize info.imageSize)
  if platform.finalize info.imageSize then
    return {
      memory := executableMemory
      memorySize := info.imageSize
      entry := executableMemory + (info.entryAddress - info.minimumAddress).toNat
      info := info }
  else freeAndRefuse .prepareFailed

/-- `loader_elf_load`, after the inspection. -/
def loadInspected (target : Target) (platform : Platform) (data : List (BitVec 8)) (info : ElfInfo) :
    Program ElfResult Image LoadedImage := do
  modify fun image => image.record (.allocate info.imageSize)
  if platform.alloc info.imageSize = false then refuse .noExecutableMemory
  else do
    modify fun image => image.copy 0 (List.replicate info.imageSize 0)
    loadPrograms data info
    modify fun image => image.record (.prepare info.imageSize)
    match platform.prepare info.imageSize with
    | none => freeAndRefuse .prepareFailed
    | some executableMemory => finishLoad target platform data info executableMemory

/-- `loader_elf_load`. -/
def loaderElfLoad (target : Target) (platform : Platform) (data : List (BitVec 8)) : Program ElfResult Image LoadedImage := do
  let info ← loaderElfInspect target data
  loadInspected target platform data info

end Loader
end TabOS
