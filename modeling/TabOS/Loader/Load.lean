import TabOS.Loader.Relocate

/-!
# Loading

Loading reads inside the input and copies segments inside the image. A relocation store is inside the image as well, but for an image
that ends below address 4: there the bound of the target check wraps.
-/

namespace TabOS
namespace Loader

open Library Library.Program

variable {target : Target} {platform : Platform} {data : List (BitVec 8)} {info : ElfInfo} {loadBias : BitVec 32}

/-! ## Copying the segments -/

/-- Every byte of every write so far lies inside a buffer of the size. -/
def WritesInside (size : Nat) (image : Image) : Prop :=
  ∀ offset length, Event.write offset length ∈ image.events → offset + length ≤ size

theorem writesInside_blank (size : Nat) : WritesInside size .blank := fun _ _ hmem => nomatch hmem

/-- Recording an event that is not a write. -/
theorem writesInside_record {size : Nat} {image : Image} {event : Event} (hevent : ∀ offset length, event ≠ .write offset length) :
    WritesInside size (image.record event) ↔ WritesInside size image := by
  unfold WritesInside
  simp only [Image.record, List.mem_append, List.mem_singleton]
  constructor
  · intro h offset length hmem
    exact h offset length (Or.inl hmem)
  · rintro h offset length (hmem | heq)
    · exact h offset length hmem
    · exact absurd heq.symm (hevent offset length)

theorem writesInside_copy {size : Nat} {image : Image} {offset : Nat} {source : List (BitVec 8)} :
    WritesInside size (image.copy offset source) ↔ WritesInside size image ∧ offset + source.length ≤ size := by
  unfold WritesInside
  simp only [Image.copy, List.mem_append, List.mem_singleton]
  constructor
  · intro h
    exact ⟨fun o l hmem => h o l (Or.inl hmem), h offset source.length (Or.inr rfl)⟩
  · rintro ⟨h, hle⟩ o l (hmem | heq)
    · exact h o l hmem
    · obtain ⟨rfl, rfl⟩ := Event.write.inj heq
      exact hle

theorem writesInside_storeAll {size : Nat} {image : Image} (stores : List Store) :
    WritesInside size (storeAll stores image) ↔ WritesInside size image ∧ ∀ store ∈ stores, store.offset + 4 ≤ size := by
  induction stores generalizing image with
  | nil => exact ⟨fun h => ⟨h, fun _ hmem => nomatch hmem⟩, fun h => h.1⟩
  | cons store stores ih =>
    have hstep : WritesInside size (store.apply image) ↔ WritesInside size image ∧ store.offset + 4 ≤ size := writesInside_copy
    rw [storeAll, List.foldl_cons, ← storeAll, ih, hstep, List.forall_mem_cons, and_assoc]

/-- A round of the loop that copies the segments reads inside the input and writes inside the image. -/
theorem loadProgram_meets (haccepted : Accepted data info) {index : Nat} (hindex : index < (programCount data).toNat) (image : Image) :
    (loadProgram data info (programAt data index)).Meets image
      (fun _ image' => WritesInside info.imageSize image' ↔ WritesInside info.imageSize image) fun _ _ => False := by
  have hprogram := haccepted.programs index hindex
  unfold loadProgram
  simp (disch := omega) only [readU32_eq, pure_bind]
  refine meets_ite (fun _ => Iff.rfl) fun hload => ?_
  have hsegment := haccepted.segments index hindex (not_not.1 hload)
  have hfile := hsegment.file_inside
  have hmemory := hsegment.file_le_memory
  have hmin := hsegment.minimum_le
  have hmax := hsegment.le_maximum
  have hsize := haccepted.imageSize_eq
  unfold segmentOffset segmentFileSize segmentMemorySize segmentAddress at *
  rw [readBytes_eq hfile, pure_bind, meets_modify, writesInside_copy]
  refine and_iff_left ?_
  rw [List.length_take, List.length_drop, BitVec.toNat_sub_of_le (BitVec.le_def.2 hmin)]
  omega

theorem programAt_eq (data : List (BitVec 8)) (index : Nat) :
    (u32At data 28).toNat + index * (u16At data 42).toNat = programAt data index := rfl

theorem loadPrograms_meets (haccepted : Accepted data info) (image : Image) :
    (loadPrograms data info).Meets image
      (fun _ image' => WritesInside info.imageSize image' ↔ WritesInside info.imageSize image) fun _ _ => False := by
  have hlength := haccepted.header_le
  unfold loadPrograms
  simp (disch := omega) only [readU32_eq, readU16_eq, pure_bind, programAt_eq]
  refine meets_foldlM_range (fun _ _ image' => WritesInside info.imageSize image' ↔ WritesInside info.imageSize image) Iff.rfl ?_
  intro index _ image' hindex hinside
  exact (loadProgram_meets haccepted hindex image').mono (fun _ _ h => h.trans hinside) fun _ _ h => h

/-! ## The whole of loading -/

/-- The address of the executable memory, when the platform allocates and prepares it. -/
def Platform.executable (platform : Platform) (size : Nat) : Option Nat :=
  if platform.alloc size then platform.prepare size else none

/-- The stores of the relocations that loading makes on a platform. -/
def loadStores (target : Target) (platform : Platform) (data : List (BitVec 8)) (info : ElfInfo) : List Store :=
  match platform.executable info.imageSize with
  | none => []
  | some executableMemory => relocationStores target data info (platform.loadBias info executableMemory)

/-- The writes of the end of loading are those of the relocations. -/
theorem finishLoad_meets (haccepted : Accepted data info) (executableMemory : Nat) (image : Image) :
    (finishLoad target platform data info executableMemory).Meets image
      (fun loaded image' => loaded.info = info ∧ (WritesInside info.imageSize image' ↔ WritesInside info.imageSize image ∧
        ∀ store ∈ relocationStores target data info (platform.loadBias info executableMemory), store.offset + 4 ≤ info.imageSize))
      fun _ image' => WritesInside info.imageSize image' ↔ WritesInside info.imageSize image ∧
        ∀ store ∈ relocationStores target data info (platform.loadBias info executableMemory), store.offset + 4 ≤ info.imageSize := by
  have hfree : ∀ offset length, Event.free ≠ .write offset length := fun _ _ h => nomatch h
  have hfinalize : ∀ offset length, Event.finalize info.imageSize ≠ .write offset length := fun _ _ h => nomatch h
  unfold finishLoad
  rw [meets_bind, meets_caught]
  refine (applyRelocations_meets haccepted.header_le haccepted.sections _ image).mono ?_ ?_
  · rintro _ image' ⟨rfl, _⟩
    rw [meets_bind, meets_modify]
    refine meets_ite (fun _ => ⟨rfl, ?_⟩) fun _ => ?_
    · rw [writesInside_record hfinalize, writesInside_storeAll]
    · exact (writesInside_record hfree).trans ((writesInside_record hfinalize).trans (writesInside_storeAll _))
  · rintro _ image' rfl
    exact (writesInside_record hfree).trans (writesInside_storeAll _)

/-- Loading an accepted file writes the segments and the stores of the relocations, the segments inside the image. -/
theorem loadInspected_meets (haccepted : Accepted data info) (image : Image) :
    (loadInspected target platform data info).Meets image
      (fun loaded image' => loaded.info = info ∧ (WritesInside info.imageSize image' ↔ WritesInside info.imageSize image ∧
        ∀ store ∈ loadStores target platform data info, store.offset + 4 ≤ info.imageSize))
      fun _ image' => WritesInside info.imageSize image' ↔ WritesInside info.imageSize image ∧
        ∀ store ∈ loadStores target platform data info, store.offset + 4 ≤ info.imageSize := by
  have hallocate : ∀ offset length, Event.allocate info.imageSize ≠ .write offset length := fun _ _ h => nomatch h
  have hprepare : ∀ offset length, Event.prepare info.imageSize ≠ .write offset length := fun _ _ h => nomatch h
  have hfree : ∀ offset length, Event.free ≠ .write offset length := fun _ _ h => nomatch h
  have hnone : ∀ W : Prop, W ↔ W ∧ ∀ store ∈ ([] : List Store), store.offset + 4 ≤ info.imageSize :=
    fun W => (and_iff_left fun _ hmem => nomatch hmem).symm
  unfold loadStores Platform.executable loadInspected
  rw [meets_bind, meets_modify]
  refine meets_ite (fun halloc => ?_) fun halloc => ?_
  · rw [halloc, if_neg (by decide)]
    exact (writesInside_record hallocate).trans (hnone _)
  · rw [Bool.not_eq_false] at halloc
    rw [meets_bind, meets_modify, meets_bind, if_pos halloc]
    refine (loadPrograms_meets haccepted _).mono ?_ fun _ _ h => h.elim
    intro _ image' hloaded
    rw [writesInside_copy, List.length_replicate, Nat.zero_add, and_iff_left (Nat.le_refl _), writesInside_record hallocate] at hloaded
    rw [meets_bind, meets_modify]
    cases platform.prepare info.imageSize with
    | none => exact (writesInside_record hfree).trans ((writesInside_record hprepare).trans (hloaded.trans (hnone _)))
    | some executableMemory =>
      refine (finishLoad_meets haccepted executableMemory _).mono ?_ ?_
      · rintro loaded image'' ⟨hinfo, hwrites⟩
        rw [writesInside_record hprepare, hloaded] at hwrites
        exact ⟨hinfo, hwrites⟩
      · intro _ image'' hwrites
        rwa [writesInside_record hprepare, hloaded] at hwrites

/-- Every read of an inspection and of a load is inside the input, and what a successful one returns has been checked. -/
theorem loader_reads_inside (target : Target) (platform : Platform) (data : List (BitVec 8)) (image : Image) :
    ((loaderElfInspect target data).Meets () (fun info _ => Accepted data info) fun _ _ => True) ∧
      (loaderElfLoad target platform data).Meets image (fun loaded _ => Accepted data loaded.info) fun _ _ => True := by
  refine ⟨(loaderElfInspect_meets target data ()).mono (fun _ _ h => h.2) fun _ _ _ => trivial, ?_⟩
  unfold loaderElfLoad
  rw [meets_bind]
  refine (loaderElfInspect_meets target data image).mono ?_ fun _ _ _ => trivial
  rintro info image' ⟨rfl, haccepted⟩
  refine (loadInspected_meets haccepted image').mono ?_ fun _ _ _ => trivial
  rintro loaded _ ⟨rfl, _⟩
  exact haccepted

/-! ## Stores outside the image -/

theorem mem_sectionSteps {header : Nat} {store : Store}
    (h : Step.change store ∈ sectionSteps target data info loadBias header) :
    Step.change store ∈ entrySteps target data info loadBias header := by
  unfold sectionSteps at h
  split_ifs at h
  · nomatch h
  · simp at h
  · nomatch h
  · simp at h
  · simp at h
  · simp at h
  · exact h

/-- A store of the relocations is one of an entry of a section. -/
theorem exists_entry_of_mem_steps {store : Store} (h : Step.change store ∈ relocationSteps target data info loadBias) :
    ∃ symbolOffset symbolSize relocation,
      entryStep target data info loadBias symbolOffset symbolSize relocation = .change store := by
  obtain ⟨index, _, hsection⟩ := List.mem_flatMap.1 h
  obtain ⟨entry, _, hentry⟩ := List.mem_map.1 (mem_sectionSteps hsection)
  exact ⟨_, _, _, hentry⟩

/-- A store is made at a target address that was not refused. -/
theorem target_of_entryStep {symbolOffset symbolSize : BitVec 32} {relocation : Nat} {store : Store}
    (h : entryStep target data info loadBias symbolOffset symbolSize relocation = .change store) :
    targetRefused target info (u32At data relocation) = false ∧
      store.offset = (u32At data relocation - info.minimumAddress).toNat := by
  unfold entryStep at h
  dsimp only at h
  split_ifs at h with _ _ htarget
  all_goals exact ⟨Bool.eq_false_iff.2 htarget, by rw [← Step.change.inj h]⟩

/-- Where the image ends at address 4 or above, a store is inside it. -/
theorem store_inside (haccepted : Accepted data info) (hmax : 4 ≤ info.maximumAddress.toNat) {store : Store}
    (h : Step.change store ∈ relocationSteps target data info loadBias) : store.offset + 4 ≤ info.imageSize := by
  obtain ⟨symbolOffset, symbolSize, relocation, hentry⟩ := exists_entry_of_mem_steps h
  obtain ⟨htarget, hoffset⟩ := target_of_entryStep hentry
  have hsize := haccepted.imageSize_eq
  have hword := target.uint32_le
  have hlt := info.maximumAddress.isLt
  unfold targetRefused at htarget
  simp only [Bool.or_eq_false_iff, decide_eq_false_iff_not, not_lt] at htarget
  obtain ⟨hge, hle⟩ := htarget
  have hge : info.minimumAddress.toNat ≤ (u32At data relocation).toNat := BitVec.le_def.1 (BitVec.not_lt.1 hge)
  have hbound : (info.maximumAddress.toNat + (target.sizeMax + 1) - 4) % (target.sizeMax + 1) = info.maximumAddress.toNat - 4 := by
    rw [show info.maximumAddress.toNat + (target.sizeMax + 1) - 4 = info.maximumAddress.toNat - 4 + (target.sizeMax + 1) by omega,
      Nat.add_mod_right, Nat.mod_eq_of_lt (by omega)]
  rw [hbound] at hle
  rw [hoffset, BitVec.toNat_sub_of_le (BitVec.le_def.2 hge)]
  omega

/-- Every store of the relocations comes after a refusal. -/
def StoresRefused (target : Target) (data : List (BitVec 8)) (info : ElfInfo) (loadBias : BitVec 32) : Prop :=
  ChangesRefused (relocationSteps target data info loadBias)

/-- The relocations write inside the image exactly when the image ends at address 4 or above, or there is no bias, or every store
comes after a refusal. -/
theorem stores_inside_iff (haccepted : Accepted data info) (loadBias : BitVec 32) :
    (∀ store ∈ relocationStores target data info loadBias, store.offset + 4 ≤ info.imageSize) ↔
      4 ≤ info.maximumAddress.toNat ∨ loadBias = 0 ∨ StoresRefused target data info loadBias := by
  unfold relocationStores StoresRefused
  by_cases hbias : loadBias = 0
  · rw [if_pos hbias]
    exact ⟨fun _ => Or.inr (Or.inl hbias), fun _ _ hmem => nomatch hmem⟩
  rw [if_neg hbias, ← changes_eq_nil_iff]
  rcases Nat.lt_or_ge info.maximumAddress.toNat 4 with hlt | hge
  · have hsize := haccepted.imageSize_eq
    constructor
    · intro hinside
      refine Or.inr (Or.inr (List.eq_nil_iff_forall_not_mem.2 fun store hmem => ?_))
      have := hinside store hmem
      omega
    · rintro (hge | hzero | hnil)
      · omega
      · exact absurd hzero hbias
      · rw [hnil]
        exact fun _ hmem => nomatch hmem
  · exact ⟨fun _ => Or.inl hge, fun _ store hmem => store_inside haccepted hge (mem_of_mem_changes hmem)⟩

/-- Where loading writes inside the image: whenever the platform allocates and prepares its memory, the image ends at address 4 or
above, or there is no bias, or every store comes after a refusal. -/
def LoadInside (target : Target) (platform : Platform) (data : List (BitVec 8)) (info : ElfInfo) : Prop :=
  ∀ executableMemory, platform.executable info.imageSize = some executableMemory →
    4 ≤ info.maximumAddress.toNat ∨ platform.loadBias info executableMemory = 0 ∨
      StoresRefused target data info (platform.loadBias info executableMemory)

/-- Every byte that loading an accepted file writes is inside the image buffer exactly under `LoadInside`. -/
theorem load_writes_inside_iff (target : Target) (platform : Platform) (data : List (BitVec 8)) (info : ElfInfo)
    (hinspect : loaderElfInspect target data Image.blank = .done info .blank) :
    ((loaderElfLoad target platform data).Meets .blank (fun _ image => WritesInside info.imageSize image)
      fun _ image => WritesInside info.imageSize image) ↔ LoadInside target platform data info := by
  have haccepted := ((loaderElfInspect_meets target data Image.blank).of_done hinspect).2
  have hload : loaderElfLoad target platform data .blank = loadInspected target platform data info .blank := by
    show next (loaderElfInspect target data) (loadInspected target platform data) .blank = _
    rw [next, hinspect]
  have hstores : (∀ store ∈ loadStores target platform data info, store.offset + 4 ≤ info.imageSize) ↔
      LoadInside target platform data info := by
    unfold loadStores LoadInside
    cases hexecutable : platform.executable info.imageSize with
    | none => exact ⟨fun _ _ h => (nomatch h), fun _ _ hmem => (nomatch hmem)⟩
    | some executableMemory =>
      refine (stores_inside_iff haccepted _).trans ⟨?_, fun h => h executableMemory rfl⟩
      rintro h _ heq
      obtain rfl := Option.some.inj heq
      exact h
  have hwrites := @loadInspected_meets target platform data info haccepted .blank
  unfold Meets at hwrites ⊢
  rw [hload]
  refine Meets.iff (x := loadInspected target platform data info) (Meets.mono hwrites ?_ ?_)
  · rintro loaded image ⟨_, hiff⟩
    rw [hiff, and_iff_right (writesInside_blank _), hstores]
  · intro _ image hiff
    rw [hiff, and_iff_right (writesInside_blank _), hstores]

/-! ## A small file -/

/-- The bytes of a number of 16 bits, the low one first. -/
def bytes16 (number : BitVec 16) : List (BitVec 8) := [number.setWidth 8, (number >>> 8).setWidth 8]

/-- The bytes of a number of 32 bits, the low one first. -/
def bytes32 (number : BitVec 32) : List (BitVec 8) :=
  [number.setWidth 8, (number >>> 8).setWidth 8, (number >>> 16).setWidth 8, (number >>> 24).setWidth 8]

/-- A section header: its type, flags, offset, size, link, information and entry size. -/
def sectionHeader (type flags offset size link information entrySize : BitVec 32) : List (BitVec 8) :=
  [0, type, flags, 0, offset, size, link, information, 0, entrySize].flatMap bytes32

/-- A file with one executable segment of a text at an address, in a memory of a size, with one symbol of a value and a section, and
one relocation entry of a target address and a type. Section 2 is loaded. -/
def smallElf (address memorySize : BitVec 32) (text : List (BitVec 8)) (symbolValue : BitVec 32) (symbolSection : BitVec 16)
    (targetAddress type : BitVec 32) : List (BitVec 8) :=
  [0x7f, 0x45, 0x4c, 0x46, 1, 1, 1, 0, 0, 0, 0, 0, 0, 0, 0, 0] ++ bytes16 2 ++ bytes16 243 ++ bytes32 1 ++ bytes32 address ++
    bytes32 52 ++ bytes32 84 ++ bytes32 0 ++ bytes16 52 ++ bytes16 32 ++ bytes16 1 ++ bytes16 40 ++ bytes16 3 ++ bytes16 0 ++
    [1, 232, address, address, BitVec.ofNat 32 text.length, memorySize, 5, 1].flatMap bytes32 ++
    sectionHeader 2 0 204 16 0 0 16 ++ sectionHeader 4 0 220 12 0 2 12 ++ sectionHeader 1 2 0 0 0 0 0 ++
    bytes32 0 ++ bytes32 symbolValue ++ bytes32 0 ++ bytes16 0 ++ bytes16 symbolSection ++
    bytes32 targetAddress ++ bytes32 type ++ bytes32 0 ++ text

/-- What an inspection returns of a small file. -/
def smallInfo (address memorySize : BitVec 32) : ElfInfo :=
  { entryAddress := address
    minimumAddress := address
    maximumAddress := address + memorySize
    imageSize := memorySize.toNat
    loadSegmentCount := 1
    applicationAbiVersion := applicationAbiVersion
    requestedHeapBytes := minHeapBytes
    requestedStackBytes := minStackBytes
    capabilities := capabilityConsole
    metadataPresent := false }

/-- A platform that allocates and prepares every image, at another address for code than for data. -/
def Platform.aliased : Platform := ⟨fun _ => true, fun _ => some 0x48000000, fun _ => 0x08000000, fun _ => true⟩

/-- An inspection leaves the state. -/
theorem inspect_done (h : (loaderElfInspect target data Image.blank).value? = some info) :
    loaderElfInspect target data Image.blank = .done info .blank := by
  obtain ⟨image, hdone, rfl, _⟩ := (loaderElfInspect_meets target data Image.blank).of_value? h
  exact hdone

/-- A word of eight bytes at address 16, with an absolute relocation of the first four to section 2. -/
theorem load_writes_inside_small : (loaderElfLoad .bits32 .aliased (smallElf 16 8 [] 16 2 16 1)).Meets .blank
    (fun _ image => WritesInside (smallInfo 16 8).imageSize image) fun _ image => WritesInside (smallInfo 16 8).imageSize image := by
  rw [load_writes_inside_iff .bits32 .aliased _ (smallInfo 16 8) (inspect_done (by decide +kernel))]
  exact fun _ _ => Or.inl (by decide +kernel)

/-- A load that has recorded a write past the end of the buffer does not write inside it. -/
theorem not_inside_of_event {x : Program ElfResult Image LoadedImage} {size : Nat} {events : List Event}
    (hx : (x .blank).state?.map Image.events = some events) (offset length : Nat) (hmem : Event.write offset length ∈ events)
    (hlt : size < offset + length) :
    ¬x.Meets .blank (fun _ image => WritesInside size image) fun _ image => WritesInside size image := by
  intro h
  obtain ⟨image, himage, rfl⟩ := Option.map_eq_some_iff.1 hx
  exact absurd (Meets.of_state? h himage offset length hmem) (Nat.not_le_of_lt hlt)

/-- Two bytes at address 0, with an absolute relocation at address 0: the store writes four bytes. -/
theorem load_writes_outside :
    loaderElfInspect .bits32 (smallElf 0 2 [] 0 2 0 1) Image.blank = .done (smallInfo 0 2) .blank ∧
      ¬(loaderElfLoad .bits32 .aliased (smallElf 0 2 [] 0 2 0 1)).Meets .blank
        (fun _ image => WritesInside (smallInfo 0 2).imageSize image) fun _ image => WritesInside (smallInfo 0 2).imageSize image := by
  have hevents : (loaderElfLoad .bits32 .aliased (smallElf 0 2 [] 0 2 0 1) .blank).state?.map Image.events =
      some [.allocate 2, .write 0 2, .write 0 0, .prepare 2, .write 0 4, .finalize 2] := by decide +kernel
  constructor
  · exact inspect_done (by decide +kernel)
  · exact not_inside_of_event hevents 0 4 (by decide) (by decide +kernel)

end Loader
end TabOS
