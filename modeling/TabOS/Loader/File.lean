import TabOS.Loader.Load

/-!
# Loading from memory and from a file

`loader_elf_load` with its pointers and `loader_elf_load_file`: the image parameter, the buffer of the file and its descriptor. A null
pointer is `none`.
-/

namespace TabOS
namespace Loader

open Library Library.Program

/-- `ELF_MAX_FILE_SIZE`. -/
def elfMaxFileSize : Nat := 2 * 1024 * 1024

/-- The values of `loader_elf_result_t` other than `LOADER_ELF_OK`. -/
inductive LoadError where
  | invalidArgument
  | elf (result : ElfResult)
  | fileOpenFailed
  | fileInvalid
  | fileTooLarge
  | noFileMemory
  | fileReadFailed
  deriving DecidableEq, Repr

/-- What a status says of a file: whether it is a regular one, and its size. -/
structure FileStatus where
  regular : Bool
  size : Nat

/-- The answers to `loader_elf_load_file`: whether `tabos_fs_open` opens a path, the status that `tabos_fs_fstat` gives, whether
`malloc` of a size succeeds, the count and the bytes that each `tabos_fs_read` gives, and whether `tabos_fs_close` succeeds. -/
structure FileAnswers where
  opens : List (BitVec 8) → Bool
  fstat : Option FileStatus
  malloc : Nat → Bool
  read : Nat → Nat → Int
  bytes : Nat → Nat → BitVec 8
  close : Bool

/-- What becomes of the descriptor and the buffer of the file. -/
inductive FileEvent where
  | opened
  | closed
  | allocated
  | freed
  deriving DecidableEq, Repr

/-- The memory of the image, the image parameter, and the events of the file so far. -/
structure LoadState where
  image : Image
  output : Option LoadedImage
  files : List FileEvent

/-- `(loader_elf_image_t) {0}`. -/
def LoadedImage.zero : LoadedImage := ⟨0, 0, 0, .zero⟩

/-- Store to `*image`. -/
def setOutput (value : LoadedImage) : Program LoadError LoadState Unit :=
  modify fun s => { s with output := s.output.map fun _ => value }

/-- Record an event of the file. -/
def recordFile (event : FileEvent) : Program LoadError LoadState Unit :=
  modify fun s => { s with files := s.files ++ [event] }

/-- A program on the memory of the image. -/
def onImage {α : Type} (x : Program ElfResult Image α) : Program LoadError LoadState α := fun s =>
  match x s.image with
  | .wrong => .wrong
  | .refused result image => .refused (.elf result) { s with image := image }
  | .done value image => .done value { s with image := image }

/-- `loader_elf_load`. -/
def loaderElfLoadAt (target : Target) (platform : Platform) (data : Option (List (BitVec 8))) :
    Program LoadError LoadState Unit := do
  let output ← observe LoadState.output
  if output = none then refuse .invalidArgument
  else do
    setOutput .zero
    match data with
    | none => refuse .invalidArgument
    | some data => do
      let loaded ← onImage (loaderElfLoad target platform data)
      setOutput loaded

/-- The loop of `loader_elf_load_file` that reads the file. A loop that has not ended after as many rounds as the file has bytes goes
wrong. -/
def readFile (files : FileAnswers) (size : Nat) : Nat → Nat → List (BitVec 8) → Program LoadError LoadState (List (BitVec 8))
  | 0, _, _ => goWrong
  | fuel + 1, round, data =>
    if data.length < size then
      let count := files.read round (size - data.length)
      if count ≤ 0 ∨ ((size - data.length : Nat) : Int) < count then do
        recordFile .freed
        recordFile .closed
        refuse .fileReadFailed
      else readFile files size fuel (round + 1) (data ++ (List.range count.toNat).map (files.bytes round))
    else return data

/-- `loader_elf_load_file` with a buffer for the file. -/
def loadBuffered (target : Target) (platform : Platform) (files : FileAnswers) (size : Nat) : Program LoadError LoadState Unit := do
  let data ← readFile files size (size + 1) 0 []
  recordFile .closed
  if files.close = false then do
    recordFile .freed
    refuse .fileReadFailed
  else do
    caught (loaderElfLoadAt target platform (some data)) fun error => do
      recordFile .freed
      refuse error
    recordFile .freed

/-- `loader_elf_load_file` with an open file. -/
def loadOpened (target : Target) (platform : Platform) (files : FileAnswers) : Program LoadError LoadState Unit :=
  match files.fstat with
  | none => do
    recordFile .closed
    refuse .fileInvalid
  | some status =>
    if status.regular = false ∨ status.size = 0 ∨ target.sizeMax < status.size then do
      recordFile .closed
      refuse .fileInvalid
    else if elfMaxFileSize < status.size then do
      recordFile .closed
      refuse .fileTooLarge
    else if files.malloc status.size = false then do
      recordFile .closed
      refuse .noFileMemory
    else do
      recordFile .allocated
      loadBuffered target platform files status.size

/-- `loader_elf_load_file`. -/
def loaderElfLoadFile (target : Target) (platform : Platform) (files : FileAnswers) (path : Option (List (BitVec 8))) :
    Program LoadError LoadState Unit := do
  let output ← observe LoadState.output
  if path.getD [] = [] ∨ output = none then refuse .invalidArgument
  else do
    setOutput .zero
    if files.opens (path.getD []) = false then refuse .fileOpenFailed
    else do
      recordFile .opened
      loadOpened target platform files

variable {target : Target} {platform : Platform} {data : List (BitVec 8)} {info : ElfInfo} {image : Image} {s : LoadState}

/-! ## The memory of an image -/

/-- An event by which the platform has allocated memory. -/
def Platform.allocated (platform : Platform) : Event → Bool
  | .allocate size => platform.alloc size
  | _ => false

/-- The memory of some images has been allocated and not freed. -/
def Holds (platform : Platform) (image : Image) (images : Nat) : Prop :=
  image.events.countP platform.allocated = image.events.count .free + images

theorem holds_record {event : Event} (hfree : event ≠ .free) (hallocated : platform.allocated event = false) {images : Nat} :
    Holds platform (image.record event) images ↔ Holds platform image images := by
  have hnone : ¬platform.allocated event = true := by
    rw [hallocated]
    exact Bool.false_ne_true
  unfold Holds Image.record
  rw [List.countP_append, List.count_append, List.countP_singleton, List.count_singleton, if_neg hnone, if_neg (by simpa using hfree)]
  exact Iff.rfl

theorem holds_allocate {size images : Nat} (h : platform.alloc size = true) :
    Holds platform (image.record (.allocate size)) (images + 1) ↔ Holds platform image images := by
  have hallocated : platform.allocated (.allocate size) = true := h
  unfold Holds Image.record
  rw [List.countP_append, List.count_append, List.countP_singleton, List.count_singleton, if_pos hallocated, if_neg (by simp)]
  omega

theorem holds_free {images : Nat} : Holds platform (image.record .free) images ↔ Holds platform image (images + 1) := by
  unfold Holds Image.record
  rw [List.countP_append, List.count_append, List.countP_singleton, List.count_singleton, if_neg (by simp [Platform.allocated]),
    if_pos (by simp)]
  omega

theorem holds_copy {offset images : Nat} {source : List (BitVec 8)} :
    Holds platform (image.copy offset source) images ↔ Holds platform image images := by
  have hrecord : (image.copy offset source).events = (image.record (.write offset source.length)).events := rfl
  unfold Holds
  rw [hrecord]
  exact holds_record (by simp) rfl

theorem holds_storeAll {stores : List Store} {images : Nat} :
    Holds platform (storeAll stores image) images ↔ Holds platform image images := by
  induction stores generalizing image with
  | nil => exact Iff.rfl
  | cons store stores ih => exact ih.trans holds_copy

/-! ## The contents of an image -/

/-- The file bytes of a LOAD segment and the offset they are copied to. -/
structure Segment where
  offset : Nat
  bytes : List (BitVec 8)

/-- The segment of a program header. -/
def segmentOf (data : List (BitVec 8)) (info : ElfInfo) (program : Nat) : Segment :=
  ⟨(segmentAddress data program - info.minimumAddress).toNat,
    (data.drop (segmentOffset data program).toNat).take (segmentFileSize data program).toNat⟩

/-- The LOAD segments of the first program headers, in their order. -/
def loadSegments (data : List (BitVec 8)) (info : ElfInfo) (programs : Nat) : List Segment :=
  ((List.range programs).filter fun index => decide (u32At data (programAt data index) = 1)).map fun index =>
    segmentOf data info (programAt data index)

/-- A buffer onto which a segment has been copied. -/
def Segment.onto (buffer : List (BitVec 8)) (segment : Segment) : List (BitVec 8) :=
  buffer.take segment.offset ++ segment.bytes ++ buffer.drop (segment.offset + segment.bytes.length)

/-- The image of an accepted file: a buffer of zeros onto which its LOAD segments have been copied. -/
def imageOf (data : List (BitVec 8)) (info : ElfInfo) : List (BitVec 8) :=
  (loadSegments data info (programCount data).toNat).foldl Segment.onto (List.replicate info.imageSize 0)

/-- The first bytes of an image. -/
def Image.contents (image : Image) (size : Nat) : List (BitVec 8) := (List.range size).map image.bytes

/-- The image onto which a segment has been copied. -/
def Image.copySegment (image : Image) (segment : Segment) : Image := image.copy segment.offset segment.bytes

theorem contents_copySegment {size : Nat} {segment : Segment} (h : segment.offset + segment.bytes.length ≤ size) :
    (image.copySegment segment).contents size = segment.onto (image.contents size) := by
  have hcontents : ∀ (memory : Image) (a : Nat), (memory.contents size)[a]? = if a < size then some (memory.bytes a) else none := by
    intro memory a
    unfold Image.contents
    rw [List.getElem?_map]
    by_cases hlt : a < size
    · rw [List.getElem?_range hlt, if_pos hlt]
      rfl
    · rw [List.getElem?_eq_none (by rwa [List.length_range, ← Nat.not_lt]), if_neg hlt]
      rfl
  have hcopied : ∀ a, (image.copySegment segment).bytes a =
      if segment.offset ≤ a ∧ a < segment.offset + segment.bytes.length then segment.bytes.getD (a - segment.offset) 0
      else image.bytes a := fun _ => rfl
  have htake : ((image.contents size).take segment.offset).length = segment.offset := by
    rw [List.length_take, Image.contents, List.length_map, List.length_range]
    omega
  refine List.ext_getElem? fun a => ?_
  rw [hcontents, hcopied, Segment.onto, List.getElem?_append, List.length_append, htake, List.getElem?_append, htake,
    List.getElem?_take, List.getElem?_drop, hcontents, hcontents]
  rcases Nat.lt_or_ge a segment.offset with hbefore | hafter
  · rw [if_pos (by omega), if_neg (by omega), if_pos (by omega), if_pos hbefore, if_pos hbefore, if_pos (by omega)]
  rcases Nat.lt_or_ge a (segment.offset + segment.bytes.length) with hinside | hpast
  · rw [if_pos (by omega), if_pos ⟨hafter, hinside⟩, if_pos hinside, if_neg (by omega), List.getD_eq_getElem?_getD,
      List.getElem?_eq_getElem (by omega)]
    rfl
  · have hout : ¬(segment.offset ≤ a ∧ a < segment.offset + segment.bytes.length) := by omega
    rw [if_neg hout, Nat.add_sub_cancel' hpast, if_neg (Nat.not_lt.2 hpast)]

theorem loadSegments_succ (data : List (BitVec 8)) (info : ElfInfo) (n : Nat) : loadSegments data info (n + 1) =
    if u32At data (programAt data n) = 1 then loadSegments data info n ++ [segmentOf data info (programAt data n)]
    else loadSegments data info n := by
  unfold loadSegments
  rw [List.range_succ, List.filter_append, List.map_append]
  by_cases hload : u32At data (programAt data n) = 1
  · rw [if_pos hload, List.filter_cons_of_pos (by simpa using hload)]
    rfl
  · rw [if_neg hload, List.filter_cons_of_neg (by simpa using hload)]
    exact List.append_nil _

/-- The LOAD segments of an accepted file are inside its image. -/
theorem Accepted.segment_inside (haccepted : Accepted data info) {n : Nat} (hn : n ≤ (programCount data).toNat) :
    ∀ segment ∈ loadSegments data info n, segment.offset + segment.bytes.length ≤ info.imageSize := by
  intro segment hmem
  obtain ⟨index, hindex, rfl⟩ := List.mem_map.1 hmem
  obtain ⟨hrange, hload⟩ := List.mem_filter.1 hindex
  have hisLoad : u32At data (programAt data index) = 1 := by simpa using hload
  have hsegment := haccepted.segments index ((List.mem_range.1 hrange).trans_le hn) hisLoad
  have hmin := hsegment.minimum_le
  have hmax := hsegment.le_maximum
  have hfile := hsegment.file_le_memory
  have hsize := haccepted.imageSize_eq
  unfold segmentOf
  dsimp only
  rw [List.length_take, BitVec.toNat_sub_of_le (BitVec.le_def.2 hmin)]
  omega

/-- A round of the loop that copies the segments copies the segment of its program header, if it is a LOAD segment. -/
theorem loadProgram_copies (haccepted : Accepted data info) {index : Nat} (hindex : index < (programCount data).toNat) (image : Image) :
    (loadProgram data info (programAt data index)).Meets image
      (fun _ image' => image' = if u32At data (programAt data index) = 1 then
        image.copySegment (segmentOf data info (programAt data index)) else image) fun _ _ => False := by
  have hprogram := haccepted.programs index hindex
  unfold loadProgram
  simp (disch := omega) only [readU32_eq, pure_bind]
  refine meets_ite (fun hload => (if_neg hload).symm) fun hload => ?_
  have hfile : (u32At data (programAt data index + 4)).toNat + (u32At data (programAt data index + 16)).toNat ≤ data.length :=
    (haccepted.segments index hindex (not_not.1 hload)).file_inside
  rw [readBytes_eq hfile, pure_bind, meets_modify, if_pos (not_not.1 hload)]
  rfl

theorem loadPrograms_copies (haccepted : Accepted data info) (image : Image) :
    (loadPrograms data info).Meets image
      (fun _ image' => image' = (loadSegments data info (programCount data).toNat).foldl Image.copySegment image) fun _ _ => False := by
  have hlength := haccepted.header_le
  unfold loadPrograms
  simp (disch := omega) only [readU32_eq, readU16_eq, pure_bind, programAt_eq]
  refine meets_foldlM_range (fun n _ image' => image' = (loadSegments data info n).foldl Image.copySegment image) rfl ?_
  rintro index _ image' hindex rfl
  refine (loadProgram_copies haccepted hindex _).mono ?_ fun _ _ h => h
  rintro _ image'' rfl
  rw [loadSegments_succ]
  split
  · rw [List.foldl_append]
    rfl
  · rfl

theorem contents_copySegments {size : Nat} {segments : List Segment}
    (h : ∀ segment ∈ segments, segment.offset + segment.bytes.length ≤ size) (image : Image) :
    (segments.foldl Image.copySegment image).contents size = segments.foldl Segment.onto (image.contents size) := by
  induction segments generalizing image with
  | nil => rfl
  | cons segment segments ih =>
    obtain ⟨hsegment, hrest⟩ := List.forall_mem_cons.1 h
    rw [List.foldl_cons, List.foldl_cons, ih hrest, contents_copySegment hsegment]

theorem holds_copySegments {segments : List Segment} {images : Nat} :
    Holds platform (segments.foldl Image.copySegment image) images ↔ Holds platform image images := by
  induction segments generalizing image with
  | nil => exact Iff.rfl
  | cons segment segments ih => exact ih.trans holds_copy

/-! ## Loading from memory -/

/-- The end of loading keeps the memory of the image when it returns, as it is when there is no bias, and frees it otherwise. -/
theorem finishLoad_result (haccepted : Accepted data info) (executableMemory : Nat) {images : Nat}
    (hholds : Holds platform image (images + 1)) :
    (finishLoad target platform data info executableMemory).Meets image
      (fun loaded image' => loaded.info = info ∧ loaded.memory = executableMemory ∧ Holds platform image' (images + 1) ∧
        (platform.loadBias info executableMemory = 0 → image'.bytes = image.bytes))
      fun _ image' => Holds platform image' images := by
  have hfinalize : platform.allocated (.finalize info.imageSize) = false := rfl
  unfold finishLoad
  rw [meets_bind, meets_caught]
  refine (applyRelocations_meets haccepted.header_le haccepted.sections _ image).mono ?_ ?_
  · rintro _ image' ⟨rfl, -⟩
    rw [meets_bind, meets_modify]
    refine meets_ite (fun _ => ⟨rfl, rfl, ?_, fun hbias => ?_⟩) fun _ => ?_
    · exact (holds_record (by simp) hfinalize).2 (holds_storeAll.2 hholds)
    · rw [relocationStores, if_pos hbias]
      rfl
    · exact holds_free.2 ((holds_record (by simp) hfinalize).2 (holds_storeAll.2 hholds))
  · rintro _ image' rfl
    exact holds_free.2 (holds_storeAll.2 hholds)

/-- Loading an accepted file keeps the memory of the image when it returns, with the segments in it when there is no bias, and none
otherwise. -/
theorem loadInspected_result (haccepted : Accepted data info) {images : Nat} (hholds : Holds platform image images) :
    (loadInspected target platform data info).Meets image
      (fun loaded image' => loaded.info = info ∧ Holds platform image' (images + 1) ∧
        (platform.loadBias info loaded.memory = 0 → image'.contents info.imageSize = imageOf data info))
      fun _ image' => Holds platform image' images := by
  have hprepare : platform.allocated (.prepare info.imageSize) = false := rfl
  have hzeros : ((image.record (.allocate info.imageSize)).copy 0 (List.replicate info.imageSize 0)).contents info.imageSize =
      List.replicate info.imageSize 0 := by
    have hcopy := @contents_copySegment (image.record (.allocate info.imageSize)) info.imageSize ⟨0, List.replicate info.imageSize 0⟩
      (by simp)
    refine hcopy.trans ?_
    simp [Segment.onto, Image.contents]
  unfold loadInspected
  rw [meets_bind, meets_modify]
  refine meets_ite (fun halloc => ?_) fun halloc => ?_
  · have hnone : platform.allocated (.allocate info.imageSize) = false := halloc
    exact (holds_record (by simp) hnone).2 hholds
  rw [Bool.not_eq_false] at halloc
  rw [meets_bind, meets_modify, meets_bind]
  refine (loadPrograms_copies haccepted _).mono ?_ fun _ _ h => h.elim
  rintro _ image' rfl
  have hcopied : Holds platform ((loadSegments data info (programCount data).toNat).foldl Image.copySegment
      ((image.record (.allocate info.imageSize)).copy 0 (List.replicate info.imageSize 0))) (images + 1) :=
    holds_copySegments.2 (holds_copy.2 ((holds_allocate halloc).2 hholds))
  have hcontents := contents_copySegments (haccepted.segment_inside (Nat.le_refl _))
    ((image.record (.allocate info.imageSize)).copy 0 (List.replicate info.imageSize 0))
  rw [hzeros, ← imageOf] at hcontents
  rw [meets_bind, meets_modify]
  cases platform.prepare info.imageSize with
  | none => exact holds_free.2 ((holds_record (by simp) hprepare).2 hcopied)
  | some executableMemory =>
    refine (finishLoad_result haccepted executableMemory ((holds_record (by simp) hprepare).2 hcopied)).mono ?_ fun _ _ h => h
    rintro loaded image' ⟨hinfo, rfl, hheld, hbytes⟩
    refine ⟨hinfo, hheld, fun hbias => ?_⟩
    rw [← hcontents, Image.contents, hbytes hbias]
    rfl

theorem loaderElfLoad_result (target : Target) (platform : Platform) (data : List (BitVec 8)) {images : Nat}
    (hholds : Holds platform image images) :
    (loaderElfLoad target platform data).Meets image
      (fun loaded image' => loaderElfInspect target data image = .done loaded.info image ∧ Holds platform image' (images + 1) ∧
        (platform.loadBias loaded.info loaded.memory = 0 → image'.contents loaded.info.imageSize = imageOf data loaded.info))
      fun _ image' => Holds platform image' images := by
  unfold loaderElfLoad
  rw [meets_bind]
  refine (loaderElfInspect_meets target data image).returning.mono ?_ ?_
  · rintro info image' ⟨⟨rfl, haccepted⟩, hinspect⟩
    refine (loadInspected_result haccepted hholds).mono ?_ fun _ _ h => h
    rintro loaded image'' ⟨rfl, hheld, hcontents⟩
    exact ⟨hinspect, hheld, hcontents⟩
  · rintro _ image' rfl
    exact hholds

/-! ## The image parameter and the file -/

theorem meets_onImage {α : Type} {x : Program ElfResult Image α} {Q : α → LoadState → Prop} {E : LoadError → LoadState → Prop} :
    (onImage x).Meets s Q E ↔ x.Meets s.image (fun value image => Q value { s with image := image })
      fun result image => E (.elf result) { s with image := image } := by
  unfold Meets onImage
  cases x s.image <;> exact Iff.rfl

/-- The image parameter, with nothing in it. -/
def LoadState.zeroed (s : LoadState) : Option LoadedImage := s.output.map fun _ => .zero

/-- `loader_elf_load` leaves the file, and when it is refused it holds no more memory and leaves the image parameter zeroed. -/
theorem loaderElfLoadAt_result (target : Target) (platform : Platform) (data : Option (List (BitVec 8))) {images : Nat}
    (hholds : Holds platform s.image images) :
    (loaderElfLoadAt target platform data).Meets s (fun _ s' => Holds platform s'.image (images + 1) ∧ s'.files = s.files)
      fun _ s' => Holds platform s'.image images ∧ s'.files = s.files ∧ s'.output = s.zeroed := by
  unfold loaderElfLoadAt
  rw [meets_bind, meets_observe]
  refine meets_ite (fun hnull => ?_) fun _ => ?_
  · refine ⟨hholds, rfl, ?_⟩
    rw [LoadState.zeroed, hnull]
    rfl
  · rw [meets_bind, setOutput, meets_modify]
    cases data with
    | none => exact ⟨hholds, rfl, rfl⟩
    | some data =>
      rw [meets_bind, meets_onImage]
      refine (loaderElfLoad_result target platform data hholds).mono ?_ ?_
      · rintro loaded image' ⟨-, hheld, -⟩
        exact ⟨hheld, rfl⟩
      · exact fun _ image' hkept => ⟨hkept, rfl, rfl⟩

/-- The file has not been opened, or it has been closed once, and its buffer, if there has been one, freed once. -/
def Released (files : List FileEvent) : Prop :=
  files = [] ∨ files = [.opened, .closed] ∨ files = [.opened, .allocated, .freed, .closed] ∨
    files = [.opened, .allocated, .closed, .freed]

/-- What an error path leaves: no memory, neither of an image nor of a file, and the image parameter zeroed. -/
structure Cleaned (platform : Platform) (output : Option LoadedImage) (s : LoadState) : Prop where
  image : Holds platform s.image 0
  files : Released s.files
  output : s.output = output.map fun _ => .zero

/-- The loop that reads the file ends with all of its bytes, or with the buffer freed and the file closed. -/
theorem readFile_result (files : FileAnswers) {size fuel : Nat} (round : Nat) {data : List (BitVec 8)} (hlength : data.length ≤ size)
    (hfuel : size < data.length + fuel) :
    (readFile files size fuel round data).Meets s (fun _ s' => s' = s)
      fun _ s' => s' = { s with files := s.files ++ [.freed] ++ [.closed] } := by
  induction fuel generalizing round data with
  | zero => exact absurd hfuel (Nat.not_lt_of_le hlength)
  | succ fuel ih =>
    unfold readFile
    refine meets_ite (fun hmore => meets_ite (fun _ => rfl) fun hcount => ?_) fun _ => rfl
    obtain ⟨hpositive, hfits⟩ := not_or.1 hcount
    have hgrown : (data ++ (List.range (files.read round (size - data.length)).toNat).map (files.bytes round)).length =
        data.length + (files.read round (size - data.length)).toNat := by
      rw [List.length_append, List.length_map, List.length_range]
    exact ih _ (by omega) (by omega)

/-- An image parameter that has been zeroed. -/
def LoadState.Zeroed (s : LoadState) : Prop := s.output = s.zeroed

/-- With a buffer for the file, the loading closes the file and frees the buffer. -/
theorem loadBuffered_result (target : Target) (platform : Platform) (files : FileAnswers) (size : Nat)
    (hfiles : s.files = [.opened, .allocated]) (hzeroed : s.Zeroed) (hholds : Holds platform s.image 0) :
    (loadBuffered target platform files size).Meets s (fun _ s' => Released s'.files) fun _ s' => Cleaned platform s.output s' := by
  unfold loadBuffered
  rw [meets_bind]
  refine (readFile_result files 0 (Nat.zero_le _) (by simp)).mono ?_ ?_
  · rintro data t rfl
    rw [meets_bind, recordFile, meets_modify]
    refine meets_ite (fun _ => ?_) fun _ => ?_
    · refine ⟨hholds, ?_, hzeroed⟩
      exact .inr (.inr (.inr (by simp [hfiles])))
    · rw [meets_bind, meets_caught]
      refine (loaderElfLoadAt_result (s := { t with files := t.files ++ [.closed] }) target platform (some data) hholds).mono ?_ ?_
      · rintro _ s' ⟨-, hkept⟩
        exact .inr (.inr (.inr (by simp [hkept, hfiles])))
      · rintro error s' ⟨hheld, hkept, houtput⟩
        refine ⟨hheld, .inr (.inr (.inr ?_)), houtput⟩
        simp [hkept, hfiles]
  · rintro _ _ rfl
    refine ⟨hholds, .inr (.inr (.inl ?_)), hzeroed⟩
    simp [hfiles]

/-- With an open file, the loading closes it. -/
theorem loadOpened_result (target : Target) (platform : Platform) (files : FileAnswers) (hfiles : s.files = [.opened])
    (hzeroed : s.Zeroed) (hholds : Holds platform s.image 0) :
    (loadOpened target platform files).Meets s (fun _ s' => Released s'.files) fun _ s' => Cleaned platform s.output s' := by
  have hclosed : Cleaned platform s.output { s with files := s.files ++ [.closed] } :=
    ⟨hholds, .inr (.inl (by rw [hfiles]; rfl)), hzeroed⟩
  unfold loadOpened
  cases files.fstat with
  | none => exact hclosed
  | some status =>
    refine meets_ite (fun _ => hclosed) fun _ => meets_ite (fun _ => hclosed) fun _ => meets_ite (fun _ => hclosed) fun _ => ?_
    rw [meets_bind, recordFile, meets_modify]
    exact loadBuffered_result target platform files status.size (by rw [hfiles]; rfl) hzeroed hholds

/-! ## What loading results in -/

/-- The state before a load: any memory, any image parameter, and nothing done yet. -/
def LoadState.start (memory : Nat → BitVec 8) (output : Option LoadedImage) : LoadState := ⟨⟨memory, []⟩, output, []⟩

/-- An accepted file that is loaded without a bias gives the buffer of zeros with its LOAD segments. Past the check of its arguments an
error path holds no memory, has closed the file once and leaves the image parameter zeroed, and before it nothing is touched. -/
theorem loading_results (target : Target) (platform : Platform) (files : FileAnswers) (memory : Nat → BitVec 8)
    (output : Option LoadedImage) :
    (∀ data, (loaderElfLoad target platform data).Meets ⟨memory, []⟩
      (fun loaded image => loaderElfInspect target data (⟨memory, []⟩ : Image) = .done loaded.info ⟨memory, []⟩ ∧
        (platform.loadBias loaded.info loaded.memory = 0 → image.contents loaded.info.imageSize = imageOf data loaded.info))
      fun _ _ => True) ∧
    (∀ data, (loaderElfLoadAt target platform data).Meets (.start memory output) (fun _ s => s.files = [])
      fun _ s => Cleaned platform output s) ∧
    ∀ path, (loaderElfLoadFile target platform files path).Meets (.start memory output) (fun _ s => Released s.files)
      fun _ s => if path.getD [] = [] then s = .start memory output else Cleaned platform output s := by
  have hstart : Holds platform ⟨memory, []⟩ 0 := rfl
  refine ⟨fun data => ?_, fun data => ?_, fun path => ?_⟩
  · refine (loaderElfLoad_result target platform data hstart).mono ?_ fun _ _ _ => trivial
    rintro loaded image ⟨hinspect, -, hcontents⟩
    exact ⟨hinspect, hcontents⟩
  · refine (loaderElfLoadAt_result target platform data hstart).mono ?_ ?_
    · rintro _ s ⟨-, hkept⟩
      exact hkept
    · rintro _ s ⟨hheld, hkept, houtput⟩
      exact ⟨hheld, .inl hkept, houtput⟩
  · unfold loaderElfLoadFile
    rw [meets_bind, meets_observe]
    by_cases hpath : path.getD [] = []
    · rw [if_pos (Or.inl hpath), meets_refuse, if_pos hpath]
    simp only [if_neg hpath]
    refine meets_ite (fun hnull => ?_) fun _ => ?_
    · have houtput : output = none := hnull.resolve_left hpath
      subst houtput
      exact ⟨hstart, .inl rfl, rfl⟩
    rw [meets_bind, setOutput, meets_modify]
    have hzeroed : (output.map fun _ => LoadedImage.zero) = (output.map fun _ => LoadedImage.zero).map fun _ => LoadedImage.zero := by
      cases output <;> rfl
    refine meets_ite (fun _ => ⟨hstart, .inl rfl, rfl⟩) fun _ => ?_
    rw [meets_bind, recordFile, meets_modify]
    have hopened := loadOpened_result (s := ⟨⟨memory, []⟩, output.map fun _ => .zero, [.opened]⟩) target platform files rfl hzeroed hstart
    refine hopened.mono (fun _ _ h => h) ?_
    rintro _ s ⟨hheld, hreleased, hkept⟩
    exact ⟨hheld, hreleased, hkept.trans hzeroed.symm⟩

/-- An empty path is refused, and the image parameter is left as it is, not zeroed. -/
theorem empty_path_keeps_image : ∃ (platform : Platform) (files : FileAnswers) (s : LoadState),
    loaderElfLoadFile .bits32 platform files (some []) s = .refused .invalidArgument s ∧ s.output ≠ s.zeroed :=
  ⟨⟨fun _ => true, fun _ => none, id, fun _ => true⟩, ⟨fun _ => true, none, fun _ => true, fun _ _ => 0, fun _ _ => 0, true⟩,
    .start (fun _ => 0) (some ⟨1, 0, 0, .zero⟩), rfl, by decide⟩

end Loader
end TabOS
