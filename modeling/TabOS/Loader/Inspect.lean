import TabOS.Loader.Elf

/-!
# What an accepted file has

Every read of an inspection is inside the input, and an inspection that succeeds has checked the tables of the file: they lie inside
the input, the LOAD segments lie inside the image, and the relocation sections lie inside the input.
-/

namespace TabOS
namespace Loader

open Library Library.Program

variable {σ : Type} {s : σ} {target : Target} {data : List (BitVec 8)} {offset : Nat}

/-! ## The input by value -/

/-- The byte at an offset of the input. -/
def byteAt (data : List (BitVec 8)) (offset : Nat) : BitVec 8 := data.getD offset 0

/-- The value of `read_u16` inside the input. -/
def u16At (data : List (BitVec 8)) (offset : Nat) : BitVec 16 := word16 (byteAt data offset) (byteAt data (offset + 1))

/-- The value of `read_u32` inside the input. -/
def u32At (data : List (BitVec 8)) (offset : Nat) : BitVec 32 :=
  word32 (byteAt data offset) (byteAt data (offset + 1)) (byteAt data (offset + 2)) (byteAt data (offset + 3))

theorem readByte_eq (h : offset < data.length) :
    (readByte data offset : Program ElfResult σ (BitVec 8)) = pure (byteAt data offset) := by
  rw [readByte, byteAt, List.getD_eq_getElem?_getD, List.getElem?_eq_getElem h]
  rfl

theorem readU16_eq (h : offset + 2 ≤ data.length) :
    (readU16 data offset : Program ElfResult σ (BitVec 16)) = pure (u16At data offset) := by
  unfold readU16
  simp (disch := omega) only [readByte_eq, pure_bind, u16At]

theorem readU32_eq (h : offset + 4 ≤ data.length) :
    (readU32 data offset : Program ElfResult σ (BitVec 32)) = pure (u32At data offset) := by
  unfold readU32
  simp (disch := omega) only [readByte_eq, pure_bind, u32At]

theorem readBytes_eq {length : Nat} (h : offset + length ≤ data.length) :
    (readBytes data offset length : Program ElfResult σ (List (BitVec 8))) = pure ((data.drop offset).take length) := by
  rw [readBytes, if_pos h]

/-! ## Ranges and tables -/

theorem rangeValid_iff {offset length total : Nat} : rangeValid offset length total = true ↔ offset + length ≤ total := by
  unfold rangeValid
  rw [Bool.and_eq_true, decide_eq_true_iff, decide_eq_true_iff]
  omega

/-- The entries of a valid table lie inside the input. -/
theorem tableValid_entry {offset : BitVec 32} {count entrySize : BitVec 16} {total index : Nat}
    (h : tableValid target offset count entrySize total = true) (hindex : index < count.toNat) :
    offset.toNat + index * entrySize.toNat + entrySize.toNat ≤ total := by
  unfold tableValid at h
  have hcount : count ≠ 0 := by
    rintro rfl
    exact absurd hindex (Nat.not_lt_zero _)
  rw [decide_eq_false hcount, Bool.false_or, Bool.and_eq_true, rangeValid_iff] at h
  have hle : (index + 1) * entrySize.toNat ≤ count.toNat * entrySize.toNat := Nat.mul_le_mul_right _ hindex
  rw [Nat.succ_mul] at hle
  omega

/-- The offset of a section header. -/
def sectionAt (data : List (BitVec 8)) (index : Nat) : Nat := (u32At data 32).toNat + index * (u16At data 46).toNat

/-- The number of sections. -/
def sectionCount (data : List (BitVec 8)) : BitVec 16 := u16At data 48

/-- The offset of a program header. -/
def programAt (data : List (BitVec 8)) (index : Nat) : Nat := (u32At data 28).toNat + index * (u16At data 42).toNat

/-- The number of program headers. -/
def programCount (data : List (BitVec 8)) : BitVec 16 := u16At data 44

theorem sectionAt_eq (data : List (BitVec 8)) (index : Nat) :
    (u32At data 32).toNat + index * (u16At data 46).toNat = sectionAt data index := rfl

theorem sectionCount_eq (data : List (BitVec 8)) : u16At data 48 = sectionCount data := rfl

/-- What `inspect_sections` checks of a section: it lies inside the input, and, if it holds relocations with addends, its entries
have their size and lie inside the input. -/
structure SectionValid (data : List (BitVec 8)) (header : Nat) : Prop where
  header_le : header + 40 ≤ data.length
  relocations : u32At data (header + 4) = 4 → u32At data (header + 36) = 12 ∧ (u32At data (header + 20)).toNat % 12 = 0 ∧
    (u32At data (header + 16)).toNat + (u32At data (header + 20)).toNat ≤ data.length

theorem inspectSection_meets {header : Nat} (h : header + 40 ≤ data.length) :
    (inspectSection data header).Meets s (fun _ t => t = s ∧ SectionValid data header) fun _ t => t = s := by
  unfold inspectSection
  simp (disch := omega) only [readU32_eq, pure_bind]
  refine meets_ite (fun _ => rfl) fun _ => meets_ite (fun _ => rfl) fun hrelocations => ⟨rfl, h, fun htype => ?_⟩
  simp only [not_and_or, not_or, not_not, Bool.not_eq_false] at hrelocations
  rcases hrelocations with hne | ⟨hentry, hsize, hrange⟩
  · exact absurd htype hne
  · rw [hentry] at hsize
    exact ⟨hentry, by simpa using congrArg BitVec.toNat hsize, rangeValid_iff.1 hrange⟩

/-- The sections are valid. -/
def SectionsValid (data : List (BitVec 8)) : Prop :=
  ∀ index < (sectionCount data).toNat, SectionValid data (sectionAt data index)

theorem inspectSections_meets (h : 52 ≤ data.length) :
    (inspectSections target data).Meets s (fun _ t => t = s ∧ SectionsValid data) fun _ t => t = s := by
  unfold inspectSections
  simp (disch := omega) only [readU32_eq, readU16_eq, pure_bind]
  refine meets_ite (fun _ => rfl) fun htable => ?_
  simp only [not_or, not_and_or, not_not, Bool.not_eq_false] at htable
  obtain ⟨htable, hentry⟩ := htable
  refine (meets_foldlM_range
    (fun n _ t => t = s ∧ ∀ index < n, SectionValid data (sectionAt data index)) ⟨rfl, fun _ h0 => absurd h0 (Nat.not_lt_zero _)⟩ ?_)
  rintro index _ t hindex ⟨rfl, hsections⟩
  have hrange := tableValid_entry htable hindex
  have hsize : u16At data 46 = 40 := hentry.resolve_left fun hzero => hzero (by bv_omega)
  have hheader : sectionAt data index + 40 ≤ data.length := by
    rw [hsize] at hrange
    rw [sectionAt, hsize]
    exact hrange
  refine (inspectSection_meets hheader).mono ?_ fun _ _ ht => ht
  rintro _ t ⟨rfl, hsection⟩
  refine ⟨rfl, fun i hi => ?_⟩
  rcases Nat.lt_succ_iff_lt_or_eq.1 hi with hlt | rfl
  · exact hsections i hlt
  · exact hsection

/-! ## Metadata -/

/-- The requests for heap and stack are inside their limits and aligned. -/
structure ResourcesValid (info : ElfInfo) : Prop where
  heap_ge : minHeapBytes ≤ info.requestedHeapBytes
  heap_le : info.requestedHeapBytes ≤ maxHeapBytes
  heap_aligned : info.requestedHeapBytes % 4096 = 0
  stack_ge : minStackBytes ≤ info.requestedStackBytes
  stack_le : info.requestedStackBytes ≤ maxStackBytes
  stack_aligned : info.requestedStackBytes % 16 = 0

/-- The defaults meet the limits of a request. -/
theorem legacyMetadata_valid (info : ElfInfo) : ResourcesValid (legacyMetadata info) := by
  constructor <;> dsimp only [legacyMetadata] <;> decide

theorem inspectDescriptor_meets {descriptor : Nat} (h : descriptor + 32 ≤ data.length) (info : ElfInfo) :
    (inspectDescriptor data descriptor info).Meets s (fun info' t => t = s ∧ ResourcesValid info') fun _ t => t = s := by
  unfold inspectDescriptor
  simp (disch := omega) only [readU32_eq, pure_bind]
  refine meets_ite (fun _ => rfl) fun _ => meets_ite (fun _ => rfl) fun hlimits => ⟨rfl, ?_⟩
  simp only [not_or, not_lt, ne_eq, not_not] at hlimits
  obtain ⟨hheap, hheap', halign, hstack, hstack', halign', _⟩ := hlimits
  exact ⟨hheap, hheap', halign, hstack, hstack', halign'⟩

theorem alignedFour_eq {value : BitVec 32} {padded : Nat} (h : alignedFour target value = some padded) :
    padded = (value.toNat + 3) / 4 * 4 ∧ value.toNat ≤ target.sizeMax - 3 := by
  unfold alignedFour at h
  split at h
  · nomatch h
  · rename_i hle
    exact ⟨(Option.some.inj h).symm, Nat.le_of_not_lt hle⟩

/-- A note that is accepted lies inside its section. -/
theorem inspectNote_meets {noteOffset noteSize cursor : Nat} (hcursor : cursor < noteSize)
    (hrange : noteOffset + noteSize ≤ data.length) (found : Bool) {info : ElfInfo} (hinfo : ResourcesValid info) :
    (inspectNote target data noteOffset noteSize cursor found info).Meets s
      (fun r t => t = s ∧ cursor + (12 + r.1) ≤ noteSize ∧ ResourcesValid r.2.2) fun _ t => t = s := by
  have hmax := target.uint32_le
  unfold inspectNote
  refine meets_ite (fun _ => rfl) fun hheader => ?_
  simp (disch := omega) only [readU32_eq, pure_bind]
  cases hname : alignedFour target (u32At data (noteOffset + cursor)) with
  | none => exact rfl
  | some namePadded =>
    cases hdesc : alignedFour target (u32At data (noteOffset + cursor + 4)) with
    | none => exact rfl
    | some descPadded =>
      obtain ⟨hname, hnameMax⟩ := alignedFour_eq hname
      obtain ⟨hdesc, hdescMax⟩ := alignedFour_eq hdesc
      refine meets_ite (fun _ => rfl) fun hpayload => ?_
      simp only [not_or, not_lt] at hpayload
      obtain ⟨hwrap, hfits⟩ := hpayload
      have hsum : (namePadded + descPadded) % (target.sizeMax + 1) = namePadded + descPadded := by
        rcases Nat.lt_or_ge (namePadded + descPadded) (target.sizeMax + 1) with hlt | hge
        · exact Nat.mod_eq_of_lt hlt
        · rw [Nat.mod_eq_sub_mod hge, Nat.mod_eq_of_lt (by omega)] at hwrap
          omega
      rw [hsum] at hfits ⊢
      rw [meets_bind]
      have hnamed : (metadataNameMatches data (noteOffset + cursor + 12) (u32At data (noteOffset + cursor))).Meets s
          (fun _ t => t = s) fun _ t => t = s := by
        unfold metadataNameMatches
        refine meets_ite (fun hsix => ?_) fun _ => rfl
        rw [hsix] at hname
        have hsix' : (6 : BitVec 32).toNat = 6 := rfl
        rw [readBytes_eq (by omega), pure_bind]
        exact rfl
      refine hnamed.mono ?_ fun _ _ ht => ht
      rintro named t rfl
      refine meets_ite (fun _ => meets_ite (fun _ => rfl) fun hnote => ?_) fun _ => ⟨rfl, by dsimp only; omega, hinfo⟩
      simp only [not_or, not_not, ne_eq] at hnote
      rw [hnote.2.2] at hdesc
      have hpadded : descPadded = 32 := hdesc
      rw [meets_bind]
      refine (inspectDescriptor_meets (by omega) info).mono ?_ fun _ _ ht => ht
      rintro info' t ⟨rfl, hvalid⟩
      exact ⟨rfl, by dsimp only; omega, hvalid⟩

/-- The loop over the notes of a section reads inside it. -/
theorem inspectNotes_meets {noteOffset noteSize cursor : Nat} (hrange : noteOffset + noteSize ≤ data.length) {state : Bool × ElfInfo}
    (hstate : ResourcesValid state.2) :
    (inspectNotes target data noteOffset noteSize cursor state).Meets s (fun r t => t = s ∧ ResourcesValid r.2)
      fun _ t => t = s := by
  induction hn : noteSize - cursor using Nat.strong_induction_on generalizing cursor state s with
  | _ n ih =>
    rw [inspectNotes]
    refine meets_ite (fun hcursor => ?_) fun _ => ⟨rfl, hstate⟩
    rw [meets_bind]
    refine (inspectNote_meets hcursor hrange state.1 hstate).mono ?_ fun _ _ ht => ht
    rintro ⟨payloadSize, state'⟩ t ⟨rfl, _, hvalid⟩
    exact ih (noteSize - (cursor + (12 + payloadSize))) (by omega) hvalid rfl

theorem inspectMetadata_meets (h : 52 ≤ data.length) (hsections : SectionsValid data) (info : ElfInfo) :
    (inspectMetadata target data info).Meets s (fun info' t => t = s ∧ ResourcesValid info') fun _ t => t = s := by
  unfold inspectMetadata
  simp (disch := omega) only [readU32_eq, readU16_eq, pure_bind]
  rw [meets_bind]
  refine meets_foldlM_range (fun _ (state : Bool × ElfInfo) t => t = s ∧ ResourcesValid state.2)
    ⟨rfl, legacyMetadata_valid info⟩ ?_
  rintro index state t hindex ⟨rfl, hstate⟩
  have hheader := (hsections index hindex).header_le
  unfold sectionAt at hheader
  unfold inspectNoteSection
  simp (disch := omega) only [readU32_eq, pure_bind]
  refine meets_ite (fun _ => ⟨rfl, hstate⟩) fun _ => meets_ite (fun hrange => ?_) fun _ => rfl
  exact inspectNotes_meets (rangeValid_iff.1 hrange) hstate

/-! ## LOAD segments -/

/-- The program header is one of a LOAD segment. -/
def IsLoad (data : List (BitVec 8)) (program : Nat) : Prop := u32At data program = 1

/-- The offset of a segment in the file. -/
def segmentOffset (data : List (BitVec 8)) (program : Nat) : BitVec 32 := u32At data (program + 4)

/-- The virtual address of a segment. -/
def segmentAddress (data : List (BitVec 8)) (program : Nat) : BitVec 32 := u32At data (program + 8)

/-- The size of a segment in the file. -/
def segmentFileSize (data : List (BitVec 8)) (program : Nat) : BitVec 32 := u32At data (program + 16)

/-- The size of a segment in memory. -/
def segmentMemorySize (data : List (BitVec 8)) (program : Nat) : BitVec 32 := u32At data (program + 20)

/-- The segment's bytes lie inside the input and its memory between two addresses. -/
structure SegmentInside (data : List (BitVec 8)) (minimum maximum : BitVec 32) (program : Nat) : Prop where
  file_le_memory : (segmentFileSize data program).toNat ≤ (segmentMemorySize data program).toNat
  file_inside : (segmentOffset data program).toNat + (segmentFileSize data program).toNat ≤ data.length
  minimum_le : minimum.toNat ≤ (segmentAddress data program).toNat
  le_maximum : (segmentAddress data program).toNat + (segmentMemorySize data program).toNat ≤ maximum.toNat

theorem SegmentInside.mono {minimum maximum minimum' maximum' : BitVec 32} {program : Nat}
    (h : SegmentInside data minimum maximum program) (hmin : minimum'.toNat ≤ minimum.toNat)
    (hmax : maximum.toNat ≤ maximum'.toNat) : SegmentInside data minimum' maximum' program :=
  { h with minimum_le := hmin.trans h.minimum_le, le_maximum := h.le_maximum.trans hmax }

/-- The address lies inside an executable LOAD segment. -/
structure ExecutableAt (data : List (BitVec 8)) (program : Nat) (address : BitVec 32) : Prop where
  load : IsLoad data program
  executable : u32At data (program + 24) &&& 1 ≠ 0
  address_ge : (segmentAddress data program).toNat ≤ address.toNat
  address_lt : address.toNat < (segmentAddress data program).toNat + (segmentMemorySize data program).toNat

/-- What the loop over the program headers has collected of the first ones. -/
structure Collected (data : List (BitVec 8)) (entry : BitVec 32) (n : Nat) (bounds : Bounds) : Prop where
  segments : ∀ index < n, IsLoad data (programAt data index) →
    SegmentInside data bounds.minimum bounds.maximum (programAt data index)
  entry : bounds.executableEntry = true → ∃ index < n, ExecutableAt data (programAt data index) entry

theorem segmentInvalid_eq_false {fileOffset virtualAddress fileSize memorySize alignment : BitVec 32} {size : Nat}
    (h : segmentInvalid fileOffset virtualAddress fileSize memorySize alignment size = false) :
    fileSize.toNat ≤ memorySize.toNat ∧ fileOffset.toNat + fileSize.toNat ≤ size ∧
      virtualAddress.toNat + memorySize.toNat < 4294967296 := by
  unfold segmentInvalid at h
  simp only [Bool.or_eq_false_iff, Bool.not_eq_false', decide_eq_false_iff_not, rangeValid_iff] at h
  obtain ⟨⟨⟨⟨hfile, hrange⟩, _⟩, hwrap⟩, _⟩ := h
  exact ⟨by bv_omega, hrange, by bv_omega⟩

/-- A round of the loop over the program headers. -/
theorem inspectProgram_meets {entry : BitVec 32} {n : Nat} {bounds : Bounds} (h : programAt data n + 32 ≤ data.length)
    (hbounds : Collected data entry n bounds) :
    (inspectProgram data entry bounds (programAt data n)).Meets s (fun bounds' t => t = s ∧ Collected data entry (n + 1) bounds')
      fun _ t => t = s := by
  unfold inspectProgram
  simp (disch := omega) only [readU32_eq, pure_bind]
  refine meets_ite (fun _ => rfl) fun _ => meets_ite (fun hload => ?_) fun hload => ?_
  · refine ⟨rfl, fun index hindex hisLoad => ?_, fun hentry => ?_⟩
    · rcases Nat.lt_succ_iff_lt_or_eq.1 hindex with hlt | rfl
      · exact hbounds.segments index hlt hisLoad
      · exact absurd hisLoad hload
    · obtain ⟨index, hindex, hexecutable⟩ := hbounds.entry hentry
      exact ⟨index, Nat.lt_succ_of_lt hindex, hexecutable⟩
  · refine meets_ite (fun _ => rfl) fun hvalid => ⟨rfl, ?_⟩
    rw [Bool.not_eq_true] at hvalid
    obtain ⟨hfile, hrange, hwrap⟩ := segmentInvalid_eq_false hvalid
    have hload' : IsLoad data (programAt data n) := not_not.1 hload
    have hend : (segmentAddress data (programAt data n) + segmentMemorySize data (programAt data n)).toNat =
        (segmentAddress data (programAt data n)).toNat + (segmentMemorySize data (programAt data n)).toNat :=
      BitVec.toNat_add_of_lt hwrap
    refine ⟨fun index hindex hisLoad => ?_, fun hentry => ?_⟩
    · rcases Nat.lt_succ_iff_lt_or_eq.1 hindex with hlt | rfl
      · refine (hbounds.segments index hlt hisLoad).mono ?_ ?_
        · dsimp only
          split
          · bv_omega
          · exact Nat.le_refl _
        · dsimp only
          split
          · bv_omega
          · exact Nat.le_refl _
      · refine ⟨hfile, hrange, ?_, ?_⟩
        · dsimp only
          split
          · exact Nat.le_refl _
          · unfold segmentAddress
            bv_omega
        · rw [← hend]
          dsimp only
          split
          · exact Nat.le_refl _
          · unfold segmentAddress segmentMemorySize
            bv_omega
    · rw [Bool.or_eq_true] at hentry
      rcases hentry with hentry | hentry
      · obtain ⟨index, hindex, hexecutable⟩ := hbounds.entry hentry
        exact ⟨index, Nat.lt_succ_of_lt hindex, hexecutable⟩
      · simp only [Bool.and_eq_true, decide_eq_true_eq] at hentry
        obtain ⟨⟨hflags, hge⟩, hlt⟩ := hentry
        refine ⟨n, Nat.lt_succ_self n, hload', hflags, hge, ?_⟩
        rw [← hend]
        exact hlt

/-! ## Accepted files -/

/-- What a successful inspection has checked, and the information it returns. -/
structure Accepted (data : List (BitVec 8)) (info : ElfInfo) : Prop where
  header_le : 52 ≤ data.length
  programs : ∀ index < (programCount data).toNat, programAt data index + 32 ≤ data.length
  sections : SectionsValid data
  segments : ∀ index < (programCount data).toNat, IsLoad data (programAt data index) →
    SegmentInside data info.minimumAddress info.maximumAddress (programAt data index)
  entry : ∃ index < (programCount data).toNat, ExecutableAt data (programAt data index) info.entryAddress
  minimum_lt : info.minimumAddress.toNat < info.maximumAddress.toNat
  imageSize_eq : info.imageSize = info.maximumAddress.toNat - info.minimumAddress.toNat
  imageSize_le : info.imageSize ≤ elfMaxImageSize
  resources : ResourcesValid info

theorem headerValid_meets (h : 52 ≤ data.length) :
    (headerValid data).Meets s (fun _ t => t = s) fun _ t => t = s := by
  unfold headerValid
  simp (disch := omega) only [readBytes_eq, readU32_eq, readU16_eq, pure_bind]
  exact rfl

/-- An inspection reads inside the input, and what it accepts has been checked. -/
theorem loaderElfInspect_meets (target : Target) (data : List (BitVec 8)) (s : σ) :
    (loaderElfInspect target data).Meets s (fun info t => t = s ∧ Accepted data info) fun _ t => t = s := by
  unfold loaderElfInspect
  refine meets_ite (fun _ => rfl) fun hshort => ?_
  have hlength : 52 ≤ data.length := Nat.le_of_not_lt hshort
  rw [meets_bind]
  refine (headerValid_meets hlength).mono ?_ fun _ _ ht => ht
  rintro valid t rfl
  refine meets_ite (fun _ => rfl) fun _ => ?_
  simp (disch := omega) only [readU32_eq, readU16_eq, pure_bind]
  refine meets_ite (fun _ => rfl) fun htable => ?_
  simp only [not_or, not_not, ne_eq, Bool.not_eq_false] at htable
  obtain ⟨_, hentrySize, htable⟩ := htable
  have hprograms : ∀ index < (programCount data).toNat, programAt data index + 32 ≤ data.length := by
    intro index hindex
    have hentry := tableValid_entry htable hindex
    rw [hentrySize] at hentry
    rw [programAt, hentrySize]
    exact hentry
  rw [meets_bind]
  refine (inspectSections_meets hlength).mono ?_ fun _ _ ht => ht
  rintro _ t ⟨rfl, hsections⟩
  rw [meets_bind]
  refine (inspectMetadata_meets hlength hsections .zero).mono ?_ fun _ _ ht => ht
  rintro info t ⟨rfl, hresources⟩
  rw [meets_bind]
  refine (meets_foldlM_range (fun n bounds t' => t' = t ∧ Collected data (u32At data 24) n bounds) ?_ ?_).mono ?_ fun _ _ ht => ht
  · exact ⟨rfl, fun _ h0 => absurd h0 (Nat.not_lt_zero _), fun h => absurd h (by decide)⟩
  · rintro index bounds t' hindex ⟨rfl, hbounds⟩
    exact inspectProgram_meets (hprograms index hindex) hbounds
  · rintro bounds t' ⟨rfl, hbounds⟩
    unfold finishInspection
    refine meets_ite (fun _ => rfl) fun hempty => meets_ite (fun _ => rfl) fun hentry => meets_ite (fun _ => rfl) fun hlarge => ?_
    simp only [not_or] at hempty
    have hlt : bounds.minimum.toNat < bounds.maximum.toNat := by
      have hle := hempty.2.2
      bv_omega
    have hsize : (bounds.maximum - bounds.minimum).toNat = bounds.maximum.toNat - bounds.minimum.toNat := by bv_omega
    exact ⟨rfl, { header_le := hlength
                  programs := hprograms
                  sections := hsections
                  segments := hbounds.segments
                  entry := hbounds.entry (Bool.not_eq_false _ ▸ hentry)
                  minimum_lt := hlt
                  imageSize_eq := hsize
                  imageSize_le := Nat.le_of_not_lt hlarge
                  resources := { hresources with } }⟩

end Loader
end TabOS
