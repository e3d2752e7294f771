import TabOS.Fs.Filesystem

/-!
# Which descriptors are accepted

The low 24 bits of a descriptor are the encoding of a slot and its generation, and the code compares nothing else of it but its sign.
In a run that closes only descriptors whose other bits are clear, or that name no open slot, a value is accepted exactly if it was
returned and has not been closed since, unless it differs from such a value in its other bits.
-/

namespace TabOS
namespace Fs

open Library

variable {α : Type} {slots : List (Slot (BitVec 16) α)} {descriptor : Descriptor} {index : Nat} {generation : BitVec 16}

/-! ## Encoding -/

/-- The bits of a descriptor that name a slot. -/
def lowBits (descriptor : Descriptor) : Descriptor := descriptor &&& 0xffffff

theorem toNat_encode (hindex : index < 255) (generation : BitVec 16) :
    (encode index generation).toNat = 256 * generation.toNat + (index + 1) := by
  have hgeneration := generation.isLt
  unfold encode
  rw [BitVec.toNat_or, BitVec.toNat_shiftLeft, BitVec.toNat_setWidth, BitVec.toNat_ofNat, Nat.shiftLeft_eq,
    Nat.mod_eq_of_lt (a := index + 1) (by omega), Nat.mod_eq_of_lt (a := generation.toNat) (by omega), Nat.mod_eq_of_lt (by omega),
    Nat.mul_comm]
  exact (Nat.two_pow_add_eq_or_of_lt (i := 8) (by omega) _).symm

theorem toNat_lowBits (descriptor : Descriptor) : (lowBits descriptor).toNat = descriptor.toNat % 16777216 := by
  unfold lowBits
  rw [BitVec.toNat_and]
  exact Nat.and_two_pow_sub_one_eq_mod descriptor.toNat 24

theorem toNat_index (descriptor : Descriptor) : (descriptor &&& 0xff).toNat = descriptor.toNat % 256 := by
  rw [BitVec.toNat_and]
  exact Nat.and_two_pow_sub_one_eq_mod descriptor.toNat 8

theorem toNat_generation (descriptor : Descriptor) : ((descriptor >>> 8).setWidth 16).toNat = descriptor.toNat / 256 % 65536 := by
  rw [BitVec.toNat_setWidth, BitVec.toNat_ushiftRight, Nat.shiftRight_eq_div_pow]

theorem encode_injective {index' : Nat} {generation' : BitVec 16} (hindex : index < 255) (hindex' : index' < 255)
    (h : encode index generation = encode index' generation') : index = index' ∧ generation = generation' := by
  have hnat := congrArg BitVec.toNat h
  rw [toNat_encode hindex, toNat_encode hindex'] at hnat
  exact ⟨by omega, BitVec.eq_of_toNat_eq (by omega)⟩

theorem encode_pos (hindex : index < 255) (generation : BitVec 16) : 0 < (encode index generation).toInt := by
  have hgeneration := generation.isLt
  have hnat := toNat_encode hindex generation
  rw [BitVec.toInt_eq_toNat_of_lt (by omega)]
  omega

theorem lowBits_encode (hindex : index < 255) (generation : BitVec 16) : lowBits (encode index generation) = encode index generation := by
  have hgeneration := generation.isLt
  refine BitVec.eq_of_toNat_eq ?_
  rw [toNat_lowBits, toNat_encode hindex]
  omega

/-- The code accepts a descriptor exactly if it is positive and its low bits are the encoding of an open slot. -/
theorem slotForDescriptor_eq_some_iff (hlength : slots.length ≤ 255) :
    slotForDescriptor slots descriptor = some index ↔
      0 < descriptor.toInt ∧ ∃ generation, Names slots index generation ∧ lowBits descriptor = encode index generation := by
  have hindex := toNat_index descriptor
  have hgeneration := toNat_generation descriptor
  have hlow := toNat_lowBits descriptor
  unfold slotForDescriptor
  dsimp only
  constructor
  · intro h
    split at h
    · cases h
    rename_i hnot
    rw [not_or, not_or] at hnot
    obtain ⟨hpos, hnonzero, hle⟩ := hnot
    split at h
    · rename_i slot hslot
      split at h
      · rename_i hopen
        obtain rfl := Option.some.inj h
        refine ⟨by omega, slot.generation, ⟨slot, hslot, hopen.1, rfl⟩, BitVec.eq_of_toNat_eq ?_⟩
        have hne : (descriptor &&& 0xff).toNat ≠ 0 := fun hzero => hnonzero (BitVec.eq_of_toNat_eq hzero)
        rw [toNat_encode (by omega), hopen.2]
        omega
      · cases h
    · cases h
  · rintro ⟨hpos, generation, hnames, hencode⟩
    have hlt := hnames.lt
    obtain ⟨slot, hslot, hopen, rfl⟩ := hnames
    have hbound := slot.generation.isLt
    rw [hencode, toNat_encode (by omega)] at hlow
    have hsame : (descriptor &&& 0xff).toNat - 1 = index := by omega
    have hgen : slot.generation = (descriptor >>> 8).setWidth 16 := BitVec.eq_of_toNat_eq (by omega)
    have hne : descriptor &&& 0xff ≠ 0 := fun hzero => by
      rw [hzero] at hindex
      change 0 = _ at hindex
      omega
    rw [if_neg (by rw [not_or, not_or]; exact ⟨by omega, hne, by omega⟩), hsame, hslot]
    exact if_pos ⟨hopen, hgen⟩

/-- A descriptor whose bits above the 24 that name a slot are not clear, although the slot is open: it is taken for the slot's own. -/
def Aliases (slots : List (Slot (BitVec 16) α)) (descriptor : Descriptor) : Prop :=
  0 < descriptor.toInt ∧ descriptor ≠ lowBits descriptor ∧ (slotForDescriptor slots (lowBits descriptor)).isSome = true

theorem slotForDescriptor_encode (hlength : slots.length ≤ 255) (hnames : Names slots index generation) :
    slotForDescriptor slots (encode index generation) = some index := by
  have hlt := hnames.lt
  exact (slotForDescriptor_eq_some_iff hlength).2 ⟨encode_pos (by omega) _, generation, hnames, lowBits_encode (by omega) _⟩

/-- A descriptor that is accepted as its own is the encoding of its slot. -/
theorem eq_encode_of_not_aliases (hlength : slots.length ≤ 255) (hindex : slotForDescriptor slots descriptor = some index)
    (hexact : ¬Aliases slots descriptor) : ∃ generation, Names slots index generation ∧ descriptor = encode index generation := by
  obtain ⟨hpos, generation, hnames, hlow⟩ := (slotForDescriptor_eq_some_iff hlength).1 hindex
  refine ⟨generation, hnames, ?_⟩
  by_contra hne
  refine hexact ⟨hpos, fun heq => hne (heq.trans hlow), ?_⟩
  rw [hlow, slotForDescriptor_encode hlength hnames]
  rfl

/-- A descriptor that is taken for another one is accepted, and is the encoding of no slot. -/
theorem Aliases.accepted (h : Aliases slots descriptor) (hlength : slots.length ≤ 255) :
    (slotForDescriptor slots descriptor).isSome = true ∧
      ∀ index generation, Names slots index generation → descriptor ≠ encode index generation := by
  obtain ⟨hpos, hne, hlow⟩ := h
  obtain ⟨index, hindex⟩ := Option.isSome_iff_exists.1 hlow
  obtain ⟨_, generation, hnames, hencode⟩ := (slotForDescriptor_eq_some_iff hlength).1 hindex
  have hsame : lowBits (lowBits descriptor) = lowBits descriptor :=
    BitVec.eq_of_toNat_eq (by simp only [toNat_lowBits, Nat.mod_mod])
  have hsome : slotForDescriptor slots descriptor = some index :=
    (slotForDescriptor_eq_some_iff hlength).2 ⟨hpos, generation, hnames, hsame.symm.trans hencode⟩
  refine ⟨by rw [hsome]; rfl, fun index' generation' hnames' heq => hne ?_⟩
  have hlt := hnames'.lt
  rw [heq, lowBits_encode (by omega)]

/-! ## The invariant -/

/-- The descriptors that are out are the encodings of the open slots. -/
def Accounts (slots : List (Slot (BitVec 16) α)) (uses : List (Use Descriptor)) : Prop :=
  slots.length ≤ 255 ∧ ∀ descriptor, Outstanding descriptor uses ↔ ∃ index generation, Names slots index generation ∧
    descriptor = encode index generation

theorem Accounts.congr {slots' : List (Slot (BitVec 16) α)} {uses : List (Use Descriptor)} (h : Accounts slots uses)
    (hlength : slots'.length = slots.length) (hnames : ∀ index generation, Names slots' index generation ↔ Names slots index generation) :
    Accounts slots' uses := by
  refine ⟨hlength ▸ h.1, fun descriptor => ?_⟩
  rw [h.2]
  simp only [hnames]

/-- A slot that is opened gives out its descriptor. -/
theorem Accounts.openSlot {uses : List (Use Descriptor)} (h : Accounts slots uses) (hindex : firstClosed slots = some index)
    (content : α) : Accounts (openSlot slots index content) (.given (nextDescriptor slots index) :: uses) := by
  refine ⟨(length_acquire _ _ _).trans_le h.1, fun descriptor => ?_⟩
  rw [outstanding_given, h.2]
  unfold Fs.openSlot nextDescriptor
  simp only [names_acquire _ hindex]
  constructor
  · rintro (rfl | ⟨index', generation, hnames, rfl⟩)
    · exact ⟨index, _, Or.inl ⟨rfl, rfl⟩, rfl⟩
    · exact ⟨index', generation, Or.inr hnames, rfl⟩
  · rintro ⟨index', generation, ⟨rfl, rfl⟩ | hnames, rfl⟩
    · exact Or.inl rfl
    · exact Or.inr ⟨index', generation, hnames, rfl⟩

/-- A slot that is closed through its own descriptor takes the descriptor back. -/
theorem Accounts.release {uses : List (Use Descriptor)} (h : Accounts slots uses)
    (hindex : slotForDescriptor slots descriptor = some index) (hexact : ¬Aliases slots descriptor) :
    Accounts (release slots index) (.returned descriptor :: uses) := by
  obtain ⟨generation, hnames, hself⟩ := eq_encode_of_not_aliases h.1 hindex hexact
  have hlength := h.1
  have hlt := hnames.lt
  refine ⟨(length_release _ _).trans_le h.1, fun other => ?_⟩
  rw [outstanding_returned, h.2]
  simp only [names_release]
  constructor
  · rintro ⟨hne, index', generation', hnames', rfl⟩
    refine ⟨index', generation', ⟨?_, hnames'⟩, rfl⟩
    rintro rfl
    rw [hnames'.unique hnames, ← hself] at hne
    exact hne rfl
  · rintro ⟨index', generation', ⟨hne, hnames'⟩, rfl⟩
    have hlt' := hnames'.lt
    refine ⟨fun heq => hne ?_, index', generation', hnames', rfl⟩
    exact (encode_injective (by omega) (by omega) (heq.trans hself)).1

/-- What is accepted is what is out, but for the descriptors that are taken for another one. -/
theorem Accounts.accepted_iff {uses : List (Use Descriptor)} (h : Accounts slots uses) (descriptor : Descriptor) :
    ((slotForDescriptor slots descriptor).isSome = true ↔ Outstanding descriptor uses) ↔ ¬Aliases slots descriptor := by
  rw [h.2]
  constructor
  · intro hiff haliases
    obtain ⟨haccepted, hnone⟩ := haliases.accepted h.1
    obtain ⟨index, generation, hnames, heq⟩ := hiff.1 haccepted
    exact hnone index generation hnames heq
  · intro hexact
    constructor
    · intro hsome
      obtain ⟨index, hindex⟩ := Option.isSome_iff_exists.1 hsome
      obtain ⟨generation, hnames, heq⟩ := eq_encode_of_not_aliases h.1 hindex hexact
      exact ⟨index, generation, hnames, heq⟩
    · rintro ⟨index, generation, hnames, rfl⟩
      rw [slotForDescriptor_encode h.1 hnames]
      rfl

/-! ## Runs -/

/-- The descriptors of files in the events of a session. -/
def fileUses : List Event → List (Use Descriptor)
  | [] => []
  | .opened descriptor _ :: log => .given descriptor :: fileUses log
  | .closed descriptor :: log => .returned descriptor :: fileUses log
  | .renamed _ _ :: log => fileUses log
  | .directoryOpened _ :: log => fileUses log
  | .directoryClosed _ :: log => fileUses log

/-- The descriptors of directories in the events of a session. -/
def directoryUses : List Event → List (Use Descriptor)
  | [] => []
  | .opened _ _ :: log => directoryUses log
  | .closed _ :: log => directoryUses log
  | .renamed _ _ :: log => directoryUses log
  | .directoryOpened descriptor :: log => .given descriptor :: directoryUses log
  | .directoryClosed descriptor :: log => .returned descriptor :: directoryUses log

/-- The call closes nothing through a descriptor that is taken for another one. -/
def ClosesExactly (s : Session) : Operation → Prop
  | .close descriptor _ => ¬Aliases s.filesystem.files descriptor
  | .closedir directory _ => ¬Aliases s.filesystem.directories directory
  | _ => True

/-- Both tables account for the descriptors of the session. -/
structure Accounted (s : Session) : Prop where
  files : Accounts s.filesystem.files (fileUses s.log)
  directories : Accounts s.filesystem.directories (directoryUses s.log)

theorem accounted_start (limits : Limits) (storageInit : Bool) (defaultDrive : UInt8) :
    Accounted (start limits storageInit defaultDrive) := by
  have hempty : ∀ {β : Type} (size : Nat) (content : β), size ≤ 255 →
      Accounts (List.replicate size (⟨content, 0, false⟩ : Slot (BitVec 16) β)) [] := by
    intro β size content hsize
    refine ⟨(List.length_replicate).trans_le hsize, fun descriptor => ⟨fun h => h.elim, ?_⟩⟩
    rintro ⟨index, generation, ⟨slot, hslot, hopen, -⟩, -⟩
    rw [List.eq_of_mem_replicate (List.mem_of_getElem? hslot)] at hopen
    cases hopen
  exact ⟨hempty _ _ limits.maxFiles_le, hempty _ _ limits.maxDirectories_le⟩

theorem renameSlot_isOpen (oldResolved newResolved : CString) (slot : Slot (BitVec 16) FileContent) :
    (renameSlot oldResolved newResolved slot).isOpen = slot.isOpen ∧
      (renameSlot oldResolved newResolved slot).generation = slot.generation := by
  unfold renameSlot
  split <;> exact ⟨rfl, rfl⟩

/-- A rename leaves the slots open that are. -/
theorem names_rename (oldResolved newResolved : CString) (files : FileTable) (index : Nat) (generation : BitVec 16) :
    Names (files.map (renameSlot oldResolved newResolved)) index generation ↔ Names files index generation := by
  unfold Names
  rw [List.getElem?_map]
  constructor
  · rintro ⟨slot, hslot, hopen, rfl⟩
    obtain ⟨old, hold, rfl⟩ := Option.map_eq_some_iff.1 hslot
    obtain ⟨hsame, hgeneration⟩ := renameSlot_isOpen oldResolved newResolved old
    exact ⟨old, hold, hsame ▸ hopen, hgeneration.symm⟩
  · rintro ⟨old, hold, hopen, rfl⟩
    obtain ⟨hsame, hgeneration⟩ := renameSlot_isOpen oldResolved newResolved old
    exact ⟨_, Option.map_eq_some_iff.2 ⟨old, hold, rfl⟩, hsame ▸ hopen, hgeneration⟩

/-- A call that closes exactly keeps the accounts. -/
theorem Accounted.step {s : Session} (h : Accounted s) {op : Operation} (hexact : ClosesExactly s op) : Accounted (step s op) := by
  cases op with
  | «open» hasDrive path opened =>
    rcases step_open s hasDrive path opened with heq | ⟨resolved, index, platformFile, _, hindex, heq⟩
    · rwa [heq]
    · rw [heq]
      exact ⟨h.files.openSlot hindex _, h.directories⟩
  | close descriptor closed =>
    rcases step_close s descriptor closed with heq | ⟨index, hindex, heq⟩
    · rwa [heq]
    · rw [heq]
      exact ⟨h.files.release hindex hexact, h.directories⟩
  | rename hasDrive oldPath newPath renamed =>
    rcases step_rename s hasDrive oldPath newPath renamed with heq | ⟨oldResolved, newResolved, _, _, _, _, heq⟩
    · rwa [heq]
    · rw [heq]
      exact ⟨h.files.congr (List.length_map _) (names_rename oldResolved newResolved _), h.directories⟩
  | chdir hasDrive path status =>
    rcases step_chdir s hasDrive path status with heq | ⟨resolved, _, heq⟩
    · rwa [heq]
    · rw [heq]
      exact ⟨h.files, h.directories⟩
  | opendir hasDrive path opened =>
    rcases step_opendir s hasDrive path opened with heq | ⟨index, platformDirectory, hindex, heq⟩
    · rwa [heq]
    · rw [heq]
      exact ⟨h.files, h.directories.openSlot hindex _⟩
  | closedir directory closed =>
    rcases step_closedir s directory closed with heq | ⟨index, hindex, heq⟩
    · rwa [heq]
    · rw [heq]
      exact ⟨h.files, h.directories.release hindex hexact⟩

/-- In a run that closes nothing through a descriptor that is taken for another one, the descriptors that are accepted are those that
are out, but for the ones that are taken for another one. -/
theorem accepted_iff_outstanding (limits : Limits) (storageInit : Bool) (defaultDrive : UInt8) (ops : List Operation)
    (hops : Along step ClosesExactly (start limits storageInit defaultDrive) ops) (descriptor : Descriptor) :
    let s := run (start limits storageInit defaultDrive) ops
    (((fileForDescriptor s.filesystem descriptor).isSome = true ↔ Outstanding descriptor (fileUses s.log)) ↔
        ¬Aliases s.filesystem.files descriptor) ∧
      (((directoryForDescriptor s.filesystem descriptor).isSome = true ↔ Outstanding descriptor (directoryUses s.log)) ↔
        ¬Aliases s.filesystem.directories descriptor) := by
  have h : Accounted (run (start limits storageInit defaultDrive) ops) :=
    hops.invariant Accounted (fun _ _ hs hexact => hs.step hexact) (accounted_start limits storageInit defaultDrive)
  exact ⟨h.files.accepted_iff descriptor, h.directories.accepted_iff descriptor⟩

/-- The call does not open a slot whose generation is the last one. -/
def OpensUnwrapped (s : Session) : Operation → Prop
  | .open _ _ _ => ∀ index, firstClosed s.filesystem.files = some index → generationAt s.filesystem.files index ≠ 0xffff
  | .opendir _ _ _ => ∀ index, firstClosed s.filesystem.directories = some index → generationAt s.filesystem.directories index ≠ 0xffff
  | _ => True

/-- The default configuration of the tables. -/
def defaultLimits : Limits := ⟨32, 8, by decide, by decide⟩

theorem isUpper_first : isUpper 0x41 = true := rfl

theorem sampleFile_valid : ∀ name ∈ [[(0x61 : UInt8)]], ValidName name := by decide

/-- The path `A:/a`. -/
def sampleFile : CanonicalPath := ⟨0x41, [[0x61]], isUpper_first, sampleFile_valid⟩

/-- The call that opens a canonical path, and succeeds. -/
def openCanonical (canonical : CanonicalPath) : Operation := .open (fun _ => true) (some canonical.toCString) (.ok 1)

/-- The events and the session after a canonical path has been opened first. -/
theorem step_openCanonical {canonical : CanonicalPath} (hlength : canonical.toCString.bytes.length < pathMax) :
    eventsOf (start defaultLimits true 0x41).filesystem (openCanonical canonical) = [.opened 0x101 canonical.toCString] ∧
      step (start defaultLimits true 0x41) (openCanonical canonical) =
        ⟨{ (start defaultLimits true 0x41).filesystem with
            files := openSlot (start defaultLimits true 0x41).filesystem.files 0
              ⟨1, fallbackDeviceId canonical.drive, fallbackFileId canonical.toCString⟩ },
          [.opened 0x101 canonical.toCString]⟩ := by
  have hresolved : resolvePath (start defaultLimits true 0x41).filesystem (fun _ => true) (some canonical.toCString) =
      .ok canonical.toCString := resolvePath_canonical CanonicalPath.root rfl rfl rfl hlength rfl
  have hindex : firstClosed (start defaultLimits true 0x41).filesystem.files = some 0 := by decide
  have hdescriptor : nextDescriptor (start defaultLimits true 0x41).filesystem.files 0 = 0x101 := by decide
  unfold openCanonical
  constructor
  · simp only [eventsOf, fsOpen, hresolved, hindex, hdescriptor]
  · simp only [step, apply, eventsOf, fsOpen, hresolved, hindex, hdescriptor, List.singleton_append]
    rfl

/-- A run that opens a file, closes it and opens it again. -/
theorem accepted_iff_outstanding_reopened :
    let s := run (start defaultLimits true 0x41) [openCanonical sampleFile, .close 0x101 0, openCanonical sampleFile]
    (((fileForDescriptor s.filesystem 0x201).isSome = true ↔ Outstanding 0x201 (fileUses s.log)) ↔
        ¬Aliases s.filesystem.files 0x201) ∧
      (((directoryForDescriptor s.filesystem 0x201).isSome = true ↔ Outstanding 0x201 (directoryUses s.log)) ↔
        ¬Aliases s.filesystem.directories 0x201) :=
  accepted_iff_outstanding defaultLimits true 0x41 [openCanonical sampleFile, .close 0x101 0, openCanonical sampleFile]
    ⟨trivial, fun h => h.2.1 rfl, trivial, trivial⟩ 0x201

/-- Once `A:/a` is open, a value that was not returned is accepted. -/
theorem unreturned_descriptor_accepted :
    ¬∀ (limits : Limits) (storageInit : Bool) (defaultDrive : UInt8) (ops : List Operation) (descriptor : Descriptor),
      let s := run (start limits storageInit defaultDrive) ops
      Along step OpensUnwrapped (start limits storageInit defaultDrive) ops →
        ((fileForDescriptor s.filesystem descriptor).isSome = true ↔ Outstanding descriptor (fileUses s.log)) ∧
          ((directoryForDescriptor s.filesystem descriptor).isSome = true ↔ Outstanding descriptor (directoryUses s.log)) := by
  intro h
  have hunwrapped : Along step OpensUnwrapped (start defaultLimits true 0x41) [openCanonical sampleFile] := by
    refine ⟨fun index hindex => ?_, trivial⟩
    have hzero : firstClosed (start defaultLimits true 0x41).filesystem.files = some 0 := by decide
    rw [hzero] at hindex
    obtain rfl := Option.some.inj hindex
    decide
  obtain ⟨hiff, -⟩ := h defaultLimits true 0x41 [openCanonical sampleFile] 0x1000101 hunwrapped
  rw [run, List.foldl_cons, List.foldl_nil, (step_openCanonical (by decide)).2] at hiff
  have hout := hiff.1 (by decide)
  rcases hout with heq | hnone
  · exact absurd heq (by decide)
  · exact hnone

end Fs
end TabOS
