import Mathlib.Data.List.FinRange
import Mathlib.Logic.Function.Basic
import TabOS.Fs.Owners

/-!
# File descriptors of an ELF application

An application has a table of its own for the files that it has open, and an entry holds the descriptor of the kernel. The filesystem
frees its slot whatever the storage answers to a close, while `elf_fd_close` keeps the entry if the close failed. The tables agree in a
run in which the storage closes every file of the application, and the first close that fails sets them apart.
-/

namespace TabOS
namespace FileDescriptors

open Library Fs

/-- `ELF_DESCRIPTOR_CAPACITY`. -/
def elfDescriptorCapacity : Nat := 16

/-- `elf_descriptor_t`. -/
structure ElfDescriptor where
  kernelDescriptor : Descriptor
  flags : BitVec 32
  isOpen : Bool
  deriving DecidableEq, Repr

def ElfDescriptor.zero : ElfDescriptor := { kernelDescriptor := 0, flags := 0, isOpen := false }

/-- The filesystem, an application with its descriptors and its working directory, and the descriptors that other users of the
filesystem hold. -/
structure System where
  filesystem : Filesystem
  descriptors : Fin elfDescriptorCapacity → ElfDescriptor
  workingDirectory : CString
  others : List Descriptor

def System.setDescriptor (s : System) (index : Fin elfDescriptorCapacity) (descriptor : ElfDescriptor) : System :=
  { s with descriptors := Function.update s.descriptors index descriptor }

/-- The first entry that is not open; the standard streams have the entries before 3. -/
def freeDescriptor (s : System) : Option (Fin elfDescriptorCapacity) :=
  (List.finRange elfDescriptorCapacity).find? fun index => decide (3 ≤ index.val) && !(s.descriptors index).isOpen

theorem toNat_lt_capacity {descriptor : Int} (h : 3 ≤ descriptor ∧ descriptor < elfDescriptorCapacity) :
    descriptor.toNat < elfDescriptorCapacity := by
  omega

/-- The entry of a descriptor, if it is open. -/
def openDescriptor (s : System) (descriptor : Int) : Option (Fin elfDescriptorCapacity) :=
  if h : 3 ≤ descriptor ∧ descriptor < elfDescriptorCapacity then
    if (s.descriptors ⟨descriptor.toNat, toNat_lt_capacity h⟩).isOpen = true then some ⟨descriptor.toNat, toNat_lt_capacity h⟩ else none
  else none

/-- `elf_fd_open`; no path stands for one that cannot be read. The drives are those that the platform has, and the last argument is what
the storage answers. -/
def elfFdOpen (s : System) (path : Option CString) (flags : BitVec 32) (hasDrive : UInt8 → Bool) (opened : Except Int (BitVec 64)) :
    Int × System :=
  match path.bind fun path => normalized path s.workingDirectory (List.replicate pathMax 0) with
  | none => (-einval, s)
  | some resolved =>
    match freeDescriptor s with
    | none => (-emfile, s)
    | some index =>
      match fsOpen s.filesystem hasDrive (some resolved) opened with
      | (.error error, filesystem) => (-error, { s with filesystem := filesystem })
      | (.ok kernelDescriptor, filesystem) =>
        (index.val, { s with filesystem := filesystem }.setDescriptor index
          { kernelDescriptor := kernelDescriptor, flags := flags, isOpen := true })

/-- `elf_fd_close`; `closed` is what the storage answers. -/
def elfFdClose (s : System) (descriptor : Int) (closed : Int) : Int × System :=
  match openDescriptor s descriptor with
  | none => (-ebadf, s)
  | some index =>
    match fsClose s.filesystem (s.descriptors index).kernelDescriptor closed with
    | (.error error, filesystem) => (-error, { s with filesystem := filesystem })
    | (.ok _, filesystem) => (0, { s with filesystem := filesystem }.setDescriptor index .zero)

/-- A round of the loop over the descriptors in `elf_release_resources`. -/
def releaseDescriptor (closed : Fin elfDescriptorCapacity → Int) (s : System) (index : Fin elfDescriptorCapacity) : System :=
  if 3 ≤ index.val ∧ (s.descriptors index).isOpen = true then
    { s with filesystem := (fsClose s.filesystem (s.descriptors index).kernelDescriptor (closed index)).2 }.setDescriptor index .zero
  else s

/-- The loop over the descriptors in `elf_release_resources`. -/
def elfReleaseDescriptors (s : System) (closed : Fin elfDescriptorCapacity → Int) : System :=
  (List.finRange elfDescriptorCapacity).foldl (releaseDescriptor closed) s

/-- Another user of the filesystem opens a file. -/
def otherOpen (s : System) (hasDrive : UInt8 → Bool) (path : Option CString) (opened : Except Int (BitVec 64)) : System :=
  match fsOpen s.filesystem hasDrive path opened with
  | (.error _, filesystem) => { s with filesystem := filesystem }
  | (.ok descriptor, filesystem) => { s with filesystem := filesystem, others := descriptor :: s.others }

/-- Another user of the filesystem closes a file that it has open. -/
def otherClose (s : System) (descriptor : Descriptor) (closed : Int) : System :=
  if descriptor ∈ s.others then
    { s with
      filesystem := (fsClose s.filesystem descriptor closed).2
      others := s.others.filter fun other => decide (other ≠ descriptor) }
  else s

inductive Operation where
  | open (path : Option CString) (flags : BitVec 32) (hasDrive : UInt8 → Bool) (opened : Except Int (BitVec 64))
  | close (descriptor : Int) (closed : Int)
  | release (closed : Fin elfDescriptorCapacity → Int)
  | otherOpen (hasDrive : UInt8 → Bool) (path : Option CString) (opened : Except Int (BitVec 64))
  | otherClose (descriptor : Descriptor) (closed : Int)

def step (s : System) : Operation → System
  | .open path flags hasDrive opened => (elfFdOpen s path flags hasDrive opened).2
  | .close descriptor closed => (elfFdClose s descriptor closed).2
  | .release closed => elfReleaseDescriptors s closed
  | .otherOpen hasDrive path opened => FileDescriptors.otherOpen s hasDrive path opened
  | .otherClose descriptor closed => FileDescriptors.otherClose s descriptor closed

/-- A filesystem that was just started and an application that `loader_elf_application_create` made. -/
def create (limits : Limits) (storageInit : Bool) (defaultDrive : UInt8) (workingDirectory : CString) : System where
  filesystem := filesystemInit limits storageInit defaultDrive
  descriptors index := { kernelDescriptor := 0, flags := 0, isOpen := decide (index.val < 3) }
  workingDirectory := workingDirectory
  others := []

/-! ## Consistency -/

variable {s : System} {index : Fin elfDescriptorCapacity} {descriptor : Descriptor} {closed : Int}

/-- The entry holds the descriptor of a file. -/
def Holds (s : System) (index : Fin elfDescriptorCapacity) (descriptor : Descriptor) : Prop :=
  3 ≤ index.val ∧ (s.descriptors index).isOpen = true ∧ (s.descriptors index).kernelDescriptor = descriptor

/-- Who holds a descriptor: an entry of the application, or another user. -/
def holds (s : System) : Option (Fin elfDescriptorCapacity) → Descriptor → Prop
  | some index, descriptor => Holds s index descriptor
  | none, descriptor => descriptor ∈ s.others

/-- The tables agree. -/
structure TablesAgree (s : System) : Prop where
  open_iff : ∀ index : Fin elfDescriptorCapacity, 3 ≤ index.val →
    ((s.descriptors index).isOpen = true ↔ (fileForDescriptor s.filesystem (s.descriptors index).kernelDescriptor).isSome = true)
  distinct : ∀ index index' descriptor, Holds s index descriptor → Holds s index' descriptor → index = index'
  covered : ∀ slot generation, Names s.filesystem.files slot generation →
    encode slot generation ∈ s.others ∨ ∃ index, Holds s index (encode slot generation)
  closable : ∀ index descriptor, Holds s index descriptor →
    (elfFdClose s index.val 0).1 = 0 ∧ ((elfFdClose s index.val 0).2.descriptors index).isOpen = false

/-- What every step keeps: the entries and the other users own the open slots, and an entry that is not open is zero. -/
structure Paired (s : System) : Prop where
  owned : Owned s.filesystem.files (holds s)
  zero : ∀ index : Fin elfDescriptorCapacity, 3 ≤ index.val → (s.descriptors index).isOpen = false → s.descriptors index = .zero

/-- The storage closes the file, if the application closes one. -/
def StorageCloses (s : System) : Operation → Prop
  | .close descriptor closed => (openDescriptor s descriptor).isSome = true → closed = 0
  | _ => True

@[simp] theorem setDescriptor_self (s : System) (index : Fin elfDescriptorCapacity) (descriptor : ElfDescriptor) :
    (s.setDescriptor index descriptor).descriptors index = descriptor := Function.update_self _ _ _

theorem setDescriptor_of_ne {index' : Fin elfDescriptorCapacity} (h : index' ≠ index) (s : System) (descriptor : ElfDescriptor) :
    (s.setDescriptor index descriptor).descriptors index' = s.descriptors index' := Function.update_of_ne h _ _

theorem openDescriptor_eq_some {fd : Int} :
    openDescriptor s fd = some index ↔ fd = index.val ∧ 3 ≤ index.val ∧ (s.descriptors index).isOpen = true := by
  unfold openDescriptor
  constructor
  · intro h
    split at h
    · next hrange =>
      split at h
      · next hopen =>
        obtain rfl := Option.some.inj h
        exact ⟨(Int.toNat_of_nonneg (by omega)).symm, by show 3 ≤ fd.toNat; omega, hopen⟩
      · cases h
    · cases h
  · rintro ⟨rfl, hle, hopen⟩
    have hlt := index.isLt
    rw [dif_pos ⟨by omega, by omega⟩]
    exact if_pos hopen

theorem freeDescriptor_eq_some (h : freeDescriptor s = some index) : 3 ≤ index.val ∧ (s.descriptors index).isOpen = false := by
  have hfound := List.find?_some h
  rw [Bool.and_eq_true, decide_eq_true_eq, Bool.not_eq_true'] at hfound
  exact hfound

/-! ## What the calls change -/

/-- A call leaves the system, or puts the descriptor of a slot that it opens into a free entry. -/
theorem elfFdOpen_cases (s : System) (path : Option CString) (flags : BitVec 32) (hasDrive : UInt8 → Bool)
    (opened : Except Int (BitVec 64)) :
    (elfFdOpen s path flags hasDrive opened).2 = s ∨ ∃ index slot content, freeDescriptor s = some index ∧
      firstClosed s.filesystem.files = some slot ∧ (elfFdOpen s path flags hasDrive opened).2 =
        { s with filesystem := { s.filesystem with files := openSlot s.filesystem.files slot content } }.setDescriptor index
          { kernelDescriptor := nextDescriptor s.filesystem.files slot, flags := flags, isOpen := true } := by
  unfold elfFdOpen
  cases path.bind fun path => normalized path s.workingDirectory (List.replicate pathMax 0) with
  | none => exact Or.inl rfl
  | some resolved =>
    cases hfree : freeDescriptor s with
    | none => exact Or.inl rfl
    | some index =>
      dsimp only
      rcases fsOpen_cases s.filesystem hasDrive (some resolved) opened with ⟨error, heq⟩ | ⟨slot, content, hslot, heq⟩
      · rw [heq]
        exact Or.inl rfl
      · rw [heq]
        exact Or.inr ⟨index, slot, content, rfl, hslot, rfl⟩

/-- A call of another user leaves the system, or gives it the descriptor of a slot that it opens. -/
theorem otherOpen_cases (s : System) (hasDrive : UInt8 → Bool) (path : Option CString) (opened : Except Int (BitVec 64)) :
    otherOpen s hasDrive path opened = s ∨ ∃ slot content, firstClosed s.filesystem.files = some slot ∧
      otherOpen s hasDrive path opened =
        { s with
          filesystem := { s.filesystem with files := openSlot s.filesystem.files slot content }
          others := nextDescriptor s.filesystem.files slot :: s.others } := by
  unfold otherOpen
  rcases fsOpen_cases s.filesystem hasDrive path opened with ⟨error, heq⟩ | ⟨slot, content, hslot, heq⟩
  · rw [heq]
    exact Or.inl rfl
  · rw [heq]
    exact Or.inr ⟨slot, content, hslot, rfl⟩

/-- The slot of a file is freed and the entry is cleared. -/
def closeEntry (s : System) (index : Fin elfDescriptorCapacity) (slot : Nat) : System :=
  { s with filesystem := { s.filesystem with files := release s.filesystem.files slot } }.setDescriptor index .zero

/-- The slot of a file is freed and the entry is kept. -/
def loseSlot (s : System) (slot : Nat) : System :=
  { s with filesystem := { s.filesystem with files := release s.filesystem.files slot } }

/-- An open entry is closed if the storage closes the file; else it loses its slot. -/
theorem elfFdClose_of_holds {slot : Nat} (hholds : Holds s index descriptor)
    (hslot : fileForDescriptor s.filesystem descriptor = some slot) (closed : Int) :
    elfFdClose s index.val closed = if closed = 0 then (0, closeEntry s index slot) else (-closed, loseSlot s slot) := by
  obtain ⟨hle, hopen, rfl⟩ := hholds
  have hindex : openDescriptor s index.val = some index := openDescriptor_eq_some.2 ⟨rfl, hle, hopen⟩
  rw [elfFdClose, hindex]
  dsimp only
  rw [fsClose_of_some hslot closed]
  by_cases hclosed : closed = 0
  · rw [if_pos hclosed, if_pos hclosed]
    rfl
  · rw [if_neg hclosed, if_neg hclosed]
    rfl

theorem elfFdClose_of_none {fd : Int} (h : openDescriptor s fd = none) (closed : Int) : (elfFdClose s fd closed).2 = s := by
  rw [elfFdClose, h]

theorem releaseDescriptor_of_holds {closed : Fin elfDescriptorCapacity → Int} {slot : Nat} (hholds : Holds s index descriptor)
    (hslot : fileForDescriptor s.filesystem descriptor = some slot) : releaseDescriptor closed s index = closeEntry s index slot := by
  obtain ⟨hle, hopen, rfl⟩ := hholds
  rw [releaseDescriptor, if_pos ⟨hle, hopen⟩, fsClose_of_some hslot]
  rfl

/-! ## Steps -/

/-- A file of the application is held by the entry that it is put into. -/
theorem holds_setDescriptor {filesystem : Filesystem} {flags : BitVec 32} (hfree : freeDescriptor s = some index)
    (owner : Option (Fin elfDescriptorCapacity)) (other : Descriptor) :
    holds ({ s with filesystem := filesystem }.setDescriptor index { kernelDescriptor := descriptor, flags := flags, isOpen := true })
      owner other ↔ (owner = some index ∧ other = descriptor) ∨ holds s owner other := by
  obtain ⟨hle, hclosed⟩ := freeDescriptor_eq_some hfree
  cases owner with
  | none => exact ⟨Or.inr, fun h => h.resolve_left fun hsome => Option.some_ne_none index hsome.1.symm⟩
  | some index' =>
    unfold holds Holds
    by_cases hindex : index' = index
    · subst hindex
      simp only [setDescriptor_self, hclosed]
      constructor
      · rintro ⟨-, -, rfl⟩
        exact Or.inl ⟨trivial, rfl⟩
      · rintro (⟨-, rfl⟩ | ⟨-, hopen, -⟩)
        · exact ⟨hle, trivial, rfl⟩
        · cases hopen
    · simp only [setDescriptor_of_ne hindex]
      exact ⟨Or.inr, fun h => h.resolve_left fun hsome => hindex (Option.some.inj hsome.1)⟩

/-- A file of another user is held by it. -/
theorem holds_cons {filesystem : Filesystem} (descriptor : Descriptor) (owner : Option (Fin elfDescriptorCapacity)) (other : Descriptor) :
    holds { s with filesystem := filesystem, others := descriptor :: s.others } owner other ↔
      (owner = none ∧ other = descriptor) ∨ holds s owner other := by
  cases owner with
  | none =>
    rw [and_iff_right rfl]
    exact List.mem_cons
  | some index => exact ⟨Or.inr, fun hor => hor.resolve_left fun hnone => Option.some_ne_none index hnone.1⟩

/-- An entry that is cleared holds nothing, and the others hold what they held. -/
theorem Paired.holds_closeEntry (h : Paired s) (hholds : Holds s index descriptor) (slot : Nat)
    (owner : Option (Fin elfDescriptorCapacity)) (other : Descriptor) :
    holds (closeEntry s index slot) owner other ↔ other ≠ descriptor ∧ holds s owner other := by
  have hunique : ∀ owner, holds s owner descriptor → owner = some index :=
    fun owner howner => h.owned.unique owner (some index) descriptor howner hholds
  cases owner with
  | none =>
    refine ⟨fun hother => ⟨?_, hother⟩, And.right⟩
    rintro rfl
    exact Option.some_ne_none index (hunique none hother).symm
  | some index' =>
    by_cases hindex : index' = index
    · subst hindex
      unfold holds Holds closeEntry
      simp only [setDescriptor_self]
      constructor
      · rintro ⟨-, hopen, -⟩
        cases hopen
      · rintro ⟨hne, -, -, rfl⟩
        exact absurd hholds.2.2 hne
    · have hsame : holds (closeEntry s index slot) (some index') other ↔ holds s (some index') other := by
        unfold holds Holds closeEntry
        simp only [setDescriptor_of_ne hindex]
      rw [hsame]
      refine ⟨fun hother => ⟨?_, hother⟩, And.right⟩
      rintro rfl
      exact hindex (Option.some.inj (hunique (some index') hother))

/-- The zero entries stay zero when one is written that is open or zero. -/
theorem Paired.zero_setDescriptor (h : Paired s) {entry : ElfDescriptor} {filesystem : Filesystem}
    (hentry : entry.isOpen = false → entry = .zero) :
    ∀ index' : Fin elfDescriptorCapacity, 3 ≤ index'.val →
      (({ s with filesystem := filesystem }.setDescriptor index entry).descriptors index').isOpen = false →
        ({ s with filesystem := filesystem }.setDescriptor index entry).descriptors index' = .zero := by
  intro index' hle hclosed
  by_cases hindex : index' = index
  · subst hindex
    rw [setDescriptor_self] at hclosed ⊢
    exact hentry hclosed
  · rw [setDescriptor_of_ne hindex] at hclosed ⊢
    exact h.zero index' hle hclosed

/-- An entry that is closed keeps the tables paired. -/
theorem Paired.closeEntry (h : Paired s) {slot : Nat} (hholds : Holds s index descriptor)
    (hslot : fileForDescriptor s.filesystem descriptor = some slot) : Paired (closeEntry s index slot) where
  owned := by
    have howner : holds s (some index) descriptor := hholds
    exact h.owned.release howner hslot (h.holds_closeEntry hholds slot)
  zero := h.zero_setDescriptor fun _ => rfl

/-- An entry that holds a descriptor has a slot. -/
theorem Paired.exists_slot (h : Paired s) (hholds : Holds s index descriptor) :
    ∃ slot, fileForDescriptor s.filesystem descriptor = some slot := by
  have howner : holds s (some index) descriptor := hholds
  obtain ⟨slot, -, -, -, hslot⟩ := h.owned.accepted howner
  exact ⟨slot, hslot⟩

theorem Paired.elfFdOpen (h : Paired s) (path : Option CString) (flags : BitVec 32) (hasDrive : UInt8 → Bool)
    (opened : Except Int (BitVec 64)) : Paired (elfFdOpen s path flags hasDrive opened).2 := by
  rcases elfFdOpen_cases s path flags hasDrive opened with heq | ⟨index, slot, content, hfree, hslot, heq⟩
  · rwa [heq]
  · rw [heq]
    exact ⟨h.owned.openSlot hslot content (holds_setDescriptor hfree), h.zero_setDescriptor (by rintro ⟨⟩)⟩

theorem Paired.elfFdClose (h : Paired s) {fd : Int} (hcloses : (openDescriptor s fd).isSome = true → closed = 0) :
    Paired (elfFdClose s fd closed).2 := by
  cases hindex : openDescriptor s fd with
  | none => rwa [elfFdClose_of_none hindex]
  | some index =>
    obtain ⟨rfl, hle, hopen⟩ := openDescriptor_eq_some.1 hindex
    have hholds : Holds s index (s.descriptors index).kernelDescriptor := ⟨hle, hopen, rfl⟩
    obtain ⟨slot, hslot⟩ := h.exists_slot hholds
    rw [elfFdClose_of_holds hholds hslot, if_pos (hcloses (by rw [hindex]; rfl))]
    exact h.closeEntry hholds hslot

theorem Paired.releaseDescriptor (h : Paired s) (closed : Fin elfDescriptorCapacity → Int) (index : Fin elfDescriptorCapacity) :
    Paired (releaseDescriptor closed s index) := by
  by_cases hopen : 3 ≤ index.val ∧ (s.descriptors index).isOpen = true
  · have hholds : Holds s index (s.descriptors index).kernelDescriptor := ⟨hopen.1, hopen.2, rfl⟩
    obtain ⟨slot, hslot⟩ := h.exists_slot hholds
    rw [releaseDescriptor_of_holds hholds hslot]
    exact h.closeEntry hholds hslot
  · rwa [FileDescriptors.releaseDescriptor, if_neg hopen]

theorem Paired.otherOpen (h : Paired s) (hasDrive : UInt8 → Bool) (path : Option CString) (opened : Except Int (BitVec 64)) :
    Paired (otherOpen s hasDrive path opened) := by
  rcases otherOpen_cases s hasDrive path opened with heq | ⟨slot, content, hslot, heq⟩
  · rwa [heq]
  · rw [heq]
    refine ⟨h.owned.openSlot hslot content (holds_cons (nextDescriptor s.filesystem.files slot)), h.zero⟩

theorem Paired.otherClose (h : Paired s) (descriptor : Descriptor) (closed : Int) : Paired (otherClose s descriptor closed) := by
  by_cases hmem : descriptor ∈ s.others
  · have howner : holds s none descriptor := hmem
    obtain ⟨slot, -, -, -, hslot⟩ := h.owned.accepted howner
    rw [FileDescriptors.otherClose, if_pos hmem, fsClose_of_some hslot]
    refine ⟨h.owned.release howner hslot fun owner other => ?_, h.zero⟩
    cases owner with
    | none =>
      show other ∈ s.others.filter _ ↔ other ≠ descriptor ∧ other ∈ s.others
      rw [List.mem_filter, decide_eq_true_eq, and_comm]
    | some index =>
      refine ⟨fun hother => ⟨?_, hother⟩, And.right⟩
      rintro rfl
      exact Option.some_ne_none index (h.owned.unique (some index) none other hother howner)
  · rwa [FileDescriptors.otherClose, if_neg hmem]

/-- A step in which the storage closes keeps the tables paired. -/
theorem Paired.step (h : Paired s) {op : Operation} (hop : StorageCloses s op) : Paired (step s op) := by
  cases op with
  | «open» path flags hasDrive opened => exact h.elfFdOpen path flags hasDrive opened
  | close fd closed => exact h.elfFdClose hop
  | release closed => exact foldl_invariant Paired (fun s index hs => hs.releaseDescriptor closed index) _ h
  | otherOpen hasDrive path opened => exact h.otherOpen hasDrive path opened
  | otherClose descriptor closed => exact h.otherClose descriptor closed

/-- The tables are paired at the start. -/
theorem paired_create (limits : Limits) (storageInit : Bool) (defaultDrive : UInt8) (workingDirectory : CString) :
    Paired (create limits storageInit defaultDrive workingDirectory) := by
  have hnone : ∀ owner descriptor, ¬holds (create limits storageInit defaultDrive workingDirectory) owner descriptor := by
    intro owner descriptor hholds
    cases owner with
    | none => exact List.not_mem_nil hholds
    | some index =>
      obtain ⟨hle, hopen, -⟩ := hholds
      exact absurd (of_decide_eq_true hopen) (Nat.not_lt.2 hle)
  refine ⟨⟨(List.length_replicate).trans_le limits.maxFiles_le, fun owner descriptor hholds => absurd hholds (hnone owner descriptor),
    fun owner _ descriptor hholds => absurd hholds (hnone owner descriptor), ?_⟩, ?_⟩
  · rintro index generation ⟨slot, hslot, hopen, -⟩
    rw [List.eq_of_mem_replicate (List.mem_of_getElem? hslot)] at hopen
    cases hopen
  · intro index hle _
    show ({ kernelDescriptor := 0, flags := 0, isOpen := decide (index.val < 3) } : ElfDescriptor) = .zero
    rw [decide_eq_false (Nat.not_lt.2 hle)]
    rfl

theorem fileForDescriptor_zero (s : Filesystem) : fileForDescriptor s 0 = none := by
  unfold fileForDescriptor slotForDescriptor
  exact if_pos (Or.inl (by decide))

/-- Tables that are paired agree. -/
theorem Paired.tablesAgree (h : Paired s) : TablesAgree s where
  open_iff index hle := by
    constructor
    · intro hopen
      obtain ⟨slot, hslot⟩ := h.exists_slot ⟨hle, hopen, rfl⟩
      rw [hslot]
      rfl
    · intro haccepted
      by_contra hclosed
      rw [h.zero index hle (Bool.eq_false_iff.2 hclosed), ElfDescriptor.zero, fileForDescriptor_zero] at haccepted
      cases haccepted
  distinct index index' descriptor hholds hholds' := by
    have hsame := h.owned.unique (some index) (some index') descriptor hholds hholds'
    exact Option.some.inj hsame
  covered slot generation hnames := by
    obtain ⟨owner, howner⟩ := h.owned.covered slot generation hnames
    cases owner with
    | none => exact Or.inl howner
    | some index => exact Or.inr ⟨index, howner⟩
  closable index descriptor hholds := by
    obtain ⟨slot, hslot⟩ := h.exists_slot hholds
    rw [elfFdClose_of_holds hholds hslot, if_pos rfl]
    refine ⟨rfl, ?_⟩
    rw [FileDescriptors.closeEntry, setDescriptor_self]
    rfl

/-- A close that the storage fails leaves an entry that cannot be used. -/
theorem Paired.not_tablesAgree (h : Paired s) {fd : Int} (hindex : openDescriptor s fd = some index) (hclosed : closed ≠ 0) :
    ¬TablesAgree (FileDescriptors.elfFdClose s fd closed).2 := by
  obtain ⟨rfl, hle, hopen⟩ := openDescriptor_eq_some.1 hindex
  have hholds : Holds s index (s.descriptors index).kernelDescriptor := ⟨hle, hopen, rfl⟩
  have howner : holds s (some index) (s.descriptors index).kernelDescriptor := hholds
  obtain ⟨slot, hslot⟩ := h.exists_slot hholds
  have hlost : fileForDescriptor (loseSlot s slot).filesystem (s.descriptors index).kernelDescriptor = none :=
    h.owned.not_accepted howner hslot
  rw [elfFdClose_of_holds hholds hslot, if_neg hclosed]
  intro hagree
  have haccepted := (hagree.open_iff index hle).1 hopen
  rw [show (loseSlot s slot).descriptors index = s.descriptors index from rfl, hlost] at haccepted
  cases haccepted

/-! ## Runs -/

/-- The tables agree after every run in which the storage closes each file that the application closes, and a further call keeps them
so exactly if the storage closes the file that it closes. -/
theorem descriptor_tables_agree (limits : Limits) (storageInit : Bool) (defaultDrive : UInt8) (workingDirectory : CString)
    (ops : List Operation) (hops : Along step StorageCloses (create limits storageInit defaultDrive workingDirectory) ops) :
    let s := ops.foldl step (create limits storageInit defaultDrive workingDirectory)
    TablesAgree s ∧ ∀ op, TablesAgree (step s op) ↔ StorageCloses s op := by
  have h : Paired (ops.foldl step (create limits storageInit defaultDrive workingDirectory)) :=
    hops.invariant Paired (fun _ _ hs hop => hs.step hop) (paired_create limits storageInit defaultDrive workingDirectory)
  refine ⟨h.tablesAgree, fun op => ⟨?_, fun hop => (h.step hop).tablesAgree⟩⟩
  intro hagree
  cases op with
  | close fd closed =>
    intro hsome
    obtain ⟨index, hindex⟩ := Option.isSome_iff_exists.1 hsome
    by_contra hclosed
    exact h.not_tablesAgree hindex hclosed hagree
  | _ => trivial

/-- The call that opens `A:/a`. -/
def openSample : Operation := .open (some sampleFile.toCString) 0 (fun _ => true) (.ok 1)

/-- A file is opened and closed. -/
theorem descriptor_tables_agree_closed :
    let s := [openSample, .close 3 0].foldl step (create defaultLimits true 0x41 CanonicalPath.root.toCString)
    TablesAgree s ∧ ∀ op, TablesAgree (step s op) ↔ StorageCloses s op :=
  descriptor_tables_agree defaultLimits true 0x41 CanonicalPath.root.toCString [openSample, .close 3 0]
    ⟨trivial, fun _ => rfl, trivial⟩

/-- A call that opens a file puts it into the free entry. -/
theorem elfFdOpen_of_ok {path resolved : CString} {flags : BitVec 32} {hasDrive : UInt8 → Bool} {opened : Except Int (BitVec 64)}
    {filesystem : Filesystem} (hpath : normalized path s.workingDirectory (List.replicate pathMax 0) = some resolved)
    (hfree : freeDescriptor s = some index)
    (hopened : fsOpen s.filesystem hasDrive (some resolved) opened = (.ok descriptor, filesystem)) :
    (elfFdOpen s (some path) flags hasDrive opened).2 = { s with filesystem := filesystem }.setDescriptor index
      { kernelDescriptor := descriptor, flags := flags, isOpen := true } := by
  rw [elfFdOpen, Option.bind_some, hpath]
  dsimp only
  rw [hfree]
  dsimp only
  rw [hopened]

/-- The first file gets the entry after the standard streams. -/
theorem openDescriptor_sample : ∃ index,
    openDescriptor (step (create defaultLimits true 0x41 CanonicalPath.root.toCString) openSample) 3 = some index := by
  have hlength : sampleFile.toCString.bytes.length < pathMax := by decide
  have hroom : sampleFile.toCString.bytes.length < (List.replicate pathMax (0 : UInt8)).length := by rwa [List.length_replicate]
  have hfree : freeDescriptor (create defaultLimits true 0x41 CanonicalPath.root.toCString) = some ⟨3, by decide⟩ := by decide
  have hslot : firstClosed (filesystemInit defaultLimits true 0x41).files = some 0 := by decide
  have hresolved : resolvePath (filesystemInit defaultLimits true 0x41) (fun _ => true) (some sampleFile.toCString) =
      .ok sampleFile.toCString := resolvePath_canonical CanonicalPath.root rfl rfl rfl hlength rfl
  have hopened : ∃ filesystem descriptor, fsOpen (filesystemInit defaultLimits true 0x41) (fun _ => true) (some sampleFile.toCString)
      (.ok 1) = (.ok descriptor, filesystem) := by
    rw [fsOpen, hresolved]
    dsimp only
    rw [hslot]
    exact ⟨_, _, rfl⟩
  obtain ⟨filesystem, descriptor, hopened⟩ := hopened
  have hstep : step (create defaultLimits true 0x41 CanonicalPath.root.toCString) openSample = _ :=
    elfFdOpen_of_ok (normalized_canonical sampleFile CanonicalPath.root hroom) hfree hopened
  refine ⟨⟨3, by decide⟩, openDescriptor_eq_some.2 ⟨rfl, by decide, ?_⟩⟩
  rw [hstep, setDescriptor_self]

/-- The file is opened, and the storage fails to close it with the error 5. -/
theorem close_error_keeps_entry :
    ¬∀ (limits : Limits) (storageInit : Bool) (defaultDrive : UInt8) (workingDirectory : CString) (ops : List Operation),
      TablesAgree (ops.foldl step (create limits storageInit defaultDrive workingDirectory)) := by
  intro h
  have hpaired : Paired (step (create defaultLimits true 0x41 CanonicalPath.root.toCString) openSample) :=
    (paired_create defaultLimits true 0x41 CanonicalPath.root.toCString).step trivial
  obtain ⟨index, hindex⟩ := openDescriptor_sample
  have hagree := h defaultLimits true 0x41 CanonicalPath.root.toCString [openSample, .close 3 5]
  rw [List.foldl_cons, List.foldl_cons, List.foldl_nil] at hagree
  exact hpaired.not_tablesAgree hindex (by decide : (5 : Int) ≠ 0) hagree

end FileDescriptors
end TabOS
