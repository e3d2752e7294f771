import TabOS.Fs.Normalize
import TabOS.Library.Handles
import TabOS.Library.Run

/-!
# The filesystem

The tables of open files and directories over a storage platform, whose results are parameters of the operations. A failing
operation returns the error that it leaves in `errno`; the lock makes each operation one step. The fallback identity of a file is
its drive and a hash of its path that does not distinguish letter case.
-/

namespace TabOS
namespace Fs

open Library

/-- `tabos_fd_t` and `tabos_dir_t`. -/
abbrev Descriptor := BitVec 32

def enodev : Int := 19
def einval : Int := 22
def enametoolong : Int := 36
def emfile : Int := 24
def ebadf : Int := 9
def exdev : Int := 18
def enotdir : Int := 20

/-- `TABOS_FS_PATH_MAX`. -/
def pathMax : Nat := 512

/-- `TABOS_S_IFDIR`. -/
def ifdir : BitVec 32 := 2

/-- The fields of `file_slot_t` that an open file has. -/
structure FileContent where
  platformFile : BitVec 64
  fallbackDeviceId : BitVec 64
  fallbackFileId : BitVec 64
  deriving DecidableEq, Repr

/-- `tabos_stat_t`. -/
structure Status where
  mode : BitVec 32
  size : BitVec 64
  modifiedTime : BitVec 64
  deviceId : BitVec 64
  fileId : BitVec 64
  deriving DecidableEq, Repr

/-- The number of slots of the tables, which the configuration keeps within a byte. -/
structure Limits where
  maxFiles : Nat
  maxDirectories : Nat
  maxFiles_le : maxFiles ≤ 255
  maxDirectories_le : maxDirectories ≤ 255

abbrev FileTable := List (Slot (BitVec 16) FileContent)

abbrev DirectoryTable := List (Slot (BitVec 16) (BitVec 64))

/-- The static variables of the filesystem. -/
structure Filesystem where
  files : FileTable
  directories : DirectoryTable
  workingDirectory : CString
  initialized : Bool
  mounted : Bool
  deriving DecidableEq

/-! ## Identity and resolution -/

/-- A byte in lower case, as the hash takes it. -/
def foldByte (byte : UInt8) : UInt8 := if isUpper byte then byte - 0x41 + 0x61 else byte

def hashBasis : BitVec 64 := 14695981039346656037

/-- One round of the hash. -/
def mixByte (hash : BitVec 64) (byte : UInt8) : BitVec 64 := (hash ^^^ byte.toBitVec.setWidth 64) * 1099511628211

def fallbackFileId (resolved : CString) : BitVec 64 :=
  let hash := resolved.bytes.foldl (fun hash byte => mixByte hash (foldByte byte)) hashBasis
  if hash = 0 then 1 else hash

def fallbackDeviceId (drive : UInt8) : BitVec 64 := (drive - 0x41 + 1).toBitVec.setWidth 64

/-- `supply_fallback_identity`. -/
def supplyFallbackIdentity (resolved : CString) (status : Status) : Status :=
  if status.fileId ≠ 0 then status
  else { status with deviceId := fallbackDeviceId (resolved.at 0), fileId := fallbackFileId resolved }

/-- `resolve_path`, given the drives that the platform has. -/
def resolvePath (s : Filesystem) (hasDrive : UInt8 → Bool) (path : Option CString) : Except Int CString :=
  if s.initialized = false ∨ s.mounted = false then .error enodev
  else
    match path with
    | none => .error einval
    | some path =>
      match normalized path s.workingDirectory (List.replicate pathMax 0) with
      | none => .error (if path.bytes.length ≥ pathMax then enametoolong else einval)
      | some resolved => if hasDrive (resolved.at 0) then .ok resolved else .error enodev

/-! ## Descriptors -/

/-- `encode_file` and `encode_directory`. -/
def encode (index : Nat) (generation : BitVec 16) : Descriptor :=
  (generation.setWidth 32 <<< 8) ||| BitVec.ofNat 32 (index + 1)

/-- The index of the slot that a descriptor names, in a table of slots with generations of sixteen bits: `file_for_descriptor` and
`directory_for_descriptor`. -/
def slotForDescriptor {α : Type} (slots : List (Slot (BitVec 16) α)) (descriptor : Descriptor) : Option Nat :=
  let encodedIndex := descriptor &&& 0xff
  let generation := (descriptor >>> 8).setWidth 16
  if descriptor.toInt ≤ 0 ∨ encodedIndex = 0 ∨ encodedIndex.toNat > slots.length then none
  else
    match slots[encodedIndex.toNat - 1]? with
    | some slot => if slot.isOpen = true ∧ slot.generation = generation then some (encodedIndex.toNat - 1) else none
    | none => none

def fileForDescriptor (s : Filesystem) (descriptor : Descriptor) : Option Nat := slotForDescriptor s.files descriptor

def directoryForDescriptor (s : Filesystem) (descriptor : Descriptor) : Option Nat := slotForDescriptor s.directories descriptor

/-- `++generation`, which skips zero. -/
def nextGeneration (generation : BitVec 16) : BitVec 16 := if generation + 1 = 0 then generation + 1 + 1 else generation + 1

def generationAt {α : Type} (slots : List (Slot (BitVec 16) α)) (index : Nat) : BitVec 16 :=
  match slots[index]? with
  | some slot => slot.generation
  | none => 0

/-- The descriptor that a slot gets when it is opened. -/
def nextDescriptor {α : Type} (slots : List (Slot (BitVec 16) α)) (index : Nat) : Descriptor :=
  encode index (nextGeneration (generationAt slots index))

/-- Opens a slot under its next generation. -/
def openSlot {α : Type} (slots : List (Slot (BitVec 16) α)) (index : Nat) (content : α) : List (Slot (BitVec 16) α) :=
  acquire slots index ⟨content, nextGeneration (generationAt slots index), true⟩

/-! ## Operations -/

/-- `filesystem_init`, given whether the platform's storage started and its default drive. -/
def filesystemInit (limits : Limits) (storageInit : Bool) (defaultDrive : UInt8) : Filesystem where
  files := List.replicate limits.maxFiles ⟨⟨0, 0, 0⟩, 0, false⟩
  directories := List.replicate limits.maxDirectories ⟨0, 0, false⟩
  workingDirectory :=
    if h : storageInit = true ∧ defaultDrive ≠ 0 then
      { bytes := [defaultDrive, colon, separator]
        terminated := by
          simp only [List.mem_cons, List.not_mem_nil, or_false, not_or]
          exact ⟨h.2.symm, by decide, by decide⟩ }
    else CanonicalPath.root.toCString
  initialized := true
  mounted := storageInit

/-- `tabos_fs_open`; the flags and the mode go to the platform. -/
def fsOpen (s : Filesystem) (hasDrive : UInt8 → Bool) (path : Option CString) (opened : Except Int (BitVec 64)) :
    Except Int Descriptor × Filesystem :=
  match resolvePath s hasDrive path with
  | .error error => (.error error, s)
  | .ok resolved =>
    match firstClosed s.files with
    | none => (.error emfile, s)
    | some index =>
      match opened with
      | .error error => (.error error, s)
      | .ok platformFile =>
        let content := ⟨platformFile, fallbackDeviceId (resolved.at 0), fallbackFileId resolved⟩
        (.ok (nextDescriptor s.files index), { s with files := openSlot s.files index content })

/-- `tabos_fs_close`, given what closing the platform's file returns. -/
def fsClose (s : Filesystem) (descriptor : Descriptor) (closed : Int) : Except Int Unit × Filesystem :=
  match fileForDescriptor s descriptor with
  | none => (.error ebadf, s)
  | some index => (if closed = 0 then .ok () else .error closed, { s with files := release s.files index })

/-- An operation on an open file that leaves the tables, as `tabos_fs_read`, `tabos_fs_write` and `tabos_fs_seek`. -/
def onFile {β : Type} (s : Filesystem) (descriptor : Descriptor) (operation : FileContent → Except Int β) : Except Int β :=
  match fileForDescriptor s descriptor with
  | none => .error ebadf
  | some index =>
    match s.files[index]? with
    | none => .error ebadf
    | some slot => operation slot.content

/-- `tabos_fs_fstat`, given the status that the platform has of the file. -/
def fsFstat (s : Filesystem) (descriptor : Descriptor) (status : Except Int Status) : Except Int Status :=
  onFile s descriptor fun content =>
    match status with
    | .error error => .error error
    | .ok status =>
      if status.fileId = 0 then .ok { status with deviceId := content.fallbackDeviceId, fileId := content.fallbackFileId }
      else .ok status

/-- `tabos_fs_stat`, given the status that the platform has of the path. -/
def fsStat (s : Filesystem) (hasDrive : UInt8 → Bool) (path : Option CString) (status : Except Int Status) : Except Int Status :=
  match resolvePath s hasDrive path with
  | .error error => .error error
  | .ok resolved =>
    match status with
    | .error error => .error error
    | .ok status => .ok (supplyFallbackIdentity resolved status)

/-- What a rename does to the identity of a slot. -/
def renameSlot (oldResolved newResolved : CString) (slot : Slot (BitVec 16) FileContent) : Slot (BitVec 16) FileContent :=
  if slot.isOpen = true ∧ slot.content.fallbackDeviceId = fallbackDeviceId (oldResolved.at 0) ∧
      slot.content.fallbackFileId = fallbackFileId oldResolved then
    { slot with content := { slot.content with fallbackFileId := fallbackFileId newResolved } }
  else slot

/-- `tabos_fs_rename`, given what the platform's rename returns. -/
def fsRename (s : Filesystem) (hasDrive : UInt8 → Bool) (oldPath newPath : Option CString) (renamed : Int) :
    Except Int Unit × Filesystem :=
  match resolvePath s hasDrive oldPath with
  | .error error => (.error error, s)
  | .ok oldResolved =>
    match resolvePath s hasDrive newPath with
    | .error error => (.error error, s)
    | .ok newResolved =>
      if oldResolved.at 0 ≠ newResolved.at 0 then (.error exdev, s)
      else if renamed = 0 then (.ok (), { s with files := s.files.map (renameSlot oldResolved newResolved) })
      else (.error renamed, s)

/-- `tabos_fs_chdir`, given the status that the platform has of the path. -/
def fsChdir (s : Filesystem) (hasDrive : UInt8 → Bool) (path : Option CString) (status : Except Int Status) :
    Except Int Unit × Filesystem :=
  match resolvePath s hasDrive path with
  | .error error => (.error error, s)
  | .ok resolved =>
    match status with
    | .error error => (.error error, s)
    | .ok status => if status.mode &&& ifdir = 0 then (.error enotdir, s) else (.ok (), { s with workingDirectory := resolved })

def fsOpendir (s : Filesystem) (hasDrive : UInt8 → Bool) (path : Option CString) (opened : Except Int (BitVec 64)) :
    Except Int Descriptor × Filesystem :=
  match resolvePath s hasDrive path with
  | .error error => (.error error, s)
  | .ok _ =>
    match firstClosed s.directories with
    | none => (.error emfile, s)
    | some index =>
      match opened with
      | .error error => (.error error, s)
      | .ok platformDirectory =>
        (.ok (nextDescriptor s.directories index), { s with directories := openSlot s.directories index platformDirectory })

def fsClosedir (s : Filesystem) (directory : Descriptor) (closed : Int) : Except Int Unit × Filesystem :=
  match directoryForDescriptor s directory with
  | none => (.error ebadf, s)
  | some index => (if closed = 0 then .ok () else .error closed, { s with directories := release s.directories index })

/-! ## Runs -/

/-- A call of the filesystem, with what the platform answers. -/
inductive Operation where
  | open (hasDrive : UInt8 → Bool) (path : Option CString) (opened : Except Int (BitVec 64))
  | close (descriptor : Descriptor) (closed : Int)
  | rename (hasDrive : UInt8 → Bool) (oldPath newPath : Option CString) (renamed : Int)
  | chdir (hasDrive : UInt8 → Bool) (path : Option CString) (status : Except Int Status)
  | opendir (hasDrive : UInt8 → Bool) (path : Option CString) (opened : Except Int (BitVec 64))
  | closedir (directory : Descriptor) (closed : Int)

/-- What the callers see of the calls that have an effect. -/
inductive Event where
  | opened (descriptor : Descriptor) (resolved : CString)
  | closed (descriptor : Descriptor)
  | renamed (oldResolved newResolved : CString)
  | directoryOpened (descriptor : Descriptor)
  | directoryClosed (descriptor : Descriptor)

/-- The filesystem and the events so far, the latest first. -/
structure Session where
  filesystem : Filesystem
  log : List Event

/-- The events of a call. -/
def eventsOf (s : Filesystem) : Operation → List Event
  | .open hasDrive path opened =>
    match resolvePath s hasDrive path, (fsOpen s hasDrive path opened).1 with
    | .ok resolved, .ok descriptor => [.opened descriptor resolved]
    | _, _ => []
  | .close descriptor _ => if (fileForDescriptor s descriptor).isSome then [.closed descriptor] else []
  | .rename hasDrive oldPath newPath renamed =>
    match resolvePath s hasDrive oldPath, resolvePath s hasDrive newPath, (fsRename s hasDrive oldPath newPath renamed).1 with
    | .ok oldResolved, .ok newResolved, .ok _ => [.renamed oldResolved newResolved]
    | _, _, _ => []
  | .chdir _ _ _ => []
  | .opendir hasDrive path opened =>
    match (fsOpendir s hasDrive path opened).1 with
    | .ok descriptor => [.directoryOpened descriptor]
    | .error _ => []
  | .closedir directory _ => if (directoryForDescriptor s directory).isSome then [.directoryClosed directory] else []

def apply (s : Filesystem) : Operation → Filesystem
  | .open hasDrive path opened => (fsOpen s hasDrive path opened).2
  | .close descriptor closed => (fsClose s descriptor closed).2
  | .rename hasDrive oldPath newPath renamed => (fsRename s hasDrive oldPath newPath renamed).2
  | .chdir hasDrive path status => (fsChdir s hasDrive path status).2
  | .opendir hasDrive path opened => (fsOpendir s hasDrive path opened).2
  | .closedir directory closed => (fsClosedir s directory closed).2

def step (s : Session) (op : Operation) : Session where
  filesystem := apply s.filesystem op
  log := eventsOf s.filesystem op ++ s.log

/-- The session before the first call. -/
def start (limits : Limits) (storageInit : Bool) (defaultDrive : UInt8) : Session where
  filesystem := filesystemInit limits storageInit defaultDrive
  log := []

def run (s : Session) (ops : List Operation) : Session := ops.foldl step s

/-! ## What a call does to a session -/

/-- A canonical path that is no longer than the limit resolves to itself. -/
theorem resolvePath_canonical {s : Filesystem} {hasDrive : UInt8 → Bool} {canonical : CanonicalPath} (workingDirectory : CanonicalPath)
    (hinitialized : s.initialized = true) (hmounted : s.mounted = true) (hworking : s.workingDirectory = workingDirectory.toCString)
    (hlength : canonical.toCString.bytes.length < pathMax) (hdrive : hasDrive canonical.drive = true) :
    resolvePath s hasDrive (some canonical.toCString) = .ok canonical.toCString := by
  have hroom : canonical.toCString.bytes.length < (List.replicate pathMax (0 : UInt8)).length := by rwa [List.length_replicate]
  have hnormalized := normalized_canonical canonical workingDirectory hroom
  have hat : hasDrive (canonical.toCString.at 0) = true := hdrive
  unfold resolvePath
  rw [if_neg (by rw [hinitialized, hmounted]; decide), hworking]
  dsimp only
  rw [hnormalized]
  exact if_pos hat

theorem step_open (s : Session) (hasDrive : UInt8 → Bool) (path : Option CString) (opened : Except Int (BitVec 64)) :
    step s (.open hasDrive path opened) = s ∨ ∃ resolved index platformFile,
      resolvePath s.filesystem hasDrive path = .ok resolved ∧ firstClosed s.filesystem.files = some index ∧
      step s (.open hasDrive path opened) =
        ⟨{ s.filesystem with
            files := openSlot s.filesystem.files index ⟨platformFile, fallbackDeviceId (resolved.at 0), fallbackFileId resolved⟩ },
          .opened (nextDescriptor s.filesystem.files index) resolved :: s.log⟩ := by
  cases hresolved : resolvePath s.filesystem hasDrive path with
  | error error => exact Or.inl (by simp only [step, apply, eventsOf, fsOpen, hresolved, List.nil_append])
  | ok resolved =>
    cases hindex : firstClosed s.filesystem.files with
    | none => exact Or.inl (by simp only [step, apply, eventsOf, fsOpen, hresolved, hindex, List.nil_append])
    | some index =>
      cases opened with
      | error error => exact Or.inl (by simp only [step, apply, eventsOf, fsOpen, hresolved, hindex, List.nil_append])
      | ok platformFile =>
        refine Or.inr ⟨resolved, index, platformFile, rfl, rfl, ?_⟩
        simp only [step, apply, eventsOf, fsOpen, hresolved, hindex, List.singleton_append]

theorem step_close (s : Session) (descriptor : Descriptor) (closed : Int) :
    step s (.close descriptor closed) = s ∨ ∃ index, fileForDescriptor s.filesystem descriptor = some index ∧
      step s (.close descriptor closed) =
        ⟨{ s.filesystem with files := release s.filesystem.files index }, .closed descriptor :: s.log⟩ := by
  cases hindex : fileForDescriptor s.filesystem descriptor with
  | none => exact Or.inl (by simp [step, apply, eventsOf, fsClose, hindex])
  | some index => exact Or.inr ⟨index, rfl, by simp [step, apply, eventsOf, fsClose, hindex]⟩

theorem step_rename (s : Session) (hasDrive : UInt8 → Bool) (oldPath newPath : Option CString) (renamed : Int) :
    step s (.rename hasDrive oldPath newPath renamed) = s ∨ ∃ oldResolved newResolved,
      resolvePath s.filesystem hasDrive oldPath = .ok oldResolved ∧ resolvePath s.filesystem hasDrive newPath = .ok newResolved ∧
      oldResolved.at 0 = newResolved.at 0 ∧ renamed = 0 ∧
      step s (.rename hasDrive oldPath newPath renamed) =
        ⟨{ s.filesystem with files := s.filesystem.files.map (renameSlot oldResolved newResolved) },
          .renamed oldResolved newResolved :: s.log⟩ := by
  cases hold : resolvePath s.filesystem hasDrive oldPath with
  | error error => exact Or.inl (by simp only [step, apply, eventsOf, fsRename, hold, List.nil_append])
  | ok oldResolved =>
    cases hnew : resolvePath s.filesystem hasDrive newPath with
    | error error => exact Or.inl (by simp only [step, apply, eventsOf, fsRename, hold, hnew, List.nil_append])
    | ok newResolved =>
      by_cases hdrive : oldResolved.at 0 = newResolved.at 0
      · by_cases hrenamed : renamed = 0
        · refine Or.inr ⟨oldResolved, newResolved, rfl, rfl, hdrive, hrenamed, ?_⟩
          simp [step, apply, eventsOf, fsRename, hold, hnew, hdrive, hrenamed]
        · exact Or.inl (by simp [step, apply, eventsOf, fsRename, hold, hnew, hdrive, hrenamed])
      · exact Or.inl (by simp [step, apply, eventsOf, fsRename, hold, hnew, hdrive])

theorem step_chdir (s : Session) (hasDrive : UInt8 → Bool) (path : Option CString) (status : Except Int Status) :
    step s (.chdir hasDrive path status) = s ∨ ∃ resolved, resolvePath s.filesystem hasDrive path = .ok resolved ∧
      step s (.chdir hasDrive path status) = ⟨{ s.filesystem with workingDirectory := resolved }, s.log⟩ := by
  cases hresolved : resolvePath s.filesystem hasDrive path with
  | error error => exact Or.inl (by simp only [step, apply, eventsOf, fsChdir, hresolved, List.nil_append])
  | ok resolved =>
    cases status with
    | error error => exact Or.inl (by simp only [step, apply, eventsOf, fsChdir, hresolved, List.nil_append])
    | ok status =>
      by_cases hmode : status.mode &&& ifdir = 0
      · exact Or.inl (by simp only [step, apply, eventsOf, fsChdir, hresolved, if_pos hmode, List.nil_append])
      · exact Or.inr ⟨resolved, rfl, by simp only [step, apply, eventsOf, fsChdir, hresolved, if_neg hmode, List.nil_append]⟩

theorem step_opendir (s : Session) (hasDrive : UInt8 → Bool) (path : Option CString) (opened : Except Int (BitVec 64)) :
    step s (.opendir hasDrive path opened) = s ∨ ∃ index platformDirectory, firstClosed s.filesystem.directories = some index ∧
      step s (.opendir hasDrive path opened) =
        ⟨{ s.filesystem with directories := openSlot s.filesystem.directories index platformDirectory },
          .directoryOpened (nextDescriptor s.filesystem.directories index) :: s.log⟩ := by
  cases hresolved : resolvePath s.filesystem hasDrive path with
  | error error => exact Or.inl (by simp only [step, apply, eventsOf, fsOpendir, hresolved, List.nil_append])
  | ok resolved =>
    cases hindex : firstClosed s.filesystem.directories with
    | none => exact Or.inl (by simp only [step, apply, eventsOf, fsOpendir, hresolved, hindex, List.nil_append])
    | some index =>
      cases opened with
      | error error => exact Or.inl (by simp only [step, apply, eventsOf, fsOpendir, hresolved, hindex, List.nil_append])
      | ok platformDirectory =>
        refine Or.inr ⟨index, platformDirectory, rfl, ?_⟩
        simp only [step, apply, eventsOf, fsOpendir, hresolved, hindex, List.singleton_append]

theorem step_closedir (s : Session) (directory : Descriptor) (closed : Int) :
    step s (.closedir directory closed) = s ∨ ∃ index, directoryForDescriptor s.filesystem directory = some index ∧
      step s (.closedir directory closed) =
        ⟨{ s.filesystem with directories := release s.filesystem.directories index }, .directoryClosed directory :: s.log⟩ := by
  cases hindex : directoryForDescriptor s.filesystem directory with
  | none => exact Or.inl (by simp [step, apply, eventsOf, fsClosedir, hindex])
  | some index => exact Or.inr ⟨index, rfl, by simp [step, apply, eventsOf, fsClosedir, hindex]⟩

end Fs
end TabOS
