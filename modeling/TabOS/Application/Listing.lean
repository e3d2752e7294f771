import TabOS.Library.Iterator

/-!
# Directory listings

`loader_elf_application_list_directory` writes the entries of a directory into a buffer of the program, and `tabos_posix_opendir` and
`tabos_posix_readdir` of the SDK read them there. A read of the buffer outside the listing is a result of its own.
-/

namespace TabOS
namespace Listing

open Library

/-- `TABOS_FS_NAME_MAX`. -/
def fsNameMax : Nat := 255

/-- The size of the listing in `tabos_posix_dir_t`. -/
def listingCapacity : Nat := 4096

/-- `TABOS_S_IFDIR`. -/
def sIfdir : Nat := 2

def eio : Int := 5
def einval : Int := 22
def enospc : Int := 28
def enametoolong : Int := 36

/-- `tabos_dirent_t`; the name is what comes before its terminator. -/
structure Dirent where
  name : List UInt8
  mode : Nat
  deriving DecidableEq, Repr

def Dirent.isDirectory (entry : Dirent) : Bool := decide (entry.mode &&& sIfdir ≠ 0)

/-- The error numbers that the filesystem sets. -/
abbrev Errno := { error : Nat // 0 < error }

/-! ## The encoder -/

def typeDirectory : UInt8 := 68
def typeFile : UInt8 := 70
def slash : UInt8 := 47

/-- What is written for an entry. -/
def encodeEntry (entry : Dirent) : List UInt8 :=
  (if entry.isDirectory = true then typeDirectory else typeFile) :: UInt8.ofNat (entry.name.length &&& 0xff) ::
    UInt8.ofNat (entry.name.length >>> 8) :: entry.name

/-- What the filesystem answers: whether the path is normalized, the error of opening the directory, its entries and the error that ends
them, and the error of closing it. -/
structure DirectoryAnswers where
  normalized : Bool
  openError : Option Errno
  entries : List Dirent
  readError : Option Errno
  closeError : Option Errno
  deriving DecidableEq, Repr

/-- The loop over the entries: the result, and the bytes of the buffer that are used. -/
def listEntries (capacity : Nat) (readError : Option Errno) : List Dirent → List UInt8 → Int × List UInt8
  | [], used =>
    match readError with
    | some error => (-(error.val : Int), used)
    | none => (0, used)
  | entry :: entries, used =>
    if entry.name.length + 3 > capacity - used.length then (-enospc, used)
    else listEntries capacity readError entries (used ++ encodeEntry entry)

/-- The result after the directory was closed. -/
def resultAfterClose (result : Int) : Option Errno → Int
  | some error => if result = 0 then -(error.val : Int) else result
  | none => result

/-- The value of an `int` that a number of bytes is converted to. -/
def toInt (n : Nat) : Int := if n % 0x100000000 < 0x80000000 then (n % 0x100000000 : Nat) else (n % 0x100000000 : Nat) - 0x100000000

/-- `loader_elf_application_list_directory` with a path and a buffer: what it returns and the bytes of the buffer that it has written. -/
def listDirectory (answers : DirectoryAnswers) (capacity : Nat) : Int × List UInt8 :=
  if capacity = 0 then (-einval, [])
  else if answers.normalized = false then (-enametoolong, [])
  else
    match answers.openError with
    | some error => (-(error.val : Int), [])
    | none =>
      let (result, used) := listEntries capacity answers.readError answers.entries []
      let result := resultAfterClose result answers.closeError
      if result = 0 then (toInt used.length, used) else (result, used)

/-! ## The decoder -/

/-- The part of `tabos_posix_dir_t` that a listing is read with; the listing is `listing_size` bytes long. -/
structure PosixDir where
  listing : List UInt8
  listingOffset : Nat
  deriving DecidableEq, Repr

/-- The entry of a `tabos_posix_dir_t`. -/
structure PosixDirent where
  name : List UInt8
  type : Nat
  deriving DecidableEq, Repr

/-- `tabos_posix_opendir` after the service has filled the listing. -/
def posixOpendir (answer : Int × List UInt8) : Except Int PosixDir :=
  if answer.1 < 0 then .error (-answer.1)
  else if answer.1.toNat > listingCapacity then .error eio
  else .ok { listing := answer.2.take answer.1.toNat, listingOffset := 0 }

/-- A part of the listing, unless it lies outside. -/
def slice (listing : List UInt8) (start length : Nat) : Option (List UInt8) :=
  if start + length ≤ listing.length then some ((listing.drop start).take length) else none

/-- What `tabos_posix_readdir` does. -/
inductive ReaddirResult where
  | entry (entry : PosixDirent)
  | finished
  | failed
  | outside
  deriving DecidableEq, Repr

def posixReaddir (directory : PosixDir) : ReaddirResult × PosixDir :=
  let start := directory.listingOffset
  let size := directory.listing.length
  if start = size then (.finished, directory)
  else if start > size ∨ size - start < 3 then (.failed, directory)
  else
    match directory.listing[start]?, directory.listing[start + 1]?, directory.listing[start + 2]? with
    | some type, some low, some high =>
      let length := low.toNat ||| high.toNat <<< 8
      let nameStart := start + 3
      if (type ≠ typeFile ∧ type ≠ typeDirectory) ∨ length = 0 ∨ length > fsNameMax ∨ length > size - nameStart then
        (.failed, directory)
      else
        match slice directory.listing nameStart length with
        | none => (.outside, directory)
        | some name =>
          if (0 : UInt8) ∈ name ∨ slash ∈ name then (.failed, directory)
          else
            (.entry { name := name, type := if type = typeDirectory then 2 else 1 },
              { directory with listingOffset := nameStart + length })
    | _, _, _ => (.outside, directory)

/-- The entries that repeated calls give. -/
def nextEntry (directory : PosixDir) : Option (PosixDirent × PosixDir) :=
  match posixReaddir directory with
  | (.entry entry, directory) => some (entry, directory)
  | _ => none

/-- The entry that a program sees for an entry of the filesystem. -/
def Dirent.toPosix (entry : Dirent) : PosixDirent where
  name := entry.name
  type := if entry.isDirectory = true then 2 else 1

/-- The names that a directory can have. -/
structure Dirent.Valid (entry : Dirent) : Prop where
  name_ne : entry.name ≠ []
  length_le : entry.name.length ≤ fsNameMax
  not_nul : (0 : UInt8) ∉ entry.name
  not_slash : slash ∉ entry.name

theorem toInt_of_lt {n : Nat} (h : n < 0x80000000) : toInt n = n := by
  have hmod : n % 0x100000000 = n := Nat.mod_eq_of_lt (by omega)
  rw [toInt, hmod, if_pos h]

/-! ## What is written -/

variable {capacity : Nat} {entries : List Dirent} {used : List UInt8} {answers : DirectoryAnswers} {readError : Option Errno}

@[simp] theorem length_encodeEntry (entry : Dirent) : (encodeEntry entry).length = entry.name.length + 3 := rfl

/-- A list that fits is written behind what was used. -/
theorem listEntries_of_le (hfits : used.length + (entries.flatMap encodeEntry).length ≤ capacity) :
    listEntries capacity none entries used = (0, used ++ entries.flatMap encodeEntry) := by
  induction entries generalizing used with
  | nil => rw [listEntries, List.flatMap_nil, List.append_nil]
  | cons entry entries ih =>
    rw [List.flatMap_cons, List.length_append, length_encodeEntry] at hfits
    have hroom : ¬entry.name.length + 3 > capacity - used.length := by omega
    rw [listEntries, if_neg hroom, ih, List.flatMap_cons, List.append_assoc]
    rw [List.length_append, length_encodeEntry]
    omega

/-- A list that does not fit is an error, whatever ends the entries. -/
theorem listEntries_of_lt (hused : used.length ≤ capacity) (hfull : capacity < used.length + (entries.flatMap encodeEntry).length) :
    (listEntries capacity readError entries used).1 = -enospc := by
  induction entries generalizing used with
  | nil =>
    rw [List.flatMap_nil, List.length_nil] at hfull
    omega
  | cons entry entries ih =>
    rw [List.flatMap_cons, List.length_append, length_encodeEntry] at hfull
    rw [listEntries]
    split
    · rfl
    · next hroom =>
      have hlength : (used ++ encodeEntry entry).length = used.length + (entry.name.length + 3) := by
        rw [List.length_append, length_encodeEntry]
      exact ih (by omega) (by omega)

/-- What is not an error is the whole list. -/
theorem listEntries_eq_zero (hresult : (listEntries capacity readError entries used).1 = 0) :
    (listEntries capacity readError entries used).2 = used ++ entries.flatMap encodeEntry := by
  induction entries generalizing used with
  | nil =>
    cases readError with
    | none => rw [listEntries, List.flatMap_nil, List.append_nil]
    | some error =>
      rw [listEntries] at hresult
      have hpos := error.property
      simp only at hresult
      omega
  | cons entry entries ih =>
    rw [listEntries] at hresult ⊢
    split at hresult
    · cases hresult
    · next hroom =>
      rw [if_neg hroom, ih hresult, List.flatMap_cons, List.append_assoc]

/-- What is written fits. -/
theorem listEntries_length_le (hused : used.length ≤ capacity) :
    (listEntries capacity readError entries used).2.length ≤ capacity := by
  induction entries generalizing used with
  | nil =>
    cases readError with
    | none => exact hused
    | some error => exact hused
  | cons entry entries ih =>
    rw [listEntries]
    split
    · exact hused
    · have hlength : (used ++ encodeEntry entry).length = used.length + (entry.name.length + 3) := by
        rw [List.length_append, length_encodeEntry]
      exact ih (by omega)

/-- No error is a number of bytes. -/
theorem listEntries_fst_le (capacity : Nat) (readError : Option Errno) (entries : List Dirent) (used : List UInt8) :
    (listEntries capacity readError entries used).1 ≤ 0 := by
  induction entries generalizing used with
  | nil =>
    cases readError with
    | none => exact Int.le_refl 0
    | some error => exact Int.neg_nonpos_of_nonneg (Int.natCast_nonneg _)
  | cons entry entries ih =>
    rw [listEntries]
    split
    · exact (by decide : -enospc ≤ 0)
    · exact ih _

theorem resultAfterClose_of_ne {result : Int} (h : result ≠ 0) (closeError : Option Errno) :
    resultAfterClose result closeError = result := by
  cases closeError with
  | none => rfl
  | some error => exact if_neg h

/-- An error stays one, and success may become one. -/
theorem resultAfterClose_cases {result : Int} (hle : result ≤ 0) (closeError : Option Errno) :
    resultAfterClose result closeError < 0 ∨ (resultAfterClose result closeError = 0 ∧ result = 0) := by
  by_cases hresult : result = 0
  · cases closeError with
    | none => exact Or.inr ⟨hresult, hresult⟩
    | some error =>
      have hpos := error.property
      rw [resultAfterClose, if_pos hresult]
      omega
  · rw [resultAfterClose_of_ne hresult]
    omega

/-- A listing that is not an error has every entry. -/
theorem listDirectory_of_nonneg (h : 0 ≤ (listDirectory answers capacity).1) :
    (listDirectory answers capacity).2 = answers.entries.flatMap encodeEntry ∧
      (listDirectory answers capacity).1 = toInt (answers.entries.flatMap encodeEntry).length := by
  unfold listDirectory at h ⊢
  split at h
  · exact absurd h (by decide)
  next hcapacity =>
  rw [if_neg hcapacity]
  split at h
  · exact absurd h (by decide)
  next hnormalized =>
  rw [if_neg hnormalized]
  cases hopen : answers.openError with
  | some error =>
    rw [hopen] at h
    have hpos := error.property
    simp only at h
    omega
  | none =>
    rw [hopen] at h
    have hle := listEntries_fst_le capacity answers.readError answers.entries []
    dsimp only at h ⊢
    rcases resultAfterClose_cases hle answers.closeError with hneg | ⟨hzero, hresult⟩
    · rw [if_neg (Int.ne_of_lt hneg)] at h
      exact absurd h (Int.not_le.2 hneg)
    · rw [if_pos hzero, listEntries_eq_zero hresult]
      exact ⟨rfl, rfl⟩

/-- Nothing is written outside the buffer. -/
theorem listDirectory_used_le (answers : DirectoryAnswers) (capacity : Nat) : (listDirectory answers capacity).2.length ≤ capacity := by
  unfold listDirectory
  split
  · exact Nat.zero_le _
  split
  · exact Nat.zero_le _
  cases answers.openError with
  | some error => exact Nat.zero_le _
  | none =>
    have hlength : (listEntries capacity answers.readError answers.entries []).2.length ≤ capacity :=
      listEntries_length_le (Nat.zero_le _)
    dsimp only
    split
    · exact hlength
    · exact hlength

theorem listDirectory_length_le (h : 0 ≤ (listDirectory answers capacity).1) :
    (answers.entries.flatMap encodeEntry).length ≤ capacity := by
  rw [← (listDirectory_of_nonneg h).1]
  exact listDirectory_used_le answers capacity

/-- A list that does not fit is reported. -/
theorem listDirectory_of_lt (hcapacity : capacity ≠ 0) (hnormalized : answers.normalized = true) (hopen : answers.openError = none)
    (hfull : capacity < (answers.entries.flatMap encodeEntry).length) : (listDirectory answers capacity).1 = -enospc := by
  have hresult : (listEntries capacity answers.readError answers.entries []).1 = -enospc :=
    listEntries_of_lt (Nat.zero_le _) (by rwa [List.length_nil, Nat.zero_add])
  have hne : ¬(-enospc : Int) = 0 := by decide
  rw [listDirectory, if_neg hcapacity, hnormalized, if_neg (by decide), hopen]
  dsimp only
  rw [hresult, resultAfterClose_of_ne hne, if_neg hne]

/-! ## What is read -/

variable {directory next : PosixDir} {entry : PosixDirent}

theorem slice_of_le {listing : List UInt8} {start length : Nat} (h : start + length ≤ listing.length) :
    slice listing start length = some ((listing.drop start).take length) := if_pos h

/-- The three bytes of a header are in the listing. -/
theorem exists_header (listing : List UInt8) (start : Nat) (h : start + 3 ≤ listing.length) :
    ∃ type low high, listing[start]? = some type ∧ listing[start + 1]? = some low ∧ listing[start + 2]? = some high :=
  ⟨_, _, _, List.getElem?_eq_getElem (by omega), List.getElem?_eq_getElem (by omega), List.getElem?_eq_getElem (by omega)⟩

/-- A call reads in the listing only, and it passes the entry that it gives or leaves the directory as it was. -/
theorem posixReaddir_cases (directory : PosixDir) :
    (∃ entry next, posixReaddir directory = (.entry entry, next) ∧ next.listing = directory.listing ∧
        directory.listingOffset < next.listingOffset ∧ next.listingOffset ≤ directory.listing.length) ∨
      ∃ result, posixReaddir directory = (result, directory) ∧ (result = .finished ∨ result = .failed) := by
  unfold posixReaddir
  dsimp only
  split
  · exact Or.inr ⟨_, rfl, Or.inl rfl⟩
  next hmore =>
  split
  · exact Or.inr ⟨_, rfl, Or.inr rfl⟩
  next hheader =>
  obtain ⟨type, low, high, htype, hlow, hhigh⟩ := exists_header directory.listing directory.listingOffset (by omega)
  rw [htype, hlow, hhigh]
  dsimp only
  split
  · exact Or.inr ⟨_, rfl, Or.inr rfl⟩
  next hlength =>
  have hbounds : low.toNat ||| high.toNat <<< 8 ≠ 0 ∧
      low.toNat ||| high.toNat <<< 8 ≤ directory.listing.length - (directory.listingOffset + 3) := by
    constructor
    · exact fun hzero => hlength (Or.inr (Or.inl hzero))
    · exact Nat.le_of_not_lt fun hlt => hlength (Or.inr (Or.inr (Or.inr hlt)))
  rw [slice_of_le (by omega)]
  dsimp only
  split
  · exact Or.inr ⟨_, rfl, Or.inr rfl⟩
  · refine Or.inl ⟨_, _, rfl, rfl, ?_, ?_⟩
    · show directory.listingOffset < directory.listingOffset + 3 + _
      omega
    · show directory.listingOffset + 3 + _ ≤ directory.listing.length
      omega

theorem posixReaddir_ne_outside (directory : PosixDir) : (posixReaddir directory).1 ≠ .outside := by
  rcases posixReaddir_cases directory with ⟨entry, next, hread, -⟩ | ⟨result, hread, hresult⟩
  · rw [hread]
    exact ReaddirResult.noConfusion
  · rw [hread]
    rcases hresult with rfl | rfl <;> exact ReaddirResult.noConfusion

/-- An entry that is given is passed. -/
theorem nextEntry_progress (h : nextEntry directory = some (entry, next)) :
    next.listing = directory.listing ∧ directory.listingOffset < next.listingOffset ∧ next.listingOffset ≤ directory.listing.length := by
  rcases posixReaddir_cases directory with ⟨entry', next', hread, hlisting, hlt, hle⟩ | ⟨result, hread, hresult⟩
  · rw [nextEntry, hread] at h
    obtain ⟨-, rfl⟩ := Prod.mk.inj (Option.some.inj h)
    exact ⟨hlisting, hlt, hle⟩
  · rw [nextEntry, hread] at h
    rcases hresult with rfl | rfl <;> cases h

/-- Whatever the listing is, the calls give no more entries after some time. -/
theorem exists_entries (directory : PosixDir) : ∃ entries, Yields nextEntry directory entries := by
  have hprogress : ∀ (directory : PosixDir) (entry : PosixDirent) (next : PosixDir), nextEntry directory = some (entry, next) →
      next.listing.length - next.listingOffset < directory.listing.length - directory.listingOffset := by
    intro directory entry next h
    obtain ⟨hlisting, hlt, hle⟩ := nextEntry_progress h
    rw [hlisting]
    omega
  obtain ⟨entries, hentries, -⟩ := exists_yields _ hprogress directory
  exact ⟨entries, hentries⟩

/-! ## Round trip -/

variable {valid : Dirent}

/-- The two bytes of a length give the length back. -/
theorem length_of_bytes {n : Nat} (h : n ≤ fsNameMax) : (UInt8.ofNat (n &&& 0xff)).toNat ||| (UInt8.ofNat (n >>> 8)).toNat <<< 8 = n := by
  have hlt : n < 256 := Nat.lt_succ_of_le h
  have hlow : n &&& 0xff = n := by
    rw [show 0xff = 2 ^ 8 - 1 from rfl, Nat.and_two_pow_sub_one_eq_mod]
    exact Nat.mod_eq_of_lt hlt
  have hhigh : n >>> 8 = 0 := by
    rw [Nat.shiftRight_eq_div_pow]
    exact Nat.div_eq_of_lt hlt
  rw [hlow, hhigh, UInt8.toNat_ofNat', Nat.mod_eq_of_lt hlt]
  simp

theorem type_of_bytes (entry : Dirent) :
    (if (if entry.isDirectory = true then typeDirectory else typeFile) = typeDirectory then 2 else 1) =
    entry.toPosix.type := by
  rw [Dirent.toPosix]
  by_cases hdirectory : entry.isDirectory = true
  · rw [if_pos hdirectory, if_pos hdirectory, if_pos rfl]
  · rw [if_neg hdirectory, if_neg hdirectory, if_neg (by decide)]

theorem type_valid (entry : Dirent) : ¬((if entry.isDirectory = true then typeDirectory else typeFile) ≠ typeFile ∧
    (if entry.isDirectory = true then typeDirectory else typeFile) ≠ typeDirectory) := by
  by_cases hdirectory : entry.isDirectory = true
  · rw [if_pos hdirectory]
    exact fun h => h.2 rfl
  · rw [if_neg hdirectory]
    exact fun h => h.1 rfl

/-- The name of an entry lies behind its header. -/
theorem slice_encodeEntry (entry : Dirent) (before rest : List UInt8) :
    slice (before ++ (encodeEntry entry ++ rest)) (before.length + 3) entry.name.length = some entry.name := by
  have hsize : before.length + 3 + entry.name.length ≤ (before ++ (encodeEntry entry ++ rest)).length := by
    rw [List.length_append, List.length_append, length_encodeEntry]
    omega
  have hdrop : (before ++ (encodeEntry entry ++ rest)).drop (before.length + 3) = entry.name ++ rest := by
    rw [List.drop_length_add_append]
    rfl
  rw [slice_of_le hsize, hdrop, List.take_left]

/-- An entry that was written is read. -/
theorem posixReaddir_encodeEntry (hvalid : valid.Valid) (before rest : List UInt8) :
    posixReaddir { listing := before ++ (encodeEntry valid ++ rest), listingOffset := before.length } =
      (.entry valid.toPosix,
        { listing := before ++ (encodeEntry valid ++ rest), listingOffset := (before ++ encodeEntry valid).length }) := by
  have hpos : 0 < valid.name.length := List.length_pos_of_ne_nil hvalid.name_ne
  have hsize : (before ++ (encodeEntry valid ++ rest)).length = before.length + 3 + valid.name.length + rest.length := by
    rw [List.length_append, List.length_append, length_encodeEntry]
    omega
  have hat : ∀ k, (before ++ (encodeEntry valid ++ rest))[before.length + k]? = (encodeEntry valid ++ rest)[k]? := by
    intro k
    rw [List.getElem?_append_right (Nat.le_add_right _ _), Nat.add_sub_cancel_left]
  have htype : (before ++ (encodeEntry valid ++ rest))[before.length]? =
      some (if valid.isDirectory = true then typeDirectory else typeFile) := hat 0
  have hlow : (before ++ (encodeEntry valid ++ rest))[before.length + 1]? = some (UInt8.ofNat (valid.name.length &&& 0xff)) := hat 1
  have hhigh : (before ++ (encodeEntry valid ++ rest))[before.length + 2]? = some (UInt8.ofNat (valid.name.length >>> 8)) := hat 2
  have hmore : ¬before.length = (before ++ (encodeEntry valid ++ rest)).length := by omega
  have hheader : ¬(before.length > (before ++ (encodeEntry valid ++ rest)).length ∨
      (before ++ (encodeEntry valid ++ rest)).length - before.length < 3) := by omega
  have hlength : ¬(((if valid.isDirectory = true then typeDirectory else typeFile) ≠ typeFile ∧
      (if valid.isDirectory = true then typeDirectory else typeFile) ≠ typeDirectory) ∨ valid.name.length = 0 ∨
      valid.name.length > fsNameMax ∨ valid.name.length > (before ++ (encodeEntry valid ++ rest)).length - (before.length + 3)) := by
    rintro (h | h | h | h)
    · exact type_valid valid h
    · omega
    · exact absurd hvalid.length_le (Nat.not_le.2 h)
    · omega
  have hname : ¬((0 : UInt8) ∈ valid.name ∨ slash ∈ valid.name) := not_or.2 ⟨hvalid.not_nul, hvalid.not_slash⟩
  have hnext : before.length + 3 + valid.name.length = (before ++ encodeEntry valid).length := by
    rw [List.length_append, length_encodeEntry]
    omega
  unfold posixReaddir
  dsimp only
  rw [if_neg hmore, if_neg hheader, htype, hlow, hhigh]
  dsimp only
  rw [length_of_bytes hvalid.length_le, if_neg hlength, slice_encodeEntry]
  dsimp only
  rw [if_neg hname, type_of_bytes, hnext]
  rfl

/-- Entries that were written are read in their order. -/
theorem yields_flatMap (hvalid : ∀ entry ∈ entries, Dirent.Valid entry) (before : List UInt8) :
    Yields nextEntry { listing := before ++ entries.flatMap encodeEntry, listingOffset := before.length }
      (entries.map Dirent.toPosix) := by
  induction entries generalizing before with
  | nil =>
    refine Yields.stop ?_
    unfold nextEntry posixReaddir
    rw [List.flatMap_nil, List.append_nil]
    dsimp only
    rw [if_pos rfl]
  | cons valid entries ih =>
    have hread := posixReaddir_encodeEntry (hvalid valid List.mem_cons_self) before (entries.flatMap encodeEntry)
    rw [List.flatMap_cons, List.map_cons]
    refine Yields.more (by rw [nextEntry, hread]) ?_
    rw [← List.append_assoc]
    exact ih (fun entry hentry => hvalid entry (List.mem_cons_of_mem _ hentry)) (before ++ encodeEntry valid)

/-- What `tabos_posix_opendir` accepts from the service is the listing of every entry. -/
theorem posixOpendir_listDirectory (h : posixOpendir (listDirectory answers listingCapacity) = .ok directory) :
    directory = { listing := answers.entries.flatMap encodeEntry, listingOffset := 0 } := by
  unfold posixOpendir at h
  split at h
  · cases h
  next hresult =>
  split at h
  · cases h
  next hsize =>
  have hnonneg : 0 ≤ (listDirectory answers listingCapacity).1 := Int.not_lt.1 hresult
  obtain ⟨hused, hlength⟩ := listDirectory_of_nonneg hnonneg
  have hfits : (answers.entries.flatMap encodeEntry).length ≤ listingCapacity := listDirectory_length_le hnonneg
  have hcast : (listDirectory answers listingCapacity).1.toNat = (answers.entries.flatMap encodeEntry).length := by
    rw [hlength, toInt_of_lt (Nat.lt_of_le_of_lt hfits (by decide)), Int.toNat_natCast]
  rw [hused, hcast, List.take_length] at h
  exact (Except.ok.inj h).symm

/-- A listing that fits is opened. -/
theorem posixOpendir_of_le (hnormalized : answers.normalized = true) (hopen : answers.openError = none) (hread : answers.readError = none)
    (hclose : answers.closeError = none) (hfits : (answers.entries.flatMap encodeEntry).length ≤ listingCapacity) :
    posixOpendir (listDirectory answers listingCapacity) =
      .ok { listing := answers.entries.flatMap encodeEntry, listingOffset := 0 } := by
  have hentries : listEntries listingCapacity none answers.entries [] = (0, answers.entries.flatMap encodeEntry) :=
    listEntries_of_le (by rwa [List.length_nil, Nat.zero_add])
  have hlist : listDirectory answers listingCapacity =
      (((answers.entries.flatMap encodeEntry).length : Int), answers.entries.flatMap encodeEntry) := by
    unfold listDirectory
    rw [if_neg (by decide), hnormalized, if_neg (by decide), hopen, hread, hentries, hclose]
    dsimp only [resultAfterClose]
    rw [if_pos rfl, toInt_of_lt (Nat.lt_of_le_of_lt hfits (by decide))]
  have hsize : ¬((answers.entries.flatMap encodeEntry).length : Int).toNat > listingCapacity := by
    rw [Int.toNat_natCast]
    exact Nat.not_lt.2 hfits
  rw [hlist, posixOpendir, if_neg (Int.not_lt.2 (Int.natCast_nonneg _)), if_neg hsize, Int.toNat_natCast, List.take_length]

/-- Directories read back as they were listed, a list that does not fit is an error, and no listing leads outside or keeps the calls
going. -/
theorem listings_read_back :
    (∀ (answers : DirectoryAnswers), (∀ entry ∈ answers.entries, Dirent.Valid entry) →
      (∀ directory, posixOpendir (listDirectory answers listingCapacity) = .ok directory →
        Yields nextEntry directory (answers.entries.map Dirent.toPosix)) ∧
      (answers.normalized = true → answers.openError = none → answers.readError = none → answers.closeError = none →
        (answers.entries.flatMap encodeEntry).length ≤ listingCapacity →
          ∃ directory, posixOpendir (listDirectory answers listingCapacity) = .ok directory)) ∧
    (∀ (answers : DirectoryAnswers) (capacity : Nat), capacity < (answers.entries.flatMap encodeEntry).length →
      (listDirectory answers capacity).1 < 0 ∧
        (capacity ≠ 0 → answers.normalized = true → answers.openError = none → (listDirectory answers capacity).1 = -enospc)) ∧
    (∀ directory : PosixDir,
      ((∃ entry next, posixReaddir directory = (.entry entry, next) ∧ next.listing = directory.listing ∧
          directory.listingOffset < next.listingOffset ∧ next.listingOffset ≤ directory.listing.length) ∨
        ∃ result, posixReaddir directory = (result, directory) ∧ (result = .finished ∨ result = .failed)) ∧
      (posixReaddir directory).1 ≠ .outside ∧ ∃ entries, Yields nextEntry directory entries) := by
  refine ⟨?_, ?_, ?_⟩
  · intro answers hvalid
    refine ⟨?_, ?_⟩
    · intro directory hdirectory
      rw [posixOpendir_listDirectory hdirectory]
      exact yields_flatMap hvalid []
    · intro hnormalized hopen hread hclose hfits
      exact ⟨_, posixOpendir_of_le hnormalized hopen hread hclose hfits⟩
  · intro answers capacity hfull
    refine ⟨?_, ?_⟩
    · refine Int.not_le.1 fun hnonneg => ?_
      exact absurd (listDirectory_length_le hnonneg) (Nat.not_le.2 hfull)
    · intro hcapacity hnormalized hopen
      exact listDirectory_of_lt hcapacity hnormalized hopen hfull
  · intro directory
    refine ⟨posixReaddir_cases directory, posixReaddir_ne_outside directory, exists_entries directory⟩

/-- The entries `a`, a file, and `etc`, a directory. -/
def twoEntries : DirectoryAnswers where
  normalized := true
  openError := none
  entries := [{ name := [97], mode := 1 }, { name := [101, 116, 99], mode := 2 }]
  readError := none
  closeError := none

/-- Both entries of a directory are read back. -/
theorem listings_read_back_two :
    ∃ directory, posixOpendir (listDirectory twoEntries listingCapacity) = .ok directory ∧
      Yields nextEntry directory [{ name := [97], type := 1 }, { name := [101, 116, 99], type := 2 }] := by
  have hvalid : ∀ entry ∈ twoEntries.entries, Dirent.Valid entry := by
    intro entry hentry
    rcases List.mem_pair.1 hentry with rfl | rfl
    · exact ⟨by decide, by decide, by decide, by decide⟩
    · exact ⟨by decide, by decide, by decide, by decide⟩
  obtain ⟨hread, hopen⟩ := listings_read_back.1 twoEntries hvalid
  obtain ⟨directory, hdirectory⟩ := hopen rfl rfl rfl rfl (by decide)
  exact ⟨directory, hdirectory, hread directory hdirectory⟩

end Listing
end TabOS
