import TabOS.Fs.Descriptor

/-!
# The identity of open files

On a platform without file numbers an open file keeps the identity that its path had when it was opened, and a rename replaces it in
the files that were opened under the old path. The events of a session say where the file of each slot is: a rename moves what is at
the old path and below it, and the file at the new path is lost. Two paths that differ in letter case are one path.
-/

namespace TabOS
namespace Fs

open Library

/-! ## Letter case -/

/-- A path without its letter case. -/
def foldCase (path : CString) : List UInt8 := path.bytes.map foldByte

theorem foldByte_eq_separator (byte : UInt8) : foldByte byte = separator ↔ byte = separator := by
  unfold foldByte
  split
  · rename_i hupper
    simp only [isUpper, Bool.and_eq_true, decide_eq_true_eq, UInt8.le_iff_toNat_le, UInt8.reduceToNat] at hupper
    simp only [separator, ← UInt8.toNat_inj, UInt8.toNat_add, UInt8.toNat_sub, UInt8.reduceToNat]
    omega
  · exact Iff.rfl

theorem foldByte_injective_upper {a b : UInt8} (ha : isUpper a = true) (hb : isUpper b = true) (h : foldByte a = foldByte b) : a = b := by
  rw [foldByte, foldByte, if_pos ha, if_pos hb] at h
  simp only [isUpper, Bool.and_eq_true, decide_eq_true_eq, UInt8.le_iff_toNat_le, UInt8.reduceToNat] at ha hb
  simp only [← UInt8.toNat_inj, UInt8.toNat_add, UInt8.toNat_sub, UInt8.reduceToNat] at h ⊢
  omega

/-- The hash of a path is that of the path without its letter case. -/
theorem fallbackFileId_congr {p q : CString} (h : foldCase p = foldCase q) : fallbackFileId p = fallbackFileId q := by
  have hfold : ∀ path : CString, path.bytes.foldl (fun hash byte => mixByte hash (foldByte byte)) hashBasis =
      (foldCase path).foldl mixByte hashBasis := fun path => (List.foldl_map (f := foldByte) (g := mixByte)).symm
  unfold fallbackFileId
  simp only [hfold, h]

/-- The drive of a path that is known up to letter case. -/
theorem drive_congr {p q : CString} (hp : isUpper (p.at 0) = true) (hq : isUpper (q.at 0) = true) (h : foldCase p = foldCase q) :
    p.at 0 = q.at 0 := by
  unfold foldCase at h
  unfold CString.at at hp hq ⊢
  cases hpb : p.bytes with
  | nil =>
    rw [hpb] at hp
    cases hp
  | cons a as =>
    cases hqb : q.bytes with
    | nil =>
      rw [hqb] at hq
      cases hq
    | cons b bs =>
      rw [hpb] at hp h
      rw [hqb] at hq h
      exact foldByte_injective_upper hp hq (List.cons.inj h).1

/-! ## Where a file is -/

/-- The text that a path below a directory starts with. -/
def CString.directory (path : CString) : List UInt8 :=
  if path.bytes.getLast? = some separator then path.bytes else path.bytes ++ [separator]

/-- The path is strictly below the directory, but for letter case. -/
def Below (directory path : CString) : Prop :=
  directory.directory.map foldByte <+: foldCase path ∧ foldCase path ≠ foldCase directory

instance (directory path : CString) : Decidable (Below directory path) := inferInstanceAs (Decidable (_ ∧ _))

theorem terminated_directory (path : CString) : 0 ∉ path.directory := by
  unfold CString.directory
  split
  · exact path.terminated
  · rw [List.mem_append, List.mem_singleton, not_or]
    exact ⟨path.terminated, by decide⟩

/-- The path under the new name of a directory. -/
def CString.rebase (path old new : CString) : CString where
  bytes := new.directory ++ path.bytes.drop old.directory.length
  terminated := by
    rw [List.mem_append, not_or]
    exact ⟨terminated_directory new, fun hmem => path.terminated ((List.drop_suffix _ _).subset hmem)⟩

/-- Where a rename leaves the file at a path: it moves with the old path, and is lost if the new path replaces it. -/
def moved (old new path : CString) : Option CString :=
  if foldCase path = foldCase old then some new
  else if Below old path then some (path.rebase old new)
  else if foldCase path = foldCase new then none
  else some path

/-- The index of the slot that a descriptor names. -/
def slotOf (descriptor : Descriptor) : Nat := (descriptor &&& 0xff).toNat - 1

/-- Where the file is that a slot has open. -/
def currentPath (index : Nat) : List Event → Option CString
  | [] => none
  | .opened descriptor resolved :: log => if slotOf descriptor = index then some resolved else currentPath index log
  | .closed descriptor :: log => if slotOf descriptor = index then none else currentPath index log
  | .renamed old new :: log => (currentPath index log).bind (moved old new)
  | .directoryOpened _ :: log => currentPath index log
  | .directoryClosed _ :: log => currentPath index log

/-- The paths of the events. -/
def involved : List Event → List CString
  | [] => []
  | .opened _ resolved :: log => resolved :: involved log
  | .renamed old new :: log => old :: new :: involved log
  | .closed _ :: log => involved log
  | .directoryOpened _ :: log => involved log
  | .directoryClosed _ :: log => involved log

/-- The hash tells these paths apart, but for letter case. -/
def TellsApart (paths : CString → Prop) : Prop :=
  ∀ p q, paths p → paths q → fallbackFileId p = fallbackFileId q → foldCase p = foldCase q

/-- The call opens and renames only these paths. -/
def Involves (paths : CString → Prop) (s : Session) (op : Operation) : Prop := ∀ p ∈ involved (eventsOf s.filesystem op), paths p

/-- A rename that changes more than letter case finds no open file below the old path, and none at the new path. -/
def RenamesClosed (s : Session) (op : Operation) : Prop :=
  ∀ old new, Event.renamed old new ∈ eventsOf s.filesystem op → foldCase old ≠ foldCase new →
    ∀ index path, currentPath index s.log = some path → ¬Below old path ∧ foldCase path ≠ foldCase new

/-- The identity of every open file is that of its path, and of no other path. -/
def Identified (paths : CString → Prop) (s : Session) : Prop :=
  ∀ descriptor index, fileForDescriptor s.filesystem descriptor = some index →
    ∃ current, currentPath index s.log = some current ∧
      ∀ hasDrive path resolved, resolvePath s.filesystem hasDrive path = .ok resolved → paths resolved →
        ∀ openStatus pathStatus : Status, openStatus.fileId = 0 → pathStatus.fileId = 0 →
          ∃ fstat stat, fsFstat s.filesystem descriptor (.ok openStatus) = .ok fstat ∧
            fsStat s.filesystem hasDrive path (.ok pathStatus) = .ok stat ∧
            (fstat.deviceId = stat.deviceId ∧ fstat.fileId = stat.fileId ↔ foldCase resolved = foldCase current)

/-! ## The invariant -/

/-- The working directory is a canonical path, or one that nothing resolves against. -/
def WorkingCanonical (s : Filesystem) : Prop :=
  (∃ canonical : CanonicalPath, s.workingDirectory = canonical.toCString) ∨ isUpper (s.workingDirectory.at 0) = false

theorem normalized_of_not_upper {workingDirectory : CString} (h : isUpper (workingDirectory.at 0) = false) (path : CString)
    (output : List UInt8) : normalized path workingDirectory output = none := by
  have hrefused : filesystemNormalizePath path workingDirectory ⟨output, 0⟩ = .refused () ⟨output, 0⟩ := by
    unfold filesystemNormalizePath
    show (ite _ _ _ : Program Unit Normalization Unit) _ = _
    rw [if_pos (Or.inr (Or.inr (Or.inl h)))]
    rfl
  unfold normalized
  rw [hrefused]

/-- What resolves is canonical. -/
theorem WorkingCanonical.resolved {s : Filesystem} (h : WorkingCanonical s) {hasDrive : UInt8 → Bool} {path : Option CString}
    {resolved : CString} (hresolved : resolvePath s hasDrive path = .ok resolved) :
    ∃ canonical : CanonicalPath, resolved = canonical.toCString := by
  unfold resolvePath at hresolved
  split at hresolved
  · cases hresolved
  cases path with
  | none => cases hresolved
  | some path =>
    dsimp only at hresolved
    rcases h with ⟨workingDirectory, hworking⟩ | hupper
    · rw [hworking] at hresolved
      by_cases hresolvable : Resolvable path workingDirectory (List.replicate pathMax (0 : UInt8)).length
      · obtain ⟨canonical, _, _, _, hnormalized⟩ := normalized_of_resolvable hresolvable
        rw [hnormalized] at hresolved
        dsimp only at hresolved
        split at hresolved
        · exact ⟨canonical, (Except.ok.inj hresolved).symm⟩
        · cases hresolved
      · rw [normalized_of_not_resolvable hresolvable] at hresolved
        cases hresolved
    · rw [normalized_of_not_upper hupper] at hresolved
      cases hresolved

theorem workingCanonical_start (limits : Limits) (storageInit : Bool) (defaultDrive : UInt8) :
    WorkingCanonical (start limits storageInit defaultDrive).filesystem := by
  have hworking : (start limits storageInit defaultDrive).filesystem.workingDirectory = CanonicalPath.root.toCString ∨
      (start limits storageInit defaultDrive).filesystem.workingDirectory.bytes = [defaultDrive, colon, separator] := by
    unfold start filesystemInit
    dsimp only
    split
    · exact Or.inr rfl
    · exact Or.inl rfl
  rcases hworking with hroot | hdrive
  · exact Or.inl ⟨CanonicalPath.root, hroot⟩
  · cases hupper : isUpper defaultDrive with
    | true =>
      refine Or.inl ⟨⟨defaultDrive, [], hupper, fun _ hmem => absurd hmem List.not_mem_nil⟩, CString.ext ?_⟩
      rw [hdrive]
      rfl
    | false =>
      refine Or.inr ?_
      unfold CString.at
      rw [hdrive]
      exact hupper

/-- The file of a slot is where the events say, and has the identity of that path. -/
def Located (paths : CString → Prop) (index : Nat) (log : List Event) (content : FileContent) : Prop :=
  ∃ path known, currentPath index log = some path ∧ paths known ∧ foldCase known = foldCase path ∧ isUpper (path.at 0) = true ∧
    content.fallbackDeviceId = fallbackDeviceId (path.at 0) ∧ content.fallbackFileId = fallbackFileId path

/-- Every open file is located. -/
structure Tracks (paths : CString → Prop) (s : Session) : Prop where
  length : s.filesystem.files.length ≤ 255
  working : WorkingCanonical s.filesystem
  files : ∀ index slot, s.filesystem.files[index]? = some slot → slot.isOpen = true → Located paths index s.log slot.content

theorem tracks_start (paths : CString → Prop) (limits : Limits) (storageInit : Bool) (defaultDrive : UInt8) :
    Tracks paths (start limits storageInit defaultDrive) := by
  refine ⟨(List.length_replicate).trans_le limits.maxFiles_le, workingCanonical_start limits storageInit defaultDrive, ?_⟩
  intro index slot hslot hopen
  rw [List.eq_of_mem_replicate (List.mem_of_getElem? hslot)] at hopen
  cases hopen

theorem slotOf_encode {index : Nat} (hindex : index < 255) (generation : BitVec 16) : slotOf (encode index generation) = index := by
  have hgeneration := generation.isLt
  unfold slotOf
  rw [toNat_index, toNat_encode hindex]
  omega

/-- A descriptor that is accepted names the slot it is accepted for. -/
theorem slotOf_of_accepted {α : Type} {slots : List (Slot (BitVec 16) α)} {descriptor : Descriptor} {index : Nat}
    (h : slotForDescriptor slots descriptor = some index) : slotOf descriptor = index := by
  unfold slotForDescriptor at h
  dsimp only at h
  split at h
  · cases h
  split at h
  · split at h
    · exact Option.some.inj h
    · cases h
  · cases h

theorem directory_map (path : CString) : path.directory.map foldByte =
    if (foldCase path).getLast? = some separator then foldCase path else foldCase path ++ [separator] := by
  have hlast : (foldCase path).getLast? = some separator ↔ path.bytes.getLast? = some separator := by
    unfold foldCase
    rw [List.getLast?_map]
    cases path.bytes.getLast? with
    | none => simp
    | some byte =>
      rw [Option.map_some, Option.some_inj, Option.some_inj]
      exact foldByte_eq_separator byte
  unfold CString.directory
  by_cases h : path.bytes.getLast? = some separator
  · rw [if_pos h, if_pos (hlast.2 h)]
    rfl
  · rw [if_neg h, if_neg fun h' => h (hlast.1 h'), List.map_append]
    rfl

/-- A rename that changes letter case alone leaves what is below the directory where it was, but for letter case. -/
theorem foldCase_rebase {old new path : CString} (hcase : foldCase old = foldCase new) (hbelow : Below old path) :
    foldCase (path.rebase old new) = foldCase path := by
  obtain ⟨⟨rest, hrest⟩, -⟩ := hbelow
  have hdirectory : new.directory.map foldByte = old.directory.map foldByte := by
    rw [directory_map, directory_map, hcase]
  show (new.directory ++ path.bytes.drop old.directory.length).map foldByte = _
  rw [List.map_append, List.map_drop, hdirectory]
  show old.directory.map foldByte ++ (foldCase path).drop old.directory.length = _
  rw [← hrest, List.drop_left' (List.length_map _)]

theorem rebase_at_zero {new : CString} (hupper : isUpper (new.at 0) = true) (path old : CString) :
    (path.rebase old new).at 0 = new.at 0 := by
  unfold CString.at at hupper ⊢
  cases hbytes : new.bytes with
  | nil =>
    rw [hbytes] at hupper
    cases hupper
  | cons byte bytes =>
    show (new.directory ++ _).getD 0 0 = byte
    unfold CString.directory
    rw [hbytes]
    split <;> rfl

/-- An open file that is located where a rename finds it is located where the rename leaves it. -/
theorem Located.rename {paths : CString → Prop} (hpaths : TellsApart paths) {index : Nat} {log : List Event}
    {slot : Slot (BitVec 16) FileContent} (h : Located paths index log slot.content) (hopen : slot.isOpen = true) {old new : CString}
    (hold : paths old) (hnew : paths new) (hupper : isUpper (old.at 0) = true) (hdrive : old.at 0 = new.at 0)
    (hclosed : foldCase old ≠ foldCase new → ∀ path, currentPath index log = some path →
      ¬Below old path ∧ foldCase path ≠ foldCase new) :
    Located paths index (.renamed old new :: log) (renameSlot old new slot).content := by
  obtain ⟨path, known, hcurrent, hknown, hsame, hpath, hdevice, hfile⟩ := h
  have hnext : currentPath index (.renamed old new :: log) = moved old new path := by
    show (currentPath index log).bind (moved old new) = _
    rw [hcurrent]
    rfl
  by_cases hat : foldCase path = foldCase old
  · have hdrives : path.at 0 = old.at 0 := drive_congr hpath hupper hat
    refine ⟨new, new, hnext.trans (if_pos hat), hnew, rfl, hdrive ▸ hupper, ?_, ?_⟩
    · unfold renameSlot
      rw [if_pos ⟨hopen, by rw [hdevice, hdrives], by rw [hfile, fallbackFileId_congr hat]⟩]
      show slot.content.fallbackDeviceId = _
      rw [hdevice, hdrives, hdrive]
    · unfold renameSlot
      rw [if_pos ⟨hopen, by rw [hdevice, hdrives], by rw [hfile, fallbackFileId_congr hat]⟩]
  · have hkept : renameSlot old new slot = slot := by
      unfold renameSlot
      rw [if_neg]
      rintro ⟨-, -, heq⟩
      rw [hfile, ← fallbackFileId_congr hsame] at heq
      exact hat (hsame.symm.trans (hpaths known old hknown hold heq))
    rw [hkept]
    by_cases hcase : foldCase old = foldCase new
    · by_cases hbelow : Below old path
      · have hnewUpper : isUpper (new.at 0) = true := hdrive ▸ hupper
        have hfold := foldCase_rebase hcase hbelow
        have hrebased : isUpper ((path.rebase old new).at 0) = true := by rwa [rebase_at_zero hnewUpper]
        refine ⟨path.rebase old new, known, hnext.trans ?_, hknown, hsame.trans hfold.symm, hrebased, ?_, ?_⟩
        · unfold moved
          rw [if_neg hat, if_pos hbelow]
        · rw [hdevice, drive_congr hrebased hpath hfold]
        · rw [hfile, fallbackFileId_congr hfold]
      · refine ⟨path, known, hnext.trans ?_, hknown, hsame, hpath, hdevice, hfile⟩
        unfold moved
        rw [if_neg hat, if_neg hbelow, if_neg fun h => hat (h.trans hcase.symm)]
    · obtain ⟨hbelow, hreplaced⟩ := hclosed hcase path hcurrent
      refine ⟨path, known, hnext.trans ?_, hknown, hsame, hpath, hdevice, hfile⟩
      unfold moved
      rw [if_neg hat, if_neg hbelow, if_neg hreplaced]

/-- A call that involves only these paths, and that is no rename above or over an open file, keeps every open file located. -/
theorem Tracks.step {paths : CString → Prop} (hpaths : TellsApart paths) {s : Session} (h : Tracks paths s) {op : Operation}
    (hinvolves : Involves paths s op) (hrenames : RenamesClosed s op) : Tracks paths (step s op) := by
  cases op with
  | «open» hasDrive path opened =>
    rcases step_open s hasDrive path opened with heq | ⟨resolved, index, platformFile, hresolved, hindex, heq⟩
    · rwa [heq]
    have hlog : eventsOf s.filesystem (.open hasDrive path opened) = [.opened (nextDescriptor s.filesystem.files index) resolved] :=
      List.append_cancel_right ((congrArg Session.log heq).trans List.singleton_append.symm)
    have hknown : paths resolved := hinvolves resolved (by rw [hlog]; exact List.mem_cons_self)
    obtain ⟨canonical, rfl⟩ := h.working.resolved hresolved
    obtain ⟨old, hold, _⟩ := firstClosed_spec hindex
    have hlt := (List.getElem?_eq_some_iff.1 hold).1
    have hlength := h.length
    have hslot : slotOf (nextDescriptor s.filesystem.files index) = index := slotOf_encode (by omega) _
    rw [heq]
    refine ⟨(length_acquire _ _ _).trans_le h.length, h.working, fun other slot hother hopen => ?_⟩
    by_cases hsame : other = index
    · subst hsame
      have hacquired : (acquire s.filesystem.files other _)[other]? = some slot := hother
      unfold acquire at hacquired
      rw [List.getElem?_set_self hlt] at hacquired
      obtain rfl := Option.some.inj hacquired
      exact ⟨canonical.toCString, canonical.toCString, if_pos hslot, hknown, rfl, canonical.upper, rfl, rfl⟩
    · have hacquired : (acquire s.filesystem.files index _)[other]? = some slot := hother
      unfold acquire at hacquired
      rw [List.getElem?_set_ne (Ne.symm hsame)] at hacquired
      obtain ⟨path', known, hcurrent, hrest⟩ := h.files other slot hacquired hopen
      exact ⟨path', known, (if_neg fun heq' => hsame (heq'.symm.trans hslot)).trans hcurrent, hrest⟩
  | close descriptor closed =>
    rcases step_close s descriptor closed with heq | ⟨index, hindex, heq⟩
    · rwa [heq]
    rw [heq]
    refine ⟨(length_release _ _).trans_le h.length, h.working, fun other slot hother hopen => ?_⟩
    have hslot : slotOf descriptor = index := slotOf_of_accepted hindex
    have hreleased : (release s.filesystem.files index)[other]? = some slot := hother
    unfold release at hreleased
    by_cases hsame : other = index
    · subst hsame
      rw [List.getElem?_modify_eq] at hreleased
      obtain ⟨old, _, rfl⟩ := Option.map_eq_some_iff.1 hreleased
      cases hopen
    · rw [List.getElem?_modify_ne _ _ (Ne.symm hsame)] at hreleased
      obtain ⟨path, known, hcurrent, hrest⟩ := h.files other slot hreleased hopen
      exact ⟨path, known, (if_neg fun heq' => hsame (heq'.symm.trans hslot)).trans hcurrent, hrest⟩
  | rename hasDrive oldPath newPath renamed =>
    rcases step_rename s hasDrive oldPath newPath renamed with heq | ⟨old, new, hold, hnew, hdrive, _, heq⟩
    · rwa [heq]
    have hlog : eventsOf s.filesystem (.rename hasDrive oldPath newPath renamed) = [.renamed old new] :=
      List.append_cancel_right ((congrArg Session.log heq).trans List.singleton_append.symm)
    obtain ⟨canonical, rfl⟩ := h.working.resolved hold
    rw [heq]
    refine ⟨(List.length_map _).trans_le h.length, h.working, fun index slot hslot hopen => ?_⟩
    obtain ⟨before, hbefore, rfl⟩ := Option.map_eq_some_iff.1 ((List.getElem?_map).symm.trans hslot)
    have hbeforeOpen : before.isOpen = true := (renameSlot_isOpen canonical.toCString new before).1.symm.trans hopen
    refine (h.files index before hbefore hbeforeOpen).rename hpaths hbeforeOpen (hinvolves _ ?_) (hinvolves _ ?_) canonical.upper hdrive
      fun hcase path hcurrent => hrenames _ _ ?_ hcase index path hcurrent
    · rw [hlog]
      exact List.mem_cons_self
    · rw [hlog]
      exact List.mem_cons_of_mem _ List.mem_cons_self
    · rw [hlog]
      exact List.mem_cons_self
  | chdir hasDrive path status =>
    rcases step_chdir s hasDrive path status with heq | ⟨resolved, hresolved, heq⟩
    · rwa [heq]
    rw [heq]
    exact ⟨h.length, Or.inl (h.working.resolved hresolved), h.files⟩
  | opendir hasDrive path opened =>
    rcases step_opendir s hasDrive path opened with heq | ⟨index, platformDirectory, _, heq⟩
    · rwa [heq]
    rw [heq]
    exact ⟨h.length, h.working, h.files⟩
  | closedir directory closed =>
    rcases step_closedir s directory closed with heq | ⟨index, _, heq⟩
    · rwa [heq]
    rw [heq]
    exact ⟨h.length, h.working, h.files⟩

theorem fsFstat_fallback {s : Filesystem} {descriptor : Descriptor} (index : Nat) {slot : Slot (BitVec 16) FileContent}
    (hindex : fileForDescriptor s descriptor = some index) (hslot : s.files[index]? = some slot) {status : Status}
    (hstatus : status.fileId = 0) : fsFstat s descriptor (.ok status) =
      .ok { status with deviceId := slot.content.fallbackDeviceId, fileId := slot.content.fallbackFileId } := by
  unfold fsFstat onFile
  rw [hindex]
  dsimp only
  rw [hslot]
  exact if_pos hstatus

theorem fsStat_fallback {s : Filesystem} {hasDrive : UInt8 → Bool} {path : Option CString} {resolved : CString}
    (hresolved : resolvePath s hasDrive path = .ok resolved) {status : Status} (hstatus : status.fileId = 0) :
    fsStat s hasDrive path (.ok status) =
      .ok { status with deviceId := fallbackDeviceId (resolved.at 0), fileId := fallbackFileId resolved } := by
  unfold fsStat supplyFallbackIdentity
  rw [hresolved]
  exact congrArg Except.ok (if_neg fun hne => hne hstatus)

/-- Where every open file is located, every open file has the identity of its path. -/
theorem Tracks.identified {paths : CString → Prop} (hpaths : TellsApart paths) {s : Session} (h : Tracks paths s) :
    Identified paths s := by
  intro descriptor index hindex
  obtain ⟨generation, ⟨slot, hslot, hopen, -⟩, -⟩ := ((slotForDescriptor_eq_some_iff h.length).1 hindex).2
  obtain ⟨current, known, hcurrent, hknown, hsame, hupper, hdevice, hfile⟩ := h.files index slot hslot hopen
  refine ⟨current, hcurrent, fun hasDrive path resolved hresolved hpath openStatus pathStatus hopenStatus hpathStatus => ?_⟩
  refine ⟨{ openStatus with deviceId := slot.content.fallbackDeviceId, fileId := slot.content.fallbackFileId },
    { pathStatus with deviceId := fallbackDeviceId (resolved.at 0), fileId := fallbackFileId resolved },
    fsFstat_fallback index hindex hslot hopenStatus, fsStat_fallback hresolved hpathStatus, ?_⟩
  obtain ⟨canonical, rfl⟩ := h.working.resolved hresolved
  show slot.content.fallbackDeviceId = fallbackDeviceId (canonical.toCString.at 0) ∧
    slot.content.fallbackFileId = fallbackFileId canonical.toCString ↔ _
  rw [hdevice, hfile]
  constructor
  · rintro ⟨-, heq⟩
    rw [← fallbackFileId_congr hsame] at heq
    exact (hpaths _ _ hknown hpath heq).symm.trans hsame
  · intro heq
    rw [drive_congr (p := canonical.toCString) canonical.upper hupper heq, fallbackFileId_congr heq]
    exact ⟨rfl, rfl⟩

/-- In a run without a rename above or over an open file, every open file has the identity of its path and of no other path. -/
theorem fstat_identifies (limits : Limits) (storageInit : Bool) (defaultDrive : UInt8) (paths : CString → Prop)
    (hpaths : TellsApart paths) (ops : List Operation)
    (hops : Along step (fun s op => Involves paths s op ∧ RenamesClosed s op) (start limits storageInit defaultDrive) ops) :
    Identified paths (run (start limits storageInit defaultDrive) ops) := by
  have h : Tracks paths (run (start limits storageInit defaultDrive) ops) :=
    hops.invariant (Tracks paths) (fun _ _ hs hop => hs.step hpaths hop.1 hop.2) (tracks_start paths limits storageInit defaultDrive)
  exact h.identified hpaths

/-- The call that renames a canonical path to another, and succeeds. -/
def renameCanonical (old new : CanonicalPath) : Operation :=
  .rename (fun _ => true) (some old.toCString) (some new.toCString) 0

theorem step_renameCanonical {s : Session} {old new : CanonicalPath} (hinitialized : s.filesystem.initialized = true)
    (hmounted : s.filesystem.mounted = true) (hworking : s.filesystem.workingDirectory = CanonicalPath.root.toCString)
    (hold : old.toCString.bytes.length < pathMax) (hnew : new.toCString.bytes.length < pathMax)
    (hdrive : old.toCString.at 0 = new.toCString.at 0) :
    eventsOf s.filesystem (renameCanonical old new) = [.renamed old.toCString new.toCString] ∧
      step s (renameCanonical old new) =
        ⟨{ s.filesystem with files := s.filesystem.files.map (renameSlot old.toCString new.toCString) },
          .renamed old.toCString new.toCString :: s.log⟩ := by
  have holdResolved : resolvePath s.filesystem (fun _ => true) (some old.toCString) = .ok old.toCString :=
    resolvePath_canonical CanonicalPath.root hinitialized hmounted hworking hold rfl
  have hnewResolved : resolvePath s.filesystem (fun _ => true) (some new.toCString) = .ok new.toCString :=
    resolvePath_canonical CanonicalPath.root hinitialized hmounted hworking hnew rfl
  have hevents : eventsOf s.filesystem (renameCanonical old new) = [.renamed old.toCString new.toCString] := by
    unfold renameCanonical
    simp only [eventsOf, fsRename, holdResolved, hnewResolved, hdrive, ne_eq, not_true_eq_false, if_true, if_false]
  refine ⟨hevents, ?_⟩
  unfold renameCanonical at hevents ⊢
  simp only [step, apply, hevents, fsRename, holdResolved, hnewResolved, hdrive, ne_eq, not_true_eq_false, if_true, if_false,
    List.singleton_append]

theorem otherFile_valid : ∀ name ∈ [[(0x62 : UInt8)]], ValidName name := by decide

/-- The path `A:/b`. -/
def otherFile : CanonicalPath := ⟨0x41, [[0x62]], isUpper_first, otherFile_valid⟩

/-- A run that opens a path and renames it, or what is above it, involves the three paths. -/
theorem involves_renamed {canonical old new : CanonicalPath} (hlength : canonical.toCString.bytes.length < pathMax)
    (hold : old.toCString.bytes.length < pathMax) (hnew : new.toCString.bytes.length < pathMax)
    (hdrive : old.toCString.at 0 = new.toCString.at 0) (paths : CString → Prop) (h0 : paths canonical.toCString)
    (h1 : paths old.toCString) (h2 : paths new.toCString) :
    Along step (Involves paths) (start defaultLimits true 0x41) [openCanonical canonical, renameCanonical old new] := by
  refine ⟨fun p hp => ?_, fun p hp => ?_, trivial⟩
  · rw [(step_openCanonical hlength).1] at hp
    exact List.mem_singleton.1 hp ▸ h0
  · rw [(step_openCanonical hlength).2, (step_renameCanonical rfl rfl rfl hold hnew hdrive).1] at hp
    rcases List.mem_cons.1 hp with rfl | hp
    · exact h1
    · exact List.mem_singleton.1 hp ▸ h2

/-- `A:/a` is opened and renamed to `A:/b`. -/
theorem fstat_identifies_renamed :
    Identified (fun p => p = sampleFile.toCString ∨ p = otherFile.toCString)
      (run (start defaultLimits true 0x41) [openCanonical sampleFile, renameCanonical sampleFile otherFile]) := by
  have hlength : sampleFile.toCString.bytes.length < pathMax := by decide
  have hother : otherFile.toCString.bytes.length < pathMax := by decide
  obtain ⟨hopen, hrename, -⟩ := involves_renamed hlength hlength hother rfl
    (fun p => p = sampleFile.toCString ∨ p = otherFile.toCString) (Or.inl rfl) (Or.inl rfl) (Or.inr rfl)
  refine fstat_identifies defaultLimits true 0x41 (fun p => p = sampleFile.toCString ∨ p = otherFile.toCString) ?_
    [openCanonical sampleFile, renameCanonical sampleFile otherFile] ⟨⟨hopen, ?_⟩, ⟨hrename, ?_⟩, trivial⟩
  · rintro p q (rfl | rfl) (rfl | rfl) h
    · rfl
    · exact absurd h (by decide +kernel)
    · exact absurd h (by decide +kernel)
    · rfl
  · intro old new hmem
    rw [(step_openCanonical hlength).1] at hmem
    exact absurd (List.mem_singleton.1 hmem) (by intro heq; cases heq)
  · intro old new hmem hcase index path hcurrent
    rw [(step_openCanonical hlength).2, (step_renameCanonical rfl rfl rfl hlength hother rfl).1] at hmem
    obtain ⟨rfl, rfl⟩ := Event.renamed.inj (List.mem_singleton.1 hmem)
    rw [(step_openCanonical hlength).2] at hcurrent
    have hpath : (if slotOf 0x101 = index then some sampleFile.toCString else none) = some path := hcurrent
    split at hpath
    · obtain rfl := Option.some.inj hpath
      decide
    · cases hpath

theorem innerFile_valid : ∀ name ∈ [[(0x64 : UInt8)], [0x66]], ValidName name := by decide

theorem oldDirectory_valid : ∀ name ∈ [[(0x64 : UInt8)]], ValidName name := by decide

theorem newDirectory_valid : ∀ name ∈ [[(0x65 : UInt8)]], ValidName name := by decide

theorem movedFile_valid : ∀ name ∈ [[(0x65 : UInt8)], [0x66]], ValidName name := by decide

/-- The paths `A:/d/f`, `A:/d`, `A:/e` and `A:/e/f`. -/
def innerFile : CanonicalPath := ⟨0x41, [[0x64], [0x66]], isUpper_first, innerFile_valid⟩
def oldDirectory : CanonicalPath := ⟨0x41, [[0x64]], isUpper_first, oldDirectory_valid⟩
def newDirectory : CanonicalPath := ⟨0x41, [[0x65]], isUpper_first, newDirectory_valid⟩
def movedFile : CanonicalPath := ⟨0x41, [[0x65], [0x66]], isUpper_first, movedFile_valid⟩

/-- When `A:/d` is renamed to `A:/e`, the open file `A:/d/f` keeps the identity of its old path. -/
theorem renamed_directory_not_identified :
    ¬∀ (limits : Limits) (storageInit : Bool) (defaultDrive : UInt8) (paths : CString → Prop), TellsApart paths →
      ∀ ops : List Operation, Along step (Involves paths) (start limits storageInit defaultDrive) ops →
        Identified paths (run (start limits storageInit defaultDrive) ops) := by
  intro h
  have hlength : innerFile.toCString.bytes.length < pathMax := by decide
  have hold : oldDirectory.toCString.bytes.length < pathMax := by decide
  have hnew : newDirectory.toCString.bytes.length < pathMax := by decide
  have hidentified := h defaultLimits true 0x41
    (fun p => p ∈ [innerFile.toCString, oldDirectory.toCString, newDirectory.toCString, movedFile.toCString]) ?_
    [openCanonical innerFile, renameCanonical oldDirectory newDirectory]
    (involves_renamed hlength hold hnew rfl _ (by decide) (by decide) (by decide))
  · rw [run, List.foldl_cons, List.foldl_cons, List.foldl_nil, (step_openCanonical hlength).2,
      (step_renameCanonical rfl rfl rfl hold hnew rfl).2] at hidentified
    obtain ⟨current, hcurrent, hsame⟩ := hidentified 0x101 0 (by decide +kernel)
    obtain rfl : movedFile.toCString = current := by
      refine Option.some.inj (Eq.trans ?_ hcurrent)
      decide +kernel
    have hmoved : movedFile.toCString.bytes.length < pathMax := by decide
    have hresolved : ∀ s : Filesystem, s.initialized = true → s.mounted = true →
        s.workingDirectory = CanonicalPath.root.toCString →
        resolvePath s (fun _ => true) (some movedFile.toCString) = .ok movedFile.toCString :=
      fun s h1 h2 h3 => resolvePath_canonical CanonicalPath.root h1 h2 h3 hmoved rfl
    obtain ⟨fstat, stat, hfstat, hstat, hiff⟩ := hsame (fun _ => true) (some movedFile.toCString) movedFile.toCString
      (hresolved _ rfl rfl rfl) (by decide) ⟨1, 0, 0, 0, 0⟩ ⟨1, 0, 0, 0, 0⟩ rfl rfl
    have hopened := Except.ok.inj (hfstat.symm.trans (fsFstat_fallback 0 (by decide +kernel) rfl rfl))
    have hnamed := Except.ok.inj (hstat.symm.trans (fsStat_fallback (hresolved _ rfl rfl rfl) rfl))
    have hid := (hiff.2 rfl).2
    rw [hopened, hnamed] at hid
    exact absurd hid (by decide +kernel)
  · intro p q hp hq hhash
    simp only [List.mem_cons, List.not_mem_nil, or_false] at hp hq
    rcases hp with rfl | rfl | rfl | rfl <;> rcases hq with rfl | rfl | rfl | rfl <;>
      first
      | rfl
      | exact absurd hhash (by decide +kernel)

end Fs
end TabOS
