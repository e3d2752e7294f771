import TabOS.Fs.Filesystem
import Mathlib.Logic.Function.Basic

/-!
# Renaming over an existing file

`platform_storage_rename` over the calls of the operating system. The environment decides for each call whether it fails and with
which error; a call that fails changes nothing, and one that cannot succeed fails. Each name holds a file or directory of its own:
the names are neither inside one another nor two links of one file.
-/

namespace TabOS
namespace Fs

open Library

/-! ## The operating system -/

/-- The errors of the operating system that `map_error` tells apart. -/
inductive Errno where
  | perm | noent | io | badf | again | nomem | acces | exist | nodev | notdir | isdir | inval | nfile | mfile | nospc | rofs
  | nametoolong | notempty | notsup | other
  deriving DecidableEq, Repr

def eexist : Int := 17
def eisdir : Int := 21
def enotempty : Int := 39

def mapError : Errno → Int
  | .perm => 1
  | .noent => 2
  | .io => 5
  | .badf => 9
  | .again => 11
  | .nomem => 12
  | .acces => 13
  | .exist => 17
  | .nodev => 19
  | .notdir => 20
  | .isdir => 21
  | .inval => 22
  | .nfile => 23
  | .mfile => 24
  | .nospc => 28
  | .rofs => 30
  | .nametoolong => 36
  | .notempty => 39
  | .notsup => 95
  | .other => 5

/-- The full path of a file in the operating system. -/
abbrev Name := List UInt8

/-- What a name holds. -/
inductive Node where
  | file (contents : List UInt8)
  | directory (entries : List (List UInt8 × Node))

def Node.isDirectory : Node → Bool
  | .file _ => false
  | .directory _ => true

/-- A call that renames, with its outcome. -/
structure RenameCall where
  source : Name
  destination : Name
  error : Option Errno

/-- A drive of the storage. -/
structure Drive where
  root : Name
  mounted : Bool
  letter : UInt8

/-- What does not depend on the calls: the drives, the outcome of each call in their order, and the components of paths that are
symbolic links. -/
structure Environment where
  drives : List Drive
  outcome : Nat → Option Errno
  rejectSymlinkComponents : Name → Bool → Int

/-- What the names hold, the number that the next backup gets, the number of calls made, and the renames, the latest first. -/
structure Storage where
  files : Name → Option Node
  sequence : BitVec 32
  calls : Nat
  renames : List RenameCall

variable (env : Environment)

/-- A call of the operating system: it fails if the environment says so, or if it cannot succeed. -/
def syscall {α : Type} (attempt : Storage → Except Errno (α × (Name → Option Node))) : Program Int Storage (Except Errno α) := fun s =>
  match env.outcome s.calls with
  | some error => .done (.error error) { s with calls := s.calls + 1 }
  | none =>
    match attempt s with
    | .error error => .done (.error error) { s with calls := s.calls + 1 }
    | .ok (value, files) => .done (.ok value) { s with files := files, calls := s.calls + 1 }

/-- The file at a name, if there is one. -/
def lookup (s : Storage) (name : Name) : Except Errno Node :=
  match s.files name with
  | none => .error .noent
  | some node => .ok node

def sysStat (name : Name) : Program Int Storage (Except Errno Node) :=
  syscall env fun s => (lookup s name).map fun node => (node, s.files)

/-- `open` with `O_CREAT | O_EXCL`. -/
def sysOpenExclusive (name : Name) : Program Int Storage (Except Errno Unit) :=
  syscall env fun s =>
    match s.files name with
    | some _ => .error .exist
    | none => .ok ((), Function.update s.files name (some (.file [])))

def sysClose : Program Int Storage (Except Errno Unit) := syscall env fun s => .ok ((), s.files)

/-- `unlink`, and `remove` of a file or of an empty directory. -/
def sysRemove (name : Name) : Program Int Storage (Except Errno Unit) :=
  syscall env fun s => (lookup s name).map fun _ => ((), Function.update s.files name none)

def sysRename (source destination : Name) : Program Int Storage (Except Errno Unit) := do
  let result ← syscall env fun s => (lookup s source).map fun node =>
    ((), Function.update (Function.update s.files source none) destination (some node))
  let error := match result with
    | .error error => some error
    | .ok _ => none
  Program.modify fun s => { s with renames := ⟨source, destination, error⟩ :: s.renames }
  pure result

/-- `directory_empty`: the directory is opened, read and closed as one call, since these change nothing. -/
def directoryEmpty (name : Name) : Program Int Storage (Except Errno Bool) :=
  syscall env fun s => do
    match ← lookup s name with
    | .file _ => .error .notdir
    | .directory entries => .ok (entries.isEmpty, s.files)

/-! ## The rename -/

def findDrive (letter : UInt8) : Option Drive := env.drives.find? fun drive => drive.mounted && drive.letter == letter

/-- `translate_path`: the root of the drive, and the path below it. -/
def translatePath (letter : UInt8) (path : Name) : Option (Name × Name) :=
  match findDrive env letter with
  | none => none
  | some drive =>
    if path.head? ≠ some separator then none
    else if drive.root.length + path.length ≥ pathMax then none
    else some (drive.root, drive.root ++ path)

def hexDigit (digit : Nat) : UInt8 := if digit < 10 then 0x30 + UInt8.ofNat digit else 0x61 + UInt8.ofNat (digit - 10)

/-- `%08lx`. -/
def hexDigits (sequence : BitVec 32) : List UInt8 :=
  (List.range 8).map fun i => hexDigit (sequence.toNat / Nat.pow 16 (7 - i) % 16)

/-- `/.tabos-rename-` before the number of a backup. -/
def backupPrefix : List UInt8 :=
  [0x2f, 0x2e, 0x74, 0x61, 0x62, 0x6f, 0x73, 0x2d, 0x72, 0x65, 0x6e, 0x61, 0x6d, 0x65, 0x2d]

/-- `.bak`. -/
def backupSuffix : List UInt8 := [0x2e, 0x62, 0x61, 0x6b]

def backupName (root : Name) (sequence : BitVec 32) : Name := root ++ backupPrefix ++ hexDigits sequence ++ backupSuffix

/-- `PLATFORM_STORAGE_BACKUP_ATTEMPTS`. -/
def backupAttempts : Nat := 32

/-- The loop that reserves the name of a backup. -/
def reserveBackup (root : Name) : Nat → Program Int Storage (Option Name)
  | 0 => pure none
  | attempts + 1 => do
    let sequence ← Program.observe Storage.sequence
    Program.modify fun s => { s with sequence := s.sequence + 1 }
    let backup := backupName root sequence
    if backup.length ≥ pathMax then Program.refuse enametoolong
    else do
      match ← sysOpenExclusive env backup with
      | .error error => if error = .exist then reserveBackup root attempts else Program.refuse (mapError error)
      | .ok _ => do
        let closed ← sysClose env
        let removed ← sysRemove env backup
        match closed, removed with
        | .error error, _ => do
          let _ ← sysRemove env backup
          Program.refuse (mapError error)
        | .ok _, .error error => do
          let _ ← sysRemove env backup
          Program.refuse (mapError error)
        | .ok _, .ok _ => pure (some backup)

/-- The checks before the destination is moved aside: both exist and are of one kind, and a destination directory is empty. -/
def checkReplaceable (oldTranslated newTranslated : Name) : Program Int Storage Unit := do
  match ← sysStat env oldTranslated with
  | .error error => Program.refuse (mapError error)
  | .ok oldNode =>
    match ← sysStat env newTranslated with
    | .error error => Program.refuse (mapError error)
    | .ok newNode =>
      if oldNode.isDirectory ≠ newNode.isDirectory then Program.refuse (if oldNode.isDirectory then enotdir else eisdir)
      else if newNode.isDirectory then do
        match ← directoryEmpty env newTranslated with
        | .error error => Program.refuse (mapError error)
        | .ok empty => if empty then pure () else Program.refuse enotempty
      else pure ()

/-- The renames of the fallback: the destination goes to the backup, and comes back if the source cannot take its place. -/
def installOver (oldTranslated newTranslated backup : Name) : Program Int Storage Unit := do
  match ← sysRename env newTranslated backup with
  | .error error => Program.refuse (mapError error)
  | .ok _ =>
    match ← sysRename env oldTranslated newTranslated with
    | .ok _ => do
      let _ ← sysRemove env backup
      pure ()
    | .error installError => do
      let _ ← sysRename env backup newTranslated
      Program.refuse (mapError installError)

/-- `platform_storage_rename`; the error it returns, if it is not zero, is a refusal. -/
def platformStorageRename (letter : UInt8) (oldPath newPath : Name) : Program Int Storage Unit :=
  match translatePath env letter oldPath, translatePath env letter newPath with
  | some (root, oldTranslated), some (_, newTranslated) =>
    if env.rejectSymlinkComponents oldTranslated false ≠ 0 then Program.refuse (env.rejectSymlinkComponents oldTranslated false)
    else if env.rejectSymlinkComponents newTranslated true ≠ 0 then Program.refuse (env.rejectSymlinkComponents newTranslated true)
    else do
      match ← sysRename env oldTranslated newTranslated with
      | .ok _ => pure ()
      | .error renameError =>
        if renameError = .exist ∧ oldTranslated = newTranslated then pure ()
        else if renameError ≠ .exist then Program.refuse (mapError renameError)
        else do
          checkReplaceable env oldTranslated newTranslated
          match ← reserveBackup env root backupAttempts with
          | none => Program.refuse eexist
          | some backup => installOver env oldTranslated newTranslated backup
  | _, _ => Program.refuse enodev

/-! ## What the calls do -/

theorem mapError_ne_zero (error : Errno) : mapError error ≠ 0 := by
  cases error <;> decide

variable {env}

/-- A call that fails changes nothing, and the calls other than renames leave the record of renames. -/
theorem syscall_spec {α : Type} (attempt : Storage → Except Errno (α × (Name → Option Node))) (s : Storage)
    (E : Int → Storage → Prop) :
    (syscall env attempt).Meets s (fun result t => t.renames = s.renames ∧ (∀ error, result = .error error → t.files = s.files) ∧
      ∀ value, result = .ok value → attempt s = .ok (value, t.files)) E := by
  unfold Program.Meets syscall
  cases env.outcome s.calls with
  | some error => exact ⟨rfl, fun _ _ => rfl, fun value h => by cases h⟩
  | none =>
    dsimp only
    cases hattempt : attempt s with
    | error error => exact ⟨rfl, fun _ _ => rfl, fun value h => by cases h⟩
    | ok result => exact ⟨rfl, fun error h => (by cases h), fun value h => by cases h; rfl⟩

theorem lookup_map_eq_ok {α : Type} {s : Storage} {name : Name} {f : Node → α} {value : α} (h : (lookup s name).map f = .ok value) :
    ∃ node, s.files name = some node ∧ f node = value := by
  unfold lookup at h
  cases hfile : s.files name with
  | none =>
    rw [hfile] at h
    cases h
  | some node =>
    rw [hfile] at h
    exact ⟨node, rfl, Except.ok.inj h⟩

theorem sysStat_spec (name : Name) (s : Storage) (E : Int → Storage → Prop) :
    (sysStat env name).Meets s (fun result t => t.files = s.files ∧ ∀ node, result = .ok node → s.files name = some node) E := by
  refine (syscall_spec _ s E).mono ?_ fun _ _ h => h
  rintro result t ⟨-, herror, hok⟩
  cases result with
  | error error => exact ⟨herror error rfl, fun node h => by cases h⟩
  | ok node =>
    obtain ⟨found, hfound, hpair⟩ := lookup_map_eq_ok (hok node rfl)
    obtain ⟨rfl, hfiles⟩ := Prod.mk.inj hpair
    refine ⟨hfiles.symm, fun other h => ?_⟩
    cases h
    exact hfound

theorem sysOpenExclusive_spec (name : Name) (s : Storage) (E : Int → Storage → Prop) :
    (sysOpenExclusive env name).Meets s (fun result t => (∀ error, result = .error error → t.files = s.files) ∧
      ∀ value, result = .ok value → s.files name = none ∧ t.files = Function.update s.files name (some (.file []))) E := by
  refine (syscall_spec _ s E).mono ?_ fun _ _ h => h
  rintro result t ⟨-, herror, hok⟩
  refine ⟨herror, fun value hvalue => ?_⟩
  have hattempt := hok value hvalue
  cases hfile : s.files name with
  | some node =>
    rw [hfile] at hattempt
    cases hattempt
  | none =>
    rw [hfile] at hattempt
    exact ⟨rfl, (Prod.mk.inj (Except.ok.inj hattempt)).2.symm⟩

theorem sysClose_spec (s : Storage) (E : Int → Storage → Prop) :
    (sysClose env).Meets s (fun _ t => t.files = s.files) E := by
  refine (syscall_spec _ s E).mono ?_ fun _ _ h => h
  rintro result t ⟨-, herror, hok⟩
  cases result with
  | error error => exact herror error rfl
  | ok value => exact (Prod.mk.inj (Except.ok.inj (hok value rfl))).2.symm

/-- A removal changes no other name. -/
theorem sysRemove_spec (name : Name) (s : Storage) (E : Int → Storage → Prop) :
    (sysRemove env name).Meets s (fun result t => (∀ other, other ≠ name → t.files other = s.files other) ∧
      ∀ value, result = .ok value → t.files name = none) E := by
  refine (syscall_spec _ s E).mono ?_ fun _ _ h => h
  rintro result t ⟨-, herror, hok⟩
  cases result with
  | error error => exact ⟨fun other _ => by rw [herror error rfl], fun value h => by cases h⟩
  | ok value =>
    obtain ⟨found, _, hpair⟩ := lookup_map_eq_ok (hok value rfl)
    obtain ⟨-, hfiles⟩ := Prod.mk.inj hpair
    refine ⟨fun other hne => ?_, fun _ _ => ?_⟩
    · rw [← hfiles, Function.update_of_ne hne]
    · rw [← hfiles, Function.update_self]

/-- A rename moves what the source holds, or changes nothing, and is recorded. -/
theorem sysRename_spec (source destination : Name) (s : Storage) (E : Int → Storage → Prop) :
    (sysRename env source destination).Meets s (fun result t =>
      (∀ error, result = .error error → t.files = s.files ∧ t.renames = ⟨source, destination, some error⟩ :: s.renames) ∧
        ∀ value, result = .ok value → t.renames = ⟨source, destination, none⟩ :: s.renames ∧ ∃ node, s.files source = some node ∧
          t.files = Function.update (Function.update s.files source none) destination (some node)) E := by
  unfold sysRename
  rw [Program.meets_bind]
  refine (syscall_spec _ s E).mono ?_ fun _ _ h => h
  rintro result t ⟨hrenames, herror, hok⟩
  rw [Program.meets_bind, Program.meets_modify, Program.meets_pure]
  cases result with
  | error error =>
    refine ⟨fun error' h => ?_, fun value h => by cases h⟩
    cases h
    exact ⟨herror error rfl, by rw [← hrenames]⟩
  | ok value =>
    obtain ⟨node, hnode, hpair⟩ := lookup_map_eq_ok (hok value rfl)
    refine ⟨fun error h => (by cases h), fun _ _ => ⟨by rw [← hrenames], node, hnode, ?_⟩⟩
    exact (Prod.mk.inj hpair).2.symm

theorem directoryEmpty_spec (name : Name) (s : Storage) (E : Int → Storage → Prop) :
    (directoryEmpty env name).Meets s (fun _ t => t.files = s.files) E := by
  refine (syscall_spec _ s E).mono ?_ fun _ _ h => h
  rintro result t ⟨-, herror, hok⟩
  cases result with
  | error error => exact herror error rfl
  | ok value =>
    have hattempt := hok value rfl
    unfold lookup at hattempt
    cases hfile : s.files name with
    | none =>
      rw [hfile] at hattempt
      cases hattempt
    | some node =>
      rw [hfile] at hattempt
      cases node with
      | file contents => cases hattempt
      | directory entries => exact (Prod.mk.inj (Except.ok.inj hattempt)).2.symm

/-! ## What the rename does -/

/-- The two names hold what they held. -/
def Kept (old new : Name) (s t : Storage) : Prop := t.files old = s.files old ∧ t.files new = s.files new

/-- The new name holds what the old name held, and the old name is gone. -/
def Replaced (old new : Name) (s t : Storage) : Prop := s.files old ≠ none ∧ t.files new = s.files old ∧ t.files old = none

/-- The last three renames moved the destination aside, failed to put the source in its place, and failed to put it back. -/
def RollbackFailed (old new : Name) (t : Storage) : Prop :=
  ∃ backup rollbackError installError renames,
    t.renames = ⟨backup, new, some rollbackError⟩ :: ⟨old, new, some installError⟩ :: ⟨new, backup, none⟩ :: renames

theorem Kept.refl (old new : Name) (s : Storage) : Kept old new s s := ⟨rfl, rfl⟩

theorem Kept.trans {old new : Name} {s t u : Storage} (h : Kept old new s t) (h' : Kept old new t u) : Kept old new s u :=
  ⟨h'.1.trans h.1, h'.2.trans h.2⟩

theorem Kept.of_files {old new : Name} {s t : Storage} (h : t.files = s.files) : Kept old new s t := ⟨by rw [h], by rw [h]⟩

/-- The checks change nothing, and pass only if both names hold something. -/
theorem checkReplaceable_spec (old new : Name) (s : Storage) :
    (checkReplaceable env old new).Meets s
      (fun _ t => t.files = s.files ∧ s.files old ≠ none ∧ s.files new ≠ none)
      (fun error t => error ≠ 0 ∧ t.files = s.files) := by
  unfold checkReplaceable
  rw [Program.meets_bind]
  refine (sysStat_spec old s _).mono ?_ fun _ _ h => h
  rintro result t ⟨ht, hold⟩
  cases result with
  | error error => exact ⟨mapError_ne_zero error, ht⟩
  | ok oldNode =>
    dsimp only
    rw [Program.meets_bind]
    refine (sysStat_spec new t _).mono ?_ fun _ _ h => h
    rintro result u ⟨hu, hnew⟩
    cases result with
    | error error => exact ⟨mapError_ne_zero error, hu.trans ht⟩
    | ok newNode =>
      have hboth : s.files old ≠ none ∧ s.files new ≠ none := by
        rw [hold oldNode rfl, ← ht, hnew newNode rfl]
        exact ⟨Option.some_ne_none _, Option.some_ne_none _⟩
      refine Program.meets_ite (fun _ => ⟨?_, hu.trans ht⟩) fun _ =>
        Program.meets_ite (fun _ => ?_) fun _ => ⟨hu.trans ht, hboth⟩
      · cases oldNode.isDirectory <;> decide
      · rw [Program.meets_bind]
        refine (directoryEmpty_spec new u _).mono ?_ fun _ _ h => h
        intro result v hv
        cases result with
        | error error => exact ⟨mapError_ne_zero error, hv.trans (hu.trans ht)⟩
        | ok empty =>
          exact Program.meets_ite (fun _ => ⟨hv.trans (hu.trans ht), hboth⟩) fun _ => ⟨by decide, hv.trans (hu.trans ht)⟩

/-- A name that is reserved holds nothing, and reserving it leaves two names that hold something. -/
theorem reserveBackup_spec (root old new : Name) (attempts : Nat) {s : Storage} (hold : s.files old ≠ none) (hnew : s.files new ≠ none) :
    (reserveBackup env root attempts).Meets s
      (fun backup t => Kept old new s t ∧ ∀ name, backup = some name → name ≠ old ∧ name ≠ new)
      (fun error t => error ≠ 0 ∧ Kept old new s t) := by
  induction attempts generalizing s with
  | zero => exact ⟨Kept.refl old new s, fun name h => by cases h⟩
  | succ attempts ih =>
    unfold reserveBackup
    rw [Program.meets_bind, Program.meets_observe, Program.meets_bind, Program.meets_modify]
    refine Program.meets_ite (fun _ => ⟨by decide, Kept.of_files rfl⟩) fun _ => ?_
    rw [Program.meets_bind]
    refine (sysOpenExclusive_spec (backupName root s.sequence) _ _).mono ?_ fun _ _ h => h
    rintro result t ⟨herror, hok⟩
    cases result with
    | error error =>
      have ht : Kept old new s t := Kept.of_files (herror error rfl)
      refine Program.meets_ite (fun _ => ?_) fun _ => ⟨mapError_ne_zero error, ht⟩
      refine (ih (ht.1 ▸ hold) (ht.2 ▸ hnew)).mono ?_ ?_
      · exact fun backup u hu => ⟨ht.trans hu.1, hu.2⟩
      · exact fun error u hu => ⟨hu.1, ht.trans hu.2⟩
    | ok value =>
      obtain ⟨habsent, hfiles⟩ := hok value rfl
      have hneOld : backupName root s.sequence ≠ old := fun heq => hold (heq ▸ habsent)
      have hneNew : backupName root s.sequence ≠ new := fun heq => hnew (heq ▸ habsent)
      have ht : Kept old new s t := by
        constructor
        · rw [hfiles]
          exact Function.update_of_ne hneOld.symm _ _
        · rw [hfiles]
          exact Function.update_of_ne hneNew.symm _ _
      have hremove : ∀ {u v : Storage}, (∀ other, other ≠ backupName root s.sequence → v.files other = u.files other) →
          Kept old new u v :=
        fun h => ⟨h old hneOld.symm, h new hneNew.symm⟩
      dsimp only
      rw [Program.meets_bind]
      refine (sysClose_spec t _).mono ?_ fun _ _ h => h
      intro closed u hu
      rw [Program.meets_bind]
      refine (sysRemove_spec _ u _).mono ?_ fun _ _ h => h
      rintro removed v ⟨hv, -⟩
      have hkept : Kept old new s v := ht.trans ((Kept.of_files hu).trans (hremove hv))
      cases closed with
      | error error =>
        rw [Program.meets_bind]
        refine (sysRemove_spec _ v _).mono ?_ fun _ _ h => h
        rintro _ w ⟨hw, -⟩
        exact ⟨mapError_ne_zero error, hkept.trans (hremove hw)⟩
      | ok _ =>
        cases removed with
        | error error =>
          rw [Program.meets_bind]
          refine (sysRemove_spec _ v _).mono ?_ fun _ _ h => h
          rintro _ w ⟨hw, -⟩
          exact ⟨mapError_ne_zero error, hkept.trans (hremove hw)⟩
        | ok _ =>
          refine ⟨hkept, fun name h => ?_⟩
          obtain rfl := Option.some.inj h
          exact ⟨hneOld, hneNew⟩

/-- The fallback replaces the destination, or puts it back, unless the rename that puts it back fails. -/
theorem installOver_spec {old new backup : Name} (hdistinct : old ≠ new) (hold : backup ≠ old) (hnew : backup ≠ new) (s : Storage) :
    (installOver env old new backup).Meets s
      (fun _ t => Replaced old new s t)
      (fun error t => error ≠ 0 ∧ (Kept old new s t ∨ RollbackFailed old new t)) := by
  unfold installOver
  rw [Program.meets_bind]
  refine (sysRename_spec new backup s _).mono ?_ fun _ _ h => h
  rintro result t ⟨herror, hok⟩
  cases result with
  | error error => exact ⟨mapError_ne_zero error, Or.inl (Kept.of_files (herror error rfl).1)⟩
  | ok value =>
    obtain ⟨haside, newNode, hnewNode, ht⟩ := hok value rfl
    have htOld : t.files old = s.files old := by
      rw [ht, Function.update_of_ne hold.symm, Function.update_of_ne hdistinct]
    have htBackup : t.files backup = some newNode := by rw [ht, Function.update_self]
    dsimp only
    rw [Program.meets_bind]
    refine (sysRename_spec old new t _).mono ?_ fun _ _ h => h
    rintro result u ⟨herror, hok⟩
    cases result with
    | ok value =>
      obtain ⟨-, oldNode, holdNode, hu⟩ := hok value rfl
      dsimp only
      rw [Program.meets_bind]
      refine (sysRemove_spec backup u _).mono ?_ fun _ _ h => h
      rintro _ v ⟨hv, -⟩
      rw [htOld] at holdNode
      refine ⟨by rw [holdNode]; exact Option.some_ne_none _, ?_, ?_⟩
      · rw [hv new hnew.symm, hu, Function.update_self, holdNode]
      · rw [hv old hold.symm, hu, Function.update_of_ne hdistinct, Function.update_self]
    | error installError =>
      obtain ⟨hfiles, hinstall⟩ := herror installError rfl
      dsimp only
      rw [Program.meets_bind]
      refine (sysRename_spec backup new u _).mono ?_ fun _ _ h => h
      rintro result v ⟨hfailed, hrestored⟩
      refine ⟨mapError_ne_zero installError, ?_⟩
      cases result with
      | error rollbackError =>
        exact Or.inr ⟨backup, rollbackError, installError, s.renames, by rw [(hfailed rollbackError rfl).2, hinstall, haside]⟩
      | ok value =>
        obtain ⟨-, node, hnode, hv⟩ := hrestored value rfl
        rw [hfiles, htBackup] at hnode
        obtain rfl := Option.some.inj hnode
        refine Or.inl ⟨?_, ?_⟩
        · rw [hv, Function.update_of_ne hdistinct, Function.update_of_ne hold.symm, hfiles, htOld]
        · rw [hv, Function.update_self, hnewNode]

theorem translatePath_ne {letter : UInt8} {oldPath newPath root root' old new : Name} (hpath : oldPath ≠ newPath)
    (hold : translatePath env letter oldPath = some (root, old)) (hnew : translatePath env letter newPath = some (root', new)) :
    old ≠ new := by
  unfold translatePath at hold hnew
  cases hdrive : findDrive env letter with
  | none =>
    rw [hdrive] at hold
    cases hold
  | some drive =>
    rw [hdrive] at hold hnew
    dsimp only at hold hnew
    split_ifs at hold hnew
    obtain ⟨-, rfl⟩ := Prod.mk.inj (Option.some.inj hold)
    obtain ⟨-, rfl⟩ := Prod.mk.inj (Option.some.inj hnew)
    exact fun heq => hpath (List.append_cancel_left heq)

/-- A rename of one path to another either installs the source at the destination, or returns an error and leaves both as they were,
unless it could not put the destination back. -/
theorem platformStorageRename_atomic (env : Environment) (letter : UInt8) {oldPath newPath : Name} (hpath : oldPath ≠ newPath)
    (s : Storage) :
    (platformStorageRename env letter oldPath newPath).Meets s
      (fun _ t => ∃ root old root' new, translatePath env letter oldPath = some (root, old) ∧
        translatePath env letter newPath = some (root', new) ∧ Replaced old new s t)
      (fun error t => error ≠ 0 ∧ ∀ root old root' new, translatePath env letter oldPath = some (root, old) →
        translatePath env letter newPath = some (root', new) → Kept old new s t ∨ RollbackFailed old new t) := by
  unfold platformStorageRename
  cases hold : translatePath env letter oldPath with
  | none => exact ⟨by decide, fun root old root' new h => by cases h⟩
  | some oldResult =>
    cases hnew : translatePath env letter newPath with
    | none => exact ⟨by decide, fun root old root' new _ h => by cases h⟩
    | some newResult =>
      obtain ⟨root, old⟩ := oldResult
      obtain ⟨root', new⟩ := newResult
      have hdistinct := translatePath_ne hpath hold hnew
      have hcases : ∀ (error : Int) (t : Storage), error ≠ 0 ∧ (Kept old new s t ∨ RollbackFailed old new t) → error ≠ 0 ∧
          ∀ root1 old1 root2 new1, some (root, old) = some (root1, old1) → some (root', new) = some (root2, new1) →
            Kept old1 new1 s t ∨ RollbackFailed old1 new1 t := by
        rintro error t ⟨hne, ht⟩
        refine ⟨hne, fun root1 old1 root2 new1 h1 h2 => ?_⟩
        obtain ⟨-, rfl⟩ := Prod.mk.inj (Option.some.inj h1)
        obtain ⟨-, rfl⟩ := Prod.mk.inj (Option.some.inj h2)
        exact ht
      refine Program.Meets.mono (Q := fun _ t => Replaced old new s t) ?_
        (fun _ t ht => ⟨root, old, root', new, rfl, rfl, ht⟩) hcases
      dsimp only
      refine Program.meets_ite (fun hrejected => ⟨hrejected, Or.inl (Kept.refl old new s)⟩) fun _ => ?_
      refine Program.meets_ite (fun hrejected => ⟨hrejected, Or.inl (Kept.refl old new s)⟩) fun _ => ?_
      rw [Program.meets_bind]
      refine (sysRename_spec old new s _).mono ?_ fun _ _ h => h
      rintro result t ⟨herror, hok⟩
      cases result with
      | ok value =>
        obtain ⟨-, node, hnode, ht⟩ := hok value rfl
        refine ⟨by rw [hnode]; exact Option.some_ne_none _, ?_, ?_⟩
        · rw [ht, Function.update_self, hnode]
        · rw [ht, Function.update_of_ne hdistinct, Function.update_self]
      | error renameError =>
        have ht := (herror renameError rfl).1
        refine Program.meets_ite (fun hsame => absurd hsame.2 hdistinct) fun _ => ?_
        refine Program.meets_ite (fun _ => ⟨mapError_ne_zero renameError, Or.inl (Kept.of_files ht)⟩) fun _ => ?_
        rw [Program.meets_bind]
        refine (checkReplaceable_spec old new t).mono ?_ fun error u hu => ⟨hu.1, Or.inl (Kept.of_files (hu.2.trans ht))⟩
        rintro _ u ⟨hu, hexistsOld, hexistsNew⟩
        have hkept : Kept old new s u := Kept.of_files (hu.trans ht)
        rw [Program.meets_bind]
        refine (reserveBackup_spec root old new backupAttempts (hu ▸ hexistsOld) (hu ▸ hexistsNew)).mono ?_ fun error v hv =>
          ⟨hv.1, Or.inl (hkept.trans hv.2)⟩
        rintro backup v ⟨hv, hname⟩
        have hkept' := hkept.trans hv
        cases backup with
        | none => exact ⟨by decide, Or.inl hkept'⟩
        | some name =>
          obtain ⟨hneOld, hneNew⟩ := hname name rfl
          refine (installOver_spec hdistinct hneOld hneNew v).mono (fun _ w hw => ?_) fun error w hw => ⟨hw.1, ?_⟩
          · exact ⟨hkept'.1 ▸ hw.1, hw.2.1.trans hkept'.1, hw.2.2⟩
          · exact hw.2.imp (fun h => hkept'.trans h) id

/-- A drive `A` at `/s`, on which the first call fails because the destination exists. -/
def refusingEnvironment : Environment where
  drives := [⟨[0x2f, 0x73], true, 0x41⟩]
  outcome := fun call => if call = 0 then some .exist else none
  rejectSymlinkComponents := fun _ _ => 0

/-- Two files, `/s/a` and `/s/b`. -/
def twoFiles : Storage where
  files := fun name => if name = [0x2f, 0x73, 0x2f, 0x61] then some (.file [1]) else
    if name = [0x2f, 0x73, 0x2f, 0x62] then some (.file [2]) else none
  sequence := 0
  calls := 0
  renames := []

/-- `/a` is renamed over `/b`. -/
theorem platformStorageRename_atomic_twoFiles :
    (platformStorageRename refusingEnvironment 0x41 [0x2f, 0x61] [0x2f, 0x62]).Meets twoFiles
      (fun _ t => ∃ root old root' new, translatePath refusingEnvironment 0x41 [0x2f, 0x61] = some (root, old) ∧
        translatePath refusingEnvironment 0x41 [0x2f, 0x62] = some (root', new) ∧ Replaced old new twoFiles t)
      (fun error t => error ≠ 0 ∧ ∀ root old root' new, translatePath refusingEnvironment 0x41 [0x2f, 0x61] = some (root, old) →
        translatePath refusingEnvironment 0x41 [0x2f, 0x62] = some (root', new) →
          Kept old new twoFiles t ∨ RollbackFailed old new t) :=
  platformStorageRename_atomic refusingEnvironment 0x41 (by decide) twoFiles

example : ((platformStorageRename refusingEnvironment 0x41 [0x2f, 0x61] [0x2f, 0x62] twoFiles).state?.map
    fun t => t.renames.map RenameCall.error) = some [none, none, some .exist] := by decide +kernel

end Fs
end TabOS
