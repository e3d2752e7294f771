import Mathlib.Data.List.Basic
import Mathlib.Logic.Function.Basic

/-!
# Folders whose calls may fail

A folder keeps a file or a folder under each name. Any call may fail, for a reason of its own or because of what the folder keeps, and a
call that fails changes nothing; one that writes may write only a part.
-/

namespace Library

/-- The numbers of the errors. -/
def noEntry : Nat := 2
def inputOutput : Nat := 5
def entryExists : Nat := 17
def isDirectory : Nat := 21

/-- What stands under a name. -/
inductive Entry (α : Type*) where
  | file (values : List α)
  | directory
  deriving DecidableEq, Repr

/-- What becomes of a call: an error of its own, and how much a call writes that has none. -/
structure Outcome where
  error : Option Nat
  count : Nat

/-- The outcomes of the calls, in the order in which they are made. -/
abbrev Outcomes := Nat → Outcome

/-- What stands under the names, how many calls were made, and the renames among them, the last one first, with whether they succeeded. -/
structure Folder (κ α : Type*) where
  entries : κ → Option (Entry α)
  calls : Nat
  renames : List (κ × κ × Bool)

namespace Folder

variable {κ α : Type*} {outcomes : Outcomes} {name : κ} {f f' : Folder κ α} {error : Nat}

/-- A folder before any call. -/
def initial (entries : κ → Option (Entry α)) : Folder κ α := ⟨entries, 0, []⟩

/-- A call that changes nothing. -/
def called (f : Folder κ α) : Folder κ α := { f with calls := f.calls + 1 }

/-- Nothing stands otherwise, and nothing was renamed. -/
def Same (f f' : Folder κ α) : Prop := f'.entries = f.entries ∧ f'.renames = f.renames

/-- Closes a file. -/
def close (outcomes : Outcomes) (f : Folder κ α) : Except Nat Unit × Folder κ α :=
  match (outcomes f.calls).error with
  | some error => (.error error, f.called)
  | none => (.ok (), f.called)

/-- Whether a directory stands under a name. -/
def stat (outcomes : Outcomes) (name : κ) (f : Folder κ α) : Except Nat Bool × Folder κ α :=
  match (outcomes f.calls).error, f.entries name with
  | some error, _ => (.error error, f.called)
  | none, none => (.error noEntry, f.called)
  | none, some (.file _) => (.ok false, f.called)
  | none, some .directory => (.ok true, f.called)

theorem Same.trans {f'' : Folder κ α} (h : Same f f') (h' : Same f' f'') : Same f f'' := ⟨h'.1.trans h.1, h'.2.trans h.2⟩

theorem close_same (outcomes : Outcomes) (f : Folder κ α) : Same f (f.close outcomes).2 := by
  unfold close
  split
  · exact ⟨rfl, rfl⟩
  · exact ⟨rfl, rfl⟩

theorem stat_same (outcomes : Outcomes) (name : κ) (f : Folder κ α) : Same f (f.stat outcomes name).2 := by
  unfold stat
  split
  · exact ⟨rfl, rfl⟩
  · exact ⟨rfl, rfl⟩
  · exact ⟨rfl, rfl⟩
  · exact ⟨rfl, rfl⟩

theorem stat_file (h : f.stat outcomes name = (.ok false, f')) : ∃ values, f.entries name = some (.file values) := by
  unfold stat at h
  split at h
  · exact nomatch h
  · exact nomatch h
  · rename_i values _ hfile
    exact ⟨values, hfile⟩
  · exact nomatch h

variable [DecidableEq κ]

/-- A call that changes what stands under a name. -/
def put (f : Folder κ α) (name : κ) (entry : Option (Entry α)) : Folder κ α :=
  { f.called with entries := Function.update f.entries name entry }

/-- Makes an empty file under a name under which nothing stands. -/
def create (outcomes : Outcomes) (name : κ) (f : Folder κ α) : Except Nat Unit × Folder κ α :=
  match (outcomes f.calls).error, f.entries name with
  | some error, _ => (.error error, f.called)
  | none, some _ => (.error entryExists, f.called)
  | none, none => (.ok (), f.put name (some (.file [])))

/-- Makes a directory under a name under which nothing stands. -/
def mkdir (outcomes : Outcomes) (name : κ) (f : Folder κ α) : Except Nat Unit × Folder κ α :=
  match (outcomes f.calls).error, f.entries name with
  | some error, _ => (.error error, f.called)
  | none, some _ => (.error entryExists, f.called)
  | none, none => (.ok (), f.put name (some .directory))

/-- Writes some of the values behind those of a file, and tells how many. -/
def append (outcomes : Outcomes) (name : κ) (values : List α) (f : Folder κ α) : Except Nat Nat × Folder κ α :=
  match (outcomes f.calls).error, f.entries name with
  | some error, _ => (.error error, f.called)
  | none, some (.file before) =>
    (.ok (outcomes f.calls).count, f.put name (some (.file (before ++ values.take (outcomes f.calls).count))))
  | none, _ => (.error inputOutput, f.called)

/-- Moves what stands under a name to another, over the file that stands there. -/
def rename (outcomes : Outcomes) (source target : κ) (f : Folder κ α) : Except Nat Unit × Folder κ α :=
  let failed := { f.called with renames := (source, target, false) :: f.renames }
  match (outcomes f.calls).error, f.entries source, f.entries target with
  | some error, _, _ => (.error error, failed)
  | none, none, _ => (.error noEntry, failed)
  | none, some _, some .directory => (.error isDirectory, failed)
  | none, some entry, _ =>
    (.ok (), { f.called with
      entries := Function.update (Function.update f.entries source none) target (some entry)
      renames := (source, target, true) :: f.renames })

/-- Removes a file. -/
def unlink (outcomes : Outcomes) (name : κ) (f : Folder κ α) : Except Nat Unit × Folder κ α :=
  match (outcomes f.calls).error, f.entries name with
  | some error, _ => (.error error, f.called)
  | none, none => (.error noEntry, f.called)
  | none, some .directory => (.error isDirectory, f.called)
  | none, some (.file _) => (.ok (), f.put name none)

/-! ## What the calls do -/

/-- Something else stands under a name, and nothing was renamed. -/
def Puts (name : κ) (entry : Option (Entry α)) (f f' : Folder κ α) : Prop :=
  f'.entries = Function.update f.entries name entry ∧ f'.renames = f.renames

theorem Same.puts {f'' : Folder κ α} {entry : Option (Entry α)} (h : Same f f') (h' : Puts name entry f' f'') :
    Puts name entry f f'' := by
  refine ⟨?_, h'.2.trans h.2⟩
  rw [h'.1, h.1]

theorem Puts.same {f'' : Folder κ α} {entry : Option (Entry α)} (h : Puts name entry f f') (h' : Same f' f'') : Puts name entry f f'' :=
  ⟨h'.1.trans h.1, h'.2.trans h.2⟩

/-- What is put under a name last stays there. -/
theorem Puts.puts {f'' : Folder κ α} {entry entry' : Option (Entry α)} (h : Puts name entry f f') (h' : Puts name entry' f' f'') :
    Puts name entry' f f'' := by
  refine ⟨?_, h'.2.trans h.2⟩
  rw [h'.1, h.1, Function.update_idem]

theorem Puts.self {entry : Option (Entry α)} (h : Puts name entry f f') : f'.entries name = entry := by
  rw [h.1, Function.update_self]

theorem Puts.other {entry : Option (Entry α)} (h : Puts name entry f f') {other : κ} (hne : other ≠ name) :
    f'.entries other = f.entries other := by
  rw [h.1, Function.update_of_ne hne]

theorem create_ok {u : Unit} (h : f.create outcomes name = (.ok u, f')) : f.entries name = none ∧ Puts name (some (.file [])) f f' := by
  unfold create at h
  split at h
  · exact nomatch h
  · exact nomatch h
  · rename_i habsent
    obtain rfl := (Prod.mk.inj h).2
    exact ⟨habsent, rfl, rfl⟩

theorem create_error (h : f.create outcomes name = (.error error, f')) : Same f f' := by
  unfold create at h
  split at h
  · obtain rfl := (Prod.mk.inj h).2
    exact ⟨rfl, rfl⟩
  · obtain rfl := (Prod.mk.inj h).2
    exact ⟨rfl, rfl⟩
  · exact nomatch h

/-- Whatever comes of a write, the file holds what it held and some of what was written. -/
theorem append_ok {values before : List α} {count : Nat} (h : f.append outcomes name values = (.ok count, f'))
    (hfile : f.entries name = some (.file before)) : Puts name (some (.file (before ++ values.take count))) f f' := by
  unfold append at h
  split at h
  · exact nomatch h
  · rename_i before' _ hbefore
    obtain ⟨hcount, rfl⟩ := Prod.mk.inj h
    obtain rfl := Except.ok.inj hcount
    obtain rfl := Entry.file.inj (Option.some.inj (hbefore.symm.trans hfile))
    exact ⟨rfl, rfl⟩
  · exact nomatch h

theorem append_error {values : List α} (h : f.append outcomes name values = (.error error, f')) : Same f f' := by
  unfold append at h
  split at h
  · obtain rfl := (Prod.mk.inj h).2
    exact ⟨rfl, rfl⟩
  · exact nomatch h
  · obtain rfl := (Prod.mk.inj h).2
    exact ⟨rfl, rfl⟩

theorem rename_ok {source target : κ} {u : Unit} (h : f.rename outcomes source target = (.ok u, f')) :
    ∃ entry, f.entries source = some entry ∧
      f'.entries = Function.update (Function.update f.entries source none) target (some entry) ∧
      f'.renames = (source, target, true) :: f.renames := by
  unfold rename at h
  dsimp only at h
  split at h
  · exact nomatch h
  · exact nomatch h
  · exact nomatch h
  · rename_i entry _ hsource _
    obtain rfl := (Prod.mk.inj h).2
    exact ⟨entry, hsource, rfl, rfl⟩

theorem rename_error {source target : κ} (h : f.rename outcomes source target = (.error error, f')) :
    f'.entries = f.entries ∧ f'.renames = (source, target, false) :: f.renames := by
  unfold rename at h
  dsimp only at h
  split at h
  · obtain rfl := (Prod.mk.inj h).2
    exact ⟨rfl, rfl⟩
  · obtain rfl := (Prod.mk.inj h).2
    exact ⟨rfl, rfl⟩
  · obtain rfl := (Prod.mk.inj h).2
    exact ⟨rfl, rfl⟩
  · exact nomatch h

theorem unlink_ok {u : Unit} (h : f.unlink outcomes name = (.ok u, f')) : Puts name none f f' := by
  unfold unlink at h
  split at h
  · exact nomatch h
  · exact nomatch h
  · exact nomatch h
  · obtain rfl := (Prod.mk.inj h).2
    exact ⟨rfl, rfl⟩

theorem unlink_error (h : f.unlink outcomes name = (.error error, f')) : Same f f' := by
  unfold unlink at h
  split at h
  · obtain rfl := (Prod.mk.inj h).2
    exact ⟨rfl, rfl⟩
  · obtain rfl := (Prod.mk.inj h).2
    exact ⟨rfl, rfl⟩
  · obtain rfl := (Prod.mk.inj h).2
    exact ⟨rfl, rfl⟩
  · exact nomatch h

end Folder
end Library
