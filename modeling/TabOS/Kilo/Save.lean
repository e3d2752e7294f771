import TabOS.Kilo.Load
import Mathlib.Data.List.DropRight

/-!
# Saving

`kilo_save`: the document is written to a staged copy, the original gets a backup name, and the staged copy gets the name of the file.
Every call to the storage may fail.
-/

namespace TabOS
namespace Kilo

open Library

/-- `KILO_PATH_MAX`. -/
def pathMax : Nat := 512

/-- `KILO_TEMP_ATTEMPTS`. -/
def tempAttempts : Nat := 64

/-- `ENAMETOOLONG`. -/
def nameTooLong : Nat := 36

def slash : UInt8 := 0x2f

/-- Whether the storage takes names that differ in ASCII case for one, the outcomes of its calls, and the texts of the errors. -/
structure Medium where
  folds : Bool
  outcomes : Outcomes
  strerror : Strerror

def lower (c : UInt8) : UInt8 := if 0x41 ≤ c ∧ c ≤ 0x5a then c + 0x20 else c

/-- The name of the file that a path leads to. -/
def Medium.name (m : Medium) (path : List UInt8) : List UInt8 := if m.folds then path.map lower else path

abbrev Storage := Folder (List UInt8) UInt8

def sameBasename : List UInt8 → List UInt8 → Bool
  | [], [] => true
  | a :: left, b :: right => if lower a = lower b then sameBasename left right else false
  | _, _ => false

/-- A path up to its last slash. -/
def parent (path : List UInt8) : List UInt8 := path.rdropWhile (· ≠ slash)

/-- A path behind its last slash. -/
def basename (path : List UInt8) : List UInt8 := path.rtakeWhile (· ≠ slash)

/-- The decimal digits of a number. -/
def decimal (n : Nat) : List UInt8 := (Nat.toDigits 10 n).map Char.toUInt8

/-- The name that is tried behind a parent path. -/
def tempName (filename suffix : List UInt8) (attempt : Nat) : List UInt8 :=
  (ascii ".kilo-" ++ decimal attempt ++ ascii "." ++ suffix).take (pathMax - (parent filename).length - 1)

/-- The attempts that are left, from one on. -/
def reserveFrom (m : Medium) (filename suffix : List UInt8) : Nat → Nat → Storage → Except Nat (List UInt8) × Storage
  | 0, _, w => (.error entryExists, w)
  | left + 1, attempt, w =>
    let path := parent filename ++ tempName filename suffix attempt
    if sameBasename (basename filename) (tempName filename suffix attempt) then reserveFrom m filename suffix left (attempt + 1) w
    else
      match w.create m.outcomes (m.name path) with
      | (.ok _, w) => (.ok path, w)
      | (.error error, w) =>
        if error = entryExists then reserveFrom m filename suffix left (attempt + 1) w else (.error error, w)

def reserve (m : Medium) (filename suffix : List UInt8) (w : Storage) : Except Nat (List UInt8) × Storage :=
  if (parent filename).length > pathMax - 40 then (.error nameTooLong, w)
  else reserveFrom m filename suffix tempAttempts 0 w

def writeAll (m : Medium) (path data : List UInt8) (w : Storage) : Except Nat Unit × Storage :=
  if data = [] then (.ok (), w)
  else
    match w.append m.outcomes (m.name path) data with
    | (.error error, w) => (.error error, w)
    | (.ok count, w) =>
      if _hcount : count = 0 ∨ count > data.length then (.error inputOutput, w)
      else writeAll m path (data.drop count) w
termination_by data.length
decreasing_by
  rw [List.length_drop]
  omega

/-- The rows and their line endings, as far as they can be written. -/
def writeRows (m : Medium) (path : List UInt8) : List Row → Storage → Except Nat Unit × Storage
  | [], w => (.ok (), w)
  | row :: rows, w =>
    match writeAll m path row.content w with
    | (.error error, w) => (.error error, w)
    | (.ok _, w) =>
      if row.ending = 0 then writeRows m path rows w
      else
        match writeAll m path ((if row.ending = 2 then [returnByte, newlineByte] else [newlineByte]).take row.ending) w with
        | (.error error, w) => (.error error, w)
        | (.ok _, w) => writeRows m path rows w

/-- A message about an error. -/
def Medium.failure (m : Medium) (action : List UInt8) (error : Nat) : List UInt8 := action ++ ascii ": " ++ m.strerror error

/-- A save up to its staged copy. -/
def stageCopy (m : Medium) (e : Editor) (w : Storage) : Except (List UInt8) (List UInt8) × Storage :=
  match reserve m e.filename (ascii "tmp") w with
  | (.error error, w) => (.error (m.failure (ascii "Cannot stage save") error), w)
  | (.ok staged, w) =>
    match writeRows m staged e.rows w with
    | (.error error, w) =>
      (.error (m.failure (ascii "Save staging failed; original unchanged") error),
        ((w.close m.outcomes).2.unlink m.outcomes (m.name staged)).2)
    | (.ok _, w) =>
      match w.close m.outcomes with
      | (.error error, w) =>
        (.error (m.failure (ascii "Save staging failed; original unchanged") error), (w.unlink m.outcomes (m.name staged)).2)
      | (.ok _, w) => (.ok staged, w)

/-- The backup name of the original, which has it from here on. -/
def renameOriginal (m : Medium) (filename : List UInt8) (w : Storage) : Except (List UInt8) (List UInt8) × Storage :=
  match reserve m filename (ascii "bak") w with
  | (.error error, w) => (.error (m.failure (ascii "Cannot reserve backup") error), w)
  | (.ok backup, w) =>
    match w.close m.outcomes with
    | (.error error, w) => (.error (m.failure (ascii "Cannot prepare backup") error), w)
    | (.ok _, w) =>
      match w.unlink m.outcomes (m.name backup) with
      | (.error error, w) => (.error (m.failure (ascii "Cannot prepare backup") error), w)
      | (.ok _, w) =>
        match w.rename m.outcomes (m.name filename) (m.name backup) with
        | (.error error, w) => (.error (m.failure (ascii "Cannot move original to backup") error), w)
        | (.ok _, w) => (.ok backup, w)

/-- A save up to where the name of the file is free, with the backup name of the original if there is one. -/
def freeName (m : Medium) (filename : List UInt8) (w : Storage) : Except (List UInt8) (Option (List UInt8)) × Storage :=
  match w.stat m.outcomes (m.name filename) with
  | (.error error, w) =>
    if error = noEntry then (.ok none, w) else (.error (m.failure (ascii "Cannot replace destination") error), w)
  | (.ok true, w) => (.error (m.failure (ascii "Cannot replace destination") isDirectory), w)
  | (.ok false, w) =>
    match renameOriginal m filename w with
    | (.error message, w) => (.error message, w)
    | (.ok backup, w) => (.ok (some backup), w)

/-- A message that is kept for the end of the program, too. -/
def recover (text : List UInt8) (e : Editor) : Editor := { kiloStatus text e with recovery := text.take 1199 }

def bothCopies (backup staged : List UInt8) : List UInt8 :=
  ascii "SAVE FAILED: original at " ++ backup ++ ascii "; edited copy at " ++ staged

def editedCopy (reason staged : List UInt8) : List UInt8 := ascii "Save failed (" ++ reason ++ ascii "); edited copy at " ++ staged

/-- A save from where the name of the file is free. -/
def putInPlace (m : Medium) (e : Editor) (staged : List UInt8) (backup : Option (List UInt8)) (w : Storage) : (Bool × Editor) × Storage :=
  match w.rename m.outcomes (m.name staged) (m.name e.filename), backup with
  | (.error error, w), none => ((false, recover (editedCopy (m.strerror error) staged) e), w)
  | (.error error, w), some backup =>
    match w.rename m.outcomes (m.name backup) (m.name e.filename) with
    | (.error _, w) => ((false, recover (bothCopies backup staged) e), w)
    | (.ok _, w) => ((false, recover (editedCopy (m.strerror error) staged) e), w)
  | (.ok _, w), none => ((true, kiloStatus (ascii "Saved") { e with dirty := false }), w)
  | (.ok _, w), some backup =>
    match w.unlink m.outcomes (m.name backup) with
    | (.error _, w) => ((true, recover (ascii "Saved; remove leftover backup: " ++ backup) { e with dirty := false }), w)
    | (.ok _, w) => ((true, kiloStatus (ascii "Saved") { e with dirty := false }), w)

def kiloSave (m : Medium) (e : Editor) (w : Storage) : (Bool × Editor) × Storage :=
  match stageCopy m e w with
  | (.error message, w) => ((false, kiloStatus message e), w)
  | (.ok staged, w) =>
    match freeName m e.filename w with
    | (.error message, w) => ((false, kiloStatus message e), (w.unlink m.outcomes (m.name staged)).2)
    | (.ok backup, w) => putInPlace m e staged backup w

end Kilo
end TabOS
