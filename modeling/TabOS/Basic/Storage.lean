import TabOS.Basic.Program
import TabOS.Kilo.Save

/-!
# Saving and loading programs

`apps/basic/src/basic_storage.c`: a program is written to a temporary file that then gets its name, and is read into a buffer of its own
that is copied to the memory of the interpreter last. A call that is interrupted is made again; `patience` bounds how often a loop goes
round, and where it is used up the call has not returned.
-/

namespace TabOS
namespace Basic

open Library
open Kilo (ascii decimal lower Storage)

def nameLimit : Nat := 63
def pathCapacity : Nat := 96

/-- `EINTR`. -/
def interrupted : Nat := 4

/-- What a call comes to instead of returning: it waits, or it reads outside what it may read. -/
inductive Fault where
  | waiting | outside
  deriving DecidableEq, Repr

/-! ## Names -/

/-- `filename`, when it is valid. -/
structure Filename where
  bytes : List UInt8
  length_pos : 0 < bytes.length
  length_le : bytes.length ≤ nameLimit
  no_zero : 0 ∉ bytes

/-- `filename`, `device` and `secondary`; a name that is not valid is none. -/
structure Settings where
  filename : Option Filename
  device : UInt8
  secondary : UInt8

def basicStorageInit : Settings := ⟨none, 1, 0⟩

/-- The bytes of the memory from an address on. -/
def slice (ram : Nat → UInt8) (address length : Nat) : List UInt8 := (List.range length).map fun place => ram (address + place)

theorem length_slice (ram : Nat → UInt8) (address length : Nat) : (slice ram address length).length = length := by
  rw [slice, List.length_map, List.length_range]

def basicStorageName (machine : Machine) (settings : Settings) : Settings :=
  let address := wordOf machine.x machine.y
  let length := machine.a.toNat
  if hrefused : length = 0 ∨ length > nameLimit ∨ address + length > ramSize then { settings with filename := none }
  else if hzero : 0 ∈ slice machine.ram address length then { settings with filename := none }
  else
    { settings with
      filename := some
        ⟨slice machine.ram address length, by rw [length_slice]; omega, by rw [length_slice]; omega, hzero⟩ }

def basicStorageDevice (machine : Machine) (settings : Settings) : Settings :=
  { settings with device := machine.x, secondary := machine.y }

def isLetter (byte : UInt8) : Bool := (0x41 ≤ byte ∧ byte ≤ 0x5a) ∨ (0x61 ≤ byte ∧ byte ≤ 0x7a)

def isAllowed (byte : UInt8) : Bool :=
  isLetter byte ∨ (0x30 ≤ byte ∧ byte ≤ 0x39) ∨ byte = 0x5f ∨ byte = 0x2d ∨ byte = 0x2e ∨ byte = 0x20

/-- A component that is empty, or that a dot or a space begins or ends. -/
def badComponent (component : List UInt8) : Bool :=
  component = [] ∨ component.head? = some 0x2e ∨ component.head? = some 0x20 ∨ component.getLast? = some 0x2e ∨
    component.getLast? = some 0x20

/-- The components of a path, from one of which some is read. -/
def componentsError (component : List UInt8) : List UInt8 → Option String
  | [] => if badComponent component then some "INVALID PATH COMPONENT" else none
  | byte :: bytes =>
    if byte = 0x2f then if badComponent component then some "INVALID PATH COMPONENT" else componentsError [] bytes
    else if isAllowed byte then componentsError (component ++ [byte]) bytes
    else some "UNSUPPORTED FILENAME CHARACTER"

/-- `snprintf` into a path. -/
def formatted (text : List UInt8) : List UInt8 := text.take (pathCapacity - 1)

/-- `path_for`: the path, and whether it is in the default directory. -/
def pathFor (settings : Settings) : Except String (List UInt8 × Bool) :=
  match settings.filename with
  | none => .error "INVALID FILENAME (1-63 BYTES REQUIRED)"
  | some filename =>
    let name := filename.bytes
    let defaultDirectory := decide (0x3a ∉ name)
    let component := if defaultDirectory then name else name.drop 3
    let text := formatted ((if defaultDirectory then ascii "T:/basic/" else []) ++ name)
    if (settings.device ≠ 1 ∧ settings.device ≠ 8) ∨ settings.secondary ≠ 0 then .error "UNSUPPORTED DEVICE OR SECONDARY ADDRESS"
    else if defaultDirectory = false ∧ ¬(name.head?.any isLetter ∧ name[1]? = some 0x3a ∧ name[2]? = some 0x2f) then
      .error "INVALID TABOS PATH"
    else if defaultDirectory = true ∧ 0x2f ∈ name then .error "USE A BARE NAME OR ABSOLUTE DRIVE PATH"
    else
      match componentsError [] component with
      | some error => .error error
      | none => .ok (text, defaultDirectory)

/-! ## Saving -/

/-- Whether the storage takes names that differ in ASCII case for one, and the outcomes of its calls. -/
structure Medium where
  folds : Bool
  outcomes : Outcomes

/-- The name of the file that a path leads to. -/
def Medium.name (m : Medium) (path : List UInt8) : List UInt8 := if m.folds then path.map lower else path

def writeAll (m : Medium) (path : List UInt8) : Nat → List UInt8 → Storage → Except Fault (Bool × Storage)
  | _, [], w => .ok (true, w)
  | 0, _ :: _, _ => .error .waiting
  | patience + 1, data, w =>
    match w.append m.outcomes (m.name path) data with
    | (.error error, w) => if error = interrupted then writeAll m path patience data w else .ok (false, w)
    | (.ok count, w) =>
      if count = 0 ∨ count > data.length then .ok (false, w) else writeAll m path patience (data.drop count) w

/-- The name of a temporary file, of the attempts that are left from one on. -/
def openTemporary (m : Medium) (path : List UInt8) : Nat → Nat → Storage → Option (List UInt8) × Storage
  | 0, _, w => (none, w)
  | left + 1, attempt, w =>
    let temporary := formatted (path ++ ascii ".tmp" ++ decimal attempt)
    match w.create m.outcomes (m.name temporary) with
    | (.ok _, w) => (some temporary, w)
    | (.error error, w) => if error = entryExists then openTemporary m path left (attempt + 1) w else (none, w)

/-- Two calls of `write_all`, the second one only when the first has written all. -/
def writeProgram (m : Medium) (patience : Nat) (temporary header program : List UInt8) (w : Storage) : Except Fault (Bool × Storage) :=
  match writeAll m temporary patience header w with
  | .error fault => .error fault
  | .ok (false, w) => .ok (false, w)
  | .ok (true, w) => writeAll m temporary patience program w

/-- `basic_storage_save` from where the temporary file is written, and its path names another one. -/
def replaceFile (m : Medium) (path temporary : List UInt8) (w : Storage) : Option String × Storage :=
  let backup := formatted (path ++ ascii ".bak")
  match w.stat m.outcomes (m.name path) with
  | (.error _, w) | (.ok true, w) => (some "SAVE DESTINATION IS NOT A REGULAR FILE", w)
  | (.ok false, w) =>
    match w.stat m.outcomes (m.name backup) with
    | (.ok _, w) => (some "SAVE BACKUP EXISTS OR IS INACCESSIBLE", w)
    | (.error error, w) =>
      if error ≠ noEntry then (some "SAVE BACKUP EXISTS OR IS INACCESSIBLE", w)
      else
        match w.rename m.outcomes (m.name path) (m.name backup) with
        | (.error _, w) => (some "SAVE BACKUP FAILED (TEMPORARY FILE RETAINED)", w)
        | (.ok _, w) =>
          match w.rename m.outcomes (m.name temporary) (m.name path) with
          | (.error _, w) =>
            match w.rename m.outcomes (m.name backup) (m.name path) with
            | (.error _, w) => (some "SAVE PROMOTION/RESTORE FAILED (BACKUP AND TEMP RETAINED)", w)
            | (.ok _, w) => (some "SAVE PROMOTION FAILED (OLD FILE RESTORED)", w)
          | (.ok _, w) =>
            match w.unlink m.outcomes (m.name backup) with
            | (.error _, w) => (some "SAVE COMPLETED BUT BACKUP CLEANUP FAILED", w)
            | (.ok _, w) => (none, w)

/-- `basic_storage_save` from where the program is to be written to the temporary file. -/
def writeFile (m : Medium) (patience : Nat) (path temporary program : List UInt8) (w : Storage) :
    Except Fault (Option String × Storage) :=
  match writeProgram m patience temporary [1, 8] program w with
  | .error fault => .error fault
  | .ok (complete, w) =>
    match w.close m.outcomes with
    | (.error _, w) => .ok (some "SAVE WRITE/CLOSE FAILED", (w.unlink m.outcomes (m.name temporary)).2)
    | (.ok _, w) =>
      if complete = false then .ok (some "SAVE WRITE/CLOSE FAILED", (w.unlink m.outcomes (m.name temporary)).2)
      else
        match w.rename m.outcomes (m.name temporary) (m.name path) with
        | (.ok _, w) => .ok (none, w)
        | (.error error, w) =>
          if error ≠ entryExists then .ok (some "SAVE RENAME FAILED (TEMPORARY FILE RETAINED)", w)
          else .ok (replaceFile m path temporary w)

/-- Makes the default directory, unless it is there. -/
def makeDirectory (m : Medium) (defaultDirectory : Bool) (w : Storage) : Bool × Storage :=
  if defaultDirectory then
    match w.mkdir m.outcomes (m.name (ascii "T:/basic")) with
    | (.ok _, w) => (true, w)
    | (.error error, w) => (error = entryExists, w)
  else (true, w)

def basicStorageSave (m : Medium) (patience : Nat) (settings : Settings) (machine : Machine) (w : Storage) :
    Except Fault (Option String × Storage) :=
  match pathFor settings with
  | .error error => .ok (some error, w)
  | .ok (path, defaultDirectory) =>
    let start := wordOf (machine.ram machine.a.toNat) (machine.ram (machine.a.toNat + 1))
    let finish := wordOf machine.x machine.y
    if machine.a ≠ 0x2b ∨ start ≠ programStart ∨ finish < start + 2 ∨ finish > programEnd then .ok (some "INVALID PROGRAM SPAN", w)
    else
      match validProgram (window machine.ram start (finish - start)) (finish - start) with
      | none => .error .outside
      | some false => .ok (some "INVALID PROGRAM SPAN", w)
      | some true =>
        match makeDirectory m defaultDirectory w with
        | (false, w) => .ok (some "CANNOT CREATE T:/basic", w)
        | (true, w) =>
          match openTemporary m path 16 0 w with
          | (none, w) => .ok (some "CANNOT OPEN SAVE TEMPORARY FILE", w)
          | (some temporary, w) => writeFile m patience path temporary (slice machine.ram start (finish - start)) w

/-! ## Loading -/

/-- What a call of `read` comes to; any other error is one. -/
inductive Answer where
  | interrupted | failed | bytes (data : List UInt8)
  deriving DecidableEq, Repr

/-- What the calls of a load come to: the error of `open`, whether a regular file is there and its size unless `fstat` fails, whether
there is memory of a size, what a read of a path, the call before it, the place and the size being given, comes to, and whether `close`
succeeds. -/
structure Device where
  opens : List UInt8 → Option Nat
  fstat : List UInt8 → Option (Bool × Int)
  malloc : Nat → Bool
  read : List UInt8 → Nat → Nat → Nat → Answer
  close : Bool

/-- Reads the file until the buffer holds as much as there is room for; the calls made before are counted. -/
def readAll (device : Device) (path : List UInt8) (size : Nat) : Nat → Nat → List UInt8 → Except Fault (Except String (List UInt8) × Nat)
  | patience, calls, staged =>
    if staged.length < size then
      match patience with
      | 0 => .error .waiting
      | patience + 1 =>
        match device.read path calls staged.length (size - staged.length) with
        | .interrupted => readAll device path size patience (calls + 1) staged
        | .failed => .ok (.error "LOAD READ FAILED OR TRUNCATED", calls + 1)
        | .bytes data =>
          if data = [] ∨ data.length > size - staged.length then .ok (.error "LOAD READ FAILED OR TRUNCATED", calls + 1)
          else readAll device path size patience (calls + 1) (staged ++ data)
    else .ok (.ok staged, calls)

/-- Reads one byte more, behind those that were read; whether there is none. -/
def readExtra (device : Device) (path : List UInt8) (size : Nat) : Nat → Nat → Except Fault Bool
  | 0, _ => .error .waiting
  | patience + 1, calls =>
    match device.read path calls size 1 with
    | .interrupted => readExtra device path size patience (calls + 1)
    | .failed => .ok false
    | .bytes data => .ok (data = [])

/-- The buffer that a load stages, up to the close of the file. -/
def stage (device : Device) (path : List UInt8) (patience : Nat) : Except Fault (Except String (List UInt8)) :=
  let capacity := programEnd - programStart + 2
  match device.fstat path with
  | none => .ok (.error "INVALID PROGRAM FILE SIZE/TYPE")
  | some (regular, size) =>
    if regular = false ∨ size < 4 ∨ size > capacity then .ok (.error "INVALID PROGRAM FILE SIZE/TYPE")
    else if device.malloc size.toNat = false then .ok (.error "OUT OF MEMORY STAGING LOAD")
    else
      match readAll device path size.toNat patience 0 [] with
      | .error fault => .error fault
      | .ok (.error error, _) => .ok (.error error)
      | .ok (.ok staged, calls) =>
        match readExtra device path size.toNat patience calls with
        | .error fault => .error fault
        | .ok true => .ok (.ok staged)
        | .ok false => .ok (.error "LOAD FILE CHANGED OR READ FAILED")

/-- The check and the commit of a staged buffer, which alone change the machine. -/
def commit (machine : Machine) (staged : List UInt8) : Except Fault (Option String × Machine) :=
  match word (staged[·]?) 0 with
  | none => .error .outside
  | some start =>
    if start ≠ programStart then .ok (some "INVALID TOKENIZED PROGRAM", machine)
    else
      match validProgram (fun place => staged[2 + place]?) (staged.length - 2) with
      | none => .error .outside
      | some false => .ok (some "INVALID TOKENIZED PROGRAM", machine)
      | some true =>
        let finish := programStart + staged.length - 2
        .ok (none,
          { machine with
            ram := fun address =>
              if programStart ≤ address ∧ address < finish then staged.getD (2 + (address - programStart)) 0 else machine.ram address
            x := UInt8.ofNat finish
            y := UInt8.ofNat (finish >>> 8) })

/-- Opens the file, or the packaged one of the name; the path that was opened. -/
def openLoad (device : Device) (settings : Settings) (path : List UInt8) (defaultDirectory : Bool) : Except String (List UInt8) :=
  let packaged := formatted (ascii "T:/data/basic/" ++ (settings.filename.map (·.bytes)).getD [])
  let failure := fun error => if error = noEntry then "FILE NOT FOUND" else "CANNOT OPEN LOAD FILE"
  match device.opens path with
  | none => .ok path
  | some error =>
    if error = noEntry ∧ defaultDirectory = true then
      match device.opens packaged with
      | none => .ok packaged
      | some error => .error (failure error)
    else .error (failure error)

def basicStorageLoad (device : Device) (patience : Nat) (settings : Settings) (machine : Machine) :
    Except Fault (Option String × Machine) :=
  match pathFor settings with
  | .error error => .ok (some error, machine)
  | .ok (path, defaultDirectory) =>
    if machine.a ≠ 0 ∨ wordOf (machine.ram 0x2b) (machine.ram 0x2c) ≠ programStart ∨ wordOf machine.x machine.y ≠ programStart then
      .ok (some "UNSUPPORTED LOAD MODE", machine)
    else
      match openLoad device settings path defaultDirectory with
      | .error error => .ok (some error, machine)
      | .ok path =>
        match stage device path patience with
        | .error fault => .error fault
        | .ok (.error error) => .ok (some error, machine)
        | .ok (.ok staged) => if device.close = false then .ok (some "LOAD CLOSE FAILED", machine) else commit machine staged

end Basic
end TabOS
