import TabOS.Library.Program
import Mathlib.Data.List.Basic

/-!
# Path normalisation

`filesystem_normalize_path` and the lexical resolution it computes. The working directory is a canonical path: an upper-case drive
and the components below its root. The output buffer is a list of bytes, and a write outside of it goes wrong. The resolution is
said in terms of the names between the separators of the path, and fails where one of its steps does not fit the buffer.
-/

namespace TabOS
namespace Fs

open Library

/-- `TABOS_FS_NAME_MAX`. -/
def nameMax : Nat := 255

def separator : UInt8 := 0x2f
def colon : UInt8 := 0x3a
def dot : UInt8 := 0x2e

def isUpper (byte : UInt8) : Bool := 0x41 ≤ byte && byte ≤ 0x5a

def isLower (byte : UInt8) : Bool := 0x61 ≤ byte && byte ≤ 0x7a

/-- The bytes of a C string before its terminator. -/
@[ext] structure CString where
  bytes : List UInt8
  terminated : 0 ∉ bytes
  deriving DecidableEq

def CString.empty : CString := ⟨[], List.not_mem_nil⟩

/-- One path below another. -/
def CString.join (directory path : CString) : CString where
  bytes := directory.bytes ++ separator :: path.bytes
  terminated := by
    simp only [List.mem_append, List.mem_cons, not_or]
    exact ⟨directory.terminated, by decide, path.terminated⟩

/-- The byte at an index of a string, which is zero at its end. -/
def CString.at (s : CString) (index : Nat) : UInt8 := s.bytes.getD index 0

/-- The output buffer and the length of the text in it. -/
structure Normalization where
  output : List UInt8
  length : Nat
  deriving DecidableEq, Repr

/-! ## The code -/

/-- A byte of the output buffer. -/
def load (index : Nat) : Program Unit Normalization UInt8 := fun s =>
  match s.output[index]? with
  | some byte => .done byte s
  | none => .wrong

/-- Sets a byte of the output buffer. -/
def store (index : Nat) (byte : UInt8) : Program Unit Normalization Unit := fun s =>
  if index < s.output.length then .done () { s with output := s.output.set index byte } else .wrong

/-- `memcpy` into the output buffer. -/
def copy (index : Nat) : List UInt8 → Program Unit Normalization Unit
  | [] => pure ()
  | byte :: bytes => do
    store index byte
    copy (index + 1) bytes

def setLength (length : Nat) : Program Unit Normalization Unit := Program.modify fun s => { s with length := length }

/-- The separator before a component, which the root has already. -/
def storeSeparator (gap length : Nat) : Program Unit Normalization Unit := if gap ≠ 0 then store length separator else pure ()

def appendComponent (component : List UInt8) : Program Unit Normalization Unit := do
  let length ← Program.observe Normalization.length
  let outputSize ← Program.observe fun s => s.output.length
  if component.length > nameMax then Program.refuse ()
  else
    let gap := if length > 3 then 1 else 0
    if length + gap + component.length ≥ outputSize then Program.refuse ()
    else do
      storeSeparator gap length
      copy (length + gap) component
      setLength (length + gap + component.length)
      store (length + gap + component.length) 0

/-- The walk back to the separator before the last component. -/
def lastSeparator : Nat → Program Unit Normalization Nat
  | 0 => pure 0
  | length + 1 =>
    if length + 1 > 3 then do
      let byte ← load length
      if byte ≠ separator then lastSeparator length else pure (length + 1)
    else pure (length + 1)

def removeComponent : Program Unit Normalization Unit := do
  let length ← Program.observe Normalization.length
  if length ≤ 3 then pure ()
  else do
    let length ← lastSeparator length
    let length := if length > 3 then length - 1 else length
    setLength length
    store length 0

/-- What `consume_path` does with a component. -/
def consumeComponent (component : List UInt8) : Program Unit Normalization Unit :=
  if component = [dot] then pure ()
  else if component = [dot, dot] then removeComponent
  else appendComponent component

theorem length_dropWhile_lt {cursor rest : List UInt8} {byte : UInt8} (h : cursor.dropWhile (· = separator) = byte :: rest) :
    ((byte :: rest).dropWhile (· ≠ separator)).length < cursor.length := by
  have hsuffix : (byte :: rest).length ≤ cursor.length := h ▸ (List.dropWhile_suffix _).length_le
  have hbyte : byte ≠ separator := by
    have hhead := List.head_dropWhile_not (p := (· = separator)) (l := cursor) (by rw [h]; exact List.cons_ne_nil _ _)
    simpa [h] using hhead
  have hrest : ((byte :: rest).dropWhile (· ≠ separator)).length ≤ rest.length := by
    rw [List.dropWhile_cons_of_pos (by simpa using hbyte)]
    exact (List.dropWhile_suffix _).length_le
  rw [List.length_cons] at hsuffix
  omega

def consumePath (cursor : List UInt8) : Program Unit Normalization Unit :=
  match _h : cursor.dropWhile (· = separator) with
  | [] => pure ()
  | byte :: rest => do
    consumeComponent ((byte :: rest).takeWhile (· ≠ separator))
    consumePath ((byte :: rest).dropWhile (· ≠ separator))
termination_by cursor.length
decreasing_by exact length_dropWhile_lt _h

/-- A path with a drive prefix. -/
def CString.qualified (path : CString) : Bool := (isUpper (path.at 0) || isLower (path.at 0)) && path.at 1 == colon

/-- `filesystem_normalize_path` on paths that are not null. -/
def filesystemNormalizePath (path workingDirectory : CString) : Program Unit Normalization Unit := do
  let outputSize ← Program.observe fun s => s.output.length
  if outputSize < 4 ∨ path.at 0 = 0 ∨ isUpper (workingDirectory.at 0) = false ∨ workingDirectory.at 1 ≠ colon ∨
      workingDirectory.at 2 ≠ separator then Program.refuse ()
  else
    let drive := if path.qualified then (if 0x61 ≤ path.at 0 then path.at 0 - 0x20 else path.at 0) else workingDirectory.at 0
    let source := if path.qualified then path.bytes.drop 2 else path.bytes
    if path.qualified = true ∧ source.getD 0 0 ≠ 0 ∧ source.getD 0 0 ≠ separator then Program.refuse ()
    else do
      setLength 3
      store 0 drive
      store 1 colon
      store 2 separator
      store 3 0
      if path.qualified = false ∧ source.getD 0 0 ≠ separator then do
        consumePath (workingDirectory.bytes.drop 2)
        consumePath source
      else consumePath source

/-- The text in a buffer. -/
def text (output : List UInt8) : CString where
  bytes := output.takeWhile (· ≠ 0)
  terminated hmem := by simpa using List.all_eq_true.1 List.all_takeWhile _ hmem

/-- The text that `filesystem_normalize_path` leaves in a buffer, if it succeeds. -/
def normalized (path workingDirectory : CString) (output : List UInt8) : Option CString :=
  match filesystemNormalizePath path workingDirectory { output := output, length := 0 } with
  | .done _ s => some (text s.output)
  | _ => none

/-! ## Canonical paths and the lexical resolution -/

/-- What a component of a canonical path is. -/
structure ValidName (name : List UInt8) : Prop where
  nonempty : name ≠ []
  terminated : 0 ∉ name
  unseparated : separator ∉ name
  not_dot : name ≠ [dot]
  not_dots : name ≠ [dot, dot]
  length_le : name.length ≤ nameMax

instance (name : List UInt8) : Decidable (ValidName name) :=
  decidable_of_iff (name ≠ [] ∧ 0 ∉ name ∧ separator ∉ name ∧ name ≠ [dot] ∧ name ≠ [dot, dot] ∧ name.length ≤ nameMax)
    ⟨by rintro ⟨h1, h2, h3, h4, h5, h6⟩; exact ⟨h1, h2, h3, h4, h5, h6⟩,
      by rintro ⟨h1, h2, h3, h4, h5, h6⟩; exact ⟨h1, h2, h3, h4, h5, h6⟩⟩

/-- A drive prefix and the components below the root of the drive. -/
structure CanonicalPath where
  drive : UInt8
  components : List (List UInt8)
  upper : isUpper drive = true
  valid : ∀ name ∈ components, ValidName name

/-- The root of drive `A`. -/
def CanonicalPath.root : CanonicalPath where
  drive := 0x41
  components := []
  upper := rfl
  valid _ hmem := absurd hmem List.not_mem_nil

/-- A drive prefix followed by separated components. -/
def spell (drive : UInt8) (components : List (List UInt8)) : List UInt8 :=
  drive :: colon :: separator :: [separator].intercalate components

theorem terminated_spell {drive : UInt8} {components : List (List UInt8)} (hdrive : drive ≠ 0)
    (h : ∀ name ∈ components, 0 ∉ name) : 0 ∉ spell drive components := by
  have hjoin : 0 ∉ [separator].intercalate components := by
    induction components with
    | nil => exact List.not_mem_nil
    | cons name components ih =>
      have hname := h name List.mem_cons_self
      have hrest := ih fun other hmem => h other (List.mem_cons_of_mem _ hmem)
      cases components with
      | nil => rwa [List.intercalate_singleton]
      | cons second components =>
        rw [List.intercalate_cons_cons, List.mem_append, List.mem_append]
        rintro ((hmem | hmem) | hmem)
        · exact hname hmem
        · exact absurd (List.mem_singleton.1 hmem) (by decide)
        · exact hrest hmem
  simp only [spell, List.mem_cons, not_or]
  exact ⟨hdrive.symm, by decide, by decide, hjoin⟩

/-- The text of a canonical path. -/
def CanonicalPath.toCString (p : CanonicalPath) : CString where
  bytes := spell p.drive p.components
  terminated := by
    refine terminated_spell (fun hzero => ?_) fun name hmem => (p.valid name hmem).terminated
    have hupper := p.upper
    rw [hzero] at hupper
    cases hupper

/-- The names of a path, without the empty ones. -/
def names (path : List UInt8) : List (List UInt8) := (path.splitOn separator).filter (· ≠ [])

/-- One name after the components that are known. -/
def resolveName (components : List (List UInt8)) (name : List UInt8) : List (List UInt8) :=
  if name = [dot] then components else if name = [dot, dot] then components.dropLast else components ++ [name]

/-- The names of a path after the components that are known, one after another. -/
def resolve (components : List (List UInt8)) (names : List (List UInt8)) : List (List UInt8) := names.foldl resolveName components

/-- The components respect the limit of a name and fit a buffer with their terminator. -/
def Fits (size : Nat) (components : List (List UInt8)) : Prop :=
  (∀ name ∈ components, name.length ≤ nameMax) ∧ (spell 0 components).length < size

/-- Each step of a resolution fits. -/
def AllFit (size : Nat) (components names : List (List UInt8)) : Prop :=
  ∀ before, before <+: names → Fits size (resolve components before)

/-- What comes after the drive prefix. -/
def CString.source (path : CString) : List UInt8 := if path.qualified then path.bytes.drop 2 else path.bytes

/-- A path that starts at a root. -/
def CString.rooted (path : CString) : Bool := path.qualified || path.bytes.head? == some separator

def CString.drive (path : CString) (workingDirectory : CanonicalPath) : UInt8 :=
  if path.qualified then (if isLower (path.at 0) then path.at 0 - 0x20 else path.at 0) else workingDirectory.drive

/-- The components that a path is resolved after. -/
def CString.base (path : CString) (workingDirectory : CanonicalPath) : List (List UInt8) :=
  if path.rooted then [] else workingDirectory.components

/-- The paths that have a lexical resolution, and whose resolution fits at each step. -/
structure Resolvable (path : CString) (workingDirectory : CanonicalPath) (size : Nat) : Prop where
  nonempty : path.bytes ≠ []
  separated : path.qualified = true → path.source = [] ∨ path.source.head? = some separator
  fits : AllFit size (path.base workingDirectory) (names path.source)

end Fs
end TabOS
