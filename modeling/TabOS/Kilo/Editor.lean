import Mathlib.Algebra.GroupWithZero.Nat
import Mathlib.Data.List.Basic

/-!
# The editor

`apps/kilo/src/editor.c`: a document is a list of rows, each with a buffer of characters and the kind of its line ending, and a cursor.
Which allocations succeed is an input. The highlighting, which writes neither text nor cursor, is left out.
-/

namespace TabOS
namespace Kilo

/-- `KILO_BYTES_MAX`. -/
def bytesMax : Nat := 262144

/-- `KILO_ROWS_MAX`. -/
def rowsMax : Nat := 8192

/-- `KILO_LINE_MAX`. -/
def lineMax : Nat := 16384

/-- `KILO_QUERY_MAX`. -/
def queryMax : Nat := 256

def ascii (text : String) : List UInt8 := text.toList.map Char.toUInt8

def newlineByte : UInt8 := 0x0a

def returnByte : UInt8 := 0x0d

/-- `kilo_row_t`: the characters are those of the buffer up to the size, and a zero comes behind them. -/
structure Row where
  chars : List UInt8
  size : Nat
  ending : Nat
  deriving DecidableEq, Repr, Inhabited

/-- `kilo_editor_t`; the number of rows is the length of the list, and the texts end at their first zero. -/
structure Editor where
  rows : List Row
  bytes : Nat
  cx : Nat
  cy : Nat
  newline : Nat
  dirty : Bool
  query : List UInt8
  message : List UInt8
  recovery : List UInt8
  filename : List UInt8
  deriving DecidableEq, Repr

/-- The row of an index. -/
def Editor.row (e : Editor) (y : Nat) : Row := e.rows.getD y default

/-- Which of the allocations of an operation succeed, in the order in which it makes them. -/
abbrev Memory := Nat → Bool

/-- Whether both allocations of a row succeed, that of its characters and that of its highlighting. -/
def Memory.grants (memory : Memory) (index : Nat) : Bool := memory index && memory (index + 1)

def kiloStatus (text : List UInt8) (e : Editor) : Editor := { e with message := text.take 1199 }

def lineLimit : List UInt8 := ascii "Line limit reached (16 KiB)"
def documentLimit : List UInt8 := ascii "Document limit reached (256 KiB / 8192 lines)"
def outOfMemory : List UInt8 := ascii "Out of memory; document unchanged"
def joinLimit : List UInt8 := ascii "Joined line exceeds 16 KiB"

/-- A row, or the message of what is wrong. -/
def makeRow (granted : Bool) (text : List UInt8) (ending : Nat) : Except (List UInt8) Row :=
  if text.length > lineMax then .error lineLimit
  else if granted = false then .error outOfMemory
  else .ok { chars := text ++ [0], size := text.length, ending := ending }

/-- `kilo_init`, when the rows can be allocated. -/
def kiloInit (filename : List UInt8) : Editor where
  rows := []
  bytes := 0
  cx := 0
  cy := 0
  newline := 1
  dirty := false
  query := []
  message := []
  recovery := []
  filename := filename

def kiloAppendRow (granted : Bool) (text : List UInt8) (ending : Nat) (e : Editor) : Bool × Editor :=
  if e.rows.length ≥ rowsMax ∨ text.length > bytesMax ∨ text.length + ending > bytesMax - e.bytes then
    (false, kiloStatus documentLimit e)
  else
    match makeRow granted text ending with
    | .error message => (false, kiloStatus message e)
    | .ok row => (true, { e with rows := e.rows ++ [row], bytes := e.bytes + (text.length + ending) })

/-- Whether there is room for some bytes, and for one more line. -/
def room (bytes : Nat) (line : Bool) (e : Editor) : Bool :=
  !decide (bytes > bytesMax - e.bytes ∨ (line = true ∧ e.rows.length = rowsMax))

def kiloInsert (memory : Memory) (byte : UInt8) (e : Editor) : Bool × Editor :=
  if room 1 false e = false then (false, kiloStatus documentLimit e)
  else if byte = 0 then (false, e)
  else
    let row := e.row e.cy
    if row.size = lineMax then (false, kiloStatus lineLimit e)
    else if memory.grants 0 = false then (false, kiloStatus outOfMemory e)
    else
      let chars := row.chars.take e.cx ++ byte :: (row.chars.drop e.cx).take (row.size - e.cx + 1)
      let replacement := { row with chars := chars, size := row.size + 1 }
      (true, { e with rows := e.rows.set e.cy replacement, cx := e.cx + 1, bytes := e.bytes + 1, dirty := true })

def kiloSplit (memory : Memory) (e : Editor) : Bool × Editor :=
  if room e.newline true e = false then (false, kiloStatus documentLimit e)
  else
    let row := e.row e.cy
    match makeRow (memory.grants 0) (row.chars.take e.cx) e.newline with
    | .error message => (false, kiloStatus message e)
    | .ok left =>
      match makeRow (memory.grants 2) ((row.chars.drop e.cx).take (row.size - e.cx)) row.ending with
      | .error message => (false, kiloStatus message e)
      | .ok right =>
        (true, { e with
          rows := e.rows.take e.cy ++ left :: right :: e.rows.drop (e.cy + 1)
          bytes := e.bytes + e.newline
          dirty := true
          cy := e.cy + 1
          cx := 0 })

/-- The row and the column of what is deleted. -/
def deleteTarget (backward : Bool) (e : Editor) : Option (Nat × Nat) :=
  if backward = false then some (e.cy, e.cx)
  else if e.cx > 0 then some (e.cy, e.cx - 1)
  else if e.cy > 0 then some (e.cy - 1, (e.row (e.cy - 1)).size)
  else none

def kiloDelete (memory : Memory) (backward : Bool) (e : Editor) : Bool × Editor :=
  match deleteTarget backward e with
  | none => (false, e)
  | some (y, x) =>
    let row := e.row y
    if x < row.size then
      let chars := row.chars.take x ++ (row.chars.drop (x + 1)).take (row.size - x) ++ row.chars.drop row.size
      let shorter := { row with chars := chars, size := row.size - 1 }
      (true, { e with rows := e.rows.set y shorter, bytes := e.bytes - 1, cx := x, cy := y, dirty := true })
    else if y + 1 = e.rows.length then (false, e)
    else
      let next := e.row (y + 1)
      if next.size > lineMax - row.size then (false, kiloStatus joinLimit e)
      else if memory.grants 0 = false then (false, kiloStatus outOfMemory e)
      else
        let joined : Row := {
          chars := row.chars.take row.size ++ next.chars.take (next.size + 1)
          size := row.size + next.size
          ending := next.ending }
        (true, { e with
          rows := e.rows.take y ++ joined :: e.rows.drop (y + 2)
          bytes := e.bytes - row.ending
          cx := x
          cy := y
          dirty := true })

/-- The cursor, moved by some rows. -/
def moveRows (dy : Int) (e : Editor) : Editor :=
  if dy < 0 then { e with cy := e.cy - min dy.natAbs e.cy }
  else if dy > 0 then { e with cy := e.cy + min dy.natAbs (e.rows.length - e.cy - 1) }
  else e

/-- The cursor, moved by a column, or over the end of its row. -/
def moveColumn (dx : Int) (e : Editor) : Editor :=
  if dx < 0 then
    if e.cx > 0 then { e with cx := e.cx - 1 }
    else if e.cy > 0 then { e with cy := e.cy - 1, cx := (e.row (e.cy - 1)).size }
    else e
  else if dx > 0 then
    if e.cx < (e.row e.cy).size then { e with cx := e.cx + 1 }
    else if e.cy + 1 < e.rows.length then { e with cy := e.cy + 1, cx := 0 }
    else e
  else e

def kiloMove (dx dy : Int) (e : Editor) : Editor :=
  let e := moveColumn dx (moveRows dy e)
  { e with cx := min e.cx (e.row e.cy).size }

/-- Whether the query stands in a row at a column. -/
def matchesAt (e : Editor) (row : Row) (x : Nat) : Bool := (row.chars.drop x).take e.query.length = e.query

/-- The column at which the query is found in a row; the first row that is visited is searched from the cursor on. -/
def searchRow (direction : Int) (next : Bool) (first : Bool) (e : Editor) (row : Row) : Option Nat :=
  if row.size < e.query.length then none
  else if direction > 0 then
    let start := if first then (if next then e.cx + 1 else e.cx) else 0
    (List.range' start (row.size - e.query.length + 1 - start)).find? (matchesAt e row)
  else
    let skip := if next then 0 else 1
    let stop := row.size - e.query.length + 1
    let stop := if first ∧ e.cx + skip < stop then e.cx + skip else stop
    (List.range stop).reverse.find? (matchesAt e row)

/-- The rows that are still to be visited, from one on. -/
def searchRows (direction : Int) (next : Bool) (e : Editor) : Nat → Bool → Nat → Option (Nat × Nat)
  | 0, _, _ => none
  | visits + 1, first, y =>
    match searchRow direction next first e (e.row y) with
    | some x => some (y, x)
    | none =>
      let y := if direction > 0 then (y + 1) % e.rows.length else (y + e.rows.length - 1) % e.rows.length
      searchRows direction next e visits false y

def kiloSearch (direction : Int) (next : Bool) (e : Editor) : Bool × Editor :=
  if e.query.length = 0 then (false, e)
  else
    match searchRows direction next e (e.rows.length + 1) true e.cy with
    | none => (false, e)
    | some (y, x) => (true, { e with cy := y, cx := x })

end Kilo
end TabOS
