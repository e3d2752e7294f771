import TabOS.Kilo.Load

/-!
# Sessions

A session is a load followed by any sequence of operations, each with its own allocation failures. The document stays valid, and an
operation changes the text at the cursor or not at all.
-/

namespace TabOS
namespace Kilo

/-- The operations of the editor; the query is typed between them. -/
inductive Operation where
  | insert (byte : UInt8)
  | split
  | delete (backward : Bool)
  | move (dx dy : Int)
  | query (text : List UInt8)
  | search (direction : Int) (next : Bool)
  | load (calls : LoadCalls)

def perform (strerror : Strerror) (memory : Memory) (operation : Operation) (e : Editor) : Bool × Editor :=
  match operation with
  | .insert byte => kiloInsert memory byte e
  | .split => kiloSplit memory e
  | .delete backward => kiloDelete memory backward e
  | .move dx dy => (true, kiloMove dx dy e)
  | .query text => (true, { e with query := text })
  | .search direction next => kiloSearch direction next e
  | .load calls => kiloLoad strerror calls memory e

def run (strerror : Strerror) : List (Operation × Memory) → Editor → Editor
  | [], e => e
  | (operation, memory) :: rest, e => run strerror rest (perform strerror memory operation e).2

/-- What a deletion that succeeds takes out: a byte of a row, which keeps its line ending, or a whole line ending, whose row is joined
with the next and takes over its line ending. -/
def DeletionEffect (backward : Bool) (e e' : Editor) : Prop :=
  (∃ byte row, DeletedAt backward [byte] e e' ∧ row.ending = (e.row e'.cy).ending ∧ Replaced e'.cy [e.row e'.cy] [row] e e') ∨
  (∃ joined, DeletedAt backward (endingBytes (e.row e'.cy).ending) e e' ∧ (e.row e'.cy).ending ≠ 0 ∧
    joined.ending = (e.row (e'.cy + 1)).ending ∧ Replaced e'.cy [e.row e'.cy, e.row (e'.cy + 1)] [joined] e e')

/-- What an operation that succeeds does to the text and to the rows. -/
def Effect (operation : Operation) (e e' : Editor) : Prop :=
  match operation with
  | .insert byte => Inserted e.offset [byte] e.text e'.text ∧
      ∃ row, row.ending = (e.row e.cy).ending ∧ Replaced e.cy [e.row e.cy] [row] e e'
  | .split => Inserted e.offset (endingBytes e.newline) e.text e'.text ∧
      ∃ left right, right.ending = (e.row e.cy).ending ∧ Replaced e.cy [e.row e.cy] [left, right] e e'
  | .delete backward => DeletionEffect backward e e'
  | .load calls => e'.text = calls.content ∧ e'.cx = 0 ∧ e'.cy = 0
  | .move _ _ | .search _ _ => CursorMoved e e'
  | .query text => e' = { e with query := text }

variable {e : Editor} {strerror : Strerror}

/-- An operation on a valid document changes nothing but the message, or has its effect and keeps the document valid. -/
theorem perform_spec (h : e.Valid) (strerror : Strerror) (memory : Memory) (operation : Operation) :
    ((perform strerror memory operation e).1 = false ∧ Unchanged e (perform strerror memory operation e).2) ∨
    ((perform strerror memory operation e).1 = true ∧ (perform strerror memory operation e).2.Valid ∧
      Effect operation e (perform strerror memory operation e).2) := by
  cases operation with
  | insert byte =>
    rcases kiloInsert_spec h memory byte with hfailed | ⟨hdone, hvalid, heffect⟩
    · exact Or.inl hfailed
    · exact Or.inr ⟨hdone, hvalid, heffect⟩
  | split =>
    rcases kiloSplit_spec h memory with hfailed | ⟨hdone, hvalid, heffect⟩
    · exact Or.inl hfailed
    · exact Or.inr ⟨hdone, hvalid, heffect⟩
  | delete backward =>
    rcases kiloDelete_spec h memory backward with hfailed | ⟨hdone, hvalid, y, rfl, heffect⟩
    · exact Or.inl hfailed
    · exact Or.inr ⟨hdone, hvalid, heffect⟩
  | move dx dy =>
    have hmoved := kiloMove_spec h dx dy
    exact Or.inr ⟨rfl, hmoved.valid h, hmoved⟩
  | query text =>
    obtain ⟨hpos, hle, hbytes, hmax, hrows, hended, hcy, hcx, hnewline⟩ := h
    exact Or.inr ⟨rfl, ⟨hpos, hle, hbytes, hmax, hrows, hended, hcy, hcx, hnewline⟩, rfl⟩
  | search direction next =>
    rcases kiloSearch_spec h direction next with ⟨hnone, hsame⟩ | ⟨hfound, hmoved, -⟩
    · refine Or.inl ⟨hnone, ?_⟩
      show Unchanged e (kiloSearch direction next e).2
      rw [hsame]
      exact Unchanged.refl e
    · exact Or.inr ⟨hfound, hmoved.valid h, hmoved⟩
  | load calls =>
    rcases kiloLoad_spec strerror calls memory e with hfailed | ⟨hdone, hvalid, htext, hcx, hcy, -⟩
    · exact Or.inl hfailed
    · exact Or.inr ⟨hdone, hvalid, htext, hcx, hcy⟩

theorem perform_valid (h : e.Valid) (memory : Memory) (operation : Operation) : (perform strerror memory operation e).2.Valid := by
  rcases perform_spec h strerror memory operation with ⟨-, hunchanged⟩ | ⟨-, hvalid, -⟩
  · exact hunchanged.valid h
  · exact hvalid

theorem run_valid (h : e.Valid) (steps : List (Operation × Memory)) : (run strerror steps e).Valid := by
  induction steps generalizing e with
  | nil => exact h
  | cons step rest ih => exact ih (perform_valid h step.2 step.1)

/-- A document that is loaded is valid. -/
theorem kiloLoad_valid {calls : LoadCalls} {memory : Memory} (h : (kiloLoad strerror calls memory e).1 = true) :
    (kiloLoad strerror calls memory e).2.Valid := by
  rcases kiloLoad_spec strerror calls memory e with ⟨hfailed, -⟩ | ⟨-, hvalid, -⟩
  · exact absurd (hfailed.symm.trans h) Bool.false_ne_true
  · exact hvalid

/-- In every state of a session the document is within its limits, its bytes are counted, its rows are terminated, exactly the last of
them has no line ending, and the cursor stands in it. The operation that comes next has its effect at the cursor when it succeeds, and
leaves text and cursor as they are when it fails. -/
theorem document_invariant (strerror : Strerror) (calls : LoadCalls) (memory : Memory) (initial : Editor)
    (h : (kiloLoad strerror calls memory initial).1 = true) (steps : List (Operation × Memory)) :
    let e := run strerror steps (kiloLoad strerror calls memory initial).2
    (1 ≤ e.rows.length ∧ e.rows.length ≤ rowsMax) ∧
    (e.bytes = (e.rows.map fun row => row.size + row.ending).sum ∧ e.bytes ≤ bytesMax) ∧
    (∀ row ∈ e.rows, row.size ≤ lineMax ∧ row.chars[row.size]? = some 0 ∧ ∀ character ∈ row.content, character ≠ 0) ∧
    (∀ y, y < e.rows.length → ((e.row y).ending = 0 ↔ y + 1 = e.rows.length)) ∧
    (e.cy < e.rows.length ∧ e.cx ≤ (e.row e.cy).size) ∧
    ∀ (operation : Operation) (memory : Memory),
      let result := perform strerror memory operation e
      (result.1 = true → Effect operation e result.2) ∧
      (result.1 = false → result.2.text = e.text ∧ result.2.cx = e.cx ∧ result.2.cy = e.cy) := by
  intro e
  have hvalid : e.Valid := run_valid (kiloLoad_valid h) steps
  refine ⟨⟨hvalid.rows_pos, hvalid.rows_le⟩, ⟨hvalid.bytes_eq, hvalid.bytes_le⟩, ?_, fun y hy => hvalid.ended_iff hy,
    ⟨hvalid.cy_lt, hvalid.cx_le⟩, ?_⟩
  · intro row hmem
    have hrow := hvalid.rows row hmem
    exact ⟨hrow.size_le, hrow.terminated, hrow.nonzero⟩
  · intro operation memory result
    rcases perform_spec hvalid strerror memory operation with ⟨hfailed, hunchanged⟩ | ⟨hdone, -, heffect⟩
    · exact ⟨fun htrue => absurd (hfailed.symm.trans htrue) Bool.false_ne_true, fun _ => ⟨hunchanged.text, hunchanged.cursor⟩⟩
    · exact ⟨fun _ => heffect, fun hfalse => absurd (hfalse.symm.trans hdone) Bool.false_ne_true⟩

/-- A session with a file of two lines, a byte that is typed, and a line that cannot be split for want of memory. -/
theorem document_invariant_two_lines :
    let file : LoadCalls := { metadata := .ok false, opened := none, readings := [.block [0x61, 0x0d, 0x0a, 0x62]], closed := none }
    let loaded := (kiloLoad (fun _ => []) file (fun _ => true) (kiloInit [0x66])).2
    let e := run (fun _ => []) [(.insert 0x78, fun _ => true), (.split, fun _ => false)] loaded
    e.bytes = (e.rows.map fun row => row.size + row.ending).sum ∧ e.bytes ≤ bytesMax :=
  (document_invariant (fun _ => [])
    { metadata := .ok false, opened := none, readings := [.block [0x61, 0x0d, 0x0a, 0x62]], closed := none } (fun _ => true)
    (kiloInit [0x66]) (by decide) [(.insert 0x78, fun _ => true), (.split, fun _ => false)]).2.1

end Kilo
end TabOS
