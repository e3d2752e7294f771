import TabOS.Kilo.Editor

/-!
# The document

The text of a document is that of its rows, each with its line ending. An edit puts bytes in or takes bytes out at one offset of the
text and keeps the rows valid.
-/

namespace TabOS
namespace Kilo

/-- The bytes of a line ending. -/
def endingBytes : Nat → List UInt8
  | 0 => []
  | 1 => [newlineByte]
  | _ => [returnByte, newlineByte]

/-- The characters of a row. -/
def Row.content (row : Row) : List UInt8 := row.chars.take row.size

/-- The characters of a row and its line ending. -/
def Row.text (row : Row) : List UInt8 := row.content ++ endingBytes row.ending

/-- The text of some rows. -/
def textOf (rows : List Row) : List UInt8 := rows.flatMap Row.text

def Editor.text (e : Editor) : List UInt8 := textOf e.rows

/-- The offset of the cursor in the text. -/
def Editor.offset (e : Editor) : Nat := (textOf (e.rows.take e.cy)).length + e.cx

/-- The sizes of some rows and their line endings. -/
def sizeOf (rows : List Row) : Nat := (rows.map fun row => row.size + row.ending).sum

/-- Exactly the last row has no line ending. -/
def Ended : List Row → Prop
  | [] => False
  | [row] => row.ending = 0
  | row :: next :: rows => row.ending ≠ 0 ∧ Ended (next :: rows)

/-- A row is not too long, and has a zero behind its characters and none among them. -/
structure Row.Valid (row : Row) : Prop where
  size_le : row.size ≤ lineMax
  terminated : row.chars[row.size]? = some 0
  nonzero : ∀ character ∈ row.content, character ≠ 0
  ending_le : row.ending ≤ 2

/-- The invariant of a document. -/
structure Editor.Valid (e : Editor) : Prop where
  rows_pos : 1 ≤ e.rows.length
  rows_le : e.rows.length ≤ rowsMax
  bytes_eq : e.bytes = sizeOf e.rows
  bytes_le : e.bytes ≤ bytesMax
  rows : ∀ row ∈ e.rows, row.Valid
  ended : Ended e.rows
  cy_lt : e.cy < e.rows.length
  cx_le : e.cx ≤ (e.row e.cy).size
  newline : e.newline = 1 ∨ e.newline = 2

/-- Bytes are put into a text at an offset. -/
def Inserted (offset : Nat) (bytes text text' : List UInt8) : Prop :=
  ∃ before after, text = before ++ after ∧ before.length = offset ∧ text' = before ++ bytes ++ after

/-- Bytes are taken out of a text at an offset. -/
def Deleted (offset : Nat) (bytes text text' : List UInt8) : Prop := Inserted offset bytes text' text

/-! ## Rows -/

/-- The characters of a row are these, and a zero comes behind them. -/
def Row.Holds (row : Row) (content : List UInt8) : Prop := row.size = content.length ∧ ∃ rest, row.chars = content ++ 0 :: rest

variable {row : Row} {content : List UInt8}

theorem Row.Holds.content_eq (h : row.Holds content) : row.content = content := by
  obtain ⟨hsize, rest, hchars⟩ := h
  rw [Row.content, hsize, hchars, List.take_left]

theorem Row.Valid.holds (h : row.Valid) : row.Holds row.content := by
  have hlt : row.size < row.chars.length := (List.getElem?_eq_some_iff.1 h.terminated).1
  have hzero : row.chars[row.size] = 0 := (List.getElem?_eq_some_iff.1 h.terminated).2
  refine ⟨?_, row.chars.drop (row.size + 1), ?_⟩
  · rw [Row.content, List.length_take]
    omega
  · rw [Row.content, ← hzero, ← List.drop_eq_getElem_cons hlt, List.take_append_drop]

theorem Row.Holds.valid (h : row.Holds content) (hlength : content.length ≤ lineMax) (hnonzero : ∀ character ∈ content, character ≠ 0)
    (hending : row.ending ≤ 2) : row.Valid := by
  refine ⟨?_, ?_, ?_, hending⟩
  · rw [h.1]
    exact hlength
  · obtain ⟨hsize, rest, hchars⟩ := h
    rw [hsize, hchars, List.getElem?_append_right (Nat.le_refl _), Nat.sub_self]
    rfl
  · rw [h.content_eq]
    exact hnonzero

theorem length_endingBytes {ending : Nat} (h : ending ≤ 2) : (endingBytes ending).length = ending := by
  match ending, h with
  | 0, _ => rfl
  | 1, _ => rfl
  | 2, _ => rfl

theorem Row.Valid.length_content (h : row.Valid) : row.content.length = row.size := h.holds.1.symm

theorem Row.Valid.length_text (h : row.Valid) : row.text.length = row.size + row.ending := by
  rw [Row.text, List.length_append, h.length_content, length_endingBytes h.ending_le]

/-- The row that is made of a text. -/
theorem makeRow_ok {granted : Bool} {text : List UInt8} {ending : Nat} (h : makeRow granted text ending = .ok row) :
    row.Holds text ∧ row.ending = ending ∧ text.length ≤ lineMax := by
  unfold makeRow at h
  split at h
  · exact nomatch h
  · rename_i hlength
    split at h
    · exact nomatch h
    · obtain rfl := Except.ok.inj h
      exact ⟨⟨rfl, [], rfl⟩, rfl, Nat.le_of_not_lt hlength⟩

/-- A row into which a byte is put. -/
theorem Row.Holds.insert (h : row.Holds content) {x : Nat} (hx : x ≤ content.length) (byte : UInt8) :
    Row.Holds { row with chars := row.chars.take x ++ byte :: (row.chars.drop x).take (row.size - x + 1), size := row.size + 1 }
      (content.take x ++ byte :: content.drop x) := by
  obtain ⟨hsize, rest, hchars⟩ := h
  refine ⟨?_, [], ?_⟩
  · simp only [List.length_append, List.length_take, List.length_cons, List.length_drop]
    omega
  · have hdrop : (content.drop x).length + 1 = row.size - x + 1 := by
      rw [List.length_drop, hsize]
    show row.chars.take x ++ byte :: (row.chars.drop x).take (row.size - x + 1) = _
    rw [hchars, List.take_append_of_le_length hx, List.drop_append_of_le_length hx, ← hdrop,
      List.take_length_add_append, List.append_assoc]
    rfl

/-- A row from which a byte is taken. -/
theorem Row.Holds.erase (h : row.Holds content) {x : Nat} (hx : x < content.length) :
    Row.Holds { row with
      chars := row.chars.take x ++ (row.chars.drop (x + 1)).take (row.size - x) ++ row.chars.drop row.size, size := row.size - 1 }
      (content.take x ++ content.drop (x + 1)) := by
  obtain ⟨hsize, rest, hchars⟩ := h
  refine ⟨?_, 0 :: rest, ?_⟩
  · simp only [List.length_append, List.length_take, List.length_drop]
    omega
  · have hdrop : (content.drop (x + 1)).length + 1 = row.size - x := by
      rw [List.length_drop, hsize]
      omega
    show row.chars.take x ++ (row.chars.drop (x + 1)).take (row.size - x) ++ row.chars.drop row.size = _
    rw [← hdrop, hsize, hchars, List.take_append_of_le_length (Nat.le_of_lt hx), List.drop_append_of_le_length hx,
      List.take_length_add_append, List.drop_left, List.append_assoc, List.append_assoc, List.append_assoc]
    rfl

/-- Two rows that are joined. -/
theorem Row.Holds.join (h : row.Holds content) {next : Row} {content' : List UInt8} (h' : next.Holds content') :
    Row.Holds { chars := row.chars.take row.size ++ next.chars.take (next.size + 1), size := row.size + next.size, ending := next.ending }
      (content ++ content') := by
  have hcontent : row.chars.take row.size = content := h.content_eq
  obtain ⟨hsize, -⟩ := h
  obtain ⟨hsize', rest', hchars'⟩ := h'
  refine ⟨?_, [], ?_⟩
  · rw [List.length_append, ← hsize, ← hsize']
  · show row.chars.take row.size ++ next.chars.take (next.size + 1) = _
    rw [hcontent, hsize', hchars', List.take_length_add_append, List.append_assoc]
    rfl

/-! ## Lists of rows -/

theorem textOf_append (rows later : List Row) : textOf (rows ++ later) = textOf rows ++ textOf later := List.flatMap_append

theorem textOf_cons (row : Row) (rows : List Row) : textOf (row :: rows) = row.text ++ textOf rows := List.flatMap_cons

theorem sizeOf_append (rows later : List Row) : sizeOf (rows ++ later) = sizeOf rows + sizeOf later := by
  rw [sizeOf, List.map_append, List.sum_append]
  rfl

theorem sizeOf_cons (row : Row) (rows : List Row) : sizeOf (row :: rows) = row.size + row.ending + sizeOf rows := by
  rw [sizeOf, List.map_cons, List.sum_cons]
  rfl

/-- The text of a valid document is as long as it is counted. -/
theorem length_textOf {rows : List Row} (h : ∀ row ∈ rows, row.Valid) : (textOf rows).length = sizeOf rows := by
  induction rows with
  | nil => rfl
  | cons row rows ih =>
    rw [textOf_cons, sizeOf_cons, List.length_append, (h row List.mem_cons_self).length_text,
      ih fun other hmem => h other (List.mem_cons_of_mem _ hmem)]

theorem ended_cons (row : Row) (after : List Row) :
    Ended (row :: after) ↔ (row.ending = 0 ↔ after = []) ∧ (after ≠ [] → Ended after) := by
  cases after with
  | nil => simp [Ended]
  | cons next after => simp [Ended]

theorem ended_append (before : List Row) (row : Row) (after : List Row) :
    Ended (before ++ row :: after) ↔ (∀ other ∈ before, other.ending ≠ 0) ∧ Ended (row :: after) := by
  induction before with
  | nil => simp
  | cons other before ih =>
    have hne : before ++ row :: after ≠ [] := by simp
    rw [List.cons_append, ended_cons, ih, List.forall_mem_cons]
    simp [and_assoc]

/-- A row with the same line ending may stand for another. -/
theorem Ended.replace {before after : List Row} {row' : Row} (h : Ended (before ++ row :: after)) (hending : row'.ending = row.ending) :
    Ended (before ++ row' :: after) := by
  rw [ended_append, ended_cons] at h ⊢
  rw [hending]
  exact h

/-- A row that is split gives its line ending to the second half. -/
theorem Ended.split {before after : List Row} {left right : Row} (h : Ended (before ++ row :: after)) (hleft : left.ending ≠ 0)
    (hright : right.ending = row.ending) : Ended (before ++ left :: right :: after) := by
  obtain ⟨hbefore, hrow⟩ := (ended_append _ _ _).1 h
  refine (ended_append _ _ _).2 ⟨hbefore, ?_⟩
  refine (ended_append [left] right after).2 ⟨fun other hmem => ?_, ?_⟩
  · rw [List.mem_singleton.1 hmem]
    exact hleft
  · exact (ended_cons _ _).2 (hright ▸ (ended_cons _ _).1 hrow)

/-- A row that is joined with the next takes over its line ending. -/
theorem Ended.join {before after : List Row} {next joined : Row} (h : Ended (before ++ row :: next :: after))
    (hjoined : joined.ending = next.ending) : Ended (before ++ joined :: after) := by
  obtain ⟨hbefore, hrow⟩ := (ended_append _ _ _).1 h
  obtain ⟨-, hnext⟩ := (ended_append [row] next after).1 hrow
  exact (ended_append _ _ _).2 ⟨hbefore, (ended_cons _ _).2 (hjoined ▸ (ended_cons _ _).1 hnext)⟩

/-- The rows before one, the row, and those after it. -/
theorem rows_eq {rows : List Row} {y : Nat} (h : y < rows.length) :
    rows = rows.take y ++ rows.getD y default :: rows.drop (y + 1) := by
  rw [List.getD_eq_getElem?_getD, List.getElem?_eq_getElem h, Option.getD_some, ← List.drop_eq_getElem_cons h, List.take_append_drop]

theorem set_eq {rows : List Row} {y : Nat} (h : y < rows.length) (row : Row) :
    rows.set y row = rows.take y ++ row :: rows.drop (y + 1) := List.set_eq_take_append_cons_drop.trans (if_pos h)

theorem getD_of_eq (before : List Row) (row : Row) (after : List Row) : (before ++ row :: after).getD before.length default = row := by
  rw [List.getD_eq_getElem?_getD, List.getElem?_append_right (Nat.le_refl _), Nat.sub_self]
  rfl

end Kilo
end TabOS
