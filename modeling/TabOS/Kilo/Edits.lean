import TabOS.Kilo.Document

/-!
# The edits

What each operation does to the rows, to the text and to the cursor. An operation that fails changes the message at most.
-/

namespace TabOS
namespace Kilo

variable {e e' : Editor}

/-- Only the message may be another one. -/
def Unchanged (e e' : Editor) : Prop := ∃ message, e' = { e with message := message }

/-- Some rows from one on are replaced by others; the rows before and after them stay. -/
def Replaced (y : Nat) (old new : List Row) (e e' : Editor) : Prop :=
  ∃ before after, e.rows = before ++ (old ++ after) ∧ before.length = y ∧ e'.rows = before ++ (new ++ after)

theorem Unchanged.refl (e : Editor) : Unchanged e e := ⟨e.message, rfl⟩

theorem unchanged_kiloStatus (text : List UInt8) (e : Editor) : Unchanged e (kiloStatus text e) := ⟨text.take 1199, rfl⟩

theorem Unchanged.text (h : Unchanged e e') : e'.text = e.text := by
  obtain ⟨message, rfl⟩ := h
  rfl

theorem Unchanged.cursor (h : Unchanged e e') : e'.cx = e.cx ∧ e'.cy = e.cy := by
  obtain ⟨message, rfl⟩ := h
  exact ⟨rfl, rfl⟩

theorem Unchanged.valid (h : Unchanged e e') (hvalid : e.Valid) : e'.Valid := by
  obtain ⟨message, rfl⟩ := h
  obtain ⟨hpos, hle, hbytes, hmax, hrows, hended, hcy, hcx, hnewline⟩ := hvalid
  exact ⟨hpos, hle, hbytes, hmax, hrows, hended, hcy, hcx, hnewline⟩

/-- The rows before the row of an index, the row, and those after it. -/
theorem Editor.rows_eq {y : Nat} (hy : y < e.rows.length) :
    e.rows = e.rows.take y ++ e.row y :: e.rows.drop (y + 1) ∧ (e.rows.take y).length = y ∧ e.row y ∈ e.rows := by
  have hrows := Kilo.rows_eq hy
  refine ⟨hrows, ?_, ?_⟩
  · rw [List.length_take]
    omega
  · have hmem : e.row y ∈ e.rows.take y ++ e.row y :: e.rows.drop (y + 1) := List.mem_append_right _ List.mem_cons_self
    exact hrows ▸ hmem

/-- Exactly the last row of a valid document has no line ending. -/
theorem Editor.Valid.ended_iff (h : e.Valid) {y : Nat} (hy : y < e.rows.length) : (e.row y).ending = 0 ↔ y + 1 = e.rows.length := by
  obtain ⟨hrows, -, -⟩ := Editor.rows_eq hy
  obtain ⟨-, hended⟩ := (ended_append _ _ _).1 (hrows ▸ h.ended)
  obtain ⟨hlast, -⟩ := (ended_cons _ _).1 hended
  rw [hlast, List.drop_eq_nil_iff]
  omega

/-- Bytes that are put in between two parts of a text. -/
theorem inserted_in (before first bytes last rest : List UInt8) :
    Inserted (before.length + first.length) bytes (before ++ ((first ++ last) ++ rest))
      (before ++ ((first ++ bytes ++ last) ++ rest)) := by
  refine ⟨before ++ first, last ++ rest, ?_, List.length_append, ?_⟩
  · simp only [List.append_assoc]
  · simp only [List.append_assoc]

/-- The text around the characters of a row. -/
theorem Editor.text_eq {y : Nat} (hy : y < e.rows.length) :
    e.text = textOf (e.rows.take y) ++
      ((e.row y).content ++ (endingBytes (e.row y).ending ++ textOf (e.rows.drop (y + 1)))) := by
  rw [Editor.text]
  conv_lhs => rw [(Editor.rows_eq hy).1]
  rw [textOf_append, textOf_cons, Row.text, List.append_assoc]

/-- The text after a row is set to one with the same line ending. -/
theorem Editor.text_set {y : Nat} (hy : y < e.rows.length) {row : Row} (hending : row.ending = (e.row y).ending) :
    textOf (e.rows.set y row) = textOf (e.rows.take y) ++
      (row.content ++ (endingBytes (e.row y).ending ++ textOf (e.rows.drop (y + 1)))) := by
  rw [set_eq hy, textOf_append, textOf_cons, Row.text, hending, List.append_assoc]

/-- A document whose rows are partly replaced is valid when the new rows are and the rest is kept up. -/
theorem Editor.Valid.replaced {y : Nat} {old new : List Row} (h : e.Valid) (hreplaced : Replaced y old new e e')
    (hnew : ∀ row ∈ new, row.Valid) (hsome : new ≠ []) (hcount : e'.rows.length ≤ rowsMax) (hended : Ended e'.rows)
    (hbytes : e'.bytes + sizeOf old = e.bytes + sizeOf new) (hmax : e'.bytes ≤ bytesMax) (hcy : e'.cy < e'.rows.length)
    (hcx : e'.cx ≤ (e'.row e'.cy).size) (hnewline : e'.newline = e.newline) : e'.Valid := by
  obtain ⟨before, after, hrows, -, hrows'⟩ := hreplaced
  refine ⟨?_, hcount, ?_, hmax, ?_, hended, hcy, hcx, ?_⟩
  · have hpos : 0 < new.length := List.length_pos_iff.2 hsome
    rw [hrows', List.length_append, List.length_append]
    omega
  · have hold := h.bytes_eq
    rw [hrows, sizeOf_append, sizeOf_append] at hold
    rw [hrows', sizeOf_append, sizeOf_append]
    omega
  · intro row hmem
    rw [hrows'] at hmem
    rcases List.mem_append.1 hmem with hmem | hmem
    · exact h.rows row (hrows ▸ List.mem_append_left _ hmem)
    · rcases List.mem_append.1 hmem with hmem | hmem
      · exact hnew row hmem
      · exact h.rows row (hrows ▸ List.mem_append_right _ (List.mem_append_right _ hmem))
  · rw [hnewline]
    exact h.newline

/-- A document in which a row is set to a valid one with the same line ending. -/
theorem Editor.Valid.set (h : e.Valid) {y : Nat} (hy : y < e.rows.length) {row : Row} (hrow : row.Valid)
    (hending : row.ending = (e.row y).ending) (hrows : e'.rows = e.rows.set y row)
    (hbytes : e'.bytes + (e.row y).size = e.bytes + row.size) (hmax : e'.bytes ≤ bytesMax) (hcy : e'.cy = y) (hcx : e'.cx ≤ row.size)
    (hnewline : e'.newline = e.newline) : e'.Valid ∧ Replaced y [e.row y] [row] e e' := by
  obtain ⟨hsplit, hlength, -⟩ := Editor.rows_eq hy
  have hset := hrows.trans (set_eq hy row)
  have hreplaced : Replaced y [e.row y] [row] e e' := ⟨e.rows.take y, e.rows.drop (y + 1), hsplit, hlength, hset⟩
  have hcount : e'.rows.length = e.rows.length := by rw [hrows, List.length_set]
  have hget : e'.row y = row := by
    rw [Editor.row, hrows, List.getD_eq_getElem?_getD, List.getElem?_set_self hy]
    rfl
  refine ⟨h.replaced hreplaced ?_ (List.cons_ne_nil _ _) ?_ ?_ ?_ hmax ?_ ?_ hnewline, hreplaced⟩
  · intro other hmem
    rw [List.mem_singleton.1 hmem]
    exact hrow
  · rw [hcount]
    exact h.rows_le
  · rw [hset]
    exact Ended.replace (hsplit ▸ h.ended) hending
  · rw [sizeOf_cons, sizeOf_cons, hending]
    omega
  · rw [hcy, hcount]
    exact hy
  · rw [hcy, hget]
    exact hcx

/-! ## Inserting a byte -/

theorem Row.Valid.insert {row : Row} (h : row.Valid) {x : Nat} (hx : x ≤ row.size) {byte : UInt8} (hbyte : byte ≠ 0)
    (hroom : row.size ≠ lineMax) :
    let inserted := { row with
      chars := row.chars.take x ++ byte :: (row.chars.drop x).take (row.size - x + 1), size := row.size + 1 }
    Row.Valid inserted ∧ Row.content inserted = row.content.take x ++ [byte] ++ row.content.drop x := by
  intro inserted
  have hlength := h.length_content
  have hholds : Row.Holds inserted (row.content.take x ++ byte :: row.content.drop x) := h.holds.insert (by omega) byte
  refine ⟨hholds.valid ?_ ?_ h.ending_le, ?_⟩
  · have hle := h.size_le
    rw [List.length_append, List.length_take, List.length_cons, List.length_drop]
    omega
  · intro character hmem
    rcases List.mem_append.1 hmem with hmem | hmem
    · exact h.nonzero character (List.mem_of_mem_take hmem)
    · rcases List.mem_cons.1 hmem with rfl | hmem
      · exact hbyte
      · exact h.nonzero character (List.mem_of_mem_drop hmem)
  · rw [hholds.content_eq, List.append_assoc]
    rfl

theorem bytes_of_room {bytes : Nat} {line : Bool} (h : room bytes line e ≠ false) (hmax : e.bytes ≤ bytesMax) :
    e.bytes + bytes ≤ bytesMax ∧ (line = true → e.rows.length ≠ rowsMax) := by
  have hroom : ¬(bytes > bytesMax - e.bytes ∨ (line = true ∧ e.rows.length = rowsMax)) := by
    intro hfull
    unfold room at h
    rw [decide_eq_true hfull] at h
    exact h rfl
  refine ⟨?_, fun hline hrows => hroom (Or.inr ⟨hline, hrows⟩)⟩
  omega

/-- Inserting a byte changes nothing, or puts it in at the cursor, in one row that keeps its line ending. -/
theorem kiloInsert_spec (h : e.Valid) (memory : Memory) (byte : UInt8) :
    ((kiloInsert memory byte e).1 = false ∧ Unchanged e (kiloInsert memory byte e).2) ∨
    ((kiloInsert memory byte e).1 = true ∧ (kiloInsert memory byte e).2.Valid ∧
      Inserted e.offset [byte] e.text (kiloInsert memory byte e).2.text ∧
      ∃ row, row.ending = (e.row e.cy).ending ∧ Replaced e.cy [e.row e.cy] [row] e (kiloInsert memory byte e).2) := by
  obtain ⟨-, -, hmem⟩ := Editor.rows_eq h.cy_lt
  have hrow := h.rows _ hmem
  unfold kiloInsert
  split
  · exact Or.inl ⟨rfl, unchanged_kiloStatus _ e⟩
  · rename_i hroom
    split
    · exact Or.inl ⟨rfl, Unchanged.refl e⟩
    · rename_i hbyte
      dsimp only
      split
      · exact Or.inl ⟨rfl, unchanged_kiloStatus _ e⟩
      · rename_i hfull
        split
        · exact Or.inl ⟨rfl, unchanged_kiloStatus _ e⟩
        · right
          obtain ⟨hvalid, hcontent⟩ := hrow.insert h.cx_le hbyte hfull
          obtain ⟨hbytes, -⟩ := bytes_of_room hroom h.bytes_le
          have hfirst : ((e.row e.cy).content.take e.cx).length = e.cx := by
            rw [List.length_take, hrow.length_content]
            exact Nat.min_eq_left h.cx_le
          have hset : ∀ row : Row, row.Valid → row.ending = (e.row e.cy).ending → row.size = (e.row e.cy).size + 1 →
              row.content = (e.row e.cy).content.take e.cx ++ [byte] ++ (e.row e.cy).content.drop e.cx →
              let e' := { e with rows := e.rows.set e.cy row, cx := e.cx + 1, bytes := e.bytes + 1, dirty := true }
              e'.Valid ∧ Inserted e.offset [byte] e.text e'.text ∧ Replaced e.cy [e.row e.cy] [row] e e' := by
            intro row hrow' hending hsize hcontent' e'
            have hcx := h.cx_le
            have hafter : e'.Valid ∧ Replaced e.cy [e.row e.cy] [row] e e' := by
              refine h.set h.cy_lt hrow' hending rfl ?_ hbytes rfl ?_ rfl
              · show e.bytes + 1 + (e.row e.cy).size = e.bytes + row.size
                omega
              · show e.cx + 1 ≤ row.size
                omega
            refine ⟨hafter.1, ?_, hafter.2⟩
            rw [Editor.offset, Editor.text_eq h.cy_lt]
            show Inserted _ _ _ (textOf (e.rows.set e.cy row))
            rw [Editor.text_set h.cy_lt hending, hcontent']
            have hinserted := inserted_in (textOf (e.rows.take e.cy)) ((e.row e.cy).content.take e.cx) [byte]
              ((e.row e.cy).content.drop e.cx) (endingBytes (e.row e.cy).ending ++ textOf (e.rows.drop (e.cy + 1)))
            rw [List.take_append_drop, hfirst] at hinserted
            exact hinserted
          obtain ⟨hvalid', hinserted, hreplaced⟩ := hset _ hvalid rfl rfl hcontent
          refine ⟨rfl, hvalid', hinserted, _, ?_, hreplaced⟩
          rfl

/-! ## Splitting a row -/

/-- A part of the characters of a row makes a valid row. -/
theorem Row.Valid.of_makeRow {row made : Row} (h : row.Valid) {granted : Bool} {text : List UInt8} {ending : Nat}
    (hmade : makeRow granted text ending = .ok made) (hsub : ∀ character ∈ text, character ∈ row.content) (hending : ending ≤ 2) :
    made.Valid ∧ made.content = text ∧ made.ending = ending ∧ made.size = text.length := by
  obtain ⟨hholds, hending', hlength⟩ := makeRow_ok hmade
  refine ⟨hholds.valid hlength (fun character hmem => h.nonzero character (hsub character hmem)) ?_, hholds.content_eq, hending',
    hholds.1⟩
  rw [hending']
  exact hending

/-- The document after a row is split. -/
def Editor.splitAt (e : Editor) (left right : Row) : Editor :=
  { e with
    rows := e.rows.take e.cy ++ left :: right :: e.rows.drop (e.cy + 1)
    bytes := e.bytes + e.newline
    dirty := true
    cy := e.cy + 1
    cx := 0 }

theorem Editor.Valid.splitAt (h : e.Valid) {left right : Row} (hleft : left.Valid) (hright : right.Valid)
    (hcontent : left.content ++ right.content = (e.row e.cy).content) (hcx : left.size = e.cx)
    (hsize : left.size + right.size = (e.row e.cy).size) (hnewline : left.ending = e.newline)
    (hending : right.ending = (e.row e.cy).ending) (hcount : e.rows.length ≠ rowsMax) (hbytes : e.bytes + e.newline ≤ bytesMax) :
    (e.splitAt left right).Valid ∧ Inserted e.offset (endingBytes e.newline) e.text (e.splitAt left right).text ∧
    Replaced e.cy [e.row e.cy] [left, right] e (e.splitAt left right) := by
  obtain ⟨hsplit, hlength, -⟩ := Editor.rows_eq h.cy_lt
  have hreplaced : Replaced e.cy [e.row e.cy] [left, right] e (e.splitAt left right) :=
    ⟨e.rows.take e.cy, e.rows.drop (e.cy + 1), hsplit, hlength, rfl⟩
  have hcount' : (e.splitAt left right).rows.length = e.rows.length + 1 := by
    have hlt := h.cy_lt
    show (e.rows.take e.cy ++ left :: right :: e.rows.drop (e.cy + 1)).length = e.rows.length + 1
    rw [List.length_append, hlength, List.length_cons, List.length_cons, List.length_drop]
    omega
  have hne : left.ending ≠ 0 := by
    rw [hnewline]
    rcases h.newline with hone | htwo <;> omega
  refine ⟨h.replaced hreplaced ?_ (List.cons_ne_nil _ _) ?_ ?_ ?_ hbytes ?_ (Nat.zero_le _) rfl, ?_, hreplaced⟩
  · intro other hmem
    rcases List.mem_cons.1 hmem with rfl | hmem
    · exact hleft
    · rw [List.mem_singleton.1 hmem]
      exact hright
  · have hle := h.rows_le
    omega
  · exact Ended.split (hsplit ▸ h.ended) hne hending
  · rw [sizeOf_cons, sizeOf_cons, sizeOf_cons, hending, hnewline]
    show e.bytes + e.newline + _ = _
    omega
  · rw [hcount']
    exact Nat.succ_lt_succ h.cy_lt
  · have htext : (e.splitAt left right).text = textOf (e.rows.take e.cy) ++ ((left.content ++ endingBytes e.newline ++ right.content) ++
        (endingBytes (e.row e.cy).ending ++ textOf (e.rows.drop (e.cy + 1)))) := by
      show textOf (e.rows.take e.cy ++ left :: right :: e.rows.drop (e.cy + 1)) = _
      rw [textOf_append, textOf_cons, textOf_cons, Row.text, Row.text, hnewline, hending]
      simp only [List.append_assoc]
    rw [htext, Editor.offset, Editor.text_eq h.cy_lt, ← hcontent, ← hcx, ← hleft.length_content]
    exact inserted_in _ _ _ _ _

/-- Splitting changes nothing, or puts the line ending of the document in at the cursor. -/
theorem kiloSplit_spec (h : e.Valid) (memory : Memory) :
    ((kiloSplit memory e).1 = false ∧ Unchanged e (kiloSplit memory e).2) ∨
    ((kiloSplit memory e).1 = true ∧ (kiloSplit memory e).2.Valid ∧
      Inserted e.offset (endingBytes e.newline) e.text (kiloSplit memory e).2.text ∧
      ∃ left right, right.ending = (e.row e.cy).ending ∧ Replaced e.cy [e.row e.cy] [left, right] e (kiloSplit memory e).2) := by
  obtain ⟨-, -, hmem⟩ := Editor.rows_eq h.cy_lt
  have hrow := h.rows _ hmem
  have hcx := h.cx_le
  have hlength := hrow.length_content
  have htake : (e.row e.cy).chars.take e.cx = (e.row e.cy).content.take e.cx := by
    rw [Row.content, List.take_take, Nat.min_eq_left hcx]
  have hdrop : ((e.row e.cy).chars.drop e.cx).take ((e.row e.cy).size - e.cx) = (e.row e.cy).content.drop e.cx := by
    rw [Row.content, List.drop_take]
  unfold kiloSplit
  split
  · exact Or.inl ⟨rfl, unchanged_kiloStatus _ e⟩
  · rename_i hroom
    dsimp only
    rw [htake, hdrop]
    split
    · exact Or.inl ⟨rfl, unchanged_kiloStatus _ e⟩
    · rename_i left hmade
      split
      · exact Or.inl ⟨rfl, unchanged_kiloStatus _ e⟩
      · rename_i right hmade'
        have hnewline : e.newline ≤ 2 := by
          rcases h.newline with hone | htwo <;> omega
        obtain ⟨hleft, hcontent, hending, hsize⟩ := hrow.of_makeRow hmade (fun _ => List.mem_of_mem_take) hnewline
        obtain ⟨hright, hcontent', hending', hsize'⟩ := hrow.of_makeRow hmade' (fun _ => List.mem_of_mem_drop) hrow.ending_le
        obtain ⟨hbytes, hcount⟩ := bytes_of_room hroom h.bytes_le
        rw [List.length_take] at hsize
        rw [List.length_drop] at hsize'
        obtain ⟨hvalid, hinserted, hreplaced⟩ := h.splitAt hleft hright (by rw [hcontent, hcontent', List.take_append_drop])
          (by omega) (by omega) hending hending' (hcount rfl) hbytes
        exact Or.inr ⟨rfl, hvalid, hinserted, left, right, hending', hreplaced⟩

/-! ## Deleting -/

theorem Row.Valid.erase {row : Row} (h : row.Valid) {x : Nat} (hx : x < row.size) :
    let erased := { row with
      chars := row.chars.take x ++ (row.chars.drop (x + 1)).take (row.size - x) ++ row.chars.drop row.size, size := row.size - 1 }
    Row.Valid erased ∧ Row.content erased = row.content.take x ++ row.content.drop (x + 1) := by
  intro erased
  have hlength := h.length_content
  have hholds : Row.Holds erased (row.content.take x ++ row.content.drop (x + 1)) := h.holds.erase (by omega)
  refine ⟨hholds.valid ?_ ?_ h.ending_le, hholds.content_eq⟩
  · have hle := h.size_le
    rw [List.length_append, List.length_take, List.length_drop]
    omega
  · intro character hmem
    rcases List.mem_append.1 hmem with hmem | hmem
    · exact h.nonzero character (List.mem_of_mem_take hmem)
    · exact h.nonzero character (List.mem_of_mem_drop hmem)

theorem Row.Valid.join {row next : Row} (h : row.Valid) (hnext : next.Valid) (hroom : row.size + next.size ≤ lineMax) :
    let joined : Row := {
      chars := row.chars.take row.size ++ next.chars.take (next.size + 1), size := row.size + next.size, ending := next.ending }
    joined.Valid ∧ joined.content = row.content ++ next.content := by
  intro joined
  have hholds : joined.Holds (row.content ++ next.content) := h.holds.join hnext.holds
  refine ⟨hholds.valid ?_ ?_ hnext.ending_le, hholds.content_eq⟩
  · rw [List.length_append, h.length_content, hnext.length_content]
    exact hroom
  · intro character hmem
    rcases List.mem_append.1 hmem with hmem | hmem
    · exact h.nonzero character hmem
    · exact hnext.nonzero character hmem

/-- What is deleted is in the document, at the cursor or right before it. -/
theorem deleteTarget_spec (h : e.Valid) {backward : Bool} {y x : Nat} (htarget : deleteTarget backward e = some (y, x)) :
    y < e.rows.length ∧ x ≤ (e.row y).size ∧
    (backward = false → y = e.cy ∧ x = e.cx) ∧
    (backward = true → (y = e.cy ∧ x + 1 = e.cx) ∨ (y + 1 = e.cy ∧ x = (e.row y).size ∧ e.cx = 0)) := by
  have hcy := h.cy_lt
  have hcx := h.cx_le
  unfold deleteTarget at htarget
  split at htarget
  · rename_i hforward
    obtain ⟨rfl, rfl⟩ := Prod.mk.inj (Option.some.inj htarget)
    exact ⟨hcy, hcx, fun _ => ⟨rfl, rfl⟩, fun hbackward => absurd (hforward.symm.trans hbackward) (by decide)⟩
  · rename_i hbackward
    split at htarget
    · obtain ⟨rfl, rfl⟩ := Prod.mk.inj (Option.some.inj htarget)
      exact ⟨hcy, by omega, fun hforward => absurd hforward hbackward, fun _ => Or.inl ⟨rfl, by omega⟩⟩
    · split at htarget
      · obtain ⟨rfl, rfl⟩ := Prod.mk.inj (Option.some.inj htarget)
        exact ⟨by omega, Nat.le_refl _, fun hforward => absurd hforward hbackward, fun _ => Or.inr ⟨by omega, rfl, by omega⟩⟩
      · exact absurd htarget.symm (Option.some_ne_none _)

/-- The document after a byte of a row is deleted. -/
theorem Editor.Valid.deleteByte (h : e.Valid) {y x : Nat} (hy : y < e.rows.length) (hx : x < (e.row y).size) {row : Row}
    (hrow : row.Valid) (hending : row.ending = (e.row y).ending) (hsize : row.size = (e.row y).size - 1)
    (hcontent : row.content = (e.row y).content.take x ++ (e.row y).content.drop (x + 1)) :
    let e' := { e with rows := e.rows.set y row, bytes := e.bytes - 1, cx := x, cy := y, dirty := true }
    e'.Valid ∧ Replaced y [e.row y] [row] e e' ∧
    ∃ byte, Deleted ((textOf (e.rows.take y)).length + x) [byte] e.text e'.text := by
  intro e'
  obtain ⟨hsplit, -, hmem⟩ := Editor.rows_eq hy
  have hold := h.rows _ hmem
  have hlength := hold.length_content
  have hcounted : (e.row y).size ≤ e.bytes := by
    rw [h.bytes_eq, hsplit, sizeOf_append, sizeOf_cons]
    omega
  have hafter : e'.Valid ∧ Replaced y [e.row y] [row] e e' := by
    refine h.set hy hrow hending rfl ?_ ?_ rfl ?_ rfl
    · show e.bytes - 1 + (e.row y).size = e.bytes + row.size
      omega
    · show e.bytes - 1 ≤ bytesMax
      exact Nat.le_trans (Nat.sub_le _ _) h.bytes_le
    · show x ≤ row.size
      omega
  have hbyte : x < (e.row y).content.length := by omega
  have hfirst : ((e.row y).content.take x).length = x := by
    rw [List.length_take]
    omega
  have hdeleted := inserted_in (textOf (e.rows.take y)) ((e.row y).content.take x) [(e.row y).content[x]]
    ((e.row y).content.drop (x + 1)) (endingBytes (e.row y).ending ++ textOf (e.rows.drop (y + 1)))
  have hwhole : (e.row y).content.take x ++ [(e.row y).content[x]] ++ (e.row y).content.drop (x + 1) = (e.row y).content := by
    rw [List.append_assoc, List.singleton_append, ← List.drop_eq_getElem_cons hbyte, List.take_append_drop]
  rw [hwhole, hfirst, ← Editor.text_eq hy, ← hcontent, ← Editor.text_set hy hending] at hdeleted
  exact ⟨hafter.1, hafter.2, _, hdeleted⟩

/-- The document after two rows are joined. -/
def Editor.joinAt (e : Editor) (y x : Nat) (joined : Row) : Editor :=
  { e with
    rows := e.rows.take y ++ joined :: e.rows.drop (y + 2)
    bytes := e.bytes - (e.row y).ending
    cx := x
    cy := y
    dirty := true }

theorem Editor.Valid.joinAt (h : e.Valid) {y : Nat} (hy : y + 1 < e.rows.length) {joined : Row} (hjoined : joined.Valid)
    (hcontent : joined.content = (e.row y).content ++ (e.row (y + 1)).content) (hending : joined.ending = (e.row (y + 1)).ending)
    (hsize : joined.size = (e.row y).size + (e.row (y + 1)).size) :
    (e.joinAt y (e.row y).size joined).Valid ∧
    Replaced y [e.row y, e.row (y + 1)] [joined] e (e.joinAt y (e.row y).size joined) ∧
    Deleted ((textOf (e.rows.take y)).length + (e.row y).size) (endingBytes (e.row y).ending) e.text
      (e.joinAt y (e.row y).size joined).text := by
  have hylt : y < e.rows.length := by omega
  obtain ⟨hsplit, hlength, hmem⟩ := Editor.rows_eq hylt
  have hnext : e.rows.drop (y + 1) = e.row (y + 1) :: e.rows.drop (y + 2) := by
    rw [Editor.row, List.getD_eq_getElem?_getD, List.getElem?_eq_getElem hy, Option.getD_some, ← List.drop_eq_getElem_cons hy]
  have hrows : e.rows = e.rows.take y ++ e.row y :: e.row (y + 1) :: e.rows.drop (y + 2) := by
    rw [← hnext]
    exact hsplit
  have hreplaced : Replaced y [e.row y, e.row (y + 1)] [joined] e (e.joinAt y (e.row y).size joined) :=
    ⟨e.rows.take y, e.rows.drop (y + 2), hrows, hlength, rfl⟩
  have hcount : (e.joinAt y (e.row y).size joined).rows.length + 1 = e.rows.length := by
    show (e.rows.take y ++ joined :: e.rows.drop (y + 2)).length + 1 = e.rows.length
    rw [List.length_append, hlength, List.length_cons, List.length_drop]
    omega
  have hget : (e.joinAt y (e.row y).size joined).row y = joined := by
    show (e.rows.take y ++ joined :: e.rows.drop (y + 2)).getD y default = joined
    have hgetD := getD_of_eq (e.rows.take y) joined (e.rows.drop (y + 2))
    rw [hlength] at hgetD
    exact hgetD
  have hcounted : (e.row y).ending ≤ e.bytes := by
    rw [h.bytes_eq, hrows, sizeOf_append, sizeOf_cons]
    omega
  refine ⟨h.replaced hreplaced ?_ (List.cons_ne_nil _ _) ?_ ?_ ?_ ?_ ?_ ?_ rfl, hreplaced, ?_⟩
  · intro other hmem
    rw [List.mem_singleton.1 hmem]
    exact hjoined
  · have hle := h.rows_le
    omega
  · exact Ended.join (hrows ▸ h.ended) hending
  · rw [sizeOf_cons, sizeOf_cons, sizeOf_cons, hsize, hending]
    show e.bytes - (e.row y).ending + _ = _
    omega
  · exact Nat.le_trans (Nat.sub_le _ _) h.bytes_le
  · show y < (e.joinAt y (e.row y).size joined).rows.length
    omega
  · show (e.row y).size ≤ ((e.joinAt y (e.row y).size joined).row y).size
    rw [hget, hsize]
    exact Nat.le_add_right _ _
  · have htext : e.text = textOf (e.rows.take y) ++ (((e.row y).content ++ endingBytes (e.row y).ending ++ (e.row (y + 1)).content) ++
        (endingBytes (e.row (y + 1)).ending ++ textOf (e.rows.drop (y + 2)))) := by
      rw [Editor.text]
      conv_lhs => rw [hrows]
      rw [textOf_append, textOf_cons, textOf_cons, Row.text, Row.text]
      simp only [List.append_assoc]
    have htext' : (e.joinAt y (e.row y).size joined).text = textOf (e.rows.take y) ++
        (((e.row y).content ++ (e.row (y + 1)).content) ++ (endingBytes (e.row (y + 1)).ending ++ textOf (e.rows.drop (y + 2)))) := by
      show textOf (e.rows.take y ++ joined :: e.rows.drop (y + 2)) = _
      rw [textOf_append, textOf_cons, Row.text, hcontent, hending]
      simp only [List.append_assoc]
    rw [htext, htext', ← (h.rows _ hmem).length_content]
    exact inserted_in _ _ _ _ _

/-- The offset of the row before the cursor's, at its end, is one line ending before the cursor. -/
theorem Editor.Valid.offset_pred (h : e.Valid) {y : Nat} (hy : y + 1 = e.cy) (hcx : e.cx = 0) :
    (textOf (e.rows.take y)).length + (e.row y).size + (endingBytes (e.row y).ending).length = e.offset := by
  have hlt := h.cy_lt
  have hylt : y < e.rows.length := by omega
  obtain ⟨-, -, hmem⟩ := Editor.rows_eq hylt
  have hrow := h.rows _ hmem
  have htake : e.rows.take e.cy = e.rows.take y ++ [e.row y] := by
    rw [← hy, List.take_add_one, Editor.row, List.getD_eq_getElem?_getD, List.getElem?_eq_getElem hylt]
    rfl
  rw [Editor.offset, htake, hcx, textOf_append, List.length_append, textOf_cons, List.length_append, hrow.length_text,
    length_endingBytes hrow.ending_le]
  rw [show textOf [] = [] from rfl, List.length_nil]
  omega

/-- Where a deletion took place: at the cursor, or right before it. -/
def DeletedAt (backward : Bool) (deleted : List UInt8) (e e' : Editor) : Prop :=
  Deleted e'.offset deleted e.text e'.text ∧ if backward then e'.offset + deleted.length = e.offset else e'.offset = e.offset

/-- Deleting changes nothing, or takes out one byte of a row, which keeps its line ending, or a whole line ending, whose row is joined
with the next. -/
theorem kiloDelete_spec (h : e.Valid) (memory : Memory) (backward : Bool) :
    ((kiloDelete memory backward e).1 = false ∧ Unchanged e (kiloDelete memory backward e).2) ∨
    ((kiloDelete memory backward e).1 = true ∧ (kiloDelete memory backward e).2.Valid ∧
      ∃ y, y = (kiloDelete memory backward e).2.cy ∧
        ((∃ byte row, DeletedAt backward [byte] e (kiloDelete memory backward e).2 ∧ row.ending = (e.row y).ending ∧
            Replaced y [e.row y] [row] e (kiloDelete memory backward e).2) ∨
          (∃ joined, DeletedAt backward (endingBytes (e.row y).ending) e (kiloDelete memory backward e).2 ∧
            (e.row y).ending ≠ 0 ∧ joined.ending = (e.row (y + 1)).ending ∧
            Replaced y [e.row y, e.row (y + 1)] [joined] e (kiloDelete memory backward e).2))) := by
  unfold kiloDelete
  cases htarget : deleteTarget backward e with
  | none => exact Or.inl ⟨rfl, Unchanged.refl e⟩
  | some target =>
    obtain ⟨y, x⟩ := target
    obtain ⟨hy, hx, hforward, hbackward⟩ := deleteTarget_spec h htarget
    obtain ⟨hsplit, hlength, hmem⟩ := Editor.rows_eq hy
    have hrow := h.rows _ hmem
    dsimp only
    split
    · rename_i hlt
      right
      have hspec : ∀ row : Row, row.Valid → row.ending = (e.row y).ending → row.size = (e.row y).size - 1 →
          row.content = (e.row y).content.take x ++ (e.row y).content.drop (x + 1) →
          let e' := { e with rows := e.rows.set y row, bytes := e.bytes - 1, cx := x, cy := y, dirty := true }
          e'.Valid ∧ Replaced y [e.row y] [row] e e' ∧ ∃ byte, DeletedAt backward [byte] e e' := by
        intro row hvalid hending hsize hcontent e'
        obtain ⟨hvalid', hreplaced, byte, hdeleted⟩ := h.deleteByte hy hlt hvalid hending hsize hcontent
        have hoffset : e'.offset = (textOf (e.rows.take y)).length + x := by
          show (textOf ((e.rows.set y row).take y)).length + x = _
          rw [List.take_set_of_le (Nat.le_refl y)]
        refine ⟨hvalid', hreplaced, byte, ?_⟩
        unfold DeletedAt
        rw [hoffset]
        refine ⟨hdeleted, ?_⟩
        cases backward with
        | false =>
          obtain ⟨rfl, rfl⟩ := hforward rfl
          exact rfl
        | true =>
          rcases hbackward rfl with ⟨rfl, hcx⟩ | ⟨-, hsize', -⟩
          · show _ + x + 1 = e.offset
            rw [Editor.offset]
            omega
          · omega
      obtain ⟨hvalid, hcontent⟩ := hrow.erase hlt
      obtain ⟨hvalid', hreplaced, byte, hdeleted⟩ := hspec _ hvalid rfl rfl hcontent
      refine ⟨rfl, hvalid', y, rfl, Or.inl ⟨byte, _, hdeleted, ?_, hreplaced⟩⟩
      rfl
    · rename_i hend
      split
      · exact Or.inl ⟨rfl, Unchanged.refl e⟩
      · rename_i hlast
        have hnext : y + 1 < e.rows.length := by omega
        obtain ⟨-, -, hmem'⟩ := Editor.rows_eq hnext
        split
        · exact Or.inl ⟨rfl, unchanged_kiloStatus _ e⟩
        · rename_i hroom
          split
          · exact Or.inl ⟨rfl, unchanged_kiloStatus _ e⟩
          · right
            have hxsize : x = (e.row y).size := by omega
            have hle := hrow.size_le
            obtain ⟨hvalid, hcontent⟩ := hrow.join (h.rows _ hmem') (by omega)
            obtain ⟨hvalid', hreplaced, hdeleted⟩ := h.joinAt hnext hvalid hcontent rfl rfl
            have hne : (e.row y).ending ≠ 0 := by
              intro hzero
              exact hlast ((h.ended_iff hy).1 hzero)
            have hat : ∀ joined, Deleted ((textOf (e.rows.take y)).length + (e.row y).size) (endingBytes (e.row y).ending) e.text
                (e.joinAt y (e.row y).size joined).text →
                DeletedAt backward (endingBytes (e.row y).ending) e (e.joinAt y (e.row y).size joined) := by
              intro joined hdeleted
              have hoffset : (e.joinAt y (e.row y).size joined).offset = (textOf (e.rows.take y)).length + (e.row y).size := by
                show (textOf ((e.rows.take y ++ joined :: e.rows.drop (y + 2)).take y)).length + _ = _
                rw [List.take_append_of_le_length (by omega), List.take_of_length_le (by omega)]
                rfl
              unfold DeletedAt
              rw [hoffset]
              refine ⟨hdeleted, ?_⟩
              cases backward with
              | false =>
                obtain ⟨rfl, rfl⟩ := hforward rfl
                rw [← hxsize]
                exact rfl
              | true =>
                rcases hbackward rfl with ⟨hycy, hcx⟩ | ⟨hycy, -, hcx⟩
                · have hcx' := h.cx_le
                  rw [← hycy] at hcx'
                  omega
                · exact h.offset_pred hycy hcx
            subst hxsize
            refine ⟨rfl, hvalid', y, rfl, Or.inr ⟨_, hat _ hdeleted, hne, ?_, hreplaced⟩⟩
            rfl

/-! ## Moving and searching -/

/-- Moving and searching change the cursor alone, which stays in the document. -/
def CursorMoved (e e' : Editor) : Prop :=
  ∃ cy cx, e' = { e with cy := cy, cx := cx } ∧ cy < e.rows.length ∧ cx ≤ (e.row cy).size

theorem CursorMoved.text (h : CursorMoved e e') : e'.text = e.text := by
  obtain ⟨cy, cx, rfl, -, -⟩ := h
  rfl

theorem CursorMoved.valid (h : CursorMoved e e') (hvalid : e.Valid) : e'.Valid := by
  obtain ⟨cy, cx, rfl, hcy, hcx⟩ := h
  obtain ⟨hpos, hle, hbytes, hmax, hrows, hended, -, -, hnewline⟩ := hvalid
  exact ⟨hpos, hle, hbytes, hmax, hrows, hended, hcy, hcx, hnewline⟩

theorem moveRows_spec (h : e.Valid) (dy : Int) : ∃ cy, moveRows dy e = { e with cy := cy } ∧ cy < e.rows.length := by
  have hcy := h.cy_lt
  unfold moveRows
  split
  · exact ⟨_, rfl, by omega⟩
  · split
    · exact ⟨_, rfl, by omega⟩
    · exact ⟨e.cy, rfl, hcy⟩

theorem moveColumn_spec (dx : Int) (hcy : e.cy < e.rows.length) :
    ∃ cy cx, moveColumn dx e = { e with cy := cy, cx := cx } ∧ cy < e.rows.length := by
  unfold moveColumn
  repeat' split
  · exact ⟨e.cy, e.cx - 1, rfl, hcy⟩
  · exact ⟨e.cy - 1, (e.row (e.cy - 1)).size, rfl, by omega⟩
  · exact ⟨e.cy, e.cx, rfl, hcy⟩
  · exact ⟨e.cy, e.cx + 1, rfl, hcy⟩
  · exact ⟨e.cy + 1, 0, rfl, by assumption⟩
  · exact ⟨e.cy, e.cx, rfl, hcy⟩
  · exact ⟨e.cy, e.cx, rfl, hcy⟩

theorem kiloMove_spec (h : e.Valid) (dx dy : Int) : CursorMoved e (kiloMove dx dy e) := by
  obtain ⟨y, hrows, hy⟩ := moveRows_spec h dy
  obtain ⟨cy, cx, hcolumn, hcy⟩ := moveColumn_spec (e := moveRows dy e) dx (by
    rw [hrows]
    exact hy)
  unfold kiloMove
  rw [hcolumn, hrows] at *
  exact ⟨cy, min cx (e.row cy).size, rfl, hcy, Nat.min_le_right _ _⟩

/-- What is found in a row stands in it. -/
theorem searchRow_spec {direction : Int} {next first : Bool} {row : Row} {x : Nat}
    (h : searchRow direction next first e row = some x) : x + e.query.length ≤ row.size ∧ matchesAt e row x = true := by
  unfold searchRow at h
  split at h
  · exact absurd h.symm (Option.some_ne_none _)
  · rename_i hsize
    split at h
    · have hmem := List.mem_of_find?_eq_some h
      have hmatch := List.find?_some h
      obtain ⟨hle, hlt⟩ := List.mem_range'_1.1 hmem
      exact ⟨by omega, hmatch⟩
    · have hmem := List.mem_range.1 (List.mem_reverse.1 (List.mem_of_find?_eq_some h))
      have hmatch := List.find?_some h
      refine ⟨?_, hmatch⟩
      generalize (if next = true then 0 else 1) = skip at hmem
      split at hmem <;> omega

theorem searchRows_spec {direction : Int} {next : Bool} {visits : Nat} {first : Bool} {y : Nat} {found : Nat × Nat}
    (h : searchRows direction next e visits first y = some found) (hy : y < e.rows.length) :
    found.1 < e.rows.length ∧ found.2 + e.query.length ≤ (e.row found.1).size ∧ matchesAt e (e.row found.1) found.2 = true := by
  induction visits generalizing first y with
  | zero => exact absurd h.symm (Option.some_ne_none _)
  | succ visits ih =>
    rw [searchRows] at h
    split at h
    · rename_i x hrow
      obtain rfl := Option.some.inj h
      exact ⟨hy, searchRow_spec hrow⟩
    · refine ih h ?_
      split <;> exact Nat.mod_lt _ (by omega)

/-- A search that finds nothing changes nothing, and one that finds the query moves the cursor to it. -/
theorem kiloSearch_spec (h : e.Valid) (direction : Int) (next : Bool) :
    ((kiloSearch direction next e).1 = false ∧ (kiloSearch direction next e).2 = e) ∨
    ((kiloSearch direction next e).1 = true ∧ CursorMoved e (kiloSearch direction next e).2 ∧
      matchesAt e (e.row (kiloSearch direction next e).2.cy) (kiloSearch direction next e).2.cx = true) := by
  unfold kiloSearch
  split
  · exact Or.inl ⟨rfl, rfl⟩
  · split
    · exact Or.inl ⟨rfl, rfl⟩
    · rename_i y x hfound
      obtain ⟨hy, hx, hmatch⟩ := searchRows_spec hfound h.cy_lt
      dsimp only at hy hx hmatch
      exact Or.inr ⟨rfl, ⟨y, x, rfl, hy, by omega⟩, hmatch⟩

end Kilo
end TabOS
