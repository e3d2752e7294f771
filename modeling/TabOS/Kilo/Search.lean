import Mathlib.Logic.Function.Iterate
import TabOS.Kilo.Edits

/-!
# The search

`kilo_search` visits the row of the cursor, the rows after it around the document, and the row of the cursor again. What it finds is the
occurrence of the query that is nearest to the cursor when the text is taken as a circle.
-/

namespace TabOS
namespace Kilo

/-- The query stands in a row from a column on. -/
def Editor.Occurs (e : Editor) (y x : Nat) : Prop := y < e.rows.length ∧ e.query <+: (e.row y).content.drop x

/-- The offset of a column of a row in the text. -/
def Editor.offsetOf (e : Editor) (y x : Nat) : Nat := (textOf (e.rows.take y)).length + x

/-- How far a column of a row is from the cursor around the document, in a direction; the search for the next occurrence has the cursor
itself as the farthest place. -/
def Editor.distance (direction : Int) (next : Bool) (e : Editor) (y x : Nat) : Nat :=
  let around := e.text.length + 1
  if next = true ∧ e.offsetOf y x = e.offset then around
  else if direction > 0 then (e.offsetOf y x + around - e.offset) % around
  else (e.offset + around - e.offsetOf y x) % around

variable {e : Editor}

/-! ## Offsets -/

theorem Editor.Valid.row (h : e.Valid) {y : Nat} (hy : y < e.rows.length) : (e.row y).Valid := by
  refine h.rows _ ?_
  rw [Editor.row, List.getD_eq_getElem?_getD, List.getElem?_eq_getElem hy]
  exact List.getElem_mem hy

theorem Editor.Valid.length_textOf_take (h : e.Valid) (y : Nat) : (textOf (e.rows.take y)).length = sizeOf (e.rows.take y) :=
  length_textOf fun row hmem => h.rows row (List.mem_of_mem_take hmem)

/-- The offset of a row is behind those of the row before it. -/
theorem Editor.Valid.offsetOf_succ (h : e.Valid) {y : Nat} (hy : y + 1 < e.rows.length) {x : Nat} (hx : x ≤ (e.row y).size) :
    e.offsetOf y x < e.offsetOf (y + 1) 0 := by
  have hlt : y < e.rows.length := by omega
  have hrow : e.rows[y]? = some (e.row y) := by
    rw [Editor.row, List.getD_eq_getElem?_getD, List.getElem?_eq_getElem hlt]
    rfl
  have hending : (e.row y).ending ≠ 0 := by
    have hended := h.ended
    rw [Kilo.rows_eq hlt] at hended
    have hcons := (ended_cons _ _).1 ((ended_append _ _ _).1 hended).2
    intro hzero
    have hlength := congrArg List.length (hcons.1.1 hzero)
    rw [List.length_drop, List.length_nil] at hlength
    omega
  have htake : sizeOf (e.rows.take (y + 1)) = sizeOf (e.rows.take y) + ((e.row y).size + (e.row y).ending) := by
    rw [List.take_add_one, hrow, sizeOf_append]
    rfl
  unfold Editor.offsetOf
  rw [h.length_textOf_take, h.length_textOf_take, htake]
  omega

theorem Editor.Valid.offsetOf_lt (h : e.Valid) {y y' : Nat} (hlt : y < y') (hy' : y' < e.rows.length) {x : Nat}
    (hx : x ≤ (e.row y).size) : e.offsetOf y x < e.offsetOf y' 0 := by
  obtain ⟨k, rfl⟩ : ∃ k, y' = y + 1 + k := ⟨y' - (y + 1), by omega⟩
  clear hlt
  induction k with
  | zero => exact h.offsetOf_succ hy' hx
  | succ k ih =>
    exact Nat.lt_trans (ih (by omega)) (h.offsetOf_succ hy' (Nat.zero_le _))

theorem Editor.offsetOf_add (y x : Nat) : e.offsetOf y x = e.offsetOf y 0 + x := rfl

/-- Places in the order of the document. -/
theorem Editor.Valid.offsetOf_lt_of (h : e.Valid) {y y' x x' : Nat} (hlt : y < y' ∨ (y = y' ∧ x < x')) (hy' : y' < e.rows.length)
    (hx : x ≤ (e.row y).size) : e.offsetOf y x < e.offsetOf y' x' := by
  rcases hlt with hlt | ⟨rfl, hlt⟩
  · have hrow := h.offsetOf_lt hlt hy' hx
    rw [e.offsetOf_add y' x']
    omega
  · rw [e.offsetOf_add y x, e.offsetOf_add y x']
    omega

theorem Editor.Valid.offsetOf_le (h : e.Valid) {y x : Nat} (hy : y < e.rows.length) (hx : x ≤ (e.row y).size) :
    e.offsetOf y x ≤ e.text.length := by
  have htext : e.text.length = (textOf (e.rows.take y)).length + ((e.row y).text ++ textOf (e.rows.drop (y + 1))).length := by
    rw [Editor.text]
    conv_lhs => rw [Kilo.rows_eq hy]
    rw [textOf_append, textOf_cons, List.length_append]
    rfl
  rw [htext, List.length_append, (h.row hy).length_text]
  unfold Editor.offsetOf
  omega

/-! ## A row -/

theorem Editor.Valid.occurs_iff (h : e.Valid) (hquery : e.query ≠ []) {y x : Nat} :
    e.Occurs y x ↔ y < e.rows.length ∧ x + e.query.length ≤ (e.row y).size ∧ matchesAt e (e.row y) x = true := by
  have hpos : 0 < e.query.length := List.length_pos_iff.2 hquery
  unfold Editor.Occurs
  refine and_congr_right fun hy => ?_
  have htake (hle : x + e.query.length ≤ (e.row y).size) :
      ((e.row y).content.drop x).take e.query.length = ((e.row y).chars.drop x).take e.query.length := by
    rw [Row.content, List.drop_take, List.take_take, Nat.min_eq_left (by omega)]
  unfold matchesAt
  rw [decide_eq_true_iff, List.prefix_iff_eq_take]
  constructor
  · intro hoccurs
    have hlength := congrArg List.length hoccurs
    rw [List.length_take, List.length_drop, (h.row hy).length_content] at hlength
    have hle : x + e.query.length ≤ (e.row y).size := by omega
    exact ⟨hle, (htake hle).symm.trans hoccurs.symm⟩
  · rintro ⟨hle, hmatch⟩
    exact ((htake hle).trans hmatch).symm

/-- The first of a list that has a property comes before the others that have it. -/
theorem first_of_find {α : Type*} {r : α → α → Prop} {l : List α} {p : α → Bool} {a b : α} (hl : l.Pairwise r) (h : l.find? p = some a)
    (hb : b ∈ l) (hp : p b = true) : a = b ∨ r a b := by
  obtain ⟨-, before, after, rfl, hbefore⟩ := List.find?_eq_some_iff_append.1 h
  rcases List.mem_append.1 hb with hb | hb
  · have hnot := hbefore b hb
    rw [hp] at hnot
    exact nomatch hnot
  rcases List.mem_cons.1 hb with rfl | hb
  · exact .inl rfl
  · exact .inr ((List.pairwise_cons.1 (List.pairwise_append.1 hl).2.1).1 b hb)

/-- A place is ahead of the cursor in a direction, or is the cursor itself when the search is not for the next occurrence. -/
def Ahead (direction : Int) (next : Bool) (cursor place : Nat) : Prop :=
  if direction > 0 then (if next then cursor < place else cursor ≤ place) else if next then place < cursor else place ≤ cursor

/-- A column comes before another in a direction. -/
def Earlier (direction : Int) (x x' : Nat) : Prop := if direction > 0 then x < x' else x' < x

/-- The columns of a row that a visit looks at. -/
def searchColumns (direction : Int) (next first : Bool) (e : Editor) (row : Row) : List Nat :=
  if direction > 0 then
    let start := if first then (if next then e.cx + 1 else e.cx) else 0
    List.range' start (row.size - e.query.length + 1 - start)
  else
    let skip := if next then 0 else 1
    let stop := row.size - e.query.length + 1
    let stop := if first ∧ e.cx + skip < stop then e.cx + skip else stop
    (List.range stop).reverse

theorem searchRow_eq {direction : Int} {next first : Bool} {row : Row} (h : e.query.length ≤ row.size) :
    searchRow direction next first e row = (searchColumns direction next first e row).find? (matchesAt e row) := by
  unfold searchRow searchColumns
  rw [if_neg (Nat.not_lt.2 h)]
  split <;> rfl

theorem mem_searchColumns {direction : Int} {next first : Bool} {row : Row} {x : Nat} (h : e.query.length ≤ row.size) :
    x ∈ searchColumns direction next first e row ↔ (first = true → Ahead direction next e.cx x) ∧ x + e.query.length ≤ row.size := by
  unfold searchColumns Ahead
  by_cases hdirection : direction > 0
  · simp only [if_pos hdirection, List.mem_range'_1]
    cases first <;> cases next <;> simp <;> omega
  · simp only [if_neg hdirection, List.mem_reverse, List.mem_range]
    cases first with
    | false => simp; omega
    | true => cases next <;> simp <;> split <;> omega

theorem pairwise_searchColumns (direction : Int) (next first : Bool) (row : Row) :
    (searchColumns direction next first e row).Pairwise (Earlier direction) := by
  unfold searchColumns Earlier
  by_cases hdirection : direction > 0
  · simp only [if_pos hdirection]
    exact List.pairwise_lt_range'
  · simp only [if_neg hdirection]
    exact List.pairwise_reverse.2 List.pairwise_lt_range

/-- A visit of a row finds an occurrence among the columns that it looks at if there is one. -/
theorem searchRow_eq_none (h : e.Valid) (hquery : e.query ≠ []) {direction : Int} {next first : Bool} {y x : Nat}
    (hnone : searchRow direction next first e (e.row y) = none) (hoccurs : e.Occurs y x) :
    ¬(first = true → Ahead direction next e.cx x) := by
  intro hahead
  obtain ⟨-, hle, hmatch⟩ := (h.occurs_iff hquery).1 hoccurs
  rw [searchRow_eq (by omega)] at hnone
  exact List.find?_eq_none.1 hnone x ((mem_searchColumns (by omega)).2 ⟨hahead, hle⟩) hmatch

/-- A visit of a row finds the first occurrence among the columns that it looks at. -/
theorem searchRow_eq_some (h : e.Valid) (hquery : e.query ≠ []) {direction : Int} {next first : Bool} {y x : Nat} (hy : y < e.rows.length)
    (hfound : searchRow direction next first e (e.row y) = some x) :
    e.Occurs y x ∧ (first = true → Ahead direction next e.cx x) ∧
      ∀ x', e.Occurs y x' → (first = true → Ahead direction next e.cx x') → x = x' ∨ Earlier direction x x' := by
  obtain ⟨hle, hmatch⟩ := searchRow_spec hfound
  have hsize : e.query.length ≤ (e.row y).size := by omega
  rw [searchRow_eq hsize] at hfound
  refine ⟨(h.occurs_iff hquery).2 ⟨hy, hle, hmatch⟩, ((mem_searchColumns hsize).1 (List.mem_of_find?_eq_some hfound)).1, ?_⟩
  intro x' hoccurs hahead
  obtain ⟨-, hle', hmatch'⟩ := (h.occurs_iff hquery).1 hoccurs
  exact first_of_find (pairwise_searchColumns direction next first _) hfound ((mem_searchColumns hsize).2 ⟨hahead, hle'⟩) hmatch'

/-! ## The visits -/

/-- The row that is visited after a row. -/
def nextRow (direction : Int) (e : Editor) (y : Nat) : Nat :=
  if direction > 0 then (y + 1) % e.rows.length else (y + e.rows.length - 1) % e.rows.length

/-- The row of a visit. -/
def visitedRow (direction : Int) (e : Editor) (visit : Nat) : Nat := (nextRow direction e)^[visit] e.cy

theorem searchRows_eq_none {direction : Int} {next first : Bool} {visits y : Nat} (h : searchRows direction next e visits first y = none)
    {visit : Nat} (hvisit : visit < visits) :
    searchRow direction next (first && decide (visit = 0)) e (e.row ((nextRow direction e)^[visit] y)) = none := by
  induction visits generalizing first y visit with
  | zero => omega
  | succ visits ih =>
    rw [searchRows] at h
    split at h
    · cases h
    next hrow =>
    cases visit with
    | zero => simpa using hrow
    | succ visit =>
      have hlater := ih h (show visit < visits by omega)
      rw [Bool.false_and] at hlater
      rw [decide_eq_false (Nat.succ_ne_zero visit), Bool.and_false]
      exact hlater

/-- The rows are visited in turn up to the one in which the query is found. -/
theorem searchRows_eq_some {direction : Int} {next first : Bool} {visits y : Nat} {found : Nat × Nat}
    (h : searchRows direction next e visits first y = some found) :
    ∃ visit < visits, found.1 = (nextRow direction e)^[visit] y ∧
      searchRow direction next (first && decide (visit = 0)) e (e.row found.1) = some found.2 ∧
      ∀ earlier < visit,
        searchRow direction next (first && decide (earlier = 0)) e (e.row ((nextRow direction e)^[earlier] y)) = none := by
  induction visits generalizing first y with
  | zero => cases h
  | succ visits ih =>
    rw [searchRows] at h
    split at h
    · next x hrow =>
      obtain rfl := Option.some.inj h
      exact ⟨0, Nat.succ_pos _, rfl, by simpa using hrow, fun _ hlt => absurd hlt (Nat.not_lt_zero _)⟩
    next hrow =>
    obtain ⟨visit, hvisit, hfound, hsome, hearlier⟩ := ih h
    refine ⟨visit + 1, by omega, hfound, ?_, fun earlier hlt => ?_⟩
    · rw [Bool.false_and] at hsome
      rw [decide_eq_false (Nat.succ_ne_zero visit), Bool.and_false]
      exact hsome
    · cases earlier with
      | zero => simpa using hrow
      | succ earlier =>
        have hnone := hearlier earlier (by omega)
        rw [Bool.false_and] at hnone
        rw [decide_eq_false (Nat.succ_ne_zero earlier), Bool.and_false]
        exact hnone

theorem mod_of_lt_twice {a n : Nat} (h : a < n + n) : a % n = if a < n then a else a - n := by
  split
  · exact Nat.mod_eq_of_lt ‹_›
  · rw [Nat.mod_eq_sub_mod (by omega), Nat.mod_eq_of_lt (by omega)]

theorem visitedRow_forward (h : e.Valid) {direction : Int} (hdirection : direction > 0) {visit : Nat} (hvisit : visit ≤ e.rows.length) :
    visitedRow direction e visit = if e.cy + visit < e.rows.length then e.cy + visit else e.cy + visit - e.rows.length := by
  have hcy := h.cy_lt
  induction visit with
  | zero => exact (if_pos hcy).symm
  | succ visit ih =>
    rw [visitedRow, Function.iterate_succ_apply', ← visitedRow, ih (by omega), nextRow, if_pos hdirection]
    split
    · rw [mod_of_lt_twice (by omega)]
      rfl
    · rw [Nat.mod_eq_of_lt (by omega), if_neg (by omega)]
      omega

theorem visitedRow_backward (h : e.Valid) {direction : Int} (hdirection : ¬direction > 0) {visit : Nat} (hvisit : visit ≤ e.rows.length) :
    visitedRow direction e visit = if visit ≤ e.cy then e.cy - visit else e.cy + e.rows.length - visit := by
  have hcy := h.cy_lt
  induction visit with
  | zero => exact (if_pos (Nat.zero_le _)).symm
  | succ visit ih =>
    rw [visitedRow, Function.iterate_succ_apply', ← visitedRow, ih (by omega), nextRow, if_neg hdirection]
    split
    · rw [mod_of_lt_twice (by omega)]
      split <;> split <;> omega
    · rw [mod_of_lt_twice (by omega), if_neg (by omega), if_neg (by omega)]
      omega

theorem visitedRow_last (h : e.Valid) (direction : Int) : visitedRow direction e e.rows.length = e.cy := by
  by_cases hdirection : direction > 0
  · rw [visitedRow_forward h hdirection (Nat.le_refl _), if_neg (by omega), Nat.add_sub_cancel]
  · have hcy := h.cy_lt
    rw [visitedRow_backward h hdirection (Nat.le_refl _), if_neg (by omega), Nat.add_sub_cancel]

/-- A column of a row is looked at in a visit. The row of the cursor is visited first and last, for the columns ahead of the cursor and
for the others. -/
structure VisitedAt (direction : Int) (next : Bool) (e : Editor) (visit y x : Nat) : Prop where
  le : visit ≤ e.rows.length
  row : y = visitedRow direction e visit
  first : visit = 0 → Ahead direction next e.cx x
  last : visit = e.rows.length → ¬Ahead direction next e.cx x

theorem exists_visit (h : e.Valid) (direction : Int) (next : Bool) {y : Nat} (hy : y < e.rows.length) (x : Nat) :
    ∃ visit, VisitedAt direction next e visit y x := by
  have hcy := h.cy_lt
  by_cases hcursor : y = e.cy
  · subst hcursor
    by_cases hahead : Ahead direction next e.cx x
    · exact ⟨0, Nat.zero_le _, rfl, fun _ => hahead, fun hlength => by omega⟩
    · exact ⟨e.rows.length, Nat.le_refl _, (visitedRow_last h direction).symm, fun hzero => by omega, fun _ => hahead⟩
  by_cases hdirection : direction > 0
  · by_cases hlt : e.cy < y
    · refine ⟨y - e.cy, by omega, ?_, fun hzero => by omega, fun hlength => by omega⟩
      rw [visitedRow_forward h hdirection (by omega), if_pos (by omega)]
      omega
    · refine ⟨y + e.rows.length - e.cy, by omega, ?_, fun hzero => by omega, fun hlength => by omega⟩
      rw [visitedRow_forward h hdirection (by omega), if_neg (by omega)]
      omega
  · by_cases hlt : y < e.cy
    · refine ⟨e.cy - y, by omega, ?_, fun hzero => by omega, fun hlength => by omega⟩
      rw [visitedRow_backward h hdirection (by omega), if_pos (by omega)]
      omega
    · refine ⟨e.cy + e.rows.length - y, by omega, ?_, fun hzero => by omega, fun hlength => by omega⟩
      rw [visitedRow_backward h hdirection (by omega), if_neg (by omega)]
      omega

/-! ## Distances -/

/-- The distance of a place that is ahead of the cursor, and of one that is reached around the document. -/
theorem Editor.Valid.distance_eq (h : e.Valid) (direction : Int) (next : Bool) {y x : Nat} (hy : y < e.rows.length)
    (hx : x ≤ (e.row y).size) :
    (Ahead direction next e.offset (e.offsetOf y x) ∧
      e.distance direction next y x = if direction > 0 then e.offsetOf y x - e.offset else e.offset - e.offsetOf y x) ∨
    (¬Ahead direction next e.offset (e.offsetOf y x) ∧
      e.distance direction next y x =
        if direction > 0 then e.offsetOf y x + (e.text.length + 1) - e.offset else e.offset + (e.text.length + 1) - e.offsetOf y x) := by
  have hplace := h.offsetOf_le hy hx
  have hcursor : e.offset ≤ e.text.length := h.offsetOf_le h.cy_lt h.cx_le
  unfold Editor.distance Ahead
  dsimp only
  by_cases hdirection : direction > 0
  · simp only [if_pos hdirection]
    rw [mod_of_lt_twice (by omega)]
    cases next <;> simp <;> split_ifs <;> omega
  · simp only [if_neg hdirection]
    rw [mod_of_lt_twice (by omega)]
    cases next <;> simp <;> split_ifs <;> omega

/-- The places that are visited before the search goes around the document are those ahead of the cursor. -/
theorem VisitedAt.place (h : e.Valid) {direction : Int} {next : Bool} {visit y x : Nat} (hvisit : VisitedAt direction next e visit y x)
    (hy : y < e.rows.length) (hx : x ≤ (e.row y).size) :
    (Ahead direction next e.offset (e.offsetOf y x) ∧ if direction > 0 then y = e.cy + visit else y + visit = e.cy) ∨
    (¬Ahead direction next e.offset (e.offsetOf y x) ∧
      if direction > 0 then y + e.rows.length = e.cy + visit else y + visit = e.cy + e.rows.length) := by
  obtain ⟨hle, hrow, hfirst, hlast⟩ := hvisit
  have hcy := h.cy_lt
  have hcx := h.cx_le
  have hoffset : e.offset = e.offsetOf e.cy 0 + e.cx := rfl
  have hplace : e.offsetOf y x = e.offsetOf y 0 + x := rfl
  have hafter (hlt : e.cy < y) : e.offset < e.offsetOf y x := h.offsetOf_lt_of (.inl hlt) hy hcx
  have hbefore (hlt : y < e.cy) : e.offsetOf y x < e.offset := h.offsetOf_lt_of (.inl hlt) hcy hx
  have hsame (heq : y = e.cy) : e.offsetOf y 0 = e.offsetOf e.cy 0 := by rw [heq]
  unfold Ahead at hfirst hlast ⊢
  by_cases hdirection : direction > 0
  · simp only [if_pos hdirection] at hfirst hlast ⊢
    rw [visitedRow_forward h hdirection hle] at hrow
    cases next <;> simp at hfirst hlast ⊢ <;> split at hrow <;> omega
  · simp only [if_neg hdirection] at hfirst hlast ⊢
    rw [visitedRow_backward h hdirection hle] at hrow
    cases next <;> simp at hfirst hlast ⊢ <;> split at hrow <;> omega

/-- What is visited earlier is nearer. -/
theorem VisitedAt.distance_lt (h : e.Valid) {direction : Int} {next : Bool} {visit visit' y y' x x' : Nat}
    (hvisit : VisitedAt direction next e visit y x) (hvisit' : VisitedAt direction next e visit' y' x') (hy : y < e.rows.length)
    (hx : x ≤ (e.row y).size) (hy' : y' < e.rows.length) (hx' : x' ≤ (e.row y').size)
    (hearlier : visit < visit' ∨ (visit = visit' ∧ Earlier direction x x')) :
    e.distance direction next y x < e.distance direction next y' x' := by
  have hcy := h.cy_lt
  have hle := h.offsetOf_le hy hx
  have hle' := h.offsetOf_le hy' hx'
  have hcursor : e.offset ≤ e.text.length := h.offsetOf_le hcy h.cx_le
  have hup (hlt : y < y' ∨ (y = y' ∧ x < x')) : e.offsetOf y x < e.offsetOf y' x' := h.offsetOf_lt_of hlt hy' hx
  have hdown (hlt : y' < y ∨ (y' = y ∧ x' < x)) : e.offsetOf y' x' < e.offsetOf y x := h.offsetOf_lt_of hlt hy hx'
  have hplace := hvisit.place h hy hx
  have hplace' := hvisit'.place h hy' hx'
  have hdistance := h.distance_eq direction next hy hx
  have hdistance' := h.distance_eq direction next hy' hx'
  unfold Earlier at hearlier
  unfold Ahead at hplace hplace' hdistance hdistance'
  by_cases hdirection : direction > 0
  · simp only [if_pos hdirection] at *
    cases next <;> simp at hplace hplace' hdistance hdistance' <;> omega
  · simp only [if_neg hdirection] at *
    cases next <;> simp at hplace hplace' hdistance hdistance' <;> omega

/-! ## What is found -/

theorem Editor.Valid.le_size_of_occurs (h : e.Valid) (hquery : e.query ≠ []) {y x : Nat} (hoccurs : e.Occurs y x) :
    x ≤ (e.row y).size := by
  obtain ⟨-, hle, -⟩ := (h.occurs_iff hquery).1 hoccurs
  omega

theorem visitedRow_lt (h : e.Valid) (direction : Int) {visit : Nat} (hvisit : visit ≤ e.rows.length) :
    visitedRow direction e visit < e.rows.length := by
  have hcy := h.cy_lt
  by_cases hdirection : direction > 0
  · rw [visitedRow_forward h hdirection hvisit]
    split <;> omega
  · rw [visitedRow_backward h hdirection hvisit]
    split <;> omega

/-- A visit that finds nothing has no occurrence among the columns that it looks at. -/
theorem VisitedAt.not_occurs (h : e.Valid) (hquery : e.query ≠ []) {direction : Int} {next : Bool} {visit y x : Nat}
    (hvisit : VisitedAt direction next e visit y x)
    (hnone : searchRow direction next (true && decide (visit = 0)) e (e.row (visitedRow direction e visit)) = none) : ¬e.Occurs y x := by
  intro hoccurs
  obtain ⟨-, rfl, hfirst, -⟩ := hvisit
  exact searchRow_eq_none h hquery hnone hoccurs fun htrue => hfirst (of_decide_eq_true htrue)

/-- The search finds the query exactly if it occurs in a row, and moves the cursor to the occurrence that is nearest in its direction. -/
theorem search_is_complete (e : Editor) (h : e.Valid) (hquery : e.query ≠ []) (direction : Int) (next : Bool) :
    ((kiloSearch direction next e).1 = true ↔ ∃ y x, e.Occurs y x) ∧
      ((kiloSearch direction next e).1 = true → ∃ y x, e.Occurs y x ∧ (kiloSearch direction next e).2 = { e with cy := y, cx := x } ∧
        ∀ y' x', e.Occurs y' x' → (y', x') ≠ (y, x) → e.distance direction next y x < e.distance direction next y' x') ∧
      ((kiloSearch direction next e).1 = false → (kiloSearch direction next e).2 = e) := by
  have hlength : e.query.length ≠ 0 := fun hzero => hquery (List.length_eq_zero_iff.1 hzero)
  unfold kiloSearch
  rw [if_neg hlength]
  rcases hsearch : searchRows direction next e (e.rows.length + 1) true e.cy with _ | found
  · refine ⟨iff_of_false Bool.false_ne_true ?_, fun htrue => absurd htrue Bool.false_ne_true, fun _ => rfl⟩
    rintro ⟨y, x, hoccurs⟩
    obtain ⟨visit, hvisit⟩ := exists_visit h direction next hoccurs.1 x
    exact hvisit.not_occurs h hquery (searchRows_eq_none hsearch (Nat.lt_succ_of_le hvisit.le)) hoccurs
  · obtain ⟨visit, hlt, hrow, hfound, hearlier⟩ := searchRows_eq_some hsearch
    obtain ⟨y, x⟩ := found
    dsimp only at hrow hfound
    have hle : visit ≤ e.rows.length := Nat.le_of_lt_succ hlt
    have hy : y < e.rows.length := by
      rw [hrow]
      exact visitedRow_lt h direction hle
    obtain ⟨hoccurs, hahead, hnearest⟩ := searchRow_eq_some h hquery hy hfound
    refine ⟨iff_of_true rfl ⟨y, x, hoccurs⟩, fun _ => ⟨y, x, hoccurs, rfl, fun y' x' hoccurs' hne => ?_⟩,
      fun hfalse => absurd hfalse.symm Bool.false_ne_true⟩
    have hvisit : VisitedAt direction next e visit y x := by
      refine ⟨hle, hrow, fun hzero => hahead (decide_eq_true hzero), fun hlast hcolumn => ?_⟩
      obtain rfl : y = e.cy := by rw [hrow, hlast, ← visitedRow, visitedRow_last h]
      exact searchRow_eq_none h hquery (hearlier 0 (by have := h.cy_lt; omega)) hoccurs fun _ => hcolumn
    obtain ⟨visit', hvisit'⟩ := exists_visit h direction next hoccurs'.1 x'
    refine hvisit.distance_lt h hvisit' hy (h.le_size_of_occurs hquery hoccurs) hoccurs'.1 (h.le_size_of_occurs hquery hoccurs') ?_
    rcases Nat.lt_trichotomy visit visit' with hvisits | rfl | hvisits
    · exact .inl hvisits
    · obtain rfl : y' = y := hvisit'.row.trans hrow.symm
      rcases hnearest x' hoccurs' fun htrue => hvisit'.first (of_decide_eq_true htrue) with rfl | hbefore
      · exact absurd rfl hne
      · exact .inr ⟨rfl, hbefore⟩
    · exact absurd hoccurs' (hvisit'.not_occurs h hquery (hearlier visit' hvisits))

/-- Three rows with the query twice in the row of the cursor and once in the last. -/
def threeRows : Editor where
  rows := [⟨[0x61, 0x62, 0x61, 0], 3, 1⟩, ⟨[0], 0, 1⟩, ⟨[0x61, 0], 1, 0⟩]
  bytes := 6
  cx := 2
  cy := 0
  newline := 1
  dirty := false
  query := [0x61]
  message := []
  recovery := []
  filename := []

theorem threeRows_valid : threeRows.Valid := by
  refine ⟨by decide, by decide, by decide, by decide, ?_, ⟨by decide, by decide, rfl⟩, by decide, by decide, .inl rfl⟩
  intro row hrow
  simp only [threeRows, List.mem_cons, List.not_mem_nil, or_false] at hrow
  rcases hrow with rfl | rfl | rfl
  all_goals exact ⟨by decide, by decide, by simp [Row.content], by decide⟩

theorem search_is_complete_three_rows :
    (kiloSearch 1 true threeRows).2.cy = 2 ∧ (kiloSearch 1 true threeRows).2.cx = 0 ∧ ∃ y x, threeRows.Occurs y x :=
  ⟨by decide, by decide, (search_is_complete threeRows threeRows_valid (by decide) 1 true).1.1 (by decide)⟩

end Kilo
end TabOS
