import TabOS.Kilo.Screen
import TabOS.Kilo.Search

/-!
# Painting the screen

`apps/kilo/src/render.c`, with `kilo_render_column` and `kilo_scroll`: the rows in view, the status and a message are put into a frame
whose size is computed beforehand, and the frame is written out. The classes of the highlighting are an input.
-/

namespace TabOS
namespace Kilo

/-- `KILO_TAB_WIDTH`. -/
def tabWidth : Nat := 4

def tabByte : UInt8 := 0x09

/-- `HL_MATCH`. -/
def highlightMatch : UInt8 := 8

/-- `frame_t`; `used` is the length of the data. -/
structure Frame where
  data : List UInt8
  capacity : Nat
  failed : Bool

/-- The fields of `kilo_editor_t` that only the painting reads. -/
structure View where
  screenrows : Nat
  screencols : Nat
  rowoff : Nat
  coloff : Nat
  searching : Bool
  confirming : Bool
  deriving DecidableEq, Repr

def Frame.append (f : Frame) (text : List UInt8) : Frame :=
  if text.length > f.capacity - f.data.length then { f with failed := true } else { f with data := f.data ++ text }

/-- The successor of a number as an `unsigned`. -/
def unsignedNext (n : Nat) : Nat := (n % 2 ^ 32 + 1) % 2 ^ 32

/-- `snprintf` into an array of some size. -/
def snprintf (size : Nat) (text : List UInt8) : List UInt8 := text.take (size - 1)

def Frame.position (f : Frame) (row column : Nat) : Frame :=
  f.append (snprintf 48 (csi ++ decimal (unsignedNext row) ++ ascii ";" ++ decimal (unsignedNext column) ++ ascii "H"))

def inert (c : UInt8) : UInt8 := if c < 32 ∨ c = 127 then 0x3f else c

def Frame.safeText (f : Frame) (text : List UInt8) (width : Nat) : Frame :=
  ((text.takeWhile (· ≠ 0)).take width).foldl (fun f c => f.append [inert c]) f

def colors : List Nat := [39, 39, 36, 36, 33, 32, 35, 31, 34]

def color (highlight : UInt8) : Nat := if highlight ≤ highlightMatch then colors.getD highlight.toNat 39 else 39

/-- The columns that a character takes up. -/
def cellWidth (column : Nat) (c : UInt8) : Nat := if c = tabByte then tabWidth - column % tabWidth else 1

def kiloRenderColumn (row : Row) (byte : Nat) : Nat := (row.content.take byte).foldl (fun column c => column + cellWidth column c) 0

def kiloScroll (e : Editor) (view : View) : View :=
  let view := if e.cy < view.rowoff then { view with rowoff := e.cy } else view
  let view := if e.cy ≥ view.rowoff + view.screenrows then { view with rowoff := e.cy - view.screenrows + 1 } else view
  let column := kiloRenderColumn (e.row e.cy) e.cx
  let view := if column < view.coloff then { view with coloff := column } else view
  if column ≥ view.coloff + view.screencols then { view with coloff := column - view.screencols + 1 } else view

/-- What the loops over a row change. -/
structure RowState where
  frame : Frame
  column : Nat
  previousColor : Nat

/-- The inner loop's step: a cell in view is put out, after a change of the color. -/
def drawCell (view : View) (selected : Nat) (shown : UInt8) (s : RowState) : RowState :=
  if s.column < view.coloff ∨ s.column ≥ view.coloff + view.screencols then { s with column := s.column + 1 }
  else
    let frame := if selected ≠ s.previousColor then s.frame.append (snprintf 16 (csi ++ decimal selected ++ ascii "m")) else s.frame
    ⟨frame.append [shown], s.column + 1, selected⟩

/-- The color of a character; what the search has found has its own. -/
def selectedColor (e : Editor) (view : View) (hl : Nat → Nat → UInt8) (r i : Nat) : Nat :=
  if view.searching ∧ e.query.length ≠ 0 ∧ r = e.cy ∧ i ≥ e.cx ∧ i - e.cx < e.query.length then 34 else color (hl r i)

/-- What a character looks like. -/
def shownOf (c : UInt8) : UInt8 := if c = tabByte then 0x20 else inert c

/-- The loop over the characters of a row, from one on. -/
def drawRow (e : Editor) (view : View) (hl : Nat → Nat → UInt8) (r : Nat) : Nat → List UInt8 → RowState → RowState
  | _, [], s => s
  | i, c :: chars, s =>
    if s.column < view.coloff + view.screencols then
      drawRow e view hl r (i + 1) chars ((drawCell view (selectedColor e view hl r i) (shownOf c))^[cellWidth s.column c] s)
    else s

/-- A row of the text area. -/
def drawScreenRow (e : Editor) (view : View) (hl : Nat → Nat → UInt8) (f : Frame) (y : Nat) : Frame :=
  let f := (f.position y 0).append (csi ++ ascii "0m" ++ (csi ++ ascii "2K"))
  let r := y + view.rowoff
  if r ≥ e.rows.length then f.append (ascii "~") else (drawRow e view hl r 0 (e.row r).content ⟨f, 0, 39⟩).frame

def statusText (e : Editor) : List UInt8 :=
  snprintf 768 ((if e.dirty then ascii "* " else []) ++ e.filename.takeWhile (· ≠ 0) ++ ascii " | " ++ decimal (unsignedNext e.cy) ++
    ascii ":" ++ decimal (unsignedNext e.cx) ++ ascii " | " ++ decimal (e.rows.length % 2 ^ 32) ++ ascii " lines")

def locationText (e : Editor) : List UInt8 :=
  snprintf 64 (ascii " " ++ decimal (unsignedNext e.cy) ++ ascii ":" ++ decimal (unsignedNext e.cx) ++ ascii " " ++
    decimal (e.rows.length % 2 ^ 32) ++ ascii "L")

/-- The location at the right end of the status, where there is room. -/
def drawLocation (e : Editor) (view : View) (f : Frame) : Frame :=
  if (locationText e).length ≤ view.screencols then
    (f.position view.screenrows (view.screencols - (locationText e).length)).safeText (locationText e) (locationText e).length
  else f

/-- The row of the status. -/
def drawStatus (e : Editor) (view : View) (f : Frame) : Frame :=
  let f := (f.position view.screenrows 0).append (csi ++ ascii "0m" ++ (csi ++ ascii "2K") ++ (csi ++ ascii "7m"))
  let f := drawLocation e view (f.safeText (statusText e) view.screencols)
  f.append (csi ++ ascii "0m")

def messageText (e : Editor) (view : View) : List UInt8 :=
  if view.confirming then ascii "Discard unsaved edits? Y = discard, N/Escape = cancel"
  else if view.searching then
    snprintf 768 (ascii "Find: " ++ e.query.takeWhile (· ≠ 0) ++ ascii " (arrows next/prev, Enter accept, Esc cancel)")
  else if e.message.headD 0 ≠ 0 then e.message
  else ascii "Ctrl-S save | Ctrl-F find | Ctrl-L redraw | Ctrl-Q quit"

/-- The row of the message. -/
def drawMessage (e : Editor) (view : View) (f : Frame) : Frame :=
  ((f.position (view.screenrows + 1) 0).append (csi ++ ascii "2K")).safeText (messageText e view) view.screencols

/-- The `capacity` of the frame. -/
def frameCapacity (view : View) : Nat := (view.screenrows + 2) * (view.screencols * 8 + 64) + 128

/-- All that is put into the frame. -/
def drawFrame (e : Editor) (view : View) (hl : Nat → Nat → UInt8) (f : Frame) : Frame :=
  let f := f.append (csi ++ ascii "?25l" ++ (csi ++ ascii "0m"))
  let f := (List.range view.screenrows).foldl (drawScreenRow e view hl) f
  let f := drawMessage e view (drawStatus e view f)
  let f := f.position (e.cy - view.rowoff) (kiloRenderColumn (e.row e.cy) e.cx - view.coloff)
  f.append (csi ++ ascii "?25h")

/-- The loop that writes the frame out: whether all calls succeed, and what was written. -/
def send (answers : Nat → Int) (call : Nat) (data : List UInt8) : Bool × List UInt8 :=
  if hempty : data = [] then (true, [])
  else if hrefused : answers call ≤ 0 ∨ (answers call).toNat > data.length then (false, [])
  else
    have hless : (data.drop (answers call).toNat).length < data.length := by
      have hpos : 0 < data.length := List.length_pos_iff.2 hempty
      rw [List.length_drop]
      omega
    let rest := send answers (call + 1) (data.drop (answers call).toNat)
    (rest.1, data.take (answers call).toNat ++ rest.2)
termination_by data.length

/-- What `kilo_render` leaves: its result, the editor, the frame if it was allocated, and all that was written. -/
structure Rendered where
  ok : Bool
  editor : Editor
  view : View
  frame : Option Frame
  output : List UInt8

def kiloRender (granted : Bool) (answers : Nat → Int) (hl : Nat → Nat → UInt8) (e : Editor) (view : View) : Rendered :=
  if view.screenrows = 0 ∨ view.screencols = 0 ∨ view.screenrows > 256 ∨ view.screencols > 512 then ⟨false, e, view, none, []⟩
  else if granted = false then ⟨false, kiloStatus (ascii "Cannot allocate terminal frame") e, view, none, []⟩
  else
    let view := kiloScroll e view
    let f := drawFrame e view hl ⟨[], frameCapacity view, false⟩
    let sent := if f.failed then (false, []) else send answers 0 f.data
    ⟨sent.1, e, view, some f, sent.2⟩

/-! ## The view -/

variable {e : Editor} {view : View}

/-- The cursor is in view. -/
structure InView (e : Editor) (view : View) : Prop where
  top : view.rowoff ≤ e.cy
  bottom : e.cy < view.rowoff + view.screenrows
  left : view.coloff ≤ kiloRenderColumn (e.row e.cy) e.cx
  right : kiloRenderColumn (e.row e.cy) e.cx < view.coloff + view.screencols

theorem kiloScroll_spec (hrows : 0 < view.screenrows) (hcols : 0 < view.screencols) :
    InView e (kiloScroll e view) ∧ (kiloScroll e view).screenrows = view.screenrows ∧
      (kiloScroll e view).screencols = view.screencols := by
  have hspec : (kiloScroll e view).screenrows = view.screenrows ∧ (kiloScroll e view).screencols = view.screencols ∧
      (kiloScroll e view).rowoff ≤ e.cy ∧ e.cy < (kiloScroll e view).rowoff + view.screenrows ∧
      (kiloScroll e view).coloff ≤ kiloRenderColumn (e.row e.cy) e.cx ∧
      kiloRenderColumn (e.row e.cy) e.cx < (kiloScroll e view).coloff + view.screencols := by
    unfold kiloScroll
    generalize kiloRenderColumn (e.row e.cy) e.cx = column
    dsimp only
    split_ifs <;> (try dsimp only at *) <;> omega
  obtain ⟨hscreenrows, hscreencols, htop, hbottom, hleft, hright⟩ := hspec
  rw [← hscreenrows] at hbottom
  rw [← hscreencols] at hright
  exact ⟨⟨htop, hbottom, hleft, hright⟩, hscreenrows, hscreencols⟩

/-! ## Frames -/

/-- A function puts tokens into a frame where there is room for them. -/
def Emits (write : Frame → Frame) (tokens : List Token) : Prop :=
  ∀ f : Frame, f.data.length + (bytesOf tokens).length ≤ f.capacity → write f = { f with data := f.data ++ bytesOf tokens }

theorem append_emits {text : List UInt8} {tokens : List Token} (h : text = bytesOf tokens) : Emits (fun f => f.append text) tokens := by
  intro f hroom
  subst h
  show (if _ then _ else _) = _
  exact if_neg (by omega)

theorem Emits.trans {write write' : Frame → Frame} {tokens tokens' : List Token} (h : Emits write tokens) (h' : Emits write' tokens') :
    Emits (fun f => write' (write f)) (tokens ++ tokens') := by
  intro f hroom
  rw [bytesOf_append, List.length_append] at hroom
  show write' (write f) = _
  rw [h f (by omega), h' _ (by show (f.data ++ bytesOf tokens).length + _ ≤ f.capacity; rw [List.length_append]; omega)]
  rw [bytesOf_append, ← List.append_assoc]

theorem emits_nil : Emits (fun f => f) [] := by
  intro f _
  rw [bytesOf, List.flatMap_nil, List.append_nil]

theorem foldl_emits {α : Type*} {write : Frame → α → Frame} {tokens : α → List Token} {l : List α}
    (h : ∀ x ∈ l, Emits (fun f => write f x) (tokens x)) : Emits (fun f => l.foldl write f) (l.flatMap tokens) := by
  induction l with
  | nil => exact emits_nil
  | cons x l ih =>
    rw [List.flatMap_cons]
    exact (h x List.mem_cons_self).trans (ih fun y hy => h y (List.mem_cons_of_mem _ hy))

theorem unsignedNext_of_lt {n : Nat} (h : n + 1 < 1000) : unsignedNext n = n + 1 := by
  unfold unsignedNext
  omega

theorem position_emits {row column : Nat} (hrow : row + 1 < 1000) (hcolumn : column + 1 < 1000) :
    Emits (fun f => f.position row column) [.position row column] := by
  refine append_emits ?_
  rw [unsignedNext_of_lt hrow, unsignedNext_of_lt hcolumn]
  have hbytes : csi ++ decimal (row + 1) ++ ascii ";" ++ decimal (column + 1) ++ ascii "H" = bytesOf [.position row column] :=
    (List.flatMap_singleton _ _).symm
  rw [hbytes]
  refine List.take_of_length_le ?_
  have hlength := length_position hrow hcolumn
  rw [bytesOf, List.flatMap_singleton]
  omega

theorem hide_emits : Emits (fun f => f.append (csi ++ ascii "?25l" ++ (csi ++ ascii "0m"))) [.hideCursor, .reset] :=
  append_emits (by simp only [bytesOf, List.flatMap_cons, List.flatMap_nil, Token.bytes, List.append_nil])

theorem line_emits : Emits (fun f => f.append (csi ++ ascii "0m" ++ (csi ++ ascii "2K"))) [.reset, .eraseLine] :=
  append_emits (by simp only [bytesOf, List.flatMap_cons, List.flatMap_nil, Token.bytes, List.append_nil])

theorem statusLine_emits :
    Emits (fun f => f.append (csi ++ ascii "0m" ++ (csi ++ ascii "2K") ++ (csi ++ ascii "7m"))) [.reset, .eraseLine, .inverse] :=
  append_emits (by simp only [bytesOf, List.flatMap_cons, List.flatMap_nil, Token.bytes, List.append_nil, List.append_assoc])

theorem reset_emits : Emits (fun f => f.append (csi ++ ascii "0m")) [.reset] :=
  append_emits (by simp only [bytesOf, List.flatMap_cons, List.flatMap_nil, Token.bytes, List.append_nil])

theorem erase_emits : Emits (fun f => f.append (csi ++ ascii "2K")) [.eraseLine] :=
  append_emits (by simp only [bytesOf, List.flatMap_cons, List.flatMap_nil, Token.bytes, List.append_nil])

theorem show_emits : Emits (fun f => f.append (csi ++ ascii "?25h")) [.showCursor] :=
  append_emits (by simp only [bytesOf, List.flatMap_cons, List.flatMap_nil, Token.bytes, List.append_nil])

theorem tilde_emits : Emits (fun f => f.append (ascii "~")) [.cell 0x7e] :=
  append_emits (by simp only [bytesOf, List.flatMap_cons, List.flatMap_nil, Token.bytes, List.append_nil]; rfl)

theorem cell_emits (shown : UInt8) : Emits (fun f => f.append [shown]) [.cell shown] :=
  append_emits (by simp only [bytesOf, List.flatMap_cons, List.flatMap_nil, Token.bytes, List.append_nil])

/-- The cells of a text that is cut at a width. -/
def textTokens (text : List UInt8) (width : Nat) : List Token := ((text.takeWhile (· ≠ 0)).take width).map fun c => .cell (inert c)

theorem safeText_emits (text : List UInt8) (width : Nat) : Emits (fun f => f.safeText text width) (textTokens text width) := by
  have hcells := @foldl_emits _ (fun f c => f.append [inert c]) (fun c => [.cell (inert c)]) ((text.takeWhile (· ≠ 0)).take width)
    fun c _ => cell_emits (inert c)
  rw [textTokens, List.map_eq_flatMap]
  exact hcells

theorem not_control_inert (c : UInt8) : ¬IsControl (inert c) := by
  unfold inert
  split
  · decide
  · assumption

theorem cellsOf_textTokens (text : List UInt8) (width : Nat) :
    cellsOf (textTokens text width) = ((text.takeWhile (· ≠ 0)).take width).map inert := by
  rw [cellsOf, textTokens, List.filterMap_map]
  exact congrFun List.filterMap_eq_map' _

theorem bytesOf_textTokens (text : List UInt8) (width : Nat) :
    bytesOf (textTokens text width) = ((text.takeWhile (· ≠ 0)).take width).map inert := by
  rw [bytesOf, textTokens, List.flatMap_map, List.map_eq_flatMap]
  rfl

theorem length_textTokens (text : List UInt8) (width : Nat) : (bytesOf (textTokens text width)).length ≤ width := by
  rw [bytesOf_textTokens, List.length_map, List.length_take]
  exact Nat.min_le_left _ _

theorem fits_textTokens (text : List UInt8) {width room columns : Nat} (h : columns ≤ room) :
    Fits width room (textTokens text columns) := by
  refine fits_of_length ?_ ?_ ?_
  · intro token hmem
    obtain ⟨c, -, rfl⟩ := List.mem_map.1 hmem
    rfl
  · rw [cellsOf_textTokens]
    intro shown hmem
    obtain ⟨c, -, rfl⟩ := List.mem_map.1 hmem
    exact not_control_inert c
  · rw [cellsOf_textTokens, List.length_map, List.length_take]
    omega

/-! ## A row -/

/-- The cells of a text from a column on. -/
def expand : Nat → List UInt8 → List UInt8
  | _, [] => []
  | column, c :: chars => List.replicate (cellWidth column c) (shownOf c) ++ expand (column + cellWidth column c) chars

/-- Those of some cells from a column on that are in view. -/
def visible (view : View) : Nat → List UInt8 → List UInt8
  | _, [] => []
  | column, c :: text =>
    if view.coloff ≤ column ∧ column < view.coloff + view.screencols then c :: visible view (column + 1) text
    else visible view (column + 1) text

theorem visible_append (column : Nat) (text text' : List UInt8) :
    visible view column (text ++ text') = visible view column text ++ visible view (column + text.length) text' := by
  induction text generalizing column with
  | nil => rfl
  | cons c text ih =>
    have hlength : column + (c :: text).length = column + 1 + text.length := by
      rw [List.length_cons]
      omega
    rw [List.cons_append, visible, visible, ih, hlength]
    split <;> rfl

/-- Nothing is in view behind the right edge. -/
theorem visible_of_right {column : Nat} (h : view.coloff + view.screencols ≤ column) (text : List UInt8) :
    visible view column text = [] := by
  induction text generalizing column with
  | nil => rfl
  | cons c text ih => rw [visible, if_neg (by omega), ih (by omega)]

theorem visible_of_left {column : Nat} (h : view.coloff ≤ column) (text : List UInt8) :
    visible view column text = text.take (view.coloff + view.screencols - column) := by
  induction text generalizing column with
  | nil => rw [visible, List.take_nil]
  | cons c text ih =>
    rw [visible]
    by_cases hlt : column < view.coloff + view.screencols
    · rw [if_pos ⟨h, hlt⟩, ih (by omega),
        show view.coloff + view.screencols - column = view.coloff + view.screencols - (column + 1) + 1 by omega,
        List.take_succ_cons]
    · rw [if_neg (by omega), visible_of_right (by omega), show view.coloff + view.screencols - column = 0 by omega, List.take_zero]

theorem visible_eq {column : Nat} (h : column ≤ view.coloff) (text : List UInt8) :
    visible view column text = (text.drop (view.coloff - column)).take view.screencols := by
  induction text generalizing column with
  | nil => rw [visible, List.drop_nil, List.take_nil]
  | cons c text ih =>
    by_cases heq : column = view.coloff
    · rw [visible_of_left (Nat.le_of_eq heq.symm), heq, Nat.sub_self, List.drop_zero, Nat.add_sub_cancel_left]
    · rw [visible, if_neg (by omega), ih (by omega), show view.coloff - column = view.coloff - (column + 1) + 1 by omega,
        List.drop_succ_cons]

/-- The tokens of cells in a row. -/
structure RowTokens (tokens : List Token) (shown : List UInt8) : Prop where
  inRow : ∀ token ∈ tokens, token.InRow
  cells : cellsOf tokens = shown
  length_le : (bytesOf tokens).length ≤ 6 * shown.length

theorem RowTokens.append {tokens tokens' : List Token} {shown shown' : List UInt8} (h : RowTokens tokens shown)
    (h' : RowTokens tokens' shown') : RowTokens (tokens ++ tokens') (shown ++ shown') := by
  refine ⟨fun token hmem => ?_, ?_, ?_⟩
  · exact (List.mem_append.1 hmem).elim (h.inRow token) (h'.inRow token)
  · rw [cellsOf, List.filterMap_append, ← h.cells, ← h'.cells]
    rfl
  · have hle := h.length_le
    have hle' := h'.length_le
    rw [bytesOf_append, List.length_append, List.length_append]
    omega

theorem rowTokens_nil : RowTokens [] [] := ⟨fun _ hmem => absurd hmem List.not_mem_nil, rfl, Nat.le_refl _⟩

/-- A step draws cells from a column on: it puts out those in view. -/
def Draws (view : View) (draw : RowState → RowState) (column : Nat) (text : List UInt8) : Prop :=
  ∀ previous, ∃ tokens previous', RowTokens tokens (visible view column text) ∧
    ∀ f : Frame, f.data.length + (bytesOf tokens).length ≤ f.capacity →
      draw ⟨f, column, previous⟩ = ⟨{ f with data := f.data ++ bytesOf tokens }, column + text.length, previous'⟩

theorem color_lt (highlight : UInt8) : color highlight < 100 := by
  have hcolors : ∀ value ∈ colors, value < 100 := by decide
  unfold color
  split
  · rw [List.getD_eq_getElem?_getD]
    rcases hvalue : colors[highlight.toNat]? with _ | value
    · decide
    · exact hcolors value (List.mem_of_getElem? hvalue)
  · decide

theorem selectedColor_lt (hl : Nat → Nat → UInt8) (r i : Nat) : selectedColor e view hl r i < 100 := by
  unfold selectedColor
  split
  · decide
  · exact color_lt _

theorem color_emits {value : Nat} (h : value < 100) :
    Emits (fun f => f.append (snprintf 16 (csi ++ decimal value ++ ascii "m"))) [.color value] := by
  refine append_emits ?_
  have hbytes : csi ++ decimal value ++ ascii "m" = bytesOf [.color value] := (List.flatMap_singleton _ _).symm
  rw [hbytes]
  refine List.take_of_length_le ?_
  have hlength := length_color h
  rw [bytesOf, List.flatMap_singleton]
  omega

theorem drawCell_draws {selected : Nat} (hselected : selected < 100) (shown : UInt8) (column : Nat) :
    Draws view (drawCell view selected shown) column [shown] := by
  intro previous
  by_cases hout : column < view.coloff ∨ column ≥ view.coloff + view.screencols
  · refine ⟨[], previous, ?_, fun f _ => ?_⟩
    · rw [visible, if_neg (by omega)]
      exact rowTokens_nil
    · unfold drawCell
      rw [if_pos hout, bytesOf, List.flatMap_nil, List.append_nil]
      rfl
  · have hvisible : visible view column [shown] = [shown] := by
      rw [visible, if_pos (by omega), visible]
    have hcell := cell_emits shown
    rw [hvisible]
    by_cases hcolor : selected ≠ previous
    · refine ⟨[.color selected, .cell shown], selected, ⟨?_, rfl, ?_⟩, fun f hroom => ?_⟩
      · intro token hmem
        simp only [List.mem_cons, List.not_mem_nil, or_false] at hmem
        rcases hmem with rfl | rfl <;> trivial
      · have hlength := length_color hselected
        rw [bytesOf_cons, List.length_append]
        show _ + 1 ≤ 6
        omega
      · unfold drawCell
        rw [if_neg hout]
        dsimp only
        have hframe : (f.append (snprintf 16 (csi ++ decimal selected ++ ascii "m"))).append [shown] =
            { f with data := f.data ++ bytesOf [.color selected, .cell shown] } := (color_emits hselected).trans hcell f hroom
        rw [if_pos hcolor, hframe, List.length_singleton]
    · refine ⟨[.cell shown], selected, ⟨?_, rfl, ?_⟩, fun f hroom => ?_⟩
      · intro token hmem
        obtain rfl := List.mem_singleton.1 hmem
        trivial
      · show 1 ≤ 6
        omega
      · unfold drawCell
        rw [if_neg hout]
        dsimp only
        have hframe : f.append [shown] = { f with data := f.data ++ bytesOf [.cell shown] } := hcell f hroom
        rw [if_neg hcolor, hframe, List.length_singleton]

theorem Draws.trans {draw draw' : RowState → RowState} {column : Nat} {text text' : List UInt8} (h : Draws view draw column text)
    (h' : Draws view draw' (column + text.length) text') : Draws view (fun s => draw' (draw s)) column (text ++ text') := by
  intro previous
  obtain ⟨tokens, previous', htokens, hdraw⟩ := h previous
  obtain ⟨tokens', previous'', htokens', hdraw'⟩ := h' previous'
  refine ⟨tokens ++ tokens', previous'', ?_, fun f hroom => ?_⟩
  · rw [visible_append]
    exact htokens.append htokens'
  · rw [bytesOf_append, List.length_append] at hroom
    show draw' (draw _) = _
    rw [hdraw f (by omega), hdraw' _ (by show (f.data ++ bytesOf tokens).length + _ ≤ f.capacity; rw [List.length_append]; omega)]
    rw [bytesOf_append, ← List.append_assoc, List.length_append, Nat.add_assoc]

theorem iterate_draws {selected : Nat} (hselected : selected < 100) (shown : UInt8) (count column : Nat) :
    Draws view ((drawCell view selected shown)^[count]) column (List.replicate count shown) := by
  induction count generalizing column with
  | zero =>
    intro previous
    refine ⟨[], previous, rowTokens_nil, fun f _ => ?_⟩
    rw [bytesOf, List.flatMap_nil, List.append_nil]
    rfl
  | succ count ih =>
    rw [List.replicate_succ]
    exact (drawCell_draws hselected shown column).trans (ih (column + 1))

/-- The loop over the characters of a row puts out the cells in view. -/
theorem drawRow_spec (hl : Nat → Nat → UInt8) (r i column previous : Nat) (chars : List UInt8) :
    ∃ tokens, RowTokens tokens (visible view column (expand column chars)) ∧
      ∀ f : Frame, f.data.length + (bytesOf tokens).length ≤ f.capacity →
        (drawRow e view hl r i chars ⟨f, column, previous⟩).frame = { f with data := f.data ++ bytesOf tokens } := by
  induction chars generalizing i column previous with
  | nil => exact ⟨[], rowTokens_nil, fun f hroom => emits_nil f hroom⟩
  | cons c chars ih =>
    by_cases hlt : column < view.coloff + view.screencols
    · obtain ⟨tokens, previous', htokens, hdraw⟩ :=
        @iterate_draws view _ (selectedColor_lt hl r i) (shownOf c) (cellWidth column c) column previous
      obtain ⟨tokens', htokens', hdraw'⟩ := ih (i + 1) (column + cellWidth column c) previous'
      refine ⟨tokens ++ tokens', ?_, fun f hroom => ?_⟩
      · rw [expand, visible_append, List.length_replicate]
        exact htokens.append htokens'
      · rw [bytesOf_append, List.length_append] at hroom
        rw [drawRow, if_pos hlt, hdraw f (by omega), List.length_replicate,
          hdraw' _ (by show (f.data ++ bytesOf tokens).length + _ ≤ f.capacity; rw [List.length_append]; omega)]
        rw [bytesOf_append, ← List.append_assoc]
    · refine ⟨[], ?_, fun f hroom => ?_⟩
      · rw [visible_of_right (Nat.not_lt.1 hlt)]
        exact rowTokens_nil
      · rw [drawRow, if_neg hlt]
        exact emits_nil f hroom

/-- What a row of the text area shows. -/
def shownRow (e : Editor) (view : View) (y : Nat) : List UInt8 :=
  if y + view.rowoff ≥ e.rows.length then ascii "~"
  else ((expand 0 (e.row (y + view.rowoff)).content).drop view.coloff).take view.screencols

/-- The tokens of a row of the text area around those of its cells. -/
def rowTokens (body : Nat → List Token) (y : Nat) : List Token := [.position y 0] ++ [.reset, .eraseLine] ++ body y

theorem drawScreenRow_emits (e : Editor) (view : View) (hl : Nat → Nat → UInt8) {y : Nat} (hy : y + 1 < 1000) :
    ∃ body, RowTokens body (shownRow e view y) ∧
      Emits (fun f => drawScreenRow e view hl f y) ([.position y 0] ++ [.reset, .eraseLine] ++ body) := by
  have hstart : Emits (fun f => (f.position y 0).append (csi ++ ascii "0m" ++ (csi ++ ascii "2K")))
      ([.position y 0] ++ [.reset, .eraseLine]) := (position_emits hy (by omega)).trans line_emits
  by_cases hend : y + view.rowoff ≥ e.rows.length
  · refine ⟨[.cell 0x7e], ?_, ?_⟩
    · rw [shownRow, if_pos hend]
      refine ⟨fun token hmem => ?_, rfl, by decide⟩
      obtain rfl := List.mem_singleton.1 hmem
      trivial
    · have hdraw : (fun f => drawScreenRow e view hl f y) =
          fun f => ((f.position y 0).append (csi ++ ascii "0m" ++ (csi ++ ascii "2K"))).append (ascii "~") := by
        funext f
        exact if_pos hend
      have hemits := hstart.trans tilde_emits
      rw [hdraw]
      exact hemits
  · obtain ⟨body, hbody, hdraw⟩ := @drawRow_spec e view hl (y + view.rowoff) 0 0 39 (e.row (y + view.rowoff)).content
    rw [visible_eq (Nat.zero_le _), Nat.sub_zero] at hbody
    refine ⟨body, ?_, ?_⟩
    · rw [shownRow, if_neg hend]
      exact hbody
    · have hframe : (fun f => drawScreenRow e view hl f y) = fun f => (drawRow e view hl (y + view.rowoff) 0
          (e.row (y + view.rowoff)).content ⟨(f.position y 0).append (csi ++ ascii "0m" ++ (csi ++ ascii "2K")), 0, 39⟩).frame := by
        funext f
        exact congrArg id (if_neg hend)
      have hemits := hstart.trans hdraw
      rw [hframe]
      exact hemits

theorem length_shownRow_le (hcols : 0 < view.screencols) (y : Nat) : (shownRow e view y).length ≤ view.screencols := by
  unfold shownRow
  split
  · exact hcols
  · rw [List.length_take]
    exact Nat.min_le_left _ _

theorem not_control_shownOf (c : UInt8) : ¬IsControl (shownOf c) := by
  unfold shownOf
  split
  · decide
  · exact not_control_inert c

theorem not_control_expand {column : Nat} {chars : List UInt8} {shown : UInt8} (h : shown ∈ expand column chars) : ¬IsControl shown := by
  induction chars generalizing column with
  | nil => exact absurd h List.not_mem_nil
  | cons c chars ih =>
    rcases List.mem_append.1 h with h | h
    · rw [(List.mem_replicate.1 h).2]
      exact not_control_shownOf c
    · exact ih h

theorem not_control_shownRow {y : Nat} {shown : UInt8} (h : shown ∈ shownRow e view y) : ¬IsControl shown := by
  unfold shownRow at h
  split at h
  · obtain rfl : shown = 0x7e := List.mem_singleton.1 h
    decide
  · exact not_control_expand (List.mem_of_mem_drop (List.mem_of_mem_take h))

/-! ## The cursor -/

theorem length_expand (column : Nat) (chars : List UInt8) :
    column + (expand column chars).length = chars.foldl (fun column c => column + cellWidth column c) column := by
  induction chars generalizing column with
  | nil => rfl
  | cons c chars ih =>
    rw [expand, List.length_append, List.length_replicate, List.foldl_cons, ← ih, Nat.add_assoc]

theorem expand_append (column : Nat) (chars chars' : List UInt8) :
    expand column (chars ++ chars') = expand column chars ++ expand (column + (expand column chars).length) chars' := by
  induction chars generalizing column with
  | nil => rfl
  | cons c chars ih =>
    rw [List.cons_append, expand, expand, ih, List.append_assoc, List.length_append, List.length_replicate, Nat.add_assoc]

theorem cellWidth_pos (column : Nat) (c : UInt8) : 0 < cellWidth column c := by
  unfold cellWidth tabWidth
  split
  · omega
  · decide

/-- The cell in the column of a character shows it. -/
theorem getElem?_expand (row : Row) (byte : Nat) :
    (expand 0 row.content)[kiloRenderColumn row byte]? = row.content[byte]?.map shownOf := by
  have hsplit : expand 0 row.content = expand 0 (row.content.take byte) ++
      expand (0 + (expand 0 (row.content.take byte)).length) (row.content.drop byte) := by
    rw [← expand_append, List.take_append_drop]
  have hcolumn : kiloRenderColumn row byte = (expand 0 (row.content.take byte)).length := by
    rw [kiloRenderColumn, ← length_expand, Nat.zero_add]
  have hchar : row.content[byte]? = (row.content.drop byte).head? := List.head?_drop.symm
  rw [hchar, hsplit, hcolumn, List.getElem?_append_right (Nat.le_refl _), Nat.sub_self]
  rcases hdrop : row.content.drop byte with _ | ⟨c, chars⟩
  · rfl
  · obtain ⟨count, hcount⟩ : ∃ count, cellWidth (0 + (expand 0 (row.content.take byte)).length) c = count + 1 :=
      Nat.exists_eq_succ_of_ne_zero (Nat.ne_of_gt (cellWidth_pos _ _))
    rw [expand, hcount, List.replicate_succ]
    rfl

/-- The cell at the cursor shows the character there. -/
theorem shownRow_cursor (h : e.Valid) (hview : InView e view) :
    (shownRow e view (e.cy - view.rowoff))[kiloRenderColumn (e.row e.cy) e.cx - view.coloff]? =
      (e.row e.cy).content[e.cx]?.map shownOf := by
  obtain ⟨htop, -, hleft, hright⟩ := hview
  have hcy := h.cy_lt
  rw [shownRow, if_neg (by omega), Nat.sub_add_cancel htop, List.getElem?_take_of_lt (by omega), List.getElem?_drop,
    Nat.add_sub_cancel' hleft, getElem?_expand]

/-! ## The frame -/

def locationTokens (e : Editor) (view : View) : List Token :=
  if (locationText e).length ≤ view.screencols then
    [.position view.screenrows (view.screencols - (locationText e).length)] ++ textTokens (locationText e) (locationText e).length
  else []

def statusTokens (e : Editor) (view : View) : List Token :=
  [.position view.screenrows 0] ++ [.reset, .eraseLine, .inverse] ++ textTokens (statusText e) view.screencols ++ locationTokens e view ++
    [.reset]

def messageTokens (e : Editor) (view : View) : List Token :=
  [.position (view.screenrows + 1) 0] ++ [.eraseLine] ++ textTokens (messageText e view) view.screencols

/-- The place of the cursor on the screen. -/
def cursorToken (e : Editor) (view : View) : Token :=
  .position (e.cy - view.rowoff) (kiloRenderColumn (e.row e.cy) e.cx - view.coloff)

def frameTokens (e : Editor) (view : View) (body : Nat → List Token) : List Token :=
  [.hideCursor, .reset] ++ (List.range view.screenrows).flatMap (rowTokens body) ++ statusTokens e view ++ messageTokens e view ++
    [cursorToken e view] ++ [.showCursor]

/-- The screens that are painted. -/
structure Screen (view : View) : Prop where
  rows_pos : 0 < view.screenrows
  rows_le : view.screenrows ≤ 256
  cols_pos : 0 < view.screencols
  cols_le : view.screencols ≤ 512

theorem Screen.of_eq {view' : View} (h : Screen view) (hrows : view'.screenrows = view.screenrows)
    (hcols : view'.screencols = view.screencols) : Screen view' := by
  obtain ⟨hrowsPos, hrowsLe, hcolsPos, hcolsLe⟩ := h
  refine ⟨?_, ?_, ?_, ?_⟩
  all_goals omega

theorem drawLocation_emits (e : Editor) (hscreen : Screen view) : Emits (drawLocation e view) (locationTokens e view) := by
  obtain ⟨-, hrows, -, hcols⟩ := hscreen
  unfold locationTokens
  by_cases hroom : (locationText e).length ≤ view.screencols
  · have hplace := (@position_emits view.screenrows (view.screencols - (locationText e).length) (by omega) (by omega)).trans
      (safeText_emits (locationText e) (locationText e).length)
    rw [if_pos hroom]
    intro f hfits
    exact (if_pos hroom).trans (hplace f hfits)
  · rw [if_neg hroom]
    intro f hfits
    exact (if_neg hroom).trans (emits_nil f hfits)

theorem drawStatus_emits (e : Editor) (hscreen : Screen view) : Emits (drawStatus e view) (statusTokens e view) := by
  have hrows := hscreen.rows_le
  have hstart := (@position_emits view.screenrows 0 (by omega) (by omega)).trans statusLine_emits
  have hemits := ((hstart.trans (safeText_emits (statusText e) view.screencols)).trans (drawLocation_emits e hscreen)).trans reset_emits
  exact hemits

theorem drawMessage_emits (e : Editor) (hscreen : Screen view) : Emits (drawMessage e view) (messageTokens e view) := by
  have hrows := hscreen.rows_le
  have hstart := (@position_emits (view.screenrows + 1) 0 (by omega) (by omega)).trans erase_emits
  have hemits := hstart.trans (safeText_emits (messageText e view) view.screencols)
  exact hemits

/-- What is put into the frame. -/
theorem drawFrame_emits (hscreen : Screen view) (hview : InView e view) (hl : Nat → Nat → UInt8) :
    ∃ body, (∀ y, y < view.screenrows → RowTokens (body y) (shownRow e view y)) ∧
      Emits (drawFrame e view hl) (frameTokens e view body) := by
  have hrows := hscreen.rows_le
  have hcols := hscreen.cols_le
  have hexists (y : Nat) : ∃ body, y < view.screenrows → RowTokens body (shownRow e view y) ∧
      Emits (fun f => drawScreenRow e view hl f y) ([.position y 0] ++ [.reset, .eraseLine] ++ body) := by
    by_cases hy : y < view.screenrows
    · obtain ⟨body, hbody⟩ := drawScreenRow_emits e view hl (show y + 1 < 1000 by omega)
      exact ⟨body, fun _ => hbody⟩
    · exact ⟨[], fun hlt => absurd hlt hy⟩
  choose body hbody using hexists
  refine ⟨body, fun y hy => (hbody y hy).1, ?_⟩
  have hlines : Emits (fun f => (List.range view.screenrows).foldl (drawScreenRow e view hl) f)
      ((List.range view.screenrows).flatMap (rowTokens body)) := foldl_emits fun y hmem => (hbody y (List.mem_range.1 hmem)).2
  have hcursor : Emits (fun f => f.position (e.cy - view.rowoff) (kiloRenderColumn (e.row e.cy) e.cx - view.coloff))
      [cursorToken e view] := by
    have hbottom := hview.bottom
    have hright := hview.right
    exact position_emits (by omega) (by omega)
  have hemits := (((hide_emits.trans hlines).trans (drawStatus_emits e hscreen)).trans (drawMessage_emits e hscreen)).trans hcursor
  have hall := hemits.trans show_emits
  exact hall

/-! ## The size of the frame -/

theorem length_rowTokens {body : Nat → List Token} {y : Nat} (hy : y < 256) (hcols : 0 < view.screencols)
    (hbody : RowTokens (body y) (shownRow e view y)) : (bytesOf (rowTokens body y)).length ≤ 18 + 6 * view.screencols := by
  have hposition := @length_position y 0 (by omega) (by omega)
  have hcells := hbody.length_le
  have hshown := @length_shownRow_le e view hcols y
  have hreset : Token.reset.bytes.length = 4 := rfl
  have herase : Token.eraseLine.bytes.length = 4 := rfl
  unfold rowTokens
  simp only [List.cons_append, List.nil_append, bytesOf_cons, List.length_append]
  omega

theorem length_locationTokens (hscreen : Screen view) : (bytesOf (locationTokens e view)).length ≤ 10 + view.screencols := by
  obtain ⟨-, hrows, -, hcols⟩ := hscreen
  unfold locationTokens
  split
  · next hroom =>
    have hposition := @length_position view.screenrows (view.screencols - (locationText e).length) (by omega) (by omega)
    have htext := length_textTokens (locationText e) (locationText e).length
    simp only [List.cons_append, List.nil_append, bytesOf_cons, List.length_append]
    omega
  · exact Nat.zero_le _

theorem length_statusTokens (hscreen : Screen view) : (bytesOf (statusTokens e view)).length ≤ 36 + 2 * view.screencols := by
  have hrows := hscreen.rows_le
  have hposition := @length_position view.screenrows 0 (by omega) (by omega)
  have htext := length_textTokens (statusText e) view.screencols
  have hlocation := @length_locationTokens e view hscreen
  have hreset : Token.reset.bytes.length = 4 := rfl
  have herase : Token.eraseLine.bytes.length = 4 := rfl
  have hinverse : Token.inverse.bytes.length = 4 := rfl
  have hnil : (bytesOf []).length = 0 := rfl
  unfold statusTokens
  simp only [List.cons_append, List.nil_append, bytesOf_cons, bytesOf_append, List.length_append]
  omega

theorem length_messageTokens (hscreen : Screen view) : (bytesOf (messageTokens e view)).length ≤ 14 + view.screencols := by
  have hrows := hscreen.rows_le
  have hposition := @length_position (view.screenrows + 1) 0 (by omega) (by omega)
  have htext := length_textTokens (messageText e view) view.screencols
  have herase : Token.eraseLine.bytes.length = 4 := rfl
  unfold messageTokens
  simp only [List.cons_append, List.nil_append, bytesOf_cons, List.length_append]
  omega

/-- The frame has room for all that is put into it. -/
theorem length_frameTokens (hscreen : Screen view) (hview : InView e view) {body : Nat → List Token}
    (hbody : ∀ y, y < view.screenrows → RowTokens (body y) (shownRow e view y)) :
    (bytesOf (frameTokens e view body)).length ≤ frameCapacity view := by
  obtain ⟨-, hrows, hcolsPos, hcols⟩ := id hscreen
  have hlines : (bytesOf ((List.range view.screenrows).flatMap (rowTokens body))).length ≤
      (List.range view.screenrows).length * (18 + 6 * view.screencols) := by
    refine length_bytesOf_flatMap fun y hmem => ?_
    have hy := List.mem_range.1 hmem
    exact length_rowTokens (by omega) hcolsPos (hbody y hy)
  rw [List.length_range] at hlines
  have hbound : view.screenrows * (18 + 6 * view.screencols) ≤ view.screenrows * (view.screencols * 8 + 64) :=
    Nat.mul_le_mul_left _ (by omega)
  have hstatus := @length_statusTokens e view hscreen
  have hmessage := @length_messageTokens e view hscreen
  have hcursor : (cursorToken e view).bytes.length ≤ 10 := by
    have hbottom := hview.bottom
    have hright := hview.right
    exact length_position (by omega) (by omega)
  have hhide : Token.hideCursor.bytes.length = 6 := rfl
  have hshow : Token.showCursor.bytes.length = 6 := rfl
  have hreset : Token.reset.bytes.length = 4 := rfl
  have hnil : (bytesOf []).length = 0 := rfl
  unfold frameTokens frameCapacity
  rw [Nat.add_mul]
  simp only [List.cons_append, List.nil_append, bytesOf_cons, bytesOf_append, List.length_append]
  omega

/-! ## The cells of the frame -/

theorem fits_rowTokens {body : Nat → List Token} {y : Nat} (hcols : 0 < view.screencols) (hbody : RowTokens (body y) (shownRow e view y))
    (room : Nat) : Fits view.screencols room (rowTokens body y) := by
  have hfits : Fits view.screencols view.screencols (body y) := by
    refine fits_of_length (fun token hmem => (hbody.inRow token hmem).isPosition) (fun shown hmem => ?_) ?_
    · rw [hbody.cells] at hmem
      exact not_control_shownRow hmem
    · rw [hbody.cells]
      exact length_shownRow_le hcols y
  exact ⟨hcols, hfits⟩

theorem fits_locationTokens (room : Nat) : Fits view.screencols room (locationTokens e view) := by
  unfold locationTokens
  split
  · next hroom =>
    have hpos : 0 < (locationText e).length := by
      unfold locationText snprintf
      rw [List.length_take]
      simp only [List.length_append]
      have hspace : (ascii " ").length = 1 := rfl
      omega
    exact ⟨by omega, fits_textTokens _ (by omega)⟩
  · exact trivial

theorem fits_statusTokens (hcols : 0 < view.screencols) (room : Nat) : Fits view.screencols room (statusTokens e view) := by
  have htext : Fits view.screencols room ([.position view.screenrows 0] ++ [.reset, .eraseLine, .inverse] ++
      textTokens (statusText e) view.screencols) := ⟨hcols, fits_textTokens _ (Nat.le_refl _)⟩
  exact (htext.append fun room => fits_locationTokens room).append fun _ => trivial

theorem fits_messageTokens (hcols : 0 < view.screencols) (room : Nat) : Fits view.screencols room (messageTokens e view) :=
  ⟨hcols, fits_textTokens _ (Nat.le_refl _)⟩

theorem fits_frameTokens (hscreen : Screen view) (hview : InView e view) {body : Nat → List Token}
    (hbody : ∀ y, y < view.screenrows → RowTokens (body y) (shownRow e view y)) (room : Nat) :
    Fits view.screencols room (frameTokens e view body) := by
  have hcols := hscreen.cols_pos
  have hstart : Fits view.screencols room [.hideCursor, .reset] := trivial
  have hlines := @fits_flatMap _ view.screencols (List.range view.screenrows) (rowTokens body)
    fun y hmem => fits_rowTokens hcols (hbody y (List.mem_range.1 hmem))
  have hcursor (room : Nat) : Fits view.screencols room [cursorToken e view] := by
    have hright := hview.right
    exact ⟨by omega, trivial⟩
  have hline := ((hstart.append hlines).append fun room => @fits_statusTokens e view hcols room).append
    fun room => @fits_messageTokens e view hcols room
  exact (hline.append hcursor).append fun _ => trivial

/-! ## What the screen shows -/

/-- What comes behind a row that is painted, up to the next position, leaves the row. -/
theorem cells_of_position {y row column : Nat} {canvas : Canvas} {tokens : List Token} (hrow : row ≠ y)
    (hposition : ∀ row column, Token.position row column ∈ tokens → row ≠ y) :
    (canvas.paintAll (.position row column :: tokens)).cells y = canvas.cells y :=
  (@cells_paintAll_of_ne y (canvas.paint (.position row column)) tokens hrow hposition).1

theorem paint_rowTokens {body : Nat → List Token} {y : Nat} (hbody : RowTokens (body y) (shownRow e view y)) (canvas : Canvas) (x : Nat) :
    (canvas.paintAll (rowTokens body y)).cells y x = (shownRow e view y)[x]? := by
  have hcells := @cells_paintAll (((canvas.paint (.position y 0)).paint .reset).paint .eraseLine) (body y) [] hbody.inRow rfl
    (fun x => by
      rw [List.getElem?_nil]
      exact congrFun (Function.update_self y (fun _ => none) canvas.cells) x) x
  rw [List.nil_append, hbody.cells] at hcells
  exact hcells

theorem position_mem_textTokens {text : List UInt8} {width row column : Nat} (h : Token.position row column ∈ textTokens text width) :
    False := by
  obtain ⟨c, -, hc⟩ := List.mem_map.1 h
  exact nomatch hc

theorem position_mem_locationTokens {row column : Nat} (h : Token.position row column ∈ locationTokens e view) :
    row = view.screenrows := by
  unfold locationTokens at h
  split at h
  · rcases List.mem_append.1 h with h | h
    · exact (Token.position.inj (List.mem_singleton.1 h)).1
    · exact (position_mem_textTokens h).elim
  · exact absurd h List.not_mem_nil

theorem position_mem_statusTokens {row column : Nat} (h : Token.position row column ∈ statusTokens e view) : row = view.screenrows := by
  unfold statusTokens at h
  simp only [List.mem_append, List.mem_cons, List.not_mem_nil, or_false, Token.position.injEq, reduceCtorEq] at h
  rcases h with (h | h) | h
  · exact h.1
  · exact (position_mem_textTokens h).elim
  · exact position_mem_locationTokens h

theorem position_mem_messageTokens {row column : Nat} (h : Token.position row column ∈ messageTokens e view) :
    row = view.screenrows + 1 := by
  unfold messageTokens at h
  simp only [List.mem_append, List.mem_cons, List.not_mem_nil, or_false, Token.position.injEq, reduceCtorEq] at h
  rcases h with h | h
  · exact h.1
  · exact (position_mem_textTokens h).elim

theorem position_mem_rowTokens {body : Nat → List Token} {y row column : Nat} (hbody : RowTokens (body y) (shownRow e view y))
    (h : Token.position row column ∈ rowTokens body y) : row = y := by
  rcases List.mem_append.1 h with h | h
  · simp only [List.mem_append, List.mem_cons, List.not_mem_nil, or_false, Token.position.injEq, reduceCtorEq] at h
    exact h.1
  · exact (hbody.inRow _ h).elim

/-- The rows in view are shown. -/
theorem paint_frameTokens {body : Nat → List Token} (hbody : ∀ y, y < view.screenrows → RowTokens (body y) (shownRow e view y))
    (canvas : Canvas) {y : Nat} (hy : y < view.screenrows) (x : Nat) :
    (canvas.paintAll (frameTokens e view body)).cells y x = (shownRow e view y)[x]? := by
  obtain ⟨before, after, hrange⟩ := List.append_of_mem (List.mem_range.2 hy)
  have hnodup : y ∉ after := by
    have hall := @List.nodup_range view.screenrows
    rw [hrange] at hall
    exact (List.nodup_cons.1 (List.nodup_append.1 hall).2.1).1
  have hlines : (List.range view.screenrows).flatMap (rowTokens body) =
      before.flatMap (rowTokens body) ++ (rowTokens body y ++ after.flatMap (rowTokens body)) := by
    rw [hrange, List.flatMap_append, List.flatMap_cons]
  have hframe : frameTokens e view body = [.hideCursor, .reset] ++ before.flatMap (rowTokens body) ++ rowTokens body y ++
      (after.flatMap (rowTokens body) ++ (statusTokens e view ++ messageTokens e view)) ++ ([cursorToken e view] ++ [.showCursor]) := by
    rw [frameTokens, hlines]
    simp only [List.append_assoc]
  have hhead : ∃ row column rest, after.flatMap (rowTokens body) ++ (statusTokens e view ++ messageTokens e view) =
      .position row column :: rest := by
    cases after with
    | nil => exact ⟨_, _, _, rfl⟩
    | cons y' after => exact ⟨_, _, _, rfl⟩
  have hothers (row column : Nat)
      (hmem : .position row column ∈ after.flatMap (rowTokens body) ++ (statusTokens e view ++ messageTokens e view)) : row ≠ y := by
    rcases List.mem_append.1 hmem with hmem | hmem
    · obtain ⟨y', hafter, hmem⟩ := List.mem_flatMap.1 hmem
      have hlt : y' < view.screenrows := List.mem_range.1 (hrange ▸ List.mem_append_right before (List.mem_cons_of_mem y hafter))
      rw [position_mem_rowTokens (hbody y' hlt) hmem]
      rintro rfl
      exact hnodup hafter
    · rcases List.mem_append.1 hmem with hmem | hmem
      · have hrow := position_mem_statusTokens hmem
        omega
      · have hrow := position_mem_messageTokens hmem
        omega
  obtain ⟨row, column, rest, hrest⟩ := hhead
  rw [hrest] at hothers hframe
  rw [hframe, paintAll_append, paintAll_append, paintAll_append]
  have hlast (later : Canvas) : ((later.paintAll [cursorToken e view]).paintAll [.showCursor]).cells = later.cells := rfl
  rw [hlast, cells_of_position (hothers row column List.mem_cons_self)
    fun row column hmem => hothers row column (List.mem_cons_of_mem _ hmem), paintAll_append]
  exact paint_rowTokens (hbody y hy) _ x

/-- The cursor is shown at the cell of its character. -/
theorem cursor_frameTokens (h : e.Valid) (hview : InView e view) {body : Nat → List Token}
    (hbody : ∀ y, y < view.screenrows → RowTokens (body y) (shownRow e view y)) (canvas : Canvas) :
    (canvas.paintAll (frameTokens e view body)).visible = true ∧
      (canvas.paintAll (frameTokens e view body)).row = e.cy - view.rowoff ∧
      (canvas.paintAll (frameTokens e view body)).column = kiloRenderColumn (e.row e.cy) e.cx - view.coloff ∧
      (canvas.paintAll (frameTokens e view body)).cells (e.cy - view.rowoff) (kiloRenderColumn (e.row e.cy) e.cx - view.coloff) =
        (e.row e.cy).content[e.cx]?.map shownOf := by
  have hbottom := hview.bottom
  have hpaint := paint_frameTokens hbody canvas (show e.cy - view.rowoff < view.screenrows by have := hview.top; omega)
    (kiloRenderColumn (e.row e.cy) e.cx - view.coloff)
  rw [shownRow_cursor h hview] at hpaint
  refine ⟨?_, ?_, ?_, hpaint⟩
  all_goals
    rw [frameTokens, paintAll_append, paintAll_append]
    rfl

/-! ## The output -/

theorem send_spec (answers : Nat → Int) (call : Nat) (data : List UInt8) :
    (send answers call data).2 <+: data ∧ ((send answers call data).1 = true → (send answers call data).2 = data) := by
  induction call, data using send.induct answers with
  | case1 call =>
    rw [send, dif_pos rfl]
    exact ⟨List.prefix_rfl, fun _ => rfl⟩
  | case2 call data hempty hrefused =>
    rw [send, dif_neg hempty, dif_pos hrefused]
    exact ⟨List.nil_prefix, fun htrue => absurd htrue Bool.false_ne_true⟩
  | case3 call data hempty hrefused hless ih =>
    rw [send, dif_neg hempty, dif_neg hrefused]
    have hsplit := List.take_append_drop (answers call).toNat data
    refine ⟨?_, fun htrue => ?_⟩
    · show data.take (answers call).toNat ++ _ <+: data
      conv_rhs => rw [← hsplit]
      exact (List.prefix_append_right_inj _).2 ih.1
    · show data.take (answers call).toNat ++ _ = data
      rw [ih.2 htrue, hsplit]

attribute [irreducible] frameTokens

theorem kiloRender_eq (hscreen : Screen view) (hl : Nat → Nat → UInt8) (answers : Nat → Int) :
    ∃ body, (∀ y, y < (kiloScroll e view).screenrows → RowTokens (body y) (shownRow e (kiloScroll e view) y)) ∧
      (bytesOf (frameTokens e (kiloScroll e view) body)).length ≤ frameCapacity (kiloScroll e view) ∧
      kiloRender true answers hl e view =
        ⟨(send answers 0 (bytesOf (frameTokens e (kiloScroll e view) body))).1, e, kiloScroll e view,
          some ⟨bytesOf (frameTokens e (kiloScroll e view) body), frameCapacity (kiloScroll e view), false⟩,
          (send answers 0 (bytesOf (frameTokens e (kiloScroll e view) body))).2⟩ := by
  obtain ⟨hview, hscreenrows, hscreencols⟩ := @kiloScroll_spec e view hscreen.rows_pos hscreen.cols_pos
  have hscrolled := hscreen.of_eq hscreenrows hscreencols
  obtain ⟨body, hbody, hemits⟩ := drawFrame_emits hscrolled hview hl
  have hroom := length_frameTokens hscrolled hview hbody
  refine ⟨body, hbody, hroom, ?_⟩
  unfold kiloRender
  obtain ⟨hrowsPos, hrows, hcolsPos, hcols⟩ := hscreen
  rw [if_neg (by omega), if_neg (by decide)]
  dsimp only
  rw [hemits _ (by rw [List.length_nil, Nat.zero_add]; exact hroom), List.nil_append, if_neg Bool.false_ne_true]

/-- The frame has room for all that is put into it; it consists of control sequences of the editor and of cells that are no control
characters, no line gets more cells than fit, and in the end the cursor is shown in the text area, at the cell of its character. -/
theorem frame_is_bounded (e : Editor) (h : e.Valid) (view : View) (hscreen : Screen view) (hl : Nat → Nat → UInt8) (answers : Nat → Int) :
    ∃ f tokens, (kiloRender true answers hl e view).frame = some f ∧ f.failed = false ∧ f.data.length ≤ f.capacity ∧
      f.data = bytesOf tokens ∧ (kiloRender true answers hl e view).output <+: f.data ∧
      ((kiloRender true answers hl e view).ok = true → (kiloRender true answers hl e view).output = f.data) ∧
      (∀ shown, Token.cell shown ∈ tokens → ¬IsControl shown) ∧
      (∀ before row column line later, tokens = before ++ .position row column :: (line ++ later) →
        (∀ token ∈ line, token.isPosition = false) → column + (cellsOf line).length ≤ view.screencols) ∧
      ∀ canvas : Canvas, (canvas.paintAll tokens).visible = true ∧
        (canvas.paintAll tokens).row < view.screenrows ∧ (canvas.paintAll tokens).column < view.screencols ∧
        (canvas.paintAll tokens).row + (kiloRender true answers hl e view).view.rowoff = e.cy ∧
        (canvas.paintAll tokens).column + (kiloRender true answers hl e view).view.coloff = kiloRenderColumn (e.row e.cy) e.cx ∧
        (canvas.paintAll tokens).cells (canvas.paintAll tokens).row (canvas.paintAll tokens).column =
          (e.row e.cy).content[e.cx]?.map shownOf := by
  obtain ⟨hview, hscreenrows, hscreencols⟩ := @kiloScroll_spec e view hscreen.rows_pos hscreen.cols_pos
  obtain ⟨body, hbody, hroom, hrender⟩ := @kiloRender_eq e view hscreen hl answers
  have hfits := fits_frameTokens (hscreen.of_eq hscreenrows hscreencols) hview hbody 0
  rw [hscreencols] at hfits
  obtain ⟨hsent, hall⟩ := send_spec answers 0 (bytesOf (frameTokens e (kiloScroll e view) body))
  have hcursor := cursor_frameTokens h hview hbody
  obtain ⟨htop, hbottom, hleft, hright⟩ := hview
  rw [hrender]
  refine ⟨_, frameTokens e (kiloScroll e view) body, rfl, rfl, hroom, rfl, hsent, hall, fun shown hmem => hfits.not_control hmem, ?_,
    fun canvas => ?_⟩
  · intro before row column line later htokens hline
    rw [htokens] at hfits
    exact hfits.after_position hline
  · obtain ⟨hvisible, hrow, hcolumn, hcells⟩ := hcursor canvas
    rw [hrow, hcolumn]
    exact ⟨hvisible, by omega, by omega, Nat.sub_add_cancel htop, Nat.sub_add_cancel hleft, hcells⟩

/-- A screen of one cell. -/
def oneCell : View := ⟨1, 1, 7, 9, true, false⟩

theorem frame_is_bounded_one_cell :
    ∃ f, (kiloRender true (fun _ => 1) (fun _ _ => 7) threeRows oneCell).frame = some f ∧ f.failed = false := by
  obtain ⟨f, tokens, hframe, hfailed, -⟩ :=
    frame_is_bounded threeRows threeRows_valid oneCell ⟨by decide, by decide, by decide, by decide⟩ (fun _ _ => 7) fun _ => 1
  exact ⟨f, hframe, hfailed⟩

end Kilo
end TabOS
