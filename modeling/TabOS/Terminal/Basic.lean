import TabOS.Graphics
import TabOS.Library.Run
import Mathlib.Logic.Function.Iterate

/-!
# The terminal

`graphics/terminal.c`, function by function. Line numbers are the 64-bit counters of the source, taken as natural numbers (they
do not wrap). The cell, length and hard-break arrays are functions of a line's slot, which is its number modulo the line
capacity, and a cell array is read by slot and column in place of `slot * columns + column`; the dirty-cell array is read by
row and column in the same way. The framebuffer the terminal points to is part of its state.

`scale` is the one the callers pass (`TABOS_TERMINAL_SCALE_MIN` to `TABOS_TERMINAL_SCALE_MAX`, 1 to 8), so no product with it
wraps.
-/

namespace TabOS

/-- `TABOS_TERMINAL_SCROLLBACK_LINES` of `config/Display.cmake`. -/
def terminalScrollbackLines : Nat := 256

/-- `terminal_cell_t`. -/
structure Cell where
  character : UInt8
  foreground : Pixel
  background : Pixel
  reverse : Bool
  deriving DecidableEq, Repr

/-- The zeroed cell, `(terminal_cell_t) {0}`. -/
def Cell.empty : Cell := ⟨0, 0, 0, false⟩

/-- The values of `ansi_state`: 0 outside an escape sequence, 1 after ESC, 2 after `ESC [`. -/
inductive AnsiState where
  | ground | escape | csi
  deriving DecidableEq, Repr

/-- `terminal_t`. -/
structure Terminal where
  framebuffer : Framebuffer
  column : Nat
  row : Nat
  columns : Nat
  rows : Nat
  scale : Nat
  foreground : Pixel
  background : Pixel
  reverse : Bool
  cells : Nat → Nat → Cell
  dirtyCells : Nat → Nat → Bool
  lineLengths : Nat → Nat
  hardBreaks : Nat → Bool
  lineCapacity : Nat
  firstLine : Nat
  currentLine : Nat
  lastLine : Nat
  viewportTop : Nat
  cursorVisible : Bool
  cursorPhaseVisible : Bool
  fullRedraw : Bool
  renderingEnabled : Bool
  ansiState : AnsiState
  ansiValues : Nat → Nat
  ansiCount : Nat
  ansiPrivate : Bool
  ansiInvalid : Bool
  savedColumn : Nat
  savedLine : Nat

namespace Terminal

/-- `line_slot`. -/
def lineSlot (t : Terminal) (line : Nat) : Nat := line % t.lineCapacity

/-- `line_cells` and `const_line_cells`. -/
def lineCells (t : Terminal) (line : Nat) : Nat → Cell := t.cells (t.lineSlot line)

/-- The stored length of a line, `line_lengths[line_slot(terminal, line)]`. -/
def lineLength (t : Terminal) (line : Nat) : Nat := t.lineLengths (t.lineSlot line)

/-- The stored hard break of a line, `hard_breaks[line_slot(terminal, line)]`. -/
def hardBreak (t : Terminal) (line : Nat) : Bool := t.hardBreaks (t.lineSlot line)

/-- Store the cells of a line. -/
def setLineCells (t : Terminal) (line : Nat) (cells : Nat → Cell) : Terminal :=
  { t with cells := Function.update t.cells (t.lineSlot line) cells }

/-- Store one cell of a line, `line_cells(terminal, line)[column] = cell`. -/
def setCell (t : Terminal) (line column : Nat) (cell : Cell) : Terminal :=
  t.setLineCells line (Function.update (t.lineCells line) column cell)

/-- Store the length of a line. -/
def setLineLength (t : Terminal) (line length : Nat) : Terminal :=
  { t with lineLengths := Function.update t.lineLengths (t.lineSlot line) length }

/-- Store the hard break of a line. -/
def setHardBreak (t : Terminal) (line : Nat) (hardBreak : Bool) : Terminal :=
  { t with hardBreaks := Function.update t.hardBreaks (t.lineSlot line) hardBreak }

/-- `live_viewport_top`. -/
def liveViewportTop (t : Terminal) : Nat :=
  let firstVisible := if t.rows < t.lastLine + 1 then t.lastLine + 1 - t.rows else 0
  if t.firstLine < firstVisible then firstVisible else t.firstLine

/-- `update_cursor_row`. -/
def updateCursorRow (t : Terminal) : Terminal := { t with row := t.currentLine - t.liveViewportTop }

/-- `follow_live_output`. -/
def followLiveOutput (t : Terminal) : Terminal :=
  let viewportTop := t.liveViewportTop
  let t := if t.viewportTop ≠ viewportTop then { t with viewportTop := viewportTop, fullRedraw := true } else t
  t.updateCursorRow

/-- `mark_cell`. -/
def markCell (t : Terminal) (line column : Nat) : Terminal :=
  if t.columns ≤ column ∨ line < t.viewportTop ∨ t.viewportTop + t.rows ≤ line then t
  else
    let row := line - t.viewportTop
    { t with dirtyCells := Function.update t.dirtyCells row (Function.update (t.dirtyCells row) column true) }

/-- `cursor_should_draw`. -/
def cursorShouldDraw (t : Terminal) : Bool :=
  t.cursorVisible && t.cursorPhaseVisible && decide (t.viewportTop = t.liveViewportTop) &&
    decide (t.viewportTop ≤ t.currentLine) && decide (t.currentLine < t.viewportTop + t.rows)

/-- `mark_cursor`. -/
def markCursor (t : Terminal) : Terminal := t.markCell t.currentLine t.column

/-- `clear_line`. -/
def clearLine (t : Terminal) (line : Nat) : Terminal :=
  ((t.setLineCells line fun _ => Cell.empty).setLineLength line 0).setHardBreak line false

/-- In `append_line`, the first line is given up when the current line would not fit beside it. -/
def evictLine (t : Terminal) : Terminal :=
  if t.lineCapacity < t.currentLine - t.firstLine + 1 then { t with firstLine := t.firstLine + 1 } else t

/-- In `append_line`, a current line past the last line becomes the last line and is cleared. -/
def openCurrentLine (t : Terminal) : Terminal :=
  if t.lastLine < t.currentLine then { t with lastLine := t.currentLine }.clearLine t.currentLine else t

/-- `append_line`. -/
def appendLine (t : Terminal) (hardBreak : Bool) : Terminal :=
  let t := t.setHardBreak t.currentLine hardBreak
  let t := { t with currentLine := t.currentLine + 1 }
  { t.evictLine.openCurrentLine with column := 0 }.followLiveOutput

/-- In `put_character`, the line's length grows to reach past the cursor. -/
def growLine (t : Terminal) : Terminal :=
  if t.lineLength t.currentLine < t.column + 1 then t.setLineLength t.currentLine (t.column + 1) else t

/-- The part of `put_character` before the wrap: the cell is stored and marked and the cursor goes past it. -/
def storeCharacter (t : Terminal) (character : UInt8) : Terminal :=
  let t := t.setCell t.currentLine t.column ⟨character, t.foreground, t.background, t.reverse⟩
  let t := (t.markCell t.currentLine t.column).growLine
  { t with column := t.column + 1 }

/-- `put_character`. -/
def putCharacter (t : Terminal) (character : UInt8) : Terminal :=
  let t := t.storeCharacter character
  if t.columns ≤ t.column then t.appendLine false else t

/-- The loop of `trim_line`: the length after cells without a character are dropped from the end. -/
def trimmedLength (cells : Nat → Cell) : Nat → Nat
  | 0 => 0
  | length + 1 => if (cells length).character = 0 then trimmedLength cells length else length + 1

/-- `trim_line`. -/
def trimLine (t : Terminal) (line : Nat) : Terminal :=
  t.setLineLength line (trimmedLength (t.lineCells line) (t.lineLength line))

/-- In `backspace`, a current line that is the last one is given up. -/
def dropLastLine (t : Terminal) : Terminal :=
  if t.lastLine = t.currentLine then { t with lastLine := t.lastLine - 1 } else t

/-- The first part of `backspace`, at column 0: the current line is cleared and the cursor goes past the end of the line
before it. -/
def backspaceLine (t : Terminal) : Terminal :=
  let t := (t.clearLine t.currentLine).dropLastLine
  let t := { t with currentLine := t.currentLine - 1 }
  let previousLength := t.lineLength t.currentLine
  let t := { t with column := if t.columns < previousLength then t.columns else previousLength }
  t.setHardBreak t.currentLine false

/-- The second part of `backspace`: the cell before the cursor is erased. -/
def backspaceCell (t : Terminal) : Terminal :=
  if 0 < t.column then
    let t := { t with column := t.column - 1 }
    let t := t.setCell t.currentLine t.column Cell.empty
    let t := t.markCell t.currentLine t.column
    t.trimLine t.currentLine
  else t

/-- The returns of `backspace` at column 0: there is no line to go back to, or it is above the live screen. -/
def backspaceStops (t : Terminal) : Bool :=
  decide (t.currentLine = t.firstLine) || (decide (t.currentLine = t.liveViewportTop) && decide (t.currentLine < t.lastLine))

/-- `backspace`. -/
def backspace (t : Terminal) : Terminal :=
  if t.column = 0 then
    if t.backspaceStops then t else t.backspaceLine.backspaceCell.followLiveOutput
  else t.backspaceCell.followLiveOutput

/-- `tab`. -/
def tab (t : Terminal) : Terminal :=
  (List.range (4 - t.column % 4)).foldl (fun t _ => t.putCharacter 32) t

/-- `ansi_color`. -/
def ansiColor (value : Nat) : Pixel :=
  [0x0000, 0xf800, 0x07e0, 0xffe0, 0x001f, 0xf81f, 0x07ff, 0xffff,
    0x7bef, 0xfcb2, 0x87f0, 0xfff7, 0x867f, 0xfc1f, 0x87ff, 0xffff].getD (if value < 16 then value else 7) 0

/-- `ansi_sgr`. -/
def ansiSgr (t : Terminal) (value : Nat) : Terminal :=
  if value = 0 then { t with foreground := 0xffff, background := 0x0000, reverse := false }
  else if 30 ≤ value ∧ value ≤ 37 then { t with foreground := ansiColor (value - 30) }
  else if 90 ≤ value ∧ value ≤ 97 then { t with foreground := ansiColor (value - 90 + 8) }
  else if 40 ≤ value ∧ value ≤ 47 then { t with background := ansiColor (value - 40) }
  else if 100 ≤ value ∧ value ≤ 107 then { t with background := ansiColor (value - 100 + 8) }
  else if value = 39 then { t with foreground := 0xffff }
  else if value = 49 then { t with background := 0x0000 }
  else if value = 7 then { t with reverse := true }
  else if value = 27 then { t with reverse := false }
  else t

/-- The last line of the live screen, `live_viewport_top(terminal) + terminal->rows - 1U`. -/
def liveViewportBottom (t : Terminal) : Nat := t.liveViewportTop + t.rows - 1

/-- The line `restore_cursor` goes to: the saved line, clamped to the live screen. -/
def restoredLine (t : Terminal) : Nat :=
  let line := if t.savedLine < t.liveViewportTop then t.liveViewportTop else t.savedLine
  if t.liveViewportBottom < line then t.liveViewportBottom else line

/-- `restore_cursor`. -/
def restoreCursor (t : Terminal) : Terminal :=
  { t with
    column := if t.savedColumn < t.columns then t.savedColumn else t.columns - 1
    currentLine := t.restoredLine }

/-- `clear_framebuffer`. -/
def clearFramebuffer (fb : Framebuffer) (background : Pixel) (pixels : Nat → Pixel) : Nat → Pixel :=
  (List.range fb.height).foldl (fun pixels y => rasterFillSpan pixels (y * fb.stridePixels) fb.width background) pixels

/-- `cell_width`. -/
def cellWidth (t : Terminal) : Nat := fontCellWidth * t.scale

/-- `cell_height`. -/
def cellHeight (t : Terminal) : Nat := fontCellHeight * t.scale

/-- `draw_cell`. -/
def drawCell (t : Terminal) (column row : Nat) (cell : Cell) (cursor : Bool) (pixels : Nat → Pixel) : Nat → Pixel :=
  let character := if cell.character = 0 then 32 else cell.character
  let foreground := if cell.character = 0 then t.foreground else cell.foreground
  let background := if cell.character = 0 then t.background else cell.background
  let (foreground, background) := if cell.reverse then (background, foreground) else (foreground, background)
  let renderedBackground := if cursor then foreground else background
  let originX := column * t.cellWidth
  let originY := row * t.cellHeight
  let pixels := (List.range t.cellHeight).foldl (fun pixels y =>
    rasterFillSpan pixels ((originY + y) * t.framebuffer.stridePixels + originX) t.cellWidth renderedBackground) pixels
  fontDrawChar t.framebuffer originX originY character t.scale (if cursor then background else foreground)
    (if cursor then foreground else background) pixels

/-- A row of the full redraw of `render`. -/
def drawLine (t : Terminal) (pixels : Nat → Pixel) (row : Nat) : Nat → Pixel :=
  let line := t.viewportTop + row
  if line < t.firstLine ∨ t.lastLine < line then pixels
  else (List.range (t.lineLength line)).foldl (fun pixels column =>
    t.drawCell column row (t.lineCells line column) false pixels) pixels

/-- The full redraw of `render`. -/
def drawAll (t : Terminal) (pixels : Nat → Pixel) : Nat → Pixel :=
  (List.range t.rows).foldl t.drawLine (clearFramebuffer t.framebuffer t.background pixels)

/-- The cell that the dirty redraw of `render` draws at a row and a column: an empty one below the last line. -/
def dirtyCell (t : Terminal) (row column : Nat) : Cell :=
  if t.viewportTop + row ≤ t.lastLine then t.lineCells (t.viewportTop + row) column else Cell.empty

/-- A row of the dirty redraw of `render`. -/
def drawDirtyLine (t : Terminal) (pixels : Nat → Pixel) (row : Nat) : Nat → Pixel :=
  (List.range t.columns).foldl (fun pixels column =>
    if t.dirtyCells row column then t.drawCell column row (t.dirtyCell row column) false pixels else pixels) pixels

/-- The dirty redraw of `render`. -/
def drawDirty (t : Terminal) (pixels : Nat → Pixel) : Nat → Pixel :=
  (List.range t.rows).foldl t.drawDirtyLine pixels

/-- The cursor at the end of `render`. -/
def drawCursor (t : Terminal) (pixels : Nat → Pixel) : Nat → Pixel :=
  if t.cursorShouldDraw then
    t.drawCell t.column (t.currentLine - t.viewportTop) (t.lineCells t.currentLine t.column) true pixels
  else pixels

/-- The dirty cells after `render`: every cell of the grid is clean. -/
def cleanCells (t : Terminal) : Nat → Nat → Bool :=
  fun row column => if row < t.rows ∧ column < t.columns then false else t.dirtyCells row column

/-- `render`. -/
def render (t : Terminal) : Terminal :=
  if t.renderingEnabled then
    let pixels := if t.fullRedraw then t.drawAll t.framebuffer.pixels else t.drawDirty t.framebuffer.pixels
    { t with
      framebuffer := { t.framebuffer with pixels := t.drawCursor pixels }
      dirtyCells := t.cleanCells
      fullRedraw := false }
  else t

/-- `terminal_clear`, up to its rendering. -/
def clearCells (t : Terminal) : Terminal :=
  { t with
    cells := fun slot => if slot < t.lineCapacity then fun _ => Cell.empty else t.cells slot
    lineLengths := fun slot => if slot < t.lineCapacity then 0 else t.lineLengths slot
    hardBreaks := fun slot => if slot < t.lineCapacity then false else t.hardBreaks slot
    column := 0
    row := 0
    firstLine := 0
    currentLine := 0
    lastLine := 0
    viewportTop := 0
    cursorPhaseVisible := true
    fullRedraw := true }

/-- `terminal_clear`. -/
def clear (t : Terminal) : Terminal := t.clearCells.render

/-- A round of the loop at the end of `ansi_command`, `clear_line(terminal, ++terminal->last_line)`. -/
def openLine (t : Terminal) : Terminal := { t with lastLine := t.lastLine + 1 }.clearLine (t.lastLine + 1)

/-- The loop at the end of `ansi_command`: lines are opened until the cursor's line is one of them. -/
def coverCursor (t : Terminal) : Terminal := openLine^[t.currentLine - t.lastLine] t

/-- The `K` command of `ansi_command`: erase from the cursor, or with parameter 2 from column 0, to the end of the line. -/
def eraseLine (t : Terminal) (value : Nat) : Terminal :=
  let start := if value = 2 then 0 else t.column
  let t := t.setLineCells t.currentLine fun column =>
    if start ≤ column ∧ column < t.columns then Cell.empty else t.lineCells t.currentLine column
  { t.setLineLength t.currentLine start with fullRedraw := true }

/-- The first parameter of a command as a count, `value == 0U ? 1U : value`. -/
def ansiAmount (t : Terminal) : Nat := if t.ansiValues 0 = 0 then 1 else t.ansiValues 0

/-- The `H` and `f` commands: the cursor goes to a row of the live screen and a column. -/
def cursorPosition (t : Terminal) : Terminal :=
  let row := t.ansiAmount - 1
  let column := if 1 < t.ansiCount ∧ 0 < t.ansiValues 1 then t.ansiValues 1 - 1 else 0
  { t with
    currentLine := t.liveViewportTop + (if row < t.rows then row else t.rows - 1)
    column := if column < t.columns then column else t.columns - 1 }

/-- The `A` command. -/
def cursorUp (t : Terminal) : Terminal :=
  let available := t.currentLine - t.liveViewportTop
  { t with currentLine := t.currentLine - (if t.ansiAmount < available then t.ansiAmount else available) }

/-- The `B` command. -/
def cursorDown (t : Terminal) : Terminal :=
  let available := t.liveViewportBottom - t.currentLine
  { t with currentLine := t.currentLine + (if t.ansiAmount < available then t.ansiAmount else available) }

/-- The `C` command. -/
def cursorForward (t : Terminal) : Terminal :=
  let available := t.columns - 1 - t.column
  { t with column := t.column + (if t.ansiAmount < available then t.ansiAmount else available) }

/-- The `D` command. -/
def cursorBackward (t : Terminal) : Terminal :=
  { t with column := t.column - (if t.ansiAmount < t.column then t.ansiAmount else t.column) }

/-- The `G` command. -/
def cursorColumn (t : Terminal) : Terminal :=
  { t with column := if t.ansiAmount < t.columns then t.ansiAmount - 1 else t.columns - 1 }

/-- The `m` command. -/
def selectGraphics (t : Terminal) : Terminal :=
  (List.range t.ansiCount).foldl (fun u index => u.ansiSgr (u.ansiValues index)) t

/-- The `s` command, and `ESC 7`. -/
def saveCursor (t : Terminal) : Terminal := { t with savedColumn := t.column, savedLine := t.currentLine }

/-- The branches of `ansi_command` on a sequence without `?`, by the final byte. -/
def publicCommand (t : Terminal) (command : UInt8) : Terminal :=
  if command = 72 ∨ command = 102 then t.cursorPosition
  else if command = 65 then t.cursorUp
  else if command = 66 then t.cursorDown
  else if command = 67 then t.cursorForward
  else if command = 68 then t.cursorBackward
  else if command = 71 then t.cursorColumn
  else if command = 74 ∧ t.ansiValues 0 = 2 then t.clear
  else if command = 75 then t.eraseLine (t.ansiValues 0)
  else if command = 109 then t.selectGraphics
  else if command = 115 then t.saveCursor
  else if command = 117 then t.restoreCursor
  else t

/-- `ansi_command`. -/
def ansiCommand (t : Terminal) (command : UInt8) : Terminal :=
  if t.ansiPrivate then
    if t.ansiCount = 1 ∧ t.ansiValues 0 = 25 ∧ (command = 104 ∨ command = 108) then
      { t with cursorVisible := decide (command = 104) }
    else t
  else (t.publicCommand command).coverCursor

/-- The byte after ESC. -/
def writeEscape (t : Terminal) (text : UInt8) : Terminal :=
  if text = 91 then
    { t with ansiState := .csi, ansiValues := fun _ => 0, ansiCount := 1, ansiPrivate := false, ansiInvalid := false }
  else if text = 55 then
    { t.saveCursor with ansiState := .ground }
  else if text = 56 then
    { t.restoreCursor with ansiState := .ground }
  else { t with ansiState := .ground }

/-- A digit of a parameter: the value grows, or the sequence is marked invalid when it would exceed `UINT16_MAX`. -/
def writeDigit (t : Terminal) (digit : Nat) : Terminal :=
  let index := t.ansiCount - 1
  if (65535 - digit) / 10 < t.ansiValues index then { t with ansiInvalid := true }
  else { t with ansiValues := Function.update t.ansiValues index (t.ansiValues index * 10 + digit) }

/-- A byte of a sequence that began with `ESC [`. -/
def writeCsi (t : Terminal) (text : UInt8) : Terminal :=
  if 48 ≤ text ∧ text ≤ 57 then t.writeDigit (text.toNat - 48)
  else if text = 59 then
    if t.ansiCount = 8 then { t with ansiInvalid := true } else { t with ansiCount := t.ansiCount + 1 }
  else if text = 63 ∧ t.ansiCount = 1 ∧ t.ansiValues 0 = 0 ∧ t.ansiPrivate = false then { t with ansiPrivate := true }
  else if text < 0x40 ∨ 0x7e < text then { t with ansiInvalid := true }
  else { (if t.ansiInvalid then t else t.ansiCommand text) with ansiState := .ground }

/-- A byte outside an escape sequence. -/
def writeGround (t : Terminal) (text : UInt8) : Terminal :=
  if text = 0x1b then { t with ansiState := .escape }
  else if text = 10 then t.appendLine true
  else if text = 13 then { t with column := 0 }
  else if text = 8 ∨ text = 0x7f then t.backspace
  else if text = 9 then t.tab
  else t.putCharacter text

/-- One round of the loop of `terminal_write_bytes`. NUL has no terminal action, in a sequence or out of it. -/
def writeByte (t : Terminal) (text : UInt8) : Terminal :=
  if text = 0 then t
  else
    match t.ansiState with
    | .escape => t.writeEscape text
    | .csi => t.writeCsi text
    | .ground => t.writeGround text

/-- The start of `terminal_write_bytes`. -/
def beginWrite (t : Terminal) : Terminal := { t.markCursor with cursorPhaseVisible := true }

/-- The end of `terminal_write_bytes`. -/
def endWrite (t : Terminal) : Terminal := t.followLiveOutput.markCursor.render

/-- `terminal_write_bytes`. -/
def writeBytes (t : Terminal) (data : List UInt8) : Terminal := (data.foldl writeByte t.beginWrite).endWrite

/-- `terminal_set_colors`. -/
def setColors (t : Terminal) (foreground background : Pixel) : Terminal :=
  { t with foreground := foreground, background := background }

/-- `terminal_redraw`. -/
def redraw (t : Terminal) : Terminal := render { t with fullRedraw := true }

/-- `terminal_set_rendering_enabled`. -/
def setRenderingEnabled (t : Terminal) (enabled : Bool) : Terminal :=
  if t.renderingEnabled = enabled then t
  else
    let t := { t with renderingEnabled := enabled }
    if enabled then t.redraw else t

/-- `terminal_set_cursor_visible`. -/
def setCursorVisible (t : Terminal) (visible : Bool) : Terminal :=
  if t.cursorVisible ≠ visible then
    let t := t.markCursor
    let t := { t with
      cursorVisible := visible
      cursorPhaseVisible := if visible then true else t.cursorPhaseVisible }
    t.markCursor.render
  else t

/-- `terminal_set_cursor_phase`. -/
def setCursorPhase (t : Terminal) (visible : Bool) : Terminal :=
  if t.cursorPhaseVisible ≠ visible then
    let t := t.markCursor
    let t := { t with cursorPhaseVisible := visible }
    t.markCursor.render
  else t

/-- Move the viewport of the terminal, as every scrolling function does. -/
def scrollTo (t : Terminal) (viewportTop : Nat) : Terminal :=
  render (if t.viewportTop ≠ viewportTop then { t with viewportTop := viewportTop, fullRedraw := true } else t)

/-- `terminal_scroll_lines`. -/
def scrollLines (t : Terminal) (lines : Int) : Terminal :=
  let maximum := t.liveViewportTop
  let desired := (t.viewportTop : Int) + lines
  let desired := if desired < t.firstLine then (t.firstLine : Int) else desired
  let desired := if (maximum : Int) < desired then (maximum : Int) else desired
  t.scrollTo desired.toNat

/-- The distance of `terminal_page_up` and `terminal_page_down`, within a 32-bit integer. -/
def pageLines (t : Terminal) : Int := min (if 1 < t.rows then t.rows - 1 else 1 : Nat) 2147483647

/-- `terminal_page_up`. -/
def pageUp (t : Terminal) : Terminal := t.scrollLines (-t.pageLines)

/-- `terminal_page_down`. -/
def pageDown (t : Terminal) : Terminal := t.scrollLines t.pageLines

/-- `terminal_scroll_to_start`. -/
def scrollToStart (t : Terminal) : Terminal := t.scrollTo t.firstLine

/-- `terminal_scroll_to_end`. -/
def scrollToEnd (t : Terminal) : Terminal := t.followLiveOutput.render

/-- `terminal_is_at_end`. -/
def isAtEnd (t : Terminal) : Bool := decide (t.viewportTop = t.liveViewportTop)

/-- `terminal_history_line_count`. -/
def historyLineCount (t : Terminal) : Nat := t.lastLine - t.firstLine + 1

end Terminal

/-! ## Initialisation and resizing -/

/-- What an initialisation asks of the C library: `SIZE_MAX`, and whether `calloc` of a count of elements of a size succeeds. -/
structure Heap where
  sizeMax : Nat
  calloc : Nat → Nat → Bool

/-- A 32-bit heap that every allocation succeeds on. -/
def Heap.ample : Heap := ⟨4294967295, fun _ _ => true⟩

/-- `sizeof(terminal_cell_t)`. -/
def sizeofCell : Nat := 8

/-- The terminal that `terminal_init_with_rendering` renders at its end: every array is zeroed by `calloc`. -/
def newTerminal (fb : Framebuffer) (scale : Nat) (renderingEnabled : Bool) : Terminal :=
  { framebuffer := fb
    column := 0
    row := 0
    columns := fb.width / (fontCellWidth * scale)
    rows := fb.height / (fontCellHeight * scale)
    scale := scale
    foreground := 0xffff
    background := 0x0000
    reverse := false
    cells := fun _ _ => Cell.empty
    dirtyCells := fun _ _ => false
    lineLengths := fun _ => 0
    hardBreaks := fun _ => false
    lineCapacity := fb.height / (fontCellHeight * scale) + terminalScrollbackLines
    firstLine := 0
    currentLine := 0
    lastLine := 0
    viewportTop := 0
    cursorVisible := false
    cursorPhaseVisible := true
    fullRedraw := true
    renderingEnabled := renderingEnabled
    ansiState := .ground
    ansiValues := fun _ => 0
    ansiCount := 0
    ansiPrivate := false
    ansiInvalid := false
    savedColumn := 0
    savedLine := 0 }

/-- `terminal_init_with_rendering`. -/
def terminalInitWithRendering (heap : Heap) (fb : Framebuffer) (scale : Nat) (renderingEnabled : Bool) : Option Terminal :=
  if scale = 0 then none
  else
    let columns := fb.width / (fontCellWidth * scale)
    let rows := fb.height / (fontCellHeight * scale)
    let lineCapacity := rows + terminalScrollbackLines
    if columns = 0 ∨ rows = 0 ∨ heap.sizeMax - terminalScrollbackLines < rows then none
    else if heap.sizeMax / lineCapacity < columns ∨ heap.sizeMax / sizeofCell < columns * lineCapacity then none
    else if heap.calloc (columns * lineCapacity) sizeofCell = false ∨ heap.calloc lineCapacity 8 = false ∨
        heap.calloc lineCapacity 1 = false ∨ heap.calloc (rows * columns) 1 = false then none
    else some (newTerminal fb scale renderingEnabled).render

/-- `terminal_init`. -/
def terminalInit (heap : Heap) (fb : Framebuffer) (scale : Nat) : Option Terminal :=
  terminalInitWithRendering heap fb scale true

/-- A fresh terminal of three columns and three rows. -/
def Terminal.threeByThree : Terminal := (terminalInit .ample (.black 24 45) 1).get rfl

theorem Terminal.threeByThree_init : terminalInit .ample (.black 24 45) 1 = some .threeByThree := rfl

namespace Terminal

/-- The start of `terminal_resize`: the new terminal takes over the colours and the cursor's visibility. -/
def startResize (t resized : Terminal) : Terminal :=
  { resized with
    foreground := t.foreground
    background := t.background
    cursorVisible := t.cursorVisible
    cursorPhaseVisible := t.cursorPhaseVisible }

/-- The body of the inner loop of `terminal_resize`: a cell of the old terminal is written again, an empty one as a space. -/
def reflowCell (resized : Terminal) (cell : Cell) : Terminal :=
  { resized with foreground := cell.foreground, background := cell.background, reverse := cell.reverse }.putCharacter
    (if cell.character = 0 then 32 else cell.character)

/-- The body of the outer loop of `terminal_resize`: a line of the old terminal is written again, and its hard break. -/
def reflowLine (t resized : Terminal) (line : Nat) : Terminal :=
  let resized := (List.range (t.lineLength line)).foldl
    (fun resized column => resized.reflowCell (t.lineCells line column)) resized
  if t.hardBreak line then resized.appendLine true else resized

/-- The loop of `terminal_resize` over the retained lines. -/
def reflow (t resized : Terminal) : Terminal :=
  (List.range' t.firstLine (t.lastLine + 1 - t.firstLine)).foldl t.reflowLine resized

/-- The end of `terminal_resize`: colours, viewport and a full redraw of the new terminal. -/
def finishResize (t resized : Terminal) : Terminal :=
  let distanceFromEnd := if t.viewportTop ≤ t.liveViewportTop then t.liveViewportTop - t.viewportTop else 0
  let resized := { resized with foreground := t.foreground, background := t.background, reverse := t.reverse }
  let available := resized.liveViewportTop - resized.firstLine
  let resized := { resized with
    viewportTop := resized.liveViewportTop - (if distanceFromEnd < available then distanceFromEnd else available) }
  render { resized.updateCursorRow with fullRedraw := true }

/-- `terminal_resize`, when it succeeds. -/
def resize (t : Terminal) (heap : Heap) (fb : Framebuffer) (scale : Nat) : Option Terminal :=
  (terminalInitWithRendering heap fb scale t.renderingEnabled).map fun resized =>
    t.finishResize (t.reflow (t.startResize resized))

/-- The operations of a terminal. -/
inductive Op where
  | writeBytes (data : List UInt8)
  | clear
  | resize (heap : Heap) (fb : Framebuffer) (scale : Nat)
  | scrollLines (lines : Int)
  | pageUp
  | pageDown
  | scrollToStart
  | scrollToEnd
  | setCursorVisible (visible : Bool)
  | setCursorPhase (visible : Bool)
  | setColors (foreground background : Pixel)
  | setRenderingEnabled (enabled : Bool)
  | redraw

/-- One operation; a resize that is refused leaves the terminal as it was. -/
def apply (t : Terminal) : Op → Terminal
  | .writeBytes data => t.writeBytes data
  | .clear => t.clear
  | .resize heap fb scale => (t.resize heap fb scale).getD t
  | .scrollLines lines => t.scrollLines lines
  | .pageUp => t.pageUp
  | .pageDown => t.pageDown
  | .scrollToStart => t.scrollToStart
  | .scrollToEnd => t.scrollToEnd
  | .setCursorVisible visible => t.setCursorVisible visible
  | .setCursorPhase visible => t.setCursorPhase visible
  | .setColors foreground background => t.setColors foreground background
  | .setRenderingEnabled enabled => t.setRenderingEnabled enabled
  | .redraw => t.redraw

/-- A run of operations. -/
def run (t : Terminal) (ops : List Op) : Terminal := ops.foldl apply t

end Terminal
end TabOS
