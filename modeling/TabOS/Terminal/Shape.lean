import TabOS.Terminal.Basic
import TabOS.Library.Ring

/-!
# What each terminal function changes

One equation for each function that names the fields it writes, so that the other fields are read off by projection. Marking,
following, and rendering touch only the fields of the view (`row`, `viewportTop`, `fullRedraw`, `dirtyCells`, `framebuffer`).
-/

namespace TabOS
namespace Terminal

open Library

/-- The live screen starts at the first of its rows that is retained. -/
theorem liveViewportTop_eq (t : Terminal) : t.liveViewportTop = max (t.lastLine + 1 - t.rows) t.firstLine := by
  unfold liveViewportTop
  dsimp only
  split <;> split <;> omega

/-- The live screen starts at a retained line. -/
theorem firstLine_le_live (t : Terminal) : t.firstLine ≤ t.liveViewportTop := by
  rw [liveViewportTop_eq]
  exact Nat.le_max_right _ _

/-- The live screen starts at or above the last line. -/
theorem liveViewportTop_le_lastLine (t : Terminal) (hr : 0 < t.rows) (h : t.firstLine ≤ t.lastLine) :
    t.liveViewportTop ≤ t.lastLine := by
  rw [liveViewportTop_eq]
  omega

/-- The restored line is the saved line clamped to the live screen. -/
theorem restoredLine_eq (t : Terminal) :
    t.restoredLine = min (max t.savedLine t.liveViewportTop) t.liveViewportBottom := by
  unfold restoredLine liveViewportBottom
  dsimp only
  split <;> split <;> omega

/-! ## The view -/

/-- The dirty cells after `mark_cell`. -/
def markedCells (t : Terminal) (line column : Nat) : Nat → Nat → Bool :=
  if t.columns ≤ column ∨ line < t.viewportTop ∨ t.viewportTop + t.rows ≤ line then t.dirtyCells
  else Function.update t.dirtyCells (line - t.viewportTop)
    (Function.update (t.dirtyCells (line - t.viewportTop)) column true)

theorem markCell_eq (t : Terminal) (line column : Nat) :
    t.markCell line column = { t with dirtyCells := t.markedCells line column } := by
  unfold markCell markedCells
  split <;> rfl

theorem markCursor_eq (t : Terminal) :
    t.markCursor = { t with dirtyCells := t.markedCells t.currentLine t.column } := markCell_eq t _ _

theorem followLiveOutput_eq (t : Terminal) :
    t.followLiveOutput = { t with
      viewportTop := t.liveViewportTop
      fullRedraw := t.fullRedraw || decide (t.viewportTop ≠ t.liveViewportTop)
      row := t.currentLine - t.liveViewportTop } := by
  by_cases h : t.viewportTop = t.liveViewportTop
  · have hkeep : t.followLiveOutput = t.updateCursorRow := congrArg updateCursorRow (if_neg (not_not.2 h))
    have hfull : (t.fullRedraw || decide (t.viewportTop ≠ t.liveViewportTop)) = t.fullRedraw := by
      rw [decide_eq_false (not_not.2 h), Bool.or_false]
    rw [hkeep, hfull, updateCursorRow, ← h]
  · have hmove : t.followLiveOutput = updateCursorRow { t with viewportTop := t.liveViewportTop, fullRedraw := true } :=
      congrArg updateCursorRow (if_pos h)
    have hfull : (t.fullRedraw || decide (t.viewportTop ≠ t.liveViewportTop)) = true := by
      rw [decide_eq_true h, Bool.or_true]
    rw [hmove, hfull]
    rfl

/-- The framebuffer after `render`. -/
def renderedFramebuffer (t : Terminal) : Framebuffer :=
  if t.renderingEnabled then
    { t.framebuffer with
      pixels := t.drawCursor (if t.fullRedraw then t.drawAll t.framebuffer.pixels else t.drawDirty t.framebuffer.pixels) }
  else t.framebuffer

theorem render_eq (t : Terminal) :
    t.render = { t with
      framebuffer := t.renderedFramebuffer
      dirtyCells := if t.renderingEnabled then t.cleanCells else t.dirtyCells
      fullRedraw := !t.renderingEnabled && t.fullRedraw } := by
  unfold render renderedFramebuffer
  by_cases h : t.renderingEnabled = true
  · rw [if_pos h, if_pos h, if_pos h, show (!t.renderingEnabled && t.fullRedraw) = false by simp [h]]
  · rw [if_neg h, if_neg h, if_neg h, show (!t.renderingEnabled && t.fullRedraw) = t.fullRedraw by simp [h]]

/-! ## Lines -/

theorem clearLine_eq (t : Terminal) (line : Nat) :
    t.clearLine line = { t with
      cells := Function.update t.cells (t.lineSlot line) fun _ => Cell.empty
      lineLengths := Function.update t.lineLengths (t.lineSlot line) 0
      hardBreaks := Function.update t.hardBreaks (t.lineSlot line) false } := rfl

theorem evictLine_eq (t : Terminal) :
    t.evictLine = { t with
      firstLine := if t.lineCapacity < t.currentLine - t.firstLine + 1 then t.firstLine + 1 else t.firstLine } := by
  by_cases h : t.lineCapacity < t.currentLine - t.firstLine + 1
  · simp only [evictLine, if_pos h]
  · simp only [evictLine, if_neg h]

/-- `append_line` above the last line: the cursor goes to the line below. -/
theorem appendLine_of_lt (t : Terminal) (hardBreak : Bool) (hlt : t.currentLine < t.lastLine)
    (hw : t.lastLine - t.firstLine < t.lineCapacity) :
    t.appendLine hardBreak = followLiveOutput { t with
      hardBreaks := Function.update t.hardBreaks (t.currentLine % t.lineCapacity) hardBreak
      currentLine := t.currentLine + 1
      column := 0 } := by
  have hevict : ¬t.lineCapacity < t.currentLine + 1 - t.firstLine + 1 := by omega
  have hopen : ¬t.lastLine < t.currentLine + 1 := by omega
  simp only [appendLine, setHardBreak, evictLine_eq, openCurrentLine, if_neg hevict, if_neg hopen, lineSlot]

/-- `append_line` on the last line or below it: a new last line is opened, and the first line is given up when the store is
full. -/
theorem appendLine_of_ge (t : Terminal) (hardBreak : Bool) (hge : t.lastLine ≤ t.currentLine) :
    t.appendLine hardBreak = followLiveOutput { t with
      cells := Function.update t.cells ((t.currentLine + 1) % t.lineCapacity) fun _ => Cell.empty
      lineLengths := Function.update t.lineLengths ((t.currentLine + 1) % t.lineCapacity) 0
      hardBreaks := Function.update (Function.update t.hardBreaks (t.currentLine % t.lineCapacity) hardBreak)
        ((t.currentLine + 1) % t.lineCapacity) false
      currentLine := t.currentLine + 1
      lastLine := t.currentLine + 1
      firstLine := if t.lineCapacity < t.currentLine + 1 - t.firstLine + 1 then t.firstLine + 1 else t.firstLine
      column := 0 } := by
  have hopen : t.lastLine < t.currentLine + 1 := by omega
  simp only [appendLine, setHardBreak, evictLine_eq, openCurrentLine, if_pos hopen, lineSlot, clearLine_eq]

theorem growLine_eq (t : Terminal) :
    t.growLine = { t with
      lineLengths :=
        Function.update t.lineLengths (t.lineSlot t.currentLine) (max (t.lineLength t.currentLine) (t.column + 1)) } := by
  by_cases h : t.lineLength t.currentLine < t.column + 1
  · rw [max_eq_right (by omega)]
    simp only [growLine, if_pos h, setLineLength]
  · rw [max_eq_left (by omega), lineLength, Function.update_eq_self]
    simp only [growLine, if_neg h]

theorem storeCharacter_eq (t : Terminal) (character : UInt8) :
    t.storeCharacter character = { t with
      cells := Function.update t.cells (t.lineSlot t.currentLine)
        (Function.update (t.lineCells t.currentLine) t.column ⟨character, t.foreground, t.background, t.reverse⟩)
      lineLengths :=
        Function.update t.lineLengths (t.lineSlot t.currentLine) (max (t.lineLength t.currentLine) (t.column + 1))
      dirtyCells := t.markedCells t.currentLine t.column
      column := t.column + 1 } := by
  have h := growLine_eq ((t.setCell t.currentLine t.column ⟨character, t.foreground, t.background, t.reverse⟩).markCell
    t.currentLine t.column)
  have hmark := markCell_eq (t.setCell t.currentLine t.column ⟨character, t.foreground, t.background, t.reverse⟩)
    t.currentLine t.column
  exact (congrArg (fun u : Terminal => { u with column := u.column + 1 }) h).trans (by rw [hmark])

theorem putCharacter_eq (t : Terminal) (character : UInt8) :
    t.putCharacter character =
      if t.columns ≤ t.column + 1 then (t.storeCharacter character).appendLine false else t.storeCharacter character := by
  unfold putCharacter
  rw [storeCharacter_eq]

/-! ## Backspace -/

theorem dropLastLine_eq (t : Terminal) :
    t.dropLastLine = { t with
      lastLine := if t.lastLine = t.currentLine then t.lastLine - 1 else t.lastLine } := by
  by_cases h : t.lastLine = t.currentLine
  · simp only [dropLastLine, if_pos h]
  · simp only [dropLastLine, if_neg h]

theorem backspaceLine_eq (t : Terminal) :
    t.backspaceLine = { t with
      cells := Function.update t.cells (t.currentLine % t.lineCapacity) fun _ => Cell.empty
      lineLengths := Function.update t.lineLengths (t.currentLine % t.lineCapacity) 0
      hardBreaks := Function.update (Function.update t.hardBreaks (t.currentLine % t.lineCapacity) false)
        ((t.currentLine - 1) % t.lineCapacity) false
      lastLine := if t.lastLine = t.currentLine then t.lastLine - 1 else t.lastLine
      currentLine := t.currentLine - 1
      column := min t.columns
        (Function.update t.lineLengths (t.currentLine % t.lineCapacity) 0 ((t.currentLine - 1) % t.lineCapacity)) } := by
  have hmin : ∀ a b : Nat, (if a < b then a else b) = min a b := by
    intro a b
    split <;> omega
  simp only [backspaceLine, dropLastLine_eq, clearLine_eq, hmin, setHardBreak, lineLength, lineSlot]

theorem backspaceCell_eq (t : Terminal) (hc : 0 < t.column) :
    t.backspaceCell = { t with
      cells := Function.update t.cells (t.currentLine % t.lineCapacity)
        (Function.update (t.lineCells t.currentLine) (t.column - 1) Cell.empty)
      lineLengths := Function.update t.lineLengths (t.currentLine % t.lineCapacity)
        (trimmedLength (Function.update (t.lineCells t.currentLine) (t.column - 1) Cell.empty) (t.lineLength t.currentLine))
      dirtyCells := t.markedCells t.currentLine (t.column - 1)
      column := t.column - 1 } := by
  simp only [backspaceCell, if_pos hc, markCell_eq, trimLine, setLineLength, setCell, setLineCells, lineCells, lineSlot,
    lineLength, Function.update_self]
  rfl

theorem backspaceCell_of_zero (t : Terminal) (hc : ¬0 < t.column) : t.backspaceCell = t := by
  rw [backspaceCell, if_neg hc]

/-! ## Commands -/

theorem ansiSgr_eq (t : Terminal) (value : Nat) :
    t.ansiSgr value = { t with
      foreground := (t.ansiSgr value).foreground
      background := (t.ansiSgr value).background
      reverse := (t.ansiSgr value).reverse } := by
  unfold ansiSgr
  repeat' first
    | rfl
    | refine iteInduction (motive := fun u : Terminal => u = { t with
        foreground := u.foreground
        background := u.background
        reverse := u.reverse }) (fun _ => ?_) (fun _ => ?_)

/-- What every branch of `ansi_command` on a sequence without `?` establishes. -/
theorem publicCommand_cases (P : Terminal → Prop) (t : Terminal) (command : UInt8) (hposition : P t.cursorPosition)
    (hup : P t.cursorUp) (hdown : P t.cursorDown) (hforward : P t.cursorForward) (hbackward : P t.cursorBackward)
    (hcolumn : P t.cursorColumn) (hclear : command = 74 ∧ t.ansiValues 0 = 2 → P t.clear)
    (herase : P (t.eraseLine (t.ansiValues 0)))
    (hgraphics : command = 109 → P t.selectGraphics) (hsave : P t.saveCursor) (hrestore : P t.restoreCursor) (hnone : P t) :
    P (t.publicCommand command) := by
  unfold publicCommand
  refine iteInduction (fun _ => hposition) fun _ => iteInduction (fun _ => hup) fun _ => iteInduction (fun _ => hdown) fun _ =>
    iteInduction (fun _ => hforward) fun _ => iteInduction (fun _ => hbackward) fun _ => iteInduction (fun _ => hcolumn)
    fun _ => iteInduction hclear fun _ => iteInduction (fun _ => herase) fun _ => iteInduction hgraphics
    fun _ => iteInduction (fun _ => hsave) fun _ => iteInduction (fun _ => hrestore) fun _ => hnone

end Terminal
end TabOS
