import TabOS.Terminal.Shape
import Mathlib.Tactic.SplitIfs

/-!
# The representation invariant of the terminal

The five line indices, the cursor column and the stored lines. `Core` is what holds also in the middle of an operation, `Inv`
adds the column and the viewport and holds between any two bytes of a write. Neither says that the cursor's line is a retained
one: `ESC 8` can leave it below the last line (`representation_broken`), and `Covered`, which says it is not, is kept by every
byte but that one.
-/

namespace TabOS
namespace Terminal

open Library

/-! ## The indices -/

/-- The line indices of a terminal: the retained lines fit the store and the cursor's line is on the live screen, which starts
at `max (last + 1 - rows) first`. -/
structure Indices (columns rows capacity first current last : Nat) : Prop where
  columns_pos : 0 < columns
  rows_pos : 0 < rows
  rows_le : rows ≤ capacity
  first_le_last : first ≤ last
  window : last - first < capacity
  live_le_current : max (last + 1 - rows) first ≤ current
  current_lt_live : current < max (last + 1 - rows) first + rows

namespace Indices

variable {columns rows capacity first current last : Nat}

/-- The indices of a fresh or cleared terminal. -/
theorem zero (hc : 0 < columns) (hr : 0 < rows) (hrc : rows ≤ capacity) : Indices columns rows capacity 0 0 0 := by
  constructor <;> omega

/-- The cursor may go to any line of the live screen. -/
theorem move (h : Indices columns rows capacity first current last) {line : Nat} (hle : max (last + 1 - rows) first ≤ line)
    (hlt : line < max (last + 1 - rows) first + rows) : Indices columns rows capacity first line last :=
  { h with live_le_current := hle, current_lt_live := hlt }

/-- Above the last line, the next line is on the live screen. -/
theorem next (h : Indices columns rows capacity first current last) (hlt : current < last) :
    Indices columns rows capacity first (current + 1) last := by
  have hle := h.live_le_current
  have hpos := h.rows_pos
  exact h.move (by omega) (by omega)

/-- From the last line, or below it, the next line becomes the last one, at the cost of the first when the store is full. -/
theorem append (h : Indices columns rows capacity first current last) (hge : last ≤ current) :
    Indices columns rows capacity (if capacity < current + 1 - first + 1 then first + 1 else first) (current + 1)
      (current + 1) := by
  obtain ⟨hc, hr, hrc, hfl, hw, hle, hlt⟩ := h
  split <;> constructor <;> omega

/-- Going back from the last line gives it up. -/
theorem backFromLast (h : Indices columns rows capacity first current last) (hne : current ≠ first) (hlast : last = current) :
    Indices columns rows capacity first (current - 1) (last - 1) := by
  obtain ⟨hc, hr, hrc, hfl, hw, hle, hlt⟩ := h
  constructor <;> omega

/-- Going back from another line of the live screen than its first. -/
theorem back (h : Indices columns rows capacity first current last) (hlt : max (last + 1 - rows) first < current) :
    Indices columns rows capacity first (current - 1) last := by
  have hlt' := h.current_lt_live
  exact h.move (by omega) (by omega)

/-- Opening a line above the cursor's. -/
theorem openLine (h : Indices columns rows capacity first current last) (hlt : last < current) :
    Indices columns rows capacity first current (last + 1) := by
  obtain ⟨hc, hr, hrc, hfl, hw, hle, hlt'⟩ := h
  constructor <;> omega

/-- Opening a line above the cursor's does not move the live screen. -/
theorem live_openLine (h : Indices columns rows capacity first current last) (hlt : last < current) :
    max (last + 1 + 1 - rows) first = max (last + 1 - rows) first := by
  have hlt' := h.current_lt_live
  omega

end Indices

/-! ## The stored lines -/

/-- A stored line: its length is within the columns, the cells past it are empty, and a cell without a character is empty. -/
structure LineStored (columns : Nat) (cells : Nat → Cell) (length : Nat) : Prop where
  length_le : length ≤ columns
  blank : ∀ x, length ≤ x → x < columns → cells x = Cell.empty
  erased : ∀ x, (cells x).character = 0 → cells x = Cell.empty

/-- Every slot holds a stored line. -/
def Stored (columns : Nat) (cells : Nat → Nat → Cell) (lengths : Nat → Nat) : Prop :=
  ∀ slot, LineStored columns (cells slot) (lengths slot)

variable {columns : Nat}

theorem LineStored.empty : LineStored columns (fun _ => Cell.empty) 0 :=
  ⟨Nat.zero_le _, fun _ _ _ => rfl, fun _ _ => rfl⟩

/-- Storing a line in a slot. -/
theorem Stored.update {cells : Nat → Nat → Cell} {lengths : Nat → Nat} (h : Stored columns cells lengths) (slot : Nat)
    {line : Nat → Cell} {length : Nat} (hl : LineStored columns line length) :
    Stored columns (Function.update cells slot line) (Function.update lengths slot length) := by
  intro s
  by_cases hs : s = slot
  · subst hs
    simpa only [Function.update_self] using hl
  · simpa only [Function.update_of_ne hs] using h s

/-- Storing a character in a line, whose length grows to reach past it. -/
theorem LineStored.put {cells : Nat → Cell} {length column : Nat} (h : LineStored columns cells length)
    (hc : column < columns) (cell : Cell) (hcell : cell.character ≠ 0) :
    LineStored columns (Function.update cells column cell) (max length (column + 1)) := by
  refine ⟨by have := h.length_le; omega, fun x hx hxc => ?_, fun x hx => ?_⟩
  · rw [Function.update_of_ne (by omega)]
    exact h.blank x (by omega) hxc
  · by_cases hxc : x = column
    · subst hxc
      rw [Function.update_self] at hx
      exact absurd hx hcell
    · rw [Function.update_of_ne hxc] at hx ⊢
      exact h.erased x hx

theorem trimmedLength_le (cells : Nat → Cell) (length : Nat) : trimmedLength cells length ≤ length := by
  induction length with
  | zero => exact Nat.le_refl _
  | succ n ih =>
    unfold trimmedLength
    split
    · exact Nat.le_succ_of_le ih
    · exact Nat.le_refl _

/-- The cells a trimmed line gives up have no character. -/
theorem trimmedLength_erased (cells : Nat → Cell) (length x : Nat) (hx : trimmedLength cells length ≤ x)
    (hlt : x < length) : (cells x).character = 0 := by
  induction length with
  | zero => exact absurd hlt (Nat.not_lt_zero _)
  | succ n ih =>
    unfold trimmedLength at hx
    split at hx
    · rename_i h0
      by_cases hxn : x = n
      · rw [hxn]
        exact h0
      · exact ih hx (by omega)
    · omega

/-- Erasing a cell of a line and trimming it. -/
theorem LineStored.erase {cells : Nat → Cell} {length : Nat} (h : LineStored columns cells length) (column : Nat) :
    LineStored columns (Function.update cells column Cell.empty)
      (trimmedLength (Function.update cells column Cell.empty) length) := by
  have herased : ∀ x, (Function.update cells column Cell.empty x).character = 0 →
      Function.update cells column Cell.empty x = Cell.empty := by
    intro x hx
    by_cases hxc : x = column
    · rw [hxc, Function.update_self]
    · rw [Function.update_of_ne hxc] at hx ⊢
      exact h.erased x hx
  refine ⟨(trimmedLength_le _ _).trans h.length_le, fun x hx hxc => ?_, herased⟩
  by_cases hlt : x < length
  · exact herased x (trimmedLength_erased _ _ x hx hlt)
  · by_cases hxc' : x = column
    · rw [hxc', Function.update_self]
    · rw [Function.update_of_ne hxc']
      exact h.blank x (by omega) hxc

/-- Erasing a line from a column to the end. -/
theorem LineStored.eraseFrom {cells : Nat → Cell} {length : Nat} (h : LineStored columns cells length) {start : Nat}
    (hs : start ≤ columns) :
    LineStored columns (fun x => if start ≤ x ∧ x < columns then Cell.empty else cells x) start := by
  refine ⟨hs, fun x hx hxc => if_pos ⟨hx, hxc⟩, fun x hx => ?_⟩
  split
  · rfl
  · rename_i hn
    rw [if_neg hn] at hx
    exact h.erased x hx

/-! ## The invariant -/

/-- What holds in the middle of an operation too. The last line has no hard break: nothing follows it. -/
structure Core (t : Terminal) : Prop where
  capacity : t.lineCapacity = t.rows + terminalScrollbackLines
  indices : Indices t.columns t.rows t.lineCapacity t.firstLine t.currentLine t.lastLine
  stored : Stored t.columns t.cells t.lineLengths
  lastSoft : t.hardBreaks (t.lastLine % t.lineCapacity) = false

/-- What holds between any two bytes of a write. -/
structure Inv (t : Terminal) : Prop extends Core t where
  column_lt : t.column < t.columns
  first_le_viewport : t.firstLine ≤ t.viewportTop
  viewport_le_live : t.viewportTop ≤ t.liveViewportTop

/-- The cursor's line is one of the lines up to the last. -/
def Covered (t : Terminal) : Prop := t.currentLine ≤ t.lastLine

theorem Core.capacity_pos {t : Terminal} (h : Core t) : 0 < t.lineCapacity :=
  Nat.lt_of_lt_of_le h.indices.rows_pos h.indices.rows_le

theorem Core.live_le_current {t : Terminal} (h : Core t) : t.liveViewportTop ≤ t.currentLine := by
  rw [liveViewportTop_eq]
  exact h.indices.live_le_current

theorem Core.current_lt_live {t : Terminal} (h : Core t) : t.currentLine < t.liveViewportTop + t.rows := by
  rw [liveViewportTop_eq]
  exact h.indices.current_lt_live

/-- The stored line of a line number. -/
theorem Core.line {t : Terminal} (h : Core t) (line : Nat) : LineStored t.columns (t.lineCells line) (t.lineLength line) :=
  h.stored _

/-- Following the live output puts the viewport where the invariant wants it. -/
theorem followLiveOutput_inv {t : Terminal} (h : Core t) (hc : t.column < t.columns) : Inv t.followLiveOutput := by
  rw [followLiveOutput_eq]
  refine { capacity := h.capacity, indices := h.indices, stored := h.stored, lastSoft := h.lastSoft, column_lt := hc,
           first_le_viewport := ?_, viewport_le_live := Nat.le_refl _ }
  show t.firstLine ≤ t.liveViewportTop
  rw [liveViewportTop_eq]
  exact Nat.le_max_right _ _

theorem markCell_inv {t : Terminal} (h : Inv t) (line column : Nat) : Inv (t.markCell line column) := by
  rw [markCell_eq]
  exact { h with }

theorem render_inv {t : Terminal} (h : Inv t) : Inv t.render := by
  rw [render_eq]
  exact { h with }

/-! ## Output -/

theorem appendLine_inv {t : Terminal} (h : Core t) (hardBreak : Bool) : Inv (t.appendLine hardBreak) := by
  have hpos := h.indices.columns_pos
  rcases Nat.lt_or_ge t.currentLine t.lastLine with hlt | hge
  · rw [appendLine_of_lt t hardBreak hlt h.indices.window]
    refine followLiveOutput_inv { capacity := h.capacity, indices := h.indices.next hlt, stored := h.stored, lastSoft := ?_ } hpos
    have hfirst : t.firstLine ≤ t.currentLine := (Nat.le_max_right _ _).trans h.indices.live_le_current
    have hw := h.indices.window
    show Function.update t.hardBreaks _ _ (t.lastLine % t.lineCapacity) = false
    rw [update_slot_of_ne _ _ (by omega) (by omega) (by omega)]
    exact h.lastSoft
  · rw [appendLine_of_ge t hardBreak hge]
    exact followLiveOutput_inv
      { capacity := h.capacity, indices := h.indices.append hge, stored := h.stored.update _ LineStored.empty,
        lastSoft := Function.update_self _ _ _ } hpos

theorem storeCharacter_core {t : Terminal} (h : Inv t) {character : UInt8} (hne : character ≠ 0) :
    Core (t.storeCharacter character) := by
  rw [storeCharacter_eq]
  exact { capacity := h.capacity, indices := h.indices, stored := h.stored.update _ ((h.line _).put h.column_lt _ hne),
          lastSoft := h.lastSoft }

theorem putCharacter_inv {t : Terminal} (h : Inv t) {character : UInt8} (hne : character ≠ 0) :
    Inv (t.putCharacter character) := by
  have hcore := storeCharacter_core h hne
  rw [putCharacter_eq]
  split
  · exact appendLine_inv hcore false
  · rename_i hlt
    refine { toCore := hcore, column_lt := ?_, first_le_viewport := ?_, viewport_le_live := ?_ }
    · rw [storeCharacter_eq]
      exact Nat.lt_of_not_le hlt
    · rw [storeCharacter_eq]
      exact h.first_le_viewport
    · rw [storeCharacter_eq]
      exact h.viewport_le_live

theorem tab_inv {t : Terminal} (h : Inv t) : Inv t.tab := by
  unfold tab
  exact foldl_invariant Inv (fun u _ hu => putCharacter_inv hu (by decide)) _ h

/-! ## Backspace -/

/-- `backspace` goes back only from a line that has one before it on the live screen, or from the last line. -/
theorem backspaceStops_eq_false {t : Terminal} (h : t.backspaceStops = false) :
    t.currentLine ≠ t.firstLine ∧ (t.currentLine < t.lastLine → t.currentLine ≠ t.liveViewportTop) := by
  simp only [backspaceStops, Bool.or_eq_false_iff, Bool.and_eq_false_iff, decide_eq_false_iff_not] at h
  refine ⟨h.1, fun hlt => ?_⟩
  rcases h.2 with hne | hn
  · exact hne
  · exact absurd hlt hn

theorem backspaceLine_core {t : Terminal} (h : Inv t) (hs : t.backspaceStops = false) : Core t.backspaceLine := by
  obtain ⟨hfirst, hlive⟩ := backspaceStops_eq_false hs
  rw [liveViewportTop_eq] at hlive
  have hle := h.indices.live_le_current
  have hw := h.indices.window
  have hr := h.indices.rows_pos
  have hsoft : ∀ line, t.hardBreaks line = false →
      Function.update (Function.update t.hardBreaks (t.currentLine % t.lineCapacity) false)
        ((t.currentLine - 1) % t.lineCapacity) false line = false := by
    intro line hline
    simp only [Function.update_apply]
    split
    · rfl
    · split
      · rfl
      · exact hline
  rw [backspaceLine_eq]
  by_cases hlast : t.lastLine = t.currentLine
  · refine { capacity := h.capacity, indices := ?_, stored := h.stored.update _ LineStored.empty, lastSoft := ?_ }
    · simpa only [if_pos hlast] using h.indices.backFromLast hfirst hlast
    · simp only [if_pos hlast]
      rw [hlast]
      exact Function.update_self _ _ _
  · refine { capacity := h.capacity, indices := ?_, stored := h.stored.update _ LineStored.empty, lastSoft := ?_ }
    · simp only [if_neg hlast]
      refine h.indices.back ?_
      rcases Nat.lt_or_ge t.currentLine t.lastLine with hlt | hge
      · have := hlive hlt
        omega
      · have := h.indices.first_le_last
        omega
    · simp only [if_neg hlast]
      exact hsoft _ h.lastSoft

theorem backspaceCell_core {t : Terminal} (h : Core t) : Core t.backspaceCell := by
  by_cases hc : 0 < t.column
  · rw [backspaceCell_eq t hc]
    exact { capacity := h.capacity, indices := h.indices, stored := h.stored.update _ ((h.line _).erase _), lastSoft := h.lastSoft }
  · rw [backspaceCell_of_zero t hc]
    exact h

theorem backspaceCell_column (t : Terminal) : t.backspaceCell.column = t.column - 1 := by
  by_cases hc : 0 < t.column
  · rw [backspaceCell_eq t hc]
  · rw [backspaceCell_of_zero t hc]
    omega

theorem backspaceCell_columns (t : Terminal) : t.backspaceCell.columns = t.columns := by
  by_cases hc : 0 < t.column
  · rw [backspaceCell_eq t hc]
  · rw [backspaceCell_of_zero t hc]

theorem backspace_inv {t : Terminal} (h : Inv t) : Inv t.backspace := by
  have hpos := h.indices.columns_pos
  unfold backspace
  split
  · split
    · exact h
    · rename_i hs
      have hcore := backspaceLine_core h (Bool.eq_false_iff.2 hs)
      refine followLiveOutput_inv (backspaceCell_core hcore) ?_
      rw [backspaceCell_column, backspaceCell_columns, backspaceLine_eq]
      dsimp only
      omega
  · refine followLiveOutput_inv (backspaceCell_core h.toCore) ?_
    rw [backspaceCell_column, backspaceCell_columns]
    have := h.column_lt
    omega

/-! ## Commands -/

theorem eraseLine_inv {t : Terminal} (h : Inv t) (value : Nat) : Inv (t.eraseLine value) := by
  have hstart : (if value = 2 then 0 else t.column) ≤ t.columns := by
    have := h.column_lt
    split <;> omega
  exact { h with stored := h.stored.update _ ((h.line t.currentLine).eraseFrom hstart) }

/-- A cleared terminal, whatever the view. -/
theorem clearCells_inv {t : Terminal} (h : Inv t) : Inv t.clearCells := by
  have hpos := h.capacity_pos
  refine { capacity := h.capacity, indices := ?_, stored := ?_, lastSoft := ?_, column_lt := h.indices.columns_pos,
           first_le_viewport := Nat.le_refl _, viewport_le_live := Nat.zero_le _ }
  · exact Indices.zero h.indices.columns_pos h.indices.rows_pos h.indices.rows_le
  · intro slot
    unfold clearCells
    dsimp only
    split
    · exact LineStored.empty
    · exact h.stored slot
  · unfold clearCells
    dsimp only
    rw [Nat.zero_mod, if_pos hpos]

theorem clear_inv {t : Terminal} (h : Inv t) : Inv t.clear := render_inv (clearCells_inv h)

/-- What opening a line above the cursor's preserves, the loop at the end of a command preserves. -/
theorem coverCursor_induction (I : Terminal → Prop) (hstep : ∀ u, u.lastLine < u.currentLine → I u → I u.openLine)
    {t : Terminal} (h : I t) : I t.coverCursor := by
  unfold coverCursor
  generalize hn : t.currentLine - t.lastLine = n
  induction n generalizing t with
  | zero => exact h
  | succ n ih =>
    rw [Function.iterate_succ_apply]
    refine ih (hstep t (by omega) h) ?_
    rw [openLine, clearLine_eq]
    dsimp only
    omega

theorem coverCursor_covered (t : Terminal) : Covered t.coverCursor := by
  unfold coverCursor
  generalize hn : t.currentLine - t.lastLine = n
  induction n generalizing t with
  | zero => exact Nat.le_of_sub_eq_zero hn
  | succ n ih =>
    rw [Function.iterate_succ_apply]
    refine ih _ ?_
    rw [openLine, clearLine_eq]
    dsimp only
    omega

theorem openLine_inv {t : Terminal} (h : Inv t) (hlt : t.lastLine < t.currentLine) : Inv t.openLine := by
  have hlive := h.indices.live_openLine hlt
  have hview := h.viewport_le_live
  rw [liveViewportTop_eq] at hview
  rw [openLine, clearLine_eq]
  refine { capacity := h.capacity, indices := h.indices.openLine hlt, stored := h.stored.update _ LineStored.empty,
           lastSoft := Function.update_self _ _ _, column_lt := h.column_lt, first_le_viewport := h.first_le_viewport,
           viewport_le_live := ?_ }
  rw [liveViewportTop_eq]
  dsimp only
  omega

theorem coverCursor_inv {t : Terminal} (h : Inv t) : Inv t.coverCursor :=
  coverCursor_induction Inv (fun _ hlt hu => openLine_inv hu hlt) h

/-- The cursor may go to any line of the live screen and any column. -/
theorem moveCursor_inv {t : Terminal} (h : Inv t) {line column : Nat} (hle : t.liveViewportTop ≤ line)
    (hlt : line ≤ t.liveViewportBottom) (hc : column < t.columns) :
    Inv { t with currentLine := line, column := column } := by
  have hr := h.indices.rows_pos
  rw [liveViewportBottom] at hlt
  rw [liveViewportTop_eq] at hle hlt
  have hlt' : line < max (t.lastLine + 1 - t.rows) t.firstLine + t.rows := by omega
  exact { h with indices := h.indices.move hle hlt', column_lt := hc }

theorem restoredLine_ge (t : Terminal) (hr : 0 < t.rows) : t.liveViewportTop ≤ t.restoredLine := by
  rw [restoredLine_eq, liveViewportBottom]
  omega

theorem restoreCursor_inv {t : Terminal} (h : Inv t) : Inv t.restoreCursor := by
  have hc := h.indices.columns_pos
  refine moveCursor_inv h (restoredLine_ge t h.indices.rows_pos) ?_ ?_
  · rw [restoredLine_eq]
    exact Nat.min_le_right _ _
  · split <;> omega

theorem ansiSgr_inv {t : Terminal} (h : Inv t) (value : Nat) : Inv (t.ansiSgr value) := by
  rw [ansiSgr_eq]
  exact { h with }

theorem cursorPosition_inv {t : Terminal} (h : Inv t) : Inv t.cursorPosition := by
  have hc := h.indices.columns_pos
  have hr := h.indices.rows_pos
  refine moveCursor_inv h (Nat.le_add_right _ _) ?_ ?_
  · rw [liveViewportBottom]
    split <;> omega
  · split_ifs <;> omega

theorem cursorUp_inv {t : Terminal} (h : Inv t) : Inv t.cursorUp := by
  have hle := h.live_le_current
  have hlt := h.current_lt_live
  refine moveCursor_inv h ?_ ?_ h.column_lt
  · split <;> omega
  · rw [liveViewportBottom]
    omega

theorem cursorDown_inv {t : Terminal} (h : Inv t) : Inv t.cursorDown := by
  have hle := h.live_le_current
  have hlt := h.current_lt_live
  refine moveCursor_inv h (by omega) ?_ h.column_lt
  rw [liveViewportBottom]
  split <;> omega

theorem cursorForward_inv {t : Terminal} (h : Inv t) : Inv t.cursorForward := by
  have hc := h.column_lt
  refine { h with column_lt := ?_ }
  show t.column + _ < t.columns
  split <;> omega

theorem cursorBackward_inv {t : Terminal} (h : Inv t) : Inv t.cursorBackward := by
  have hc := h.column_lt
  refine { h with column_lt := ?_ }
  show t.column - _ < t.columns
  omega

theorem cursorColumn_inv {t : Terminal} (h : Inv t) : Inv t.cursorColumn := by
  have hc := h.column_lt
  refine { h with column_lt := ?_ }
  show (if t.ansiAmount < t.columns then t.ansiAmount - 1 else t.columns - 1) < t.columns
  split <;> omega

theorem publicCommand_inv {t : Terminal} (h : Inv t) (command : UInt8) : Inv (t.publicCommand command) := by
  refine publicCommand_cases Inv t command (cursorPosition_inv h) (cursorUp_inv h) (cursorDown_inv h) (cursorForward_inv h)
    (cursorBackward_inv h) (cursorColumn_inv h) (fun _ => clear_inv h) (eraseLine_inv h _) (fun _ => ?_) { h with }
    (restoreCursor_inv h) h
  exact foldl_invariant Inv (fun _ _ hu => ansiSgr_inv hu _) _ h

theorem ansiCommand_inv {t : Terminal} (h : Inv t) (command : UInt8) : Inv (t.ansiCommand command) := by
  unfold ansiCommand
  split
  · split
    · exact { h with }
    · exact h
  · exact coverCursor_inv (publicCommand_inv h command)

/-! ## Bytes -/

theorem writeEscape_inv {t : Terminal} (h : Inv t) (text : UInt8) : Inv (t.writeEscape text) := by
  unfold writeEscape
  split
  · exact { h with }
  · split
    · exact { h with }
    · split
      · exact { restoreCursor_inv h with }
      · exact { h with }

theorem writeCsi_inv {t : Terminal} (h : Inv t) (text : UInt8) : Inv (t.writeCsi text) := by
  unfold writeCsi writeDigit
  dsimp only
  split
  · split
    · exact { h with }
    · exact { h with }
  · split
    · split
      · exact { h with }
      · exact { h with }
    · split
      · exact { h with }
      · split
        · exact { h with }
        · split
          · exact { h with }
          · exact { ansiCommand_inv h text with }

theorem writeGround_inv {t : Terminal} (h : Inv t) (text : UInt8) (hne : text ≠ 0) : Inv (t.writeGround text) := by
  unfold writeGround
  split
  · exact { h with }
  · split
    · exact appendLine_inv h.toCore true
    · split
      · exact { h with column_lt := h.indices.columns_pos }
      · split
        · exact backspace_inv h
        · split
          · exact tab_inv h
          · exact putCharacter_inv h hne

/-- Every byte keeps the invariant. -/
theorem writeByte_inv {t : Terminal} (h : Inv t) (text : UInt8) : Inv (t.writeByte text) := by
  unfold writeByte
  split
  · exact h
  · rename_i hne
    split
    · exact writeEscape_inv h text
    · exact writeCsi_inv h text
    · exact writeGround_inv h text hne

end Terminal
end TabOS
