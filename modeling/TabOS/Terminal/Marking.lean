import TabOS.Terminal.Redraw

/-!
# Marking

`Marks t u` says that `u` marks the cells that it shows differently than `t`. It is a preorder, every editing function is in it but
for two: `backspace`, where it clears a line, and `ansi_command`, where it clears the screen and renders at once.
-/

namespace TabOS
namespace Terminal

open Library

variable {t u v : Terminal}

/-- The fields that drawing reads and no editing function writes. -/
structure SamePaper (t u : Terminal) : Prop where
  framebuffer : u.framebuffer = t.framebuffer
  scale : u.scale = t.scale
  columns : u.columns = t.columns
  rows : u.rows = t.rows
  foreground : u.foreground = t.foreground
  background : u.background = t.background
  enabled : u.renderingEnabled = t.renderingEnabled

theorem SamePaper.trans (h : SamePaper t u) (h' : SamePaper u v) : SamePaper t v :=
  ⟨h'.framebuffer.trans h.framebuffer, h'.scale.trans h.scale, h'.columns.trans h.columns, h'.rows.trans h.rows,
    h'.foreground.trans h.foreground, h'.background.trans h.background, h'.enabled.trans h.enabled⟩

/-- A full redraw is to come, or none was to come and every cell is dirty, or is as clean as it was and looks as it did. -/
def CellsMarked (t u : Terminal) : Prop :=
  u.fullRedraw = true ∨ t.fullRedraw = false ∧ ∀ row column, row < t.rows → column < t.columns →
    u.dirtyCells row column = true ∨
      t.dirtyCells row column = false ∧ u.shown (u.dirtyCell row column) = t.shown (t.dirtyCell row column)

/-- The cells that look different are marked. -/
structure Marks (t u : Terminal) : Prop extends SamePaper t u where
  marked : CellsMarked t u

namespace Marks

theorem trans (h : Marks t u) (h' : Marks u v) : Marks t v := by
  refine { toSamePaper := h.toSamePaper.trans h'.toSamePaper, marked := ?_ }
  rcases h'.marked with hfull | ⟨hclear, hcells'⟩
  · exact Or.inl hfull
  · rcases h.marked with hfull | ⟨hclear', hcells⟩
    · rw [hclear] at hfull
      nomatch hfull
    · refine Or.inr ⟨hclear', fun row column hr hc => ?_⟩
      rcases hcells' row column (h.rows ▸ hr) (h.columns ▸ hc) with hdirty | ⟨hclean, hlook'⟩
      · exact Or.inl hdirty
      · rcases hcells row column hr hc with hdirty | ⟨hclean', hlook⟩
        · rw [hclean] at hdirty
          nomatch hdirty
        · exact Or.inr ⟨hclean', hlook'.trans hlook⟩

/-- A function that leaves the marks and the look of every cell. -/
theorem of_look (h : SamePaper t u) (hdirty : u.dirtyCells = t.dirtyCells) (hfull : u.fullRedraw = t.fullRedraw)
    (hlook : ∀ row column, row < t.rows → column < t.columns →
      u.shown (u.dirtyCell row column) = t.shown (t.dirtyCell row column)) : Marks t u := by
  refine { toSamePaper := h, marked := ?_ }
  cases hf : t.fullRedraw with
  | true => exact Or.inl (hfull.trans hf)
  | false =>
    refine Or.inr ⟨hf, fun row column hr hc => ?_⟩
    cases hd : t.dirtyCells row column with
    | true => exact Or.inl ((congrFun (congrFun hdirty row) column).trans hd)
    | false => exact Or.inr ⟨rfl, hlook row column hr hc⟩

theorem refl (t : Terminal) : Marks t t := of_look ⟨rfl, rfl, rfl, rfl, rfl, rfl, rfl⟩ rfl rfl fun _ _ _ _ => rfl

end Marks

/-! ## Marks keep terminals tracked -/

theorem drawCell_of_samePaper (h : SamePaper t u) : u.drawCell = t.drawCell := by
  funext column row cell cursor pixels
  unfold drawCell cellWidth cellHeight
  rw [h.framebuffer, h.scale, h.foreground, h.background]

theorem tile_of_samePaper (h : SamePaper t u) : Tile u = Tile t := by
  funext column row a
  unfold Tile cellWidth cellHeight
  rw [h.framebuffer, h.scale]

theorem SamePaper.fitted (h : SamePaper t u) (hf : Fitted t) : Fitted u := by
  obtain ⟨hs, hc, hx, hy⟩ := hf
  refine ⟨h.scale ▸ hs, h.columns ▸ hc, ?_, ?_⟩
  · rw [cellWidth, h.scale, h.columns, h.framebuffer]
    exact hx
  · rw [cellHeight, h.scale, h.rows, h.framebuffer]
    exact hy

theorem SamePaper.live (h : SamePaper t u) (hl : Live t) (hi : Inv u) : Live u :=
  { toInv := hi, toFitted := h.fitted hl.toFitted, enabled := h.enabled.trans hl.enabled }

/-- A terminal that marks what it changes of a tracked terminal is tracked. -/
theorem Marks.tracked {excused : Nat → Prop} (h : Marks t u) (hl : Live t) (hi : Inv u) (htracked : Tracked t excused) :
    Tracked u excused := by
  have hf := h.fitted hl.toFitted
  have htile := tile_of_samePaper h.toSamePaper
  rcases h.marked with hfull | ⟨hclear, hcells⟩
  · exact Or.inl hfull
  · refine Or.inr fun a => ?_
    have hpixel := (htracked.resolve_left (by rw [hclear]; decide)) a
    rw [h.framebuffer]
    by_cases hgrid : GridTile t a
    · obtain ⟨row, hr, column, hc, ha⟩ := hgrid
      have hr' : row < u.rows := h.rows.symm ▸ hr
      have hc' : column < u.columns := h.columns.symm ▸ hc
      have ha' : Tile u column row a := htile ▸ ha
      rcases hcells row column hr hc with hdirty | ⟨hclean, hlook⟩
      · exact Or.inr (Or.inl ⟨column, row, hc', hr', hdirty, ha'⟩)
      · have hsame : u.drawAll t.framebuffer.pixels a = t.drawAll t.framebuffer.pixels a := by
          rw [drawAll_apply hf hi hc' hr' ha', drawAll_apply hl.toFitted hl.toInv hc hr ha,
            ← drawCell_shown u, hlook, drawCell_of_samePaper h.toSamePaper, drawCell_shown t]
        rw [hsame]
        refine hpixel.imp_right fun hrest => hrest.imp_left fun hdirty => ?_
        obtain ⟨c, r, _, _, hdirty, hat⟩ := hdirty
        rw [← hat.1, ← hat.2, ha.1, ha.2, hclean] at hdirty
        nomatch hdirty
    · have hgrid' : ¬GridTile u a := by
        unfold GridTile RowTile at hgrid ⊢
        rwa [h.rows, h.columns, htile]
      rw [drawAll_outside hf hi.toCore hgrid', h.framebuffer, h.background]
      rw [drawAll_outside hl.toFitted hl.toCore hgrid] at hpixel
      refine hpixel.imp_right fun hrest => hrest.imp_left fun hdirty => ?_
      obtain ⟨c, r, hc, hr, _, hat⟩ := hdirty
      exact absurd ⟨r, hr, c, hc, hat⟩ hgrid

/-! ## The view -/

theorem followLiveOutput_marks (t : Terminal) : Marks t t.followLiveOutput := by
  rw [followLiveOutput_eq]
  by_cases hview : t.viewportTop = t.liveViewportTop
  · refine Marks.of_look ⟨rfl, rfl, rfl, rfl, rfl, rfl, rfl⟩ rfl ?_ fun row column _ _ => ?_
    · simp [hview]
    · rw [← hview]
      rfl
  · exact { framebuffer := rfl, scale := rfl, columns := rfl, rows := rfl, foreground := rfl, background := rfl, enabled := rfl,
            marked := Or.inl (by simp [hview]) }

theorem Marks.followLiveOutput (h : Marks t u) : Marks t u.followLiveOutput := h.trans (followLiveOutput_marks u)

/-- A cell of the screen is dirty after it is marked. -/
theorem markedCells_self (line : Nat) {column : Nat} (hc : column < t.columns) (hge : t.viewportTop ≤ line)
    (hlt : line < t.viewportTop + t.rows) : t.markedCells line column (line - t.viewportTop) column = true := by
  unfold markedCells
  rw [if_neg (by omega), Function.update_self, Function.update_self]

/-- Marking a cell keeps the dirty cells dirty. -/
theorem markedCells_of_dirty {line column row x : Nat} (h : t.dirtyCells row x = true) :
    t.markedCells line column row x = true := by
  unfold markedCells
  split
  · exact h
  · by_cases hrow : row = line - t.viewportTop
    · subst hrow
      rw [Function.update_self]
      by_cases hx : x = column
      · rw [hx, Function.update_self]
      · rw [Function.update_of_ne hx]
        exact h
    · rw [Function.update_of_ne hrow]
      exact h

/-- A function that changes the look of one cell, which it marks. -/
theorem Marks.of_markedCells {line column : Nat} (h : SamePaper t u) (hdirty : u.dirtyCells = t.markedCells line column)
    (hfull : u.fullRedraw = t.fullRedraw) (hlook : ∀ row x, row < t.rows → x < t.columns →
      t.viewportTop + row ≠ line ∨ x ≠ column → u.shown (u.dirtyCell row x) = t.shown (t.dirtyCell row x)) : Marks t u := by
  refine { toSamePaper := h, marked := ?_ }
  cases hf : t.fullRedraw with
  | true => exact Or.inl (hfull.trans hf)
  | false =>
    refine Or.inr ⟨hf, fun row x hr hx => ?_⟩
    rw [hdirty]
    cases hd : t.dirtyCells row x with
    | true => exact Or.inl (markedCells_of_dirty hd)
    | false =>
      by_cases hcell : t.viewportTop + row ≠ line ∨ x ≠ column
      · exact Or.inr ⟨rfl, hlook row x hr hx hcell⟩
      · obtain ⟨rfl, rfl⟩ : t.viewportTop + row = line ∧ x = column := by
          constructor <;> (by_contra hne; exact hcell (by tauto))
        have hself := markedCells_self (t.viewportTop + row) hx (Nat.le_add_right _ _) (by omega)
        rw [Nat.add_sub_cancel_left] at hself
        exact Or.inl hself

theorem markCell_marks (t : Terminal) (line column : Nat) : Marks t (t.markCell line column) := by
  rw [markCell_eq]
  exact Marks.of_markedCells ⟨rfl, rfl, rfl, rfl, rfl, rfl, rfl⟩ rfl rfl fun _ _ _ _ _ => rfl

/-! ## Output -/

/-- Writing a retained line's cells leaves the other lines that are shown. -/
theorem dirtyCell_update_of_ne (h : Core t) (hview : t.firstLine ≤ t.viewportTop) {line row : Nat}
    (hge : t.firstLine ≤ line) (hle : line ≤ t.lastLine) (hne : t.viewportTop + row ≠ line) (column : Nat) (cells : Nat → Cell) :
    (if t.viewportTop + row ≤ t.lastLine then
        Function.update t.cells (line % t.lineCapacity) cells ((t.viewportTop + row) % t.lineCapacity) column
      else Cell.empty) = t.dirtyCell row column := by
  have hw := h.indices.window
  unfold dirtyCell
  split
  · rw [update_slot_of_ne _ _ hne (by omega) (by omega)]
    rfl
  · rfl

theorem storeCharacter_marks (h : Inv t) (hcov : Covered t) (character : UInt8) : Marks t (t.storeCharacter character) := by
  have hcurrent := (firstLine_le_live t).trans h.live_le_current
  rw [storeCharacter_eq]
  refine Marks.of_markedCells ⟨rfl, rfl, rfl, rfl, rfl, rfl, rfl⟩ rfl rfl fun row x _ _ hcell => ?_
  refine congrArg t.shown ?_
  by_cases hline : t.viewportTop + row = t.currentLine
  · have hx : x ≠ t.column := hcell.resolve_left fun hne => hne hline
    unfold dirtyCell
    rw [hline]
    simp only [lineCells, lineSlot, Function.update_self, Function.update_of_ne hx]
  · exact dirtyCell_update_of_ne h.toCore h.first_le_viewport hcurrent hcov hline _ _

/-- Opening the line below the last one shows what was shown. -/
theorem dirtyCell_openLine {capacity first top last row column : Nat} (hw : last + 1 - first < capacity) (hfirst : first ≤ top)
    (cells : Nat → Nat → Cell) :
    (if top + row ≤ last + 1 then
        Function.update cells ((last + 1) % capacity) (fun _ => Cell.empty) ((top + row) % capacity) column
      else Cell.empty) = if top + row ≤ last then cells ((top + row) % capacity) column else Cell.empty := by
  by_cases hle : top + row ≤ last
  · rw [if_pos hle, if_pos (by omega), update_slot_of_ne _ _ (by omega) (by omega) (by omega)]
  · rw [if_neg hle]
    split
    · rw [show top + row = last + 1 by omega, Function.update_self]
    · rfl

/-- A new last line is blank where there was nothing, and when the first line goes, the screen moves. -/
theorem appendLine_marks (h : Core t) (hfirst : t.firstLine ≤ t.viewportTop) (hview : t.viewportTop ≤ t.liveViewportTop)
    (hcov : Covered t) (hardBreak : Bool) : Marks t (t.appendLine hardBreak) := by
  have hw := h.indices.window
  rcases Nat.lt_or_ge t.currentLine t.lastLine with hlt | hge
  · rw [appendLine_of_lt t hardBreak hlt hw]
    exact Marks.followLiveOutput (Marks.of_look ⟨rfl, rfl, rfl, rfl, rfl, rfl, rfl⟩ rfl rfl fun _ _ _ _ => rfl)
  · have hlast : t.currentLine = t.lastLine := Nat.le_antisymm hcov hge
    rw [appendLine_of_ge t hardBreak hge, hlast]
    by_cases hevict : t.lineCapacity < t.lastLine + 1 - t.firstLine + 1
    · rw [followLiveOutput_eq]
      refine { framebuffer := rfl, scale := rfl, columns := rfl, rows := rfl, foreground := rfl, background := rfl,
               enabled := rfl, marked := Or.inl ?_ }
      have hcapacity := h.capacity
      have hscrollback : terminalScrollbackLines = 256 := rfl
      rw [liveViewportTop_eq] at hview
      have hmoves : t.viewportTop ≠ max (t.lastLine + 1 + 1 - t.rows) (t.firstLine + 1) := by omega
      refine (Bool.or_eq_true _ _).mpr (Or.inr (decide_eq_true ?_))
      rw [liveViewportTop_eq]
      dsimp only
      rwa [if_pos hevict]
    · refine Marks.followLiveOutput (Marks.of_look ⟨rfl, rfl, rfl, rfl, rfl, rfl, rfl⟩ rfl rfl fun row column _ _ => ?_)
      have hfits : t.lastLine + 1 - t.firstLine < t.lineCapacity := by omega
      exact congrArg t.shown (dirtyCell_openLine hfits hfirst t.cells)

theorem putCharacter_marks (h : Inv t) (hcov : Covered t) {character : UInt8} (hne : character ≠ 0) :
    Marks t (t.putCharacter character) := by
  have hstore := storeCharacter_marks h hcov character
  have hcore := storeCharacter_core h hne
  rw [putCharacter_eq]
  split
  · refine hstore.trans (appendLine_marks hcore ?_ ?_ ?_ false)
    · rw [storeCharacter_eq]
      exact h.first_le_viewport
    · rw [storeCharacter_eq]
      exact h.viewport_le_live
    · rw [storeCharacter_eq]
      exact hcov
  · exact hstore

theorem tab_marks (h : Inv t) (hcov : Covered t) : Marks t t.tab := by
  have hstep : ∀ (u : Terminal) (_ : Nat), (Inv u ∧ Covered u) ∧ Marks t u →
      (Inv (u.putCharacter 32) ∧ Covered (u.putCharacter 32)) ∧ Marks t (u.putCharacter 32) := by
    intro u _ ⟨⟨hi, hc⟩, hm⟩
    exact ⟨⟨putCharacter_inv hi (by decide), putCharacter_covered hi hc (by decide)⟩,
      hm.trans (putCharacter_marks hi hc (by decide))⟩
  exact (foldl_invariant (fun u => (Inv u ∧ Covered u) ∧ Marks t u) hstep _ ⟨⟨h, hcov⟩, Marks.refl t⟩).2

/-! ## Backspace -/

/-- The line that the viewport has at its top after `backspace` has given up the current line, if it does. -/
def viewportAfterDrop (t : Terminal) : Nat :=
  if t.lastLine = t.currentLine then max (t.lastLine - t.rows) t.firstLine else t.liveViewportTop

/-- At column 0, where `backspace` clears the current line and marks none of its cells: a full redraw is to come, or the viewport
moves, or every cell of the line on the screen is dirty or looks empty. -/
def EraseMarked (t : Terminal) : Prop :=
  t.column = 0 → t.backspaceStops = false → t.fullRedraw = true ∨ t.viewportTop ≠ t.viewportAfterDrop ∨
    ∀ column < t.columns, t.viewportTop ≤ t.currentLine → t.currentLine < t.viewportTop + t.rows →
      t.dirtyCells (t.currentLine - t.viewportTop) column = true ∨
        t.shown (t.lineCells t.currentLine column) = t.shown Cell.empty

instance (t : Terminal) : Decidable (EraseMarked t) := by
  unfold EraseMarked
  infer_instance

theorem backspaceCell_marks (h : Core t) (hfirst : t.firstLine ≤ t.viewportTop) (hcov : Covered t) :
    Marks t t.backspaceCell := by
  have hcurrent := (firstLine_le_live t).trans h.live_le_current
  by_cases hc : 0 < t.column
  · rw [backspaceCell_eq t hc]
    refine Marks.of_markedCells ⟨rfl, rfl, rfl, rfl, rfl, rfl, rfl⟩ rfl rfl fun row x _ _ hcell => ?_
    refine congrArg t.shown ?_
    by_cases hline : t.viewportTop + row = t.currentLine
    · have hx : x ≠ t.column - 1 := hcell.resolve_left fun hne => hne hline
      unfold dirtyCell
      rw [hline]
      simp only [lineCells, lineSlot, Function.update_self, Function.update_of_ne hx]
    · exact dirtyCell_update_of_ne h hfirst hcurrent hcov hline _ _
  · rw [backspaceCell_of_zero t hc]
    exact Marks.refl t

/-- Clearing the current line and going back shows what was shown, up to the line cleared. -/
theorem backspaceLine_marks (h : Inv t) (hcov : Covered t)
    (herase : t.fullRedraw = true ∨ ∀ column < t.columns, t.viewportTop ≤ t.currentLine →
      t.currentLine < t.viewportTop + t.rows → t.dirtyCells (t.currentLine - t.viewportTop) column = true ∨
        t.shown (t.lineCells t.currentLine column) = t.shown Cell.empty) : Marks t t.backspaceLine := by
  have hcurrent := (firstLine_le_live t).trans h.live_le_current
  rw [backspaceLine_eq]
  refine { framebuffer := rfl, scale := rfl, columns := rfl, rows := rfl, foreground := rfl, background := rfl, enabled := rfl,
           marked := ?_ }
  cases hf : t.fullRedraw with
  | true => exact Or.inl rfl
  | false =>
    have hcells := herase.resolve_left (by rw [hf]; decide)
    refine Or.inr ⟨hf, fun row x hr hx => ?_⟩
    cases hd : t.dirtyCells row x with
    | true => exact Or.inl rfl
    | false =>
      refine Or.inr ⟨rfl, ?_⟩
      by_cases hline : t.viewportTop + row = t.currentLine
      · have hold : t.dirtyCell row x = t.lineCells t.currentLine x := by
          unfold dirtyCell
          rw [hline, if_pos (show t.currentLine ≤ t.lastLine from hcov)]
        have hempty := hcells x hx (by omega) (by omega)
        rw [show t.currentLine - t.viewportTop = row by omega, hd] at hempty
        rw [hold, hempty.resolve_left (by decide)]
        refine congrArg t.shown ?_
        unfold dirtyCell
        rw [hline]
        simp only [lineCells, lineSlot, Function.update_self, ite_self]
      · have hne := dirtyCell_update_of_ne h.toCore h.first_le_viewport hcurrent hcov hline x fun _ => Cell.empty
        refine congrArg t.shown (Eq.trans ?_ hne)
        unfold dirtyCell
        by_cases hlast : t.lastLine = t.currentLine
        · have hiff : t.viewportTop + row ≤ t.lastLine - 1 ↔ t.viewportTop + row ≤ t.lastLine := by omega
          simp only [if_pos hlast, hiff]
          rfl
        · simp only [if_neg hlast]
          rfl

/-- The screen after `backspace` at column 0 starts at `viewportAfterDrop`. -/
theorem backspaceLine_live (h : Inv t) (hs : t.backspaceStops = false) :
    t.backspaceLine.backspaceCell.liveViewportTop = t.viewportAfterDrop := by
  have hfirst := (backspaceStops_eq_false hs).1
  have hcurrent := (firstLine_le_live t).trans h.live_le_current
  have hcell : t.backspaceLine.backspaceCell.liveViewportTop = t.backspaceLine.liveViewportTop := by
    by_cases hc : 0 < t.backspaceLine.column
    · rw [backspaceCell_eq _ hc]
      rfl
    · rw [backspaceCell_of_zero _ hc]
  rw [hcell, liveViewportTop_eq, backspaceLine_eq, viewportAfterDrop]
  dsimp only
  split
  · omega
  · rw [liveViewportTop_eq]

theorem backspaceCell_viewportTop (t : Terminal) : t.backspaceCell.viewportTop = t.viewportTop := by
  by_cases hc : 0 < t.column
  · rw [backspaceCell_eq t hc]
  · rw [backspaceCell_of_zero t hc]

theorem SamePaper.backspaceCell (t : Terminal) : SamePaper t t.backspaceCell := by
  by_cases hc : 0 < t.column
  · rw [backspaceCell_eq t hc]
    exact ⟨rfl, rfl, rfl, rfl, rfl, rfl, rfl⟩
  · rw [backspaceCell_of_zero t hc]
    exact ⟨rfl, rfl, rfl, rfl, rfl, rfl, rfl⟩

/-- `backspace` marks what it changes, if the line that it may clear is marked. -/
theorem backspace_marks (h : Inv t) (hcov : Covered t) (herase : EraseMarked t) : Marks t t.backspace := by
  unfold backspace
  split
  · rename_i hcolumn
    split
    · exact Marks.refl t
    · rename_i hs
      have hstops := Bool.eq_false_iff.2 hs
      have hview : t.backspaceLine.viewportTop = t.viewportTop := by rw [backspaceLine_eq]
      have hfirst : t.backspaceLine.firstLine ≤ t.backspaceLine.viewportTop := by
        rw [backspaceLine_eq]
        exact h.first_le_viewport
      have hcell := backspaceCell_marks (backspaceLine_core h hstops) hfirst (backspaceLine_covered hcov)
      by_cases hmoves : t.viewportTop = t.viewportAfterDrop
      · have hline := (herase hcolumn hstops).imp_right fun hrest => hrest.resolve_left fun hne => hne hmoves
        exact ((backspaceLine_marks h hcov hline).trans hcell).followLiveOutput
      · have hpaper : SamePaper t t.backspaceLine := by
          rw [backspaceLine_eq]
          exact ⟨rfl, rfl, rfl, rfl, rfl, rfl, rfl⟩
        refine { toSamePaper := (hpaper.trans (SamePaper.backspaceCell _)).trans (followLiveOutput_marks _).toSamePaper,
                 marked := Or.inl ?_ }
        rw [followLiveOutput_eq]
        simp only [backspaceLine_live h hstops, backspaceCell_viewportTop, hview, Bool.or_eq_true, decide_eq_true_eq]
        exact Or.inr hmoves
  · exact (backspaceCell_marks h.toCore h.first_le_viewport hcov).followLiveOutput

end Terminal
end TabOS
