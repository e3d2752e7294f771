import TabOS.Terminal.Invariant

/-!
# The representation over whole runs

Every operation keeps the invariant, from the terminal that an initialisation makes, and every one but a write that restores the
cursor with `ESC 8` below the last line keeps the cursor on a retained line.
-/

namespace TabOS
namespace Terminal

open Library

/-! ## The cursor's line is retained -/

theorem appendLine_covered {t : Terminal} (h : Core t) (hardBreak : Bool) : Covered (t.appendLine hardBreak) := by
  rcases Nat.lt_or_ge t.currentLine t.lastLine with hlt | hge
  · rw [appendLine_of_lt t hardBreak hlt h.indices.window, followLiveOutput_eq]
    exact hlt
  · rw [appendLine_of_ge t hardBreak hge, followLiveOutput_eq]
    exact Nat.le_refl _

theorem putCharacter_covered {t : Terminal} (h : Inv t) (hcov : Covered t) {character : UInt8} (hne : character ≠ 0) :
    Covered (t.putCharacter character) := by
  rw [putCharacter_eq]
  split
  · exact appendLine_covered (storeCharacter_core h hne) false
  · rw [storeCharacter_eq]
    exact hcov

theorem tab_covered {t : Terminal} (h : Inv t) (hcov : Covered t) : Covered t.tab := by
  unfold tab
  have hstep : ∀ (u : Terminal) (_ : Nat), (Inv u ∧ Covered u) → Inv (u.putCharacter 32) ∧ Covered (u.putCharacter 32) :=
    fun u _ hu => ⟨putCharacter_inv hu.1 (by decide), putCharacter_covered hu.1 hu.2 (by decide)⟩
  exact (foldl_invariant (fun u => Inv u ∧ Covered u) hstep _ ⟨h, hcov⟩).2

theorem backspaceCell_covered {t : Terminal} (h : Covered t) : Covered t.backspaceCell := by
  by_cases hc : 0 < t.column
  · rw [backspaceCell_eq t hc]
    exact h
  · rw [backspaceCell_of_zero t hc]
    exact h

theorem backspaceLine_covered {t : Terminal} (h : Covered t) : Covered t.backspaceLine := by
  unfold Covered at h
  rw [backspaceLine_eq]
  show t.currentLine - 1 ≤ if t.lastLine = t.currentLine then t.lastLine - 1 else t.lastLine
  split <;> omega

theorem backspace_covered {t : Terminal} (h : Covered t) : Covered t.backspace := by
  unfold backspace
  split
  · split
    · exact h
    · rw [followLiveOutput_eq]
      exact backspaceCell_covered (backspaceLine_covered h)
  · rw [followLiveOutput_eq]
    exact backspaceCell_covered h

theorem ansiCommand_covered {t : Terminal} (h : Covered t) (command : UInt8) : Covered (t.ansiCommand command) := by
  unfold ansiCommand
  split
  · split
    · exact h
    · exact h
  · exact coverCursor_covered _

theorem writeCsi_covered {t : Terminal} (h : Covered t) (text : UInt8) : Covered (t.writeCsi text) := by
  unfold writeCsi writeDigit
  dsimp only
  refine iteInduction (fun _ => ?_) fun _ => ?_
  · exact iteInduction (fun _ => h) fun _ => h
  · refine iteInduction (fun _ => ?_) fun _ => ?_
    · exact iteInduction (fun _ => h) fun _ => h
    · refine iteInduction (fun _ => h) fun _ => iteInduction (fun _ => h) fun _ => ?_
      exact iteInduction (motive := Covered) (fun _ => h) fun _ => ansiCommand_covered h text

theorem writeGround_covered {t : Terminal} (h : Inv t) (hcov : Covered t) {text : UInt8} (hne : text ≠ 0) :
    Covered (t.writeGround text) := by
  unfold writeGround
  refine iteInduction (fun _ => hcov) fun _ => iteInduction (fun _ => appendLine_covered h.toCore true) fun _ =>
    iteInduction (fun _ => hcov) fun _ => iteInduction (fun _ => backspace_covered hcov) fun _ =>
    iteInduction (fun _ => tab_covered h hcov) fun _ => putCharacter_covered h hcov hne

/-- A byte that completes `ESC 8` finds the saved line, or the end of the live screen, among the lines up to the last. -/
def RestoreInside (t : Terminal) (text : UInt8) : Prop :=
  t.ansiState = .escape → text = 56 → t.savedLine ≤ t.lastLine ∨ t.liveViewportBottom ≤ t.lastLine

instance (t : Terminal) (text : UInt8) : Decidable (RestoreInside t text) := by
  unfold RestoreInside
  infer_instance

/-- `ESC 8` leaves the cursor on a retained line exactly when the saved line, or the end of the live screen, is one. -/
theorem restoreCursor_covered_iff {t : Terminal} (h : Inv t) :
    Covered t.restoreCursor ↔ t.savedLine ≤ t.lastLine ∨ t.liveViewportBottom ≤ t.lastLine := by
  have hlive := liveViewportTop_le_lastLine t h.indices.rows_pos h.indices.first_le_last
  show t.restoredLine ≤ t.lastLine ↔ _
  rw [restoredLine_eq]
  omega

theorem writeEscape_covered_iff {t : Terminal} (h : Inv t) (hcov : Covered t) (text : UInt8) :
    Covered (t.writeEscape text) ↔ (text = 56 → t.savedLine ≤ t.lastLine ∨ t.liveViewportBottom ≤ t.lastLine) := by
  have hother : text ≠ 56 →
      (Covered t ↔ (text = 56 → t.savedLine ≤ t.lastLine ∨ t.liveViewportBottom ≤ t.lastLine)) :=
    fun hne => ⟨fun _ h56 => absurd h56 hne, fun _ => hcov⟩
  unfold writeEscape
  split
  · exact hother (by rename_i h91; rw [h91]; decide)
  · split
    · exact hother (by rename_i h55; rw [h55]; decide)
    · split
      · rename_i h56
        exact (restoreCursor_covered_iff h).trans ⟨fun hr _ => hr, fun hr => hr h56⟩
      · rename_i hne
        exact hother hne

/-- A byte keeps the cursor on a retained line exactly when it does not restore it below the last one. -/
theorem writeByte_covered_iff {t : Terminal} (h : Inv t) (hcov : Covered t) (text : UInt8) :
    Covered (t.writeByte text) ↔ RestoreInside t text := by
  unfold writeByte RestoreInside
  split
  · rename_i h0
    exact ⟨fun _ _ h56 => absurd (h0.symm.trans h56) (by decide), fun _ => hcov⟩
  · rename_i hne
    cases hstate : t.ansiState with
    | escape => exact (writeEscape_covered_iff h hcov text).trans ⟨fun hr _ => hr, fun hr => hr rfl⟩
    | csi => exact ⟨fun _ hs => (nomatch hs), fun _ => writeCsi_covered hcov text⟩
    | ground => exact ⟨fun _ hs => (nomatch hs), fun _ => writeGround_covered h hcov hne⟩

/-! ## Operations -/

theorem markCursor_inv {t : Terminal} (h : Inv t) : Inv t.markCursor := markCell_inv h _ _

theorem beginWrite_inv {t : Terminal} (h : Inv t) : Inv t.beginWrite := { markCursor_inv h with }

theorem endWrite_inv {t : Terminal} (h : Inv t) : Inv t.endWrite :=
  render_inv (markCursor_inv (followLiveOutput_inv h.toCore h.column_lt))

theorem writeBytes_inv {t : Terminal} (h : Inv t) (data : List UInt8) : Inv (t.writeBytes data) :=
  endWrite_inv (foldl_invariant Inv (fun _ _ hu => writeByte_inv hu _) data (beginWrite_inv h))

theorem setCursorVisible_inv {t : Terminal} (h : Inv t) (visible : Bool) : Inv (t.setCursorVisible visible) := by
  unfold setCursorVisible
  split
  · exact render_inv (markCursor_inv { markCursor_inv h with })
  · exact h

theorem setCursorPhase_inv {t : Terminal} (h : Inv t) (visible : Bool) : Inv (t.setCursorPhase visible) := by
  unfold setCursorPhase
  split
  · exact render_inv (markCursor_inv { markCursor_inv h with })
  · exact h

theorem scrollTo_inv {t : Terminal} (h : Inv t) {viewportTop : Nat} (hfirst : t.firstLine ≤ viewportTop)
    (hlive : viewportTop ≤ t.liveViewportTop) : Inv (t.scrollTo viewportTop) := by
  unfold scrollTo
  split
  · exact render_inv { h with first_le_viewport := hfirst, viewport_le_live := hlive }
  · exact render_inv h

theorem scrollLines_inv {t : Terminal} (h : Inv t) (lines : Int) : Inv (t.scrollLines lines) := by
  have hlive := firstLine_le_live t
  unfold scrollLines
  refine scrollTo_inv h ?_ ?_
  · split <;> split <;> omega
  · split <;> split <;> omega

theorem redraw_inv {t : Terminal} (h : Inv t) : Inv t.redraw := render_inv { h with }

theorem setRenderingEnabled_inv {t : Terminal} (h : Inv t) (enabled : Bool) : Inv (t.setRenderingEnabled enabled) := by
  unfold setRenderingEnabled
  split
  · exact h
  · dsimp only
    split
    · exact redraw_inv { h with }
    · exact { h with }

/-! ## Initialisation and resizing -/

/-- The terminal of a successful initialisation, in its geometry and its logical state. -/
structure Fresh (t : Terminal) : Prop where
  columns_pos : 0 < t.columns
  rows_pos : 0 < t.rows
  capacity : t.lineCapacity = t.rows + terminalScrollbackLines
  cells : t.cells = fun _ _ => Cell.empty
  lineLengths : t.lineLengths = fun _ => 0
  hardBreaks : t.hardBreaks = fun _ => false
  firstLine : t.firstLine = 0
  currentLine : t.currentLine = 0
  lastLine : t.lastLine = 0
  column : t.column = 0
  viewportTop : t.viewportTop = 0
  foreground : t.foreground = 0xffff
  background : t.background = 0x0000
  reverse : t.reverse = false
  ansiState : t.ansiState = .ground

/-- A successful initialisation renders a new terminal of at least one column and one row. -/
theorem terminalInitWithRendering_eq {heap : Heap} {fb : Framebuffer} {scale : Nat} {enabled : Bool} {t : Terminal}
    (h : terminalInitWithRendering heap fb scale enabled = some t) :
    0 < scale ∧ 0 < fb.width / (fontCellWidth * scale) ∧ 0 < fb.height / (fontCellHeight * scale) ∧
      t = (newTerminal fb scale enabled).render := by
  unfold terminalInitWithRendering at h
  dsimp only at h
  split at h
  · nomatch h
  · rename_i hscale
    split at h
    · nomatch h
    · split at h
      · nomatch h
      · split at h
        · nomatch h
        · rename_i hgeometry _ _
          exact ⟨Nat.pos_of_ne_zero hscale, Nat.pos_of_ne_zero fun h0 => hgeometry (Or.inl h0),
            Nat.pos_of_ne_zero fun h0 => hgeometry (Or.inr (Or.inl h0)), (Option.some.inj h).symm⟩

theorem terminalInitWithRendering_fresh {heap : Heap} {fb : Framebuffer} {scale : Nat} {enabled : Bool} {t : Terminal}
    (h : terminalInitWithRendering heap fb scale enabled = some t) : Fresh t := by
  obtain ⟨_, hcolumns, hrows, rfl⟩ := terminalInitWithRendering_eq h
  rw [render_eq]
  exact { columns_pos := hcolumns, rows_pos := hrows, capacity := rfl, cells := rfl, lineLengths := rfl, hardBreaks := rfl,
          firstLine := rfl, currentLine := rfl, lastLine := rfl, column := rfl, viewportTop := rfl, foreground := rfl,
          background := rfl, reverse := rfl, ansiState := rfl }

/-- The geometry of a successful initialisation. -/
theorem terminalInitWithRendering_grid {heap : Heap} {fb : Framebuffer} {scale : Nat} {enabled : Bool} {t : Terminal}
    (h : terminalInitWithRendering heap fb scale enabled = some t) :
    t.columns = fb.width / (fontCellWidth * scale) ∧ t.rows = fb.height / (fontCellHeight * scale) := by
  obtain ⟨_, _, _, rfl⟩ := terminalInitWithRendering_eq h
  rw [render_eq]
  exact ⟨rfl, rfl⟩

theorem Fresh.inv {t : Terminal} (h : Fresh t) : Inv t := by
  have hc := h.columns_pos
  have hr := h.rows_pos
  have hcap := h.capacity
  refine { capacity := h.capacity, indices := ?_, stored := ?_, lastSoft := ?_, column_lt := ?_, first_le_viewport := ?_,
           viewport_le_live := ?_ }
  · rw [h.firstLine, h.currentLine, h.lastLine]
    exact Indices.zero hc hr (by omega)
  · rw [h.cells, h.lineLengths]
    exact fun _ => LineStored.empty
  · rw [h.hardBreaks]
  · rw [h.column]
    exact hc
  · rw [h.firstLine]
    exact Nat.zero_le _
  · rw [h.viewportTop]
    exact Nat.zero_le _

/-- The character that a cell is written again with is not NUL. -/
theorem reflowCharacter_ne_zero (cell : Cell) : (if cell.character = 0 then 32 else cell.character) ≠ 0 :=
  iteInduction (motive := fun character : UInt8 => character ≠ 0) (fun _ => by decide) fun hne => hne

theorem reflowCell_inv {resized : Terminal} (h : Inv resized) (cell : Cell) : Inv (resized.reflowCell cell) := by
  have hcolors : Inv { resized with foreground := cell.foreground, background := cell.background, reverse := cell.reverse } :=
    { h with }
  exact putCharacter_inv hcolors (reflowCharacter_ne_zero cell)

theorem reflowLine_inv (t : Terminal) {resized : Terminal} (h : Inv resized) (line : Nat) :
    Inv (t.reflowLine resized line) := by
  have hcell : ∀ (u : Terminal) (column : Nat), Inv u → Inv (u.reflowCell (t.lineCells line column)) :=
    fun _ _ hu => reflowCell_inv hu _
  have hcells := foldl_invariant Inv hcell (List.range (t.lineLength line)) h
  unfold reflowLine
  dsimp only
  split
  · exact appendLine_inv hcells.toCore true
  · exact hcells

theorem reflow_inv (t : Terminal) {resized : Terminal} (h : Inv resized) : Inv (t.reflow resized) :=
  foldl_invariant Inv (fun _ _ hu => reflowLine_inv t hu _) _ h

/-- A viewport moved up by a distance, but not by more than is available, stays below the first line. -/
theorem le_sub_available {first top distance : Nat} (h : first ≤ top) :
    first ≤ top - (if distance < top - first then distance else top - first) := by
  split <;> omega

theorem finishResize_inv (t : Terminal) {resized : Terminal} (h : Inv resized) : Inv (t.finishResize resized) :=
  render_inv { h with
    first_le_viewport := le_sub_available (firstLine_le_live resized)
    viewport_le_live := Nat.sub_le _ _ }

theorem resize_inv {t resized : Terminal} {heap : Heap} {fb : Framebuffer} {scale : Nat}
    (h : t.resize heap fb scale = some resized) : Inv resized := by
  obtain ⟨fresh, hfresh, rfl⟩ := Option.map_eq_some_iff.1 h
  exact finishResize_inv t (reflow_inv t { (terminalInitWithRendering_fresh hfresh).inv with })

/-- Every operation keeps the invariant. -/
theorem apply_inv {t : Terminal} (h : Inv t) (op : Op) : Inv (t.apply op) := by
  cases op with
  | writeBytes data => exact writeBytes_inv h data
  | clear => exact clear_inv h
  | resize heap fb scale =>
    show Inv ((t.resize heap fb scale).getD t)
    cases hresize : t.resize heap fb scale with
    | none => exact h
    | some resized => exact resize_inv hresize
  | scrollLines lines => exact scrollLines_inv h lines
  | pageUp => exact scrollLines_inv h _
  | pageDown => exact scrollLines_inv h _
  | scrollToStart => exact scrollTo_inv h (Nat.le_refl _) (firstLine_le_live t)
  | scrollToEnd => exact render_inv (followLiveOutput_inv h.toCore h.column_lt)
  | setCursorVisible visible => exact setCursorVisible_inv h visible
  | setCursorPhase visible => exact setCursorPhase_inv h visible
  | setColors foreground background => exact { h with }
  | setRenderingEnabled enabled => exact setRenderingEnabled_inv h enabled
  | redraw => exact redraw_inv h

/-- Every run from an initialised terminal keeps the invariant. -/
theorem run_inv {heap : Heap} {fb : Framebuffer} {scale : Nat} {t : Terminal}
    (hinit : terminalInit heap fb scale = some t) (ops : List Op) : Inv (t.run ops) :=
  foldl_invariant Inv (fun _ op hu => apply_inv hu op) ops (terminalInitWithRendering_fresh hinit).inv

/-! ## The cursor's line after an operation -/

theorem render_covered {t : Terminal} (h : Covered t) : Covered t.render := by
  rw [render_eq]
  exact h

theorem markCursor_covered {t : Terminal} (h : Covered t) : Covered t.markCursor := by
  rw [markCursor_eq]
  exact h

theorem followLiveOutput_covered {t : Terminal} (h : Covered t) : Covered t.followLiveOutput := by
  rw [followLiveOutput_eq]
  exact h

theorem setCursorVisible_covered {t : Terminal} (h : Covered t) (visible : Bool) : Covered (t.setCursorVisible visible) := by
  unfold setCursorVisible
  split
  · exact render_covered (markCursor_covered (markCursor_covered h))
  · exact h

theorem setCursorPhase_covered {t : Terminal} (h : Covered t) (visible : Bool) : Covered (t.setCursorPhase visible) := by
  unfold setCursorPhase
  split
  · exact render_covered (markCursor_covered (markCursor_covered h))
  · exact h

theorem scrollTo_covered {t : Terminal} (h : Covered t) (viewportTop : Nat) : Covered (t.scrollTo viewportTop) := by
  unfold scrollTo
  split
  · exact render_covered h
  · exact render_covered h

theorem setRenderingEnabled_covered {t : Terminal} (h : Covered t) (enabled : Bool) :
    Covered (t.setRenderingEnabled enabled) := by
  unfold setRenderingEnabled
  split
  · exact h
  · dsimp only
    split
    · exact render_covered h
    · exact h

/-- The invariant with the cursor on a retained line. -/
def Good (t : Terminal) : Prop := Inv t ∧ Covered t

theorem Fresh.good {t : Terminal} (h : Fresh t) : Good t := by
  refine ⟨h.inv, ?_⟩
  unfold Covered
  rw [h.currentLine]
  exact Nat.zero_le _

theorem writeByte_good {t : Terminal} {text : UInt8} (h : Good t) (hguard : RestoreInside t text) :
    Good (t.writeByte text) :=
  ⟨writeByte_inv h.1 text, (writeByte_covered_iff h.1 h.2 text).2 hguard⟩

theorem writeBytes_covered {t : Terminal} {data : List UInt8} (h : Good t)
    (hguard : Along writeByte RestoreInside t.beginWrite data) : Covered (t.writeBytes data) := by
  have hbegin : Good t.beginWrite := ⟨beginWrite_inv h.1, markCursor_covered h.2⟩
  have hbytes := hguard.invariant Good (fun _ _ hu hr => writeByte_good hu hr) hbegin
  exact render_covered (markCursor_covered (followLiveOutput_covered hbytes.2))

theorem clear_covered (t : Terminal) : Covered t.clear := render_covered (Nat.le_refl _)

theorem reflow_good (t : Terminal) {resized : Terminal} (h : Good resized) : Good (t.reflow resized) := by
  have hcell : ∀ (line : Nat) (u : Terminal) (column : Nat), Good u → Good (u.reflowCell (t.lineCells line column)) := by
    intro line u column hu
    generalize t.lineCells line column = cell
    have hcolors : Inv { u with foreground := cell.foreground, background := cell.background, reverse := cell.reverse } :=
      { hu.1 with }
    exact ⟨reflowCell_inv hu.1 cell, putCharacter_covered hcolors hu.2 (reflowCharacter_ne_zero cell)⟩
  refine foldl_invariant Good (fun u line hu => ?_) _ h
  have hcells := foldl_invariant Good (hcell line) (List.range (t.lineLength line)) hu
  refine ⟨reflowLine_inv t hu.1 line, ?_⟩
  unfold reflowLine
  dsimp only
  split
  · exact appendLine_covered hcells.1.toCore true
  · exact hcells.2

theorem resize_covered {t resized : Terminal} {heap : Heap} {fb : Framebuffer} {scale : Nat}
    (h : t.resize heap fb scale = some resized) : Covered resized := by
  obtain ⟨fresh, hfresh, rfl⟩ := Option.map_eq_some_iff.1 h
  have hgood := (terminalInitWithRendering_fresh hfresh).good
  have hstart : Good (t.startResize fresh) := ⟨{ hgood.1 with }, hgood.2⟩
  exact render_covered (reflow_good t hstart).2

/-! ## Runs -/

/-- The bytes of a write keep off `ESC 8` below the last line. -/
def RestoresInside (t : Terminal) : Op → Prop
  | .writeBytes data => Along writeByte RestoreInside t.beginWrite data
  | _ => True

instance (t : Terminal) (op : Op) : Decidable (RestoresInside t op) := by
  cases op <;> unfold RestoresInside <;> infer_instance

theorem apply_good {t : Terminal} {op : Op} (h : Good t) (hguard : RestoresInside t op) : Good (t.apply op) := by
  refine ⟨apply_inv h.1 op, ?_⟩
  cases op with
  | writeBytes data => exact writeBytes_covered h hguard
  | clear => exact clear_covered t
  | resize heap fb scale =>
    show Covered ((t.resize heap fb scale).getD t)
    cases hresize : t.resize heap fb scale with
    | none => exact h.2
    | some resized => exact resize_covered hresize
  | scrollLines lines => exact scrollTo_covered h.2 _
  | pageUp => exact scrollTo_covered h.2 _
  | pageDown => exact scrollTo_covered h.2 _
  | scrollToStart => exact scrollTo_covered h.2 _
  | scrollToEnd => exact render_covered (followLiveOutput_covered h.2)
  | setCursorVisible visible => exact setCursorVisible_covered h.2 visible
  | setCursorPhase visible => exact setCursorPhase_covered h.2 visible
  | setColors foreground background => exact h.2
  | setRenderingEnabled enabled => exact setRenderingEnabled_covered h.2 enabled
  | redraw => exact render_covered h.2

/-- A guarded run keeps the cursor on a retained line. -/
theorem run_good {t : Terminal} (h : Good t) {ops : List Op} (hops : Along apply RestoresInside t ops) : Good (t.run ops) :=
  hops.invariant Good (fun _ _ hu hr => apply_good hu hr) h

/-- The representation of a terminal: its indices, its cursor, its viewport and its retained lines are in order. -/
structure Representation (t : Terminal) : Prop where
  first_le_current : t.firstLine ≤ t.currentLine
  current_le_last : t.currentLine ≤ t.lastLine
  window : t.lastLine - t.firstLine < t.lineCapacity
  column_lt : t.column < t.columns
  live_le_current : t.liveViewportTop ≤ t.currentLine
  current_lt_live : t.currentLine < t.liveViewportTop + t.rows
  first_le_viewport : t.firstLine ≤ t.viewportTop
  viewport_le_live : t.viewportTop ≤ t.liveViewportTop
  length_le : ∀ line, t.firstLine ≤ line → line ≤ t.lastLine → t.lineLength line ≤ t.columns
  blank : ∀ line column, t.firstLine ≤ line → line ≤ t.lastLine → t.lineLength line ≤ column → column < t.columns →
    t.lineCells line column = Cell.empty

theorem Good.representation {t : Terminal} (h : Good t) : Representation t :=
  { first_le_current := (firstLine_le_live t).trans h.1.live_le_current
    current_le_last := h.2
    window := h.1.indices.window
    column_lt := h.1.column_lt
    live_le_current := h.1.live_le_current
    current_lt_live := h.1.current_lt_live
    first_le_viewport := h.1.first_le_viewport
    viewport_le_live := h.1.viewport_le_live
    length_le := fun line _ _ => (h.1.line line).length_le
    blank := fun line column _ _ => (h.1.line line).blank column }

/-- In every state that a run reaches from an initialised terminal, the representation is in order, as long as no write of the run
restores the cursor below the last line with `ESC 8`. -/
theorem representation_of_run {heap : Heap} {fb : Framebuffer} {scale : Nat} {t : Terminal}
    (hinit : terminalInit heap fb scale = some t) {ops : List Op} (hops : Along apply RestoresInside t ops) :
    Representation (t.run ops) :=
  (run_good (terminalInitWithRendering_fresh hinit).good hops).representation

/-- The bytes `A`, newline, `ESC 7`, `ESC 8`, a clear and a scroll: the cursor is restored on the line it was saved on. -/
theorem representation_of_run_restored :
    Representation (threeByThree.run [.writeBytes [65, 10, 27, 55, 27, 56], .clear, .scrollLines (-1)]) :=
  representation_of_run threeByThree_init (by decide)

/-- `ESC [3H`, `ESC 7`, `ESC [2J` and `ESC 8` leave the cursor on line 2 of a terminal whose last line is 0. -/
theorem representation_broken : terminalInit .ample (.black 24 45) 1 = some .threeByThree ∧
    ¬Representation (threeByThree.run [.writeBytes [27, 91, 51, 72, 27, 55, 27, 91, 50, 74, 27, 56]]) :=
  ⟨rfl, fun h => absurd h.current_le_last (by decide)⟩

end Terminal
end TabOS
