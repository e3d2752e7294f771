import TabOS.Terminal.Reflow

/-!
# Scrollback and resizing

What the store retains of a stream, what a resize makes of it, and when a resize that changes nothing leaves the screen as it was:
the resize reads the hard breaks and the lengths of the lines, and the commands that move the cursor keep neither in step.
-/

namespace TabOS
namespace Terminal

open Library

/-! ## Scrollback and reflow of a stream -/

/-- The cells of a stream of plain bytes hold characters. -/
theorem plainToken_ne {data : List UInt8} (hplain : ∀ text ∈ data, Plain text) :
    ∀ cell ∈ items (data.map plainToken), cell.character ≠ 0 := by
  intro cell hcell
  obtain ⟨k, hk, hitem⟩ := List.mem_filterMap.1 hcell
  obtain ⟨text, htext, rfl⟩ := List.mem_map.1 hk
  by_cases h10 : text = 10
  · rw [plainToken, if_pos h10] at hitem
    exact absurd hitem (Option.some_ne_none _).symm
  · rw [plainToken, if_neg h10] at hitem
    obtain rfl := Option.some.inj hitem
    exact (hplain text htext).1

/-- The cells of a layout are the items of its stream. -/
theorem forall_cell_layout {columns : Nat} {ks : List (Token Cell)} (P : Cell → Prop) (h : ∀ cell ∈ items ks, P cell) :
    ∀ l ∈ (layout columns ks).lines, ∀ cell ∈ l.items, P cell := by
  intro l hl cell hcell
  refine h cell ?_
  rw [← tokens_layout columns ks, items_tokens]
  exact List.mem_flatten.2 ⟨l.items, List.mem_map_of_mem hl, hcell⟩

/-- A fresh terminal retains the last lines of the layout of the plain bytes written to it, as many as fit its store, and when it has
retained them all, a resize to any geometry retains what a fresh terminal of that geometry retains of the same writes. -/
theorem retained_of_writes {heap : Heap} {fb : Framebuffer} {scale : Nat} {t : Terminal}
    (hinit : terminalInit heap fb scale = some t) {chunks : List (List UInt8)} (hplain : ∀ text ∈ chunks.flatten, Plain text) :
    (t.run (chunks.map .writeBytes)).retained =
        (layout t.columns (chunks.flatten.map plainToken)).lines.rtake t.lineCapacity ∧
      ∀ (heap' heap'' : Heap) (fb' fb'' : Framebuffer) (scale' scale'' : Nat) (resized u : Terminal),
        (t.run (chunks.map .writeBytes)).firstLine = 0 →
        (t.run (chunks.map .writeBytes)).resize heap' fb' scale' = some resized →
        terminalInit heap'' fb'' scale'' = some u → u.columns = resized.columns → u.rows = resized.rows →
        resized.retained = (u.run (chunks.map .writeBytes)).retained := by
  have hfresh := terminalInitWithRendering_fresh hinit
  obtain ⟨hshows, hcapacity⟩ := run_writeBytes_shows hfresh hplain
  have hretained := hshows.retained_eq
  rw [hcapacity] at hretained
  refine ⟨hretained, fun heap' heap'' fb' fb'' scale' scale'' resized u hfirst hresize hinit' hcolumns hrows => ?_⟩
  have hfresh' := terminalInitWithRendering_fresh hinit'
  obtain ⟨hshows', hcapacity'⟩ := run_writeBytes_shows hfresh' hplain
  have hretained' := hshows'.retained_eq
  have hreflow := resize_shows hresize
  rw [hshows.retained_all hfirst, map_reflowedLine (forall_cell_layout _ (plainToken_ne hplain)), tokens_layout] at hreflow
  rw [hreflow.retained_eq, hretained', hcapacity', hcolumns, hfresh'.capacity, hrows, (resize_inv hresize).capacity]

/-- Three columns and three rows: `ABCD`, a newline and `E`, written in two parts, then resized to four columns. -/
theorem retained_of_writes_resized : ∃ resized u,
    (threeByThree.run [.writeBytes [65, 66, 67], .writeBytes [68, 10, 69]]).resize .ample (.black 32 45) 1 = some resized ∧
    terminalInit .ample (.black 32 45) 1 = some u ∧
    (threeByThree.run [.writeBytes [65, 66, 67], .writeBytes [68, 10, 69]]).retained =
      (layout 3 ([65, 66, 67, 68, 10, 69].map plainToken)).lines.rtake 259 ∧
    resized.retained = (u.run [.writeBytes [65, 66, 67], .writeBytes [68, 10, 69]]).retained := by
  have hplain : ∀ text ∈ [[65, 66, 67], [68, 10, 69]].flatten, Plain text := by decide +kernel
  obtain ⟨hretained, hresized⟩ := retained_of_writes threeByThree_init hplain
  obtain ⟨resized, hresize⟩ : ∃ resized,
      (threeByThree.run ([[65, 66, 67], [68, 10, 69]].map .writeBytes)).resize .ample (.black 32 45) 1 = some resized :=
    ⟨_, rfl⟩
  obtain ⟨hcolumns, hrows⟩ := resize_grid hresize
  exact ⟨resized, _, hresize, rfl, hretained, hresized .ample .ample (.black 32 45) (.black 32 45) 1 1 resized _
    (by decide +kernel) hresize rfl hcolumns.symm hrows.symm⟩

/-! ## A resize to the same geometry -/

/-- Two terminals show the same retained lines, cell by cell, and the cursor at the same line, counted from the first, and the same
column. -/
structure SameScreen (t u : Terminal) : Prop where
  cells : u.retained.map Line.items = t.retained.map Line.items
  line : u.currentLine - u.firstLine = t.currentLine - t.firstLine
  column : u.column = t.column

/-- The retained lines from the first up to a line. -/
def linesBefore (t : Terminal) (line : Nat) : List Nat := List.range' t.firstLine (line - t.firstLine)

/-- A terminal that a resize to its own geometry leaves alone: every retained cell holds a character, the cursor is at the end of
the last line, and before every line that holds a character, and before the last one, as many lines have a hard break as are
shorter than the columns. -/
structure Settled (t : Terminal) : Prop where
  filled : ∀ line column, t.firstLine ≤ line → line ≤ t.lastLine → column < t.lineLength line →
    (t.lineCells line column).character ≠ 0
  cursorLine : t.currentLine = t.lastLine
  cursorColumn : t.column = t.lineLength t.lastLine
  breaks : ∀ line, t.firstLine ≤ line → line ≤ t.lastLine → 0 < t.lineLength line ∨ line = t.lastLine →
    (t.linesBefore line).countP t.hardBreak = (t.linesBefore line).countP fun line => decide (t.lineLength line < t.columns)

/-- The lines above the last one. -/
def closedLines (t : Terminal) : List (Line Cell) := (t.linesBefore t.lastLine).map t.storedLine

/-- The retained lines are the lines above the last one, and the last one, which has no hard break. -/
theorem retained_eq_lines {t : Terminal} (h : Inv t) :
    t.retained = (Page.mk t.closedLines (t.storedLine t.lastLine).items).lines := by
  have hle := h.indices.first_le_last
  have hsoft : t.hardBreak t.lastLine = false := h.lastSoft
  have hcount : t.lastLine + 1 - t.firstLine = t.lastLine - t.firstLine + 1 := by omega
  rw [retained, hcount, List.range'_1_concat, List.map_append, Nat.add_sub_cancel' hle, Page.lines, closedLines, linesBefore,
    List.map_singleton, storedLine, hsoft]

theorem length_storedLine (t : Terminal) (line : Nat) : (t.storedLine line).items.length = t.lineLength line := by
  simp [storedLine]

theorem length_closedLines (t : Terminal) : t.closedLines.length = t.lastLine - t.firstLine := by
  simp [closedLines, linesBefore]

theorem getElem_closedLines (t : Terminal) (i : Nat) (hi : i < t.closedLines.length) :
    t.closedLines[i] = t.storedLine (t.firstLine + i) := by
  simp [closedLines, linesBefore]

theorem take_closedLines (t : Terminal) {i : Nat} (hi : i ≤ t.closedLines.length) :
    t.closedLines.take i = (t.linesBefore (t.firstLine + i)).map t.storedLine := by
  rw [length_closedLines] at hi
  rw [closedLines, linesBefore, linesBefore, ← List.map_take, List.take_range'_of_length_ge hi, Nat.add_sub_cancel_left]

/-- Every retained cell holds a character. -/
theorem filled_iff {t : Terminal} :
    (∀ line column, t.firstLine ≤ line → line ≤ t.lastLine → column < t.lineLength line →
        (t.lineCells line column).character ≠ 0) ↔
      ∀ l ∈ t.retained, ∀ cell ∈ l.items, cell.character ≠ 0 := by
  constructor
  · intro h l hl cell hcell
    obtain ⟨line, hline, rfl⟩ := List.mem_map.1 hl
    obtain ⟨column, hcolumn, rfl⟩ := List.mem_map.1 hcell
    obtain ⟨hge, hlt⟩ := List.mem_range'_1.1 hline
    exact h line column hge (by omega) (List.mem_range.1 hcolumn)
  · intro h line column hge hle hlt
    refine h (t.storedLine line) (List.mem_map_of_mem (List.mem_range'_1.2 ⟨hge, by omega⟩)) _ ?_
    exact List.mem_map_of_mem (List.mem_range.2 hlt)

/-- The hard breaks of the retained lines fall as the ends of the short lines exactly when they come to the same number before
every line that holds a character and before the last. -/
theorem breaks_iff {t : Terminal} (h : Inv t) :
    tokens t.closedLines = tokens (natural t.columns t.closedLines) ↔
      ∀ line, t.firstLine ≤ line → line ≤ t.lastLine → 0 < t.lineLength line ∨ line = t.lastLine →
        (t.linesBefore line).countP t.hardBreak =
          (t.linesBefore line).countP fun line => decide (t.lineLength line < t.columns) := by
  have hle := h.indices.first_le_last
  have hbroken : Line.broken ∘ t.storedLine = t.hardBreak := rfl
  have hshort : (fun l : Line Cell => decide (l.items.length < t.columns)) ∘ t.storedLine =
      fun line => decide (t.lineLength line < t.columns) := by
    funext line
    rw [Function.comp_apply, length_storedLine]
  have hcounts : ∀ i, i ≤ t.closedLines.length →
      ((t.closedLines.take i).countP Line.broken =
          (t.closedLines.take i).countP (fun l => decide (l.items.length < t.columns)) ↔
        (t.linesBefore (t.firstLine + i)).countP t.hardBreak =
          (t.linesBefore (t.firstLine + i)).countP fun line => decide (t.lineLength line < t.columns)) := by
    intro i hi
    rw [take_closedLines t hi, List.countP_map, List.countP_map, hbroken, hshort]
  have hall := hcounts t.closedLines.length (Nat.le_refl _)
  rw [List.take_length, length_closedLines, Nat.add_sub_cancel' hle] at hall
  rw [natural, tokens_eq_iff]
  constructor
  · rintro ⟨hlines, hlast⟩ line hge hle' hline
    by_cases heq : line = t.lastLine
    · rw [heq]
      exact hall.1 hlast
    · have hi : line - t.firstLine < t.closedLines.length := by
        rw [length_closedLines]
        omega
      have hne : t.closedLines[line - t.firstLine].items ≠ [] := by
        rw [getElem_closedLines, Nat.add_sub_cancel' hge, ← List.length_pos_iff, length_storedLine]
        exact hline.resolve_right heq
      have hcount := (hcounts _ (Nat.le_of_lt hi)).1 (hlines _ hi hne)
      rwa [Nat.add_sub_cancel' hge] at hcount
  · intro hlines
    refine ⟨fun i hi hne => (hcounts i (Nat.le_of_lt hi)).2 ?_, hall.2 (hlines _ hle (Nat.le_refl _) (Or.inr rfl))⟩
    rw [getElem_closedLines, ← List.length_pos_iff, length_storedLine] at hne
    rw [length_closedLines] at hi
    exact hlines _ (Nat.le_add_right _ _) (by omega) (Or.inl hne)

/-- The cells that are written again all hold characters. -/
theorem reflowedLine_ne (ls : List (Line Cell)) :
    ∀ cell ∈ items (tokens (ls.map reflowedLine)), cell.character ≠ 0 := by
  intro cell hcell
  rw [items_tokens, List.map_map] at hcell
  obtain ⟨cells, hcells, hmem⟩ := List.mem_flatten.1 hcell
  obtain ⟨l, _, rfl⟩ := List.mem_map.1 hcells
  obtain ⟨old, _, rfl⟩ := List.mem_map.1 hmem
  exact reflowedCell_ne old

/-- What a resize to the same geometry retains is what the old terminal did exactly when its retained cells all hold characters, its
last line does not fill the columns, and its hard breaks fall as the ends of its short lines. -/
theorem retained_cells_iff {t resized : Terminal} (h : Inv t) {heap : Heap} {fb : Framebuffer} {scale : Nat}
    (hresize : t.resize heap fb scale = some resized) (hcolumns : resized.columns = t.columns) (hrows : resized.rows = t.rows) :
    resized.retained.map Line.items = t.retained.map Line.items ↔
      (∀ l ∈ t.retained, ∀ cell ∈ l.items, cell.character ≠ 0) ∧ t.lineLength t.lastLine < t.columns ∧
        tokens t.closedLines = tokens (natural t.columns t.closedLines) := by
  have hcapacity : resized.lineCapacity = t.lineCapacity := by
    rw [(resize_inv hresize).capacity, hrows, h.capacity]
  have hwindow := h.indices.window
  have hclosed : ∀ l ∈ t.closedLines, l.items.length ≤ t.columns := by
    intro l hl
    obtain ⟨line, hline, rfl⟩ := List.mem_map.1 hl
    rw [length_storedLine]
    exact (h.line line).length_le
  have hfits : t.closedLines.length + 1 ≤ t.lineCapacity := by
    rw [length_closedLines]
    omega
  have hkeeps := layout_tokens_keeps_iff h.indices.columns_pos (t.storedLine t.lastLine).items hclosed hfits
  rw [← retained_eq_lines h, length_storedLine] at hkeeps
  have hshows := (resize_shows hresize).retained_eq
  rw [hcapacity, hcolumns] at hshows
  rw [hshows]
  constructor
  · intro hcells
    have hfilled : ∀ l ∈ t.retained, ∀ cell ∈ l.items, cell.character ≠ 0 := by
      intro l hl cell hcell
      obtain ⟨m, hm, hitems⟩ := List.mem_map.1 (hcells ▸ List.mem_map_of_mem hl)
      rw [← hitems] at hcell
      exact forall_cell_layout (fun cell => cell.character ≠ 0) (reflowedLine_ne t.retained) m (List.mem_of_mem_drop hm) cell
        hcell
    rw [map_reflowedLine hfilled] at hcells
    exact ⟨hfilled, hkeeps.1 hcells⟩
  · rintro ⟨hfilled, hsettled⟩
    rw [map_reflowedLine hfilled]
    exact hkeeps.2 hsettled

/-- A run's terminal looks the same after a resize to its own geometry exactly when it is settled. -/
theorem sameScreen_iff_settled {heap : Heap} {fb : Framebuffer} {scale : Nat} {fresh : Terminal}
    (hinit : terminalInit heap fb scale = some fresh) (ops : List Op) {heap' : Heap} {fb' : Framebuffer} {scale' : Nat}
    {resized : Terminal} (hresize : (fresh.run ops).resize heap' fb' scale' = some resized)
    (hcolumns : resized.columns = (fresh.run ops).columns) (hrows : resized.rows = (fresh.run ops).rows) :
    SameScreen (fresh.run ops) resized ↔ Settled (fresh.run ops) := by
  have h := run_inv hinit ops
  generalize fresh.run ops = t at h hresize hcolumns hrows
  have hcells := retained_cells_iff h hresize hcolumns hrows
  have hshows := resize_shows hresize
  have hold := congrArg List.length (retained_eq_lines h)
  have hfirst := h.indices.first_le_last
  have hlive := (firstLine_le_live t).trans h.live_le_current
  -- equal cells mean as many lines, and last lines of the same length
  have hlast : resized.retained.map Line.items = t.retained.map Line.items →
      resized.lastLine - resized.firstLine = t.lastLine - t.firstLine ∧
        resized.column = t.lineLength t.lastLine := by
    intro heq
    rw [retained_eq_lines (resize_inv hresize), retained_eq_lines h, Page.lines, Page.lines, List.map_append, List.map_append]
      at heq
    obtain ⟨hclosed, hopen⟩ := List.append_inj' heq rfl
    have hcount := congrArg List.length hclosed
    rw [List.length_map, List.length_map, length_closedLines, length_closedLines] at hcount
    have hlength := congrArg List.length (List.singleton_inj.1 hopen)
    dsimp only at hlength
    rw [length_storedLine, length_storedLine, ← hshows.current, hshows.lineLength_current] at hlength
    exact ⟨hcount, hlength⟩
  constructor
  · intro hsame
    obtain ⟨hcount, hcolumn⟩ := hlast hsame.cells
    obtain ⟨hfilled, _, hbreaks⟩ := hcells.1 hsame.cells
    have hline := hsame.line
    have hcurrent := hshows.current
    refine ⟨filled_iff.2 hfilled, ?_, hsame.column.symm.trans hcolumn, (breaks_iff h).1 hbreaks⟩
    omega
  · intro hsettled
    have hfits : t.lineLength t.lastLine < t.columns := hsettled.cursorColumn ▸ h.column_lt
    have hsame := hcells.2 ⟨filled_iff.1 hsettled.filled, hfits, (breaks_iff h).2 hsettled.breaks⟩
    obtain ⟨hcount, hcolumn⟩ := hlast hsame
    have hline := hsettled.cursorLine
    have hcurrent := hshows.current
    exact ⟨hsame, by omega, hcolumn.trans hsettled.cursorColumn.symm⟩

/-- A resize of three by three cells leaves `AB`, a newline and `C` on such a terminal as they are. -/
theorem sameScreen_iff_settled_two_lines : ∃ resized,
    (threeByThree.run [.writeBytes [65, 66, 10, 67]]).resize .ample (.black 24 45) 1 = some resized ∧
    SameScreen (threeByThree.run [.writeBytes [65, 66, 10, 67]]) resized := by
  obtain ⟨resized, hresize⟩ : ∃ resized,
      (threeByThree.run [.writeBytes [65, 66, 10, 67]]).resize .ample (.black 24 45) 1 = some resized := ⟨_, rfl⟩
  obtain ⟨hcolumns, hrows⟩ := resize_grid hresize
  have hsettled : Settled (threeByThree.run [.writeBytes [65, 66, 10, 67]]) :=
    ⟨filled_iff.2 (by decide +kernel), by decide +kernel, by decide +kernel,
      (breaks_iff (run_inv threeByThree_init _)).1 (by decide +kernel)⟩
  exact ⟨resized, hresize, (sameScreen_iff_settled threeByThree_init _ hresize (hcolumns.trans (by decide +kernel))
    (hrows.trans (by decide +kernel))).2 hsettled⟩

/-- `A`, `ESC [2;1H` and `B` stand on two lines, and a resize to the same geometry puts them on one. -/
theorem sameScreen_broken : ∃ resized, terminalInit .ample (.black 24 45) 1 = some .threeByThree ∧
    (threeByThree.run [.writeBytes [65, 27, 91, 50, 59, 49, 72, 66]]).resize .ample (.black 24 45) 1 = some resized ∧
    resized.columns = 3 ∧ resized.rows = 3 ∧
    (threeByThree.run [.writeBytes [65, 27, 91, 50, 59, 49, 72, 66]]).columns = 3 ∧
    (threeByThree.run [.writeBytes [65, 27, 91, 50, 59, 49, 72, 66]]).rows = 3 ∧
    ¬SameScreen (threeByThree.run [.writeBytes [65, 27, 91, 50, 59, 49, 72, 66]]) resized := by
  obtain ⟨resized, hresize⟩ : ∃ resized,
      (threeByThree.run [.writeBytes [65, 27, 91, 50, 59, 49, 72, 66]]).resize .ample (.black 24 45) 1 = some resized :=
    ⟨_, rfl⟩
  obtain ⟨hcolumns, hrows⟩ := resize_grid hresize
  have hc : (threeByThree.run [.writeBytes [65, 27, 91, 50, 59, 49, 72, 66]]).columns = 3 := by decide +kernel
  have hr : (threeByThree.run [.writeBytes [65, 27, 91, 50, 59, 49, 72, 66]]).rows = 3 := by decide +kernel
  refine ⟨resized, rfl, hresize, hcolumns, hrows, hc, hr, fun h => ?_⟩
  have hcells := (retained_cells_iff (run_inv threeByThree_init _) hresize (hcolumns.trans hc.symm) (hrows.trans hr.symm)).1
    h.cells
  exact absurd hcells.2.2 (by decide +kernel)

end Terminal
end TabOS
