import TabOS.Terminal.Representation
import TabOS.Terminal.Chunking
import TabOS.Library.Layout

/-!
# The retained lines as a layout

A terminal shows a page when its lines, numbered as those of the page, are the last ones of it that fit the store, and its cursor
is at the end of the open line. Characters and newlines are laid out on the page the terminal shows, and a resize lays out the
retained lines again on the page of a fresh terminal.
-/

namespace TabOS
namespace Terminal

open Library

/-- A line of the store: its cells up to its length, and its hard break. -/
def storedLine (t : Terminal) (line : Nat) : Line Cell :=
  ⟨(List.range (t.lineLength line)).map (t.lineCells line), t.hardBreak line⟩

/-- The retained lines, from the first to the last. -/
def retained (t : Terminal) : List (Line Cell) :=
  (List.range' t.firstLine (t.lastLine + 1 - t.firstLine)).map t.storedLine

/-- The terminal shows a page. -/
structure Shows (t : Terminal) (p : Page Cell) : Prop where
  capacity_pos : 0 < t.lineCapacity
  last : t.lastLine = p.closed.length
  current : t.currentLine = t.lastLine
  first : t.firstLine = t.lastLine + 1 - t.lineCapacity
  column : t.column = p.current.length
  line : ∀ line, t.firstLine ≤ line → line ≤ t.lastLine → p.lines[line]? = some (t.storedLine line)

namespace Shows

variable {t u : Terminal} {p : Page Cell}

/-- What a terminal shows is part of its logical state. -/
theorem of_same (h : SameLogic t u) (hu : Shows u p) : Shows t p := by
  obtain ⟨v, rfl⟩ := h.exists_view
  exact ⟨hu.capacity_pos, hu.last, hu.current, hu.first, hu.column, hu.line⟩

/-- The retained lines of a terminal are the last lines of the page it shows. -/
theorem retained_eq (h : Shows t p) : t.retained = p.lines.rtake t.lineCapacity := by
  have hlength : p.lines.length = t.lastLine + 1 := by simp [Page.lines, h.last]
  have hfirst := h.first
  refine List.ext_getElem? fun i => ?_
  rw [List.rtake, List.getElem?_drop, hlength, ← hfirst, retained, List.getElem?_map]
  rcases Nat.lt_or_ge i (t.lastLine + 1 - t.firstLine) with hlt | hge
  · rw [List.getElem?_range' hlt, h.line (t.firstLine + i) (by omega) (by omega), Nat.one_mul]
    rfl
  · rw [List.getElem?_eq_none (by simpa using hge), List.getElem?_eq_none (by omega)]
    rfl

/-- A terminal that has evicted nothing retains the whole page. -/
theorem retained_all (h : Shows t p) (hfirst : t.firstLine = 0) : t.retained = p.lines := by
  have hlength : p.lines.length = t.lastLine + 1 := by simp [Page.lines, h.last]
  have hle : p.lines.length ≤ t.lineCapacity := by
    have := h.first
    omega
  rw [h.retained_eq, List.rtake, Nat.sub_eq_zero_of_le hle, List.drop_zero]

/-- The open line of the page is the terminal's current line. -/
theorem storedLine_current (h : Shows t p) : t.storedLine t.currentLine = ⟨p.current, false⟩ := by
  have hpos := h.capacity_pos
  have hfirst := h.first
  have hline := h.line t.lastLine (by omega) (Nat.le_refl _)
  rw [h.last, Page.lines, List.getElem?_concat_length] at hline
  rw [h.current, h.last]
  exact (Option.some.inj hline).symm

theorem lineLength_current (h : Shows t p) : t.lineLength t.currentLine = t.column := by
  have hlength := congrArg (fun l => l.items.length) h.storedLine_current
  rw [h.column]
  simpa [storedLine] using hlength

/-- Storing a character puts its cell on the open line. -/
theorem storeCharacter (h : Shows t p) (character : UInt8) :
    Shows (t.storeCharacter character) (p.put ⟨character, t.foreground, t.background, t.reverse⟩) := by
  have hpos := h.capacity_pos
  have hfirst := h.first
  have hcurrent := h.current
  rw [storeCharacter_eq]
  refine ⟨hpos, h.last, h.current, hfirst, ?_, fun line hge hle => ?_⟩
  · simp [Page.put, h.column]
  · dsimp only at hge hle
    by_cases hline : line = t.currentLine
    · subst hline
      have hopen := h.storedLine_current
      have hcells : (List.range t.column).map (t.lineCells t.currentLine) = p.current := by
        rw [← h.lineLength_current]
        exact congrArg Line.items hopen
      have hbroken : t.hardBreak t.currentLine = false := congrArg Line.broken hopen
      have hprefix : (List.range t.column).map (Function.update (t.lineCells t.currentLine) t.column
          ⟨character, t.foreground, t.background, t.reverse⟩) = p.current := by
        rw [← hcells]
        refine List.map_congr_left fun x hx => Function.update_of_ne ?_ _ _
        have := List.mem_range.1 hx
        omega
      rw [h.current, h.last]
      have hend : (p.put ⟨character, t.foreground, t.background, t.reverse⟩).lines[p.closed.length]? =
          some ⟨p.current ++ [⟨character, t.foreground, t.background, t.reverse⟩], false⟩ := List.getElem?_concat_length ..
      rw [hend, ← h.last, ← h.current]
      refine congrArg some ?_
      rw [storedLine]
      simp only [lineLength, lineCells, hardBreak, lineSlot, Function.update_self]
      have hlength := h.lineLength_current
      rw [lineLength, lineSlot] at hlength
      rw [hlength, max_eq_right (by omega), List.range_succ, List.map_append, List.map_singleton, Function.update_self]
      rw [hardBreak, lineSlot] at hbroken
      rw [hbroken]
      exact congrArg₂ Line.mk (congrArg (· ++ _) hprefix.symm) rfl
    · have hslot : ∀ {β : Type} (store : Nat → β) (v : β),
          Function.update store (t.currentLine % t.lineCapacity) v (line % t.lineCapacity) = store (line % t.lineCapacity) :=
        fun store v => update_slot_of_ne store v hline (by omega) (by omega)
      have hold : (p.put ⟨character, t.foreground, t.background, t.reverse⟩).lines[line]? = p.lines[line]? := by
        have hlt : line < p.closed.length := by
          rw [← h.last]
          omega
        rw [Page.lines, Page.lines, List.getElem?_append_left hlt, Page.put, List.getElem?_append_left hlt]
      rw [hold, h.line line hge hle]
      simp only [storedLine, lineLength, lineCells, hardBreak, lineSlot, hslot]

/-- Appending a line closes the open line. -/
theorem appendLine (h : Shows t p) (hardBreak : Bool) : Shows (t.appendLine hardBreak) (p.close hardBreak) := by
  have hpos := h.capacity_pos
  have hfirst := h.first
  have hcurrent := h.current
  have hlast := h.last
  rw [appendLine_of_ge t hardBreak (by omega)]
  refine of_same (followLiveOutput_same _) ⟨hpos, ?_, rfl, ?_, rfl, fun line hge hle => ?_⟩
  · simp [Page.close, ← hlast, hcurrent]
  · dsimp only
    split <;> omega
  · dsimp only at hge hle
    have hwindow : t.currentLine + 1 - line < t.lineCapacity := by
      split at hge <;> omega
    have hnext : ∀ {β : Type} (store : Nat → β) (v : β), line ≠ t.currentLine + 1 →
        Function.update store ((t.currentLine + 1) % t.lineCapacity) v (line % t.lineCapacity) =
          store (line % t.lineCapacity) :=
      fun store v hne => update_slot_of_ne store v hne (by omega) hwindow
    by_cases hnew : line = t.currentLine + 1
    · have hend : (p.close hardBreak).lines[t.currentLine + 1]? = some ⟨[], false⟩ := by
        have hlength : t.currentLine + 1 = (p.close hardBreak).closed.length := by simp [Page.close, hcurrent, hlast]
        rw [hlength]
        exact List.getElem?_concat_length ..
      rw [hnew, hend]
      simp [storedLine, lineLength, Terminal.hardBreak, lineSlot]
    · have hclosed : (p.close hardBreak).lines[line]? = (p.closed ++ [⟨p.current, hardBreak⟩])[line]? := by
        rw [Page.lines, List.getElem?_append_left (by simp [Page.close]; omega), Page.close]
      rw [hclosed]
      simp only [storedLine, lineLength, lineCells, Terminal.hardBreak, lineSlot, hnext _ _ hnew]
      by_cases hline : line = t.currentLine
      · have hopen := congrArg Line.items h.storedLine_current
        rw [hline, Function.update_self, hcurrent, hlast, List.getElem?_concat_length]
        rw [hcurrent, hlast] at hopen
        exact congrArg (fun items => some (Line.mk items hardBreak)) hopen.symm
      · have hold := h.line line (by split at hge <;> omega) (by omega)
        have hlt : line < p.closed.length := by omega
        rw [update_slot_of_ne _ _ hline (by omega) (by omega), List.getElem?_append_left hlt]
        rw [Page.lines, List.getElem?_append_left hlt] at hold
        exact hold

/-- Writing a character lays out its cell. -/
theorem putCharacter (h : Shows t p) (character : UInt8) :
    Shows (t.putCharacter character) (p.feed t.columns (.item ⟨character, t.foreground, t.background, t.reverse⟩)) := by
  have hstore := h.storeCharacter character
  rw [putCharacter_eq, Page.feed_item, ← h.column]
  split
  · exact hstore.appendLine false
  · exact hstore

/-- A fresh terminal shows the empty page. -/
theorem fresh (h : Fresh t) : Shows t .empty := by
  have hfirst := h.firstLine
  have hcurrent := h.currentLine
  have hlast := h.lastLine
  have hcapacity := h.capacity
  have hrows := h.rows_pos
  refine ⟨by omega, hlast, by omega, by omega, h.column, fun line hge hle => ?_⟩
  obtain rfl : line = 0 := by omega
  rw [storedLine, lineLength, lineCells, hardBreak, h.lineLengths, h.hardBreaks]
  rfl

end Shows

/-! ## What laying out leaves -/

/-- The fields of a terminal that laying out reads and leaves: the geometry, the rendition, and the state of the parser. -/
structure Setting where
  columns : Nat
  rows : Nat
  lineCapacity : Nat
  foreground : Pixel
  background : Pixel
  reverse : Bool
  ansiState : AnsiState

/-- The setting of a terminal. -/
def setting (t : Terminal) : Setting :=
  { columns := t.columns
    rows := t.rows
    lineCapacity := t.lineCapacity
    foreground := t.foreground
    background := t.background
    reverse := t.reverse
    ansiState := t.ansiState }

theorem followLiveOutput_setting (t : Terminal) : t.followLiveOutput.setting = t.setting := by
  rw [followLiveOutput_eq]
  rfl

theorem evictLine_setting (t : Terminal) : t.evictLine.setting = t.setting := by
  rw [evictLine_eq]
  rfl

theorem openCurrentLine_setting (t : Terminal) : t.openCurrentLine.setting = t.setting := by
  unfold openCurrentLine
  split <;> rfl

theorem appendLine_setting (t : Terminal) (hardBreak : Bool) : (t.appendLine hardBreak).setting = t.setting := by
  unfold appendLine
  refine (followLiveOutput_setting _).trans ?_
  exact (openCurrentLine_setting _).trans (evictLine_setting _)

theorem storeCharacter_setting (t : Terminal) (character : UInt8) : (t.storeCharacter character).setting = t.setting := by
  rw [storeCharacter_eq]
  rfl

theorem putCharacter_setting (t : Terminal) (character : UInt8) : (t.putCharacter character).setting = t.setting := by
  rw [putCharacter_eq]
  split
  · rw [appendLine_setting, storeCharacter_setting]
  · exact storeCharacter_setting t character

/-! ## Streams -/

/-- A byte that is laid out: a newline, or a character that is no control of the terminal. -/
def Plain (text : UInt8) : Prop := text ≠ 0 ∧ text ≠ 0x1b ∧ text ≠ 13 ∧ text ≠ 8 ∧ text ≠ 0x7f ∧ text ≠ 9

instance : DecidablePred Plain := fun text => by
  unfold Plain
  infer_instance

/-- A byte in the default colours, as an element of a stream of cells. -/
def plainToken (text : UInt8) : Token Cell := if text = 10 then .newline else .item ⟨text, 0xffff, 0x0000, false⟩

/-- The setting of a fresh terminal. -/
def freshSetting (columns rows lineCapacity : Nat) : Setting :=
  { columns := columns
    rows := rows
    lineCapacity := lineCapacity
    foreground := 0xffff
    background := 0x0000
    reverse := false
    ansiState := .ground }

theorem Fresh.setting_eq {t : Terminal} (h : Fresh t) : t.setting = freshSetting t.columns t.rows t.lineCapacity := by
  rw [setting, h.foreground, h.background, h.reverse, h.ansiState]
  rfl

/-- A plain byte is laid out on the page. -/
theorem writeByte_shows {t : Terminal} {p : Page Cell} {columns rows lineCapacity : Nat} {text : UInt8} (h : Shows t p)
    (hset : t.setting = freshSetting columns rows lineCapacity) (hplain : Plain text) :
    Shows (t.writeByte text) (p.feed columns (plainToken text)) ∧
      (t.writeByte text).setting = freshSetting columns rows lineCapacity := by
  obtain ⟨h0, h27, h13, h8, h127, h9⟩ := hplain
  have hground : t.ansiState = .ground := congrArg Setting.ansiState hset
  have hbyte : t.writeByte text = if text = 10 then t.appendLine true else t.putCharacter text := by
    rw [writeByte, if_neg h0, hground]
    dsimp only
    rw [writeGround, if_neg h27, if_neg h13, if_neg (not_or.2 ⟨h8, h127⟩), if_neg h9]
  have hcolumns : t.columns = columns := congrArg Setting.columns hset
  have hforeground : t.foreground = 0xffff := congrArg Setting.foreground hset
  have hbackground : t.background = 0x0000 := congrArg Setting.background hset
  have hreverse : t.reverse = false := congrArg Setting.reverse hset
  rw [hbyte, plainToken]
  split
  · exact ⟨h.appendLine true, (appendLine_setting t true).trans hset⟩
  · have hput := h.putCharacter text
    rw [hcolumns, hforeground, hbackground, hreverse] at hput
    exact ⟨hput, (putCharacter_setting t text).trans hset⟩

/-- Plain bytes are laid out on the page. -/
theorem foldl_writeByte_shows {t : Terminal} {p : Page Cell} {columns rows lineCapacity : Nat} {data : List UInt8}
    (h : Shows t p) (hset : t.setting = freshSetting columns rows lineCapacity) (hplain : ∀ text ∈ data, Plain text) :
    Shows (data.foldl writeByte t) ((data.map plainToken).foldl (Page.feed columns) p) ∧
      (data.foldl writeByte t).setting = freshSetting columns rows lineCapacity := by
  induction data generalizing t p with
  | nil => exact ⟨h, hset⟩
  | cons text data ih =>
    obtain ⟨htext, hdata⟩ := List.forall_mem_cons.1 hplain
    obtain ⟨hshows, hset'⟩ := writeByte_shows h hset htext
    exact ih hshows hset' hdata

/-- Writes change the logical state as their bytes do. -/
theorem run_writeBytes_same {t u : Terminal} (h : SameLogic t u) (chunks : List (List UInt8)) :
    SameLogic (t.run (chunks.map .writeBytes)) (chunks.flatten.foldl writeByte u) := by
  induction chunks generalizing t u with
  | nil => exact h
  | cons data chunks ih =>
    rw [List.flatten_cons, List.foldl_append]
    exact ih (writeBytes_same h data)

/-- After writes of plain bytes, a fresh terminal shows the layout of the stream. -/
theorem run_writeBytes_shows {t : Terminal} (h : Fresh t) {chunks : List (List UInt8)}
    (hplain : ∀ text ∈ chunks.flatten, Plain text) :
    Shows (t.run (chunks.map .writeBytes)) (layout t.columns (chunks.flatten.map plainToken)) ∧
      (t.run (chunks.map .writeBytes)).lineCapacity = t.lineCapacity := by
  have hsame := run_writeBytes_same (SameLogic.refl t) chunks
  obtain ⟨hshows, hset⟩ := foldl_writeByte_shows (Shows.fresh h) h.setting_eq hplain
  refine ⟨Shows.of_same hsame hshows, ?_⟩
  obtain ⟨v, hv⟩ := hsame.exists_view
  rw [hv]
  exact congrArg Setting.lineCapacity hset

/-! ## Reflow -/

/-- A cell as a resize writes it again: an empty one as a space. -/
def reflowedCell (cell : Cell) : Cell := { cell with character := if cell.character = 0 then 32 else cell.character }

/-- A line as a resize writes it again. -/
def reflowedLine (l : Line Cell) : Line Cell := ⟨l.items.map reflowedCell, l.broken⟩

theorem reflowedCell_of_ne {cell : Cell} (h : cell.character ≠ 0) : reflowedCell cell = cell := by
  rw [reflowedCell, if_neg h]

theorem reflowedCell_ne (cell : Cell) : (reflowedCell cell).character ≠ 0 := reflowCharacter_ne_zero cell

/-- Lines without empty cells are written again as they are. -/
theorem map_reflowedLine {ls : List (Line Cell)} (h : ∀ l ∈ ls, ∀ cell ∈ l.items, cell.character ≠ 0) :
    ls.map reflowedLine = ls := by
  refine (List.map_congr_left fun l hl => ?_).trans (List.map_id ls)
  have hitems : l.items.map reflowedCell = l.items :=
    (List.map_congr_left fun cell hcell => reflowedCell_of_ne (h l hl cell hcell)).trans (List.map_id l.items)
  rw [reflowedLine, hitems]
  rfl

theorem reflowCell_shows {resized : Terminal} {p : Page Cell} (h : Shows resized p) (cell : Cell) :
    Shows (resized.reflowCell cell) (p.feed resized.columns (.item (reflowedCell cell))) ∧
      (resized.reflowCell cell).columns = resized.columns := by
  have hcolors : Shows { resized with foreground := cell.foreground, background := cell.background, reverse := cell.reverse } p :=
    { h with }
  refine ⟨hcolors.putCharacter _, ?_⟩
  exact congrArg Setting.columns (putCharacter_setting _ _)

/-- Cells written again are laid out. -/
theorem foldl_reflowCell_shows {resized : Terminal} {p : Page Cell} (h : Shows resized p) (cells : List Cell) :
    Shows (cells.foldl reflowCell resized)
        ((cells.map fun cell => Token.item (reflowedCell cell)).foldl (Page.feed resized.columns) p) ∧
      (cells.foldl reflowCell resized).columns = resized.columns := by
  induction cells generalizing resized p with
  | nil => exact ⟨h, rfl⟩
  | cons cell cells ih =>
    obtain ⟨hcell, hcolumns⟩ := reflowCell_shows h cell
    have hrest := ih hcell
    rw [hcolumns] at hrest
    exact hrest

/-- A line written again is laid out. -/
theorem reflowLine_shows (t : Terminal) {resized : Terminal} {p : Page Cell} (h : Shows resized p) (line : Nat) :
    Shows (t.reflowLine resized line)
        ((reflowedLine (t.storedLine line)).tokens.foldl (Page.feed resized.columns) p) ∧
      (t.reflowLine resized line).columns = resized.columns := by
  obtain ⟨hcells, hcolumns⟩ := foldl_reflowCell_shows h (t.storedLine line).items
  rw [storedLine, List.foldl_map] at hcells hcolumns
  rw [List.map_map] at hcells
  rw [reflowLine, Line.tokens, List.foldl_append, reflowedLine, storedLine, List.map_map, List.map_map]
  dsimp only
  cases t.hardBreak line with
  | false => exact ⟨hcells, hcolumns⟩
  | true => exact ⟨hcells.appendLine true, (congrArg Setting.columns (appendLine_setting _ true)).trans hcolumns⟩

/-- Lines written again are laid out. -/
theorem foldl_reflowLine_shows (t : Terminal) {resized : Terminal} {p : Page Cell} (h : Shows resized p) (lines : List Nat) :
    Shows (lines.foldl t.reflowLine resized)
        ((tokens ((lines.map t.storedLine).map reflowedLine)).foldl (Page.feed resized.columns) p) ∧
      (lines.foldl t.reflowLine resized).columns = resized.columns := by
  induction lines generalizing resized p with
  | nil => exact ⟨h, rfl⟩
  | cons line lines ih =>
    obtain ⟨hline, hcolumns⟩ := reflowLine_shows t h line
    have hrest := ih hline
    rw [hcolumns] at hrest
    rw [List.map_cons, List.map_cons, tokens_cons, List.foldl_append]
    exact hrest

theorem finishResize_shows (t : Terminal) {resized : Terminal} {p : Page Cell} (h : Shows resized p) :
    Shows (t.finishResize resized) p := by
  rw [finishResize, render_eq]
  exact { h with }

theorem finishResize_columns (t resized : Terminal) : (t.finishResize resized).columns = resized.columns := by
  rw [finishResize, render_eq]
  rfl

/-- A resized terminal shows the layout of the retained lines of the old one. -/
theorem resize_shows {t resized : Terminal} {heap : Heap} {fb : Framebuffer} {scale : Nat}
    (h : t.resize heap fb scale = some resized) :
    Shows resized (layout resized.columns (tokens (t.retained.map reflowedLine))) := by
  obtain ⟨fresh, hfresh, rfl⟩ := Option.map_eq_some_iff.1 h
  have hstart : Shows (t.startResize fresh) .empty := { Shows.fresh (terminalInitWithRendering_fresh hfresh) with }
  obtain ⟨hshows, hcolumns⟩ := foldl_reflowLine_shows t hstart
    (List.range' t.firstLine (t.lastLine + 1 - t.firstLine))
  rw [finishResize_columns]
  refine finishResize_shows t ?_
  unfold reflow
  rw [hcolumns]
  exact hshows

/-! ## The geometry of a resize -/

theorem reflowCell_rows (resized : Terminal) (cell : Cell) : (resized.reflowCell cell).rows = resized.rows :=
  congrArg Setting.rows (putCharacter_setting _ _)

theorem reflowLine_rows (t resized : Terminal) (line : Nat) : (t.reflowLine resized line).rows = resized.rows := by
  have hstep : ∀ (u : Terminal) (column : Nat), u.rows = resized.rows →
      (u.reflowCell (t.lineCells line column)).rows = resized.rows := fun u _ hu => (reflowCell_rows u _).trans hu
  have hcells := foldl_invariant (fun u : Terminal => u.rows = resized.rows) hstep (List.range (t.lineLength line)) rfl
  unfold reflowLine
  dsimp only
  split
  · exact (congrArg Setting.rows (appendLine_setting _ true)).trans hcells
  · exact hcells

/-- A resize has the geometry of its framebuffer and scale. -/
theorem resize_grid {t resized : Terminal} {heap : Heap} {fb : Framebuffer} {scale : Nat}
    (h : t.resize heap fb scale = some resized) :
    resized.columns = fb.width / (fontCellWidth * scale) ∧ resized.rows = fb.height / (fontCellHeight * scale) := by
  obtain ⟨fresh, hfresh, rfl⟩ := Option.map_eq_some_iff.1 h
  obtain ⟨hcolumns, hrows⟩ := terminalInitWithRendering_grid hfresh
  rw [← hcolumns, ← hrows]
  have hstart : Shows (t.startResize fresh) .empty := { Shows.fresh (terminalInitWithRendering_fresh hfresh) with }
  have hlines := foldl_invariant (fun u : Terminal => u.rows = fresh.rows)
    (fun u line hu => (reflowLine_rows t u line).trans hu) (List.range' t.firstLine (t.lastLine + 1 - t.firstLine))
    (s := t.startResize fresh) rfl
  refine ⟨(finishResize_columns _ _).trans (foldl_reflowLine_shows t hstart _).2, ?_⟩
  rw [finishResize, render_eq]
  exact hlines

end Terminal
end TabOS
