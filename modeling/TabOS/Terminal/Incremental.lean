import TabOS.Terminal.Marking

/-!
# Incremental rendering over whole runs

The bytes of a write mark what they change, with three exceptions: `ESC 8` below the last line, a backspace that clears a line, and
`ESC [2J`, which draws the cursor at home in the middle of the write. Apart from them, every operation leaves the framebuffer that a
full redraw would draw.
-/

namespace TabOS
namespace Terminal

open Library

variable {t u v : Terminal}

/-! ## Commands -/

theorem openLine_marks (h : Inv t) (hlt : t.lastLine < t.currentLine) : Marks t t.openLine := by
  have hwindow := (h.indices.openLine hlt).window
  rw [openLine, clearLine_eq]
  refine Marks.of_look ⟨rfl, rfl, rfl, rfl, rfl, rfl, rfl⟩ rfl rfl fun row column _ _ => ?_
  exact congrArg t.shown (dirtyCell_openLine hwindow h.first_le_viewport t.cells)

theorem coverCursor_marks (h : Inv t) : Marks t t.coverCursor :=
  (coverCursor_induction (fun u => Inv u ∧ Marks t u)
    (fun _ hlt hu => ⟨openLine_inv hu.1 hlt, hu.2.trans (openLine_marks hu.1 hlt)⟩) ⟨h, Marks.refl t⟩).2

/-- A function that writes neither cells nor marks. -/
theorem Marks.of_cursor (h : SamePaper t u) (hdirty : u.dirtyCells = t.dirtyCells) (hfull : u.fullRedraw = t.fullRedraw)
    (hcell : u.dirtyCell = t.dirtyCell) : Marks t u := by
  refine Marks.of_look h hdirty hfull fun row column _ _ => ?_
  rw [hcell, shown, shown, h.foreground, h.background]

theorem eraseLine_marks (t : Terminal) (value : Nat) : Marks t (t.eraseLine value) :=
  { framebuffer := rfl, scale := rfl, columns := rfl, rows := rfl, foreground := rfl, background := rfl, enabled := rfl,
    marked := Or.inl rfl }

/-- The byte ends `ESC [2J`. -/
def Clears (t : Terminal) (text : UInt8) : Prop :=
  t.ansiState = .csi ∧ text = 74 ∧ t.ansiPrivate = false ∧ t.ansiInvalid = false ∧ t.ansiValues 0 = 2

instance (t : Terminal) (text : UInt8) : Decidable (Clears t text) := by
  unfold Clears
  infer_instance

/-- The drawing colours of a new terminal. -/
structure DefaultColors (t : Terminal) : Prop where
  foreground : t.foreground = 0xffff
  background : t.background = 0x0000

theorem SamePaper.defaultColors (h : SamePaper t u) (hd : DefaultColors t) : DefaultColors u :=
  ⟨h.foreground.trans hd.foreground, h.background.trans hd.background⟩

/-- The codes of graphic rendition that select a colour. -/
def ColorCode (value : Nat) : Prop :=
  30 ≤ value ∧ value ≤ 37 ∨ 90 ≤ value ∧ value ≤ 97 ∨ 40 ≤ value ∧ value ≤ 47 ∨ 100 ≤ value ∧ value ≤ 107

instance (value : Nat) : Decidable (ColorCode value) := by
  unfold ColorCode
  infer_instance

/-- The byte ends a selection of graphic rendition that selects a colour. -/
def Colors (t : Terminal) (text : UInt8) : Prop :=
  t.ansiState = .csi ∧ text = 109 ∧ t.ansiPrivate = false ∧ t.ansiInvalid = false ∧
    ∃ index ∈ List.range t.ansiCount, ColorCode (t.ansiValues index)

instance (t : Terminal) (text : UInt8) : Decidable (Colors t text) := by
  unfold Colors
  infer_instance

/-- A code that selects no colour keeps the default ones. -/
theorem ansiSgr_reverse (hd : DefaultColors t) {value : Nat} (hcode : ¬ColorCode value) :
    ∃ reverse, t.ansiSgr value = { t with reverse := reverse } := by
  unfold ColorCode at hcode
  simp only [not_or] at hcode
  obtain ⟨h30, h90, h40, h100⟩ := hcode
  unfold ansiSgr
  rw [if_neg h30, if_neg h90, if_neg h40, if_neg h100, ← hd.foreground, ← hd.background]
  split_ifs
  · exact ⟨false, rfl⟩
  · exact ⟨t.reverse, rfl⟩
  · exact ⟨t.reverse, rfl⟩
  · exact ⟨true, rfl⟩
  · exact ⟨false, rfl⟩
  · exact ⟨t.reverse, rfl⟩

theorem foldl_ansiSgr_reverse (hd : DefaultColors t) {indices : List Nat}
    (hcodes : ∀ index ∈ indices, ¬ColorCode (t.ansiValues index)) (reverse : Bool) :
    ∃ reverse', indices.foldl (fun u index => u.ansiSgr (u.ansiValues index)) { t with reverse := reverse } =
      { t with reverse := reverse' } := by
  induction indices generalizing reverse with
  | nil => exact ⟨reverse, rfl⟩
  | cons index indices ih =>
    obtain ⟨hcode, hrest⟩ := List.forall_mem_cons.1 hcodes
    have hd' : DefaultColors { t with reverse := reverse } := ⟨hd.foreground, hd.background⟩
    obtain ⟨next, hnext⟩ := ansiSgr_reverse hd' hcode
    rw [List.foldl_cons, hnext]
    exact ih hrest next

theorem selectGraphics_marks (hd : DefaultColors t)
    (hcodes : ∀ index ∈ List.range t.ansiCount, ¬ColorCode (t.ansiValues index)) : Marks t t.selectGraphics := by
  obtain ⟨reverse, hreverse⟩ := foldl_ansiSgr_reverse hd hcodes t.reverse
  have hselect : t.selectGraphics = { t with reverse := reverse } := hreverse
  rw [hselect]
  exact Marks.of_cursor ⟨rfl, rfl, rfl, rfl, rfl, rfl, rfl⟩ rfl rfl rfl

theorem publicCommand_marks {command : UInt8} (hclear : ¬(command = 74 ∧ t.ansiValues 0 = 2))
    (hgraphics : command = 109 → Marks t t.selectGraphics) : Marks t (t.publicCommand command) := by
  have hcursor : ∀ {u : Terminal}, SamePaper t u → u.dirtyCells = t.dirtyCells → u.fullRedraw = t.fullRedraw →
      u.dirtyCell = t.dirtyCell → Marks t u := Marks.of_cursor
  exact publicCommand_cases (Marks t) t command (hcursor ⟨rfl, rfl, rfl, rfl, rfl, rfl, rfl⟩ rfl rfl rfl)
    (hcursor ⟨rfl, rfl, rfl, rfl, rfl, rfl, rfl⟩ rfl rfl rfl) (hcursor ⟨rfl, rfl, rfl, rfl, rfl, rfl, rfl⟩ rfl rfl rfl)
    (hcursor ⟨rfl, rfl, rfl, rfl, rfl, rfl, rfl⟩ rfl rfl rfl) (hcursor ⟨rfl, rfl, rfl, rfl, rfl, rfl, rfl⟩ rfl rfl rfl)
    (hcursor ⟨rfl, rfl, rfl, rfl, rfl, rfl, rfl⟩ rfl rfl rfl) (fun h => absurd h hclear) (eraseLine_marks t _)
    hgraphics (hcursor ⟨rfl, rfl, rfl, rfl, rfl, rfl, rfl⟩ rfl rfl rfl)
    (hcursor ⟨rfl, rfl, rfl, rfl, rfl, rfl, rfl⟩ rfl rfl rfl) (Marks.refl t)

theorem ansiCommand_marks (h : Inv t) {command : UInt8} (hclear : t.ansiPrivate = false → ¬(command = 74 ∧ t.ansiValues 0 = 2))
    (hgraphics : t.ansiPrivate = false → command = 109 → Marks t t.selectGraphics) : Marks t (t.ansiCommand command) := by
  unfold ansiCommand
  cases hprivate : t.ansiPrivate with
  | true =>
    rw [if_pos rfl]
    split
    · exact Marks.of_cursor ⟨rfl, rfl, rfl, rfl, rfl, rfl, rfl⟩ rfl rfl rfl
    · exact Marks.refl t
  | false =>
    rw [if_neg (by decide)]
    exact (publicCommand_marks (hclear hprivate) (hgraphics hprivate)).trans (coverCursor_marks (publicCommand_inv h command))

/-! ## Bytes -/

theorem writeEscape_marks (t : Terminal) (text : UInt8) : Marks t (t.writeEscape text) := by
  unfold writeEscape
  refine iteInduction (fun _ => ?_) fun _ => iteInduction (fun _ => ?_) fun _ => iteInduction (fun _ => ?_) fun _ => ?_
  all_goals exact Marks.of_cursor ⟨rfl, rfl, rfl, rfl, rfl, rfl, rfl⟩ rfl rfl rfl

/-- The end of a sequence changes the parser alone. -/
theorem endSequence_marks (t : Terminal) : Marks t { t with ansiState := .ground } :=
  Marks.of_cursor ⟨rfl, rfl, rfl, rfl, rfl, rfl, rfl⟩ rfl rfl rfl

theorem writeCsi_marks (h : Inv t) (hd : DefaultColors t) {text : UInt8} (hcsi : t.ansiState = .csi) (hclear : ¬Clears t text)
    (hcolors : ¬Colors t text) : Marks t (t.writeCsi text) := by
  unfold writeCsi writeDigit
  dsimp only
  refine iteInduction (fun _ => iteInduction (fun _ => ?_) fun _ => ?_) fun _ => iteInduction
    (fun _ => iteInduction (fun _ => ?_) fun _ => ?_) fun _ => iteInduction (fun _ => ?_) fun _ => iteInduction (fun _ => ?_)
    fun _ => ?_
  all_goals try exact Marks.of_cursor ⟨rfl, rfl, rfl, rfl, rfl, rfl, rfl⟩ rfl rfl rfl
  cases hinvalid : t.ansiInvalid with
  | true => exact endSequence_marks t
  | false =>
    refine Marks.trans (ansiCommand_marks h ?_ ?_) (endSequence_marks _)
    · exact fun hprivate hcommand => hclear ⟨hcsi, hcommand.1, hprivate, hinvalid, hcommand.2⟩
    · intro hprivate hcommand
      exact selectGraphics_marks hd fun index hindex hcode => hcolors ⟨hcsi, hcommand, hprivate, hinvalid, index, hindex, hcode⟩

theorem writeGround_marks (h : Inv t) (hcov : Covered t) {text : UInt8} (hne : text ≠ 0)
    (herase : text = 8 ∨ text = 0x7f → EraseMarked t) : Marks t (t.writeGround text) := by
  unfold writeGround
  refine iteInduction (fun _ => ?_) fun _ => iteInduction (fun _ => ?_) fun _ => iteInduction (fun _ => ?_) fun _ =>
    iteInduction (fun hback => ?_) fun _ => iteInduction (fun _ => ?_) fun _ => ?_
  · exact Marks.of_cursor ⟨rfl, rfl, rfl, rfl, rfl, rfl, rfl⟩ rfl rfl rfl
  · exact appendLine_marks h.toCore h.first_le_viewport h.viewport_le_live hcov true
  · exact Marks.of_cursor ⟨rfl, rfl, rfl, rfl, rfl, rfl, rfl⟩ rfl rfl rfl
  · exact backspace_marks h hcov (herase hback)
  · exact tab_marks h hcov
  · exact putCharacter_marks h hcov hne

/-- What a byte may not do for its marks to be complete: select a colour, restore the cursor below the last line with `ESC 8`, or
clear a line by a backspace without marks. -/
structure ByteMarked (t : Terminal) (text : UInt8) : Prop where
  colors : ¬Colors t text
  restore : RestoreInside t text
  erase : t.ansiState = .ground → text = 8 ∨ text = 0x7f → EraseMarked t

theorem byteMarked_iff (t : Terminal) (text : UInt8) :
    ByteMarked t text ↔ ¬Colors t text ∧ RestoreInside t text ∧ (t.ansiState = .ground → text = 8 ∨ text = 0x7f → EraseMarked t) :=
  ⟨fun h => ⟨h.colors, h.restore, h.erase⟩, fun ⟨hcolors, hrestore, herase⟩ => ⟨hcolors, hrestore, herase⟩⟩

instance (t : Terminal) (text : UInt8) : Decidable (ByteMarked t text) := decidable_of_iff' _ (byteMarked_iff t text)

/-- A byte that does not clear the screen marks what it changes. -/
theorem writeByte_marks (h : Inv t) (hcov : Covered t) (hd : DefaultColors t) {text : UInt8} (hguard : ByteMarked t text)
    (hclear : ¬Clears t text) :
    Marks t (t.writeByte text) := by
  unfold writeByte
  split
  · exact Marks.refl t
  · rename_i hne
    cases hstate : t.ansiState with
    | escape => exact writeEscape_marks t text
    | csi => exact writeCsi_marks h hd hstate hclear hguard.colors
    | ground => exact writeGround_marks h hcov hne (hguard.erase hstate)

/-! ## Clearing -/

theorem render_live (h : Live t) : Live t.render := by
  refine { toInv := render_inv h.toInv, toFitted := ?_, enabled := ?_ }
  · rw [render_eq]
    unfold renderedFramebuffer
    split
    · exact { h.toFitted with }
    · exact { h.toFitted with }
  · rw [render_eq]
    exact h.enabled

theorem clearCells_live (h : Live t) : Live t.clearCells :=
  { toInv := clearCells_inv h.toInv, toFitted := { h.toFitted with }, enabled := h.enabled }

theorem clear_live (h : Live t) : Live t.clear := render_live (clearCells_live h)

theorem clear_colors (h : DefaultColors t) : DefaultColors t.clear := by
  rw [clear, render_eq]
  exact ⟨h.foreground, h.background⟩

/-- A cleared screen is drawn, with the cursor at home. -/
theorem clear_drawn (h : Live t) : Drawn t.clear := render_drawn (clearCells_live h) (Or.inl rfl)

/-- The addresses of the cell at the top left, where a clear leaves the cursor drawn if it is visible. -/
def HomeTile (t : Terminal) (drawn : Bool) (address : Nat) : Prop := drawn = true ∧ Tile t 0 0 address

theorem clear_tracked (h : Live t) : Tracked t.clear (HomeTile t.clear t.cursorVisible) := by
  have hcolumn : t.clear.column = 0 := by rw [clear, render_eq]; rfl
  have hrow : t.clear.cursorRow = 0 := by rw [cursorRow, clear, render_eq]; rfl
  have hvisible : t.clear.cursorVisible = t.cursorVisible := by rw [clear, render_eq]; rfl
  refine ((clear_drawn h).tracked (clear_live h)).imp_right fun hpixels a => ?_
  refine (hpixels a).imp_right fun hrest => hrest.imp_right fun ⟨hdraw, ha⟩ => ?_
  rw [hcolumn, hrow] at ha
  refine ⟨?_, ha⟩
  rw [← hvisible]
  simp only [cursorShouldDraw, Bool.and_eq_true] at hdraw
  exact hdraw.1.1.1.1

/-- `ESC [2J` leaves the cleared screen. -/
theorem writeByte_clears {text : UInt8} (hclear : Clears t text) :
    t.writeByte text = { t.clear with ansiState := .ground } := by
  obtain ⟨hcsi, rfl, hprivate, hinvalid, hvalue⟩ := hclear
  have hcommand : t.publicCommand 74 = t.clear := by
    unfold publicCommand
    simp only [hvalue]
    rfl
  have hcover : t.clear.coverCursor = t.clear := by
    unfold coverCursor
    rw [clear, render_eq]
    rfl
  have hansi : t.ansiCommand 74 = t.clear := by
    rw [ansiCommand, hprivate, if_neg (by decide), hcommand, hcover]
  rw [writeByte, if_neg (by decide), hcsi]
  dsimp only
  rw [writeCsi, if_neg (by decide), if_neg (by decide), if_neg (fun h => absurd h.1 (by decide)), if_neg (by decide), hinvalid,
    hansi]
  rfl

/-! ## Writes -/

/-- A terminal in the middle of a write, and whether the write has drawn the cursor at home. -/
def traceByte (s : Terminal × Bool) (text : UInt8) : Terminal × Bool :=
  (s.1.writeByte text, if Clears s.1 text then s.1.cursorVisible else s.2)

/-- A terminal and the trace of a write of it. -/
def trace (t : Terminal) (data : List UInt8) : Terminal × Bool := data.foldl traceByte (t.beginWrite, false)

theorem foldl_traceByte_fst (s : Terminal × Bool) (data : List UInt8) :
    (data.foldl traceByte s).1 = data.foldl writeByte s.1 := by
  induction data generalizing s with
  | nil => rfl
  | cons text data ih => exact ih (traceByte s text)

/-- At the end of the bytes of a write that has drawn the cursor at home: a full redraw is to come, or the viewport moves, or the
cell at home is dirty, or the cursor is there. -/
def HomeMarked (t : Terminal) : Prop :=
  t.fullRedraw = true ∨ t.viewportTop ≠ t.liveViewportTop ∨ t.dirtyCells 0 0 = true ∨
    t.currentLine = t.viewportTop ∧ t.column = 0

/-- A write that leaves no stale pixels: its bytes mark what they change, and so is the cursor that it has drawn at home. -/
structure WriteMarked (t : Terminal) (data : List UInt8) : Prop where
  bytes : Along traceByte (fun s text => ByteMarked s.1 text) (t.beginWrite, false) data
  home : (t.trace data).2 = true → HomeMarked (t.trace data).1

instance (t : Terminal) : Decidable (HomeMarked t) := by
  unfold HomeMarked
  infer_instance

theorem writeMarked_iff (t : Terminal) (data : List UInt8) :
    WriteMarked t data ↔ Along traceByte (fun s text => ByteMarked s.1 text) (t.beginWrite, false) data ∧
      ((t.trace data).2 = true → HomeMarked (t.trace data).1) :=
  ⟨fun h => ⟨h.bytes, h.home⟩, fun ⟨hbytes, hhome⟩ => ⟨hbytes, hhome⟩⟩

instance (t : Terminal) (data : List UInt8) : Decidable (WriteMarked t data) := decidable_of_iff' _ (writeMarked_iff t data)

/-- What holds in the middle of a write. -/
structure Traced (s : Terminal × Bool) : Prop extends Live s.1 where
  covered : Covered s.1
  colors : DefaultColors s.1
  tracked : Tracked s.1 (HomeTile s.1 s.2)

theorem traceByte_traced {s : Terminal × Bool} {text : UInt8} (h : Traced s) (hguard : ByteMarked s.1 text) :
    Traced (traceByte s text) := by
  have hinv := writeByte_inv h.toInv text
  have hcov := (writeByte_covered_iff h.toInv h.covered text).2 hguard.restore
  by_cases hclear : Clears s.1 text
  · have hlive := clear_live h.toLive
    have htracked := clear_tracked h.toLive
    have hend := endSequence_marks s.1.clear
    have hstate : traceByte s text = ({ s.1.clear with ansiState := .ground }, s.1.cursorVisible) := by
      rw [traceByte, writeByte_clears hclear, if_pos hclear]
    rw [hstate]
    refine { toLive := hend.toSamePaper.live hlive { hlive.toInv with }, covered := clear_covered s.1,
             colors := hend.toSamePaper.defaultColors (clear_colors h.colors),
             tracked := hend.tracked hlive { hlive.toInv with } htracked }
  · have hmarks := writeByte_marks h.toInv h.covered h.colors hguard hclear
    have hstate : traceByte s text = (s.1.writeByte text, s.2) := by rw [traceByte, if_neg hclear]
    rw [hstate]
    refine { toLive := hmarks.toSamePaper.live h.toLive hinv, covered := hcov,
             colors := hmarks.toSamePaper.defaultColors h.colors, tracked := ?_ }
    have htracked := hmarks.tracked h.toLive hinv h.tracked
    unfold HomeTile at htracked ⊢
    rwa [tile_of_samePaper hmarks.toSamePaper]

/-- Marking the cursor leaves no pixel excused. -/
theorem markCursor_tracked (h : Live t) (htracked : Tracked t (CursorTile t)) : Tracked t.markCursor fun _ => False := by
  have hmarks := markCell_marks t t.currentLine t.column
  refine (hmarks.tracked h (markCell_inv h.toInv _ _) htracked).imp_right fun hpixels a => ?_
  refine (hpixels a).imp_right fun hrest => Or.inl (hrest.elim id fun ⟨hdraw, ha⟩ => ?_)
  have hrow := cursorRow_lt hdraw
  unfold cursorRow at hrow
  have htile := tile_of_samePaper hmarks.toSamePaper
  refine ⟨t.column, t.cursorRow, hmarks.columns.symm ▸ h.column_lt, hmarks.rows.symm ▸ hrow.2, ?_, htile ▸ ha⟩
  rw [markCursor_eq]
  exact markedCells_self t.currentLine h.column_lt hrow.1 (by omega)

theorem Tracked.mono {excused excused' : Nat → Prop} (h : Tracked t excused) (hle : ∀ a, excused a → excused' a) :
    Tracked t excused' :=
  h.imp_right fun hpixels a => (hpixels a).imp_right fun hrest => hrest.imp_right (hle a)

theorem beginWrite_marks (t : Terminal) : Marks t.markCursor t.beginWrite :=
  Marks.of_cursor ⟨rfl, rfl, rfl, rfl, rfl, rfl, rfl⟩ rfl rfl rfl

/-- A drawn terminal at the start of a write. -/
theorem beginWrite_traced (h : Live t) (hcov : Covered t) (hd : DefaultColors t) (hdrawn : Drawn t) : Traced (t.beginWrite, false) := by
  have hmark := markCell_marks t t.currentLine t.column
  have hlive : Live t.markCursor := hmark.toSamePaper.live h (markCell_inv h.toInv _ _)
  have htracked := markCursor_tracked h (hdrawn.tracked h)
  have hbegin := beginWrite_marks t
  exact { toLive := hbegin.toSamePaper.live hlive (beginWrite_inv h.toInv), covered := markCursor_covered hcov,
          colors := hbegin.toSamePaper.defaultColors (hmark.toSamePaper.defaultColors hd),
          tracked := (hbegin.tracked hlive (beginWrite_inv h.toInv) htracked).mono fun _ hfalse => hfalse.elim }

theorem trace_traced (h : Live t) (hcov : Covered t) (hd : DefaultColors t) (hdrawn : Drawn t) {data : List UInt8}
    (hbytes : Along traceByte (fun s text => ByteMarked s.1 text) (t.beginWrite, false) data) : Traced (t.trace data) :=
  hbytes.invariant Traced (fun _ _ hs hg => traceByte_traced hs hg) (beginWrite_traced h hcov hd hdrawn)

/-- The terminal that the end of a write renders marks the cell at home when `HomeMarked` says so. -/
theorem endWrite_marked_home (h : Inv t) (hhome : HomeMarked t) :
    t.followLiveOutput.markCursor.fullRedraw = true ∨ t.followLiveOutput.markCursor.dirtyCells 0 0 = true := by
  have hc := h.indices.columns_pos
  have hr := h.indices.rows_pos
  rw [markCursor_eq, followLiveOutput_eq]
  dsimp only
  by_cases hview : t.viewportTop = t.liveViewportTop
  · rcases hhome with hfull | hne | hdirty | ⟨hline, hcolumn⟩
    · exact Or.inl (by rw [hfull, Bool.true_or])
    · exact absurd hview hne
    · exact Or.inr (markedCells_of_dirty hdirty)
    · have hself := markedCells_self (t := { t with
        viewportTop := t.liveViewportTop
        fullRedraw := t.fullRedraw || decide (t.viewportTop ≠ t.liveViewportTop)
        row := t.currentLine - t.liveViewportTop }) t.currentLine h.column_lt
        (hview ▸ hline.symm.le) (by dsimp only; omega)
      dsimp only at hself
      rw [← hview, hline, Nat.sub_self, hcolumn] at hself
      rw [← hview, hline, hcolumn]
      exact Or.inr hself
  · exact Or.inl (by simp [hview])

/-! ## Operations -/

/-- A terminal that shows what a redraw would, with rendering enabled and default colours. -/
structure Screen (t : Terminal) : Prop extends Live t where
  covered : Covered t
  colors : DefaultColors t
  drawn : Drawn t

theorem render_colors (h : DefaultColors t) : DefaultColors t.render := by
  rw [render_eq]
  exact ⟨h.foreground, h.background⟩

/-- Rendering a tracked terminal. -/
theorem render_screen (h : Live t) (hcov : Covered t) (hd : DefaultColors t) (htracked : Tracked t (CursorTile t)) :
    Screen t.render :=
  { toLive := render_live h, covered := render_covered hcov, colors := render_colors hd, drawn := render_drawn h htracked }

/-- A write that marks what it changes draws what a redraw would. -/
theorem writeBytes_screen (h : Screen t) {data : List UInt8} (hdata : WriteMarked t data) : Screen (t.writeBytes data) := by
  have htraced := trace_traced h.toLive h.covered h.colors h.drawn hdata.bytes
  have hhome := hdata.home
  have hrun : t.writeBytes data = (t.trace data).1.endWrite := by rw [writeBytes, trace, foldl_traceByte_fst]
  rw [hrun]
  generalize t.trace data = s at htraced hhome
  have hmarks := (followLiveOutput_marks s.1).trans
    (markCell_marks s.1.followLiveOutput s.1.followLiveOutput.currentLine s.1.followLiveOutput.column)
  have hinv := markCursor_inv (followLiveOutput_inv htraced.toCore htraced.column_lt)
  have hlive := hmarks.toSamePaper.live htraced.toLive hinv
  have htracked := hmarks.tracked htraced.toLive hinv htraced.tracked
  refine render_screen hlive (markCursor_covered (followLiveOutput_covered htraced.covered))
    (hmarks.toSamePaper.defaultColors htraced.colors) ?_
  rcases htracked with hfull | hpixels
  · exact Or.inl hfull
  · by_cases hs : s.2 = true
    · rcases endWrite_marked_home htraced.toInv (hhome hs) with hfull | hdirty
      · exact Or.inl hfull
      · refine Or.inr fun a => (hpixels a).imp_right fun hrest => Or.inl (hrest.elim id fun ⟨_, ha⟩ => ?_)
        exact ⟨0, 0, hinv.indices.columns_pos, hinv.indices.rows_pos, hdirty, tile_of_samePaper hmarks.toSamePaper ▸ ha⟩
    · exact Or.inr fun a => (hpixels a).imp_right fun hrest => hrest.imp_right fun ⟨hdrawn, _⟩ => absurd hdrawn hs

theorem clear_screen (h : Screen t) : Screen t.clear :=
  { toLive := clear_live h.toLive, covered := clear_covered t, colors := clear_colors h.colors, drawn := clear_drawn h.toLive }

theorem redraw_screen (h : Screen t) : Screen t.redraw :=
  render_screen { h.toLive with } h.covered ⟨h.colors.foreground, h.colors.background⟩ (Or.inl rfl)

/-- A change of the cursor's visibility marks its cell before and after. -/
theorem markedCursor_screen (h : Screen t) (visible phase : Bool) :
    Screen { t.markCursor with cursorVisible := visible, cursorPhaseVisible := phase }.markCursor.render := by
  have hmark := markCell_marks t t.currentLine t.column
  have hinv : Inv t.markCursor := markCursor_inv h.toInv
  have hlive : Live t.markCursor := hmark.toSamePaper.live h.toLive hinv
  have hflags : Marks t.markCursor { t.markCursor with cursorVisible := visible, cursorPhaseVisible := phase } :=
    Marks.of_cursor ⟨rfl, rfl, rfl, rfl, rfl, rfl, rfl⟩ rfl rfl rfl
  have hmarks := hflags.trans (markCell_marks _ t.markCursor.currentLine t.markCursor.column)
  have hinv' := markCursor_inv (t := { t.markCursor with cursorVisible := visible, cursorPhaseVisible := phase }) { hinv with }
  have htracked := hmarks.tracked hlive hinv' (markCursor_tracked h.toLive (h.drawn.tracked h.toLive))
  exact render_screen (hmarks.toSamePaper.live hlive hinv') (markCursor_covered (markCursor_covered h.covered))
    (hmarks.toSamePaper.defaultColors (hmark.toSamePaper.defaultColors h.colors)) (htracked.mono fun _ hfalse => hfalse.elim)

theorem setCursorVisible_screen (h : Screen t) (visible : Bool) : Screen (t.setCursorVisible visible) := by
  unfold setCursorVisible
  split
  · exact markedCursor_screen h visible _
  · exact h

theorem setCursorPhase_screen (h : Screen t) (visible : Bool) : Screen (t.setCursorPhase visible) := by
  unfold setCursorPhase
  split
  · exact markedCursor_screen h t.markCursor.cursorVisible visible
  · exact h

theorem scrollTo_screen (h : Screen t) {viewportTop : Nat} (hfirst : t.firstLine ≤ viewportTop)
    (hlive : viewportTop ≤ t.liveViewportTop) : Screen (t.scrollTo viewportTop) := by
  unfold scrollTo
  split
  · exact render_screen { h.toLive with first_le_viewport := hfirst, viewport_le_live := hlive } h.covered
      ⟨h.colors.foreground, h.colors.background⟩ (Or.inl rfl)
  · exact render_screen h.toLive h.covered h.colors (h.drawn.tracked h.toLive)

theorem scrollLines_screen (h : Screen t) (lines : Int) : Screen (t.scrollLines lines) := by
  have hfirst := firstLine_le_live t
  refine scrollTo_screen h ?_ ?_
  · split <;> split <;> omega
  · split <;> split <;> omega

theorem scrollToEnd_screen (h : Screen t) : Screen t.scrollToEnd := by
  have hmarks := followLiveOutput_marks t
  have hinv := followLiveOutput_inv h.toCore h.column_lt
  refine render_screen (hmarks.toSamePaper.live h.toLive hinv) (followLiveOutput_covered h.covered)
    (hmarks.toSamePaper.defaultColors h.colors) ?_
  by_cases hview : t.viewportTop = t.liveViewportTop
  · have htracked := hmarks.tracked h.toLive hinv (h.drawn.tracked h.toLive)
    rw [followLiveOutput_eq] at htracked ⊢
    rw [← hview] at htracked ⊢
    exact htracked
  · refine Or.inl ?_
    rw [followLiveOutput_eq]
    simp [hview]

/-! ## Initialisation and resizing -/

/-- The fields of a terminal that `Fitted` and `Live` read beside the invariant. -/
def frame (t : Terminal) : Framebuffer × Nat × Nat × Nat × Bool :=
  (t.framebuffer, t.scale, t.columns, t.rows, t.renderingEnabled)

theorem live_of_frame (h : Live t) (hframe : u.frame = t.frame) (hi : Inv u) : Live u := by
  simp only [frame, Prod.mk.injEq] at hframe
  obtain ⟨hfb, hscale, hcolumns, hrows, henabled⟩ := hframe
  refine { toInv := hi, toFitted := ⟨hscale ▸ h.scale_pos, hcolumns ▸ h.columns_pos, ?_, ?_⟩, enabled := henabled.trans h.enabled }
  · rw [cellWidth, hfb, hscale, hcolumns]
    exact h.columns_fit
  · rw [cellHeight, hfb, hscale, hrows]
    exact h.rows_fit

theorem openCurrentLine_frame (t : Terminal) : t.openCurrentLine.frame = t.frame := by
  unfold openCurrentLine
  split <;> rfl

theorem appendLine_frame (t : Terminal) (hardBreak : Bool) : (t.appendLine hardBreak).frame = t.frame := by
  unfold appendLine
  dsimp only
  rw [followLiveOutput_eq, evictLine_eq]
  exact openCurrentLine_frame _

theorem putCharacter_frame (t : Terminal) (character : UInt8) : (t.putCharacter character).frame = t.frame := by
  have hstore : (t.storeCharacter character).frame = t.frame := by
    rw [storeCharacter_eq]
    rfl
  rw [putCharacter_eq]
  split
  · exact (appendLine_frame _ false).trans hstore
  · exact hstore

theorem reflow_frame (t resized : Terminal) : (t.reflow resized).frame = resized.frame := by
  refine foldl_invariant (fun u : Terminal => u.frame = resized.frame) (fun u line hu => ?_) _ rfl
  have hcell : ∀ (v : Terminal) (column : Nat), v.frame = resized.frame →
      (v.reflowCell (t.lineCells line column)).frame = resized.frame := fun v _ hv => (putCharacter_frame _ _).trans hv
  have hcells := foldl_invariant (fun v : Terminal => v.frame = resized.frame) hcell (List.range (t.lineLength line)) hu
  unfold reflowLine
  dsimp only
  split
  · exact (appendLine_frame _ true).trans hcells
  · exact hcells

/-- An initialised terminal shows what a redraw would. -/
theorem terminalInitWithRendering_screen {heap : Heap} {fb : Framebuffer} {scale : Nat}
    (h : terminalInitWithRendering heap fb scale true = some t) : Screen t := by
  obtain ⟨hscale, hcolumns, hrows, rfl⟩ := terminalInitWithRendering_eq h
  have hfresh : Fresh (newTerminal fb scale true) :=
    { columns_pos := hcolumns, rows_pos := hrows, capacity := rfl, cells := rfl, lineLengths := rfl, hardBreaks := rfl,
      firstLine := rfl, currentLine := rfl, lastLine := rfl, column := rfl, viewportTop := rfl, foreground := rfl,
      background := rfl, reverse := rfl, ansiState := rfl }
  have hfitted : Fitted (newTerminal fb scale true) :=
    ⟨hscale, hcolumns, Nat.div_mul_le_self _ _, Nat.div_mul_le_self _ _⟩
  exact render_screen { toInv := hfresh.inv, toFitted := hfitted, enabled := rfl } hfresh.good.2 ⟨rfl, rfl⟩ (Or.inl rfl)

theorem resize_screen (h : Screen t) {heap : Heap} {fb : Framebuffer} {scale : Nat}
    (hresize : t.resize heap fb scale = some u) : Screen u := by
  obtain ⟨fresh, hfresh, rfl⟩ := Option.map_eq_some_iff.1 hresize
  rw [h.enabled] at hfresh
  have hscreen := terminalInitWithRendering_screen hfresh
  have hreflow : Inv (t.reflow (t.startResize fresh)) := reflow_inv t { hscreen.toInv with }
  have hlive : Live (t.reflow (t.startResize fresh)) := live_of_frame hscreen.toLive (reflow_frame t (t.startResize fresh)) hreflow
  have hstart : Good (t.startResize fresh) := ⟨{ hscreen.toInv with }, hscreen.covered⟩
  exact render_screen { hlive with
    first_le_viewport := le_sub_available (firstLine_le_live _)
    viewport_le_live := Nat.sub_le _ _ } (reflow_good t hstart).2 ⟨h.colors.foreground, h.colors.background⟩ (Or.inl rfl)

/-! ## Runs -/

/-- The operations that leave the colours and the rendering alone, with writes that mark what they change. -/
def OpMarked (t : Terminal) : Op → Prop
  | .writeBytes data => WriteMarked t data
  | .setColors _ _ => False
  | .setRenderingEnabled _ => False
  | _ => True

instance (t : Terminal) : ∀ op, Decidable (OpMarked t op)
  | .writeBytes data => inferInstanceAs (Decidable (WriteMarked t data))
  | .setColors _ _ => isFalse id
  | .setRenderingEnabled _ => isFalse id
  | .clear | .resize _ _ _ | .scrollLines _ | .pageUp | .pageDown | .scrollToStart | .scrollToEnd | .setCursorVisible _
  | .setCursorPhase _ | .redraw => isTrue trivial

theorem apply_screen {op : Op} (h : Screen t) (hop : OpMarked t op) : Screen (t.apply op) := by
  cases op with
  | writeBytes data => exact writeBytes_screen h hop
  | clear => exact clear_screen h
  | resize heap fb scale =>
    show Screen ((t.resize heap fb scale).getD t)
    cases hresize : t.resize heap fb scale with
    | none => exact h
    | some resized => exact resize_screen h hresize
  | scrollLines lines => exact scrollLines_screen h lines
  | pageUp => exact scrollLines_screen h _
  | pageDown => exact scrollLines_screen h _
  | scrollToStart => exact scrollTo_screen h (Nat.le_refl _) (firstLine_le_live t)
  | scrollToEnd => exact scrollToEnd_screen h
  | setCursorVisible visible => exact setCursorVisible_screen h visible
  | setCursorPhase visible => exact setCursorPhase_screen h visible
  | setColors foreground background => exact hop.elim
  | setRenderingEnabled enabled => exact hop.elim
  | redraw => exact redraw_screen h

/-- In every state that a run reaches from an initialised terminal with default colours, the framebuffer is the one that
`terminal_redraw` would draw, as long as every write of the run marks what it changes. -/
theorem drawn_of_run {heap : Heap} {fb : Framebuffer} {scale : Nat} (hinit : terminalInit heap fb scale = some t) {ops : List Op}
    (hops : Along apply OpMarked t ops) : Drawn (t.run ops) :=
  (hops.invariant Screen (fun _ _ hu hop => apply_screen hu hop) (terminalInitWithRendering_screen hinit)).drawn

/-- The cursor is shown and blinks off, between a write of two lines that ends in `ESC [2J`, and a scroll. -/
theorem drawn_of_run_cleared : Drawn (threeByThree.run
    [.setCursorVisible true, .writeBytes [65, 10, 66, 8, 27, 91, 50, 74], .scrollLines (-1), .setCursorPhase false]) :=
  drawn_of_run threeByThree_init (by decide +kernel)

/-! ## A cursor left behind -/

/-- A clean cell away from the cursor keeps its pixels in a dirty redraw. -/
theorem render_clean (h : Live t) (hfull : t.fullRedraw = false) (column row : Nat) {a : Nat} (hc : column < t.columns)
    (hr : row < t.rows) (ha : Tile t column row a) (hclean : t.dirtyCells row column = false) (hcursor : ¬CursorTile t a) :
    t.render.framebuffer.pixels a = t.framebuffer.pixels a := by
  have hdirty : t.drawDirty t.framebuffer.pixels a = t.framebuffer.pixels a := by
    rw [drawDirty_apply h.toFitted hc hr ha, hclean, if_neg (by decide)]
  rw [render, if_pos h.enabled]
  simp only [hfull, Bool.false_eq_true, if_false]
  by_cases hdraw : t.cursorShouldDraw = true
  · exact ((drawCursor_paints h.toFitted h.column_lt hdraw).outside _ a fun ht => hcursor ⟨hdraw, ht⟩).trans hdirty
  · rw [drawCursor_of_not hdraw, hdirty]

/-- An empty cell of a drawn terminal, away from the cursor, has the background colour. -/
theorem Drawn.empty (h : Live t) (hdrawn : Drawn t) (column row : Nat) {a : Nat} (hc : column < t.columns) (hr : row < t.rows)
    (ha : Tile t column row a) (hempty : t.dirtyCell row column = Cell.empty) (hcursor : ¬CursorTile t a) :
    t.framebuffer.pixels a = t.background := by
  rw [drawn_iff h.enabled] at hdrawn
  have hall : t.drawAll t.framebuffer.pixels a = t.background := by
    rw [drawAll_apply h.toFitted h.toInv hc hr ha, hempty, drawCell_empty h.toFitted hc ha]
  refine (congrFun hdrawn a).symm.trans ?_
  by_cases hdraw : t.cursorShouldDraw = true
  · exact ((drawCursor_paints h.toFitted h.column_lt hdraw).outside _ a fun ht => hcursor ⟨hdraw, ht⟩).trans hall
  · rw [drawCursor_of_not hdraw, hall]

/-- The terminal that the end of a write of `ESC [2J` and `ESC [2H` renders, when the cursor is visible. -/
def ghost : Terminal :=
  ([27, 91, 50, 74, 27, 91, 50, 72].foldl writeByte (threeByThree.setCursorVisible true).beginWrite).followLiveOutput.markCursor

theorem ghost_live : Live ghost := by
  have hinv := (terminalInitWithRendering_fresh threeByThree_init).inv
  have hbytes := foldl_invariant Inv (fun _ text hu => writeByte_inv hu text) [27, 91, 50, 74, 27, 91, 50, 72]
    (beginWrite_inv (setCursorVisible_inv hinv true))
  exact { toInv := markCursor_inv (followLiveOutput_inv hbytes.toCore hbytes.column_lt),
          toFitted := ⟨by decide +kernel, by decide +kernel, by decide +kernel, by decide +kernel⟩, enabled := by decide +kernel }

/-- `ESC [2J` draws the cursor at home, and nothing draws over it when `ESC [2H` has moved the cursor to the second row. -/
theorem drawn_broken : terminalInit .ample (.black 24 45) 1 = some .threeByThree ∧
    ¬Drawn (threeByThree.run [.setCursorVisible true, .writeBytes [27, 91, 50, 74, 27, 91, 50, 72]]) := by
  refine ⟨rfl, fun hdrawn => ?_⟩
  have hghost : Drawn ghost.render := hdrawn
  have hempty := Drawn.empty (a := 0) (render_live ghost_live) hghost 0 0 (by decide +kernel) (by decide +kernel)
    ⟨by decide +kernel, by decide +kernel⟩ (by decide +kernel) fun h => absurd h.2.2 (by decide +kernel)
  have hclean := render_clean (a := 0) ghost_live (by decide +kernel) 0 0 (by decide +kernel)
    (by decide +kernel) ⟨by decide +kernel, by decide +kernel⟩ (by decide +kernel) fun h => absurd h.2.2 (by decide +kernel)
  have hcursor : ghost.framebuffer.pixels 0 = 0xffff := by decide +kernel
  have hbackground : ghost.render.background = 0x0000 := by decide +kernel
  rw [hclean, hcursor, hbackground] at hempty
  exact absurd hempty (by decide)

end Terminal
end TabOS
