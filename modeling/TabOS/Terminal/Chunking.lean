import TabOS.Terminal.Shape

/-!
# Writing in parts

The logical state of a terminal is all of it but the view: the framebuffer, the viewport, the dirty cells, the cursor's row and
phase, and the two flags of rendering. A byte's effect on the logical state depends on the logical state alone, and the start and
the end of a write touch the view alone, so the cut between two writes leaves no trace.
-/

namespace TabOS
namespace Terminal

open Library

/-- The part of a terminal that its logical state leaves out. -/
structure View where
  framebuffer : Framebuffer
  row : Nat
  dirtyCells : Nat → Nat → Bool
  viewportTop : Nat
  cursorPhaseVisible : Bool
  fullRedraw : Bool
  renderingEnabled : Bool

/-- The view of a terminal. -/
def view (t : Terminal) : View :=
  { framebuffer := t.framebuffer
    row := t.row
    dirtyCells := t.dirtyCells
    viewportTop := t.viewportTop
    cursorPhaseVisible := t.cursorPhaseVisible
    fullRedraw := t.fullRedraw
    renderingEnabled := t.renderingEnabled }

/-- A terminal with another view. -/
def withView (t : Terminal) (v : View) : Terminal :=
  { t with
    framebuffer := v.framebuffer
    row := v.row
    dirtyCells := v.dirtyCells
    viewportTop := v.viewportTop
    cursorPhaseVisible := v.cursorPhaseVisible
    fullRedraw := v.fullRedraw
    renderingEnabled := v.renderingEnabled }

/-- Two terminals that differ in their views alone. -/
def SameLogic (t u : Terminal) : Prop := t = u.withView t.view

namespace SameLogic

variable {t u w : Terminal}

theorem refl (t : Terminal) : SameLogic t t := rfl

theorem symm (h : SameLogic t u) : SameLogic u t := by
  unfold SameLogic at h ⊢
  rw [h]
  rfl

theorem trans (h : SameLogic t u) (h' : SameLogic u w) : SameLogic t w := by
  unfold SameLogic at h h' ⊢
  rw [h, h']
  rfl

/-- The first of two terminals of the same logical state is the second with a view of its own. -/
theorem exists_view (h : SameLogic t u) : ∃ v, t = u.withView v := ⟨t.view, h⟩

end SameLogic

/-! ## Functions of the view alone -/

theorem followLiveOutput_same (t : Terminal) : SameLogic t.followLiveOutput t := by
  rw [followLiveOutput_eq]
  rfl

theorem markCell_same (t : Terminal) (line column : Nat) : SameLogic (t.markCell line column) t := by
  rw [markCell_eq]
  rfl

theorem markCursor_same (t : Terminal) : SameLogic t.markCursor t := markCell_same t _ _

theorem render_same (t : Terminal) : SameLogic t.render t := by
  rw [render_eq]
  rfl

theorem beginWrite_same (t : Terminal) : SameLogic t.beginWrite t :=
  SameLogic.trans rfl (markCursor_same t)

theorem endWrite_same (t : Terminal) : SameLogic t.endWrite t :=
  (render_same _).trans ((markCursor_same _).trans (followLiveOutput_same t))

/-! ## Functions of the logical state -/

variable {t u : Terminal}

/-- A branch on the logical state takes the same side for both terminals. -/
theorem ite_same {c d : Prop} [Decidable c] [Decidable d] {a b a' b' : Terminal} (hcd : c ↔ d) (ha : SameLogic a a')
    (hb : SameLogic b b') : SameLogic (if c then a else b) (if d then a' else b') := by
  by_cases hc : c
  · rw [if_pos hc, if_pos (hcd.1 hc)]
    exact ha
  · rw [if_neg hc, if_neg fun hd => hc (hcd.2 hd)]
    exact hb

theorem evictLine_same (h : SameLogic t u) : SameLogic t.evictLine u.evictLine := by
  obtain ⟨v, rfl⟩ := h.exists_view
  rw [evictLine_eq, evictLine_eq]
  rfl

theorem openCurrentLine_same (h : SameLogic t u) : SameLogic t.openCurrentLine u.openCurrentLine := by
  obtain ⟨v, rfl⟩ := h.exists_view
  exact ite_same Iff.rfl rfl rfl

theorem lineStart_same (h : SameLogic t u) : SameLogic { t with column := 0 } { u with column := 0 } := by
  obtain ⟨v, rfl⟩ := h.exists_view
  rfl

theorem appendLine_same (h : SameLogic t u) (hardBreak : Bool) : SameLogic (t.appendLine hardBreak) (u.appendLine hardBreak) := by
  have hnext : SameLogic
      { t.setHardBreak t.currentLine hardBreak with currentLine := t.currentLine + 1 }
      { u.setHardBreak u.currentLine hardBreak with currentLine := u.currentLine + 1 } := by
    obtain ⟨v, rfl⟩ := h.exists_view
    rfl
  have hopen := lineStart_same (openCurrentLine_same (evictLine_same hnext))
  exact (followLiveOutput_same _).trans (hopen.trans (followLiveOutput_same _).symm)

theorem storeCharacter_same (h : SameLogic t u) (character : UInt8) :
    SameLogic (t.storeCharacter character) (u.storeCharacter character) := by
  obtain ⟨v, rfl⟩ := h.exists_view
  rw [storeCharacter_eq, storeCharacter_eq]
  rfl

theorem putCharacter_same (h : SameLogic t u) (character : UInt8) :
    SameLogic (t.putCharacter character) (u.putCharacter character) := by
  have hstore := storeCharacter_same h character
  have happend := appendLine_same hstore false
  obtain ⟨v, rfl⟩ := h.exists_view
  rw [putCharacter_eq, putCharacter_eq]
  exact ite_same Iff.rfl happend hstore

theorem tab_same (h : SameLogic t u) : SameLogic t.tab u.tab := by
  have hrun := foldl_related SameLogic (fun _ _ (_ : Nat) hs => putCharacter_same hs 32) (List.range (4 - u.column % 4)) h
  obtain ⟨v, rfl⟩ := h.exists_view
  exact hrun

theorem backspaceLine_same (h : SameLogic t u) : SameLogic t.backspaceLine u.backspaceLine := by
  obtain ⟨v, rfl⟩ := h.exists_view
  rw [backspaceLine_eq, backspaceLine_eq]
  rfl

theorem backspaceCell_same (h : SameLogic t u) : SameLogic t.backspaceCell u.backspaceCell := by
  obtain ⟨v, rfl⟩ := h.exists_view
  by_cases hc : 0 < u.column
  · rw [backspaceCell_eq u hc, backspaceCell_eq (u.withView v) hc]
    rfl
  · rw [backspaceCell_of_zero u hc, backspaceCell_of_zero (u.withView v) hc]
    rfl

theorem backspace_same (h : SameLogic t u) : SameLogic t.backspace u.backspace := by
  have hcell : ∀ {a b : Terminal}, SameLogic a b →
      SameLogic a.backspaceCell.followLiveOutput b.backspaceCell.followLiveOutput := fun hab =>
    (followLiveOutput_same _).trans ((backspaceCell_same hab).trans (followLiveOutput_same _).symm)
  have hback := hcell (backspaceLine_same h)
  have hforth := hcell h
  obtain ⟨v, rfl⟩ := h.exists_view
  exact ite_same Iff.rfl (ite_same Iff.rfl h hback) hforth

theorem ansiSgr_same (h : SameLogic t u) (value : Nat) : SameLogic (t.ansiSgr value) (u.ansiSgr value) := by
  obtain ⟨v, rfl⟩ := h.exists_view
  unfold ansiSgr
  repeat' refine ite_same Iff.rfl rfl ?_
  exact h

theorem selectGraphics_same (h : SameLogic t u) : SameLogic t.selectGraphics u.selectGraphics := by
  have hstep : ∀ (a b : Terminal) (index : Nat), SameLogic a b →
      SameLogic (a.ansiSgr (a.ansiValues index)) (b.ansiSgr (b.ansiValues index)) := by
    intro a b index hab
    have hsgr := ansiSgr_same hab (b.ansiValues index)
    obtain ⟨v, rfl⟩ := hab.exists_view
    exact hsgr
  have hrun := foldl_related SameLogic hstep (List.range u.ansiCount) h
  obtain ⟨v, rfl⟩ := h.exists_view
  exact hrun

theorem clear_same (h : SameLogic t u) : SameLogic t.clear u.clear := by
  obtain ⟨v, rfl⟩ := h.exists_view
  refine (render_same _).trans (SameLogic.trans ?_ (render_same _).symm)
  rfl

theorem coverCursor_same (h : SameLogic t u) : SameLogic t.coverCursor u.coverCursor := by
  have hopen : ∀ n, ∀ {a b : Terminal}, SameLogic a b → SameLogic (openLine^[n] a) (openLine^[n] b) := by
    intro n
    induction n with
    | zero => exact fun hab => hab
    | succ n ih =>
      intro a b hab
      rw [Function.iterate_succ_apply, Function.iterate_succ_apply]
      obtain ⟨v, rfl⟩ := hab.exists_view
      exact ih rfl
  have hrun := hopen (u.currentLine - u.lastLine) h
  obtain ⟨v, rfl⟩ := h.exists_view
  exact hrun

theorem publicCommand_same (h : SameLogic t u) (command : UInt8) :
    SameLogic (t.publicCommand command) (u.publicCommand command) := by
  have hclear := clear_same h
  have hgraphics := selectGraphics_same h
  obtain ⟨v, rfl⟩ := h.exists_view
  exact ite_same Iff.rfl rfl (ite_same Iff.rfl rfl (ite_same Iff.rfl rfl (ite_same Iff.rfl rfl (ite_same Iff.rfl rfl
    (ite_same Iff.rfl rfl (ite_same Iff.rfl hclear (ite_same Iff.rfl rfl (ite_same Iff.rfl hgraphics
    (ite_same Iff.rfl rfl (ite_same Iff.rfl rfl h))))))))))

theorem ansiCommand_same (h : SameLogic t u) (command : UInt8) : SameLogic (t.ansiCommand command) (u.ansiCommand command) := by
  have hcommand := coverCursor_same (publicCommand_same h command)
  obtain ⟨v, rfl⟩ := h.exists_view
  exact ite_same Iff.rfl (ite_same Iff.rfl rfl h) hcommand

theorem writeEscape_same (h : SameLogic t u) (text : UInt8) : SameLogic (t.writeEscape text) (u.writeEscape text) := by
  obtain ⟨v, rfl⟩ := h.exists_view
  exact ite_same Iff.rfl rfl (ite_same Iff.rfl rfl (ite_same Iff.rfl rfl rfl))

theorem writeDigit_same (h : SameLogic t u) (digit : Nat) : SameLogic (t.writeDigit digit) (u.writeDigit digit) := by
  obtain ⟨v, rfl⟩ := h.exists_view
  exact ite_same Iff.rfl rfl rfl

theorem endSequence_same (h : SameLogic t u) :
    SameLogic { t with ansiState := .ground } { u with ansiState := .ground } := by
  obtain ⟨v, rfl⟩ := h.exists_view
  rfl

theorem writeCsi_same (h : SameLogic t u) (text : UInt8) : SameLogic (t.writeCsi text) (u.writeCsi text) := by
  have hdigit := writeDigit_same h (text.toNat - 48)
  have hcommand := ansiCommand_same h text
  obtain ⟨v, rfl⟩ := h.exists_view
  exact ite_same Iff.rfl hdigit (ite_same Iff.rfl (ite_same Iff.rfl rfl rfl)
    (ite_same Iff.rfl rfl (ite_same Iff.rfl rfl (endSequence_same (ite_same Iff.rfl h hcommand)))))

theorem writeGround_same (h : SameLogic t u) (text : UInt8) : SameLogic (t.writeGround text) (u.writeGround text) := by
  have happend := appendLine_same h true
  have hback := backspace_same h
  have htab := tab_same h
  have hput := putCharacter_same h text
  obtain ⟨v, rfl⟩ := h.exists_view
  exact ite_same Iff.rfl rfl (ite_same Iff.rfl happend (ite_same Iff.rfl rfl (ite_same Iff.rfl hback
    (ite_same Iff.rfl htab hput))))

/-- A byte's effect on the logical state depends on the logical state alone. -/
theorem writeByte_same (h : SameLogic t u) (text : UInt8) : SameLogic (t.writeByte text) (u.writeByte text) := by
  have hescape := writeEscape_same h text
  have hcsi := writeCsi_same h text
  have hground := writeGround_same h text
  have hstate : t.ansiState = u.ansiState := by
    obtain ⟨v, rfl⟩ := h.exists_view
    rfl
  refine ite_same Iff.rfl h ?_
  rw [hstate]
  cases u.ansiState with
  | escape => exact hescape
  | csi => exact hcsi
  | ground => exact hground

/-- A write changes the logical state as its bytes do. -/
theorem writeBytes_same (h : SameLogic t u) (data : List UInt8) : SameLogic (t.writeBytes data) (data.foldl writeByte u) :=
  (endWrite_same _).trans
    (foldl_related SameLogic (fun _ _ text hs => writeByte_same hs text) data ((beginWrite_same t).trans h))

/-! ## Two writes -/

/-- The logical state of a terminal: what its screen and its parser hold, apart from the view. -/
structure Logical where
  cells : Nat → Nat → Cell
  lineLengths : Nat → Nat
  hardBreaks : Nat → Bool
  firstLine : Nat
  currentLine : Nat
  lastLine : Nat
  column : Nat
  savedColumn : Nat
  savedLine : Nat
  foreground : Pixel
  background : Pixel
  reverse : Bool
  cursorVisible : Bool
  ansiState : AnsiState
  ansiValues : Nat → Nat
  ansiCount : Nat
  ansiPrivate : Bool
  ansiInvalid : Bool

/-- The logical state of a terminal. -/
def logical (t : Terminal) : Logical :=
  { cells := t.cells
    lineLengths := t.lineLengths
    hardBreaks := t.hardBreaks
    firstLine := t.firstLine
    currentLine := t.currentLine
    lastLine := t.lastLine
    column := t.column
    savedColumn := t.savedColumn
    savedLine := t.savedLine
    foreground := t.foreground
    background := t.background
    reverse := t.reverse
    cursorVisible := t.cursorVisible
    ansiState := t.ansiState
    ansiValues := t.ansiValues
    ansiCount := t.ansiCount
    ansiPrivate := t.ansiPrivate
    ansiInvalid := t.ansiInvalid }

theorem SameLogic.logical_eq {t u : Terminal} (h : SameLogic t u) : t.logical = u.logical := by
  obtain ⟨v, rfl⟩ := h.exists_view
  rfl

/-- From any terminal, two writes reach the logical state of the one write of their bytes. -/
theorem writeBytes_append_logical (t : Terminal) (a b : List UInt8) :
    ((t.writeBytes a).writeBytes b).logical = (t.writeBytes (a ++ b)).logical := by
  have hparts : SameLogic ((t.writeBytes a).writeBytes b) (b.foldl writeByte (a.foldl writeByte t)) :=
    writeBytes_same (writeBytes_same (SameLogic.refl t) a) b
  have hwhole : SameLogic (t.writeBytes (a ++ b)) (b.foldl writeByte (a.foldl writeByte t)) := by
    have h := writeBytes_same (SameLogic.refl t) (a ++ b)
    rwa [List.foldl_append] at h
  exact (hparts.trans hwhole.symm).logical_eq

end Terminal
end TabOS
