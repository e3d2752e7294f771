import TabOS.Terminal.Chunking
import TabOS.Terminal.Representation

/-!
# Backspace undoes printing

From a cursor at the end of the last line, a printed byte grows that line by a cell, and opens a line after it when it is full. A
backspace takes the cell away again, and the line after it too.
-/

namespace TabOS
namespace Terminal

open Library

/-- A byte that `terminal_write_bytes` stores in a cell. -/
def Printed (text : UInt8) : Prop :=
  text ≠ 0 ∧ text ≠ 0x1b ∧ text ≠ 10 ∧ text ≠ 13 ∧ text ≠ 8 ∧ text ≠ 0x7f ∧ text ≠ 9

/-- A byte that `terminal_write_bytes` takes as a backspace. -/
def Erases (text : UInt8) : Prop := text = 8 ∨ text = 0x7f

instance (text : UInt8) : Decidable (Printed text) := by
  unfold Printed
  infer_instance

instance (text : UInt8) : Decidable (Erases text) := by
  unfold Erases
  infer_instance

/-- The cursor is on the last line, at its end, and the line is empty or its last cell is not. -/
structure AtEnd (t : Terminal) : Prop where
  current : t.currentLine = t.lastLine
  column : t.column = t.lineLength t.currentLine
  trimmed : t.lineLength t.currentLine = 0 ∨ t.lineCells t.currentLine (t.lineLength t.currentLine - 1) ≠ Cell.empty

/-- The cursor is where it was, and from a line on so is every line up to the last. -/
structure SameFrom (line : Nat) (t u : Terminal) : Prop where
  capacity : u.lineCapacity = t.lineCapacity
  columns : u.columns = t.columns
  current : u.currentLine = t.currentLine
  column : u.column = t.column
  last : u.lastLine = t.lastLine
  cells : ∀ l, line ≤ l → l ≤ t.lastLine → u.lineCells l = t.lineCells l
  lengths : ∀ l, line ≤ l → l ≤ t.lastLine → u.lineLength l = t.lineLength l
  breaks : ∀ l, line ≤ l → l ≤ t.lastLine → u.hardBreak l = t.hardBreak l

variable {t u : Terminal} {line : Nat} {character : UInt8}

theorem SameFrom.refl (line : Nat) (t : Terminal) : SameFrom line t t :=
  ⟨rfl, rfl, rfl, rfl, rfl, fun _ _ _ => rfl, fun _ _ _ => rfl, fun _ _ _ => rfl⟩

/-! ## One line -/

/-- A line that ends in a character is not trimmed. -/
theorem trimmedLength_eq {cells : Nat → Cell} {length : Nat} (h : length = 0 ∨ (cells (length - 1)).character ≠ 0) :
    trimmedLength cells length = length := by
  cases length with
  | zero => rfl
  | succ length =>
    have hkept : ¬(cells length).character = 0 := by simpa using h
    rw [trimmedLength, if_neg hkept]

/-- A cell stored past the end of a line and erased again. -/
theorem erase_stored {cells : Nat → Cell} {length columns : Nat} (h : LineStored columns cells length)
    (htrimmed : length = 0 ∨ cells (length - 1) ≠ Cell.empty) (hlt : length < columns) (cell : Cell) :
    Function.update (Function.update cells length cell) length Cell.empty = cells ∧
      trimmedLength (Function.update (Function.update cells length cell) length Cell.empty) (length + 1) = length := by
  have hcells : Function.update (Function.update cells length cell) length Cell.empty = cells := by
    rw [Function.update_idem, Function.update_eq_self_iff]
    exact (h.blank length (Nat.le_refl _) hlt).symm
  have hempty : (cells length).character = 0 := by
    rw [h.blank length (Nat.le_refl _) hlt]
    rfl
  refine ⟨hcells, ?_⟩
  rw [hcells, trimmedLength, if_pos hempty]
  exact trimmedLength_eq (htrimmed.imp_right fun hne hzero => hne (h.erased _ hzero))

/-! ## Erasing a cell -/

/-- A terminal whose last line has grown by a cell, and whose other lines from a line on are as they were. -/
structure Grown (line : Nat) (cell : Cell) (t u : Terminal) : Prop where
  capacity : u.lineCapacity = t.lineCapacity
  columns : u.columns = t.columns
  current : u.currentLine = t.currentLine
  column : u.column = t.column + 1
  last : u.lastLine = t.lastLine
  currentCells : u.lineCells t.currentLine = Function.update (t.lineCells t.currentLine) t.column cell
  currentLength : u.lineLength t.currentLine = t.column + 1
  cells : ∀ l, line ≤ l → l < t.currentLine → u.lineCells l = t.lineCells l
  lengths : ∀ l, line ≤ l → l < t.currentLine → u.lineLength l = t.lineLength l
  breaks : ∀ l, line ≤ l → l ≤ t.currentLine → u.hardBreak l = t.hardBreak l

/-- Erasing the cell before the cursor takes the line's growth back. -/
theorem Grown.erase {cell : Cell} (h : Grown line cell t u) (hinv : Inv t) (hend : AtEnd t)
    (hwindow : t.currentLine - line < t.lineCapacity) : SameFrom line t u.backspaceCell.followLiveOutput := by
  have hcolumn := h.column
  have hlt := hinv.column_lt
  obtain ⟨hcells, hlength⟩ := erase_stored (hinv.line t.currentLine) hend.trimmed (hend.column ▸ hlt) cell
  have herased : Function.update (u.lineCells u.currentLine) (u.column - 1) Cell.empty = t.lineCells t.currentLine := by
    rw [h.current, h.currentCells, hcolumn, Nat.add_sub_cancel, hend.column]
    exact hcells
  have htrimmed : trimmedLength (Function.update (u.lineCells u.currentLine) (u.column - 1) Cell.empty) (u.lineLength u.currentLine) =
      t.lineLength t.currentLine := by
    rw [h.current, h.currentCells, h.currentLength, hcolumn, Nat.add_sub_cancel, hend.column]
    exact hlength
  rw [followLiveOutput_eq, backspaceCell_eq u (by omega)]
  have hcurrent := hend.current
  refine ⟨h.capacity, h.columns, h.current, ?_, h.last, fun l hle hlast => ?_, fun l hle hlast => ?_, fun l hle hlast => ?_⟩
  · show u.column - 1 = t.column
    omega
  · show Function.update u.cells (u.currentLine % u.lineCapacity)
      (Function.update (u.lineCells u.currentLine) (u.column - 1) Cell.empty) (l % u.lineCapacity) = t.lineCells l
    rw [herased, h.current, h.capacity]
    rcases Nat.lt_or_eq_of_le (hlast.trans_eq hcurrent.symm) with hbefore | rfl
    · rw [update_slot_of_ne _ _ (by omega) (by omega) (by omega), ← h.cells l hle hbefore, lineCells, lineSlot, h.capacity]
    · exact Function.update_self _ _ _
  · show Function.update u.lineLengths (u.currentLine % u.lineCapacity)
      (trimmedLength (Function.update (u.lineCells u.currentLine) (u.column - 1) Cell.empty) (u.lineLength u.currentLine))
      (l % u.lineCapacity) = t.lineLength l
    rw [htrimmed, h.current, h.capacity]
    rcases Nat.lt_or_eq_of_le (hlast.trans_eq hcurrent.symm) with hbefore | rfl
    · rw [update_slot_of_ne _ _ (by omega) (by omega) (by omega), ← h.lengths l hle hbefore, lineLength, lineSlot, h.capacity]
    · exact Function.update_self _ _ _
  · exact h.breaks l hle (hlast.trans_eq hcurrent.symm)

/-! ## Printing -/

/-- The cell of a printed byte. -/
def printedCell (t : Terminal) (character : UInt8) : Cell := ⟨character, t.foreground, t.background, t.reverse⟩

theorem printedCell_ne (t : Terminal) (hne : character ≠ 0) : t.printedCell character ≠ Cell.empty :=
  fun h => hne (congrArg Cell.character h)

/-- A byte printed at the end of a line. -/
theorem storeCharacter_atEnd (h : AtEnd t) (character : UInt8) :
    t.storeCharacter character = { t with
      cells := Function.update t.cells (t.currentLine % t.lineCapacity)
        (Function.update (t.lineCells t.currentLine) t.column (t.printedCell character))
      lineLengths := Function.update t.lineLengths (t.currentLine % t.lineCapacity) (t.column + 1)
      dirtyCells := t.markedCells t.currentLine t.column
      column := t.column + 1 } := by
  have hmax : max (t.lineLength t.currentLine) (t.column + 1) = t.column + 1 := by
    rw [h.column]
    omega
  rw [storeCharacter_eq, hmax]
  rfl

/-- A byte printed on the last line with room after it leaves the cursor at the end. -/
theorem putCharacter_room (h : AtEnd t) (hroom : t.column + 1 < t.columns) (hne : character ≠ 0) :
    t.putCharacter character = t.storeCharacter character ∧ AtEnd (t.putCharacter character) := by
  have hput : t.putCharacter character = t.storeCharacter character := by rw [putCharacter_eq, if_neg (by omega)]
  refine ⟨hput, ?_⟩
  rw [hput, storeCharacter_atEnd h]
  have hlength : Function.update t.lineLengths (t.currentLine % t.lineCapacity) (t.column + 1) (t.currentLine % t.lineCapacity) =
      t.column + 1 := Function.update_self _ _ _
  refine ⟨h.current, hlength.symm, Or.inr ?_⟩
  show Function.update t.cells (t.currentLine % t.lineCapacity)
    (Function.update (t.lineCells t.currentLine) t.column (t.printedCell character)) (t.currentLine % t.lineCapacity)
    (Function.update t.lineLengths (t.currentLine % t.lineCapacity) (t.column + 1) (t.currentLine % t.lineCapacity) - 1) ≠ Cell.empty
  rw [hlength, Function.update_self, Nat.add_sub_cancel, Function.update_self]
  exact printedCell_ne t hne

/-- A byte printed in the last column leaves the cursor on a new last line. -/
theorem putCharacter_full (h : AtEnd t) (hfull : t.columns ≤ t.column + 1) (character : UInt8) :
    t.putCharacter character = followLiveOutput { t with
      cells := Function.update (Function.update t.cells (t.currentLine % t.lineCapacity)
        (Function.update (t.lineCells t.currentLine) t.column (t.printedCell character)))
        ((t.currentLine + 1) % t.lineCapacity) fun _ => Cell.empty
      lineLengths := Function.update (Function.update t.lineLengths (t.currentLine % t.lineCapacity) (t.column + 1))
        ((t.currentLine + 1) % t.lineCapacity) 0
      hardBreaks := Function.update (Function.update t.hardBreaks (t.currentLine % t.lineCapacity) false)
        ((t.currentLine + 1) % t.lineCapacity) false
      currentLine := t.currentLine + 1
      lastLine := t.currentLine + 1
      firstLine := if t.lineCapacity < t.currentLine + 1 - t.firstLine + 1 then t.firstLine + 1 else t.firstLine
      dirtyCells := t.markedCells t.currentLine t.column
      column := 0 } := by
  rw [putCharacter_eq, if_pos hfull, storeCharacter_atEnd h]
  exact appendLine_of_ge _ _ h.current.ge

theorem putCharacter_atEnd (h : AtEnd t) (hne : character ≠ 0) : AtEnd (t.putCharacter character) := by
  rcases Nat.lt_or_ge (t.column + 1) t.columns with hroom | hfull
  · exact (putCharacter_room h hroom hne).2
  · rw [putCharacter_full h hfull, followLiveOutput_eq]
    have hlength : Function.update (Function.update t.lineLengths (t.currentLine % t.lineCapacity) (t.column + 1))
        ((t.currentLine + 1) % t.lineCapacity) 0 ((t.currentLine + 1) % t.lineCapacity) = 0 := Function.update_self _ _ _
    exact ⟨rfl, hlength.symm, Or.inl hlength⟩

/-! ## A byte and its backspace -/

/-- After a byte that leaves room on the line, the line has grown by a cell. -/
theorem grown_of_room (h : AtEnd t) (hroom : t.column + 1 < t.columns) (hne : character ≠ 0)
    (hwindow : t.currentLine - line < t.lineCapacity) (hline : line ≤ t.currentLine)
    (hsame : SameFrom line (t.putCharacter character) u) : Grown line (t.printedCell character) t u := by
  rw [(putCharacter_room h hroom hne).1, storeCharacter_atEnd h] at hsame
  have hlast : t.currentLine ≤ t.lastLine := h.current.le
  have hslot : ∀ (β : Type) (store : Nat → β) (value : β) (l : Nat), line ≤ l → l < t.currentLine →
      Function.update store (t.currentLine % t.lineCapacity) value (l % t.lineCapacity) = store (l % t.lineCapacity) :=
    fun β store value l hle hlt => update_slot_of_ne store value (by omega) (by omega) (by omega)
  refine ⟨hsame.capacity, hsame.columns, hsame.current, hsame.column, hsame.last, ?_, ?_, fun l hle hlt => ?_, fun l hle hlt => ?_,
    fun l hle hlt => ?_⟩
  · exact (hsame.cells _ hline hlast).trans (Function.update_self _ _ _)
  · exact (hsame.lengths _ hline hlast).trans (Function.update_self _ _ _)
  · exact (hsame.cells l hle (hlt.le.trans hlast)).trans (hslot _ _ _ l hle hlt)
  · exact (hsame.lengths l hle (hlt.le.trans hlast)).trans (hslot _ _ _ l hle hlt)
  · exact hsame.breaks l hle (hlt.trans hlast)

/-- Going back from the last line to a line before it leaves the lines up to it as they are. -/
theorem backspaceLine_from_last (hlast : u.lastLine = u.currentLine) {previous : Nat} (hprevious : u.currentLine = previous + 1)
    (hone : 1 < u.lineCapacity) : u.backspaceLine.currentLine = previous ∧ u.backspaceLine.lastLine = previous ∧
      u.backspaceLine.column = min u.columns (u.lineLength previous) ∧ u.backspaceLine.hardBreak previous = false ∧
      ∀ l, previous + 1 - l < u.lineCapacity → l ≤ previous → u.backspaceLine.lineCells l = u.lineCells l ∧
        u.backspaceLine.lineLength l = u.lineLength l ∧ (l ≠ previous → u.backspaceLine.hardBreak l = u.hardBreak l) := by
  rw [backspaceLine_eq, hlast, if_pos rfl, hprevious, Nat.add_sub_cancel]
  have hslot : ∀ (β : Type) (store : Nat → β) (value : β) (l : Nat), previous + 1 - l < u.lineCapacity → l ≤ previous →
      Function.update store ((previous + 1) % u.lineCapacity) value (l % u.lineCapacity) = store (l % u.lineCapacity) :=
    fun β store value l hl hle => update_slot_of_ne store value (by omega) (by omega) hl
  refine ⟨rfl, rfl, ?_, Function.update_self _ _ _, fun l hl hle => ⟨?_, ?_, fun hne => ?_⟩⟩
  · exact congrArg (min u.columns) (hslot _ _ _ _ (by omega) (Nat.le_refl _))
  · exact hslot _ _ _ l hl hle
  · exact hslot _ _ _ l hl hle
  · have hother : ∀ store : Nat → Bool, Function.update store (previous % u.lineCapacity) false (l % u.lineCapacity) =
        store (l % u.lineCapacity) := fun store => update_slot_of_ne store false hne (by omega) (by omega)
    exact (hother _).trans (hslot _ _ _ l hl hle)

/-- After a byte in the last column, a backspace that gives up the new line leaves the line before it grown by a cell. -/
theorem grown_of_full (hinv : Inv t) (h : AtEnd t) (hfull : t.columns ≤ t.column + 1)
    (hwindow : t.currentLine + 1 - line < t.lineCapacity) (hline : line ≤ t.currentLine)
    (hsame : SameFrom line (t.putCharacter character) u) : Grown line (t.printedCell character) t u.backspaceLine := by
  have hlt := hinv.column_lt
  have hsoft : t.hardBreak t.currentLine = false := by
    rw [h.current]
    exact hinv.lastSoft
  have hend := h.current
  rw [putCharacter_full h hfull, followLiveOutput_eq] at hsame
  have hcapacity : u.lineCapacity = t.lineCapacity := hsame.capacity
  have hcolumns : u.columns = t.columns := hsame.columns
  have hcurrent : u.currentLine = t.currentLine + 1 := hsame.current
  have hlast : u.lastLine = t.currentLine + 1 := hsame.last
  obtain ⟨hback, hbackLast, hbackColumn, hbackSoft, hlines⟩ := backspaceLine_from_last (hlast.trans hcurrent.symm) hcurrent (by omega)
  have hopened : ∀ (β : Type) (store : Nat → β) (value : β) (l : Nat), line ≤ l → l ≤ t.currentLine →
      Function.update store ((t.currentLine + 1) % t.lineCapacity) value (l % t.lineCapacity) = store (l % t.lineCapacity) :=
    fun β store value l hle hlt => update_slot_of_ne store value (by omega) (by omega) (by omega)
  have hother : ∀ (β : Type) (store : Nat → β) (value : β) (l : Nat), line ≤ l → l < t.currentLine →
      Function.update store (t.currentLine % t.lineCapacity) value (l % t.lineCapacity) = store (l % t.lineCapacity) :=
    fun β store value l hle hlt => update_slot_of_ne store value (by omega) (by omega) (by omega)
  have hcells : u.lineCells t.currentLine = Function.update (t.lineCells t.currentLine) t.column (t.printedCell character) :=
    (hsame.cells _ hline (Nat.le_succ _)).trans
      ((hopened _ _ _ _ hline (Nat.le_refl _)).trans (Function.update_self _ _ _))
  have hlength : u.lineLength t.currentLine = t.column + 1 :=
    (hsame.lengths _ hline (Nat.le_succ _)).trans
      ((hopened _ _ _ _ hline (Nat.le_refl _)).trans (Function.update_self _ _ _))
  refine ⟨?_, ?_, hback, ?_, hbackLast.trans hend, ?_, ?_, fun l hle hl => ?_, fun l hle hl => ?_, fun l hle hl => ?_⟩
  · rw [backspaceLine_eq]
    exact hcapacity
  · rw [backspaceLine_eq]
    exact hcolumns
  · rw [hbackColumn, hcolumns, hlength]
    omega
  · exact (hlines _ (by omega) (Nat.le_refl _)).1.trans hcells
  · exact (hlines _ (by omega) (Nat.le_refl _)).2.1.trans hlength
  · refine (hlines l (by omega) (by omega)).1.trans ((hsame.cells l hle (Nat.le_succ_of_le hl.le)).trans ?_)
    exact (hopened _ _ _ l hle hl.le).trans (hother _ _ _ l hle hl)
  · refine (hlines l (by omega) (by omega)).2.1.trans ((hsame.lengths l hle (Nat.le_succ_of_le hl.le)).trans ?_)
    exact (hopened _ _ _ l hle hl.le).trans (hother _ _ _ l hle hl)
  · rcases Nat.lt_or_eq_of_le hl with hbefore | rfl
    · refine ((hlines l (by omega) (by omega)).2.2 (by omega)).trans ((hsame.breaks l hle (Nat.le_succ_of_le hl)).trans ?_)
      exact (hopened _ _ _ l hle hl).trans (hother _ _ _ l hle hbefore)
    · exact hbackSoft.trans hsoft.symm

/-- A backspace undoes a printed byte, and keeps to the lines from one on that is retained. -/
theorem backspace_putCharacter (hinv : Inv t) (h : AtEnd t) (hne : character ≠ 0) (hline : line ≤ t.currentLine)
    (huinv : Inv u) (hfirst : u.firstLine ≤ line) (hsame : SameFrom line (t.putCharacter character) u) :
    SameFrom line t u.backspace := by
  have hwindow := huinv.indices.window
  rcases Nat.lt_or_ge (t.column + 1) t.columns with hroom | hfull
  · have hcolumn : u.column = t.column + 1 := by
      rw [hsame.column, (putCharacter_room h hroom hne).1, storeCharacter_atEnd h]
    have hlast : u.lastLine = t.currentLine := by
      rw [hsame.last, (putCharacter_room h hroom hne).1, storeCharacter_atEnd h, h.current]
    have hcapacity : u.lineCapacity = t.lineCapacity := by
      rw [hsame.capacity, (putCharacter_room h hroom hne).1, storeCharacter_atEnd h]
    rw [backspace, if_neg (by omega)]
    exact (grown_of_room h hroom hne (by omega) hline hsame).erase hinv h (by omega)
  · have hput := putCharacter_full h hfull character
    rw [followLiveOutput_eq] at hput
    have hcolumn : u.column = 0 := by rw [hsame.column, hput]
    have hcurrent : u.currentLine = t.currentLine + 1 := by rw [hsame.current, hput]
    have hlast : u.lastLine = t.currentLine + 1 := by rw [hsame.last, hput]
    have hcapacity : u.lineCapacity = t.lineCapacity := by rw [hsame.capacity, hput]
    have hgoes : ¬u.backspaceStops = true := by
      have hretained : u.currentLine ≠ u.firstLine := by omega
      have hbelow : ¬u.currentLine < u.lastLine := by omega
      simp [backspaceStops, hretained, hbelow]
    rw [backspace, if_pos hcolumn, if_neg hgoes]
    exact (grown_of_full hinv h hfull (by omega) hline hsame).erase hinv h (by omega)

/-! ## A text and its backspaces -/

theorem putCharacter_current_le (h : AtEnd t) (hne : character ≠ 0) : t.currentLine ≤ (t.putCharacter character).currentLine := by
  rcases Nat.lt_or_ge (t.column + 1) t.columns with hroom | hfull
  · rw [(putCharacter_room h hroom hne).1, storeCharacter_atEnd h]
  · rw [putCharacter_full h hfull, followLiveOutput_eq]
    exact Nat.le_succ _

theorem putCharacter_ansiState (h : AtEnd t) (hne : character ≠ 0) : (t.putCharacter character).ansiState = t.ansiState := by
  rcases Nat.lt_or_ge (t.column + 1) t.columns with hroom | hfull
  · rw [(putCharacter_room h hroom hne).1, storeCharacter_atEnd h]
  · rw [putCharacter_full h hfull, followLiveOutput_eq]

theorem backspaceCell_frame (t : Terminal) : t.backspaceCell.firstLine = t.firstLine ∧ t.backspaceCell.ansiState = t.ansiState := by
  by_cases hc : 0 < t.column
  · rw [backspaceCell_eq t hc]
    exact ⟨rfl, rfl⟩
  · rw [backspaceCell_of_zero t hc]
    exact ⟨rfl, rfl⟩

/-- A backspace evicts no line and leaves the parser. -/
theorem backspace_frame (t : Terminal) : t.backspace.firstLine = t.firstLine ∧ t.backspace.ansiState = t.ansiState := by
  have hline : t.backspaceLine.firstLine = t.firstLine ∧ t.backspaceLine.ansiState = t.ansiState := by
    rw [backspaceLine_eq]
    exact ⟨rfl, rfl⟩
  unfold backspace
  split_ifs
  · exact ⟨rfl, rfl⟩
  · rw [followLiveOutput_eq]
    exact ⟨(backspaceCell_frame _).1.trans hline.1, (backspaceCell_frame _).2.trans hline.2⟩
  · rw [followLiveOutput_eq]
    exact backspaceCell_frame t

theorem iterate_backspace_frame (n : Nat) (t : Terminal) :
    (backspace^[n] t).firstLine = t.firstLine ∧ (backspace^[n] t).ansiState = t.ansiState := by
  induction n with
  | zero => exact ⟨rfl, rfl⟩
  | succ n ih =>
    rw [Function.iterate_succ_apply']
    exact ⟨(backspace_frame _).1.trans ih.1, (backspace_frame _).2.trans ih.2⟩

theorem iterate_backspace_inv (n : Nat) (h : Inv t) : Inv (backspace^[n] t) := by
  induction n with
  | zero => exact h
  | succ n ih =>
    rw [Function.iterate_succ_apply']
    exact backspace_inv ih

theorem foldl_putCharacter_inv (h : Inv t) {text : List UInt8} (hne : ∀ byte ∈ text, byte ≠ 0) :
    Inv (text.foldl putCharacter t) := by
  induction text generalizing t with
  | nil => exact h
  | cons byte text ih =>
    obtain ⟨hbyte, hrest⟩ := List.forall_mem_cons.1 hne
    exact ih (putCharacter_inv h hbyte) hrest

/-- As many backspaces as there were bytes undo a printed text. -/
theorem backspaces_undo (hinv : Inv t) (h : AtEnd t) {text : List UInt8} (hne : ∀ byte ∈ text, byte ≠ 0)
    (hline : line ≤ t.currentLine) (hfirst : (text.foldl putCharacter t).firstLine ≤ line) :
    SameFrom line t (backspace^[text.length] (text.foldl putCharacter t)) := by
  induction text generalizing t with
  | nil => exact SameFrom.refl line t
  | cons byte text ih =>
    obtain ⟨hbyte, hrest⟩ := List.forall_mem_cons.1 hne
    have hput := putCharacter_inv hinv hbyte
    have hsame := ih hput (putCharacter_atEnd h hbyte) hrest (hline.trans (putCharacter_current_le h hbyte)) hfirst
    rw [List.length_cons, Function.iterate_succ_apply', List.foldl_cons]
    have hkept := iterate_backspace_inv text.length (foldl_putCharacter_inv hput hrest)
    exact backspace_putCharacter hinv h hbyte hline hkept
      ((iterate_backspace_frame text.length (text.foldl putCharacter (t.putCharacter byte))).1.le.trans hfirst) hsame

/-! ## The bytes of a write -/

theorem writeByte_ground (hground : t.ansiState = .ground) {byte : UInt8} (hne : byte ≠ 0) : t.writeByte byte = t.writeGround byte := by
  rw [writeByte, if_neg hne, hground]

/-- Printed bytes are put into cells. -/
theorem foldl_writeByte_printed (hground : t.ansiState = .ground) (h : AtEnd t) {text : List UInt8}
    (htext : ∀ byte ∈ text, Printed byte) :
    text.foldl writeByte t = text.foldl putCharacter t ∧ (text.foldl putCharacter t).ansiState = .ground := by
  induction text generalizing t with
  | nil => exact ⟨rfl, hground⟩
  | cons byte text ih =>
    obtain ⟨⟨hzero, hescape, hnewline, hreturn, hback, hdelete, htab⟩, hrest⟩ := List.forall_mem_cons.1 htext
    have hwrite : t.writeByte byte = t.putCharacter byte := by
      rw [writeByte_ground hground hzero, writeGround, if_neg hescape, if_neg hnewline, if_neg hreturn,
        if_neg (not_or.2 ⟨hback, hdelete⟩), if_neg htab]
    rw [List.foldl_cons, List.foldl_cons, hwrite]
    exact ih ((putCharacter_ansiState h hzero).trans hground) (putCharacter_atEnd h hzero) hrest

/-- Erasing bytes are backspaces. -/
theorem foldl_writeByte_erases (hground : t.ansiState = .ground) {erasing : List UInt8} (herasing : ∀ byte ∈ erasing, Erases byte) :
    erasing.foldl writeByte t = backspace^[erasing.length] t := by
  induction erasing generalizing t with
  | nil => rfl
  | cons byte erasing ih =>
    obtain ⟨hbyte, hrest⟩ := List.forall_mem_cons.1 herasing
    have hne : byte ≠ 0 ∧ byte ≠ 0x1b ∧ byte ≠ 10 ∧ byte ≠ 13 := by
      rcases hbyte with rfl | rfl <;> decide
    have hwrite : t.writeByte byte = t.backspace := by
      rw [writeByte_ground hground hne.1, writeGround, if_neg hne.2.1, if_neg hne.2.2.1, if_neg hne.2.2.2]
      exact if_pos hbyte
    rw [List.foldl_cons, hwrite, ih ((backspace_frame t).2.trans hground) hrest, List.length_cons, Function.iterate_succ_apply]

theorem SameFrom.of_same {w : Terminal} (h : SameFrom line t u) (hsame : SameLogic w u) : SameFrom line t w := by
  obtain ⟨v, rfl⟩ := hsame.exists_view
  exact { h with }

/-- In every state that a run reaches outside an escape sequence with the cursor at the end of the last line, backspaces undo a
printed text of their number that does not evict that line. -/
theorem backspaces_undo_printing {heap : Heap} {fb : Framebuffer} {scale : Nat} {enabled : Bool} {start : Terminal}
    (hinit : terminalInitWithRendering heap fb scale enabled = some start) (ops : List Op)
    (hground : (start.run ops).ansiState = .ground) (hend : AtEnd (start.run ops)) (text : List UInt8)
    (htext : ∀ byte ∈ text, Printed byte) (hevict : ((start.run ops).writeBytes text).firstLine ≤ (start.run ops).currentLine)
    (erasing : List UInt8) (herasing : ∀ byte ∈ erasing, Erases byte) (hlength : erasing.length = text.length) :
    SameFrom (start.run ops).currentLine (start.run ops) (((start.run ops).writeBytes text).writeBytes erasing) := by
  generalize hreached : start.run ops = t at *
  have hinv : Inv t := by
    rw [← hreached]
    exact foldl_invariant Inv (fun _ op hu => apply_inv hu op) ops (terminalInitWithRendering_fresh hinit).inv
  obtain ⟨hprinted, hstate⟩ := foldl_writeByte_printed hground hend htext
  have hwritten := writeBytes_same (SameLogic.refl t) text
  rw [hprinted] at hwritten
  have herased := writeBytes_same hwritten erasing
  rw [foldl_writeByte_erases hstate herasing, hlength] at herased
  have hfirst : (text.foldl putCharacter t).firstLine ≤ t.currentLine := by
    have hkept := congrArg Logical.firstLine hwritten.logical_eq
    exact hkept.ge.trans hevict
  exact (backspaces_undo hinv hend (fun byte hmem => (htext byte hmem).1) (Nat.le_refl _) hfirst).of_same herased

/-- Seven bytes over two wraps of a terminal of three columns, after `A`. -/
theorem backspaces_undo_wraps :
    SameFrom 0 (threeByThree.run [.writeBytes [65]])
      (((threeByThree.run [.writeBytes [65]]).writeBytes [66, 67, 68, 69, 70, 71, 72]).writeBytes [8, 8, 8, 8, 8, 8, 127]) :=
  @backspaces_undo_printing .ample _ 1 true _ threeByThree_init [.writeBytes [65]] rfl
    ⟨by decide +kernel, by decide +kernel, by decide +kernel⟩ [66, 67, 68, 69, 70, 71, 72] (by simp [Printed]) (by decide +kernel)
    [8, 8, 8, 8, 8, 8, 127] (by simp [Erases]) rfl

/-- After `A` and ESC, a `B` is taken as the rest of a sequence, and the backspace erases the `A`. -/
theorem backspace_in_sequence :
    AtEnd (threeByThree.run [.writeBytes [65, 27]]) ∧ Printed 66 ∧ Erases 8 ∧
      ((threeByThree.run [.writeBytes [65, 27]]).writeBytes [66]).firstLine ≤ (threeByThree.run [.writeBytes [65, 27]]).currentLine ∧
      ¬SameFrom (threeByThree.run [.writeBytes [65, 27]]).currentLine (threeByThree.run [.writeBytes [65, 27]])
        (((threeByThree.run [.writeBytes [65, 27]]).writeBytes [66]).writeBytes [8]) :=
  ⟨⟨by decide +kernel, by decide +kernel, by decide +kernel⟩, by decide, by decide, by decide +kernel,
    fun h => absurd h.column (by decide +kernel)⟩

end Terminal
end TabOS
