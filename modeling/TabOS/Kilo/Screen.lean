import TabOS.Kilo.Save
import Mathlib.Data.Nat.Digits.Defs
import Mathlib.Logic.Function.Basic

/-!
# What is written to the screen

The output of `kilo_render` read as control sequences and cells, and what a terminal shows of it: a cell is put where the cursor is, which
then moves to the right.
-/

namespace TabOS
namespace Kilo

/-- A control sequence of the editor, or a byte that fills a cell. -/
inductive Token where
  | position (row column : Nat)
  | hideCursor
  | showCursor
  | reset
  | eraseLine
  | inverse
  | color (value : Nat)
  | cell (shown : UInt8)
  deriving DecidableEq

/-- The bytes that introduce a control sequence. -/
def csi : List UInt8 := [0x1b, 0x5b]

def Token.bytes : Token → List UInt8
  | .position row column => csi ++ decimal (row + 1) ++ ascii ";" ++ decimal (column + 1) ++ ascii "H"
  | .hideCursor => csi ++ ascii "?25l"
  | .showCursor => csi ++ ascii "?25h"
  | .reset => csi ++ ascii "0m"
  | .eraseLine => csi ++ ascii "2K"
  | .inverse => csi ++ ascii "7m"
  | .color value => csi ++ decimal value ++ ascii "m"
  | .cell shown => [shown]

def bytesOf (tokens : List Token) : List UInt8 := tokens.flatMap Token.bytes

/-- A control character. -/
def IsControl (c : UInt8) : Prop := c < 0x20 ∨ c = 0x7f

instance (c : UInt8) : Decidable (IsControl c) := inferInstanceAs (Decidable (_ ∨ _))

def Token.isPosition : Token → Bool
  | .position _ _ => true
  | _ => false

def Token.cell? : Token → Option UInt8
  | .cell shown => some shown
  | _ => none

/-- The cells of some output. -/
def cellsOf (tokens : List Token) : List UInt8 := tokens.filterMap Token.cell?

/-- What a terminal shows, and its cursor. -/
structure Canvas where
  row : Nat
  column : Nat
  visible : Bool
  cells : Nat → Nat → Option UInt8

def Canvas.paint (canvas : Canvas) : Token → Canvas
  | .position row column => { canvas with row := row, column := column }
  | .hideCursor => { canvas with visible := false }
  | .showCursor => { canvas with visible := true }
  | .eraseLine => { canvas with cells := Function.update canvas.cells canvas.row fun _ => none }
  | .cell shown => { canvas with
      cells := Function.update canvas.cells canvas.row (Function.update (canvas.cells canvas.row) canvas.column (some shown))
      column := canvas.column + 1 }
  | .reset => canvas
  | .inverse => canvas
  | .color _ => canvas

def Canvas.paintAll (canvas : Canvas) (tokens : List Token) : Canvas := tokens.foldl Canvas.paint canvas

/-! ## Sizes -/

theorem bytesOf_append (tokens later : List Token) : bytesOf (tokens ++ later) = bytesOf tokens ++ bytesOf later := List.flatMap_append

theorem bytesOf_cons (token : Token) (tokens : List Token) :
    bytesOf (token :: tokens) = token.bytes ++ bytesOf tokens := List.flatMap_cons

theorem length_decimal {n digits : Nat} (hdigits : 0 < digits) (h : n < 10 ^ digits) : (decimal n).length ≤ digits := by
  rw [decimal, List.length_map]
  exact Nat.toDigits_length 10 n digits hdigits h

theorem length_position {row column : Nat} (hrow : row + 1 < 1000) (hcolumn : column + 1 < 1000) :
    (Token.position row column).bytes.length ≤ 10 := by
  have hrow' : (decimal (row + 1)).length ≤ 3 := length_decimal (by omega) hrow
  have hcolumn' : (decimal (column + 1)).length ≤ 3 := length_decimal (by omega) hcolumn
  have hsemicolon : (ascii ";").length = 1 := rfl
  have hend : (ascii "H").length = 1 := rfl
  have hcsi : csi.length = 2 := rfl
  unfold Token.bytes
  simp only [List.length_append]
  omega

theorem length_color {value : Nat} (h : value < 100) : (Token.color value).bytes.length ≤ 5 := by
  have hvalue : (decimal value).length ≤ 2 := length_decimal (by omega) h
  have hend : (ascii "m").length = 1 := rfl
  have hcsi : csi.length = 2 := rfl
  unfold Token.bytes
  simp only [List.length_append]
  omega

theorem length_bytesOf_flatMap {α : Type*} {l : List α} {tokens : α → List Token} {bound : Nat}
    (h : ∀ x ∈ l, (bytesOf (tokens x)).length ≤ bound) : (bytesOf (l.flatMap tokens)).length ≤ l.length * bound := by
  induction l with
  | nil => exact Nat.zero_le _
  | cons x l ih =>
    rw [List.flatMap_cons, bytesOf_append, List.length_append, List.length_cons, Nat.succ_mul]
    have hfirst := h x List.mem_cons_self
    have hrest := ih fun y hy => h y (List.mem_cons_of_mem _ hy)
    omega

/-! ## Cells of a line -/

/-- After a position there are at most as many cells as fit before the right edge, and no cell is a control character. -/
def Fits (width : Nat) : Nat → List Token → Prop
  | _, [] => True
  | _, .position _ column :: tokens => column < width ∧ Fits width (width - column) tokens
  | room, .cell shown :: tokens => 0 < room ∧ ¬IsControl shown ∧ Fits width (room - 1) tokens
  | room, _ :: tokens => Fits width room tokens

/-- A token that is neither a position nor a cell leaves the room. -/
theorem fits_cons_other {width room : Nat} {token : Token} {tokens : List Token} (hposition : token.isPosition = false)
    (hcell : token.cell? = none) : Fits width room (token :: tokens) ↔ Fits width room tokens := by
  cases token with
  | position => exact nomatch hposition
  | cell => exact nomatch hcell
  | hideCursor | showCursor | reset | eraseLine | inverse | color => exact Iff.rfl

theorem Fits.append {width room : Nat} {tokens later : List Token} (h : Fits width room tokens) (hlater : ∀ room, Fits width room later) :
    Fits width room (tokens ++ later) := by
  induction tokens generalizing room with
  | nil => exact hlater room
  | cons token tokens ih =>
    cases token with
    | position row column => exact ⟨h.1, ih h.2⟩
    | cell shown => exact ⟨h.1, h.2.1, ih h.2.2⟩
    | hideCursor | showCursor | reset | eraseLine | inverse | color => exact ih h

theorem fits_flatMap {α : Type*} {width : Nat} {l : List α} {tokens : α → List Token} (h : ∀ x ∈ l, ∀ room, Fits width room (tokens x))
    (room : Nat) : Fits width room (l.flatMap tokens) := by
  induction l generalizing room with
  | nil => exact trivial
  | cons x l ih =>
    rw [List.flatMap_cons]
    exact (h x List.mem_cons_self room).append (ih fun y hy => h y (List.mem_cons_of_mem _ hy))

/-- Tokens without a position fit where there is room for their cells. -/
theorem fits_of_length {width room : Nat} {tokens : List Token} (hposition : ∀ token ∈ tokens, token.isPosition = false)
    (hcontrol : ∀ shown ∈ cellsOf tokens, ¬IsControl shown) (hroom : (cellsOf tokens).length ≤ room) : Fits width room tokens := by
  induction tokens generalizing room with
  | nil => exact trivial
  | cons token tokens ih =>
    have hrest : ∀ other ∈ tokens, other.isPosition = false := fun other hmem => hposition other (List.mem_cons_of_mem _ hmem)
    rcases hcell : token.cell? with _ | shown
    · have hcells : cellsOf (token :: tokens) = cellsOf tokens := List.filterMap_cons_none hcell
      rw [hcells] at hcontrol hroom
      exact (fits_cons_other (hposition token List.mem_cons_self) hcell).2 (ih hrest hcontrol hroom)
    · have hcells : cellsOf (token :: tokens) = shown :: cellsOf tokens := List.filterMap_cons_some hcell
      rw [hcells] at hcontrol hroom
      rw [List.length_cons] at hroom
      cases token with
      | cell other =>
        obtain rfl : other = shown := Option.some.inj hcell
        exact ⟨by omega, hcontrol other List.mem_cons_self, ih hrest (fun c hc => hcontrol c (List.mem_cons_of_mem _ hc)) (by omega)⟩
      | position | hideCursor | showCursor | reset | eraseLine | inverse | color => exact nomatch hcell

theorem Fits.of_append {width room : Nat} {tokens later : List Token} (h : Fits width room (tokens ++ later)) :
    ∃ room', Fits width room' later := by
  induction tokens generalizing room with
  | nil => exact ⟨room, h⟩
  | cons token tokens ih =>
    cases token with
    | position row column => exact ih h.2
    | cell shown => exact ih h.2.2
    | hideCursor | showCursor | reset | eraseLine | inverse | color => exact ih h

theorem Fits.length_le {width room : Nat} {tokens later : List Token} (h : Fits width room (tokens ++ later))
    (hposition : ∀ token ∈ tokens, token.isPosition = false) : (cellsOf tokens).length ≤ room := by
  induction tokens generalizing room with
  | nil => exact Nat.zero_le _
  | cons token tokens ih =>
    have hrest : ∀ other ∈ tokens, other.isPosition = false := fun other hmem => hposition other (List.mem_cons_of_mem _ hmem)
    cases token with
    | position row column => exact absurd (hposition _ List.mem_cons_self) (by simp [Token.isPosition])
    | cell shown =>
      have hle := ih h.2.2 hrest
      have hpos := h.1
      show (cellsOf tokens).length + 1 ≤ room
      omega
    | hideCursor | showCursor | reset | eraseLine | inverse | color => exact ih h hrest

/-- The cells behind a position, up to the next. -/
theorem Fits.after_position {width room row column : Nat} {before tokens later : List Token}
    (h : Fits width room (before ++ .position row column :: (tokens ++ later))) (hposition : ∀ token ∈ tokens, token.isPosition = false) :
    column + (cellsOf tokens).length ≤ width := by
  obtain ⟨room', hcolumn, hfits⟩ := h.of_append
  have hle := hfits.length_le hposition
  omega

theorem Fits.not_control {width room : Nat} {tokens : List Token} (h : Fits width room tokens) {shown : UInt8}
    (hmem : .cell shown ∈ tokens) : ¬IsControl shown := by
  obtain ⟨before, after, rfl⟩ := List.append_of_mem hmem
  obtain ⟨room', hfits⟩ := h.of_append
  exact hfits.2.1

/-! ## What is shown -/

theorem paintAll_append (canvas : Canvas) (tokens later : List Token) :
    canvas.paintAll (tokens ++ later) = (canvas.paintAll tokens).paintAll later := List.foldl_append

/-- Output at other rows leaves a row as it is. -/
theorem cells_paintAll_of_ne {y : Nat} {canvas : Canvas} {tokens : List Token} (hrow : canvas.row ≠ y)
    (hposition : ∀ row column, Token.position row column ∈ tokens → row ≠ y) :
    (canvas.paintAll tokens).cells y = canvas.cells y ∧ (canvas.paintAll tokens).row ≠ y := by
  induction tokens generalizing canvas with
  | nil => exact ⟨rfl, hrow⟩
  | cons token tokens ih =>
    have hrest : ∀ row column, Token.position row column ∈ tokens → row ≠ y :=
      fun row column hmem => hposition row column (List.mem_cons_of_mem _ hmem)
    have hstep : (canvas.paint token).cells y = canvas.cells y ∧ (canvas.paint token).row ≠ y := by
      cases token with
      | position row column => exact ⟨rfl, hposition row column List.mem_cons_self⟩
      | eraseLine => exact ⟨Function.update_of_ne (Ne.symm hrow) _ _, hrow⟩
      | cell shown => exact ⟨Function.update_of_ne (Ne.symm hrow) _ _, hrow⟩
      | hideCursor | showCursor | reset | inverse | color => exact ⟨rfl, hrow⟩
    obtain ⟨hcells, hend⟩ := ih hstep.2 hrest
    exact ⟨hcells.trans hstep.1, hend⟩

/-- A token that fills a cell or changes the color. -/
def Token.InRow : Token → Prop
  | .cell _ => True
  | .color _ => True
  | _ => False

theorem Token.InRow.isPosition {token : Token} (h : token.InRow) : token.isPosition = false := by
  cases token with
  | position => exact h.elim
  | hideCursor | showCursor | reset | eraseLine | inverse | color | cell => rfl

/-- Cells that are put behind others in a row. -/
theorem cells_paintAll {canvas : Canvas} {tokens : List Token} {shown : List UInt8} (htokens : ∀ token ∈ tokens, token.InRow)
    (hcolumn : canvas.column = shown.length) (hcells : ∀ x, canvas.cells canvas.row x = shown[x]?) (x : Nat) :
    (canvas.paintAll tokens).cells canvas.row x = (shown ++ cellsOf tokens)[x]? := by
  induction tokens generalizing canvas shown with
  | nil =>
    rw [cellsOf, List.filterMap_nil, List.append_nil]
    exact hcells x
  | cons token tokens ih =>
    have hrest : ∀ other ∈ tokens, other.InRow := fun other hmem => htokens other (List.mem_cons_of_mem _ hmem)
    cases token with
    | color value => exact ih hrest hcolumn hcells
    | cell c =>
      have hnext := @ih (canvas.paint (.cell c)) (shown ++ [c]) hrest
        (by rw [List.length_append, ← hcolumn]; rfl) (fun x => by
          show Function.update canvas.cells canvas.row (Function.update (canvas.cells canvas.row) canvas.column (some c)) canvas.row x = _
          rw [Function.update_self]
          by_cases hx : x = canvas.column
          · rw [hx, Function.update_self, hcolumn, List.getElem?_append_right (Nat.le_refl _), Nat.sub_self]
            rfl
          · rw [Function.update_of_ne hx, hcells]
            by_cases hlt : x < shown.length
            · rw [List.getElem?_append_left hlt]
            · rw [List.getElem?_eq_none (by omega), List.getElem?_eq_none]
              rw [List.length_append, List.length_singleton]
              omega)
      rw [List.append_assoc] at hnext
      exact hnext
    | position | hideCursor | showCursor | reset | eraseLine | inverse => exact (htokens _ List.mem_cons_self).elim

end Kilo
end TabOS
