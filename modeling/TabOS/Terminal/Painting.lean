import TabOS.Terminal.Invariant
import TabOS.Library.Overlay

/-!
# What is painted where

A cell is drawn on its tile and nowhere else, over whatever was there; an empty cell is drawn as the background. So the full redraw
and the dirty redraw give every tile the picture of its cell, and leave the rest to the clearing of the framebuffer.
-/

namespace TabOS

open Library

/-! ## Spans and glyphs -/

theorem rasterFillSpan_paints (destination count : Nat) (color : Pixel) :
    Paints (fun a => destination ≤ a ∧ a < destination + count) (fun pixels => rasterFillSpan pixels destination count color) :=
  ⟨fun _ _ ha => if_neg ha, fun _ _ _ ha => (if_pos ha).trans (if_pos ha).symm⟩

/-- The addresses of a glyph: from a row and a column of the picture on, as many of both as the glyph is high and wide. -/
def GlyphBox (fb : Framebuffer) (x y scale address : Nat) : Prop :=
  ∃ dy dx, dy < fontGlyphHeight * scale ∧ dx < fontGlyphWidth * scale ∧ address = (y + dy) * fb.stridePixels + (x + dx)

theorem glyphRun_le (color : Nat → Pixel) (column fuel run : Nat) (h : column + run ≤ fontGlyphWidth) :
    column + glyphRun color column fuel run ≤ fontGlyphWidth := by
  induction fuel generalizing run with
  | zero => exact h
  | succ fuel ih =>
    unfold glyphRun
    split
    · rename_i hrun
      exact ih (run + 1) hrun.1
    · exact h

/-- A run that starts in the picture is a span. -/
theorem drawGlyphRun_eq (fb : Framebuffer) (x outputY scale column run : Nat) (color : Pixel) (pixels : Nat → Pixel) :
    drawGlyphRun fb x outputY scale column run color pixels =
      if x + column * scale < fb.width then
        rasterFillSpan pixels (outputY * fb.stridePixels + (x + column * scale))
          (min (run * scale) (fb.width - (x + column * scale))) color
      else pixels := by
  have hstart : (x : Int) + (column * scale : Nat) = ((x + column * scale : Nat) : Int) := by push_cast; rfl
  unfold drawGlyphRun
  dsimp only
  rw [hstart, if_neg (by omega), Int.toNat_natCast, show (-((x + column * scale : Nat) : Int)).toNat = 0 by omega, Nat.sub_zero]

/-- A row of a glyph, drawn from a column on, stays on the row. -/
theorem drawGlyphColumns_local (fb : Framebuffer) (color : Nat → Pixel) (x outputY scale fuel column : Nat) :
    Local (fun a => ∃ dx, dx < fontGlyphWidth * scale ∧ a = outputY * fb.stridePixels + (x + dx))
      (drawGlyphColumns fb color x outputY scale fuel column) := by
  induction fuel generalizing column with
  | zero => exact Local.id
  | succ fuel ih =>
    by_cases hcolumn : column < fontGlyphWidth
    · have hrun := glyphRun_le color column fontGlyphWidth 1 hcolumn
      have hspan : Local (fun a => ∃ dx, dx < fontGlyphWidth * scale ∧ a = outputY * fb.stridePixels + (x + dx))
          (drawGlyphRun fb x outputY scale column (glyphRun color column fontGlyphWidth 1) (color column)) := by
        have hle := Nat.mul_le_mul_right scale hrun
        rw [Nat.add_mul] at hle
        have heq := funext (drawGlyphRun_eq fb x outputY scale column (glyphRun color column fontGlyphWidth 1) (color column))
        rw [heq]
        refine Local.ite ((rasterFillSpan_paints _ _ _).isLocal.mono fun a ha => ?_) Local.id
        exact ⟨a - outputY * fb.stridePixels - x, by omega, by omega⟩
      have hstep := (ih (column + glyphRun color column fontGlyphWidth 1)).comp hspan
      have heq : drawGlyphColumns fb color x outputY scale (fuel + 1) column = fun pixels =>
          drawGlyphColumns fb color x outputY scale fuel (column + glyphRun color column fontGlyphWidth 1)
            (drawGlyphRun fb x outputY scale column (glyphRun color column fontGlyphWidth 1) (color column) pixels) := by
        funext pixels
        rw [drawGlyphColumns, if_pos hcolumn]
      rw [heq]
      exact hstep
    · have heq : drawGlyphColumns fb color x outputY scale (fuel + 1) column = fun pixels => pixels := by
        funext pixels
        rw [drawGlyphColumns, if_neg hcolumn]
      rw [heq]
      exact Local.id

theorem drawGlyphRow_local (fb : Framebuffer) (x y : Nat) (character : UInt8) (scale : Nat) (foreground background : Pixel)
    {row sy : Nat} (hrow : row < fontGlyphHeight) (hsy : sy < scale) :
    Local (GlyphBox fb x y scale) fun pixels => drawGlyphRow fb x y character scale foreground background pixels row sy := by
  have hy : (y : Int) + (row * scale + sy : Nat) = ((y + (row * scale + sy) : Nat) : Int) := by push_cast; rfl
  have hlt : row * scale + sy < fontGlyphHeight * scale := by
    have hle := Nat.mul_le_mul_right scale (Nat.succ_le_of_lt hrow)
    rw [Nat.succ_mul] at hle
    omega
  unfold drawGlyphRow
  dsimp only
  rw [hy, Int.toNat_natCast]
  refine Local.ite Local.id ((drawGlyphColumns_local _ _ _ _ _ _ _).mono ?_)
  rintro a ⟨dx, hdx, ha⟩
  exact ⟨row * scale + sy, dx, hlt, hdx, ha⟩

/-- A character is drawn in its box. -/
theorem fontDrawChar_local (fb : Framebuffer) (x y : Nat) (character : UInt8) (scale : Nat) (foreground background : Pixel) :
    Local (GlyphBox fb x y scale) (fontDrawChar fb x y character scale foreground background) := by
  refine Local.foldl fun row hrow => Local.foldl fun sy hsy => ?_
  exact drawGlyphRow_local fb x y character scale foreground background (List.mem_range.1 hrow) (List.mem_range.1 hsy)

/-! ## The space -/

/-- The glyph of the space has no bit set. -/
theorem glyphBit_space : ∀ row < fontGlyphHeight, ∀ column < fontGlyphWidth, glyphBit 32 row column = false := by
  decide

/-- A row of one colour leaves a place of that colour. -/
theorem drawGlyphColumns_keeps (fb : Framebuffer) {color : Nat → Pixel} {c : Pixel}
    (hcolor : ∀ column < fontGlyphWidth, color column = c) (x outputY scale fuel column : Nat) {pixels : Nat → Pixel} {a : Nat}
    (ha : pixels a = c) : drawGlyphColumns fb color x outputY scale fuel column pixels a = c := by
  induction fuel generalizing column pixels with
  | zero => exact ha
  | succ fuel ih =>
    unfold drawGlyphColumns
    split
    · rename_i hcolumn
      refine ih _ ?_
      rw [drawGlyphRun_eq, hcolor column hcolumn]
      split
      · rw [rasterFillSpan]
        split
        · rfl
        · exact ha
      · exact ha
    · exact ha

/-- A space leaves a place of its background. -/
theorem fontDrawChar_space (fb : Framebuffer) (x y scale : Nat) (foreground background : Pixel) {pixels : Nat → Pixel} {a : Nat}
    (ha : pixels a = background) : fontDrawChar fb x y 32 scale foreground background pixels a = background := by
  have hrow : ∀ row < fontGlyphHeight, ∀ (sy : Nat) (pixels : Nat → Pixel), pixels a = background →
      drawGlyphRow fb x y 32 scale foreground background pixels row sy a = background := by
    intro row hrow sy pixels ha
    have hcolor : ∀ column < fontGlyphWidth, (if glyphBit 32 row column then foreground else background) = background := by
      intro column hcolumn
      rw [glyphBit_space row hrow column hcolumn]
      rfl
    unfold drawGlyphRow
    split
    · exact ha
    · exact drawGlyphColumns_keeps fb hcolor _ _ _ _ _ ha
  have hrows : ∀ rows : List Nat, (∀ row ∈ rows, row < fontGlyphHeight) → ∀ pixels : Nat → Pixel, pixels a = background →
      rows.foldl (fun pixels row => (List.range scale).foldl
        (fun pixels sy => drawGlyphRow fb x y 32 scale foreground background pixels row sy) pixels) pixels a = background := by
    intro rows
    induction rows with
    | nil => exact fun _ _ ha => ha
    | cons row rows ih =>
      intro hrows pixels ha
      obtain ⟨hlt, hrows⟩ := List.forall_mem_cons.1 hrows
      exact ih hrows _ (foldl_invariant (fun pixels : Nat → Pixel => pixels a = background)
        (fun pixels sy hpixels => hrow row hlt sy pixels hpixels) _ ha)
  exact hrows _ (fun row => List.mem_range.1) pixels ha

namespace Terminal

/-! ## Tiles -/

/-- The grid of cells lies in the picture. -/
structure Fitted (t : Terminal) : Prop where
  scale_pos : 0 < t.scale
  columns_pos : 0 < t.columns
  columns_fit : t.columns * t.cellWidth ≤ t.framebuffer.width
  rows_fit : t.rows * t.cellHeight ≤ t.framebuffer.height

/-- The addresses of the pixels of a cell. -/
def Tile (t : Terminal) (column row address : Nat) : Prop :=
  address % t.framebuffer.stridePixels / t.cellWidth = column ∧ address / t.framebuffer.stridePixels / t.cellHeight = row

/-- The addresses of the picture. -/
def InPicture (fb : Framebuffer) (address : Nat) : Prop :=
  address % fb.stridePixels < fb.width ∧ address / fb.stridePixels < fb.height

namespace Fitted

variable {t : Terminal}

theorem cellWidth_pos (h : Fitted t) : 0 < t.cellWidth := Nat.mul_pos (by decide) h.scale_pos

theorem cellHeight_pos (h : Fitted t) : 0 < t.cellHeight := Nat.mul_pos (by decide) h.scale_pos

/-- A column of cells ends within a row of pixels. -/
theorem column_le (h : Fitted t) {column : Nat} (hc : column < t.columns) :
    column * t.cellWidth + t.cellWidth ≤ t.framebuffer.stridePixels := by
  have hle := Nat.mul_le_mul_right t.cellWidth (Nat.succ_le_of_lt hc)
  rw [Nat.succ_mul] at hle
  exact hle.trans (h.columns_fit.trans t.framebuffer.width_le_stride)

/-- The address of a pixel of a cell. -/
theorem tile_of_offset (h : Fitted t) {column dx dy : Nat} (hc : column < t.columns) (row : Nat) (hx : dx < t.cellWidth)
    (hy : dy < t.cellHeight) :
    Tile t column row ((row * t.cellHeight + dy) * t.framebuffer.stridePixels + (column * t.cellWidth + dx)) := by
  have hle := h.column_le hc
  have hlt : column * t.cellWidth + dx < t.framebuffer.stridePixels := by omega
  refine ⟨?_, ?_⟩
  · rw [Nat.mul_add_mod_of_lt hlt, Nat.add_comm, Nat.add_mul_div_right _ _ h.cellWidth_pos, Nat.div_eq_of_lt hx, Nat.zero_add]
  · rw [Nat.mul_comm, Nat.mul_add_div (by omega), Nat.div_eq_of_lt hlt, Nat.add_zero, Nat.add_comm,
      Nat.add_mul_div_right _ _ h.cellHeight_pos, Nat.div_eq_of_lt hy, Nat.zero_add]

/-- A pixel of a cell of the grid is in the picture. -/
theorem inPicture_of_tile (h : Fitted t) {column row a : Nat} (hc : column < t.columns) (hr : row < t.rows)
    (ha : Tile t column row a) : InPicture t.framebuffer a := by
  obtain ⟨hx, hy⟩ := ha
  have hcolumns := h.columns_fit
  have hrows := h.rows_fit
  refine ⟨?_, ?_⟩
  · rw [← hx, Nat.div_lt_iff_lt_mul h.cellWidth_pos] at hc
    omega
  · rw [← hy, Nat.div_lt_iff_lt_mul h.cellHeight_pos] at hr
    omega

end Fitted

variable {t : Terminal}

/-- The fill of a cell paints its tile. -/
theorem fillCell_paints (h : Fitted t) {column : Nat} (hc : column < t.columns) (row : Nat) (color : Pixel) :
    Paints (Tile t column row) fun pixels => (List.range t.cellHeight).foldl (fun pixels y =>
      rasterFillSpan pixels ((row * t.cellHeight + y) * t.framebuffer.stridePixels + column * t.cellWidth) t.cellWidth color)
      pixels := by
  refine (Paints.foldl fun y _ => rasterFillSpan_paints _ _ _).congr fun a => ?_
  have hle := h.column_le hc
  constructor
  · rintro ⟨y, hy, hge, hlt⟩
    have hdx : a - ((row * t.cellHeight + y) * t.framebuffer.stridePixels + column * t.cellWidth) < t.cellWidth := by omega
    have hoffset := h.tile_of_offset hc row hdx (List.mem_range.1 hy)
    rwa [← Nat.add_assoc, Nat.add_sub_cancel' hge] at hoffset
  · rintro ⟨hx, hy⟩
    have hdiv := Nat.div_add_mod a t.framebuffer.stridePixels
    have hdivx := Nat.div_add_mod (a % t.framebuffer.stridePixels) t.cellWidth
    have hdivy := Nat.div_add_mod (a / t.framebuffer.stridePixels) t.cellHeight
    have hmodx := Nat.mod_lt (a % t.framebuffer.stridePixels) h.cellWidth_pos
    have hmody := Nat.mod_lt (a / t.framebuffer.stridePixels) h.cellHeight_pos
    rw [hx, Nat.mul_comm] at hdivx
    rw [hy, Nat.mul_comm] at hdivy
    rw [Nat.mul_comm] at hdiv
    refine ⟨a / t.framebuffer.stridePixels % t.cellHeight, List.mem_range.2 hmody, ?_⟩
    rw [hdivy]
    omega

/-- A cell is drawn on its tile. -/
theorem drawCell_paints (h : Fitted t) {column : Nat} (hc : column < t.columns) (row : Nat) (cell : Cell) (cursor : Bool) :
    Paints (Tile t column row) (t.drawCell column row cell cursor) := by
  have hbox : ∀ a, GlyphBox t.framebuffer (column * t.cellWidth) (row * t.cellHeight) t.scale a → Tile t column row a := by
    rintro a ⟨dy, dx, hdy, hdx, rfl⟩
    exact h.tile_of_offset hc row (hdx.trans_le (Nat.le_refl _)) (hdy.trans_le (Nat.mul_le_mul_right _ (by decide)))
  unfold drawCell
  dsimp only
  generalize (if cell.reverse then _ else _ : Pixel × Pixel) = ink
  obtain ⟨foreground, background⟩ := ink
  exact (fillCell_paints h hc row _).then_local ((fontDrawChar_local _ _ _ _ _ _ _).mono hbox)

/-- The cell that is shown in place of a cell: a space in the colours of the terminal for an empty one. -/
def shown (t : Terminal) (cell : Cell) : Cell :=
  if cell.character = 0 then ⟨32, t.foreground, t.background, cell.reverse⟩ else cell

theorem drawCell_shown (t : Terminal) (column row : Nat) (cell : Cell) (cursor : Bool) :
    t.drawCell column row (t.shown cell) cursor = t.drawCell column row cell cursor := by
  unfold drawCell shown
  split
  · rfl
  · rfl

/-- An empty cell is drawn as the background. -/
theorem drawCell_empty (h : Fitted t) {column row a : Nat} (hc : column < t.columns) (ha : Tile t column row a)
    (pixels : Nat → Pixel) : t.drawCell column row Cell.empty false pixels a = t.background := by
  have hfill : (List.range t.cellHeight).foldl (fun pixels y => rasterFillSpan pixels
      ((row * t.cellHeight + y) * t.framebuffer.stridePixels + column * t.cellWidth) t.cellWidth t.background) pixels a =
        t.background := by
    rw [(fillCell_paints h hc row t.background).inside pixels (fun _ => t.background) a ha]
    refine foldl_invariant (fun pixels : Nat → Pixel => pixels a = t.background) (fun pixels y hpixels => ?_) _ rfl
    rw [rasterFillSpan]
    split
    · rfl
    · exact hpixels
  exact fontDrawChar_space _ _ _ _ t.foreground t.background hfill

/-! ## Redraws -/

theorem clearFramebuffer_paints (fb : Framebuffer) (hs : 0 < fb.stridePixels) (background : Pixel) :
    Paints (InPicture fb) (clearFramebuffer fb background) := by
  refine (Paints.foldl fun y _ => rasterFillSpan_paints _ _ _).congr fun a => ?_
  have hdiv := Nat.div_add_mod a fb.stridePixels
  have hle := fb.width_le_stride
  constructor
  · rintro ⟨y, hy, hge, hlt⟩
    have hy := List.mem_range.1 hy
    have hlt' : a - y * fb.stridePixels < fb.stridePixels := by omega
    have ha : a = y * fb.stridePixels + (a - y * fb.stridePixels) := by omega
    refine ⟨?_, ?_⟩
    · rw [ha, Nat.mul_add_mod_of_lt hlt']
      omega
    · rw [ha, Nat.add_comm, Nat.add_mul_div_right _ _ hs, Nat.div_eq_of_lt hlt', Nat.zero_add]
      exact hy
  · rintro ⟨hx, hy⟩
    rw [Nat.mul_comm] at hdiv
    exact ⟨a / fb.stridePixels, List.mem_range.2 hy, by omega, by omega⟩

theorem clearFramebuffer_apply {fb : Framebuffer} (hs : 0 < fb.stridePixels) (background : Pixel) {a : Nat}
    (ha : InPicture fb a) (pixels : Nat → Pixel) : clearFramebuffer fb background pixels a = background := by
  rw [(clearFramebuffer_paints fb hs background).inside pixels (fun _ => background) a ha]
  refine foldl_invariant (fun pixels : Nat → Pixel => pixels a = background) (fun pixels y hpixels => ?_) _ rfl
  rw [rasterFillSpan]
  split
  · rfl
  · exact hpixels

/-- The addresses of the cells of a row. -/
def RowTile (t : Terminal) (row address : Nat) : Prop := ∃ column, column < t.columns ∧ Tile t column row address

/-- A row of the full redraw stays on its tiles. -/
theorem drawLine_local (h : Fitted t) (hi : Core t) (row : Nat) :
    Local (RowTile t row) fun pixels => t.drawLine pixels row := by
  have hlength := (hi.line (t.viewportTop + row)).length_le
  unfold drawLine
  refine Local.ite Local.id (Local.foldl fun column hcolumn => ?_)
  have hc : column < t.columns := (List.mem_range.1 hcolumn).trans_le hlength
  exact (drawCell_paints h hc row _ false).isLocal.mono fun a ha => ⟨column, hc, ha⟩

/-- A row of the dirty redraw stays on its tiles. -/
theorem drawDirtyLine_local (h : Fitted t) (row : Nat) : Local (RowTile t row) fun pixels => t.drawDirtyLine pixels row := by
  refine Local.foldl fun column hcolumn => Local.ite ?_ Local.id
  have hc := List.mem_range.1 hcolumn
  exact (drawCell_paints h hc row _ false).isLocal.mono fun a ha => ⟨column, hc, ha⟩

/-- A row has no tile of another. -/
theorem not_rowTile_of_ne {column row row' a : Nat} (ha : Tile t column row a) (hne : row' ≠ row) : ¬RowTile t row' a :=
  fun ⟨_, _, ha'⟩ => hne (ha'.2.symm.trans ha.2)

/-- A row of the full redraw draws the cells of its line, and leaves the rest of its tiles. -/
theorem drawLine_apply (h : Fitted t) (hi : Inv t) {column row a : Nat} (hc : column < t.columns) (ha : Tile t column row a)
    {pixels : Nat → Pixel} (hp : pixels a = t.background) :
    t.drawLine pixels row a = t.drawCell column row (t.dirtyCell row column) false pixels a := by
  have hfirst : ¬t.viewportTop + row < t.firstLine := by
    have := hi.first_le_viewport
    omega
  have hline := hi.line (t.viewportTop + row)
  have hempty := drawCell_empty h hc ha pixels
  unfold drawLine dirtyCell
  rcases Nat.lt_or_ge t.lastLine (t.viewportTop + row) with hlast | hlast
  · rw [if_pos (Or.inr hlast), if_neg (by omega), hempty, hp]
  · rw [if_neg (not_or.2 ⟨hfirst, by omega⟩), if_pos hlast]
    have hcells : ∀ x, x < t.lineLength (t.viewportTop + row) → Local (Tile t x row) fun pixels =>
        t.drawCell x row (t.lineCells (t.viewportTop + row) x) false pixels :=
      fun x hx => (drawCell_paints h (hx.trans_le hline.length_le) row _ false).isLocal
    rw [foldl_range_apply hcells fun x _ hne ha' => hne (ha'.1.symm.trans ha.1)]
    split
    · rfl
    · rename_i hlength
      rw [hline.blank column (by omega) hc, hempty, hp]

/-- The full redraw gives a tile the picture of its cell. -/
theorem drawAll_apply (h : Fitted t) (hi : Inv t) {column row a : Nat} (hc : column < t.columns) (hr : row < t.rows)
    (ha : Tile t column row a) (pixels : Nat → Pixel) :
    t.drawAll pixels a = t.drawCell column row (t.dirtyCell row column) false pixels a := by
  have hs : 0 < t.framebuffer.stridePixels := by
    have := h.column_le hc
    have := h.cellWidth_pos
    omega
  have hclear := clearFramebuffer_apply hs t.background (h.inPicture_of_tile hc hr ha) pixels
  unfold drawAll
  rw [foldl_range_apply (fun j _ => drawLine_local h hi.toCore j) fun j _ hne => not_rowTile_of_ne ha hne, if_pos hr,
    drawLine_apply h hi hc ha hclear]
  exact (drawCell_paints h hc row _ false).inside _ _ a ha

/-- The dirty redraw gives a tile the picture of its cell, if it is dirty. -/
theorem drawDirty_apply (h : Fitted t) {column row a : Nat} (hc : column < t.columns) (hr : row < t.rows)
    (ha : Tile t column row a) (pixels : Nat → Pixel) :
    t.drawDirty pixels a =
      if t.dirtyCells row column then t.drawCell column row (t.dirtyCell row column) false pixels a else pixels a := by
  have hcells : ∀ x, x < t.columns → Local (Tile t x row) fun pixels =>
      if t.dirtyCells row x then t.drawCell x row (t.dirtyCell row x) false pixels else pixels :=
    fun x hx => Local.ite (drawCell_paints h hx row _ false).isLocal Local.id
  unfold drawDirty
  rw [foldl_range_apply (fun j _ => drawDirtyLine_local h j) fun j _ hne => not_rowTile_of_ne ha hne, if_pos hr]
  unfold drawDirtyLine
  rw [foldl_range_apply hcells fun x _ hne ha' => hne (ha'.1.symm.trans ha.1), if_pos hc]
  split <;> rfl

/-- The addresses of the cells of the grid. -/
def GridTile (t : Terminal) (address : Nat) : Prop := ∃ row, row < t.rows ∧ RowTile t row address

/-- The full redraw clears what lies outside the grid. -/
theorem drawAll_outside (h : Fitted t) (hi : Core t) {a : Nat} (ha : ¬GridTile t a) (pixels : Nat → Pixel) :
    t.drawAll pixels a = clearFramebuffer t.framebuffer t.background pixels a := by
  have hrows : Local (GridTile t) fun pixels => (List.range t.rows).foldl t.drawLine pixels :=
    Local.foldl fun row hrow => (drawLine_local h hi row).mono fun a ha => ⟨row, List.mem_range.1 hrow, ha⟩
  exact hrows.outside _ a ha

/-- The dirty redraw leaves what lies outside the grid. -/
theorem drawDirty_outside (h : Fitted t) {a : Nat} (ha : ¬GridTile t a) (pixels : Nat → Pixel) : t.drawDirty pixels a = pixels a := by
  have hrows : Local (GridTile t) t.drawDirty :=
    Local.foldl fun row hrow => (drawDirtyLine_local h row).mono fun a ha => ⟨row, List.mem_range.1 hrow, ha⟩
  exact hrows.outside _ a ha

theorem inPicture_of_gridTile (h : Fitted t) {a : Nat} (ha : GridTile t a) : InPicture t.framebuffer a := by
  obtain ⟨row, hr, column, hc, ha⟩ := ha
  exact h.inPicture_of_tile hc hr ha

/-- The full redraw paints the picture. -/
theorem drawAll_paints (h : Fitted t) (hi : Core t) : Paints (InPicture t.framebuffer) t.drawAll := by
  have hs : 0 < t.framebuffer.stridePixels := by
    have := h.column_le h.columns_pos
    have := h.cellWidth_pos
    omega
  have hrows : Local (InPicture t.framebuffer) fun pixels => (List.range t.rows).foldl t.drawLine pixels :=
    Local.foldl fun row hrow => (drawLine_local h hi row).mono fun a ha =>
      inPicture_of_gridTile h ⟨row, List.mem_range.1 hrow, ha⟩
  exact (clearFramebuffer_paints t.framebuffer hs t.background).then_local hrows

/-! ## The cursor -/

/-- The row of the screen that the cursor is on, when it is on the screen. -/
def cursorRow (t : Terminal) : Nat := t.currentLine - t.viewportTop

theorem cursorRow_lt (h : t.cursorShouldDraw = true) : t.viewportTop ≤ t.currentLine ∧ t.cursorRow < t.rows := by
  simp only [cursorShouldDraw, Bool.and_eq_true, decide_eq_true_eq] at h
  unfold cursorRow
  omega

/-- The cursor is drawn on the tile of its cell. -/
theorem drawCursor_paints (h : Fitted t) (hc : t.column < t.columns) (hdraw : t.cursorShouldDraw = true) :
    Paints (Tile t t.column t.cursorRow) t.drawCursor := by
  have heq : t.drawCursor = t.drawCell t.column t.cursorRow (t.lineCells t.currentLine t.column) true := by
    funext pixels
    rw [drawCursor, if_pos hdraw]
    rfl
  rw [heq]
  exact drawCell_paints h hc _ _ true

theorem drawCursor_of_not (hdraw : ¬t.cursorShouldDraw = true) (pixels : Nat → Pixel) : t.drawCursor pixels = pixels := by
  rw [drawCursor, if_neg hdraw]

/-- The cursor is drawn in the picture. -/
theorem drawCursor_local (h : Fitted t) (hc : t.column < t.columns) : Local (InPicture t.framebuffer) t.drawCursor := by
  by_cases hdraw : t.cursorShouldDraw = true
  · exact (drawCursor_paints h hc hdraw).isLocal.mono fun a ha => h.inPicture_of_tile hc (cursorRow_lt hdraw).2 ha
  · rw [funext (drawCursor_of_not hdraw)]
    exact Local.id

end Terminal
end TabOS
