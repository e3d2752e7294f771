import TabOS.Terminal.Painting
import TabOS.Terminal.Representation

/-!
# Incremental rendering

A terminal is tracked when every pixel that differs from the full redraw belongs to a dirty cell. Rendering a tracked terminal draws
what a full redraw would, and the editing functions keep terminals tracked, since they mark the cells whose picture they change.
-/

namespace TabOS

open Library

/-! ## What drawing reads -/

theorem drawGlyphColumns_pixels (fb : Framebuffer) (p : Nat → Pixel) (color : Nat → Pixel) (x : Int)
    (outputY scale fuel column : Nat) :
    drawGlyphColumns { fb with pixels := p } color x outputY scale fuel column =
      drawGlyphColumns fb color x outputY scale fuel column := by
  induction fuel generalizing column with
  | zero => rfl
  | succ fuel ih =>
    funext pixels
    rw [drawGlyphColumns, drawGlyphColumns]
    split
    · exact congrFun (ih _) _
    · rfl

/-- Drawing a character reads the geometry of the picture alone. -/
theorem fontDrawChar_pixels (fb : Framebuffer) (p : Nat → Pixel) (x y : Int) (character : UInt8) (scale : Nat)
    (foreground background : Pixel) :
    fontDrawChar { fb with pixels := p } x y character scale foreground background =
      fontDrawChar fb x y character scale foreground background := by
  have hrow : drawGlyphRow { fb with pixels := p } x y character scale foreground background =
      drawGlyphRow fb x y character scale foreground background := by
    funext pixels row sy
    rw [drawGlyphRow, drawGlyphRow, drawGlyphColumns_pixels]
  unfold fontDrawChar
  rw [hrow]

namespace Terminal

/-- A terminal after a rendering. -/
def rendered (t : Terminal) (pixels : Nat → Pixel) (dirtyCells : Nat → Nat → Bool) (fullRedraw : Bool) : Terminal :=
  { t with framebuffer := { t.framebuffer with pixels := pixels }, dirtyCells := dirtyCells, fullRedraw := fullRedraw }

theorem drawCell_rendered (t : Terminal) (p : Nat → Pixel) (d : Nat → Nat → Bool) (f : Bool) :
    (t.rendered p d f).drawCell = t.drawCell := by
  funext column row cell cursor pixels
  unfold drawCell rendered
  dsimp only
  rw [fontDrawChar_pixels]
  rfl

theorem drawAll_rendered (t : Terminal) (p : Nat → Pixel) (d : Nat → Nat → Bool) (f : Bool) :
    (t.rendered p d f).drawAll = t.drawAll := by
  have hline : (t.rendered p d f).drawLine = t.drawLine := by
    funext pixels row
    unfold drawLine
    rw [drawCell_rendered]
    rfl
  funext pixels
  unfold drawAll
  rw [hline]
  rfl

theorem drawCursor_rendered (t : Terminal) (p : Nat → Pixel) (d : Nat → Nat → Bool) (f : Bool) :
    (t.rendered p d f).drawCursor = t.drawCursor := by
  funext pixels
  unfold drawCursor
  rw [drawCell_rendered]
  rfl

/-! ## Tracked terminals -/

variable {t u v : Terminal}

/-- The addresses of the dirty cells. -/
def DirtyTile (t : Terminal) (address : Nat) : Prop :=
  ∃ column row, column < t.columns ∧ row < t.rows ∧ t.dirtyCells row column = true ∧ Tile t column row address

/-- A full redraw is to come, or every pixel, apart from excused ones, is as the full redraw would draw it or of a dirty cell. -/
def Tracked (t : Terminal) (excused : Nat → Prop) : Prop :=
  t.fullRedraw = true ∨ ∀ a, t.framebuffer.pixels a = t.drawAll t.framebuffer.pixels a ∨ DirtyTile t a ∨ excused a

/-- The addresses of the cursor, when it is drawn. -/
def CursorTile (t : Terminal) (address : Nat) : Prop :=
  t.cursorShouldDraw = true ∧ Tile t t.column t.cursorRow address

/-- The framebuffer is what `terminal_redraw` would make of it. -/
def Drawn (t : Terminal) : Prop := t.redraw.framebuffer = t.framebuffer

/-- The geometry that drawing wants, with rendering enabled. -/
structure Live (t : Terminal) : Prop extends Inv t, Fitted t where
  enabled : t.renderingEnabled = true

theorem drawn_iff (henabled : t.renderingEnabled = true) :
    Drawn t ↔ t.drawCursor (t.drawAll t.framebuffer.pixels) = t.framebuffer.pixels := by
  have hredraw : t.redraw.framebuffer = { t.framebuffer with pixels := t.drawCursor (t.drawAll t.framebuffer.pixels) } := by
    rw [redraw, render, if_pos (show ({ t with fullRedraw := true } : Terminal).renderingEnabled = true from henabled)]
    rfl
  rw [Drawn, hredraw]
  constructor
  · exact fun h => congrArg Framebuffer.pixels h
  · intro h
    rw [h]

/-- The dirty redraw of a tracked terminal is the full redraw, but for the excused pixels. -/
theorem drawDirty_eq_drawAll {excused : Nat → Prop} (h : Live t) (htracked : Tracked t excused)
    (hfull : t.fullRedraw = false) (a : Nat) :
    t.drawDirty t.framebuffer.pixels a = t.drawAll t.framebuffer.pixels a ∨ excused a := by
  have hpixel := (htracked.resolve_left (by rw [hfull]; decide)) a
  by_cases hgrid : GridTile t a
  · obtain ⟨row, hr, column, hc, ha⟩ := hgrid
    rw [drawDirty_apply h.toFitted hc hr ha]
    split
    · exact Or.inl (drawAll_apply h.toFitted h.toInv hc hr ha _).symm
    · rename_i hclean
      rcases hpixel with heq | ⟨c, r, _, _, hdirty, ha'⟩ | hex
      · exact Or.inl heq
      · rw [← ha.1, ← ha.2, ha'.1, ha'.2] at hclean
        exact absurd hdirty hclean
      · exact Or.inr hex
  · rw [drawDirty_outside h.toFitted hgrid]
    rcases hpixel with heq | ⟨c, r, hc, hr, _, ha'⟩ | hex
    · exact Or.inl heq
    · exact absurd ⟨r, hr, c, hc, ha'⟩ hgrid
    · exact Or.inr hex

/-- Rendering a tracked terminal, with no pixel excused but those of the cursor that it draws, draws what a redraw would. -/
theorem render_drawn (h : Live t) (htracked : Tracked t (CursorTile t)) : Drawn t.render := by
  have hsame : t.drawCursor (if t.fullRedraw then t.drawAll t.framebuffer.pixels else t.drawDirty t.framebuffer.pixels) =
      t.drawCursor (t.drawAll t.framebuffer.pixels) := by
    cases hfull : t.fullRedraw with
    | true => rfl
    | false =>
      have hdirty := drawDirty_eq_drawAll h htracked hfull
      funext a
      by_cases hcursor : CursorTile t a
      · exact (drawCursor_paints h.toFitted h.column_lt hcursor.1).inside _ _ a hcursor.2
      · exact (drawCursor_local h.toFitted h.column_lt).pointwise _ _ a ((hdirty a).resolve_right hcursor)
  have hrender : t.render = t.rendered (t.drawCursor (t.drawAll t.framebuffer.pixels)) t.cleanCells false := by
    rw [render, if_pos h.enabled, ← hsame]
    rfl
  have henabled : (t.rendered (t.drawCursor (t.drawAll t.framebuffer.pixels)) t.cleanCells false).renderingEnabled = true :=
    h.enabled
  have hall := drawAll_paints h.toFitted h.toCore
  rw [hrender, drawn_iff henabled, drawAll_rendered, drawCursor_rendered]
  show t.drawCursor (t.drawAll (t.drawCursor (t.drawAll t.framebuffer.pixels))) = t.drawCursor (t.drawAll t.framebuffer.pixels)
  rw [hall.absorb (drawCursor_local h.toFitted h.column_lt), hall.idem]

/-- A drawn terminal is tracked, but for the cursor. -/
theorem Drawn.tracked (h : Live t) (hdrawn : Drawn t) : Tracked t (CursorTile t) := by
  rw [drawn_iff h.enabled] at hdrawn
  refine Or.inr fun a => ?_
  by_cases hcursor : CursorTile t a
  · exact Or.inr (Or.inr hcursor)
  · refine Or.inl ((congrFun hdrawn a).symm.trans ?_)
    by_cases hdraw : t.cursorShouldDraw = true
    · exact (drawCursor_paints h.toFitted h.column_lt hdraw).outside _ a fun ht => hcursor ⟨hdraw, ht⟩
    · rw [drawCursor_of_not hdraw]

end Terminal
end TabOS
