import TabOS.Basic.C64
import TabOS.Library.Overlay

/-!
# The picture of the C64

The picture is a ground of characters and border with the sprites on it. Every rendering draws all sprites, so what matters between two
renderings is the ground where no sprite is: it is right outside the damage. A write marks the cell whose character it changes, and the
box of a sprite before it changes the sprite, so the ground stays right outside the damage; a rendering that is stopped only makes it
right in more places, or draws sprites. A rendering that is not stopped draws what a full redraw draws.
-/

namespace TabOS
namespace C64

open Library

variable {m m' : Memory} {d d' : Damage} {pixels pixels' : Pixels} {address sprite cell : Nat} {D D' R : Nat → Prop}

/-! ## Rectangles -/

/-- The addresses of a rectangle of the canvas. -/
def Rect (x y : Int) (width height address : Nat) : Prop :=
  address < 64000 ∧ x ≤ (address % 320 : Nat) ∧ ((address % 320 : Nat) : Int) < x + width ∧ y ≤ (address / 320 : Nat) ∧
    ((address / 320 : Nat) : Int) < y + height

theorem fillRect_apply (pixels : Pixels) (x y : Int) (width height : Nat) (color : Pixel) (address : Nat)
    [Decidable (Rect x y width height address)] :
    fillRect pixels x y width height color address = if Rect x y width height address then color else pixels address := by
  unfold fillRect Sdk.fillRect c64Width c64Height
  dsimp only
  generalize hleft : (if x < 0 then (0 : Int) else x) = left
  generalize htop : (if y < 0 then (0 : Int) else y) = top
  generalize hright : (if x + (width : Int) > (320 : Nat) then ((320 : Nat) : Int) else x + width) = right
  generalize hbottom : (if y + (height : Int) > (200 : Nat) then ((200 : Nat) : Int) else y + height) = bottom
  have hleft : 0 ≤ left ∧ x ≤ left ∧ (left = 0 ∨ left = x) := by
    rw [← hleft]
    split <;> omega
  have htop : 0 ≤ top ∧ y ≤ top ∧ (top = 0 ∨ top = y) := by
    rw [← htop]
    split <;> omega
  have hright : right ≤ 320 ∧ right ≤ x + width ∧ (right = 320 ∨ right = x + width) := by
    rw [← hright]
    split <;> omega
  have hbottom : bottom ≤ 200 ∧ bottom ≤ y + height ∧ (bottom = 200 ∨ bottom = y + height) := by
    rw [← hbottom]
    split <;> omega
  split
  · refine (if_neg fun h => ?_).symm
    obtain ⟨hcanvas, h₁, h₂, h₃, h₄⟩ := h
    omega
  · refine (foldl_span_apply _ _ _ _ _ _ _).trans (if_congr ?_ rfl rfl)
    constructor
    · rintro ⟨row, hrow, hlow, hhigh⟩
      rw [List.mem_range'_1] at hrow
      refine ⟨?_, ?_, ?_, ?_, ?_⟩ <;> omega
    · rintro ⟨hcanvas, h₁, h₂, h₃, h₄⟩
      refine ⟨address / 320, List.mem_range'_1.2 ⟨?_, ?_⟩, ?_, ?_⟩ <;> omega

theorem fillRect_paints (x y : Int) (width height : Nat) (color : Pixel) :
    Paints (Rect x y width height) fun pixels => fillRect pixels x y width height color := by
  classical
  refine ⟨fun s a ha => ?_, fun s s' a ha => ?_⟩
  · rw [fillRect_apply, if_neg ha]
  · rw [fillRect_apply, fillRect_apply, if_pos ha, if_pos ha]

/-! ## Characters -/

/-- The part of the canvas that the characters fill; around it lies the border. -/
def Inner (address : Nat) : Prop := 20 ≤ address % 320 ∧ address % 320 < 300 ∧ 12 ≤ address / 320 ∧ address / 320 < 187

/-- The cell of an address of the inner part. -/
def cellAt (address : Nat) : Nat := (address / 320 - 12) / 7 * 40 + (address % 320 - 20) / 7

/-- The addresses of a cell. -/
def Tile (cell address : Nat) : Prop :=
  Rect (screenX + cell % 40 * cellWidth : Nat) (screenY + cell / 40 * cellHeight : Nat) cellWidth cellHeight address

theorem tile_iff (hcell : cell < 1000) : Tile cell address ↔ address < 64000 ∧ Inner address ∧ cellAt address = cell := by
  have hsplit (u v : Nat) (hv : v < 40) : u * 40 + v = cell ↔ u = cell / 40 ∧ v = cell % 40 := by omega
  unfold Tile Rect Inner cellAt screenX screenY cellWidth cellHeight
  generalize address % 320 = x
  generalize address / 320 = y
  have hrow : cell / 40 < 25 := by omega
  have hcolumn : cell % 40 < 40 := Nat.mod_lt _ (by decide)
  constructor
  · rintro ⟨hcanvas, h₁, h₂, h₃, h₄⟩
    have hinner : 20 ≤ x ∧ x < 300 ∧ 12 ≤ y ∧ y < 187 := by omega
    exact ⟨hcanvas, hinner, (hsplit _ _ (by omega)).2 (by omega)⟩
  · rintro ⟨hcanvas, hinner, heq⟩
    have hparts := (hsplit _ _ (by omega)).1 heq
    refine ⟨hcanvas, ?_, ?_, ?_, ?_⟩ <;> omega

theorem cellAt_lt (h : Inner address) : cellAt address < 1000 := by
  unfold Inner at h
  unfold cellAt
  omega

theorem drawCharacter_paints (m : Memory) (cell : Nat) : Paints (Tile cell) (drawCharacter m cell) := by
  have hpaper (color : Pixel) : Paints (Tile cell) fun pixels =>
      fillRect pixels (screenX + cell % 40 * cellWidth : Nat) (screenY + cell / 40 * cellHeight : Nat) cellWidth cellHeight color :=
    fillRect_paints _ _ _ _ color
  unfold drawCharacter
  dsimp only
  split
  · exact hpaper _
  · refine (hpaper _).then_local (Local.foldl fun row hrow => Local.foldl fun column hcolumn => Local.ite ?_ Local.id)
    have hrow := List.mem_range.1 hrow
    have hcolumn := List.mem_range.1 hcolumn
    refine (fillRect_paints _ _ _ _ _).isLocal.mono fun a ha => ?_
    unfold Rect screenX screenY cellWidth cellHeight at ha
    unfold Tile Rect screenX screenY cellWidth cellHeight
    omega

/-- What a character is drawn from. -/
theorem drawCharacter_congr (hbank : m'.bank (screenStart + cell) = m.bank (screenStart + cell)) (hcolor : m'.color cell = m.color cell)
    (hbackground : m'.background = m.background) : drawCharacter m' cell = drawCharacter m cell := by
  funext pixels
  unfold drawCharacter
  rw [hbank, hcolor, hbackground]

/-- The ground: the characters and the border around them. -/
def ground (m : Memory) (address : Nat) : Pixel :=
  if 20 ≤ address % 320 ∧ address % 320 < 300 ∧ 12 ≤ address / 320 ∧ address / 320 < 187 then
    drawCharacter m (cellAt address) (fun _ => 0) address
  else palette m.border

theorem ground_inner (h : Inner address) : ground m address = drawCharacter m (cellAt address) (fun _ => 0) address := if_pos h

theorem ground_border (h : ¬Inner address) : ground m address = palette m.border := if_neg h

/-! ## Sprites -/

/-- The addresses that a shape is drawn on. -/
def Shape.Area (shape : Shape) (address : Nat) : Prop :=
  ∃ row ∈ List.range 21,
    if shape.multicolor = true then
      ∃ pair ∈ List.range 12, shape.pair row pair ≠ 0 ∧
        Rect (shape.originX + (pair * 2 * shape.scaleX : Nat)) (shape.originY + (row * shape.scaleY : Nat)) (2 * shape.scaleX)
          shape.scaleY
          address
    else
      ∃ column ∈ List.range 24, (shape.bits row).testBit (23 - column) = true ∧
        Rect (shape.originX + (column * shape.scaleX : Nat)) (shape.originY + (row * shape.scaleY : Nat)) shape.scaleX shape.scaleY
          address

theorem drawSprite_paints (m : Memory) (sprite : Nat) : Paints (shapeOf m sprite).Area (drawSprite m sprite) := by
  unfold drawSprite
  dsimp only
  refine Paints.foldl fun row _ => ?_
  by_cases hmulticolor : (shapeOf m sprite).multicolor = true
  · simp only [if_pos hmulticolor]
    exact Paints.foldl fun pair _ => (fillRect_paints _ _ _ _ _).ite_self _
  · simp only [if_neg hmulticolor]
    exact Paints.foldl fun column _ => (fillRect_paints _ _ _ _ _).ite_self _

/-- The addresses that some sprite is drawn on. -/
def Covered (m : Memory) (address : Nat) : Prop := ∃ sprite < 8, bit m.spriteEnable sprite = true ∧ (shapeOf m sprite).Area address

/-- All sprites, drawn one after another. -/
def spritesOver (m : Memory) (pixels : Pixels) : Pixels :=
  (List.range sprites).reverse.foldl
    (fun pixels sprite => if bit m.spriteEnable sprite = true then drawSprite m sprite pixels else pixels)
    pixels

theorem spritesOver_paints (m : Memory) : Paints (Covered m) (spritesOver m) := by
  refine (Paints.foldl fun sprite _ => (drawSprite_paints m sprite).ite_self _).congr fun a => ?_
  simp only [List.mem_reverse, List.mem_range]
  exact Iff.rfl

/-! ## The ground is right -/

/-- Outside `D`, the canvas shows the ground wherever no sprite is. -/
def Right (m : Memory) (D : Nat → Prop) (pixels : Pixels) : Prop :=
  ∀ address < 64000, ¬D address → ¬Covered m address → pixels address = ground m address

theorem Right.mono (h : Right m D pixels) (himp : ∀ address < 64000, D address → D' address) : Right m D' pixels :=
  fun address hcanvas hD hcovered => h address hcanvas (fun hD' => hD (himp address hcanvas hD')) hcovered

/-- The drawing makes the ground right on `R` and changes nothing else. -/
structure Restores (m : Memory) (R : Nat → Prop) (f : Pixels → Pixels) : Prop where
  outside : ∀ pixels address, ¬R address → f pixels address = pixels address
  inside : ∀ pixels, ∀ address < 64000, R address → f pixels address = ground m address

theorem Right.restore {f : Pixels → Pixels} (h : Right m D pixels) (hf : Restores m R f) :
    Right m (fun address => D address ∧ ¬R address) (f pixels) := by
  intro address hcanvas hD hcovered
  by_cases hR : R address
  · exact hf.inside pixels address hcanvas hR
  · rw [hf.outside pixels address hR]
    exact h address hcanvas (fun hD' => hD ⟨hD', hR⟩) hcovered

/-- What is right stays right. -/
theorem Right.restored {f : Pixels → Pixels} (h : Right m D pixels) (hf : Restores m R f) : Right m D (f pixels) :=
  (h.restore hf).mono fun _ _ hD => hD.1

theorem drawCharacter_restores (hcell : cell < 1000) : Restores m (Tile cell) (drawCharacter m cell) where
  outside := (drawCharacter_paints m cell).outside
  inside := by
    intro pixels address _ htile
    obtain ⟨-, hinner, heq⟩ := (tile_iff hcell).1 htile
    rw [ground_inner hinner, heq]
    exact (drawCharacter_paints m cell).inside _ _ address htile

theorem drawBorder_restores (m : Memory) : Restores m (fun address => address < 64000 ∧ ¬Inner address) (drawBorder m) := by
  classical
  have happly (pixels : Pixels) (address : Nat) : drawBorder m pixels address =
      if address < 64000 ∧ ¬Inner address then palette m.border else pixels address := by
    unfold drawBorder
    rw [fillRect_apply, fillRect_apply, fillRect_apply, fillRect_apply]
    unfold Rect Inner c64Width c64Height screenX screenY cellWidth cellHeight
    split_ifs <;> first | rfl | omega
  refine ⟨fun pixels address hR => ?_, fun pixels address hcanvas hR => ?_⟩
  · rw [happly, if_neg hR]
  · rw [happly, if_pos hR, ground_border hR.2]

/-! ## Rendering -/

/-- The box around the sprites. -/
def InBox (d : Damage) (address : Nat) : Prop :=
  d.spriteDirtyX0 ≤ (address % 320 : Nat) ∧ ((address % 320 : Nat) : Int) < d.spriteDirtyX1 ∧
    d.spriteDirtyY0 ≤ (address / 320 : Nat) ∧ ((address / 320 : Nat) : Int) < d.spriteDirtyY1

/-- What is to be drawn again, when not all is. -/
def Damaged (d : Damage) (address : Nat) : Prop :=
  Inner address ∧ (d.dirtyCells (cellAt address) = true ∨ d.backgroundDirty = true) ∨ ¬Inner address ∧ d.borderDirty = true ∨
    InBox d address ∧ d.spriteDirty = true

/-- The whole ground is right, and all sprites are drawn on it. -/
def Finished (m : Memory) (pixels : Pixels) : Prop := ∃ before, Right m (fun _ => False) before ∧ pixels = spritesOver m before

variable {yields : Nat → Bool} {w : Work Pixels}

theorem meets_restore {f : Pixels → Pixels} (h : w.Meets (Right m D') (Right m D)) (hf : Restores m R f) :
    (w.act f).Meets (Right m D') (Right m fun address => D address ∧ ¬R address) :=
  h.act (fun _ hP _ => hP.restored hf) fun _ _ hQ => hQ.restore hf

/-- Steps that make the ground right on regions make it right on all of them. -/
theorem meets_foldl {ι : Type} (S : ι → Nat → Prop) {step : Work Pixels → ι → Work Pixels} (l : List ι)
    (hstep : ∀ i ∈ l, ∀ (w : Work Pixels) (D : Nat → Prop), w.Meets (Right m D') (Right m D) →
      (step w i).Meets (Right m D') (Right m fun address => D address ∧ ¬S i address)) (h : w.Meets (Right m D') (Right m D)) :
    (l.foldl step w).Meets (Right m D') (Right m fun address => D address ∧ ¬∃ i ∈ l, S i address) := by
  induction l generalizing w D with
  | nil => exact h.mono fun _ _ hQ => hQ.mono fun _ _ hD => ⟨hD, fun ⟨_, hmem, _⟩ => absurd hmem List.not_mem_nil⟩
  | cons i l ih =>
    refine (ih (fun j hj => hstep j (List.mem_cons_of_mem _ hj)) (hstep i List.mem_cons_self w D h)).mono fun _ _ hQ => ?_
    refine hQ.mono fun address _ ⟨⟨hD, hi⟩, hl⟩ => ⟨hD, ?_⟩
    rintro ⟨j, hj, hS⟩
    rcases List.mem_cons.1 hj with rfl | hj
    · exact hi hS
    · exact hl ⟨j, hj, hS⟩

theorem drawCharacters_meets (h : w.Meets (Right m D') (Right m D)) :
    (drawCharacters yields m w).Meets (Right m D') (Right m fun address => D address ∧ ¬Inner address) := by
  refine (meets_foldl Tile (List.range colorBytes) (fun cell hcell w D h => ?_) h).mono fun _ _ hQ => ?_
  · refine meets_restore ?_ (drawCharacter_restores (List.mem_range.1 hcell))
    split
    · exact h.ask
    · exact h
  · refine hQ.mono fun address hcanvas ⟨hD, hnone⟩ => ⟨hD, fun hinner => hnone ⟨cellAt address, ?_, ?_⟩⟩
    · exact List.mem_range.2 (cellAt_lt hinner)
    · exact (tile_iff (cellAt_lt hinner)).2 ⟨hcanvas, hinner, rfl⟩

theorem drawDirtyCharacters_meets (h : w.Meets (Right m D') (Right m D)) :
    (drawDirtyCharacters yields m d w).Meets (Right m D')
      (Right m fun address => D address ∧ ¬(Inner address ∧ d.dirtyCells (cellAt address) = true)) := by
  have hdrawn : Work.Meets (Right m D')
      (Right m fun address => D address ∧ ¬∃ cell ∈ List.range colorBytes, d.dirtyCells cell = true ∧ Tile cell address)
      ((List.range colorBytes).foldl
      (fun w cell => if d.dirtyCells cell = true then w.act (drawCharacter m cell) else w) w) := by
    refine meets_foldl (fun cell address => d.dirtyCells cell = true ∧ Tile cell address) _ (fun cell hcell w D h => ?_) h
    split
    · refine (meets_restore h (drawCharacter_restores (List.mem_range.1 hcell))).mono fun _ _ hQ => ?_
      exact hQ.mono fun address _ ⟨hD, hnot⟩ => ⟨hD, fun hS => hnot hS.2⟩
    · rename_i hclean
      exact h.mono fun _ _ hQ => hQ.mono fun _ _ hD => ⟨hD, fun hS => absurd hS.1 hclean⟩
  refine hdrawn.ask.mono fun _ _ hQ => ?_
  refine hQ.mono fun address hcanvas ⟨hD, hnone⟩ => ⟨hD, fun ⟨hinner, hdirty⟩ => hnone ⟨cellAt address, ?_, hdirty, ?_⟩⟩
  · exact List.mem_range.2 (cellAt_lt hinner)
  · exact (tile_iff (cellAt_lt hinner)).2 ⟨hcanvas, hinner, rfl⟩

theorem mem_loopValues {first last : Int} {limit i : Nat} : i ∈ loopValues first last limit ↔ i < limit ∧ first ≤ i ∧ i ≤ last := by
  unfold loopValues
  rw [List.mem_filter, List.mem_range]
  simp

theorem firstCell_le {low offset position : Int} (hlow : low ≤ position) (hoffset : offset ≤ position) :
    (if low ≤ offset then 0 else (low - offset).tdiv 7) ≤ (position - offset) / 7 := by
  split
  · omega
  · rw [Int.tdiv_eq_ediv_of_nonneg (by omega)]
    omega

theorem le_lastCell {high offset position : Int} (hhigh : position < high) (hoffset : offset ≤ position) :
    (position - offset) / 7 ≤ if high ≤ offset then -1 else (high - 1 - offset).tdiv 7 := by
  split
  · omega
  · rw [Int.tdiv_eq_ediv_of_nonneg (by omega)]
    omega

theorem drawCharactersInSpriteRegion_meets (hsprite : d.spriteDirty = true) (h : w.Meets (Right m D') (Right m D)) :
    (drawCharactersInSpriteRegion yields m d w).Meets (Right m D')
      (Right m fun address => D address ∧ ¬(Inner address ∧ InBox d address)) := by
  unfold drawCharactersInSpriteRegion
  rw [hsprite, if_neg (by simp)]
  dsimp only
  generalize hfirstColumn : (if d.spriteDirtyX0 ≤ screenX then 0 else (d.spriteDirtyX0 - screenX).tdiv cellWidth : Int) = firstColumn
  generalize hlastColumn : (if d.spriteDirtyX1 ≤ screenX then -1 else (d.spriteDirtyX1 - 1 - screenX).tdiv cellWidth : Int) = lastColumn
  generalize hfirstRow : (if d.spriteDirtyY0 ≤ screenY then 0 else (d.spriteDirtyY0 - screenY).tdiv cellHeight : Int) = firstRow
  generalize hlastRow : (if d.spriteDirtyY1 ≤ screenY then -1 else (d.spriteDirtyY1 - 1 - screenY).tdiv cellHeight : Int) = lastRow
  have hcolumn (w : Work Pixels) (D : Nat → Prop) (row : Nat) (hrow : row < 25) (h : w.Meets (Right m D') (Right m D)) :
      Work.Meets (Right m D')
        (Right m fun address => D address ∧ ¬∃ column ∈ loopValues firstColumn lastColumn 40, Tile (row * 40 + column) address)
        ((loopValues firstColumn lastColumn 40).foldl (fun w column => w.act (drawCharacter m (row * 40 + column))) w) := by
    refine meets_foldl (fun column => Tile (row * 40 + column)) _ (fun column hmem w D h => ?_) h
    have hcolumn := (mem_loopValues.1 hmem).1
    exact meets_restore h (drawCharacter_restores (by omega))
  refine ((meets_foldl (fun row address => ∃ column ∈ loopValues firstColumn lastColumn 40, Tile (row * 40 + column) address) _
    (fun row hmem w D h => hcolumn w D row (mem_loopValues.1 hmem).1 h) h).ask).mono fun _ _ hQ => ?_
  refine hQ.mono fun address hcanvas ⟨hD, hnone⟩ => ⟨hD, fun ⟨hinner, hbox⟩ => hnone ?_⟩
  obtain ⟨hx, hx', hy, hy'⟩ := id hinner
  obtain ⟨hx₀, hx₁, hy₀, hy₁⟩ := hbox
  have hscreenX : (screenX : Int) = 20 := rfl
  have hscreenY : (screenY : Int) = 12 := rfl
  have hfirstColumn' : firstColumn ≤ ((address % 320 : Nat) - 20 : Int) / 7 := hfirstColumn ▸ firstCell_le hx₀ (by omega)
  have hlastColumn' : ((address % 320 : Nat) - 20 : Int) / 7 ≤ lastColumn := hlastColumn ▸ le_lastCell hx₁ (by omega)
  have hfirstRow' : firstRow ≤ ((address / 320 : Nat) - 12 : Int) / 7 := hfirstRow ▸ firstCell_le hy₀ (by omega)
  have hlastRow' : ((address / 320 : Nat) - 12 : Int) / 7 ≤ lastRow := hlastRow ▸ le_lastCell hy₁ (by omega)
  refine ⟨(address / 320 - 12) / 7, ?_, (address % 320 - 20) / 7, ?_, ?_⟩
  · exact mem_loopValues.2 ⟨by omega, by omega, by omega⟩
  · exact mem_loopValues.2 ⟨by omega, by omega, by omega⟩
  · exact (tile_iff (cellAt_lt hinner)).2 ⟨hcanvas, hinner, rfl⟩

/-- A sprite changes nothing where no sprite is. -/
theorem Right.drawSprite (h : Right m D pixels) (hsprite : sprite < 8) (henable : bit m.spriteEnable sprite = true) :
    Right m D (drawSprite m sprite pixels) := by
  intro address hcanvas hD hcovered
  rw [(drawSprite_paints m sprite).outside pixels address fun harea => hcovered ⟨sprite, hsprite, henable, harea⟩]
  exact h address hcanvas hD hcovered

theorem drawSprites_meets (h : w.Meets (Right m D') (Right m D)) :
    (drawSprites yields m w).Meets (Right m D') fun pixels => ∃ before, Right m D before ∧ pixels = spritesOver m before := by
  refine (Work.Meets.foldl (Q := fun l pixels => (∀ sprite ∈ l, sprite < 8) ∧ ∃ before, Right m D before ∧
    l.foldl (fun pixels sprite => if bit m.spriteEnable sprite = true then C64.drawSprite m sprite pixels else pixels) pixels =
      spritesOver m before) (fun sprite l w h => ?_) _ (h.mono fun pixels _ hQ => ⟨fun sprite hmem => ?_, pixels, hQ, rfl⟩)).mono
    fun _ _ hQ => hQ.2
  · split
    · rename_i hdisabled
      refine h.mono fun pixels _ ⟨hlt, before, hbefore, heq⟩ => ⟨fun s hs => hlt s (List.mem_cons_of_mem _ hs), before, hbefore, ?_⟩
      rw [List.foldl_cons, hdisabled, if_neg Bool.false_ne_true] at heq
      exact heq
    · rename_i henabled
      have henable : bit m.spriteEnable sprite = true := eq_true_of_ne_false henabled
      refine h.ask.act (fun pixels hP hQ => hP.drawSprite (hQ.1 sprite List.mem_cons_self) henable) fun pixels _ hQ => ?_
      obtain ⟨hlt, before, hbefore, heq⟩ := hQ
      rw [List.foldl_cons, if_pos henable] at heq
      exact ⟨fun s hs => hlt s (List.mem_cons_of_mem _ hs), before, hbefore, heq⟩
  · exact List.mem_range.1 (List.mem_reverse.1 hmem)

/-- Filling the box makes the border in it right. -/
theorem Right.fillBox (h : Right m D pixels) (hbox : ∀ address < 64000, InBox d address → D address) :
    Right m (fun address => D address ∧ ¬(InBox d address ∧ ¬Inner address))
      (fillRect pixels d.spriteDirtyX0 d.spriteDirtyY0 (d.spriteDirtyX1 - d.spriteDirtyX0).toNat
        (d.spriteDirtyY1 - d.spriteDirtyY0).toNat (palette m.border)) := by
  classical
  intro address hcanvas hD hcovered
  rw [fillRect_apply]
  split
  · rename_i hrect
    obtain ⟨-, h₁, h₂, h₃, h₄⟩ := hrect
    have hin : InBox d address := ⟨h₁, by omega, h₃, by omega⟩
    have hborder : ¬Inner address := fun hinner => hD ⟨hbox address hcanvas hin, fun hnot => hnot.2 hinner⟩
    exact (ground_border hborder).symm
  · rename_i hrect
    refine h address hcanvas (fun hD' => hD ⟨hD', fun hnot => hrect ?_⟩) hcovered
    obtain ⟨⟨h₁, h₂, h₃, h₄⟩, -⟩ := hnot
    exact ⟨hcanvas, h₁, by omega, h₃, by omega⟩

/-- A rendering that is stopped leaves the ground right outside the damage, and one that is not stopped finishes the picture. -/
theorem drawPicture_meets (hright : d.fullDirty = false → Right m (Damaged d) pixels) :
    (drawPicture yields m d (Work.start pixels)).Meets (fun pixels => d.fullDirty = false → Right m (Damaged d) pixels) (Finished m) := by
  unfold drawPicture
  dsimp only
  cases hfull : d.fullDirty with
  | true =>
    have hstart : (Work.start pixels).Meets (Right m fun _ => True) (Right m fun _ => True) :=
      ⟨fun _ _ hD => absurd trivial hD, fun _ _ _ hD => absurd trivial hD⟩
    have hcleared : ((Work.start pixels).act (clear (palette m.border))).Meets (Right m fun _ => True) (Right m Inner) := by
      refine hstart.act (fun _ _ _ _ _ hD => absurd trivial hD) fun pixels _ _ address hcanvas hinner _ => ?_
      rw [ground_border hinner]
      exact if_pos hcanvas
    rw [if_pos rfl]
    have hcharacters : (drawCharacters yields m ((Work.start pixels).act (clear (palette m.border)))).Meets _ _ :=
      drawCharacters_meets hcleared
    have hdrawn : (drawSprites yields m _).Meets _ _ := drawSprites_meets hcharacters
    refine ⟨fun h => absurd h (by simp), fun hgo => ?_⟩
    obtain ⟨before, hbefore, heq⟩ := hdrawn.done hgo
    exact ⟨before, hbefore.mono fun _ _ hD => hD.2 hD.1, heq⟩
  | false =>
    rw [if_neg Bool.false_ne_true]
    have hstart : (Work.start pixels).Meets (Right m (Damaged d)) (Right m (Damaged d)) := ⟨hright hfull, fun _ => hright hfull⟩
    -- The box, the border and the cells, each with what it makes right.
    generalize hbox : (if d.spriteDirty = true then
      drawCharactersInSpriteRegion yields m d ((Work.start pixels).act fun pixels =>
        fillRect pixels d.spriteDirtyX0 d.spriteDirtyY0 (d.spriteDirtyX1 - d.spriteDirtyX0).toNat
          (d.spriteDirtyY1 - d.spriteDirtyY0).toNat (palette m.border))
      else Work.start pixels) = boxed
    have hboxed : boxed.Meets (Right m (Damaged d))
        (Right m fun address => Damaged d address ∧ ¬(InBox d address ∧ d.spriteDirty = true)) := by
      rw [← hbox]
      split
      · rename_i hsprite
        have hin : ∀ address < 64000, InBox d address → Damaged d address := fun _ _ hin => .inr (.inr ⟨hin, hsprite⟩)
        refine (drawCharactersInSpriteRegion_meets hsprite (hstart.act ?_ fun _ _ hQ => hQ.fillBox hin)).mono fun _ _ hQ => ?_
        · exact fun _ _ hQ => (hQ.fillBox hin).mono fun _ _ hD => hD.1
        · refine hQ.mono fun address _ ⟨⟨hD, hborder⟩, hinner⟩ => ⟨hD, fun ⟨hin, _⟩ => ?_⟩
          by_cases h : Inner address
          · exact hinner ⟨h, hin⟩
          · exact hborder ⟨hin, h⟩
      · rename_i hsprite
        exact hstart.mono fun _ _ hQ => hQ.mono fun _ _ hD => ⟨hD, fun h => hsprite h.2⟩
    generalize hborder : (if d.borderDirty = true then boxed.act (drawBorder m) else boxed) = bordered
    have hbordered : bordered.Meets (Right m (Damaged d)) (Right m fun address =>
        (Damaged d address ∧ ¬(InBox d address ∧ d.spriteDirty = true)) ∧ ¬(¬Inner address ∧ d.borderDirty = true)) := by
      rw [← hborder]
      split
      · refine (meets_restore hboxed (drawBorder_restores m)).mono fun _ _ hQ => ?_
        exact hQ.mono fun address hcanvas ⟨hD, hout⟩ => ⟨hD, fun h => hout ⟨hcanvas, h.1⟩⟩
      · rename_i hclean
        exact hboxed.mono fun _ _ hQ => hQ.mono fun _ _ hD => ⟨hD, fun h => hclean h.2⟩
    have hcells : (if d.backgroundDirty = true then drawCharacters yields m bordered else drawDirtyCharacters yields m d bordered).Meets
        (Right m (Damaged d)) (Right m fun _ => False) := by
      split
      · rename_i hbackground
        refine (drawCharacters_meets hbordered).mono fun _ _ hQ => hQ.mono fun address _ hD => ?_
        obtain ⟨⟨⟨hD, hbox⟩, hborder⟩, hinner⟩ := hD
        rcases hD with ⟨h, -⟩ | h | h
        · exact hinner h
        · exact hborder h
        · exact hbox h
      · rename_i hbackground
        refine (drawDirtyCharacters_meets hbordered).mono fun _ _ hQ => hQ.mono fun address _ hD => ?_
        obtain ⟨⟨⟨hD, hbox⟩, hborder⟩, hcell⟩ := hD
        rcases hD with ⟨h, hdirty | hdirty⟩ | h | h
        · exact hcell ⟨h, hdirty⟩
        · exact hbackground hdirty
        · exact hborder h
        · exact hbox h
    have hdrawn : (drawSprites yields m _).Meets _ _ := drawSprites_meets hcells
    exact ⟨fun _ => hdrawn.always, hdrawn.done⟩

/-- Two finished pictures of a memory are the same. -/
theorem Finished.unique (h : Finished m pixels) (h' : Finished m pixels') (hcanvas : address < 64000) :
    pixels address = pixels' address := by
  obtain ⟨before, hbefore, rfl⟩ := h
  obtain ⟨before', hbefore', rfl⟩ := h'
  by_cases hcovered : Covered m address
  · exact (spritesOver_paints m).inside _ _ address hcovered
  · rw [(spritesOver_paints m).outside _ address hcovered, (spritesOver_paints m).outside _ address hcovered,
      hbefore address hcanvas id hcovered, hbefore' address hcanvas id hcovered]

/-- The ground of a finished picture is right. -/
theorem Finished.right (h : Finished m pixels) (D : Nat → Prop) : Right m D pixels := by
  obtain ⟨before, hbefore, rfl⟩ := h
  intro address hcanvas _ hcovered
  rw [(spritesOver_paints m).outside _ address hcovered]
  exact hbefore address hcanvas id hcovered

/-! ## Renderings that nothing stops -/

theorem drawCharacters_stopped (m : Memory) (w : Work Pixels) : (drawCharacters (fun _ => true) m w).stopped = w.stopped := by
  refine Work.foldl_stopped (fun w cell => ?_) _ w
  rw [Work.act_stopped]
  split
  · exact Work.ask_stopped w
  · rfl

theorem drawDirtyCharacters_stopped (m : Memory) (d : Damage) (w : Work Pixels) :
    (drawDirtyCharacters (fun _ => true) m d w).stopped = w.stopped := by
  unfold drawDirtyCharacters
  rw [Work.ask_stopped]
  refine Work.foldl_stopped (fun w cell => ?_) _ w
  split
  · exact Work.act_stopped w _
  · rfl

theorem drawCharactersInSpriteRegion_stopped (m : Memory) (d : Damage) (w : Work Pixels) :
    (drawCharactersInSpriteRegion (fun _ => true) m d w).stopped = w.stopped := by
  unfold drawCharactersInSpriteRegion
  split
  · rfl
  · rw [Work.ask_stopped]
    refine Work.foldl_stopped (fun w row => ?_) _ w
    exact Work.foldl_stopped (fun w column => Work.act_stopped w _) _ w

theorem drawSprites_stopped (m : Memory) (w : Work Pixels) : (drawSprites (fun _ => true) m w).stopped = w.stopped := by
  refine Work.foldl_stopped (fun w sprite => ?_) _ w
  split
  · rfl
  · rw [Work.act_stopped, Work.ask_stopped]

theorem drawPicture_stopped (m : Memory) (d : Damage) (w : Work Pixels) :
    (drawPicture (fun _ => true) m d w).stopped = w.stopped := by
  unfold drawPicture
  rw [drawSprites_stopped]
  split
  · rw [drawCharacters_stopped, Work.act_stopped]
  · dsimp only
    have hboxed : (if d.spriteDirty = true then
        drawCharactersInSpriteRegion (fun _ => true) m d (w.act fun pixels =>
          fillRect pixels d.spriteDirtyX0 d.spriteDirtyY0 (d.spriteDirtyX1 - d.spriteDirtyX0).toNat
            (d.spriteDirtyY1 - d.spriteDirtyY0).toNat (palette m.border))
        else w).stopped = w.stopped := by
      split
      · rw [drawCharactersInSpriteRegion_stopped, Work.act_stopped]
      · rfl
    split
    · rw [drawCharacters_stopped]
      split
      · rw [Work.act_stopped, hboxed]
      · exact hboxed
    · rw [drawDirtyCharacters_stopped]
      split
      · rw [Work.act_stopped, hboxed]
      · exact hboxed

/-- A full redraw finishes the picture. -/
theorem fullRedraw_finished (m : Memory) (d : Damage) (pixels : Pixels) : Finished m (fullRedraw m d pixels) :=
  (drawPicture_meets fun h => absurd h (by simp)).done (drawPicture_stopped m _ _)

end C64
end TabOS
