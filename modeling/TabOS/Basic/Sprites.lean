import TabOS.Basic.Graphics
import TabOS.Library.Underlay
import Mathlib.Data.List.ProdSigma

/-!
# Sprites leave no trails

What a sprite covers is saved before it is drawn, and the cells of a sprite have pixels and places in `underneath` of their own, so
writing them back undoes the drawing. The sprites are drawn in order and undone in reverse order.
-/

namespace TabOS
namespace BasicGraphics

open Library

/-! ## The cells of a sprite -/

/-- A cell of a sprite: its row and its column. -/
abbrev Cell := Nat × Nat

section Cells

variable (sprite : Sprite)

def OnCanvas (cell : Cell) : Prop :=
  sprite.x + cell.2 ≥ 0 ∧ sprite.x + cell.2 < width ∧ sprite.y + cell.1 ≥ 0 ∧ sprite.y + cell.1 < height

instance (cell : Cell) : Decidable (OnCanvas sprite cell) := by
  unfold OnCanvas
  infer_instance

/-- The cells that the loops visit and that are on the canvas. -/
def cells : List Cell := ((List.range sprite.height).product (List.range sprite.width)).filter fun cell => OnCanvas sprite cell

/-- The pixel of a cell. -/
def address (cell : Cell) : Nat := (sprite.y + cell.1).toNat * width + (sprite.x + cell.2).toNat

/-- The place of a cell in the arrays of a sprite. -/
def offset (cell : Cell) : Nat := cell.1 * side + cell.2

/-- What a cell draws. -/
def ink (cell : Cell) : Option Pixel :=
  if sprite.image (offset cell) ≠ transparent then some (sprite.image (offset cell)) else none

theorem mem_cells {cell : Cell} : cell ∈ cells sprite ↔ (cell.1 < sprite.height ∧ cell.2 < sprite.width) ∧ OnCanvas sprite cell := by
  unfold cells
  rw [List.mem_filter, decide_eq_true_iff]
  change (cell.1, cell.2) ∈ List.range sprite.height ×ˢ List.range sprite.width ∧ _ ↔ _
  rw [List.mem_product, List.mem_range, List.mem_range]

/-- The loops over a sprite are one pass over its cells. -/
theorem foldl_cells {γ : Type} (f : γ → Cell → γ) (state : γ) :
    (List.range sprite.height).foldl (fun state y => (List.range sprite.width).foldl
      (fun state x => if OnCanvas sprite (y, x) then f state (y, x) else state) state) state = (cells sprite).foldl f state := by
  unfold cells
  rw [List.foldl_filter, List.product, List.foldl_flatMap]
  simp only [List.foldl_map, decide_eq_true_iff]

variable {sprite}

/-- A pixel of the canvas is set. -/
theorem pixel_eq {pixels : Pixels} {x y : Int} (hx : x ≥ 0 ∧ x < width) (hy : y ≥ 0 ∧ y < height) (color : Pixel) :
    pixel pixels x y color = Function.update pixels (y.toNat * width + x.toNat) color := by
  unfold width at hx
  unfold height at hy
  unfold pixel Sdk.fillRect
  have hleft : (if x < 0 then 0 else x) = x := if_neg (by omega)
  have htop : (if y < 0 then 0 else y) = y := if_neg (by omega)
  have hright : (if x + (1 : Nat) > (width : Int) then (width : Int) else x + (1 : Nat)) = x + 1 :=
    if_neg (by unfold width; omega)
  have hbottom : (if y + (1 : Nat) > (height : Int) then (height : Int) else y + (1 : Nat)) = y + 1 :=
    if_neg (by unfold height; omega)
  dsimp only
  rw [hleft, htop, hright, hbottom, if_neg (by omega)]
  dsimp only
  have hone (n : Int) : (n + 1 - n).toNat = 1 := by omega
  rw [hone, hone]
  funext a
  by_cases ha : a = y.toNat * width + x.toNat
  · rw [ha, Function.update_self]
    exact if_pos ⟨Nat.le_refl _, Nat.lt_succ_self _⟩
  · rw [Function.update_of_ne ha]
    exact if_neg fun h => ha (Nat.le_antisymm (Nat.le_of_lt_succ h.2) h.1)

theorem drawCell_eq (state : (Nat → Pixel) × Pixels) (y x : Nat) :
    drawCell sprite state y x =
      if OnCanvas sprite (y, x) then saveItem (address sprite) offset (ink sprite) state (y, x) else state := by
  by_cases hcell : OnCanvas sprite (y, x)
  · rw [if_pos hcell]
    refine (if_pos hcell).trans ?_
    unfold saveItem drawItem ink
    rw [pixel_eq ⟨hcell.1, hcell.2.1⟩ ⟨hcell.2.2.1, hcell.2.2.2⟩]
    by_cases hink : sprite.image (y * side + x) ≠ transparent
    · rw [if_pos hink, if_pos (show sprite.image (offset (y, x)) ≠ transparent from hink)]
      rfl
    · rw [if_neg hink, if_neg (show ¬sprite.image (offset (y, x)) ≠ transparent from hink)]
      rfl
  · rw [if_neg hcell]
    exact if_neg hcell

theorem restoreCell_eq (pixels : Pixels) (y x : Nat) :
    restoreCell sprite pixels y x =
      if OnCanvas sprite (y, x) then restoreItem (address sprite) offset sprite.underneath pixels (y, x) else pixels := by
  by_cases hcell : OnCanvas sprite (y, x)
  · rw [if_pos hcell]
    exact (if_pos hcell).trans (pixel_eq ⟨hcell.1, hcell.2.1⟩ ⟨hcell.2.2.1, hcell.2.2.2⟩ _)
  · rw [if_neg hcell]
    exact if_neg hcell

/-- What a sprite covers, and the canvas with the sprite on it. -/
def saved (sprite : Sprite) (pixels : Pixels) : (Nat → Pixel) × Pixels :=
  (cells sprite).foldl (saveItem (address sprite) offset (ink sprite)) (sprite.underneath, pixels)

theorem drawSprite_eq (pixels : Pixels) :
    drawSprite sprite pixels = ({ sprite with underneath := (saved sprite pixels).1 }, (saved sprite pixels).2) := by
  unfold drawSprite saved
  simp only [drawCell_eq]
  rw [foldl_cells]

theorem restoreSprite_eq (pixels : Pixels) :
    restoreSprite sprite pixels = (cells sprite).foldl (restoreItem (address sprite) offset sprite.underneath) pixels := by
  unfold restoreSprite
  simp only [restoreCell_eq]
  exact foldl_cells sprite _ pixels

/-- A sprite fits into its arrays. -/
structure Fits (sprite : Sprite) : Prop where
  width : sprite.width ≤ side
  height : sprite.height ≤ side

/-- The cells of a sprite have pixels and places of their own. -/
theorem cells_apart (h : Fits sprite) : Apart (address sprite) offset (cells sprite) := by
  have hnodup : (cells sprite).Nodup := (List.nodup_range.product List.nodup_range).filter _
  refine hnodup.pairwise_of_forall_ne fun c hc d hd hne => ?_
  obtain ⟨⟨hcy, hcx⟩, hcell⟩ := (mem_cells sprite).mp hc
  obtain ⟨⟨hdy, hdx⟩, hdell⟩ := (mem_cells sprite).mp hd
  unfold OnCanvas at hcell hdell
  have hwidth := h.width
  refine ⟨fun heq => hne ?_, fun heq => hne ?_⟩
  · obtain ⟨hx, hy⟩ := (address_eq_iff (by omega) (by omega)).mp heq
    exact Prod.ext (by omega) (by omega)
  · obtain ⟨hx, hy⟩ := (address_eq_iff (by omega) (by omega)).mp heq
    exact Prod.ext hy hx

/-- Writing back what a sprite covers undoes its drawing. -/
theorem restoreSprite_drawSprite (h : Fits sprite) (pixels : Pixels) :
    restoreSprite (drawSprite sprite pixels).1 (drawSprite sprite pixels).2 = pixels := by
  rw [restoreSprite_eq, drawSprite_eq]
  exact restoreItems_saveItems (cells_apart h) (sprite.underneath, pixels)

/-- The colour of a sprite at a place of the canvas, if it has one there. -/
def Sprite.color (sprite : Sprite) (x y : Nat) : Option Pixel :=
  if sprite.visible = true ∧ sprite.x ≤ x ∧ x < sprite.x + sprite.width ∧ sprite.y ≤ y ∧ y < sprite.y + sprite.height then
    let color := sprite.image ((y - sprite.y).toNat * side + (x - sprite.x).toNat)
    if color = transparent then none else some color
  else none

/-- A visible sprite is drawn where it has a colour. -/
theorem drawSprite_apply (h : Fits sprite) (hvisible : sprite.visible = true) (pixels : Pixels) {x y : Nat} (hx : x < width)
    (hy : y < height) : (drawSprite sprite pixels).2 (y * width + x) = (sprite.color x y).getD (pixels (y * width + x)) := by
  rw [drawSprite_eq]
  unfold Sprite.color
  by_cases hbox : sprite.x ≤ x ∧ x < sprite.x + sprite.width ∧ sprite.y ≤ y ∧ y < sprite.y + sprite.height
  · rw [if_pos ⟨hvisible, hbox⟩]
    have hplace : address sprite ((y - sprite.y).toNat, (x - sprite.x).toNat) = y * width + x := by
      refine (address_eq_iff ?_ hx).mpr ⟨?_, ?_⟩ <;> dsimp only <;> omega
    have hmem : ((y - sprite.y).toNat, (x - sprite.x).toNat) ∈ cells sprite := by
      refine (mem_cells sprite).mpr ⟨?_, ?_⟩
      · dsimp only
        omega
      · unfold OnCanvas
        dsimp only
        omega
    have hdrawn : (saved sprite pixels).2 (address sprite ((y - sprite.y).toNat, (x - sprite.x).toNat)) =
        (ink sprite ((y - sprite.y).toNat, (x - sprite.x).toNat)).getD
          (pixels (address sprite ((y - sprite.y).toNat, (x - sprite.x).toNat))) :=
      (saveItems_apply (cells_apart h) (sprite.underneath, pixels) hmem).2
    rw [hplace] at hdrawn
    refine hdrawn.trans ?_
    unfold ink offset
    dsimp only
    rw [ite_not]
  · rw [if_neg fun hall => hbox hall.2]
    refine saveItems_other (fun cell hcell heq => hbox ?_) _
    obtain ⟨⟨hrow, hcolumn⟩, hon⟩ := (mem_cells sprite).mp hcell
    unfold OnCanvas at hon
    obtain ⟨hcx, hcy⟩ := (address_eq_iff hx (by omega)).mp heq
    omega

end Cells

/-! ## All sprites -/

/-- The canvas with the first sprites over it, those with higher numbers on top. -/
def composite (sprites : Nat → Sprite) (pixels : Pixels) (count x y : Nat) : Pixel :=
  (List.range count).foldl (fun color id => ((sprites id).color x y).getD color) (pixels (y * width + x))

theorem composite_succ (sprites : Nat → Sprite) (pixels : Pixels) (count x y : Nat) :
    composite sprites pixels (count + 1) x y = ((sprites count).color x y).getD (composite sprites pixels count x y) := by
  unfold composite
  rw [List.range_succ, List.foldl_append, List.foldl_cons, List.foldl_nil]

theorem drawSprites_succ (count : Nat) (state : (Nat → Sprite) × Pixels) :
    drawSprites (count + 1) state =
      if ((drawSprites count state).1 count).visible = true then
        let drawn := drawSprite ((drawSprites count state).1 count) (drawSprites count state).2
        (Function.update (drawSprites count state).1 count drawn.1, drawn.2)
      else drawSprites count state := by
  unfold drawSprites
  rw [List.range_succ, List.foldl_append, List.foldl_cons, List.foldl_nil]

/-- A sprite is as it was until it is drawn. -/
theorem drawSprites_later {count id : Nat} (h : count ≤ id) (state : (Nat → Sprite) × Pixels) :
    (drawSprites count state).1 id = state.1 id := by
  induction count with
  | zero => rfl
  | succ count ih =>
    rw [drawSprites_succ]
    split
    · exact (Function.update_of_ne (by omega) _ _).trans (ih (by omega))
    · exact ih (by omega)

theorem restoreSprites_succ (count : Nat) (sprites : Nat → Sprite) (pixels : Pixels) :
    restoreSprites (count + 1) sprites pixels =
      restoreSprites count sprites (if (sprites count).visible = true then restoreSprite (sprites count) pixels else pixels) := by
  unfold restoreSprites
  rw [List.range_succ, List.reverse_append, List.reverse_singleton, List.singleton_append, List.foldl_cons]

theorem restoreSprites_visible {count : Nat} {sprites : Nat → Sprite} {sprite : Sprite} (hsprite : sprites count = sprite)
    (hvisible : sprite.visible = true) (pixels : Pixels) :
    restoreSprites (count + 1) sprites pixels = restoreSprites count sprites (restoreSprite sprite pixels) := by
  subst hsprite
  rw [restoreSprites_succ, if_pos hvisible]

theorem restoreSprites_congr {count : Nat} {sprites sprites' : Nat → Sprite} (h : ∀ id < count, sprites id = sprites' id)
    (pixels : Pixels) : restoreSprites count sprites pixels = restoreSprites count sprites' pixels := by
  induction count generalizing pixels with
  | zero => rfl
  | succ count ih =>
    rw [restoreSprites_succ, restoreSprites_succ, h count (Nat.lt_succ_self count)]
    exact ih (fun id hid => h id (Nat.lt_succ_of_lt hid)) _

variable {sprites : Nat → Sprite}

/-- Undoing the sprites in reverse order gives the canvas back. -/
theorem restoreSprites_drawSprites (h : ∀ id, Fits (sprites id)) (pixels : Pixels) (count : Nat) :
    restoreSprites count (drawSprites count (sprites, pixels)).1 (drawSprites count (sprites, pixels)).2 = pixels := by
  induction count with
  | zero => rfl
  | succ count ih =>
    have hsprite : (drawSprites count (sprites, pixels)).1 count = sprites count := drawSprites_later (Nat.le_refl count) _
    by_cases hvisible : (sprites count).visible = true
    · have hdrawn : drawSprites (count + 1) (sprites, pixels) =
          (Function.update (drawSprites count (sprites, pixels)).1 count
            (drawSprite (sprites count) (drawSprites count (sprites, pixels)).2).1,
            (drawSprite (sprites count) (drawSprites count (sprites, pixels)).2).2) := by
        rw [drawSprites_succ, hsprite, if_pos hvisible]
      have hkeep : (drawSprite (sprites count) (drawSprites count (sprites, pixels)).2).1.visible = true := hvisible
      rw [hdrawn, restoreSprites_visible (Function.update_self count _ _) hkeep, restoreSprite_drawSprite (h count)]
      refine Eq.trans (restoreSprites_congr (fun id hid => ?_) _) ih
      exact Function.update_of_ne (Nat.ne_of_lt hid) _ _
    · have hdrawn : drawSprites (count + 1) (sprites, pixels) = drawSprites count (sprites, pixels) := by
        rw [drawSprites_succ, hsprite, if_neg hvisible]
      rw [hdrawn, restoreSprites_succ, hsprite, if_neg hvisible]
      exact ih

/-- What the sprites draw, in the order of their numbers. -/
theorem drawSprites_apply (h : ∀ id, Fits (sprites id)) (pixels : Pixels) (count : Nat) {x y : Nat} (hx : x < width) (hy : y < height) :
    (drawSprites count (sprites, pixels)).2 (y * width + x) = composite sprites pixels count x y := by
  induction count with
  | zero => rfl
  | succ count ih =>
    have hsprite : (drawSprites count (sprites, pixels)).1 count = sprites count := drawSprites_later (Nat.le_refl count) _
    rw [composite_succ, ← ih, drawSprites_succ, hsprite]
    by_cases hvisible : (sprites count).visible = true
    · rw [if_pos hvisible]
      exact drawSprite_apply (h count) hvisible _ hx hy
    · rw [if_neg hvisible]
      unfold Sprite.color
      rw [if_neg fun hall => hvisible hall.1]
      rfl

/-! ## Every sprite that the statements make fits -/

theorem fits_zero : Fits Sprite.zero := ⟨Nat.zero_le _, Nat.zero_le _⟩

theorem fits_update {id : Nat} {sprite : Sprite} (h : ∀ id, Fits (sprites id)) (hsprite : Fits sprite) (other : Nat) :
    Fits (Function.update sprites id sprite other) := by
  by_cases hid : other = id
  · subst hid
    rw [Function.update_self]
    exact hsprite
  · rw [Function.update_of_ne hid]
    exact h other

theorem fits_drawSprites (h : ∀ id, Fits (sprites id)) (pixels : Pixels) (count : Nat) :
    ∀ id, Fits ((drawSprites count (sprites, pixels)).1 id) := by
  induction count with
  | zero => exact h
  | succ count ih =>
    rw [drawSprites_succ]
    split
    · exact fits_update ih ⟨(ih count).width, (ih count).height⟩
    · exact ih

/-- The sprites of a state fit into their arrays. -/
def State.Fits (s : State) : Prop := ∀ id, BasicGraphics.Fits (s.sprites id)

theorem fits_present {s : State} (h : s.Fits) (presents : Int) : (present presents s).1.Fits := by
  unfold present
  split
  · exact h
  · exact fits_drawSprites h _ _

theorem fits_spriteStatement {s : State} (h : s.Fits) (statement : Statement) : (spriteStatement statement s).1.Fits := by
  unfold spriteStatement
  dsimp only
  split
  · exact h
  split
  · split
    · exact h
    · next hsize => exact fits_update h ⟨by dsimp only; omega, by dsimp only; omega⟩
  split
  · exact h
  have hold := h (statement.numbers 0).val.toNat
  split
  · exact fits_update h ⟨hold.width, hold.height⟩
  split
  · split
    · exact h
    · split
      · exact h
      · exact fits_update h ⟨hold.width, hold.height⟩
  · exact fits_update h ⟨hold.width, hold.height⟩

theorem fits_canvasStatement {s : State} (h : s.Fits) (e : Environment) (statement : Statement) (pixels : Pixels) :
    (canvasStatement e statement pixels s).1.Fits := by
  unfold canvasStatement
  dsimp only
  split
  case h_7 => exact fits_present h _
  case h_8 | h_9 | h_10 | h_11 | h_12 => exact fits_spriteStatement h statement
  case h_13 => exact h
  all_goals
    split
    · exact h
    · exact h

theorem fits_graphicsStatement {s : State} (h : s.Fits) (e : Environment) : (graphicsStatement e s).1.Fits := by
  have hzero : ∀ _ : Nat, BasicGraphics.Fits Sprite.zero := fun _ => fits_zero
  unfold graphicsStatement
  split
  · split
    · exact fits_present (s := { s with canvas := _, ink := 1, sprites := fun _ => Sprite.zero }) hzero _
    · exact hzero
  · exact fits_present h _

theorem fits_command {s : State} (h : s.Fits) (e : Environment) (statement : Statement) : (command e statement s).1.Fits := by
  unfold command
  split
  · exact h
  split
  · exact fits_graphicsStatement h e
  · exact fun _ => fits_zero
  · split <;> exact h
  · exact h
  · split <;> exact h
  · split
    · exact h
    · exact fits_canvasStatement h e statement _

theorem fits_run (operations : List Operation) : (run operations).Fits := by
  have hsteps : ∀ s : State, s.Fits → (operations.foldl step s).Fits := by
    induction operations with
    | nil => exact fun _ h => h
    | cons operation operations ih =>
      intro s h
      refine ih _ ?_
      cases operation with
      | command e statement => exact fits_command h e statement
      | close => exact fun _ => fits_zero
  exact hsteps State.initial fun _ => fits_zero

/-- Whatever the canvas has and whatever sprites the statements have left, what is presented is the canvas with the sprites over it, and
the canvas is as before whatever presenting returns. -/
theorem present_leaves_no_trail (operations : List Operation) (pixels : Pixels) (presents : Int) :
    ∃ shown : Pixels,
      (present presents { run operations with canvas := some pixels }).1.presented = shown :: (run operations).presented ∧
        (∀ x < width, ∀ y < height, shown (y * width + x) = composite (run operations).sprites pixels BasicGraphics.sprites x y) ∧
        (present presents { run operations with canvas := some pixels }).1.canvas = some pixels ∧
        (present presents { run operations with canvas := some pixels }).2 = presents := by
  have h := fits_run operations
  refine ⟨(drawSprites BasicGraphics.sprites ((run operations).sprites, pixels)).2, rfl, fun x hx y hy => ?_, ?_, rfl⟩
  · exact drawSprites_apply h pixels _ hx hy
  · exact congrArg some (restoreSprites_drawSprites h pixels _)

end BasicGraphics
end TabOS
