import TabOS.Basic.Picture
import TabOS.Library.Run

/-!
# What writes mark

Marks only grow. A write marks, before it changes anything, all places where a sprite is that it changes, and it marks the cell, the
background or the border whose ground it changes, so the ground stays right outside the damage.
-/

namespace TabOS
namespace C64

open Library

variable {m m' : Memory} {d d' d'' : Damage} {pixels : Pixels} {address sprite cell : Nat} {place : Nat} {value : UInt8}

/-! ## Marks -/

/-- More is to be drawn again. -/
def Grows (d d' : Damage) : Prop := d'.fullDirty = d.fullDirty ∧ ∀ place, Damaged d place → Damaged d' place

theorem Grows.refl (d : Damage) : Grows d d := ⟨rfl, fun _ h => h⟩

theorem Grows.trans (h : Grows d d') (h' : Grows d' d'') : Grows d d'' := ⟨h'.1.trans h.1, fun place hd => h'.2 place (h.2 place hd)⟩

theorem markCell_grows (d : Damage) (cell : Nat) : Grows d (markCell d cell) := by
  unfold markCell
  split
  · exact ⟨rfl, fun _ h => h⟩
  · refine ⟨rfl, fun place h => ?_⟩
    rcases h with ⟨hinner, hdirty | hbackground⟩ | h | h
    · refine .inl ⟨hinner, .inl ?_⟩
      dsimp only
      rcases eq_or_ne (cellAt place) cell with heq | hne
      · rw [heq, Function.update_self]
      · rw [Function.update_of_ne hne, hdirty]
    · exact .inl ⟨hinner, .inr hbackground⟩
    · exact .inr (.inl h)
    · exact .inr (.inr h)

theorem markCell_damaged (hinner : Inner place) : Damaged (markCell d (cellAt place)) place := by
  refine .inl ⟨hinner, .inl ?_⟩
  unfold markCell
  split
  · assumption
  · exact Function.update_self _ _ _

theorem markBox_grows (d : Damage) (x0 y0 x1 y1 : Int) : Grows d (markBox d x0 y0 x1 y1).2 := by
  have hbox {d' : Damage} (hfull : d'.fullDirty = d.fullDirty) (hcells : d'.dirtyCells = d.dirtyCells)
      (hbackground : d'.backgroundDirty = d.backgroundDirty) (hborder : d'.borderDirty = d.borderDirty)
      (hsprite : ∀ place, InBox d place → d.spriteDirty = true → InBox d' place ∧ d'.spriteDirty = true) : Grows d d' := by
    refine ⟨hfull, fun place h => ?_⟩
    rcases h with h | h | h
    · exact .inl ⟨h.1, hcells ▸ hbackground ▸ h.2⟩
    · exact .inr (.inl (hborder ▸ h))
    · exact .inr (.inr (hsprite place h.1 h.2))
  unfold markBox
  split
  · exact Grows.refl d
  · split
    · rename_i hclean
      exact hbox rfl rfl rfl rfl fun _ _ h => absurd (hclean.symm.trans h) (by simp)
    · refine hbox rfl rfl rfl rfl fun place h _ => ⟨?_, rfl⟩
      obtain ⟨h₁, h₂, h₃, h₄⟩ := h
      refine ⟨?_, ?_, ?_, ?_⟩ <;> dsimp only <;> split <;> omega

theorem markBox_damaged {x0 y0 x1 y1 : Int} (h₁ : x0 ≤ (place % 320 : Nat)) (h₂ : ((place % 320 : Nat) : Int) < x1)
    (h₃ : y0 ≤ (place / 320 : Nat)) (h₄ : ((place / 320 : Nat) : Int) < y1) : Damaged (markBox d x0 y0 x1 y1).2 place := by
  unfold markBox
  rw [if_neg (by omega)]
  split
  · exact .inr (.inr ⟨⟨h₁, h₂, h₃, h₄⟩, rfl⟩)
  · refine .inr (.inr ⟨?_, rfl⟩)
    refine ⟨?_, ?_, ?_, ?_⟩ <;> dsimp only <;> split <;> omega

theorem markSprite_grows (m : Memory) (d : Damage) (sprite : Nat) : Grows d (markSprite m d sprite).2 := by
  unfold markSprite
  split
  · exact Grows.refl d
  · exact markBox_grows d _ _ _ _

/-- Where a sprite is drawn. -/
theorem area_box (h : (shapeOf m sprite).Area place) :
    place < 64000 ∧ (shapeOf m sprite).originX ≤ (place % 320 : Nat) ∧
      ((place % 320 : Nat) : Int) < (shapeOf m sprite).originX + 24 * (shapeOf m sprite).scaleX ∧
      (shapeOf m sprite).originY ≤ (place / 320 : Nat) ∧
      ((place / 320 : Nat) : Int) < (shapeOf m sprite).originY + 21 * (shapeOf m sprite).scaleY := by
  have hscaleX : (shapeOf m sprite).scaleX = 1 ∨ (shapeOf m sprite).scaleX = 2 := by
    unfold shapeOf
    dsimp only
    split <;> simp
  have hscaleY : (shapeOf m sprite).scaleY = 1 ∨ (shapeOf m sprite).scaleY = 2 := by
    unfold shapeOf
    dsimp only
    split <;> simp
  obtain ⟨row, hrow, h⟩ := h
  have hrow := List.mem_range.1 hrow
  generalize (shapeOf m sprite).scaleX = scaleX at hscaleX h ⊢
  generalize (shapeOf m sprite).scaleY = scaleY at hscaleY h ⊢
  split at h
  · obtain ⟨pair, hpair, -, hrect⟩ := h
    have hpair := List.mem_range.1 hpair
    obtain ⟨hcanvas, h₁, h₂, h₃, h₄⟩ := hrect
    rcases hscaleX with rfl | rfl <;> rcases hscaleY with rfl | rfl <;> refine ⟨hcanvas, ?_, ?_, ?_, ?_⟩ <;> omega
  · obtain ⟨column, hcolumn, -, hrect⟩ := h
    have hcolumn := List.mem_range.1 hcolumn
    obtain ⟨hcanvas, h₁, h₂, h₃, h₄⟩ := hrect
    rcases hscaleX with rfl | rfl <;> rcases hscaleY with rfl | rfl <;> refine ⟨hcanvas, ?_, ?_, ?_, ?_⟩ <;> omega

theorem markSprite_damaged (henable : bit m.spriteEnable sprite = true) (h : (shapeOf m sprite).Area place) :
    Damaged (markSprite m d sprite).2 place := by
  obtain ⟨hcanvas, h₁, h₂, h₃, h₄⟩ := area_box h
  have hx : (shapeOf m sprite).originX = (m.spriteX sprite).toNat + if bit m.spriteXMsb sprite = true then 256 else 0 := rfl
  have hy : (shapeOf m sprite).originY = (m.spriteY sprite).toNat := rfl
  have hwidth : 24 * ((shapeOf m sprite).scaleX : Int) = if bit m.spriteXExpand sprite = true then 48 else 24 := by
    unfold shapeOf
    dsimp only
    split <;> rfl
  have hheight : 21 * ((shapeOf m sprite).scaleY : Int) = if bit m.spriteYExpand sprite = true then 42 else 21 := by
    unfold shapeOf
    dsimp only
    split <;> rfl
  rw [hx, hwidth] at h₂
  rw [hx] at h₁
  rw [hy, hheight] at h₄
  rw [hy] at h₃
  unfold markSprite
  rw [henable, if_neg (by simp)]
  dsimp only
  have hlow {x p : Int} (hx : x ≤ p) (hp : 0 ≤ p) : (if x < 0 then 0 else x) ≤ p := by split <;> omega
  have hhigh {x limit p : Int} (hx : p < x) (hp : p < limit) : p < if x > limit then limit else x := by split <;> omega
  have hcanvasX : (c64Width : Int) = 320 := rfl
  have hcanvasY : (c64Height : Int) = 200 := rfl
  exact markBox_damaged (hlow h₁ (by omega)) (hhigh h₂ (by omega)) (hlow h₃ (by omega)) (hhigh h₄ (by omega))

/-- Marking sprites one after another marks those that meet the condition. -/
theorem markSprites_spec (m : Memory) (condition : Nat → Bool) (marked : Bool) (d : Damage) :
    Grows d (markSprites m condition marked d).2 ∧ ∀ sprite < 8, condition sprite = true → bit m.spriteEnable sprite = true →
      ∀ place, (shapeOf m sprite).Area place → Damaged (markSprites m condition marked d).2 place := by
  let round : Bool × Damage → Nat → Bool × Damage := fun state sprite =>
    if condition sprite = true then ((markSprite m state.2 sprite).1 || state.1, (markSprite m state.2 sprite).2) else state
  have hfold (l : List Nat) (marked : Bool) (d : Damage) : Grows d (l.foldl round (marked, d)).2 ∧
      ∀ sprite ∈ l, condition sprite = true → bit m.spriteEnable sprite = true →
        ∀ place, (shapeOf m sprite).Area place → Damaged (l.foldl round (marked, d)).2 place := by
    induction l generalizing marked d with
    | nil => exact ⟨Grows.refl d, fun _ hmem => absurd hmem List.not_mem_nil⟩
    | cons i l ih =>
      rw [List.foldl_cons]
      dsimp only [round]
      split
      · obtain ⟨hgrows, hdamaged⟩ := ih ((markSprite m d i).1 || marked) (markSprite m d i).2
        refine ⟨(markSprite_grows m d i).trans hgrows, fun sprite hmem hcondition henable place harea => ?_⟩
        rcases List.mem_cons.1 hmem with rfl | hmem
        · exact hgrows.2 place (markSprite_damaged henable harea)
        · exact hdamaged sprite hmem hcondition henable place harea
      · rename_i hnot
        obtain ⟨hgrows, hdamaged⟩ := ih marked d
        refine ⟨hgrows, fun sprite hmem hcondition henable place harea => ?_⟩
        rcases List.mem_cons.1 hmem with rfl | hmem
        · exact absurd hcondition hnot
        · exact hdamaged sprite hmem hcondition henable place harea
  obtain ⟨hgrows, hdamaged⟩ := hfold (List.range sprites) marked d
  exact ⟨hgrows, fun sprite hsprite => hdamaged sprite (List.mem_range.2 hsprite)⟩

theorem markBankEffect_grows (m : Memory) (d : Damage) (address : Nat) : Grows d (markBankEffect m d address).2 := by
  have hscreen : Grows d (if screenStart ≤ address ∧ address ≤ screenEnd then (true, markCell d (address - screenStart))
      else (false, d)).2 := by
    split
    · exact markCell_grows d _
    · exact Grows.refl d
  unfold markBankEffect
  dsimp only
  generalize (if screenStart ≤ address ∧ address ≤ screenEnd then (true, markCell d (address - screenStart)) else (false, d)) = screen
    at hscreen ⊢
  have hpointer : Grows screen.2 (if pointerStart ≤ address ∧ address ≤ pointerEnd then
      ((markSprite m screen.2 (address - pointerStart)).1 || screen.1, (markSprite m screen.2 (address - pointerStart)).2)
      else (screen.1, screen.2)).2 := by
    split
    · exact markSprite_grows m _ _
    · exact Grows.refl _
  exact (hscreen.trans hpointer).trans (markSprites_spec m _ _ _).1

/-- The character of a place is marked. -/
theorem markBankEffect_cell (hinner : Inner place) (haddress : address = screenStart + cellAt place) :
    Damaged (markBankEffect m d address).2 place := by
  have hlt := cellAt_lt hinner
  have hscreen : screenStart ≤ address ∧ address ≤ screenEnd := by
    unfold screenStart screenEnd at *
    omega
  have hcell : address - screenStart = cellAt place := by omega
  have hmarked : Damaged (markCell d (address - screenStart)) place := by
    rw [hcell]
    exact markCell_damaged hinner
  unfold markBankEffect
  rw [if_pos hscreen]
  dsimp only
  split
  · exact (markSprites_spec m _ _ _).1.2 place ((markSprite_grows m _ _).2 place hmarked)
  · exact (markSprites_spec m _ _ _).1.2 place hmarked

/-- The sprites are marked that show an address of the bank. -/
theorem markBankEffect_sprite (hsprite : sprite < 8) (henable : bit m.spriteEnable sprite = true) (harea : (shapeOf m sprite).Area place)
    (haddress : address = pointerStart + sprite ∨ (m.bank (pointerStart + sprite)).toNat * 64 ≤ address ∧
      address < (m.bank (pointerStart + sprite)).toNat * 64 + 63) : Damaged (markBankEffect m d address).2 place := by
  unfold markBankEffect
  dsimp only
  generalize (if screenStart ≤ address ∧ address ≤ screenEnd then (true, markCell d (address - screenStart)) else (false, d)) = screen
  rcases haddress with rfl | hdata
  · have hpointer : pointerStart ≤ pointerStart + sprite ∧ pointerStart + sprite ≤ pointerEnd := by
      unfold pointerStart pointerEnd
      omega
    rw [if_pos hpointer, Nat.add_sub_cancel_left]
    exact (markSprites_spec m _ _ _).1.2 place (markSprite_damaged henable harea)
  · refine (markSprites_spec m _ _ _).2 sprite hsprite ?_ henable place harea
    simp only [Bool.and_eq_true, decide_eq_true_eq]
    exact hdata

theorem markRegisterEffect_grows (m : Memory) (d : Damage) (address : Nat) : Grows d (markRegisterEffect m d address).2 := by
  have hborder : Grows d { d with borderDirty := true, dirty := true } := by
    refine ⟨rfl, fun place h => ?_⟩
    rcases h with h | h | h
    · exact .inl h
    · exact .inr (.inl ⟨h.1, rfl⟩)
    · exact .inr (.inr h)
  have hbackground : Grows d { d with backgroundDirty := true, dirty := true } := by
    refine ⟨rfl, fun place h => ?_⟩
    rcases h with h | h | h
    · exact .inl ⟨h.1, .inr rfl⟩
    · exact .inr (.inl h)
    · exact .inr (.inr h)
  unfold markRegisterEffect
  split
  · exact markSprite_grows m d _
  split
  · exact hborder
  split
  · exact hbackground
  split
  · exact markSprite_grows m d _
  split
  · exact (markSprites_spec m _ _ d).1
  · exact Grows.refl d

/-- The register says where and how a sprite is drawn. -/
def Shapes (address sprite : Nat) : Prop :=
  0xd000 ≤ address ∧ address ≤ 0xd00f ∧ (address - 0xd000) / 2 = sprite ∨ address = 0xd010 ∨ address = 0xd015 ∨ address = 0xd017 ∨
    address = 0xd01c ∨ address = 0xd01d

theorem markRegisterEffect_sprite (hsprite : sprite < 8) (henable : bit m.spriteEnable sprite = true)
    (harea : (shapeOf m sprite).Area place) (haddress : Shapes address sprite) : Damaged (markRegisterEffect m d address).2 place := by
  unfold Shapes at haddress
  unfold markRegisterEffect
  split
  · rename_i hposition
    have heq : (address - 0xd000) / 2 = sprite := by omega
    rw [heq]
    exact markSprite_damaged henable harea
  · rw [if_neg (by omega), if_neg (by omega), if_neg (by omega), if_pos (by omega)]
    exact (markSprites_spec m _ _ d).2 sprite hsprite rfl henable place harea

theorem markRegisterEffect_border (haddress : address = 0xd020) (hborder : ¬Inner place) :
    Damaged (markRegisterEffect m d address).2 place := by
  subst haddress
  exact .inr (.inl ⟨hborder, rfl⟩)

theorem markRegisterEffect_background (haddress : address = 0xd021) (hinner : Inner place) :
    Damaged (markRegisterEffect m d address).2 place := by
  subst haddress
  exact .inl ⟨hinner, .inr rfl⟩

/-! ## Writes -/

/-- A change of the memory is covered by the marks: the places whose ground changes are damaged, and so are those that a sprite leaves. -/
structure Marked (m m' : Memory) (d d' : Damage) : Prop where
  grows : Grows d d'
  ground : ∀ place, ¬Damaged d' place → ground m' place = ground m place
  covered : ∀ place, ¬Damaged d' place → Covered m place → Covered m' place

theorem Marked.right (h : Marked m m' d d') (hright : Right m (Damaged d) pixels) : Right m' (Damaged d') pixels := by
  intro place hcanvas hD hcovered
  rw [h.ground place hD]
  exact hright place hcanvas (fun hD' => hD (h.grows.2 place hD')) fun hcovered' => hcovered (h.covered place hD hcovered')

/-- What the place of a sprite depends on. -/
theorem Shape.Area.congr {shape shape' : Shape} (h : shape.Area place) (hx : shape'.originX = shape.originX)
    (hy : shape'.originY = shape.originY) (hscaleX : shape'.scaleX = shape.scaleX) (hscaleY : shape'.scaleY = shape.scaleY)
    (hmulticolor : shape'.multicolor = shape.multicolor) (hbits : ∀ row < 21, shape'.bits row = shape.bits row) : shape'.Area place := by
  obtain ⟨row, hrow, h⟩ := h
  refine ⟨row, hrow, ?_⟩
  unfold Shape.pair at *
  rw [hx, hy, hscaleX, hscaleY, hmulticolor, hbits row (List.mem_range.1 hrow)]
  exact h

theorem ground_congr
    (hbank : ∀ cell < 1000, Inner place → cellAt place = cell → m'.bank (screenStart + cell) = m.bank (screenStart + cell))
    (hcolor : Inner place → m'.color (cellAt place) = m.color (cellAt place)) (hbackground : Inner place → m'.background = m.background)
    (hborder : ¬Inner place → m'.border = m.border) : ground m' place = ground m place := by
  by_cases hinner : Inner place
  · rw [ground_inner hinner, ground_inner hinner,
      drawCharacter_congr (hbank _ (cellAt_lt hinner) hinner rfl) (hcolor hinner) (hbackground hinner)]
  · rw [ground_border hinner, ground_border hinner, hborder hinner]

theorem bank_marked (m : Memory) (d : Damage) (address : Nat) (value : UInt8) :
    Marked m { m with bank := Function.update m.bank address value } d
      (markBankEffect { m with bank := Function.update m.bank address value } (markBankEffect m d address).2 address).2 := by
  have hafter := markBankEffect_grows { m with bank := Function.update m.bank address value } (markBankEffect m d address).2 address
  refine ⟨(markBankEffect_grows m d address).trans hafter, fun place hD => ?_, fun place hD hcovered => ?_⟩
  · refine ground_congr (fun cell _ hinner hcell => ?_) (fun _ => rfl) (fun _ => rfl) fun _ => rfl
    refine Function.update_of_ne (fun heq => hD (hafter.2 place (markBankEffect_cell hinner ?_))) _ _
    rw [hcell, heq]
  · obtain ⟨sprite, hsprite, henable, harea⟩ := hcovered
    have hnot : ¬(address = pointerStart + sprite ∨ (m.bank (pointerStart + sprite)).toNat * 64 ≤ address ∧
        address < (m.bank (pointerStart + sprite)).toNat * 64 + 63) := fun haddress =>
      hD (hafter.2 place (markBankEffect_sprite hsprite henable harea haddress))
    have hpointer : Function.update m.bank address value (pointerStart + sprite) = m.bank (pointerStart + sprite) :=
      Function.update_of_ne (fun heq => hnot (.inl heq.symm)) _ _
    refine ⟨sprite, hsprite, henable, harea.congr rfl rfl rfl rfl rfl fun row hrow => ?_⟩
    unfold shapeOf
    dsimp only
    rw [hpointer, Function.update_of_ne (fun heq => hnot (.inr (by omega))), Function.update_of_ne (fun heq => hnot (.inr (by omega))),
      Function.update_of_ne (fun heq => hnot (.inr (by omega)))]

theorem color_marked (m : Memory) (d : Damage) (cell : Nat) (value : UInt8) :
    Marked m { m with color := Function.update m.color cell value } d (markCell d cell) := by
  refine ⟨markCell_grows d cell, fun place hD => ?_, fun place _ hcovered => hcovered⟩
  refine ground_congr (fun _ _ _ _ => rfl) (fun hinner => ?_) (fun _ => rfl) fun _ => rfl
  refine Function.update_of_ne (fun heq => hD ?_) _ _
  rw [← heq]
  exact markCell_damaged hinner

/-- What a register is not about stays. -/
theorem registerWrite_spec (m : Memory) (address : Nat) (value : UInt8) :
    ((registerWrite m address value).bank = m.bank ∧ (registerWrite m address value).color = m.color) ∧
      (address ≠ 0xd020 → (registerWrite m address value).border = m.border) ∧
      (address ≠ 0xd021 → (registerWrite m address value).background = m.background) ∧
      ∀ sprite, ¬Shapes address sprite → bit (registerWrite m address value).spriteEnable sprite = bit m.spriteEnable sprite ∧
        shapeOf (registerWrite m address value) sprite = shapeOf m sprite := by
  by_cases hposition : 0xd000 ≤ address ∧ address ≤ 0xd00f
  · have hother (sprite : Nat) (hnot : ¬Shapes address sprite) : sprite ≠ (address - 0xd000) / 2 := fun heq =>
      hnot (.inl ⟨hposition.1, hposition.2, heq.symm⟩)
    unfold registerWrite
    rw [if_pos hposition]
    dsimp only
    split
    · refine ⟨⟨rfl, rfl⟩, fun _ => rfl, fun _ => rfl, fun sprite hnot => ⟨rfl, ?_⟩⟩
      unfold shapeOf
      dsimp only
      rw [Function.update_of_ne (hother sprite hnot)]
    · refine ⟨⟨rfl, rfl⟩, fun _ => rfl, fun _ => rfl, fun sprite hnot => ⟨rfl, ?_⟩⟩
      unfold shapeOf
      dsimp only
      rw [Function.update_of_ne (hother sprite hnot)]
  by_cases hshapes : address = 0xd010 ∨ address = 0xd015 ∨ address = 0xd017 ∨ address = 0xd01c ∨ address = 0xd01d
  · have hnone (sprite : Nat) (hnot : ¬Shapes address sprite) : False := hnot (.inr hshapes)
    rcases hshapes with rfl | rfl | rfl | rfl | rfl <;>
      exact ⟨⟨rfl, rfl⟩, fun _ => rfl, fun _ => rfl, fun sprite hnot => (hnone sprite hnot).elim⟩
  by_cases hcolors : address = 0xd020 ∨ address = 0xd021 ∨ address = 0xd025 ∨ address = 0xd026
  · rcases hcolors with rfl | rfl | rfl | rfl
    · exact ⟨⟨rfl, rfl⟩, fun h => absurd rfl h, fun _ => rfl, fun _ _ => ⟨rfl, rfl⟩⟩
    · exact ⟨⟨rfl, rfl⟩, fun _ => rfl, fun h => absurd rfl h, fun _ _ => ⟨rfl, rfl⟩⟩
    · exact ⟨⟨rfl, rfl⟩, fun _ => rfl, fun _ => rfl, fun _ _ => ⟨rfl, rfl⟩⟩
    · exact ⟨⟨rfl, rfl⟩, fun _ => rfl, fun _ => rfl, fun _ _ => ⟨rfl, rfl⟩⟩
  have hrest : registerWrite m address value =
      if 0xd027 ≤ address ∧ address ≤ 0xd02e then
        { m with spriteColor := Function.update m.spriteColor (address - 0xd027) (value &&& 15) }
      else m := by
    unfold registerWrite
    rw [if_neg hposition, if_neg (by omega), if_neg (by omega), if_neg (by omega), if_neg (by omega), if_neg (by omega),
      if_neg (by omega), if_neg (by omega), if_neg (by omega), if_neg (by omega)]
  rw [hrest]
  split <;> exact ⟨⟨rfl, rfl⟩, fun _ => rfl, fun _ => rfl, fun _ _ => ⟨rfl, rfl⟩⟩

theorem register_marked (m : Memory) (d : Damage) (address : Nat) (value : UInt8) :
    Marked m (registerWrite m address value) d
      (markRegisterEffect (registerWrite m address value) (markRegisterEffect m d address).2 address).2 := by
  have hafter := markRegisterEffect_grows (registerWrite m address value) (markRegisterEffect m d address).2 address
  obtain ⟨⟨hbank, hcolor⟩, hborder, hbackground, hshapes⟩ := registerWrite_spec m address value
  refine ⟨(markRegisterEffect_grows m d address).trans hafter, fun place hD => ?_, fun place hD hcovered => ?_⟩
  · refine ground_congr (fun _ _ _ _ => by rw [hbank]) (fun _ => by rw [hcolor]) (fun hinner => ?_) fun hout => ?_
    · exact hbackground fun heq => hD (hafter.2 place (markRegisterEffect_background heq hinner))
    · exact hborder fun heq => hD (hafter.2 place (markRegisterEffect_border heq hout))
  · obtain ⟨sprite, hsprite, henable, harea⟩ := hcovered
    obtain ⟨henable', hshape⟩ := hshapes sprite fun haddress =>
      hD (hafter.2 place (markRegisterEffect_sprite hsprite henable harea haddress))
    exact ⟨sprite, hsprite, henable'.trans henable, hshape ▸ harea⟩

theorem writeEffect_marked (m : Memory) (d : Damage) (address : Nat) (value : UInt8) :
    Marked m (writeEffect m d address value).2.1 d (writeEffect m d address value).2.2 := by
  unfold writeEffect
  split
  · exact bank_marked m d address value
  · split
    · exact color_marked m d _ _
    · exact register_marked m d address value

/-! ## Runs -/

/-- The ground is right outside the damage unless all is to be drawn again, and what was presented is what a full redraw shows. -/
structure Tracked (s : State) : Prop where
  right : ∀ pixels, s.canvas = some pixels → s.damage.fullDirty = false → Right s.memory (Damaged s.damage) pixels
  presented : ∀ shown ∈ s.presented, Finished shown.1 shown.2

theorem openCanvas_tracked {e : Environment} {s s' : State} (h : Tracked s) (hopen : openCanvas e s = some (pixels, s')) :
    Tracked s' ∧ s'.canvas = some pixels ∧ s'.memory = s.memory ∧ s'.presented = s.presented := by
  unfold openCanvas at hopen
  split at hopen
  · rename_i hcanvas
    obtain ⟨rfl, rfl⟩ := Prod.mk.inj (Option.some.inj hopen)
    exact ⟨h, hcanvas, rfl, rfl⟩
  · split at hopen
    · obtain ⟨rfl, rfl⟩ := Prod.mk.inj (Option.some.inj hopen)
      exact ⟨⟨fun _ _ hfull => absurd hfull (by simp), h.presented⟩, rfl, rfl, rfl⟩
    · cases hopen

theorem service_tracked (e : Environment) (force : Bool) {s : State} (h : Tracked s) : Tracked (service e force s) := by
  unfold service
  split
  · exact h
  dsimp only
  split
  · exact h
  unfold render
  cases hopen : openCanvas e s with
  | none => exact h
  | some opened =>
    obtain ⟨pixels, s'⟩ := opened
    obtain ⟨hs', hcanvas, -, -⟩ := openCanvas_tracked h hopen
    have hmeets : (drawPicture e.yields s'.memory s'.damage (Work.start pixels)).Meets
        (fun pixels => s'.damage.fullDirty = false → Right s'.memory (Damaged s'.damage) pixels) (Finished s'.memory) :=
      drawPicture_meets (hs'.right pixels hcanvas)
    dsimp only
    generalize drawPicture e.yields s'.memory s'.damage (Work.start pixels) = w at hmeets ⊢
    have hstopped : Tracked { s' with canvas := some w.value } := by
      refine ⟨fun pixels hvalue hfull => ?_, hs'.presented⟩
      obtain rfl := Option.some.inj hvalue
      exact hmeets.always hfull
    cases hgo : w.stopped with
    | true => exact hstopped
    | false =>
      have hfinished := hmeets.done hgo
      rw [if_neg Bool.false_ne_true]
      cases e.presents with
      | false => exact hstopped
      | true =>
        refine ⟨fun pixels hvalue _ => ?_, fun shown hmem => ?_⟩
        · obtain rfl := Option.some.inj hvalue
          exact hfinished.right _
        · rcases List.mem_cons.1 hmem with rfl | hmem
          · exact hfinished
          · exact hs'.presented shown hmem

theorem write_tracked (e : Environment) (address : UInt16) (value : UInt8) {s : State} (h : Tracked s) :
    Tracked (write e address value s).2 := by
  unfold write
  split
  · exact h
  split
  · exact h
  dsimp only
  cases hopen : openCanvas e s with
  | none => exact h
  | some opened =>
    obtain ⟨pixels, s'⟩ := opened
    obtain ⟨hs', hcanvas, -, -⟩ := openCanvas_tracked h hopen
    have hmarked := writeEffect_marked s'.memory s'.damage address.toNat value
    refine service_tracked e false ⟨fun pixels hpixels hfull => ?_, hs'.presented⟩
    exact hmarked.right (hs'.right pixels hpixels (hmarked.grows.1.symm.trans hfull))

theorem step_tracked (call : Call) {s : State} (h : Tracked s) : Tracked (step s call) := by
  cases call with
  | write e address value => exact write_tracked e address value h
  | service e force => exact service_tracked e force h

theorem reset_tracked : Tracked .reset where
  right := fun _ h => absurd h.symm (Option.some_ne_none _)
  presented := fun _ h => absurd h List.not_mem_nil

/-- What the pixels of a canvas show. -/
def picture (pixels : Pixels) : Fin (c64Width * c64Height) → Pixel := fun address => pixels address

/-- Whatever the calls and whatever fails, each picture that was presented is the one that a full redraw of the memory at that time shows,
from any canvas. -/
theorem presented_eq_fullRedraw (calls : List Call) (d : Damage) (canvas : Pixels) :
    (calls.foldl step .reset).presented.map (fun shown => picture shown.2) =
      (calls.foldl step .reset).presented.map fun shown => picture (fullRedraw shown.1 d canvas) := by
  have htracked : Tracked (calls.foldl step .reset) := foldl_invariant Tracked (fun s call h => step_tracked call h) calls reset_tracked
  refine List.map_congr_left fun shown hmem => funext fun address => ?_
  exact (htracked.presented shown hmem).unique (fullRedraw_finished shown.1 d canvas) address.isLt

/-- A forced service presents when there is something to draw and nothing fails. -/
theorem service_presents {e : Environment} {s : State} (hcanvas : s.canvas = some pixels) (hdirty : s.damage.dirty = true)
    (hyields : e.yields = fun _ => true) (hpresents : e.presents = true) :
    ∃ shown, (service e true s).presented = (s.memory, shown) :: s.presented := by
  refine ⟨(drawPicture e.yields s.memory s.damage (Work.start pixels)).value, ?_⟩
  have hstopped : (drawPicture (fun _ => true) s.memory s.damage (Work.start pixels)).stopped = false :=
    drawPicture_stopped s.memory s.damage (Work.start pixels)
  unfold service render openCanvas
  rw [hdirty, hcanvas, hyields, hpresents]
  simp [hstopped]

end C64
end TabOS
