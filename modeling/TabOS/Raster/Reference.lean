import TabOS.Raster.Pixels

/-!
# The picture that a blit draws

What a blit is for, in pictures: the source rectangle of the bitmap is mirrored, turned by quarters and brought to the size of the
destination, and its pixels are blended into the framebuffer but for those that the colour key takes out.
-/

namespace TabOS
namespace Raster

open Library

/-- A picture of `width` by `height` pixels. -/
structure Image where
  width : Nat
  height : Nat
  pixel : Nat → Nat → Pixel

namespace Image

/-- The mirror image, left and right exchanged. -/
def mirrorX (image : Image) : Image := ⟨image.width, image.height, fun x y => image.pixel (image.width - 1 - x) y⟩

/-- The mirror image, top and bottom exchanged. -/
def mirrorY (image : Image) : Image := ⟨image.width, image.height, fun x y => image.pixel x (image.height - 1 - y)⟩

/-- A quarter turn: the right column becomes the top row. -/
def quarterTurn (image : Image) : Image := ⟨image.height, image.width, fun x y => image.pixel (image.width - 1 - y) x⟩

/-- Quarter turns. -/
def turn : Nat → Image → Image
  | 0, image => image
  | n + 1, image => quarterTurn (turn n image)

/-- The image in another size; a pixel is its nearest neighbour above and to the left. -/
def nearest (width height : Nat) (image : Image) : Image :=
  ⟨width, height, fun x y => image.pixel (x * image.width / width) (y * image.height / height)⟩

end Image

/-- The source rectangle of a blit. -/
def sourceImage (options : GraphicsBlitOptions) (bitmap : Nat → Pixel) : Image :=
  ⟨options.source.width, options.source.height,
    fun x y => bitmap ((options.source.y.toNat + y) * options.bitmapWidth + (options.source.x.toNat + x))⟩

/-- The source rectangle, mirrored. -/
def mirroredImage (options : GraphicsBlitOptions) (bitmap : Nat → Pixel) : Image :=
  let image := sourceImage options bitmap
  let image := if options.mirrorX = true then image.mirrorX else image
  if options.mirrorY = true then image.mirrorY else image

/-- The picture that a blit brings to the destination. -/
def sampleImage (options : GraphicsBlitOptions) (bitmap : Nat → Pixel) : Image :=
  ((mirroredImage options bitmap).turn options.rotation).nearest options.destination.width options.destination.height

/-- What a blit is to make of the pixel at `x` and `y` of the framebuffer. -/
def referencePixel (options : GraphicsBlitOptions) (bitmap : Nat → Pixel) (x y : Nat) (old : Pixel) : Pixel :=
  if OnLine options.destination.x options.destination.width x ∧ OnLine options.destination.y options.destination.height y then
    let sample := (sampleImage options bitmap).pixel (x - options.destination.x).toNat (y - options.destination.y).toNat
    if options.colorKeyEnabled = true ∧ keyed sample options.colorKeyLow options.colorKeyHigh = true then old
    else blend sample old options.opacity
  else old

/-! ## Opaque blends -/

theorem blendChannel_full (source destination : Nat) : blendChannel source destination 255 = source := by
  unfold blendChannel
  omega

/-- A blend of the greatest opacity is the source. -/
theorem blend_full (source destination : Pixel) : blend source destination 255 = source := by
  have hred : redOf source = source.toNat / 2048 := by
    have hlt := source.toNat_lt
    unfold redOf
    rw [show 0x1f = 2 ^ 5 - 1 from rfl, Nat.and_two_pow_sub_one_eq_mod, Nat.shiftRight_eq_div_pow]
    omega
  have hgreen : greenOf source = source.toNat / 32 % 64 := by
    unfold greenOf
    rw [show 0x3f = 2 ^ 6 - 1 from rfl, Nat.and_two_pow_sub_one_eq_mod, Nat.shiftRight_eq_div_pow]
  have hblue : blueOf source = source.toNat % 32 := by
    unfold blueOf
    rw [show 0x1f = 2 ^ 5 - 1 from rfl, Nat.and_two_pow_sub_one_eq_mod]
  unfold blend
  dsimp only
  rw [blendChannel_full, blendChannel_full, blendChannel_full, hred, hgreen, hblue, Nat.or_assoc,
    ← Nat.shiftLeft_add_eq_or_of_lt (show source.toNat % 32 < 2 ^ 5 by omega),
    ← Nat.shiftLeft_add_eq_or_of_lt (by rw [Nat.shiftLeft_eq]; omega), Nat.shiftLeft_eq, Nat.shiftLeft_eq]
  have hsum : source.toNat / 2048 * 2 ^ 11 + (source.toNat / 32 % 64 * 2 ^ 5 + source.toNat % 32) = source.toNat := by omega
  rw [hsum]
  exact UInt16.ofNat_toNat

/-! ## Samples -/

theorem rotation_cases {rotation : Nat} (h : rotation ≤ 3) : rotation = 0 ∨ rotation = 1 ∨ rotation = 2 ∨ rotation = 3 := by
  omega

theorem mirroredImage_width (options : GraphicsBlitOptions) (bitmap : Nat → Pixel) :
    (mirroredImage options bitmap).width = options.source.width := by
  unfold mirroredImage
  dsimp only
  split <;> split <;> rfl

theorem mirroredImage_height (options : GraphicsBlitOptions) (bitmap : Nat → Pixel) :
    (mirroredImage options bitmap).height = options.source.height := by
  unfold mirroredImage
  dsimp only
  split <;> split <;> rfl

theorem mirroredImage_pixel (options : GraphicsBlitOptions) (bitmap : Nat → Pixel) (sx sy : Nat) :
    (mirroredImage options bitmap).pixel sx sy =
      bitmap (((if options.mirrorY = true then options.source.height - 1 - sy else sy) + options.source.y.toNat) * options.bitmapWidth +
        ((if options.mirrorX = true then options.source.width - 1 - sx else sx) + options.source.x.toNat)) := by
  unfold mirroredImage
  dsimp only
  rw [Nat.add_comm _ options.source.y.toNat, Nat.add_comm _ options.source.x.toNat]
  split <;> split <;> rfl

/-- The pixel of the bitmap that the code samples is the pixel of the turned picture. -/
theorem turn_pixel {options : GraphicsBlitOptions} (hrotation : options.rotation ≤ 3) (bitmap : Nat → Pixel) {rx ry : Nat}
    (hry : options.rotation = 3 → ry < options.source.width) :
    ((mirroredImage options bitmap).turn options.rotation).pixel rx ry = bitmap (sampledPixel options rx ry) := by
  have hwidth := mirroredImage_width options bitmap
  have hheight := mirroredImage_height options bitmap
  have hpixel := mirroredImage_pixel options bitmap
  generalize mirroredImage options bitmap = image at hwidth hheight hpixel ⊢
  unfold sampledPixel graphicsRotate90 graphicsRotate180 graphicsRotate270
  rcases rotation_cases hrotation with hturn | hturn | hturn | hturn
  · simp only [hturn, Nat.reduceEqDiff, if_false]
    exact hpixel rx ry
  · simp only [hturn, if_true]
    rw [← hpixel, ← hwidth]
    rfl
  · simp only [hturn, Nat.reduceEqDiff, if_false, if_true]
    rw [← hpixel, ← hwidth, ← hheight]
    rfl
  · have hless := hry hturn
    have hback : image.width - 1 - (image.width - 1 - ry) = ry := by omega
    simp only [hturn, Nat.reduceEqDiff, if_false, if_true]
    rw [← hpixel, ← hheight]
    show image.pixel (image.width - 1 - (image.width - 1 - ry)) (image.height - 1 - rx) = _
    rw [hback]

theorem turn_width {options : GraphicsBlitOptions} (hrotation : options.rotation ≤ 3) (bitmap : Nat → Pixel) :
    ((mirroredImage options bitmap).turn options.rotation).width =
      if options.rotation = graphicsRotate90 ∨ options.rotation = graphicsRotate270 then options.source.height
      else options.source.width := by
  rw [← mirroredImage_width options bitmap, ← mirroredImage_height options bitmap]
  unfold graphicsRotate90 graphicsRotate270
  rcases rotation_cases hrotation with hturn | hturn | hturn | hturn
  all_goals
    rw [hturn]
    rfl

theorem turn_height {options : GraphicsBlitOptions} (hrotation : options.rotation ≤ 3) (bitmap : Nat → Pixel) :
    ((mirroredImage options bitmap).turn options.rotation).height =
      if options.rotation = graphicsRotate90 ∨ options.rotation = graphicsRotate270 then options.source.width
      else options.source.height := by
  rw [← mirroredImage_width options bitmap, ← mirroredImage_height options bitmap]
  unfold graphicsRotate90 graphicsRotate270
  rcases rotation_cases hrotation with hturn | hturn | hturn | hturn
  all_goals
    rw [hturn]
    rfl

/-- A pixel that `raster_blit` draws has the value that it is to have. -/
theorem blitted_eq_reference {options : GraphicsBlitOptions} (hrotation : options.rotation ≤ 3) (hwidth : 0 < options.source.width)
    (bitmap : Nat → Pixel) (x y : Nat) (old : Pixel) : blitted options bitmap x y old = referencePixel options bitmap x y old := by
  unfold blitted referencePixel
  rw [ite_and]
  by_cases hcolumn : OnLine options.destination.x options.destination.width x
  swap
  · rw [if_neg hcolumn, if_neg hcolumn, ite_self]
  rw [if_pos hcolumn, if_pos hcolumn]
  refine ite_congr rfl (fun hrow => ?_) fun _ => rfl
  unfold drawnPixel sampleImage Image.nearest
  dsimp only
  rw [turn_width hrotation, turn_height hrotation, turn_pixel hrotation]
  · refine ite_congr rfl (fun _ => rfl) fun _ => ?_
    split
    · rename_i hfull
      rw [hfull, blend_full]
    · rfl
  · intro hturn
    rw [if_pos (show options.rotation = graphicsRotate90 ∨ options.rotation = graphicsRotate270 from Or.inr hturn)]
    have hdy : (y - options.destination.y).toNat < options.destination.height := by
      unfold OnLine at hrow
      omega
    exact Nat.div_lt_of_lt_mul (Nat.mul_lt_mul_of_pos_right hdy hwidth)

end Raster
end TabOS
