import TabOS.Raster.Pixels

/-!
# The canvas of the SDK

The scaled canvas of `sdk/lib/graphics.c`, which applications draw on themselves. Its blit is a rasteriser of its own: it goes through all
of the destination and tests each pixel, where `raster_blit` clips first. Both draw the same pixels.
-/

namespace TabOS

open Library

/-- The canvas of a `tabos_graphics_t` whose `pixels` are given; its rows have no padding. -/
structure Canvas where
  pixels : Nat → Pixel
  width : Nat
  height : Nat

namespace Sdk

/-- `keyed` of the SDK. -/
def keyed (color low high : Pixel) : Bool :=
  let red := (color.toNat >>> 11) &&& 0x1f
  let green := (color.toNat >>> 5) &&& 0x3f
  let blue := color.toNat &&& 0x1f
  decide ((low.toNat >>> 11) &&& 0x1f ≤ red) && decide (red ≤ (high.toNat >>> 11) &&& 0x1f) &&
    decide ((low.toNat >>> 5) &&& 0x3f ≤ green) && decide (green ≤ (high.toNat >>> 5) &&& 0x3f) &&
    decide (low.toNat &&& 0x1f ≤ blue) && decide (blue ≤ high.toNat &&& 0x1f)

/-- `blend` of the SDK. -/
def blend (source destination : Pixel) (opacity : Nat) : Pixel :=
  let inverse := 255 - opacity
  let red := (((source.toNat >>> 11) &&& 0x1f) * opacity + ((destination.toNat >>> 11) &&& 0x1f) * inverse + 127) / 255
  let green := (((source.toNat >>> 5) &&& 0x3f) * opacity + ((destination.toNat >>> 5) &&& 0x3f) * inverse + 127) / 255
  let blue := ((source.toNat &&& 0x1f) * opacity + (destination.toNat &&& 0x1f) * inverse + 127) / 255
  UInt16.ofNat ((red <<< 11) ||| (green <<< 5) ||| blue)

/-- The options that `scaled_blit` refuses; `tabos_graphics_blit_ex` has refused those without a bitmap. -/
def Invalid (options : GraphicsBlitOptions) : Prop :=
  options.bitmapWidth = 0 ∨ options.bitmapHeight = 0 ∨ options.source.width = 0 ∨ options.source.height = 0 ∨
    options.destination.width = 0 ∨ options.destination.height = 0 ∨ options.source.x < 0 ∨ options.source.y < 0 ∨
    options.source.x.toNat + options.source.width > options.bitmapWidth ∨
    options.source.y.toNat + options.source.height > options.bitmapHeight ∨ options.rotation > graphicsRotate270

instance (options : GraphicsBlitOptions) : Decidable (Invalid options) :=
  decidable_of_iff
    (options.bitmapWidth = 0 ∨ options.bitmapHeight = 0 ∨ options.source.width = 0 ∨ options.source.height = 0 ∨
      options.destination.width = 0 ∨ options.destination.height = 0 ∨ options.source.x < 0 ∨ options.source.y < 0 ∨
      options.source.x.toNat + options.source.width > options.bitmapWidth ∨
      options.source.y.toNat + options.source.height > options.bitmapHeight ∨ options.rotation > graphicsRotate270) Iff.rfl

/-- A round of the inner loop of `scaled_blit`. -/
def scaledPixel (graphics : Canvas) (options : GraphicsBlitOptions) (bitmap : Nat → Pixel) (rotatedWidth ry : Nat) (outputY : Int)
    (pixels : Nat → Pixel) (dx : Nat) : Nat → Pixel :=
  let outputX := options.destination.x + dx
  if outputX < 0 ∨ outputX ≥ graphics.width then pixels
  else
    let rx := dx * rotatedWidth / options.destination.width
    let turned : Nat × Nat :=
      if options.rotation = graphicsRotate90 then (options.source.width - 1 - ry, rx)
      else if options.rotation = graphicsRotate180 then (options.source.width - 1 - rx, options.source.height - 1 - ry)
      else if options.rotation = graphicsRotate270 then (ry, options.source.height - 1 - rx)
      else (rx, ry)
    let sx := if options.mirrorX then options.source.width - 1 - turned.1 else turned.1
    let sy := if options.mirrorY then options.source.height - 1 - turned.2 else turned.2
    let sx := sx + options.source.x.toNat
    let sy := sy + options.source.y.toNat
    let source := bitmap (sy * options.bitmapWidth + sx)
    if options.colorKeyEnabled = true ∧ keyed source options.colorKeyLow options.colorKeyHigh = true then pixels
    else
      let destination := outputY.toNat * graphics.width + outputX.toNat
      Function.update pixels destination (if options.opacity = 255 then source else blend source (pixels destination) options.opacity)

/-- A round of the outer loop of `scaled_blit`. -/
def scaledRow (graphics : Canvas) (options : GraphicsBlitOptions) (bitmap : Nat → Pixel) (rotatedWidth rotatedHeight : Nat)
    (pixels : Nat → Pixel) (dy : Nat) : Nat → Pixel :=
  let outputY := options.destination.y + dy
  if outputY < 0 ∨ outputY ≥ graphics.height then pixels
  else
    let ry := dy * rotatedHeight / options.destination.height
    (List.range options.destination.width).foldl (scaledPixel graphics options bitmap rotatedWidth ry outputY) pixels

/-- `scaled_blit`, of a bitmap: whether the options are valid, and the canvas. -/
def scaledBlit (graphics : Canvas) (options : GraphicsBlitOptions) (bitmap : Nat → Pixel) : Bool × Canvas :=
  if Invalid options then (false, graphics)
  else
    let rotatedWidth :=
      if options.rotation = graphicsRotate90 ∨ options.rotation = graphicsRotate270 then options.source.height else options.source.width
    let rotatedHeight :=
      if options.rotation = graphicsRotate90 ∨ options.rotation = graphicsRotate270 then options.source.width else options.source.height
    (true,
      { graphics with
        pixels := (List.range options.destination.height).foldl
          (scaledRow graphics options bitmap rotatedWidth rotatedHeight) graphics.pixels })

/-! ## Colours -/

theorem keyed_eq (color low high : Pixel) : keyed color low high = TabOS.keyed color low high := rfl

theorem blend_eq (source destination : Pixel) (opacity : Nat) :
    blend source destination opacity = TabOS.blend source destination opacity :=
  rfl

/-- The SDK refuses what the kernel refuses. -/
theorem invalid_iff {options : GraphicsBlitOptions} {bitmap : Nat → Pixel} (hbitmap : options.pixels = some bitmap) :
    Invalid options ↔ options.Invalid := by
  unfold Invalid GraphicsBlitOptions.Invalid
  rw [hbitmap]
  exact (or_iff_right Bool.false_ne_true).symm

/-! ## The pixels of a blit on a canvas -/

section Pixels

variable (graphics : Canvas) (options : GraphicsBlitOptions) (bitmap : Nat → Pixel)

/-- The width of the turned source. -/
def rotatedWidth : Nat :=
  if options.rotation = graphicsRotate90 ∨ options.rotation = graphicsRotate270 then options.source.height else options.source.width

/-- The height of the turned source. -/
def rotatedHeight : Nat :=
  if options.rotation = graphicsRotate90 ∨ options.rotation = graphicsRotate270 then options.source.width else options.source.height

theorem scaledPixel_apply (pixels : Nat → Pixel) (dx dy address : Nat) :
    scaledPixel graphics options bitmap (rotatedWidth options) (dy * rotatedHeight options / options.destination.height)
        (options.destination.y + dy) pixels dx address =
      if (0 ≤ options.destination.x + dx ∧ options.destination.x + dx < graphics.width) ∧
          address = (options.destination.y + dy).toNat * graphics.width + (options.destination.x + dx).toNat then
        drawnPixel options bitmap dx dy (pixels address)
      else pixels address := by
  unfold scaledPixel
  dsimp only
  split
  · rw [if_neg (by omega)]
  · rename_i hvisible
    rw [if_congr (and_iff_right (show _ ∧ _ by omega)) rfl rfl]
    refine (ite_update_apply pixels _ address _).trans ?_
    split
    · rename_i heq
      rw [heq]
      rfl
    · rfl

theorem scaledRow_apply {x y : Nat} (hx : x < graphics.width) (hy : y < graphics.height) (pixels : Nat → Pixel) (dy : Nat) :
    scaledRow graphics options bitmap (rotatedWidth options) (rotatedHeight options) pixels dy (y * graphics.width + x) =
      if options.destination.y + dy = y then
        if OnLine options.destination.x options.destination.width x then
          drawnPixel options bitmap (x - options.destination.x).toNat dy (pixels (y * graphics.width + x))
        else pixels (y * graphics.width + x)
      else pixels (y * graphics.width + x) := by
  unfold scaledRow
  dsimp only
  split
  · rw [if_neg (by omega)]
  rename_i hvisible
  rw [foldl_apply (fun address v (dx : Nat) =>
    if (0 ≤ options.destination.x + dx ∧ options.destination.x + dx < graphics.width) ∧
        address = (options.destination.y + dy).toNat * graphics.width + (options.destination.x + dx).toNat then
      drawnPixel options bitmap dx dy v else v)
    (fun memory dx address => scaledPixel_apply graphics options bitmap memory dx dy address)]
  have haddress : ∀ dx : Nat, 0 ≤ options.destination.x + dx ∧ options.destination.x + dx < graphics.width →
      (y * graphics.width + x = (options.destination.y + dy).toNat * graphics.width + (options.destination.x + dx).toNat ↔
        options.destination.x + dx = x ∧ options.destination.y + dy = y) := by
    intro dx hdx
    rw [address_eq_iff hx (by omega)]
    omega
  by_cases hrow : options.destination.y + dy = y
  · rw [if_pos hrow]
    refine foldl_line (fun dx v => drawnPixel options bitmap dx dy v) List.nodup_range (fun dx _ => List.mem_range)
      (fun dx _ hdx v => ?_) (fun dx _ hdx v => ?_) _
    · have hin : 0 ≤ options.destination.x + dx ∧ options.destination.x + dx < graphics.width := by omega
      exact if_pos ⟨hin, (haddress dx hin).2 ⟨hdx, hrow⟩⟩
    · exact if_neg fun h => hdx ((haddress dx h.1).1 h.2).1
  · rw [if_neg hrow]
    exact foldl_eq_self (fun dx _ v => if_neg fun h => hrow ((haddress dx h.1).1 h.2).2) _

/-- Each pixel of the canvas after a blit. -/
theorem scaledBlit_apply (hvalid : ¬Invalid options) {x y : Nat} (hx : x < graphics.width) (hy : y < graphics.height) :
    (scaledBlit graphics options bitmap).2.pixels (y * graphics.width + x) =
      blitted options bitmap x y (graphics.pixels (y * graphics.width + x)) := by
  have hrows : ∀ (l : List Nat) pixels,
      l.foldl (scaledRow graphics options bitmap (rotatedWidth options) (rotatedHeight options)) pixels (y * graphics.width + x) =
      l.foldl (fun v (dy : Nat) => if options.destination.y + dy = y then
        if OnLine options.destination.x options.destination.width x then
          drawnPixel options bitmap (x - options.destination.x).toNat dy v else v
        else v) (pixels (y * graphics.width + x)) := by
    intro l
    induction l with
    | nil => exact fun _ => rfl
    | cons dy l ih =>
      intro pixels
      rw [List.foldl_cons, List.foldl_cons, ih, scaledRow_apply graphics options bitmap hx hy]
  unfold scaledBlit
  rw [if_neg hvalid]
  refine (hrows _ _).trans ?_
  exact foldl_line (fun dy v => if OnLine options.destination.x options.destination.width x then
    drawnPixel options bitmap (x - options.destination.x).toNat dy v else v) List.nodup_range (fun dy _ => List.mem_range)
    (fun dy _ hrow v => if_pos hrow) (fun dy _ hrow v => if_neg hrow) _

end Pixels

/-- For every canvas, every bitmap that is not a part of it and all options, the SDK accepts what the kernel accepts, and draws on the
canvas what the kernel draws on a framebuffer of its size with its pixels. -/
theorem scaledBlit_eq_rasterBlit (graphics : Canvas) (framebuffer : Framebuffer) (options : GraphicsBlitOptions) (bitmap : Nat → Pixel)
    (hbitmap : options.pixels = some bitmap) (hwidth : framebuffer.width = graphics.width)
    (hheight : framebuffer.height = graphics.height)
    (hpixels : ∀ x y, x < graphics.width → y < graphics.height →
      framebuffer.pixels (y * framebuffer.stridePixels + x) = graphics.pixels (y * graphics.width + x)) :
    (scaledBlit graphics options bitmap).1 = (rasterBlit framebuffer options).1 ∧
    ∀ x y, x < graphics.width → y < graphics.height →
      (scaledBlit graphics options bitmap).2.pixels (y * graphics.width + x) =
        (rasterBlit framebuffer options).2.pixels (y * framebuffer.stridePixels + x) := by
  by_cases hvalid : Invalid options
  · have hblit : scaledBlit graphics options bitmap = (false, graphics) := if_pos hvalid
    rw [hblit, rasterBlit_of_invalid ((invalid_iff hbitmap).1 hvalid)]
    exact ⟨rfl, fun x y hx hy => (hpixels x y hx hy).symm⟩
  · have hvalid' : ¬options.Invalid := fun h => hvalid ((invalid_iff hbitmap).2 h)
    refine ⟨?_, fun x y hx hy => ?_⟩
    · rw [rasterBlit_of_valid hvalid']
      unfold scaledBlit
      rw [if_neg hvalid]
    · rw [scaledBlit_apply graphics options bitmap hvalid hx hy,
        rasterBlit_apply hbitmap hvalid' (hwidth.symm ▸ hx) (hheight.symm ▸ hy), hpixels x y hx hy]

/-- A bitmap of two by two pixels that reaches over the left edge, with a key. -/
def cornerOptions : GraphicsBlitOptions where
  pixels := some fun index => UInt16.ofNat (index + 1)
  bitmapWidth := 2
  bitmapHeight := 2
  source := ⟨0, 0, 2, 2⟩
  destination := ⟨-1, 0, 2, 2⟩
  rotation := 0
  mirrorX := false
  mirrorY := false
  opacity := 255
  colorKeyEnabled := true
  colorKeyLow := 4
  colorKeyHigh := 4

theorem scaledBlit_eq_rasterBlit_corner :
    (scaledBlit ⟨fun _ => 0, 2, 2⟩ cornerOptions fun index => UInt16.ofNat (index + 1)).1 =
        (rasterBlit (.black 2 2) cornerOptions).1 ∧
      ∀ x y, x < 2 → y < 2 →
        (scaledBlit ⟨fun _ => 0, 2, 2⟩ cornerOptions fun index => UInt16.ofNat (index + 1)).2.pixels (y * 2 + x) =
          (rasterBlit (.black 2 2) cornerOptions).2.pixels (y * 2 + x) :=
  scaledBlit_eq_rasterBlit ⟨fun _ => 0, 2, 2⟩ (.black 2 2) cornerOptions _ rfl rfl rfl fun _ _ _ _ => rfl

end Sdk
end TabOS
