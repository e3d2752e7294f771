import TabOS.Graphics
import Mathlib.Data.List.Range

/-!
# Filling and blitting

`raster_fill` and `raster_blit` of `graphics/raster.c`. A bitmap is a function from the pixels of its rows, one row behind the other; it
is not a part of the framebuffer.
-/

namespace TabOS

/-- `tabos_graphics_rect_t`. -/
structure GraphicsRect where
  x : Int
  y : Int
  width : Nat
  height : Nat

/-- `tabos_graphics_blit_options_t`; `none` is `NULL`. -/
structure GraphicsBlitOptions where
  pixels : Option (Nat → Pixel)
  bitmapWidth : Nat
  bitmapHeight : Nat
  source : GraphicsRect
  destination : GraphicsRect
  rotation : Nat
  mirrorX : Bool
  mirrorY : Bool
  opacity : Nat
  colorKeyEnabled : Bool
  colorKeyLow : Pixel
  colorKeyHigh : Pixel

/-- `TABOS_GRAPHICS_ROTATE_90` and the others are the number of quarter turns. -/
def graphicsRotate90 : Nat := 1
def graphicsRotate180 : Nat := 2
def graphicsRotate270 : Nat := 3

/-- `raster_copy_span`. -/
def rasterCopySpan (pixels : Nat → Pixel) (destination : Nat) (bitmap : Nat → Pixel) (source count : Nat) : Nat → Pixel :=
  fun address =>
    if destination ≤ address ∧ address < destination + count then bitmap (source + (address - destination)) else pixels address

def rasterFill (framebuffer : Framebuffer) (x y : Int) (width height : Nat) (color : Pixel) : Framebuffer :=
  if width = 0 ∨ height = 0 then framebuffer
  else
    let right := x + width
    let bottom := y + height
    if right ≤ 0 ∨ bottom ≤ 0 then framebuffer
    else
      let left := x.toNat
      let top := y.toNat
      let clippedRight := min right.toNat framebuffer.width
      let clippedBottom := min bottom.toNat framebuffer.height
      if clippedRight ≤ left ∨ clippedBottom ≤ top then framebuffer
      else
        { framebuffer with
          pixels := (List.range' top (clippedBottom - top)).foldl
            (fun pixels row => rasterFillSpan pixels (row * framebuffer.stridePixels + left) (clippedRight - left) color)
            framebuffer.pixels }

/-! ## Colours -/

def redOf (color : Pixel) : Nat := (color.toNat >>> 11) &&& 0x1f

def greenOf (color : Pixel) : Nat := (color.toNat >>> 5) &&& 0x3f

def blueOf (color : Pixel) : Nat := color.toNat &&& 0x1f

def keyed (color low high : Pixel) : Bool :=
  decide (redOf low ≤ redOf color) && decide (redOf color ≤ redOf high) && decide (greenOf low ≤ greenOf color) &&
    decide (greenOf color ≤ greenOf high) && decide (blueOf low ≤ blueOf color) && decide (blueOf color ≤ blueOf high)

/-- One channel of `blend`. -/
def blendChannel (source destination opacity : Nat) : Nat := (source * opacity + destination * (255 - opacity) + 127) / 255

def blend (source destination : Pixel) (opacity : Nat) : Pixel :=
  let red := blendChannel (redOf source) (redOf destination) opacity
  let green := blendChannel (greenOf source) (greenOf destination) opacity
  let blue := blendChannel (blueOf source) (blueOf destination) opacity
  UInt16.ofNat ((red <<< 11) ||| (green <<< 5) ||| blue)

/-! ## Blits -/

/-- The options that `raster_blit` refuses. -/
def GraphicsBlitOptions.Invalid (options : GraphicsBlitOptions) : Prop :=
  options.pixels.isNone = true ∨ options.bitmapWidth = 0 ∨ options.bitmapHeight = 0 ∨ options.source.width = 0 ∨
    options.source.height = 0 ∨ options.destination.width = 0 ∨ options.destination.height = 0 ∨ options.source.x < 0 ∨
    options.source.y < 0 ∨ options.source.x.toNat + options.source.width > options.bitmapWidth ∨
    options.source.y.toNat + options.source.height > options.bitmapHeight ∨ options.rotation > graphicsRotate270

instance (options : GraphicsBlitOptions) : Decidable options.Invalid :=
  decidable_of_iff
    (options.pixels.isNone = true ∨ options.bitmapWidth = 0 ∨ options.bitmapHeight = 0 ∨ options.source.width = 0 ∨
      options.source.height = 0 ∨ options.destination.width = 0 ∨ options.destination.height = 0 ∨ options.source.x < 0 ∨
      options.source.y < 0 ∨ options.source.x.toNat + options.source.width > options.bitmapWidth ∨
      options.source.y.toNat + options.source.height > options.bitmapHeight ∨ options.rotation > graphicsRotate270) Iff.rfl

/-- The first column from `column` on, below `count`, at which a test fails. -/
def columnAfter (test : Nat → Bool) (count column : Nat) : Nat :=
  column + ((List.range' column (count - column)).takeWhile test).length

/-- Copies the runs of a row that the colour key leaves; every round but the last passes a column. -/
def copyUnkeyed (options : GraphicsBlitOptions) (bitmap : Nat → Pixel) (destination source count : Nat) :
    Nat → Nat → (Nat → Pixel) → Nat → Pixel
  | 0, _, pixels => pixels
  | fuel + 1, column, pixels =>
    if column < count then
      let transparent := fun column => keyed (bitmap (source + column)) options.colorKeyLow options.colorKeyHigh
      let start := columnAfter transparent count column
      let stop := columnAfter (fun column => !transparent column) count start
      copyUnkeyed options bitmap destination source count fuel stop
        (rasterCopySpan pixels (destination + start) bitmap (source + start) (stop - start))
    else pixels

/-- A row of a blit that neither turns, mirrors, scales nor blends. -/
def copyRow (framebuffer : Framebuffer) (options : GraphicsBlitOptions) (bitmap : Nat → Pixel) (pixels : Nat → Pixel) (row : Nat) :
    Nat → Pixel :=
  let outputY := options.destination.y + row
  if outputY < 0 ∨ outputY ≥ framebuffer.height then pixels
  else
    let clipped := (-options.destination.x).toNat
    if options.destination.x < 0 ∧ clipped ≥ options.destination.width then pixels
    else
      let outputX := options.destination.x.toNat
      let sourceX := options.source.x.toNat + clipped
      if outputX ≥ framebuffer.width then pixels
      else
        let count := min (options.destination.width - clipped) (framebuffer.width - outputX)
        let destination := outputY.toNat * framebuffer.stridePixels + outputX
        let source := (options.source.y.toNat + row) * options.bitmapWidth + sourceX
        if options.colorKeyEnabled = false then rasterCopySpan pixels destination bitmap source count
        else copyUnkeyed options bitmap destination source count count 0 pixels

/-- The pixel of the bitmap that a pixel of the turned source comes from. -/
def sampledPixel (options : GraphicsBlitOptions) (rx ry : Nat) : Nat :=
  let turned : Nat × Nat :=
    if options.rotation = graphicsRotate90 then (options.source.width - 1 - ry, rx)
    else if options.rotation = graphicsRotate180 then (options.source.width - 1 - rx, options.source.height - 1 - ry)
    else if options.rotation = graphicsRotate270 then (ry, options.source.height - 1 - rx)
    else (rx, ry)
  let sx := if options.mirrorX = true then options.source.width - 1 - turned.1 else turned.1
  let sy := if options.mirrorY = true then options.source.height - 1 - turned.2 else turned.2
  (sy + options.source.y.toNat) * options.bitmapWidth + (sx + options.source.x.toNat)

/-- One pixel of a blit; `dx` and `dy` are relative to the destination. -/
def blitPixel (framebuffer : Framebuffer) (options : GraphicsBlitOptions) (bitmap : Nat → Pixel) (pixels : Nat → Pixel) (dx dy : Nat) :
    Nat → Pixel :=
  let turned := options.rotation = graphicsRotate90 ∨ options.rotation = graphicsRotate270
  let rotatedWidth := if turned then options.source.height else options.source.width
  let rotatedHeight := if turned then options.source.width else options.source.height
  let ry := dy * rotatedHeight / options.destination.height
  let rx := dx * rotatedWidth / options.destination.width
  let source := bitmap (sampledPixel options rx ry)
  if options.colorKeyEnabled = true ∧ keyed source options.colorKeyLow options.colorKeyHigh = true then pixels
  else
    let address := (options.destination.y + dy).toNat * framebuffer.stridePixels + (options.destination.x + dx).toNat
    Function.update pixels address (if options.opacity = 255 then source else blend source (pixels address) options.opacity)

/-- The part of a span from `start` on of `length` that lies in the first `limit` places, relative to its start. -/
def clippedSpan (start : Int) (length limit : Nat) : List Nat :=
  let first := max start 0
  let stop := min (start + length) limit
  if first ≥ stop then [] else List.range' (first - start).toNat (stop - first).toNat

/-- `raster_blit`: whether the options are valid, and the framebuffer. -/
def rasterBlit (framebuffer : Framebuffer) (options : GraphicsBlitOptions) : Bool × Framebuffer :=
  if options.Invalid then (false, framebuffer)
  else
    match options.pixels with
    | none => (false, framebuffer)
    | some bitmap =>
      if options.rotation = 0 ∧ options.mirrorX = false ∧ options.mirrorY = false ∧ options.source.width = options.destination.width ∧
          options.source.height = options.destination.height ∧ options.opacity = 255 then
        (true,
          { framebuffer with
            pixels := (List.range options.destination.height).foldl (copyRow framebuffer options bitmap) framebuffer.pixels })
      else
        (true,
          { framebuffer with
            pixels := (clippedSpan options.destination.y options.destination.height framebuffer.height).foldl
              (fun pixels dy => (clippedSpan options.destination.x options.destination.width framebuffer.width).foldl
                (fun pixels dx => blitPixel framebuffer options bitmap pixels dx dy) pixels) framebuffer.pixels })

/-- `raster_blit` refuses what is invalid, and then draws nothing. -/
theorem rasterBlit_of_invalid {options : GraphicsBlitOptions} (h : options.Invalid) (framebuffer : Framebuffer) :
    rasterBlit framebuffer options = (false, framebuffer) := if_pos h

/-- `raster_blit` accepts everything else. -/
theorem rasterBlit_of_valid {options : GraphicsBlitOptions} (h : ¬options.Invalid) (framebuffer : Framebuffer) :
    (rasterBlit framebuffer options).1 = true := by
  rw [rasterBlit, if_neg h]
  cases hpixels : options.pixels with
  | none => exact absurd (Or.inl (by rw [hpixels]; rfl)) h
  | some bitmap =>
    dsimp only
    split <;> rfl

end TabOS
