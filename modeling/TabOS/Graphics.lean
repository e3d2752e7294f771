import Mathlib.Logic.Function.Basic

/-!
# Framebuffer, spans and glyphs

The part of `graphics/raster.c` and `graphics/font.c` that the terminal draws with. Pixel memory is a function from pixel
addresses, so a write outside the picture would be a write to an address like any other. `raster_fill_span` is modelled by the
effect of its portable loop; the platform's accelerated fill, when it reports success, has filled the same span.
-/

namespace TabOS

/-- `platform_pixel_t`, a 16-bit colour. -/
abbrev Pixel := UInt16

/-- `platform_framebuffer_t`: a picture of `width` by `height` pixels whose rows start `stridePixels` apart. Rows do not
overlap: every platform sets a stride of at least the width. -/
structure Framebuffer where
  pixels : Nat → Pixel
  width : Nat
  height : Nat
  stridePixels : Nat
  width_le_stride : width ≤ stridePixels

/-- A black framebuffer without padding. -/
def Framebuffer.black (width height : Nat) : Framebuffer := ⟨fun _ => 0, width, height, width, Nat.le_refl _⟩

/-- `raster_fill_span`: `count` pixels from address `destination` on become `color`. -/
def rasterFillSpan (pixels : Nat → Pixel) (destination count : Nat) (color : Pixel) : Nat → Pixel :=
  fun address => if destination ≤ address ∧ address < destination + count then color else pixels address

/-! ## The font of `config/Font.cmake` -/

/-- `FONT_GLYPH_WIDTH`. -/
def fontGlyphWidth : Nat := 8

/-- `FONT_GLYPH_HEIGHT`. -/
def fontGlyphHeight : Nat := 12

/-- `FONT_GLYPH_COUNT`. -/
def fontGlyphCount : Nat := 256

/-- `FONT_BYTES_PER_ROW`. -/
def fontBytesPerRow : Nat := (fontGlyphWidth + 7) / 8

/-- `TABOS_FONT_CELL_WIDTH`. -/
def fontCellWidth : Nat := 8

/-- `TABOS_FONT_CELL_HEIGHT`. -/
def fontCellHeight : Nat := 15

/-- The glyphs of `graphics/blueterm.f12`, one number of twelve bytes for each: the top row is the highest byte. -/
def blueterm : List Nat := [
  0x0, 0x7e81a58181bd99817e0000, 0x7effdbffffc3e7ff7e0000, 0x6cfefefefe7c38100000, 0x10387cfe7c3810000000,
  0x183c3ce7e7e718183c0000, 0x183c7effff7e18183c0000, 0x183c3c1800000000, 0xffffffffe7c3c3e7ffffffff,
  0x3c664242663c000000, 0xffffffc399bdbd99c3ffffff, 0x1e0e1a3278cccccc780000, 0x3c6666663c187e18180000,
  0x3f333f30303070f0e00000, 0x7f637f63636367e7e6c000, 0x1818db3ce73cdb18180000, 0x80c0e0f8fef8e0c0800000,
  0x2060e3efe3e0e06020000, 0x183c7e1818187e3c180000, 0x6666666666660066660000, 0x7fdbdbdb7b1b1b1b1b0000,
  0x7cc660386cc66c380cc67c, 0xfefefe0000, 0x183c7e1818187e3c187e00, 0x183c7e1818181818180000,
  0x1818181818187e3c180000, 0x180cfe0c1800000000, 0x3060fe603000000000, 0xc0c0c0fe00000000, 0x286cfe6c2800000000,
  0x1038387c7cfefe000000, 0xfefe7c7c383810000000, 0x0, 0x183c3c3c18180018180000, 0x666666240000000000000000,
  0x6c6cfe6c6c6cfe6c6c0000, 0x18187cc6c07c06c67c181800, 0xc2c60c183066c60000, 0x386c6c3876dccccc760000,
  0x303030600000000000000000, 0xc183030303030180c0000, 0x30180c0c0c0c0c18300000, 0x663cff3c6600000000,
  0x18187e181800000000, 0x1818183000, 0xfe000000000000, 0x18180000, 0x2060c183060c080000000, 0x386cc6c6d6c6c66c380000,
  0x18387818181818187e0000, 0x7cc6060c183060c6fe0000, 0x7cc606063c0606c67c0000, 0xc1c3c6cccfe0c0c1e0000,
  0xfec0c0c0fc0606c67c0000, 0x3860c0c0fcc6c6c67c0000, 0xfec6060c18303030300000, 0x7cc6c6c67cc6c6c67c0000,
  0x7cc6c6c67e06060c780000, 0x18180000001818000000, 0x18180000001818300000, 0x60c18306030180c060000,
  0x7e00007e00000000, 0x6030180c060c1830600000, 0x7cc6c60c18180018180000, 0x7cc6c6dedededcc07c0000,
  0x10386cc6c6fec6c6c60000, 0xfc6666667c666666fc0000, 0x3c66c2c0c0c0c2663c0000, 0xf86c66666666666cf80000,
  0xfe66626878686266fe0000, 0xfe66626878686060f00000, 0x3c66c2c0c0dec6663a0000, 0xc6c6c6c6fec6c6c6c60000,
  0x3c181818181818183c0000, 0x1e0c0c0c0c0ccccc780000, 0xe6666c6c786c6c66e60000, 0xf060606060606266fe0000,
  0xc6eefefed6c6c6c6c60000, 0xc6e6f6fedecec6c6c60000, 0x386cc6c6c6c6c66c380000, 0xfc6666667c606060f00000,
  0x7cc6c6c6c6d6de7c0c0e00, 0xfc6666667c6c6666e60000, 0x7cc6c660380cc6c67c0000, 0x7e7e5a18181818183c0000,
  0xc6c6c6c6c6c6c6c67c0000, 0xc6c6c6c6c6c66c38100000, 0xc6c6c6c6d6d6fe7c6c0000, 0xc6c66c3838386cc6c60000,
  0x666666663c1818183c0000, 0xfec68c183060c2c6fe0000, 0x3c303030303030303c0000, 0x80c0e070381c0e06020000,
  0x3c0c0c0c0c0c0c0c3c0000, 0x10386cc60000000000000000, 0xff, 0x303018000000000000000000, 0x780c7ccccc760000,
  0xe06060786c6666667c0000, 0x7cc6c0c0c67c0000, 0x1c0c0c3c6ccccccc760000, 0x7cc6fec0c67c0000,
  0x386c6460f0606060f00000, 0x76cccccc7c0ccc78, 0xe060606c76666666e60000, 0x18180038181818183c0000,
  0x606000e0606060666663c, 0xe06060666c786c66e60000, 0x38181818181818183c0000, 0xecfed6d6d6c60000, 0xdc66666666660000,
  0x7cc6c6c6c67c0000, 0xdc6666667c6060f0, 0x76cccccc7c0c0c1e, 0xdc76666060f00000, 0x7cc6701cc67c0000,
  0x103030fc303030361c0000, 0xcccccccccc760000, 0x666666663c180000, 0xc6c6d6d6fe6c0000, 0xc66c38386cc60000,
  0xc6c6c6c67e060cf8, 0xfecc183066fe0000, 0xe181818701818180e0000, 0x1818181800181818180000, 0x701818180e181818700000,
  0x76dc000000000000000000, 0x10386cc6c6fe000000, 0x3c66c2c0c0c2663c0c067c, 0xcccc00cccccccccc760000,
  0xc1830007cc6fec0c67c0000, 0x10386c00780c7ccccc760000, 0xcccc00780c7ccccc760000, 0x60301800780c7ccccc760000,
  0x386c3800780c7ccccc760000, 0x3c6660663c0c063c00, 0x10386c007cc6fec0c67c0000, 0xcccc007cc6fec0c67c0000,
  0x603018007cc6fec0c67c0000, 0x66660038181818183c0000, 0x183c660038181818183c0000, 0x6030180038181818183c0000,
  0xc6c610386cc6c6fec6c60000, 0x386c38386cc6c6fec6c60000, 0x183060fe66607c6066fe0000, 0xcc76367ed8d86e0000,
  0x3e6cccccfeccccccce0000, 0x10386c007cc6c6c6c67c0000, 0xc6c6007cc6c6c6c67c0000, 0x603018007cc6c6c6c67c0000,
  0x3078cc00cccccccccc760000, 0x60301800cccccccccc760000, 0xc6c600c6c6c6c67e060cf8, 0xc6c6386cc6c6c6c66c380000,
  0xc6c600c6c6c6c6c6c67c0000, 0x18183c666060663c18180000, 0x386c6460f0606060e6fc0000, 0x66663c187e187e18180000,
  0xf8ccccf8c4ccdeccccc60000, 0xe1b18187e18181818d87000, 0x18306000780c7ccccc760000, 0xc18300038181818183c0000,
  0x183060007cc6c6c6c67c0000, 0x18306000cccccccccc760000, 0x76dc00dc66666666660000, 0x76dc00c6e6f6decec6c60000,
  0x3c6c6c3e007e000000000000, 0x386c6c38007c000000000000, 0x303000303060c6c67c0000, 0xfec0c0c0000000,
  0xfe060606000000, 0x40c6ccd83060dc860c183e, 0x40c6ccd83066ce963e0606, 0x18180018183c3c3c180000,
  0x366cd86c3600000000, 0xd86c366cd800000000, 0x114411441144114411441144, 0x55aa55aa55aa55aa55aa55aa,
  0xdd77dd77dd77dd77dd77dd77, 0x181818181818181818181818, 0x181818181818f81818181818, 0x18181818f818f81818181818,
  0x363636363636f63636363636, 0xfe3636363636, 0xf818f81818181818, 0x36363636f606f63636363636,
  0x363636363636363636363636, 0xfe06f63636363636, 0x36363636f606fe0000000000, 0x363636363636fe0000000000,
  0x18181818f818f80000000000, 0xf81818181818, 0x1818181818181f0000000000, 0x181818181818ff0000000000, 0xff1818181818,
  0x1818181818181f1818181818, 0xff0000000000, 0x181818181818ff1818181818, 0x181818181f181f1818181818,
  0x363636363636373636363636, 0x3636363637303f0000000000, 0x3f30373636363636, 0x36363636f700ff0000000000,
  0xff00f73636363636, 0x363636363730373636363636, 0xff00ff0000000000, 0x36363636f700f73636363636,
  0x18181818ff00ff0000000000, 0x363636363636ff0000000000, 0xff00ff1818181818, 0xff3636363636,
  0x3636363636363f0000000000, 0x181818181f181f0000000000, 0x1f181f1818181818, 0x3f3636363636,
  0x363636363636ff3636363636, 0x18181818ff18ff1818181818, 0x181818181818f80000000000, 0x1f1818181818,
  0xffffffffffffffffffffffff, 0xffffffffffff, 0xf0f0f0f0f0f0f0f0f0f0f0f0, 0xf0f0f0f0f0f0f0f0f0f0f0f,
  0xffffffffffff000000000000, 0x76dcd8d8dc760000, 0x7cc6fcc6c6fcc0c040, 0xfec6c6c0c0c0c0c0c00000,
  0xfe6c6c6c6c6c6c0000, 0xfec66030183060c6fe0000, 0x7ed8d8d8d8700000, 0x666666667c6060c000, 0x76dc18181818180000,
  0x7e183c6666663c187e0000, 0x386cc6c6fec6c66c380000, 0x386cc6c6c66c6c6cee0000, 0x1e30180c3e6666663c0000,
  0x7edbdb7e00000000, 0x3067edbdbf37e60c00000, 0x1c3060607c6060301c0000, 0x7cc6c6c6c6c6c6c60000,
  0xfe0000fe0000fe000000, 0x18187e18180000ff0000, 0x30180c060c1830007e0000, 0xc18306030180c007e0000,
  0xe1b1b1818181818181818, 0x18181818181818d8d8700000, 0x1818007e001818000000, 0x76dc0076dc00000000,
  0x386c6c380000000000000000, 0x18180000000000, 0x180000000000, 0xf0c0c0c0c0cec6c3c1c0000, 0xd86c6c6c6c6c000000000000,
  0x70d83060c8f8000000000000, 0x7c7c7c7c7c7c000000, 0x0]

/-- `font_data`: the byte at an index of the font file. -/
def fontData (index : Nat) : Nat :=
  blueterm.getD (index / fontGlyphHeight) 0 >>> (8 * (fontGlyphHeight - 1 - index % fontGlyphHeight)) % 256

/-- `font_glyph_index`. -/
def fontGlyphIndex (character : Nat) : Nat := if character < fontGlyphCount then character else 0

/-- Whether the bit of a glyph at a row and a column is set: the test `(rows[byte] & mask) != 0` of `font_draw_char`. -/
def glyphBit (character : UInt8) (row column : Nat) : Bool :=
  (fontData (fontGlyphIndex character.toNat * fontGlyphHeight * fontBytesPerRow + row * fontBytesPerRow + column / 8)).testBit
    (7 - column % 8)

/-- The inner loop of `font_draw_char`: how far the colour at `column` goes on, from a run of `run` pixels. -/
def glyphRun (color : Nat → Pixel) (column : Nat) : Nat → Nat → Nat
  | 0, run => run
  | fuel + 1, run =>
    if column + run < fontGlyphWidth ∧ color (column + run) = color column then glyphRun color column fuel (run + 1) else run

/-- One run of one row of `font_draw_char`, clipped to the picture on the left and on the right. -/
def drawGlyphRun (fb : Framebuffer) (x : Int) (outputY scale column run : Nat) (color : Pixel) (pixels : Nat → Pixel) :
    Nat → Pixel :=
  let start := x + (column * scale : Nat)
  let count := run * scale
  let clipped := (-start).toNat
  if start < 0 ∧ count ≤ clipped then pixels
  else
    let outputX := start.toNat
    let count := count - clipped
    if outputX < fb.width then
      rasterFillSpan pixels (outputY * fb.stridePixels + outputX) (min count (fb.width - outputX)) color
    else pixels

/-- The `while (column < FONT_GLYPH_WIDTH)` loop of `font_draw_char`; a run is at least one column, so `fontGlyphWidth` rounds
are enough. -/
def drawGlyphColumns (fb : Framebuffer) (color : Nat → Pixel) (x : Int) (outputY scale : Nat) :
    Nat → Nat → (Nat → Pixel) → Nat → Pixel
  | 0, _, pixels => pixels
  | fuel + 1, column, pixels =>
    if column < fontGlyphWidth then
      let run := glyphRun color column fontGlyphWidth 1
      drawGlyphColumns fb color x outputY scale fuel (column + run)
        (drawGlyphRun fb x outputY scale column run (color column) pixels)
    else pixels

/-- One output row of `font_draw_char`: row `row` of the glyph, repetition `sy` of it. -/
def drawGlyphRow (fb : Framebuffer) (x y : Int) (character : UInt8) (scale : Nat) (foreground background : Pixel)
    (pixels : Nat → Pixel) (row sy : Nat) : Nat → Pixel :=
  let outputY := y + (row * scale + sy : Nat)
  if outputY < 0 ∨ (fb.height : Int) ≤ outputY then pixels
  else
    drawGlyphColumns fb (fun column => if glyphBit character row column then foreground else background) x outputY.toNat scale
      fontGlyphWidth 0 pixels

/-- `font_draw_char`. -/
def fontDrawChar (fb : Framebuffer) (x y : Int) (character : UInt8) (scale : Nat) (foreground background : Pixel)
    (pixels : Nat → Pixel) : Nat → Pixel :=
  (List.range fontGlyphHeight).foldl (fun pixels row =>
    (List.range scale).foldl (fun pixels sy => drawGlyphRow fb x y character scale foreground background pixels row sy) pixels)
    pixels

end TabOS
