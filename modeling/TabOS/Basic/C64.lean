import Mathlib.Algebra.Group.Nat.Defs
import TabOS.Library.Yield
import TabOS.Raster.Canvas

/-!
# The virtual C64 of TabBASIC

`basic_c64.c`: the bank, the colour memory and the registers, the damage that writes leave, and the rendering of the picture, which
yields to the runtime and may be stopped there. `fill_rect` of the SDK is here too. The profile counts what happens and nothing reads it
but its report, so it is left out, as are the messages about what is not supported. What the runtime, the clock and the display do in a
call is its environment. `presented` is a history variable: what was presented, with the memory at that time, the latest first.
-/

namespace TabOS

open Library

/-- `tabos_graphics_fill_rect` on a scaled canvas. -/
def Sdk.fillRect (graphics : Canvas) (x y : Int) (width height : Nat) (color : Pixel) : Canvas :=
  let right := x + width
  let bottom := y + height
  let left := if x < 0 then 0 else x
  let top := if y < 0 then 0 else y
  let clippedRight := if right > graphics.width then (graphics.width : Int) else right
  let clippedBottom := if bottom > graphics.height then (graphics.height : Int) else bottom
  if left ≥ clippedRight ∨ top ≥ clippedBottom then graphics
  else
    { graphics with
      pixels := (List.range' top.toNat (clippedBottom - top).toNat).foldl
        (fun pixels row => rasterFillSpan pixels (row * graphics.width + left.toNat) (clippedRight - left).toNat color) graphics.pixels }

namespace C64

def bankBytes : Nat := 16384
def colorBytes : Nat := 1000
def screenStart : Nat := 0x0400
def screenEnd : Nat := 0x07e7
def pointerStart : Nat := 0x07f8
def pointerEnd : Nat := 0x07ff
def colorStart : Nat := 0xd800
def colorEnd : Nat := 0xdbe7
def c64Width : Nat := 320
def c64Height : Nat := 200
def screenX : Nat := 20
def screenY : Nat := 12
def cellWidth : Nat := 7
def cellHeight : Nat := 7
def sprites : Nat := 8
def refreshMs : UInt64 := 16
def writeBatch : Nat := 128
def localBatch : Nat := 8
def spriteBatch : Nat := 4

/-- `TABOS_RGB565`. -/
def rgb565 (red green blue : Nat) : Pixel := UInt16.ofNat ((red &&& 0xf8) <<< 8 ||| (green &&& 0xfc) <<< 3 ||| blue >>> 3)

def paletteColors : List Pixel :=
  [rgb565 0 0 0, rgb565 255 255 255, rgb565 136 0 0, rgb565 170 255 238, rgb565 204 68 204, rgb565 0 204 85, rgb565 0 0 170,
    rgb565 238 238 119, rgb565 221 136 85, rgb565 102 68 0, rgb565 255 119 119, rgb565 51 51 51, rgb565 119 119 119,
    rgb565 170 255 102, rgb565 0 136 255, rgb565 187 187 187]

/-- `palette` at the low four bits of a value. -/
def palette (value : UInt8) : Pixel := paletteColors.getD (value.toNat % 16) 0

def glyphs : List (List Nat) :=
  [[14, 17, 19, 21, 25, 17, 14], [4, 12, 4, 4, 4, 4, 14], [14, 17, 1, 2, 4, 8, 31], [30, 1, 1, 14, 1, 1, 30],
    [2, 6, 10, 18, 31, 2, 2], [31, 16, 16, 30, 1, 1, 30], [14, 16, 16, 30, 17, 17, 14], [31, 1, 2, 4, 8, 8, 8],
    [14, 17, 17, 14, 17, 17, 14], [14, 17, 17, 15, 1, 1, 14], [14, 17, 17, 31, 17, 17, 17], [30, 17, 17, 30, 17, 17, 30],
    [14, 17, 16, 16, 16, 17, 14], [30, 17, 17, 17, 17, 17, 30], [31, 16, 16, 30, 16, 16, 31], [31, 16, 16, 30, 16, 16, 16],
    [14, 17, 16, 23, 17, 17, 15], [17, 17, 17, 31, 17, 17, 17], [14, 4, 4, 4, 4, 4, 14], [7, 2, 2, 2, 18, 18, 12],
    [17, 18, 20, 24, 20, 18, 17], [16, 16, 16, 16, 16, 16, 31], [17, 27, 21, 21, 17, 17, 17], [17, 25, 21, 19, 17, 17, 17],
    [14, 17, 17, 17, 17, 17, 14], [30, 17, 17, 30, 16, 16, 16], [14, 17, 17, 17, 21, 18, 13], [30, 17, 17, 30, 20, 18, 17],
    [15, 16, 16, 14, 1, 1, 30], [31, 4, 4, 4, 4, 4, 4], [17, 17, 17, 17, 17, 17, 14], [17, 17, 17, 17, 17, 10, 4],
    [17, 17, 17, 21, 21, 21, 10], [17, 17, 10, 4, 10, 17, 17], [17, 17, 10, 4, 4, 4, 4], [31, 1, 2, 4, 8, 16, 31],
    [0, 4, 4, 0, 4, 4, 0], [0, 0, 0, 31, 0, 0, 0], [14, 17, 1, 2, 4, 0, 4]]

/-! ## The memory -/

/-- The bank, the colour memory and the registers. -/
structure Memory where
  bank : Nat → UInt8
  color : Nat → UInt8
  spriteX : Nat → UInt8
  spriteY : Nat → UInt8
  spriteXMsb : UInt8
  spriteEnable : UInt8
  spriteYExpand : UInt8
  spriteMulticolor : UInt8
  spriteXExpand : UInt8
  border : UInt8
  background : UInt8
  multicolor0 : UInt8
  multicolor1 : UInt8
  spriteColor : Nat → UInt8

/-- The bit of a sprite in a register. -/
def bit (register : UInt8) (sprite : Nat) : Bool := register.toNat.testBit sprite

def registerRead (m : Memory) (address : Nat) : Option UInt8 :=
  if 0xd000 ≤ address ∧ address ≤ 0xd00f then
    let sprite := (address - 0xd000) / 2
    some (if address % 2 = 0 then m.spriteX sprite else m.spriteY sprite)
  else if address = 0xd010 then some m.spriteXMsb
  else if address = 0xd015 then some m.spriteEnable
  else if address = 0xd017 then some m.spriteYExpand
  else if address = 0xd01c then some m.spriteMulticolor
  else if address = 0xd01d then some m.spriteXExpand
  else if address = 0xd020 then some m.border
  else if address = 0xd021 then some m.background
  else if address = 0xd025 then some m.multicolor0
  else if address = 0xd026 then some m.multicolor1
  else if 0xd027 ≤ address ∧ address ≤ 0xd02e then some (m.spriteColor (address - 0xd027))
  else none

def registerWrite (m : Memory) (address : Nat) (value : UInt8) : Memory :=
  if 0xd000 ≤ address ∧ address ≤ 0xd00f then
    let sprite := (address - 0xd000) / 2
    if address % 2 = 0 then { m with spriteX := Function.update m.spriteX sprite value }
    else { m with spriteY := Function.update m.spriteY sprite value }
  else if address = 0xd010 then { m with spriteXMsb := value }
  else if address = 0xd015 then { m with spriteEnable := value }
  else if address = 0xd017 then { m with spriteYExpand := value }
  else if address = 0xd01c then { m with spriteMulticolor := value }
  else if address = 0xd01d then { m with spriteXExpand := value }
  else if address = 0xd020 then { m with border := value &&& 15 }
  else if address = 0xd021 then { m with background := value &&& 15 }
  else if address = 0xd025 then { m with multicolor0 := value &&& 15 }
  else if address = 0xd026 then { m with multicolor1 := value &&& 15 }
  else if 0xd027 ≤ address ∧ address ≤ 0xd02e then
    { m with spriteColor := Function.update m.spriteColor (address - 0xd027) (value &&& 15) }
  else m

/-! ## The damage -/

/-- What is to be drawn again: `dirty_cells` with one bit for each cell, one box around the sprites, the border, the background, or
all. -/
structure Damage where
  dirtyWrites : Nat
  dirtyCells : Nat → Bool
  dirtyCellCount : Nat
  spriteDirtyX0 : Int
  spriteDirtyY0 : Int
  spriteDirtyX1 : Int
  spriteDirtyY1 : Int
  dirty : Bool
  fullDirty : Bool
  backgroundDirty : Bool
  borderDirty : Bool
  spriteDirty : Bool

def markCell (d : Damage) (cell : Nat) : Damage :=
  if d.dirtyCells cell = true then { d with dirty := true }
  else { d with dirtyCells := Function.update d.dirtyCells cell true, dirtyCellCount := d.dirtyCellCount + 1, dirty := true }

/-- The end of `mark_sprite`: the box is spread over a sprite that lies on the canvas. -/
def markBox (d : Damage) (x0 y0 x1 y1 : Int) : Bool × Damage :=
  if x0 ≥ x1 ∨ y0 ≥ y1 then (false, d)
  else if d.spriteDirty = false then
    (true, { d with
      spriteDirtyX0 := x0, spriteDirtyY0 := y0, spriteDirtyX1 := x1, spriteDirtyY1 := y1, spriteDirty := true, dirty := true })
  else
    (true, { d with
      spriteDirtyX0 := if x0 < d.spriteDirtyX0 then x0 else d.spriteDirtyX0
      spriteDirtyY0 := if y0 < d.spriteDirtyY0 then y0 else d.spriteDirtyY0
      spriteDirtyX1 := if x1 > d.spriteDirtyX1 then x1 else d.spriteDirtyX1
      spriteDirtyY1 := if y1 > d.spriteDirtyY1 then y1 else d.spriteDirtyY1
      spriteDirty := true
      dirty := true })

def markSprite (m : Memory) (d : Damage) (sprite : Nat) : Bool × Damage :=
  if bit m.spriteEnable sprite = false then (false, d)
  else
    let x : Int := (m.spriteX sprite).toNat + if bit m.spriteXMsb sprite = true then 256 else 0
    let y : Int := (m.spriteY sprite).toNat
    let width : Int := if bit m.spriteXExpand sprite = true then 48 else 24
    let height : Int := if bit m.spriteYExpand sprite = true then 42 else 21
    markBox d (if x < 0 then 0 else x) (if y < 0 then 0 else y) (if x + width > c64Width then c64Width else x + width)
      (if y + height > c64Height then c64Height else y + height)

/-- Some of the sprites are marked, one after another. -/
def markSprites (m : Memory) (condition : Nat → Bool) (marked : Bool) (d : Damage) : Bool × Damage :=
  (List.range sprites).foldl
    (fun (marked, d) sprite =>
      if condition sprite = true then
        let (visible, d) := markSprite m d sprite
        (visible || marked, d)
      else (marked, d)) (marked, d)

def markAllSprites (m : Memory) (d : Damage) : Bool × Damage := markSprites m (fun _ => true) false d

def markBankEffect (m : Memory) (d : Damage) (address : Nat) : Bool × Damage :=
  let (marked, d) := if screenStart ≤ address ∧ address ≤ screenEnd then (true, markCell d (address - screenStart)) else (false, d)
  let (marked, d) :=
    if pointerStart ≤ address ∧ address ≤ pointerEnd then
      let (visible, d) := markSprite m d (address - pointerStart)
      (visible || marked, d)
    else (marked, d)
  markSprites m
    (fun sprite =>
      let base := (m.bank (pointerStart + sprite)).toNat * 64
      decide (base ≤ address) && decide (address < base + 63))
    marked d

def markRegisterEffect (m : Memory) (d : Damage) (address : Nat) : Bool × Damage :=
  if 0xd000 ≤ address ∧ address ≤ 0xd00f then markSprite m d ((address - 0xd000) / 2)
  else if address = 0xd020 then (true, { d with borderDirty := true, dirty := true })
  else if address = 0xd021 then (true, { d with backgroundDirty := true, dirty := true })
  else if 0xd027 ≤ address ∧ address ≤ 0xd02e then markSprite m d (address - 0xd027)
  else if address = 0xd010 ∨ address = 0xd015 ∨ address = 0xd017 ∨ address = 0xd01c ∨ address = 0xd01d ∨ address = 0xd025 ∨
      address = 0xd026 then markAllSprites m d
  else (false, d)

def clearDirty (d : Damage) : Damage :=
  { d with
    dirtyWrites := 0, dirtyCells := fun _ => false, dirtyCellCount := 0, dirty := false, fullDirty := false, backgroundDirty := false
    borderDirty := false, spriteDirty := false }

/-! ## Drawing -/

/-- The pixels of the canvas, row by row. -/
abbrev Pixels := Nat → Pixel

def fillRect (pixels : Pixels) (x y : Int) (width height : Nat) (color : Pixel) : Pixels :=
  (Sdk.fillRect ⟨pixels, c64Width, c64Height⟩ x y width height color).pixels

/-- `tabos_graphics_clear`. -/
def clear (color : Pixel) (pixels : Pixels) : Pixels := fun address => if address < c64Width * c64Height then color else pixels address

def glyphFor (screenCode : UInt8) : Nat :=
  let code := screenCode.toNat % 64
  if 1 ≤ code ∧ code ≤ 26 then 9 + code
  else if 48 ≤ code ∧ code ≤ 57 then code - 48
  else if code = 27 then 36
  else if code = 29 then 37
  else 38

def drawCharacter (m : Memory) (cell : Nat) (pixels : Pixels) : Pixels :=
  let screenCode := m.bank (screenStart + cell)
  let reverse := screenCode.toNat.testBit 7
  let x : Int := screenX + cell % 40 * cellWidth
  let y : Int := screenY + cell / 40 * cellHeight
  let paper := if reverse then palette (m.color cell) else palette m.background
  let ink := if reverse then palette m.background else palette (m.color cell)
  let pixels := fillRect pixels x y cellWidth cellHeight paper
  if screenCode.toNat % 128 = 32 then pixels
  else
    let glyph := glyphs.getD (glyphFor screenCode) []
    (List.range 7).foldl
      (fun pixels row =>
        (List.range 5).foldl
          (fun pixels column =>
            if (glyph.getD row 0).testBit (4 - column) = true then fillRect pixels (x + 1 + column) (y + row) 1 1 ink else pixels)
          pixels)
      pixels

def drawCharacters (yields : Nat → Bool) (m : Memory) (w : Work Pixels) : Work Pixels :=
  (List.range colorBytes).foldl
    (fun w cell => (if cell % 200 = 0 then w.ask yields else w).act (drawCharacter m cell)) w

def drawDirtyCharacters (yields : Nat → Bool) (m : Memory) (d : Damage) (w : Work Pixels) : Work Pixels :=
  ((List.range colorBytes).foldl (fun w cell => if d.dirtyCells cell = true then w.act (drawCharacter m cell) else w) w).ask yields

/-- The values of a loop from `first` to `last` that are not negative and stay below a limit. -/
def loopValues (first last : Int) (limit : Nat) : List Nat := (List.range limit).filter fun (i : Nat) => first ≤ i ∧ i ≤ last

def drawCharactersInSpriteRegion (yields : Nat → Bool) (m : Memory) (d : Damage) (w : Work Pixels) : Work Pixels :=
  if d.spriteDirty = false then w
  else
    let firstColumn := if d.spriteDirtyX0 ≤ screenX then 0 else (d.spriteDirtyX0 - screenX).tdiv cellWidth
    let lastColumn := if d.spriteDirtyX1 ≤ screenX then -1 else (d.spriteDirtyX1 - 1 - screenX).tdiv cellWidth
    let firstRow := if d.spriteDirtyY0 ≤ screenY then 0 else (d.spriteDirtyY0 - screenY).tdiv cellHeight
    let lastRow := if d.spriteDirtyY1 ≤ screenY then -1 else (d.spriteDirtyY1 - 1 - screenY).tdiv cellHeight
    ((loopValues firstRow lastRow 25).foldl
      (fun w row =>
        (loopValues firstColumn lastColumn 40).foldl (fun w column => w.act (drawCharacter m (row * 40 + column))) w) w).ask yields

/-- What `draw_sprites` reads of a sprite before it draws it. -/
structure Shape where
  originX : Int
  originY : Int
  scaleX : Nat
  scaleY : Nat
  multicolor : Bool
  bits : Nat → Nat

def shapeOf (m : Memory) (sprite : Nat) : Shape :=
  let base := (m.bank (pointerStart + sprite)).toNat * 64
  { originX := (m.spriteX sprite).toNat + if bit m.spriteXMsb sprite = true then 256 else 0
    originY := (m.spriteY sprite).toNat
    scaleX := if bit m.spriteXExpand sprite = true then 2 else 1
    scaleY := if bit m.spriteYExpand sprite = true then 2 else 1
    multicolor := bit m.spriteMulticolor sprite
    bits := fun row =>
      (m.bank (base + row * 3)).toNat * 65536 + (m.bank (base + row * 3 + 1)).toNat * 256 + (m.bank (base + row * 3 + 2)).toNat }

/-- The value of a pair of bits of a row. -/
def Shape.pair (shape : Shape) (row pair : Nat) : Nat := shape.bits row / 2 ^ (22 - pair * 2) % 4

def drawSprite (m : Memory) (sprite : Nat) (pixels : Pixels) : Pixels :=
  let shape := shapeOf m sprite
  (List.range 21).foldl
    (fun pixels row =>
      if shape.multicolor = true then
        (List.range 12).foldl
          (fun pixels pair =>
            let value := shape.pair row pair
            if value ≠ 0 then
              let color := if value = 1 then m.multicolor0 else if value = 3 then m.multicolor1 else m.spriteColor sprite
              fillRect pixels (shape.originX + (pair * 2 * shape.scaleX : Nat)) (shape.originY + (row * shape.scaleY : Nat))
                (2 * shape.scaleX) shape.scaleY (palette color)
            else pixels)
          pixels
      else
        (List.range 24).foldl
          (fun pixels column =>
            if (shape.bits row).testBit (23 - column) = true then
              fillRect pixels (shape.originX + (column * shape.scaleX : Nat)) (shape.originY + (row * shape.scaleY : Nat)) shape.scaleX
                shape.scaleY (palette (m.spriteColor sprite))
            else pixels)
          pixels)
    pixels

def drawSprites (yields : Nat → Bool) (m : Memory) (w : Work Pixels) : Work Pixels :=
  (List.range sprites).reverse.foldl
    (fun w sprite => if bit m.spriteEnable sprite = false then w else (w.ask yields).act (drawSprite m sprite)) w

def drawBorder (m : Memory) (pixels : Pixels) : Pixels :=
  let color := palette m.border
  let pixels := fillRect pixels 0 0 c64Width screenY color
  let pixels := fillRect pixels 0 (screenY + 25 * cellHeight : Nat) c64Width (c64Height - screenY - 25 * cellHeight) color
  let pixels := fillRect pixels 0 screenY screenX (25 * cellHeight) color
  fillRect pixels (screenX + 40 * cellWidth : Nat) screenY (c64Width - screenX - 40 * cellWidth) (25 * cellHeight) color

/-- What `render` draws. -/
def drawPicture (yields : Nat → Bool) (m : Memory) (d : Damage) (w : Work Pixels) : Work Pixels :=
  let w :=
    if d.fullDirty = true then drawCharacters yields m (w.act (clear (palette m.border)))
    else
      let w :=
        if d.spriteDirty = true then
          drawCharactersInSpriteRegion yields m d (w.act fun pixels =>
            fillRect pixels d.spriteDirtyX0 d.spriteDirtyY0 (d.spriteDirtyX1 - d.spriteDirtyX0).toNat
              (d.spriteDirtyY1 - d.spriteDirtyY0).toNat (palette m.border))
        else w
      let w := if d.borderDirty = true then w.act (drawBorder m) else w
      if d.backgroundDirty = true then drawCharacters yields m w else drawDirtyCharacters yields m d w
  drawSprites yields m w

/-! ## The calls -/

/-- The pixels of the canvas when it is open. -/
structure State where
  memory : Memory
  damage : Damage
  lastPresent : UInt64
  canvas : Option Pixels
  presented : List (Memory × Pixels)

/-- What happens in a call: whether the canvas opens, the answers of `basic_runtime_sleep`, whether the picture is presented, the clock
before and after, and what `basic_sid_write` returns. -/
structure Environment where
  opens : Bool
  yields : Nat → Bool
  presents : Bool
  now : UInt64
  presentedAt : UInt64
  sidWrites : Bool

/-- `open_canvas`; a new canvas is black. -/
def openCanvas (e : Environment) (s : State) : Option (Pixels × State) :=
  match s.canvas with
  | some pixels => some (pixels, s)
  | none =>
    if e.opens = true then
      some (fun _ => 0, { s with canvas := some fun _ => 0, damage := { s.damage with fullDirty := true, dirty := true } })
    else none

def render (e : Environment) (s : State) : Bool × State :=
  match openCanvas e s with
  | none => (false, s)
  | some (pixels, s) =>
    let w := drawPicture e.yields s.memory s.damage (Work.start pixels)
    let s := { s with canvas := some w.value }
    if w.stopped = true then (false, s)
    else if e.presents = true then (true, { s with presented := (s.memory, w.value) :: s.presented })
    else (false, s)

def service (e : Environment) (force : Bool) (s : State) : State :=
  if s.damage.dirty = false then s
  else
    let localCells := s.damage.dirtyCellCount = 1
    let batchReady := s.damage.dirtyWrites ≥ writeBatch ∨ (s.damage.spriteDirty = true ∧ s.damage.dirtyWrites ≥ spriteBatch) ∨
      (localCells ∧ s.damage.dirtyWrites ≥ localBatch)
    if force = false ∧ ¬batchReady ∧ e.now - s.lastPresent < refreshMs then s
    else
      match render e s with
      | (true, s) => { s with lastPresent := e.presentedAt, damage := clearDirty s.damage }
      | (false, s) => s

/-- What a write that is accepted changes and marks, and whether it marks anything. -/
def writeEffect (m : Memory) (d : Damage) (address : Nat) (value : UInt8) : Bool × Memory × Damage :=
  if address < bankBytes then
    let (before, d) := markBankEffect m d address
    let m := { m with bank := Function.update m.bank address value }
    let (after, d) := markBankEffect m d address
    (before || after, m, d)
  else if colorStart ≤ address ∧ address ≤ colorEnd then
    (true, { m with color := Function.update m.color (address - colorStart) (value &&& 15) }, markCell d (address - colorStart))
  else
    let (before, d) := markRegisterEffect m d address
    let m := registerWrite m address value
    let (after, d) := markRegisterEffect m d address
    (before || after, m, d)

def write (e : Environment) (address : UInt16) (value : UInt8) (s : State) : Bool × State :=
  if 0xd400 ≤ address.toNat ∧ address.toNat ≤ 0xd418 then (e.sidWrites, s)
  else if bankBytes ≤ address.toNat ∧ (address.toNat < colorStart ∨ address.toNat > colorEnd) ∧
      (registerRead s.memory address.toNat).isNone = true then (false, s)
  else
    let opened := s.canvas.isNone
    match openCanvas e s with
    | none => (false, s)
    | some (_, s) =>
      let (visible, m, d) := writeEffect s.memory s.damage address.toNat value
      let writes := if (opened || visible) = true ∧ d.dirtyWrites ≠ 0xffffffff then d.dirtyWrites + 1 else d.dirtyWrites
      (true, service e false { s with memory := m, damage := { d with dirtyWrites := writes } })

/-- The state after `basic_c64_reset`. -/
def State.reset : State where
  memory :=
    { bank := fun address => if screenStart ≤ address ∧ address < screenStart + colorBytes then 32 else 0
      color := fun _ => 14
      spriteX := fun _ => 0
      spriteY := fun _ => 0
      spriteXMsb := 0
      spriteEnable := 0
      spriteYExpand := 0
      spriteMulticolor := 0
      spriteXExpand := 0
      border := 14
      background := 6
      multicolor0 := 0
      multicolor1 := 0
      spriteColor := fun _ => 1 }
  damage :=
    { dirtyWrites := 0
      dirtyCells := fun _ => false
      dirtyCellCount := 0
      spriteDirtyX0 := 0
      spriteDirtyY0 := 0
      spriteDirtyX1 := 0
      spriteDirtyY1 := 0
      dirty := false
      fullDirty := false
      backgroundDirty := false
      borderDirty := false
      spriteDirty := false }
  lastPresent := 0
  canvas := none
  presented := []

/-- A call and its environment. -/
inductive Call where
  | write (e : Environment) (address : UInt16) (value : UInt8)
  | service (e : Environment) (force : Bool)

def step (s : State) : Call → State
  | .write e address value => (write e address value s).2
  | .service e force => service e force s

/-- The picture that a full redraw leaves on a canvas when nothing stops it. -/
def fullRedraw (m : Memory) (d : Damage) (pixels : Pixels) : Pixels :=
  (drawPicture (fun _ => true) m { d with fullDirty := true } (Work.start pixels)).value

end C64
end TabOS
