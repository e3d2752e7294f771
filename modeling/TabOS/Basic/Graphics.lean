import TabOS.Basic.C64

/-!
# The graphics statements of TabBASIC

`basic_graphics.c`: the canvas, the sixteen sprites, `present` and the statements. The canvas of `tabos_graphics_open` has 320 by 200
pixels of its own, and `tabos_graphics_present` hands them to the runtime, which only reads them. What LINE, RECT, CIRCLE and GTEXT draw,
and whether the display opens and presents, is the environment of a statement. `presented` is a history variable: what was presented, the
latest first.
-/

namespace TabOS
namespace BasicGraphics

def width : Nat := 320
def height : Nat := 200
def sprites : Nat := 16
def side : Nat := 16
def transparent : Pixel := 0x0821

abbrev Pixels := Nat → Pixel

def paletteColors : List Pixel :=
  [C64.rgb565 0 0 0, C64.rgb565 255 255 255, C64.rgb565 220 60 60, C64.rgb565 60 220 220, C64.rgb565 180 70 210, C64.rgb565 70 190 80,
    C64.rgb565 60 90 220, C64.rgb565 240 220 70, C64.rgb565 240 140 50, C64.rgb565 140 85 45, C64.rgb565 250 150 150,
    C64.rgb565 65 65 65, C64.rgb565 120 120 120, C64.rgb565 160 240 160, C64.rgb565 150 180 255, C64.rgb565 195 195 195]

def palette (ink : Nat) : Pixel := paletteColors.getD ink 0

/-- `sprite_t`. -/
structure Sprite where
  image : Nat → Pixel
  underneath : Nat → Pixel
  x : Int
  y : Int
  width : Nat
  height : Nat
  visible : Bool

def Sprite.zero : Sprite := ⟨fun _ => 0, fun _ => 0, 0, 0, 0, 0, false⟩

/-- The pixels of the canvas when it is open. -/
structure State where
  canvas : Option Pixels
  ink : Nat
  sprites : Nat → Sprite
  presented : List Pixels

def State.initial : State := ⟨none, 1, fun _ => Sprite.zero, []⟩

/-! ## The sprites on the canvas -/

/-- `tabos_graphics_pixel`. -/
def pixel (pixels : Pixels) (x y : Int) (color : Pixel) : Pixels := (Sdk.fillRect ⟨pixels, width, height⟩ x y 1 1 color).pixels

/-- A round of the loops that save what a sprite covers and draw it; the state is its `underneath` and the canvas. -/
def drawCell (sprite : Sprite) (state : (Nat → Pixel) × Pixels) (y x : Nat) : (Nat → Pixel) × Pixels :=
  let dx := sprite.x + x
  let dy := sprite.y + y
  let offset := y * side + x
  if dx ≥ 0 ∧ dx < width ∧ dy ≥ 0 ∧ dy < height then
    let underneath := Function.update state.1 offset (state.2 (dy.toNat * width + dx.toNat))
    if sprite.image offset ≠ transparent then (underneath, pixel state.2 dx dy (sprite.image offset)) else (underneath, state.2)
  else state

def drawSprite (sprite : Sprite) (pixels : Pixels) : Sprite × Pixels :=
  let drawn := (List.range sprite.height).foldl
    (fun state y => (List.range sprite.width).foldl (fun state x => drawCell sprite state y x) state) (sprite.underneath, pixels)
  ({ sprite with underneath := drawn.1 }, drawn.2)

/-- The loop that draws the visible ones of the first sprites. -/
def drawSprites (count : Nat) (state : (Nat → Sprite) × Pixels) : (Nat → Sprite) × Pixels :=
  (List.range count).foldl (fun state id =>
    if (state.1 id).visible = true then
      let drawn := drawSprite (state.1 id) state.2
      (Function.update state.1 id drawn.1, drawn.2)
    else state) state

/-- A round of the loops that write back what a sprite covers. -/
def restoreCell (sprite : Sprite) (pixels : Pixels) (y x : Nat) : Pixels :=
  let dx := sprite.x + x
  let dy := sprite.y + y
  if dx ≥ 0 ∧ dx < width ∧ dy ≥ 0 ∧ dy < height then pixel pixels dx dy (sprite.underneath (y * side + x)) else pixels

def restoreSprite (sprite : Sprite) (pixels : Pixels) : Pixels :=
  (List.range sprite.height).foldl
    (fun pixels y => (List.range sprite.width).foldl (fun pixels x => restoreCell sprite pixels y x) pixels) pixels

/-- The loop that goes through the first sprites from the last to the first. -/
def restoreSprites (count : Nat) (sprites : Nat → Sprite) (pixels : Pixels) : Pixels :=
  (List.range count).reverse.foldl
    (fun pixels id => if (sprites id).visible = true then restoreSprite (sprites id) pixels else pixels) pixels

/-- `present`, with what `tabos_graphics_present` returns. -/
def present (presents : Int) (s : State) : State × Int :=
  match s.canvas with
  | none => (s, -1)
  | some pixels =>
    let drawn := drawSprites sprites (s.sprites, pixels)
    ({ s with
        sprites := drawn.1, canvas := some (restoreSprites sprites drawn.1 drawn.2), presented := drawn.2 :: s.presented }, presents)

/-! ## The statements -/

/-- The tokens from `BASIC_GRAPHICS` to `BASIC_KEY`. -/
inductive Token where
  | graphics | text | cls | color | pset | line | rect | circle | present | sprite | spriteRow | spritePos | spriteShow | spriteHide
  | sleep | sound | gtext | key
  deriving DecidableEq

/-- `minimum` and `maximum`. -/
def Token.counts : Token → Nat × Nat
  | .graphics | .text | .present | .key => (0, 0)
  | .cls => (0, 1)
  | .color | .spriteShow | .spriteHide | .sleep => (1, 1)
  | .pset | .sound => (2, 2)
  | .line => (4, 4)
  | .rect => (4, 5)
  | .circle => (3, 4)
  | .sprite | .spriteRow | .spritePos | .gtext => (3, 3)

/-- A number of a statement: `basic_extension_resume` refuses what does not fit into 16 bits. -/
abbrev Number := { n : Int // -32768 ≤ n ∧ n ≤ 32767 }

/-- A statement with its arguments. -/
structure Statement where
  token : Token
  numbers : Fin 5 → Number
  count : Nat
  text : List UInt8

/-- What happens in a statement: whether the display opens and what presenting returns, what a drawing function of the SDK draws and
returns, and what `basic_sound_play` returns. -/
structure Environment where
  opens : Bool
  presents : Int
  draws : Pixels → Pixels
  drawn : Int
  sound : Nat

/-- `basic_graphics_close`. -/
def close (s : State) : State := { s with canvas := none, sprites := fun _ => Sprite.zero }

/-- The error for the result of a function of the SDK. -/
def errorOf (result : Int) : Nat := if result = 0 then 0 else 14

/-- A character of SPRITEROW. -/
def rowColor (c : UInt8) : Option Pixel :=
  if c = 46 then some transparent
  else if 48 ≤ c ∧ c ≤ 57 then some (palette (c.toNat - 48))
  else if 65 ≤ c ∧ c ≤ 70 then some (palette (c.toNat - 65 + 10))
  else if 97 ≤ c ∧ c ≤ 102 then some (palette (c.toNat - 97 + 10))
  else none

/-- The copy of a row into the image. -/
def copyRow (image : Nat → Pixel) (row : Nat) (colors : List Pixel) : Nat → Pixel := fun i =>
  if row * side ≤ i ∧ i < row * side + colors.length then colors.getD (i - row * side) 0 else image i

/-- The statements about a sprite. -/
def spriteStatement (statement : Statement) (s : State) : State × Nat :=
  let a := fun i => (statement.numbers i).val
  if a 0 < 0 ∨ a 0 ≥ sprites then (s, 14)
  else
    let id := (a 0).toNat
    let sprite := s.sprites id
    if statement.token = .sprite then
      if a 1 < 1 ∨ a 1 > side ∨ a 2 < 1 ∨ a 2 > side then (s, 14)
      else
        let image := fun i => if i < side * side then transparent else 0
        let sprite := { Sprite.zero with image := image, width := (a 1).toNat, height := (a 2).toNat }
        ({ s with sprites := Function.update s.sprites id sprite }, 0)
    else if sprite.width = 0 then (s, 14)
    else if statement.token = .spritePos then
      ({ s with sprites := Function.update s.sprites id { sprite with x := a 1, y := a 2 } }, 0)
    else if statement.token = .spriteRow then
      if a 1 < 0 ∨ (a 1).toNat ≥ sprite.height ∨ statement.text.length ≠ sprite.width then (s, 14)
      else
        match statement.text.mapM rowColor with
        | none => (s, 14)
        | some colors =>
          ({ s with sprites := Function.update s.sprites id { sprite with image := copyRow sprite.image (a 1).toNat colors } }, 0)
    else ({ s with sprites := Function.update s.sprites id { sprite with visible := decide (statement.token = .spriteShow) } }, 0)

/-- The statements that need the canvas. -/
def canvasStatement (e : Environment) (statement : Statement) (pixels : Pixels) (s : State) : State × Nat :=
  let a := fun i => (statement.numbers i).val
  let far := fun i => a i < -1024 ∨ a i > 1024
  match statement.token with
  | .cls =>
    if statement.count ≠ 0 ∧ (a 0 < 0 ∨ a 0 > 15) then (s, 14)
    else ({ s with canvas := some (C64.clear (palette (if statement.count = 0 then 0 else (a 0).toNat)) pixels) }, 0)
  | .pset =>
    if far 0 ∨ far 1 then (s, 14) else ({ s with canvas := some (pixel pixels (a 0) (a 1) (palette s.ink)) }, 0)
  | .line =>
    if far 0 ∨ far 1 ∨ far 2 ∨ far 3 then (s, 14) else ({ s with canvas := some (e.draws pixels) }, errorOf e.drawn)
  | .rect =>
    if far 0 ∨ far 1 ∨ a 2 < 0 ∨ a 3 < 0 ∨ a 2 > 1024 ∨ a 3 > 1024 ∨ (statement.count = 5 ∧ a 4 ≠ 0 ∧ a 4 ≠ 1) then (s, 14)
    else ({ s with canvas := some (e.draws pixels) }, errorOf e.drawn)
  | .circle =>
    if far 0 ∨ far 1 ∨ a 2 < 0 ∨ a 2 > 512 ∨ (statement.count = 4 ∧ a 3 ≠ 0 ∧ a 3 ≠ 1) then (s, 14)
    else ({ s with canvas := some (e.draws pixels) }, 0)
  | .gtext => if far 0 ∨ far 1 then (s, 14) else ({ s with canvas := some (e.draws pixels) }, 0)
  | .present =>
    let presented := present e.presents s
    (presented.1, errorOf presented.2)
  | .sprite | .spriteRow | .spritePos | .spriteShow | .spriteHide => spriteStatement statement s
  | _ => (s, 11)

/-- GRAPHICS. -/
def graphicsStatement (e : Environment) (s : State) : State × Nat :=
  match s.canvas with
  | none =>
    if e.opens = true then
      let presented := present e.presents
        { s with canvas := some (C64.clear (palette 0) fun _ => 0), ink := 1, sprites := fun _ => Sprite.zero }
      (presented.1, errorOf presented.2)
    else (close s, 14)
  | some _ =>
    let presented := present e.presents s
    (presented.1, errorOf presented.2)

/-- `basic_graphics_command`: the state and the error. -/
def command (e : Environment) (statement : Statement) (s : State) : State × Nat :=
  if statement.token = .key ∨ statement.count < statement.token.counts.1 ∨ statement.count > statement.token.counts.2 then (s, 11)
  else
    match statement.token with
    | .graphics => graphicsStatement e s
    | .text => (close s, 0)
    | .sleep => if (statement.numbers 0).val < 0 ∨ (statement.numbers 0).val > 5000 then (s, 14) else (s, 0)
    | .sound => (s, e.sound)
    | .color =>
      if (statement.numbers 0).val < 0 ∨ (statement.numbers 0).val > 15 then (s, 14)
      else ({ s with ink := (statement.numbers 0).val.toNat }, 0)
    | _ =>
      match s.canvas with
      | none => (s, 14)
      | some pixels => canvasStatement e statement pixels s

/-- What happens to the graphics: a statement, or their end with the program or the virtual C64. -/
inductive Operation where
  | command (e : Environment) (statement : Statement)
  | close

def step (s : State) : Operation → State
  | .command e statement => (command e statement s).1
  | .close => close s

def run (operations : List Operation) : State := operations.foldl step State.initial

end BasicGraphics
end TabOS
