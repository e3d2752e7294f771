import TabOS.Library.Program
import TabOS.Raster.Reference

/-!
# Drawing within bounds

`graphics/raster.c` on a memory whose accesses are checked, with the conversions between its integer types: a source index past the
bitmap or an address outside the picture goes wrong. The drawing never goes wrong, and it draws what the unchecked functions draw.
-/

namespace TabOS
namespace Raster

open Library Library.Program

/-- A conversion to `uint32_t`. -/
def u32 (value : Int) : Nat := (value % 4294967296).toNat

theorem u32_eq {value : Int} (hlow : 0 ≤ value) (hhigh : value < 4294967296) : u32 value = value.toNat := by
  rw [u32, Int.emod_eq_of_lt hlow hhigh]

/-- The fields of a rectangle have their types. -/
structure Fits (rect : GraphicsRect) : Prop where
  x_low : -2147483648 ≤ rect.x
  x_high : rect.x < 2147483648
  y_low : -2147483648 ≤ rect.y
  y_high : rect.y < 2147483648
  width : rect.width < 4294967296
  height : rect.height < 4294967296

/-- Options whose fields have their types. -/
structure BlitOptions extends GraphicsBlitOptions where
  bitmapWidth_fits : bitmapWidth < 4294967296
  bitmapHeight_fits : bitmapHeight < 4294967296
  source_fits : Fits source
  destination_fits : Fits destination
  opacity_fits : opacity ≤ 255

/-- The answers of `platform_raster_fill_span` and `platform_raster_copy_span`: the memory after them when they report success, and
then they have filled or copied the span. -/
structure Helpers where
  fill : (Nat → Pixel) → Nat → Nat → Pixel → Option (Nat → Pixel)
  copy : (Nat → Pixel) → Nat → (Nat → Pixel) → Nat → Nat → Option (Nat → Pixel)
  fill_span : ∀ {pixels destination count color pixels'}, fill pixels destination count color = some pixels' →
    pixels' = rasterFillSpan pixels destination count color
  copy_span : ∀ {pixels destination bitmap source count pixels'}, copy pixels destination bitmap source count = some pixels' →
    pixels' = rasterCopySpan pixels destination bitmap source count

/-- Helpers that never report success. -/
def Helpers.none : Helpers where
  fill := fun _ _ _ _ => Option.none
  copy := fun _ _ _ _ _ => Option.none
  fill_span := fun h => by cases h
  copy_span := fun h => by cases h

/-- The address of a pixel of the picture. -/
def InPicture (framebuffer : Framebuffer) (address : Nat) : Prop :=
  address % framebuffer.stridePixels < framebuffer.width ∧ address / framebuffer.stridePixels < framebuffer.height

instance (framebuffer : Framebuffer) (address : Nat) : Decidable (InPicture framebuffer address) := inferInstanceAs (Decidable (_ ∧ _))

/-- A program that draws on the pixels of a framebuffer. -/
abbrev Draw := Program Empty (Nat → Pixel)

/-! ## The accesses -/

def readBitmap (size : Nat) (bitmap : Nat → Pixel) (index : Nat) : Draw Pixel := if index < size then return bitmap index else goWrong

def readPixel (framebuffer : Framebuffer) (address : Nat) : Draw Pixel :=
  if InPicture framebuffer address then observe fun pixels => pixels address else goWrong

def writePixel (framebuffer : Framebuffer) (address : Nat) (color : Pixel) : Draw Unit :=
  if InPicture framebuffer address then modify fun pixels => Function.update pixels address color else goWrong

/-- `raster_fill_span`. -/
def fillSpan (helpers : Helpers) (framebuffer : Framebuffer) (destination count : Nat) (color : Pixel) : Draw Unit :=
  if count = 0 then return ()
  else if ∀ k < count, InPicture framebuffer (destination + k) then
    modify fun pixels => (helpers.fill pixels destination count color).getD (rasterFillSpan pixels destination count color)
  else goWrong

/-- `raster_copy_span` from a bitmap that does not overlap the framebuffer. -/
def copySpan (helpers : Helpers) (framebuffer : Framebuffer) (destination size : Nat) (bitmap : Nat → Pixel) (source count : Nat) :
    Draw Unit :=
  if count = 0 then return ()
  else if (∀ k < count, InPicture framebuffer (destination + k)) ∧ source + count ≤ size then
    modify fun pixels =>
      (helpers.copy pixels destination bitmap source count).getD (rasterCopySpan pixels destination bitmap source count)
  else goWrong

/-! ## Filling -/

/-- `raster_fill`. -/
def fill (helpers : Helpers) (framebuffer : Framebuffer) (rect : GraphicsRect) (color : Pixel) : Draw Unit :=
  if rect.width = 0 ∨ rect.height = 0 then return ()
  else
    let right := rect.x + rect.width
    let bottom := rect.y + rect.height
    if right ≤ 0 ∨ bottom ≤ 0 then return ()
    else
      let left := if rect.x < 0 then 0 else rect.x.toNat
      let top := if rect.y < 0 then 0 else rect.y.toNat
      let clippedRight := if framebuffer.width < right.toNat then framebuffer.width else right.toNat
      let clippedBottom := if framebuffer.height < bottom.toNat then framebuffer.height else bottom.toNat
      if clippedRight ≤ left ∨ clippedBottom ≤ top then return ()
      else
        (List.range' top (clippedBottom - top)).foldlM
          (fun _ row => fillSpan helpers framebuffer (row * framebuffer.stridePixels + left) (clippedRight - left) color) ()

/-! ## Blits -/

section Blit

variable (helpers : Helpers) (framebuffer : Framebuffer) (options : BlitOptions) (size : Nat) (bitmap : Nat → Pixel)

/-- The loops of `raster_blit` over the columns whose source passes a test. -/
def scan (test : Pixel → Bool) (source count : Nat) : Nat → Nat → Draw Nat
  | 0, column => return column
  | fuel + 1, column =>
    if column < count then do
      let color ← readBitmap size bitmap (source + column)
      if test color = true then scan test source count fuel (column + 1) else return column
    else return column

/-- The loop of `raster_blit` that copies the runs that the colour key leaves. -/
def copyRuns (destination source count : Nat) : Nat → Nat → Draw Unit
  | 0, _ => goWrong
  | fuel + 1, column =>
    if column < count then do
      let start ← scan size bitmap (fun color => keyed color options.colorKeyLow options.colorKeyHigh) source count count column
      let stop ← scan size bitmap (fun color => !keyed color options.colorKeyLow options.colorKeyHigh) source count count start
      copySpan helpers framebuffer (destination + start) size bitmap (source + start) (stop - start)
      copyRuns destination source count fuel stop
    else return ()

/-- The columns of a row of the span path, from `outputX` on. -/
def copyColumns (row outputY outputX sourceX count : Nat) : Draw Unit :=
  if framebuffer.width ≤ outputX then return ()
  else
    let available := framebuffer.width - outputX
    let count := if available < count then u32 available else count
    let destination := outputY * framebuffer.stridePixels + outputX
    let source := (u32 options.source.y + row) * options.bitmapWidth + sourceX
    if options.colorKeyEnabled = false then copySpan helpers framebuffer destination size bitmap source count
    else copyRuns helpers framebuffer options size bitmap destination source count (count + 1) 0

/-- A row of the span path. -/
def copyRow (row : Nat) : Draw Unit :=
  let outputY := options.destination.y + row
  if outputY < 0 ∨ framebuffer.height ≤ outputY then return ()
  else if options.destination.x < 0 then
    let clipped := u32 (-options.destination.x)
    if options.destination.width ≤ clipped then return ()
    else
      copyColumns helpers framebuffer options size bitmap row outputY.toNat 0 (u32 (u32 options.source.x + clipped))
        (options.destination.width - clipped)
  else
    copyColumns helpers framebuffer options size bitmap row outputY.toNat options.destination.x.toNat (u32 options.source.x)
      options.destination.width

/-- The span path of `raster_blit`. -/
def blitSpans : Draw Bool := do
  (List.range options.destination.height).foldlM (fun _ row => copyRow helpers framebuffer options size bitmap row) ()
  return true

/-- The source is turned by one quarter or three. -/
def Turned : Prop := options.rotation = graphicsRotate90 ∨ options.rotation = graphicsRotate270

instance : Decidable (Turned options) := inferInstanceAs (Decidable (_ ∨ _))

def rotatedWidth : Nat := if Turned options then options.source.height else options.source.width

def rotatedHeight : Nat := if Turned options then options.source.width else options.source.height

/-- The index of the pixel of the bitmap that a pixel of the turned source comes from. -/
def sampleIndex (rx ry : Nat) : Nat :=
  let turned : Nat × Nat :=
    if options.rotation = graphicsRotate90 then (u32 (options.source.width - 1 - ry), rx)
    else if options.rotation = graphicsRotate180 then (u32 (options.source.width - 1 - rx), u32 (options.source.height - 1 - ry))
    else if options.rotation = graphicsRotate270 then (ry, u32 (options.source.height - 1 - rx))
    else (rx, ry)
  let sx := if options.mirrorX = true then u32 (options.source.width - 1 - turned.1) else turned.1
  let sy := if options.mirrorY = true then u32 (options.source.height - 1 - turned.2) else turned.2
  u32 (sy + u32 options.source.y) * options.bitmapWidth + u32 (sx + u32 options.source.x)

/-- A pixel of the general path. -/
def blitPixel (dy dx : Nat) : Draw Unit := do
  let ry := u32 (dy * rotatedHeight options / options.destination.height : Nat)
  let rx := u32 (dx * rotatedWidth options / options.destination.width : Nat)
  let source ← readBitmap size bitmap (sampleIndex options rx ry)
  if options.colorKeyEnabled = true ∧ keyed source options.colorKeyLow options.colorKeyHigh = true then return ()
  else
    let address := (options.destination.y + dy).toNat * framebuffer.stridePixels + (options.destination.x + dx).toNat
    if options.opacity = 255 then writePixel framebuffer address source
    else do
      let old ← readPixel framebuffer address
      writePixel framebuffer address (blend source old options.opacity)

/-- The general path of `raster_blit`. -/
def blitGeneral : Draw Bool :=
  let left := options.destination.x
  let top := options.destination.y
  let right := left + options.destination.width
  let bottom := top + options.destination.height
  let clippedLeft := if left < 0 then 0 else left
  let clippedTop := if top < 0 then 0 else top
  let clippedRight := if (framebuffer.width : Int) < right then (framebuffer.width : Int) else right
  let clippedBottom := if (framebuffer.height : Int) < bottom then (framebuffer.height : Int) else bottom
  if clippedRight ≤ clippedLeft ∨ clippedBottom ≤ clippedTop then return true
  else do
    let firstX := u32 (clippedLeft - left)
    let endX := u32 (clippedRight - left)
    let firstY := u32 (clippedTop - top)
    let endY := u32 (clippedBottom - top)
    (List.range' firstY (endY - firstY)).foldlM
      (fun _ dy => (List.range' firstX (endX - firstX)).foldlM (fun _ dx => blitPixel framebuffer options size bitmap dy dx) ()) ()
    return true

/-- The options that the span path is for. -/
def Plain : Prop :=
  options.rotation = 0 ∧ options.mirrorX = false ∧ options.mirrorY = false ∧ options.source.width = options.destination.width ∧
    options.source.height = options.destination.height ∧ options.opacity = 255

instance : Decidable (Plain options) := inferInstanceAs (Decidable (_ ∧ _))

end Blit

/-- `raster_blit`. -/
def blit (helpers : Helpers) (framebuffer : Framebuffer) (options : BlitOptions) : Draw Bool :=
  if options.Invalid then return false
  else
    match options.pixels with
    | none => return false
    | some bitmap =>
      if Plain options then blitSpans helpers framebuffer options (options.bitmapWidth * options.bitmapHeight) bitmap
      else blitGeneral framebuffer options (options.bitmapWidth * options.bitmapHeight) bitmap

/-! ## Programs that draw -/

/-- A program goes right and draws what a function draws, inside the picture. -/
def Draws (framebuffer : Framebuffer) (x : Draw Unit) (f : (Nat → Pixel) → Nat → Pixel) : Prop :=
  ∀ pixels, x.Meets pixels
    (fun _ pixels' => pixels' = f pixels ∧ ∀ address, ¬InPicture framebuffer address → f pixels address = pixels address) fun _ _ => False

variable {helpers : Helpers} {framebuffer : Framebuffer} {size : Nat} {bitmap : Nat → Pixel}

theorem draws_nothing : Draws framebuffer (pure ()) fun pixels => pixels := fun _ => ⟨rfl, fun _ _ => rfl⟩

theorem Draws.next {x y : Draw Unit} {f g : (Nat → Pixel) → Nat → Pixel} (hx : Draws framebuffer x f) (hy : Draws framebuffer y g) :
    Draws framebuffer (x >>= fun _ => y) fun pixels => g (f pixels) := by
  intro pixels
  rw [meets_bind]
  refine (hx pixels).mono ?_ fun _ _ h => h
  rintro _ _ ⟨rfl, hframe⟩
  refine (hy _).mono ?_ fun _ _ h => h
  rintro _ _ ⟨rfl, hframe'⟩
  exact ⟨rfl, fun address hout => (hframe' address hout).trans (hframe address hout)⟩

/-- A loop of programs that draw. -/
theorem Draws.foldlM {x : Nat → Draw Unit} {f : (Nat → Pixel) → Nat → Nat → Pixel} {l : List Nat}
    (h : ∀ k ∈ l, Draws framebuffer (x k) fun pixels => f pixels k) :
    Draws framebuffer (l.foldlM (fun _ k => x k) ()) fun pixels => l.foldl f pixels := by
  induction l with
  | nil => exact draws_nothing
  | cons k l ih =>
    rw [List.foldlM_cons]
    exact (h k List.mem_cons_self).next (ih fun k' hmem => h k' (List.mem_cons_of_mem _ hmem))

/-! ## Spans -/

theorem inPicture_address {x y : Nat} (hx : x < framebuffer.width) (hy : y < framebuffer.height) :
    InPicture framebuffer (y * framebuffer.stridePixels + x) := by
  have hstride := framebuffer.width_le_stride
  have hless : x < framebuffer.stridePixels := by omega
  unfold InPicture
  rw [Nat.mul_comm, Nat.mul_add_mod, Nat.mod_eq_of_lt hless, Nat.mul_add_div (by omega), Nat.div_eq_of_lt hless, Nat.add_zero]
  exact ⟨hx, hy⟩

/-- A span of a row of the picture. -/
theorem inPicture_span {row left count : Nat} (hrow : row < framebuffer.height) (hcount : left + count ≤ framebuffer.width) :
    ∀ k < count, InPicture framebuffer (row * framebuffer.stridePixels + left + k) := by
  intro k hk
  rw [Nat.add_assoc]
  exact inPicture_address (by omega) hrow

/-- An address outside the picture is on no span of it. -/
theorem not_onSpan {destination count address : Nat} (hspan : ∀ k < count, InPicture framebuffer (destination + k))
    (hout : ¬InPicture framebuffer address) : ¬(destination ≤ address ∧ address < destination + count) := by
  rintro ⟨hlow, hhigh⟩
  have hin := hspan (address - destination) (by omega)
  rw [Nat.add_sub_cancel' hlow] at hin
  exact hout hin

theorem fillSpan_draws {destination count : Nat} (hspan : ∀ k < count, InPicture framebuffer (destination + k)) (color : Pixel) :
    Draws framebuffer (fillSpan helpers framebuffer destination count color)
      fun pixels => rasterFillSpan pixels destination count color := by
  intro pixels
  unfold fillSpan
  refine meets_ite (fun hnone => ?_) fun _ => ?_
  · refine ⟨funext fun address => (if_neg (by omega)).symm, fun address _ => if_neg (by omega)⟩
  · rw [if_pos hspan, meets_modify]
    refine ⟨?_, fun address hout => if_neg (not_onSpan hspan hout)⟩
    cases hfill : helpers.fill pixels destination count color with
    | none => rfl
    | some pixels' => exact helpers.fill_span hfill

theorem copySpan_draws {destination source count : Nat} (hspan : ∀ k < count, InPicture framebuffer (destination + k))
    (hsource : source + count ≤ size) :
    Draws framebuffer (copySpan helpers framebuffer destination size bitmap source count)
      fun pixels => rasterCopySpan pixels destination bitmap source count := by
  intro pixels
  unfold copySpan
  refine meets_ite (fun hnone => ?_) fun _ => ?_
  · refine ⟨funext fun address => (if_neg (by omega)).symm, fun address _ => if_neg (by omega)⟩
  · rw [if_pos ⟨hspan, hsource⟩, meets_modify]
    refine ⟨?_, fun address hout => if_neg (not_onSpan hspan hout)⟩
    cases hcopy : helpers.copy pixels destination bitmap source count with
    | none => rfl
    | some pixels' => exact helpers.copy_span hcopy

/-! ## The span path -/

theorem readBitmap_eq {index : Nat} (h : index < size) : readBitmap size bitmap index = pure (bitmap index) := if_pos h

/-- The columns that are passed have their source inside the bitmap. -/
theorem scan_eq (test : Pixel → Bool) {source count : Nat} (hsource : source + count ≤ size) {fuel column : Nat}
    (hfuel : count - column ≤ fuel) :
    scan size bitmap test source count fuel column = pure (columnAfter (fun column => test (bitmap (source + column))) count column) := by
  induction fuel generalizing column with
  | zero =>
    rw [columnAfter_of_le _ (by omega)]
    rfl
  | succ fuel ih =>
    unfold scan
    by_cases hless : column < count
    · rw [if_pos hless, readBitmap_eq (by omega), pure_bind, columnAfter_step _ hless, ih (by omega)]
      exact (apply_ite pure _ _ _).symm
    · rw [if_neg hless, columnAfter_of_le _ (by omega)]

theorem copyRuns_draws {options : BlitOptions} {destination source count : Nat}
    (hspan : ∀ k < count, InPicture framebuffer (destination + k)) (hsource : source + count ≤ size) {fuel column : Nat}
    (hcolumn : column ≤ count) (hfuel : count - column ≤ fuel) :
    Draws framebuffer (copyRuns helpers framebuffer options size bitmap destination source count (fuel + 1) column)
      fun pixels => copyUnkeyed options.toGraphicsBlitOptions bitmap destination source count fuel column pixels := by
  induction fuel generalizing column with
  | zero =>
    unfold copyRuns
    rw [if_neg (by omega)]
    exact draws_nothing
  | succ fuel ih =>
    unfold copyRuns copyUnkeyed
    by_cases hless : column < count
    · simp only [if_pos hless]
      obtain ⟨-, hstart, -, -⟩ := columnAfter_spec
        (fun column => keyed (bitmap (source + column)) options.colorKeyLow options.colorKeyHigh) hcolumn
      have hmoves := columnAfter_moves (fun column => keyed (bitmap (source + column)) options.colorKeyLow options.colorKeyHigh) hless
      rw [scan_eq _ hsource (by omega), pure_bind]
      generalize columnAfter (fun column => keyed (bitmap (source + column)) options.colorKeyLow options.colorKeyHigh) count column =
        start at hstart hmoves ⊢
      obtain ⟨hstop, hend, -, -⟩ := columnAfter_spec
        (fun column => !keyed (bitmap (source + column)) options.colorKeyLow options.colorKeyHigh) hstart
      rw [scan_eq _ hsource (by omega), pure_bind]
      generalize columnAfter (fun column => !keyed (bitmap (source + column)) options.colorKeyLow options.colorKeyHigh) count start =
        stop at hstop hend hmoves ⊢
      have hrun : ∀ k < stop - start, InPicture framebuffer (destination + start + k) := by
        intro k hk
        rw [Nat.add_assoc]
        exact hspan (start + k) (by omega)
      exact (copySpan_draws hrun (by omega)).next (ih hend (by omega))
    · simp only [if_neg hless]
      exact draws_nothing

/-- What a valid rectangle of a bitmap is. -/
structure Bounds (options : BlitOptions) : Prop where
  x : 0 ≤ options.source.x
  y : 0 ≤ options.source.y
  width : options.source.x.toNat + options.source.width ≤ options.bitmapWidth
  height : options.source.y.toNat + options.source.height ≤ options.bitmapHeight
  rotation : options.rotation ≤ 3
  source_width : 0 < options.source.width
  source_height : 0 < options.source.height
  destination_width : 0 < options.destination.width
  destination_height : 0 < options.destination.height

theorem bounds_of_valid {options : BlitOptions} (h : ¬options.Invalid) : Bounds options := by
  unfold GraphicsBlitOptions.Invalid graphicsRotate270 at h
  exact ⟨by omega, by omega, by omega, by omega, by omega, by omega, by omega, by omega, by omega⟩

/-- The places of a row of a bitmap. -/
theorem index_le {bitmapWidth bitmapHeight row column : Nat} (hrow : row < bitmapHeight) (hcolumn : column ≤ bitmapWidth) :
    row * bitmapWidth + column ≤ bitmapWidth * bitmapHeight := by
  have hrows := Nat.mul_le_mul_right bitmapWidth (show row + 1 ≤ bitmapHeight from hrow)
  rw [Nat.succ_mul, Nat.mul_comm bitmapHeight] at hrows
  omega

variable {options : BlitOptions}

theorem u32_source_x (h : Bounds options) : u32 options.source.x = options.source.x.toNat := by
  have hhigh := options.source_fits.x_high
  exact u32_eq h.x (by omega)

theorem u32_source_y (h : Bounds options) : u32 options.source.y = options.source.y.toNat := by
  have hhigh := options.source_fits.y_high
  exact u32_eq h.y (by omega)

/-- The columns of a row that are copied. -/
theorem copyColumns_draws (h : Bounds options) {row outputY outputX sourceX count : Nat} (hy : outputY < framebuffer.height)
    (hrow : row < options.source.height) (hsource : sourceX + count ≤ options.bitmapWidth) (hcount : count < 4294967296) :
    Draws framebuffer
      (copyColumns helpers framebuffer options (options.bitmapWidth * options.bitmapHeight) bitmap row outputY outputX sourceX count)
      fun pixels =>
        if framebuffer.width ≤ outputX then pixels
        else if options.colorKeyEnabled = false then
          rasterCopySpan pixels (outputY * framebuffer.stridePixels + outputX) bitmap
            ((options.source.y.toNat + row) * options.bitmapWidth + sourceX) (min count (framebuffer.width - outputX))
        else
          copyUnkeyed options.toGraphicsBlitOptions bitmap (outputY * framebuffer.stridePixels + outputX)
            ((options.source.y.toNat + row) * options.bitmapWidth + sourceX) (min count (framebuffer.width - outputX))
            (min count (framebuffer.width - outputX)) 0 pixels := by
  have hbottom := h.height
  unfold copyColumns
  by_cases hright : framebuffer.width ≤ outputX
  · simp only [if_pos hright]
    exact draws_nothing
  · have hmin : (if framebuffer.width - outputX < count then u32 (framebuffer.width - outputX : Nat) else count) =
        min count (framebuffer.width - outputX) := by
      split
      · rw [u32_eq (by omega) (by omega)]
        omega
      · omega
    simp only [if_neg hright, hmin, u32_source_y h]
    have hspan : ∀ k < min count (framebuffer.width - outputX),
        InPicture framebuffer (outputY * framebuffer.stridePixels + outputX + k) := inPicture_span hy (by omega)
    have hindex : (options.source.y.toNat + row) * options.bitmapWidth + sourceX + min count (framebuffer.width - outputX) ≤
        options.bitmapWidth * options.bitmapHeight := by
      rw [Nat.add_assoc]
      exact index_le (by omega) (by omega)
    by_cases hkey : options.colorKeyEnabled = false
    · simp only [if_pos hkey]
      exact copySpan_draws hspan hindex
    · simp only [if_neg hkey]
      exact copyRuns_draws hspan hindex (Nat.zero_le _) (Nat.le_refl _)

/-- A row of the span path draws what the unchecked row draws. -/
theorem copyRow_draws (h : Bounds options) (hplain : Plain options) {row : Nat} (hrow : row < options.destination.height) :
    Draws framebuffer (copyRow helpers framebuffer options (options.bitmapWidth * options.bitmapHeight) bitmap row)
      fun pixels => TabOS.copyRow framebuffer options.toGraphicsBlitOptions bitmap pixels row := by
  obtain ⟨-, -, -, hwidth, hheight, -⟩ := hplain
  have hright := h.width
  have hbitmap := options.bitmapWidth_fits
  have hlow := options.destination_fits.x_low
  have hsize := options.destination_fits.width
  unfold copyRow TabOS.copyRow
  dsimp only
  by_cases hvisible : options.destination.y + row < 0 ∨ (framebuffer.height : Int) ≤ options.destination.y + row
  · simp only [if_pos hvisible, ge_iff_le]
    exact draws_nothing
  simp only [if_neg hvisible, ge_iff_le]
  by_cases hleft : options.destination.x < 0
  · have hclipped : u32 (-options.destination.x) = (-options.destination.x).toNat := u32_eq (by omega) (by omega)
    simp only [hclipped, hleft, true_and, if_true]
    by_cases hall : options.destination.width ≤ (-options.destination.x).toNat
    · simp only [if_pos hall]
      exact draws_nothing
    · have hx : u32 ((u32 options.source.x : Int) + ((-options.destination.x).toNat : Int)) =
          options.source.x.toNat + (-options.destination.x).toNat := by
        rw [u32_source_x h, u32_eq (by omega) (by omega)]
        omega
      have hzero : options.destination.x.toNat = 0 := by omega
      simp only [if_neg hall, hzero, hx]
      exact copyColumns_draws h (by omega) (by omega) (by omega) (by omega)
  · have hclipped : (-options.destination.x).toNat = 0 := by omega
    simp only [hleft, false_and, if_false, hclipped, u32_source_x h, Nat.add_zero, Nat.sub_zero]
    exact copyColumns_draws h (by omega) (by omega) (by omega) (by omega)

/-! ## The general path -/

theorem u32_natCast {n : Nat} (h : n < 4294967296) : u32 n = n := by
  rw [u32_eq (by omega) (by omega), Int.toNat_natCast]

theorem u32_mirror {extent k : Nat} (hk : k < extent) (hfits : extent < 4294967296) : u32 (extent - 1 - k) = extent - 1 - k := by
  rw [u32_eq (by omega) (by omega)]
  omega

/-- Mirroring stays in the extent. -/
theorem mirror_eq (mirror : Bool) {extent k : Nat} (hk : k < extent) (hfits : extent < 4294967296) :
    (if mirror = true then u32 (extent - 1 - k) else k) = (if mirror = true then extent - 1 - k else k) ∧
      (if mirror = true then extent - 1 - k else k) < extent := by
  rw [u32_mirror hk hfits]
  refine ⟨rfl, ?_⟩
  split
  · omega
  · exact hk

/-- A pixel of the source, mirrored, is at one place of the bitmap. -/
theorem place_eq (h : Bounds options) {sx sy : Nat} (hsx : sx < options.source.width) (hsy : sy < options.source.height) :
    u32 ((if options.mirrorY = true then u32 (options.source.height - 1 - sy) else sy : Nat) + u32 options.source.y) *
          options.bitmapWidth +
        u32 ((if options.mirrorX = true then u32 (options.source.width - 1 - sx) else sx : Nat) + u32 options.source.x) =
      ((if options.mirrorY = true then options.source.height - 1 - sy else sy) + options.source.y.toNat) * options.bitmapWidth +
        ((if options.mirrorX = true then options.source.width - 1 - sx else sx) + options.source.x.toNat) ∧
    ((if options.mirrorY = true then options.source.height - 1 - sy else sy) + options.source.y.toNat) * options.bitmapWidth +
        ((if options.mirrorX = true then options.source.width - 1 - sx else sx) + options.source.x.toNat) <
      options.bitmapWidth * options.bitmapHeight := by
  have hright := h.width
  have hbottom := h.height
  have hbitmapWidth := options.bitmapWidth_fits
  have hbitmapHeight := options.bitmapHeight_fits
  obtain ⟨hmirrorX, hlessX⟩ := mirror_eq options.mirrorX hsx options.source_fits.width
  obtain ⟨hmirrorY, hlessY⟩ := mirror_eq options.mirrorY hsy options.source_fits.height
  rw [hmirrorX, hmirrorY, u32_source_x h, u32_source_y h]
  generalize (if options.mirrorX = true then options.source.width - 1 - sx else sx) = column at hlessX ⊢
  generalize (if options.mirrorY = true then options.source.height - 1 - sy else sy) = row at hlessY ⊢
  have hcolumn : u32 ((column : Int) + options.source.x.toNat) = column + options.source.x.toNat := u32_natCast (by omega)
  have hrow : u32 ((row : Int) + options.source.y.toNat) = row + options.source.y.toNat := u32_natCast (by omega)
  have hindex : (row + options.source.y.toNat) * options.bitmapWidth + (column + options.source.x.toNat + 1) ≤
      options.bitmapWidth * options.bitmapHeight := index_le (by omega) (by omega)
  rw [hcolumn, hrow]
  exact ⟨rfl, by omega⟩

theorem rotatedWidth_pos (h : Bounds options) : 0 < rotatedWidth options := by
  unfold rotatedWidth
  split
  · exact h.source_height
  · exact h.source_width

theorem rotatedHeight_pos (h : Bounds options) : 0 < rotatedHeight options := by
  unfold rotatedHeight
  split
  · exact h.source_width
  · exact h.source_height

theorem rotatedWidth_fits (options : BlitOptions) : rotatedWidth options < 4294967296 := by
  unfold rotatedWidth
  split
  · exact options.source_fits.height
  · exact options.source_fits.width

theorem rotatedHeight_fits (options : BlitOptions) : rotatedHeight options < 4294967296 := by
  unfold rotatedHeight
  split
  · exact options.source_fits.width
  · exact options.source_fits.height

/-- A pixel of the turned source is at one place of the bitmap. -/
theorem sampleIndex_eq (h : Bounds options) {rx ry : Nat} (hrx : rx < rotatedWidth options) (hry : ry < rotatedHeight options) :
    sampleIndex options rx ry = sampledPixel options.toGraphicsBlitOptions rx ry ∧
      sampledPixel options.toGraphicsBlitOptions rx ry < options.bitmapWidth * options.bitmapHeight := by
  have hwidth := options.source_fits.width
  have hheight := options.source_fits.height
  have hrotation := h.rotation
  have hturned : Turned options ↔ options.rotation = 1 ∨ options.rotation = 3 := Iff.rfl
  unfold rotatedWidth at hrx
  unfold rotatedHeight at hry
  unfold sampleIndex sampledPixel graphicsRotate90 graphicsRotate180 graphicsRotate270
  rcases rotation_cases hrotation with hturn | hturn | hturn | hturn
  · rw [if_neg (mt hturned.1 (by omega))] at hrx hry
    simp only [hturn, Nat.reduceEqDiff, if_false]
    exact place_eq h hrx hry
  · rw [if_pos (hturned.2 (by omega))] at hrx hry
    simp only [hturn, if_true, u32_mirror hry hwidth]
    exact place_eq h (by omega) hrx
  · rw [if_neg (mt hturned.1 (by omega))] at hrx hry
    simp only [hturn, Nat.reduceEqDiff, if_false, if_true, u32_mirror hrx hwidth, u32_mirror hry hheight]
    exact place_eq h (by omega) (by omega)
  · rw [if_pos (hturned.2 (by omega))] at hrx hry
    simp only [hturn, Nat.reduceEqDiff, if_false, if_true, u32_mirror hrx hheight]
    exact place_eq h hry (by omega)

/-- A pixel of the general path draws what the unchecked pixel draws. -/
theorem blitPixel_draws (h : Bounds options) {dx dy : Nat} (hdx : dx < options.destination.width) (hdy : dy < options.destination.height)
    (hx : 0 ≤ options.destination.x + dx ∧ options.destination.x + dx < framebuffer.width)
    (hy : 0 ≤ options.destination.y + dy ∧ options.destination.y + dy < framebuffer.height) :
    Draws framebuffer (blitPixel framebuffer options (options.bitmapWidth * options.bitmapHeight) bitmap dy dx)
      fun pixels => TabOS.blitPixel framebuffer options.toGraphicsBlitOptions bitmap pixels dx dy := by
  have hsourceWidth := options.source_fits.width
  have hsourceHeight := options.source_fits.height
  have hrx : dx * rotatedWidth options / options.destination.width < rotatedWidth options :=
    Nat.div_lt_of_lt_mul (Nat.mul_lt_mul_of_pos_right hdx (rotatedWidth_pos h))
  have hry : dy * rotatedHeight options / options.destination.height < rotatedHeight options :=
    Nat.div_lt_of_lt_mul (Nat.mul_lt_mul_of_pos_right hdy (rotatedHeight_pos h))
  obtain ⟨hsample, hless⟩ := sampleIndex_eq h hrx hry
  have hplace : InPicture framebuffer
      ((options.destination.y + dy).toNat * framebuffer.stridePixels + (options.destination.x + dx).toNat) :=
    inPicture_address (by omega) (by omega)
  intro pixels
  unfold blitPixel
  dsimp only
  rw [u32_natCast (Nat.lt_trans hrx (rotatedWidth_fits options)), u32_natCast (Nat.lt_trans hry (rotatedHeight_fits options)), hsample,
    readBitmap_eq hless, pure_bind]
  have hframe : ∀ address, ¬InPicture framebuffer address →
      TabOS.blitPixel framebuffer options.toGraphicsBlitOptions bitmap pixels dx dy address = pixels address := by
    intro address hout
    rw [blitPixel_apply, if_neg]
    rintro rfl
    exact hout hplace
  refine Meets.mono (Q := fun _ pixels' => pixels' = TabOS.blitPixel framebuffer options.toGraphicsBlitOptions bitmap pixels dx dy) ?_
    (fun _ _ hpixels => ⟨hpixels, hframe⟩) fun _ _ h => h
  have hpixel : TabOS.blitPixel framebuffer options.toGraphicsBlitOptions bitmap pixels dx dy =
      let source := bitmap (sampledPixel options.toGraphicsBlitOptions (dx * rotatedWidth options / options.destination.width)
        (dy * rotatedHeight options / options.destination.height))
      let address := (options.destination.y + dy).toNat * framebuffer.stridePixels + (options.destination.x + dx).toNat
      if options.colorKeyEnabled = true ∧ keyed source options.colorKeyLow options.colorKeyHigh = true then pixels
      else Function.update pixels address (if options.opacity = 255 then source else blend source (pixels address) options.opacity) := rfl
  rw [hpixel]
  dsimp only
  refine meets_ite (fun hkey => (if_pos hkey).symm) fun hkey => ?_
  rw [if_neg hkey]
  refine meets_ite (fun hfull => ?_) fun hfull => ?_
  · rw [writePixel, if_pos hplace, meets_modify, if_pos hfull]
  · rw [readPixel, if_pos hplace, meets_bind, meets_observe, writePixel, if_pos hplace, meets_modify, if_neg hfull]

/-- The visible part of a span of `raster_blit`, in its own numbers. -/
theorem visible_eq {start : Int} {length limit : Nat} (hlow : -2147483648 ≤ start) (hlength : length < 4294967296)
    (hsome : ¬(if (limit : Int) < start + length then (limit : Int) else start + length) ≤ if start < 0 then 0 else start) :
    List.range' (u32 ((if start < 0 then 0 else start) - start))
        (u32 ((if (limit : Int) < start + length then (limit : Int) else start + length) - start) -
          u32 ((if start < 0 then 0 else start) - start)) =
      clippedSpan start length limit := by
  have hfirst : (if start < 0 then 0 else start) = max start 0 := by omega
  have hstop : (if (limit : Int) < start + length then (limit : Int) else start + length) = min (start + length) limit := by omega
  rw [hfirst, hstop] at hsome ⊢
  unfold clippedSpan
  dsimp only
  rw [if_neg hsome, u32_eq (by omega) (by omega), u32_eq (by omega) (by omega)]
  congr 1
  omega

theorem clippedSpan_eq_nil {start : Int} {length limit : Nat}
    (hnone : (if (limit : Int) < start + length then (limit : Int) else start + length) ≤ if start < 0 then 0 else start) :
    clippedSpan start length limit = [] := by
  unfold clippedSpan
  exact if_pos (by omega)

/-- The pixels of the general path. -/
def blitRows (framebuffer : Framebuffer) (options : GraphicsBlitOptions) (bitmap : Nat → Pixel) (pixels : Nat → Pixel) : Nat → Pixel :=
  (clippedSpan options.destination.y options.destination.height framebuffer.height).foldl
    (fun pixels dy => (clippedSpan options.destination.x options.destination.width framebuffer.width).foldl
      (fun pixels dx => TabOS.blitPixel framebuffer options bitmap pixels dx dy) pixels) pixels

theorem blitLoops_draws (h : Bounds options) :
    Draws framebuffer
      ((clippedSpan options.destination.y options.destination.height framebuffer.height).foldlM (fun _ dy =>
        (clippedSpan options.destination.x options.destination.width framebuffer.width).foldlM (fun _ dx =>
          blitPixel framebuffer options (options.bitmapWidth * options.bitmapHeight) bitmap dy dx) ()) ())
      fun pixels => blitRows framebuffer options.toGraphicsBlitOptions bitmap pixels := by
  unfold blitRows
  refine Draws.foldlM (f := _) fun dy hdy => Draws.foldlM (f := fun pixels dx => _) fun dx hdx => ?_
  obtain ⟨hdx, hleft, hright⟩ := mem_clippedSpan.1 hdx
  obtain ⟨hdy, htop, hbottom⟩ := mem_clippedSpan.1 hdy
  exact blitPixel_draws h hdx hdy ⟨hleft, hright⟩ ⟨htop, hbottom⟩

theorem blitGeneral_draws (h : Bounds options) (pixels : Nat → Pixel) :
    (blitGeneral framebuffer options (options.bitmapWidth * options.bitmapHeight) bitmap).Meets pixels
      (fun accepted pixels' => accepted = true ∧ pixels' = blitRows framebuffer options.toGraphicsBlitOptions bitmap pixels ∧
        ∀ address, ¬InPicture framebuffer address → pixels' address = pixels address) fun _ _ => False := by
  have hdestination := options.destination_fits
  unfold blitGeneral
  dsimp only
  refine meets_ite (fun hnone => ?_) fun hsome => ?_
  · refine ⟨rfl, ?_, fun _ _ => rfl⟩
    rcases hnone with hnone | hnone
    · unfold blitRows
      rw [clippedSpan_eq_nil hnone]
      exact (Library.foldl_eq_self (fun _ _ _ => rfl) pixels).symm
    · unfold blitRows
      rw [clippedSpan_eq_nil hnone]
      rfl
  · rw [not_or] at hsome
    rw [visible_eq hdestination.x_low hdestination.width hsome.1, visible_eq hdestination.y_low hdestination.height hsome.2, meets_bind]
    refine (blitLoops_draws h pixels).mono ?_ fun _ _ h => h
    rintro _ _ ⟨rfl, hframe⟩
    exact ⟨rfl, rfl, hframe⟩

theorem blitSpans_draws (h : Bounds options) (hplain : Plain options) (pixels : Nat → Pixel) :
    (blitSpans helpers framebuffer options (options.bitmapWidth * options.bitmapHeight) bitmap).Meets pixels
      (fun accepted pixels' => accepted = true ∧
        pixels' = (List.range options.destination.height).foldl (TabOS.copyRow framebuffer options.toGraphicsBlitOptions bitmap) pixels ∧
        ∀ address, ¬InPicture framebuffer address → pixels' address = pixels address) fun _ _ => False := by
  unfold blitSpans
  rw [meets_bind]
  refine (Draws.foldlM (fun row hrow => copyRow_draws h hplain (List.mem_range.1 hrow)) pixels).mono ?_ fun _ _ h => h
  rintro _ _ ⟨rfl, hframe⟩
  exact ⟨rfl, rfl, hframe⟩

/-! ## What is drawn -/

/-- A memory in which each pixel of the picture has a value that its old one gives, and everything else is as before. -/
def Drawn (framebuffer : Framebuffer) (value : Nat → Nat → Pixel → Pixel) (pixels' : Nat → Pixel) : Prop :=
  (∀ x y, x < framebuffer.width → y < framebuffer.height →
      pixels' (y * framebuffer.stridePixels + x) = value x y (framebuffer.pixels (y * framebuffer.stridePixels + x))) ∧
    ∀ address, ¬InPicture framebuffer address → pixels' address = framebuffer.pixels address

/-- There is one such memory. -/
theorem Drawn.unique {value : Nat → Nat → Pixel → Pixel} {pixels pixels' : Nat → Pixel} (h : Drawn framebuffer value pixels)
    (h' : Drawn framebuffer value pixels') : pixels = pixels' := by
  funext address
  by_cases hin : InPicture framebuffer address
  · have hplace : address / framebuffer.stridePixels * framebuffer.stridePixels + address % framebuffer.stridePixels = address := by
      rw [Nat.mul_comm, Nat.div_add_mod]
    rw [← hplace, h.1 _ _ hin.1 hin.2, h'.1 _ _ hin.1 hin.2]
  · rw [h.2 address hin, h'.2 address hin]

/-- What a fill makes of the pixel at `x` and `y`. -/
def filledPixel (rect : GraphicsRect) (color : Pixel) (x y : Nat) (old : Pixel) : Pixel :=
  if OnLine rect.x rect.width x ∧ OnLine rect.y rect.height y then color else old

theorem fill_drawn (helpers : Helpers) (framebuffer : Framebuffer) (rect : GraphicsRect) (color : Pixel) :
    (fill helpers framebuffer rect color).Meets framebuffer.pixels (fun _ => Drawn framebuffer (filledPixel rect color))
      fun _ _ => False := by
  have hnone (hout : ∀ x y : Nat, x < framebuffer.width → y < framebuffer.height →
      ¬(OnLine rect.x rect.width x ∧ OnLine rect.y rect.height y)) : Drawn framebuffer (filledPixel rect color) framebuffer.pixels :=
    ⟨fun x y hx hy => (if_neg (hout x y hx hy)).symm, fun _ _ => rfl⟩
  have hlow (start : Int) : (if start < 0 then 0 else start.toNat) = start.toNat := by
    split <;> omega
  have hhigh (limit : Nat) (stop : Int) : (if limit < stop.toNat then limit else stop.toNat) = min stop.toNat limit := by
    split <;> omega
  unfold fill
  dsimp only
  rw [hlow, hlow, hhigh, hhigh]
  refine meets_ite (fun hempty => hnone ?_) fun hempty => meets_ite (fun hbefore => hnone ?_) fun hbefore =>
    meets_ite (fun hclipped => hnone ?_) fun hclipped => ?_
  · unfold OnLine
    omega
  · unfold OnLine
    omega
  · unfold OnLine
    omega
  refine (Draws.foldlM (f := fun pixels row => rasterFillSpan pixels (row * framebuffer.stridePixels + rect.x.toNat) _ color)
    (fun row hrow => fillSpan_draws (inPicture_span ?_ ?_) color) framebuffer.pixels).mono ?_ fun _ _ h => h
  · rw [List.mem_range'_1] at hrow
    omega
  · omega
  rintro _ _ ⟨rfl, hframe⟩
  refine ⟨fun x y hx hy => (foldl_span_apply _ _ _ _ _ _ _).trans (if_congr ?_ rfl rfl), hframe⟩
  unfold OnLine
  constructor
  · rintro ⟨row, hrow, hspan⟩
    rw [onSpan_iff framebuffer.width_le_stride hx (by omega)] at hspan
    rw [List.mem_range'_1] at hrow
    omega
  · rintro ⟨hcolumn, hline⟩
    refine ⟨y, List.mem_range'_1.2 (by omega), ?_⟩
    rw [onSpan_iff framebuffer.width_le_stride hx (by omega)]
    omega

/-- `raster_blit` goes right, and it draws what the unchecked function draws. -/
theorem blit_draws (helpers : Helpers) (framebuffer : Framebuffer) (options : BlitOptions) {bitmap : Nat → Pixel}
    (hbitmap : options.pixels = some bitmap) (hvalid : ¬options.Invalid) :
    (blit helpers framebuffer options).Meets framebuffer.pixels
      (fun accepted pixels' => accepted = true ∧ pixels' = (rasterBlit framebuffer options.toGraphicsBlitOptions).2.pixels ∧
        ∀ address, ¬InPicture framebuffer address → pixels' address = framebuffer.pixels address) fun _ _ => False := by
  have hbounds := bounds_of_valid hvalid
  unfold blit rasterBlit
  rw [if_neg hvalid, if_neg hvalid, hbitmap]
  dsimp only
  by_cases hplain : Plain options
  · rw [if_pos hplain, if_pos (show _ ∧ _ from hplain)]
    exact blitSpans_draws hbounds hplain framebuffer.pixels
  · rw [if_neg hplain, if_neg (show ¬(_ ∧ _) from hplain)]
    exact blitGeneral_draws hbounds framebuffer.pixels

/-- A memory with the pixels of a blit. -/
theorem drawn_of_blitted (options : BlitOptions) {bitmap : Nat → Pixel} (hvalid : ¬options.Invalid) {pixels' : Nat → Pixel}
    (hpixels : ∀ x y, x < framebuffer.width → y < framebuffer.height → pixels' (y * framebuffer.stridePixels + x) =
      blitted options.toGraphicsBlitOptions bitmap x y (framebuffer.pixels (y * framebuffer.stridePixels + x)))
    (hframe : ∀ address, ¬InPicture framebuffer address → pixels' address = framebuffer.pixels address) :
    Drawn framebuffer (referencePixel options.toGraphicsBlitOptions bitmap) pixels' := by
  have hbounds := bounds_of_valid hvalid
  refine ⟨fun x y hx hy => ?_, hframe⟩
  rw [hpixels x y hx hy, blitted_eq_reference hbounds.rotation hbounds.source_width]

theorem blit_drawn (helpers : Helpers) (framebuffer : Framebuffer) (options : BlitOptions) {bitmap : Nat → Pixel}
    (hbitmap : options.pixels = some bitmap) (hvalid : ¬options.Invalid) :
    (blit helpers framebuffer options).Meets framebuffer.pixels
      (fun accepted pixels' => accepted = true ∧ Drawn framebuffer (referencePixel options.toGraphicsBlitOptions bitmap) pixels')
      fun _ _ => False := by
  refine (blit_draws helpers framebuffer options hbitmap hvalid).mono ?_ fun _ _ h => h
  rintro _ _ ⟨haccepted, rfl, hframe⟩
  exact ⟨haccepted, drawn_of_blitted options hvalid (fun x y hx hy => rasterBlit_apply hbitmap hvalid hx hy) hframe⟩

theorem blitGeneral_drawn (framebuffer : Framebuffer) (options : BlitOptions) (bitmap : Nat → Pixel) (hvalid : ¬options.Invalid) :
    (blitGeneral framebuffer options (options.bitmapWidth * options.bitmapHeight) bitmap).Meets framebuffer.pixels
      (fun accepted pixels' => accepted = true ∧ Drawn framebuffer (referencePixel options.toGraphicsBlitOptions bitmap) pixels')
      fun _ _ => False := by
  refine (blitGeneral_draws (bounds_of_valid hvalid) framebuffer.pixels).mono ?_ fun _ _ h => h
  rintro _ _ ⟨haccepted, rfl, hframe⟩
  exact ⟨haccepted, drawn_of_blitted options hvalid
    (fun x y hx hy => blitRows_apply framebuffer options.toGraphicsBlitOptions bitmap hx hy framebuffer.pixels) hframe⟩

theorem blitSpans_drawn (helpers : Helpers) (framebuffer : Framebuffer) (options : BlitOptions) {bitmap : Nat → Pixel}
    (hbitmap : options.pixels = some bitmap) (hvalid : ¬options.Invalid) (hplain : Plain options) :
    (blitSpans helpers framebuffer options (options.bitmapWidth * options.bitmapHeight) bitmap).Meets framebuffer.pixels
      (fun accepted pixels' => accepted = true ∧ Drawn framebuffer (referencePixel options.toGraphicsBlitOptions bitmap) pixels')
      fun _ _ => False := by
  have hblit := blit_drawn helpers framebuffer options hbitmap hvalid
  unfold blit at hblit
  rw [if_neg hvalid, hbitmap] at hblit
  dsimp only at hblit
  rw [if_pos hplain] at hblit
  exact hblit

/-- A bitmap of one pixel. -/
def dotOptions (color : Pixel) : BlitOptions where
  pixels := some fun _ => color
  bitmapWidth := 1
  bitmapHeight := 1
  source := ⟨0, 0, 1, 1⟩
  destination := ⟨0, 0, 1, 1⟩
  rotation := 0
  mirrorX := false
  mirrorY := false
  opacity := 255
  colorKeyEnabled := false
  colorKeyLow := 0
  colorKeyHigh := 0
  bitmapWidth_fits := by decide
  bitmapHeight_fits := by decide
  source_fits := ⟨by decide, by decide, by decide, by decide, by decide, by decide⟩
  destination_fits := ⟨by decide, by decide, by decide, by decide, by decide, by decide⟩
  opacity_fits := by decide

end Raster
end TabOS
