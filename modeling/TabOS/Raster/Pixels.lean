import TabOS.Library.Pass
import TabOS.Raster
import Mathlib.Data.List.Range

/-!
# The pixels of a blit

What `raster_blit` makes of each pixel of the framebuffer, whichever of its two ways it takes: a pixel outside the destination is left,
one inside it is drawn from the bitmap.
-/

namespace TabOS

open Library

/-- What a blit makes of the pixel at `dx` and `dy` of the destination. -/
def drawnPixel (options : GraphicsBlitOptions) (bitmap : Nat → Pixel) (dx dy : Nat) (old : Pixel) : Pixel :=
  let turned := options.rotation = graphicsRotate90 ∨ options.rotation = graphicsRotate270
  let rotatedWidth := if turned then options.source.height else options.source.width
  let rotatedHeight := if turned then options.source.width else options.source.height
  let ry := dy * rotatedHeight / options.destination.height
  let rx := dx * rotatedWidth / options.destination.width
  let source := bitmap (sampledPixel options rx ry)
  if options.colorKeyEnabled = true ∧ keyed source options.colorKeyLow options.colorKeyHigh = true then old
  else if options.opacity = 255 then source
  else blend source old options.opacity

/-- What a blit makes of the pixel at `x` and `y` of the picture. -/
def blitted (options : GraphicsBlitOptions) (bitmap : Nat → Pixel) (x y : Nat) (old : Pixel) : Pixel :=
  if OnLine options.destination.y options.destination.height y then
    if OnLine options.destination.x options.destination.width x then
      drawnPixel options bitmap (x - options.destination.x).toNat (y - options.destination.y).toNat old
    else old
  else old

/-- Two pixels of rows that do not overlap have one address only when they are the same. -/
theorem address_eq_iff {stride x y x' y' : Nat} (hx : x < stride) (hx' : x' < stride) :
    y * stride + x = y' * stride + x' ↔ x = x' ∧ y = y' := by
  constructor
  · intro h
    have hmod := congrArg (· % stride) h
    have hdiv := congrArg (· / stride) h
    have hpos : 0 < stride := by omega
    rw [Nat.mul_comm y, Nat.mul_comm y'] at hmod hdiv
    simp only [Nat.mul_add_mod, Nat.mod_eq_of_lt hx, Nat.mod_eq_of_lt hx'] at hmod
    simp only [Nat.mul_add_div hpos, Nat.div_eq_of_lt hx, Nat.div_eq_of_lt hx', Nat.add_zero] at hdiv
    exact ⟨hmod, hdiv⟩
  · rintro ⟨rfl, rfl⟩
    rfl

/-! ## The general way -/

theorem mem_clippedSpan {start : Int} {length limit k : Nat} :
    k ∈ clippedSpan start length limit ↔ k < length ∧ 0 ≤ start + k ∧ start + k < limit := by
  unfold clippedSpan
  dsimp only
  split
  · refine iff_of_false List.not_mem_nil ?_
    omega
  · rw [List.mem_range'_1]
    omega

theorem nodup_clippedSpan (start : Int) (length limit : Nat) : (clippedSpan start length limit).Nodup := by
  unfold clippedSpan
  dsimp only
  split
  · exact List.nodup_nil
  · exact List.nodup_range'

theorem ite_update_apply {c : Prop} [Decidable c] (pixels : Nat → Pixel) (place address : Nat) (value : Pixel) :
    (if c then pixels else Function.update pixels place value) address =
      if address = place then if c then pixels place else value else pixels address := by
  by_cases hc : c
  · rw [if_pos hc, if_pos hc]
    split
    · rename_i heq
      rw [heq]
    · rfl
  · rw [if_neg hc, if_neg hc, Function.update_apply]

theorem blitPixel_apply (framebuffer : Framebuffer) (options : GraphicsBlitOptions) (bitmap : Nat → Pixel) (pixels : Nat → Pixel)
    (dx dy address : Nat) :
    blitPixel framebuffer options bitmap pixels dx dy address =
      if address = (options.destination.y + dy).toNat * framebuffer.stridePixels + (options.destination.x + dx).toNat then
        drawnPixel options bitmap dx dy (pixels address)
      else pixels address := by
  refine (ite_update_apply pixels _ address _).trans ?_
  split
  · rename_i heq
    rw [heq]
    rfl
  · rfl

/-- The pixels of a row. -/
theorem blitRow_apply (framebuffer : Framebuffer) (options : GraphicsBlitOptions) (bitmap : Nat → Pixel) {x y : Nat}
    (hx : x < framebuffer.width) {dy : Nat} (hdy : 0 ≤ options.destination.y + dy) (v : Pixel) :
    (clippedSpan options.destination.x options.destination.width framebuffer.width).foldl
        (fun v (dx : Nat) => if y * framebuffer.stridePixels + x =
            (options.destination.y + dy).toNat * framebuffer.stridePixels + (options.destination.x + dx).toNat then
          drawnPixel options bitmap dx dy v else v) v =
      if options.destination.y + dy = y then
        if OnLine options.destination.x options.destination.width x then
          drawnPixel options bitmap (x - options.destination.x).toNat dy v else v
      else v := by
  have hstride := framebuffer.width_le_stride
  have haddress : ∀ dx ∈ clippedSpan options.destination.x options.destination.width framebuffer.width,
      (y * framebuffer.stridePixels + x =
          (options.destination.y + dy).toNat * framebuffer.stridePixels + (options.destination.x + dx).toNat ↔
        options.destination.x + dx = x ∧ options.destination.y + dy = y) := by
    intro dx hmem
    obtain ⟨-, hlow, hhigh⟩ := mem_clippedSpan.1 hmem
    rw [address_eq_iff (by omega) (by omega)]
    omega
  by_cases hrow : options.destination.y + dy = y
  · rw [if_pos hrow]
    refine foldl_line (fun dx v => drawnPixel options bitmap dx dy v) (nodup_clippedSpan _ _ _) (fun dx hdx => ?_)
      (fun dx hmem hdx v => ?_) (fun dx hmem hdx v => ?_) v
    · rw [mem_clippedSpan]
      omega
    · exact if_pos ((haddress dx hmem).2 ⟨hdx, hrow⟩)
    · exact if_neg fun h => hdx ((haddress dx hmem).1 h).1
  · rw [if_neg hrow]
    exact foldl_eq_self (fun dx hmem v => if_neg fun h => hrow ((haddress dx hmem).1 h).2) v

theorem blitRows_apply (framebuffer : Framebuffer) (options : GraphicsBlitOptions) (bitmap : Nat → Pixel) {x y : Nat}
    (hx : x < framebuffer.width) (hy : y < framebuffer.height) (pixels : Nat → Pixel) :
    (clippedSpan options.destination.y options.destination.height framebuffer.height).foldl
        (fun pixels dy => (clippedSpan options.destination.x options.destination.width framebuffer.width).foldl
          (fun pixels dx => blitPixel framebuffer options bitmap pixels dx dy) pixels) pixels
        (y * framebuffer.stridePixels + x) =
      blitted options bitmap x y (pixels (y * framebuffer.stridePixels + x)) := by
  rw [foldl_apply (fun address v (dy : Nat) => (clippedSpan options.destination.x options.destination.width framebuffer.width).foldl
    (fun v (dx : Nat) => if address =
        (options.destination.y + dy).toNat * framebuffer.stridePixels + (options.destination.x + dx).toNat then
      drawnPixel options bitmap dx dy v else v) v)]
  · refine foldl_line (fun dy v => if OnLine options.destination.x options.destination.width x then
      drawnPixel options bitmap (x - options.destination.x).toNat dy v else v) (nodup_clippedSpan _ _ _) (fun dy hdy => ?_)
      (fun dy hmem hdy v => ?_) (fun dy hmem hdy v => ?_) _
    · rw [mem_clippedSpan]
      omega
    · obtain ⟨-, hlow, -⟩ := mem_clippedSpan.1 hmem
      rw [blitRow_apply framebuffer options bitmap hx hlow, if_pos hdy]
    · obtain ⟨-, hlow, -⟩ := mem_clippedSpan.1 hmem
      rw [blitRow_apply framebuffer options bitmap hx hlow, if_neg hdy]
  · intro memory dy address
    exact foldl_apply (fun address v (dx : Nat) => if address =
        (options.destination.y + dy).toNat * framebuffer.stridePixels + (options.destination.x + dx).toNat then
      drawnPixel options bitmap dx dy v else v)
      (fun memory dx address => blitPixel_apply framebuffer options bitmap memory dx dy address) _ memory address

/-! ## The way of the spans -/

theorem rasterCopySpan_apply (pixels : Nat → Pixel) (destination : Nat) (bitmap : Nat → Pixel) (source count address : Nat) :
    rasterCopySpan pixels destination bitmap source count address =
      if destination ≤ address ∧ address < destination + count then bitmap (source + (address - destination)) else pixels address := rfl

theorem columnAfter_step (test : Nat → Bool) {count column : Nat} (h : column < count) :
    columnAfter test count column = if test column = true then columnAfter test count (column + 1) else column := by
  unfold columnAfter
  rw [show count - column = count - (column + 1) + 1 by omega, List.range'_succ, List.takeWhile_cons]
  split
  · rw [List.length_cons]
    omega
  · rfl

theorem columnAfter_of_le (test : Nat → Bool) {count column : Nat} (h : count ≤ column) : columnAfter test count column = column := by
  unfold columnAfter
  rw [Nat.sub_eq_zero_of_le h]
  rfl

/-- The columns before the first one at which the test fails pass it. -/
theorem columnAfter_spec (test : Nat → Bool) {count column : Nat} (h : column ≤ count) :
    column ≤ columnAfter test count column ∧ columnAfter test count column ≤ count ∧
      (∀ k, column ≤ k → k < columnAfter test count column → test k = true) ∧
      (columnAfter test count column < count → test (columnAfter test count column) = false) := by
  induction hleft : count - column generalizing column with
  | zero =>
    rw [columnAfter_of_le test (by omega)]
    exact ⟨Nat.le_refl _, h, fun k hlow hhigh => absurd hlow (by omega), fun hless => absurd hless (by omega)⟩
  | succ left ih =>
    rw [columnAfter_step test (by omega)]
    split
    · rename_i hpass
      obtain ⟨hlow, hhigh, hpasses, hfails⟩ := ih (show column + 1 ≤ count by omega) (by omega)
      refine ⟨by omega, hhigh, fun k hk hless => ?_, hfails⟩
      by_cases hfirst : k = column
      · rw [hfirst]
        exact hpass
      · exact hpasses k (by omega) hless
    · rename_i hfail
      exact ⟨Nat.le_refl _, h, fun k hlow hhigh => absurd hlow (by omega), fun _ => Bool.not_eq_true _ ▸ hfail⟩

/-- A round that passes the columns with a property and then those without it passes a column. -/
theorem columnAfter_moves (test : Nat → Bool) {count column : Nat} (h : column < count) :
    column < columnAfter (fun column => !test column) count (columnAfter test count column) := by
  obtain ⟨hlow, hhigh, -, hfails⟩ := columnAfter_spec test (Nat.le_of_lt h)
  by_cases hfirst : columnAfter test count column = column
  · have hfail := hfails (by omega)
    rw [hfirst] at hfail ⊢
    rw [columnAfter_step _ h, if_pos (by rw [hfail]; rfl)]
    have hnext := (columnAfter_spec (fun column => !test column) (show column + 1 ≤ count from h)).1
    omega
  · have hnext := (columnAfter_spec (fun column => !test column) hhigh).1
    omega

/-- The runs that the colour key leaves are all that a row copies. -/
theorem copyUnkeyed_apply (options : GraphicsBlitOptions) (bitmap : Nat → Pixel) (destination source count fuel column : Nat)
    (hfuel : count - column ≤ fuel) (hcolumn : column ≤ count) (pixels : Nat → Pixel) (address : Nat) :
    copyUnkeyed options bitmap destination source count fuel column pixels address =
      if destination + column ≤ address ∧ address < destination + count ∧
          keyed (bitmap (source + (address - destination))) options.colorKeyLow options.colorKeyHigh = false then
        bitmap (source + (address - destination))
      else pixels address := by
  induction fuel generalizing column pixels with
  | zero => exact (if_neg (by omega)).symm
  | succ fuel ih =>
    unfold copyUnkeyed
    split
    · rename_i hless
      dsimp only
      have hmoves := columnAfter_moves (fun column => keyed (bitmap (source + column)) options.colorKeyLow options.colorKeyHigh) hless
      obtain ⟨hstartLow, hstartHigh, hkeyed, -⟩ := columnAfter_spec
        (fun column => keyed (bitmap (source + column)) options.colorKeyLow options.colorKeyHigh) hcolumn
      generalize columnAfter (fun column => keyed (bitmap (source + column)) options.colorKeyLow options.colorKeyHigh) count column =
        start at *
      obtain ⟨hstopLow, hstopHigh, hcopied, -⟩ := columnAfter_spec
        (fun column => !keyed (bitmap (source + column)) options.colorKeyLow options.colorKeyHigh) hstartHigh
      generalize columnAfter (fun column => !keyed (bitmap (source + column)) options.colorKeyLow options.colorKeyHigh) count start =
        stop at *
      rw [ih stop (by omega) hstopHigh, rasterCopySpan_apply]
      by_cases hin : destination + column ≤ address ∧ address < destination + count
      · obtain ⟨c, rfl⟩ := Nat.exists_eq_add_of_le (show destination ≤ address by omega)
        rw [Nat.add_sub_cancel_left]
        rcases Nat.lt_or_ge c start with hbefore | hafter
        · -- A column that the key leaves out.
          have hkey : keyed (bitmap (source + c)) options.colorKeyLow options.colorKeyHigh = true := hkeyed c (by omega) hbefore
          have hnever : ∀ p q : Prop, ¬(p ∧ q ∧ true = false) := fun p q h => Bool.false_ne_true h.2.2.symm
          rw [hkey, if_neg (hnever _ _), if_neg (hnever _ _)]
          exact if_neg (by omega)
        rcases Nat.lt_or_ge c stop with hrun | hlater
        · -- A column of the run.
          have hkey : keyed (bitmap (source + c)) options.colorKeyLow options.colorKeyHigh = false :=
            Bool.not_eq_true' _ ▸ hcopied c hafter hrun
          rw [if_neg (by omega), if_pos (by omega), if_pos ⟨hin.1, hin.2, hkey⟩]
          congr 1
          omega
        · rw [if_neg (show ¬(destination + start ≤ destination + c ∧ destination + c < destination + start + (stop - start)) by omega)]
          exact if_congr (and_congr_left' (iff_of_true (by omega) hin.1)) rfl rfl
      · rw [if_neg fun h => hin ⟨by omega, h.2.1⟩, if_neg (by omega), if_neg fun h => hin ⟨h.1, h.2.1⟩]
    · exact (if_neg (by omega)).symm

/-- A span of a row holds the pixels of the row that it covers. -/
theorem onSpan_iff {stride width x left count : Nat} (hstride : width ≤ stride) (hx : x < width) (hcount : left + count ≤ width)
    (y row : Nat) :
    row * stride + left ≤ y * stride + x ∧ y * stride + x < row * stride + left + count ↔ row = y ∧ left ≤ x ∧ x < left + count := by
  rcases Nat.lt_trichotomy row y with hless | rfl | hless
  · have hrows := Nat.mul_le_mul_right stride (show row + 1 ≤ y from hless)
    rw [Nat.succ_mul] at hrows
    omega
  · omega
  · have hrows := Nat.mul_le_mul_right stride (show y + 1 ≤ row from hless)
    rw [Nat.succ_mul] at hrows
    omega

/-- Rows that are filled. -/
theorem foldl_span_apply (stride left count : Nat) (color : Pixel) (l : List Nat) (pixels : Nat → Pixel) (address : Nat) :
    l.foldl (fun pixels row => rasterFillSpan pixels (row * stride + left) count color) pixels address =
      if (∃ row ∈ l, row * stride + left ≤ address ∧ address < row * stride + left + count) then color else pixels address := by
  classical
  induction l generalizing pixels with
  | nil => exact (if_neg fun h => absurd h.choose_spec.1 List.not_mem_nil).symm
  | cons row l ih =>
    rw [List.foldl_cons, ih]
    by_cases hrest : ∃ row ∈ l, row * stride + left ≤ address ∧ address < row * stride + left + count
    · rw [if_pos hrest, if_pos (List.exists_mem_cons_of_exists hrest)]
    · rw [if_neg hrest, rasterFillSpan]
      refine if_congr ?_ rfl rfl
      rw [List.exists_mem_cons_iff]
      exact (or_iff_left hrest).symm

/-- What a row that is copied makes of its pixel at `dx`. -/
def copiedPixel (options : GraphicsBlitOptions) (bitmap : Nat → Pixel) (dx row : Nat) (old : Pixel) : Pixel :=
  let source := bitmap ((options.source.y.toNat + row) * options.bitmapWidth + (options.source.x.toNat + dx))
  if options.colorKeyEnabled = true ∧ keyed source options.colorKeyLow options.colorKeyHigh = true then old else source

theorem copyRow_apply (framebuffer : Framebuffer) (options : GraphicsBlitOptions) (bitmap : Nat → Pixel) {x y : Nat}
    (hx : x < framebuffer.width) (hy : y < framebuffer.height) (pixels : Nat → Pixel) (row : Nat) :
    copyRow framebuffer options bitmap pixels row (y * framebuffer.stridePixels + x) =
      if options.destination.y + row = y then
        if OnLine options.destination.x options.destination.width x then
          copiedPixel options bitmap (x - options.destination.x).toNat row (pixels (y * framebuffer.stridePixels + x))
        else pixels (y * framebuffer.stridePixels + x)
      else pixels (y * framebuffer.stridePixels + x) := by
  have hnone : ∀ old : Pixel, ¬OnLine options.destination.x options.destination.width x →
      old = if options.destination.y + row = y then
        if OnLine options.destination.x options.destination.width x then
          copiedPixel options bitmap (x - options.destination.x).toNat row old else old
      else old := by
    intro old hnot
    rw [if_neg hnot, ite_self]
  unfold copyRow
  dsimp only
  split
  · rw [if_neg (by omega)]
  rename_i hvisible
  split
  · rename_i hclipped
    exact hnone _ fun hline => by unfold OnLine at hline; omega
  rename_i hclipped
  split
  · rename_i hright
    exact hnone _ fun hline => by unfold OnLine at hline; omega
  rename_i hright
  have hcount : options.destination.x.toNat + min (options.destination.width - (-options.destination.x).toNat)
      (framebuffer.width - options.destination.x.toNat) ≤ framebuffer.width := by omega
  have hline : options.destination.x.toNat ≤ x ∧ x < options.destination.x.toNat +
      min (options.destination.width - (-options.destination.x).toNat) (framebuffer.width - options.destination.x.toNat) ↔
      OnLine options.destination.x options.destination.width x := by
    unfold OnLine
    omega
  have hrow : (options.destination.y + row).toNat = y ↔ options.destination.y + row = y := by omega
  generalize min (options.destination.width - (-options.destination.x).toNat) (framebuffer.width - options.destination.x.toNat) =
    count at *
  have hspan := onSpan_iff framebuffer.width_le_stride hx hcount y (options.destination.y + row).toNat
  rw [hline, hrow] at hspan
  by_cases hin : options.destination.y + row = y ∧ OnLine options.destination.x options.destination.width x
  · -- The column of the span is the column of the destination, less what is clipped.
    have haddress := hspan.2 hin
    obtain ⟨hrow', hline'⟩ := hin
    have hcolumn : (options.source.y.toNat + row) * options.bitmapWidth + (options.source.x.toNat + (-options.destination.x).toNat) +
        (y * framebuffer.stridePixels + x -
          ((options.destination.y + row).toNat * framebuffer.stridePixels + options.destination.x.toNat)) =
        (options.source.y.toNat + row) * options.bitmapWidth + (options.source.x.toNat + (x - options.destination.x).toNat) := by
      rw [show (options.destination.y + row).toNat = y by omega, Nat.add_sub_add_left]
      unfold OnLine at hline'
      omega
    rw [if_pos hrow', if_pos hline']
    unfold copiedPixel
    split
    · rename_i hkey
      rw [rasterCopySpan_apply, if_pos haddress, hcolumn, hkey]
      exact (if_neg fun h => Bool.false_ne_true h.1).symm
    · rename_i hkey
      rw [Bool.not_eq_false] at hkey
      rw [copyUnkeyed_apply _ _ _ _ _ _ _ (Nat.sub_le _ _) (Nat.zero_le _), hcolumn, hkey]
      dsimp only
      generalize bitmap ((options.source.y.toNat + row) * options.bitmapWidth +
        (options.source.x.toNat + (x - options.destination.x).toNat)) = source
      cases keyed source options.colorKeyLow options.colorKeyHigh with
      | true => rw [if_neg fun h => Bool.false_ne_true h.2.2.symm, if_pos ⟨rfl, rfl⟩]
      | false => rw [if_pos ⟨haddress.1, haddress.2, rfl⟩, if_neg fun h => Bool.false_ne_true h.2]
  · have hleft : ∀ old drawn : Pixel, old = if options.destination.y + row = y then
        if OnLine options.destination.x options.destination.width x then drawn else old else old := by
      intro old drawn
      split
      · rw [if_neg fun hline' => hin ⟨by assumption, hline'⟩]
      · rfl
    refine Eq.trans ?_ (hleft _ _)
    split
    · rw [rasterCopySpan_apply, if_neg fun h => hin (hspan.1 h)]
    · rw [copyUnkeyed_apply _ _ _ _ _ _ _ (Nat.sub_le _ _) (Nat.zero_le _), if_neg fun h => hin (hspan.1 ⟨h.1, h.2.1⟩)]

/-! ## Blits -/

theorem copyRows_apply (framebuffer : Framebuffer) (options : GraphicsBlitOptions) (bitmap : Nat → Pixel) {x y : Nat}
    (hx : x < framebuffer.width) (hy : y < framebuffer.height) (pixels : Nat → Pixel) :
    (List.range options.destination.height).foldl (copyRow framebuffer options bitmap) pixels (y * framebuffer.stridePixels + x) =
      if OnLine options.destination.y options.destination.height y then
        if OnLine options.destination.x options.destination.width x then
          copiedPixel options bitmap (x - options.destination.x).toNat (y - options.destination.y).toNat
            (pixels (y * framebuffer.stridePixels + x))
        else pixels (y * framebuffer.stridePixels + x)
      else pixels (y * framebuffer.stridePixels + x) := by
  -- The rows are a loop over the value of the pixel: only its own row changes it.
  have hrows : ∀ (l : List Nat) pixels, l.foldl (copyRow framebuffer options bitmap) pixels (y * framebuffer.stridePixels + x) =
      l.foldl (fun v (row : Nat) => if options.destination.y + row = y then
        if OnLine options.destination.x options.destination.width x then
          copiedPixel options bitmap (x - options.destination.x).toNat row v else v
        else v) (pixels (y * framebuffer.stridePixels + x)) := by
    intro l
    induction l with
    | nil => exact fun _ => rfl
    | cons row l ih =>
      intro pixels
      rw [List.foldl_cons, List.foldl_cons, ih, copyRow_apply framebuffer options bitmap hx hy]
  rw [hrows]
  refine foldl_line (fun row v => if OnLine options.destination.x options.destination.width x then
    copiedPixel options bitmap (x - options.destination.x).toNat row v else v) List.nodup_range (fun row _ => List.mem_range)
    (fun row _ hrow v => if_pos hrow) (fun row _ hrow v => if_neg hrow) _

/-- Without a turn, a mirror, another size and an opacity below the greatest, a pixel is copied. -/
theorem drawnPixel_eq_copied {options : GraphicsBlitOptions} (hrotation : options.rotation = 0) (hmirrorX : options.mirrorX = false)
    (hmirrorY : options.mirrorY = false) (hwidth : options.source.width = options.destination.width)
    (hheight : options.source.height = options.destination.height) (hopacity : options.opacity = 255) (bitmap : Nat → Pixel)
    {dx dy : Nat} (hdx : dx < options.destination.width) (hdy : dy < options.destination.height) (old : Pixel) :
    drawnPixel options bitmap dx dy old = copiedPixel options bitmap dx dy old := by
  have hturned : ¬(options.rotation = graphicsRotate90 ∨ options.rotation = graphicsRotate270) := by
    rw [hrotation]
    decide
  have hsample : sampledPixel options dx dy =
      (options.source.y.toNat + dy) * options.bitmapWidth + (options.source.x.toNat + dx) := by
    unfold sampledPixel
    rw [hrotation, hmirrorX, hmirrorY, if_neg (by decide), if_neg (by decide), if_neg (by decide)]
    dsimp only
    rw [if_neg (by decide), if_neg (by decide), Nat.add_comm dy, Nat.add_comm dx]
  unfold drawnPixel copiedPixel
  dsimp only
  rw [if_neg hturned, if_neg hturned, hwidth, hheight, Nat.mul_div_cancel _ (by omega), Nat.mul_div_cancel _ (by omega), hsample,
    if_pos hopacity]

/-- Each pixel of the framebuffer after a blit. -/
theorem rasterBlit_apply {framebuffer : Framebuffer} {options : GraphicsBlitOptions} {bitmap : Nat → Pixel}
    (hbitmap : options.pixels = some bitmap) (hvalid : ¬options.Invalid) {x y : Nat} (hx : x < framebuffer.width)
    (hy : y < framebuffer.height) :
    (rasterBlit framebuffer options).2.pixels (y * framebuffer.stridePixels + x) =
      blitted options bitmap x y (framebuffer.pixels (y * framebuffer.stridePixels + x)) := by
  unfold rasterBlit
  rw [if_neg hvalid, hbitmap]
  dsimp only
  split
  · rename_i hcopies
    obtain ⟨hrotation, hmirrorX, hmirrorY, hwidth, hheight, hopacity⟩ := hcopies
    dsimp only
    rw [copyRows_apply framebuffer options bitmap hx hy]
    unfold blitted
    refine ite_congr rfl (fun hrow => ite_congr rfl (fun hcolumn => ?_) fun _ => rfl) fun _ => rfl
    unfold OnLine at hrow hcolumn
    exact (drawnPixel_eq_copied hrotation hmirrorX hmirrorY hwidth hheight hopacity bitmap (by omega) (by omega) _).symm
  · exact blitRows_apply framebuffer options bitmap hx hy framebuffer.pixels

end TabOS
