import TabOS.Library.Interpolation
import Mathlib.Data.List.Basic

/-!
# Lines

`tabos_graphics_line` of `sdk/lib/graphics.c`: it clips the line to the canvas with outcodes and draws what is left pixel by pixel. The
arithmetic is checked: `none` is a value that does not fit its type, a division by zero, or a loop that has not ended.
-/

namespace TabOS
namespace Sdk

open Library

/-! ## Checked integers -/

/-- A value of `int64_t`. -/
def int64 (value : Int) : Option Int := if -9223372036854775808 ≤ value ∧ value < 9223372036854775808 then some value else none

/-- A value of `uint64_t`. -/
def uint64 (value : Nat) : Option Nat := if value < 18446744073709551616 then some value else none

def magnitude (value : Int) : Option Nat := if value < 0 then (int64 (-value)).map Int.toNat else some value.toNat

def multiplyDivide (value numerator denominator : Int) : Option Int := do
  let negative := (decide (value < 0) != decide (numerator < 0)) != decide (denominator < 0)
  let product ← uint64 ((← magnitude value) * (← magnitude numerator))
  let divisor ← magnitude denominator
  if divisor = 0 then none
  else
    let quotient ← int64 (product / divisor : Nat)
    if negative = true then int64 (-quotient) else return quotient

/-! ## Clipping -/

/-- The flags `LINE_CLIP_LEFT` and so on. -/
structure ClipCode where
  left : Bool
  right : Bool
  top : Bool
  bottom : Bool
  deriving DecidableEq

/-- `0U`. -/
def ClipCode.inside : ClipCode := ⟨false, false, false, false⟩

/-- A flag is set in both. -/
def ClipCode.Shares (code code' : ClipCode) : Prop :=
  (code.left && code'.left || code.right && code'.right || code.top && code'.top || code.bottom && code'.bottom) = true

instance (code code' : ClipCode) : Decidable (code.Shares code') := inferInstanceAs (Decidable (_ = _))

def lineClipCode (x y maximumX maximumY : Int) : ClipCode where
  left := decide (x < 0)
  right := decide (¬x < 0 ∧ maximumX < x)
  top := decide (y < 0)
  bottom := decide (¬y < 0 ∧ maximumY < y)

/-- The end points of a line. -/
structure Line where
  x0 : Int
  y0 : Int
  x1 : Int
  y1 : Int

/-- The point that a round of `clip_line` moves an end to; `none` inside is a line that is rejected. -/
def clipPoint (maximumX maximumY : Int) (code : ClipCode) (line : Line) : Option (Option (Int × Int)) :=
  if code.top = true then
    if line.y1 = line.y0 then return none
    else do
      let moved ← multiplyDivide (← int64 (line.x1 - line.x0)) (← int64 (-line.y0)) (← int64 (line.y1 - line.y0))
      return some (← int64 (line.x0 + moved), 0)
  else if code.bottom = true then
    if line.y1 = line.y0 then return none
    else do
      let moved ← multiplyDivide (← int64 (line.x1 - line.x0)) (← int64 (maximumY - line.y0)) (← int64 (line.y1 - line.y0))
      return some (← int64 (line.x0 + moved), maximumY)
  else if code.right = true then
    if line.x1 = line.x0 then return none
    else do
      let moved ← multiplyDivide (← int64 (line.y1 - line.y0)) (← int64 (maximumX - line.x0)) (← int64 (line.x1 - line.x0))
      return some (maximumX, ← int64 (line.y0 + moved))
  else
    if line.x1 = line.x0 then return none
    else do
      let moved ← multiplyDivide (← int64 (line.y1 - line.y0)) (← int64 (-line.x0)) (← int64 (line.x1 - line.x0))
      return some (0, ← int64 (line.y0 + moved))

/-- The loop of `clip_line`: the line that is left, or `none` inside when it is rejected. -/
def clipRounds (maximumX maximumY : Int) : Nat → Line → ClipCode → ClipCode → Option (Option Line)
  | 0, _, _, _ => none
  | fuel + 1, line, code0, code1 =>
    if code0 = .inside ∧ code1 = .inside then return some line
    else if code0.Shares code1 then return none
    else do
      let code := if code0 ≠ .inside then code0 else code1
      match ← clipPoint maximumX maximumY code line with
      | none => return none
      | some (x, y) =>
        if code = code0 then clipRounds maximumX maximumY fuel { line with x0 := x, y0 := y } (lineClipCode x y maximumX maximumY) code1
        else clipRounds maximumX maximumY fuel { line with x1 := x, y1 := y } code0 (lineClipCode x y maximumX maximumY)

def clipLine (maximumX maximumY : Int) (fuel : Nat) (line : Line) : Option (Option Line) :=
  clipRounds maximumX maximumY fuel line (lineClipCode line.x0 line.y0 maximumX maximumY) (lineClipCode line.x1 line.y1 maximumX maximumY)

/-! ## Drawing -/

/-- `clipped_x0`, `clipped_y0` and `error`. -/
structure Pen where
  x : Int
  y : Int
  error : Int

/-- A round of the loop of `tabos_graphics_line` after its pixel. -/
def Pen.move (dx dy sx sy : Int) (pen : Pen) : Option Pen := do
  let twiceError ← int64 (pen.error * 2)
  let pen ←
    if twiceError ≥ dy then
      pure { pen with error := ← int64 (pen.error + dy), x := ← int64 (pen.x + sx) }
    else pure pen
  if twiceError ≤ dx then
    return { pen with error := ← int64 (pen.error + dx), y := ← int64 (pen.y + sy) }
  else return pen

/-- The loop of `tabos_graphics_line`: its result and the pixels that it has drawn. `answers` says which of the calls of
`tabos_graphics_pixel` succeed. -/
def drawRounds (answers : Nat → Bool) (line : Line) (dx dy sx sy : Int) : Nat → Nat → Pen → Option (Int × List (Int × Int))
  | 0, _, _ => none
  | fuel + 1, call, pen =>
    if answers call = false then return (-1, [(pen.x, pen.y)])
    else if pen.x = line.x1 ∧ pen.y = line.y1 then return (0, [(pen.x, pen.y)])
    else do
      let (result, pixels) ← drawRounds answers line dx dy sx sy fuel (call + 1) (← pen.move dx dy sx sy)
      return (result, (pen.x, pen.y) :: pixels)

/-- The part of `tabos_graphics_line` that follows the clipping. -/
def drawLine (answers : Nat → Bool) (fuel : Nat) (line : Line) : Option (Int × List (Int × Int)) := do
  let dx ← int64 (if line.x1 ≥ line.x0 then line.x1 - line.x0 else line.x0 - line.x1)
  let sx := if line.x0 < line.x1 then 1 else -1
  let dy ← int64 (if line.y1 ≥ line.y0 then line.y0 - line.y1 else line.y1 - line.y0)
  let sy := if line.y0 < line.y1 then 1 else -1
  drawRounds answers line dx dy sx sy fuel 0 ⟨line.x0, line.y0, ← int64 (dx + dy)⟩

/-- `maximum_x` and `maximum_y`. -/
def maximum (size : BitVec 32) : Int := if (size - 1).toNat > 2147483647 then 2147483647 else (size - 1).toNat

/-- `tabos_graphics_line` on a valid canvas of this width and height. -/
def tabosGraphicsLine (answers : Nat → Bool) (fuel : Nat) (width height x0 y0 x1 y1 : BitVec 32) : Option (Int × List (Int × Int)) :=
  if width = 0 ∨ height = 0 then return (0, [])
  else do
    match ← clipLine (maximum width) (maximum height) fuel ⟨x0.toInt, y0.toInt, x1.toInt, y1.toInt⟩ with
    | none => return (0, [])
    | some line => drawLine answers fuel line

/-! ## Checked arithmetic that fits -/

theorem int64_eq {value : Int} (hlow : -9223372036854775808 ≤ value) (hhigh : value < 9223372036854775808) : int64 value = some value :=
  if_pos ⟨hlow, hhigh⟩

theorem magnitude_eq {value : Int} (hlow : -9223372036854775808 < value) (hhigh : value < 9223372036854775808) :
    magnitude value = some value.natAbs := by
  unfold magnitude
  split
  · rw [int64_eq (by omega) (by omega), Option.map_some]
    congr 1
    omega
  · congr 1
    omega

/-- The sign of a product and of a quotient. -/
theorem negative_iff (value numerator denominator : Int) :
    if ((decide (value < 0) != decide (numerator < 0)) != decide (denominator < 0)) = true then
      (value * numerator).tdiv denominator ≤ 0
    else 0 ≤ (value * numerator).tdiv denominator := by
  have hproduct : if (decide (value < 0) != decide (numerator < 0)) = true then value * numerator ≤ 0 else 0 ≤ value * numerator := by
    by_cases hvalue : value < 0 <;> by_cases hnumerator : numerator < 0
    · simpa [hvalue, hnumerator] using Int.mul_nonneg_of_nonpos_of_nonpos hvalue.le hnumerator.le
    · simpa [hvalue, hnumerator] using Int.mul_nonpos_of_nonpos_of_nonneg hvalue.le (by omega)
    · simpa [hvalue, hnumerator] using Int.mul_nonpos_of_nonneg_of_nonpos (by omega) hnumerator.le
    · simpa [hvalue, hnumerator] using Int.mul_nonneg (by omega) (by omega)
  generalize value * numerator = product at hproduct ⊢
  generalize (decide (value < 0) != decide (numerator < 0)) = negative at hproduct ⊢
  by_cases hdenominator : denominator < 0 <;> cases negative
  · simpa [hdenominator] using Int.tdiv_nonpos_of_nonneg_of_nonpos hproduct hdenominator.le
  · simpa [hdenominator] using Int.tdiv_nonneg_of_nonpos_of_nonpos hproduct hdenominator.le
  · simpa [hdenominator] using Int.tdiv_nonneg hproduct (by omega)
  · have hopposite := Int.tdiv_nonneg (show 0 ≤ -product by simpa using hproduct) (show 0 ≤ denominator by omega)
    rw [Int.neg_tdiv] at hopposite
    simpa [hdenominator] using (show product.tdiv denominator ≤ 0 by omega)

/-- The quotient is truncated. -/
theorem multiplyDivide_eq {value numerator denominator : Int} (hvalue : value.natAbs < 4294967296)
    (hdenominator : denominator.natAbs < 4294967296) (hless : numerator.natAbs ≤ denominator.natAbs) (hzero : denominator ≠ 0) :
    multiplyDivide value numerator denominator = some ((value * numerator).tdiv denominator) := by
  have hproduct : value.natAbs * numerator.natAbs ≤ 4294967295 * 4294967295 := Nat.mul_le_mul (by omega) (by omega)
  have hquotient : value.natAbs * numerator.natAbs / denominator.natAbs ≤ value.natAbs :=
    Nat.div_le_of_le_mul (by rw [Nat.mul_comm]; exact Nat.mul_le_mul_right _ hless)
  have habs : ((value * numerator).tdiv denominator).natAbs = value.natAbs * numerator.natAbs / denominator.natAbs := by
    rw [Int.natAbs_tdiv, Int.natAbs_mul]
    rfl
  have hsign := negative_iff value numerator denominator
  unfold multiplyDivide
  rw [magnitude_eq (by omega) (by omega), magnitude_eq (by omega) (by omega), magnitude_eq (by omega) (by omega)]
  simp only [Option.bind_eq_bind, Option.bind_some, uint64]
  rw [if_pos (by omega), Option.bind_some, if_neg (by omega), int64_eq (by omega) (by omega), Option.bind_some]
  split
  · rename_i hnegative
    rw [if_pos hnegative] at hsign
    rw [int64_eq (by omega) (by omega)]
    congr 1
    omega
  · rename_i hnegative
    rw [if_neg hnegative] at hsign
    refine congrArg some ?_
    omega

/-- A value of `int32_t`. -/
def Small (value : Int) : Prop := -2147483648 ≤ value ∧ value < 2147483648

/-- A round computes the truncated crossing. -/
theorem cut_eq {β : Type} {a c b d m : Int} (ha₀ : Small a) (ha₁ : Small c) (hb₀ : Small b) (hb₁ : Small d) (ha : a ≠ c)
    (hm : m ∈ Set.uIcc a c) (f : Int → Option β) :
    (do
      let span ← int64 (d - b)
      let part ← int64 (m - a)
      let whole ← int64 (c - a)
      let moved ← multiplyDivide span part whole
      let value ← int64 (b + moved)
      f value) = f (interpolate a c b d m) := by
  have hmem := interpolate_mem (b := b) (d := d) ha hm
  unfold interpolate at hmem
  rw [Set.mem_uIcc] at hm hmem
  unfold Small at ha₀ ha₁ hb₀ hb₁
  simp only [Option.bind_eq_bind]
  rw [int64_eq (by omega) (by omega), int64_eq (by omega) (by omega), int64_eq (by omega) (by omega), Option.bind_some,
    Option.bind_some, Option.bind_some, multiplyDivide_eq (by omega) (by omega) (by omega) (by omega), Option.bind_some,
    int64_eq (by omega) (by omega), Option.bind_some]
  rfl

end Sdk
end TabOS
