import TabOS.Raster.Clipping
import Mathlib.Tactic.Linarith

/-!
# Drawing of lines

Each round of the drawing loop takes one step along the longer side of the line and at most one along the shorter. The error stays so
close to nought that the last step along the one is also the last along the other, so the loop meets the second end.
-/

namespace TabOS
namespace Sdk

open Library

/-! ## The error -/

/-- After `major` steps along the longer side, of length `a`, and `minor` along the shorter, of length `b`, the error is this one and
within its bounds. -/
structure Near (a b major minor error : Int) : Prop where
  minor_nonneg : 0 ≤ minor
  minor_le_major : minor ≤ major
  eq : error = a * (minor + 1) - b * (major + 1)
  low : -b ≤ 2 * error
  high : 2 * error ≤ 3 * a - 2 * b

variable {a b major minor error : Int}

theorem near_start (hb : 0 ≤ b) (hle : b ≤ a) : Near a b 0 0 (a - b) :=
  ⟨Int.le_refl 0, Int.le_refl 0, by ring, by omega, by omega⟩

/-- The error asks for a step along the shorter side. -/
theorem Near.both (h : Near a b major minor error) (hle : b ≤ a) (hlow : 2 * error ≤ a) :
    Near a b (major + 1) (minor + 1) (error - b + a) := by
  obtain ⟨hminor, hless, heq, hbelow, habove⟩ := h
  refine ⟨by omega, by omega, ?_, by omega, by omega⟩
  rw [heq]
  ring

/-- The error asks for no step along the shorter side. -/
theorem Near.one (h : Near a b major minor error) (hb : 0 ≤ b) (hhigh : a < 2 * error) :
    Near a b (major + 1) minor (error - b) := by
  obtain ⟨hminor, hless, heq, hbelow, habove⟩ := h
  refine ⟨hminor, by omega, ?_, by omega, by omega⟩
  rw [heq]
  ring

/-- No more steps are taken along the shorter side than it has. -/
theorem Near.minor_le (h : Near a b major minor error) (hb : 0 ≤ b) (hmajor : major ≤ a) : minor ≤ b := by
  obtain ⟨hminor, hless, heq, -, habove⟩ := h
  by_contra hmore
  have hsteps : a * (b + 1) ≤ a * minor := Int.mul_le_mul_of_nonneg_left (by omega) (by omega)
  have hreach : b * major ≤ b * a := Int.mul_le_mul_of_nonneg_left hmajor hb
  have hpos : 0 < a := by omega
  nlinarith

/-- The last step along the longer side is the last along the shorter. -/
theorem Near.minor_eq (h : Near a b a minor error) (hb : 0 ≤ b) (hle : b ≤ a) : minor = b := by
  have hhigh := h.minor_le hb (Int.le_refl a)
  obtain ⟨hminor, hless, heq, hbelow, -⟩ := h
  by_contra hne
  have hsteps : a * (minor + 1) ≤ a * b := Int.mul_le_mul_of_nonneg_left (by omega) (by omega)
  have hnone : b ≤ 0 := by nlinarith
  omega

/-! ## The pen -/

/-- The lengths of the sides of a line. -/
def Line.spanX (line : Line) : Int := (line.x1 - line.x0).natAbs

def Line.spanY (line : Line) : Int := (line.y1 - line.y0).natAbs

/-- `sx` and `sy`. -/
def Line.stepX (line : Line) : Int := if line.x0 < line.x1 then 1 else -1

def Line.stepY (line : Line) : Int := if line.y0 < line.y1 then 1 else -1

/-- The pen after some rounds: it has gone `p` steps across and `q` down. -/
structure Reached (line : Line) (rounds : Nat) (pen : Pen) (p q : Int) : Prop where
  x : pen.x = line.x0 + line.stepX * p
  y : pen.y = line.y0 + line.stepY * q
  wide : line.spanY ≤ line.spanX → p = rounds ∧ Near line.spanX line.spanY p q pen.error
  tall : line.spanX < line.spanY → q = rounds ∧ Near line.spanY line.spanX q p (-pen.error)

variable {line : Line} {rounds : Nat} {pen : Pen} {p q : Int}

theorem span_nonneg (line : Line) : 0 ≤ line.spanX ∧ 0 ≤ line.spanY := by
  unfold Line.spanX Line.spanY
  omega

/-- A pen that has not gone past the longer side is in the box of the line. -/
theorem Reached.steps (h : Reached line rounds pen p q) (hrounds : (rounds : Int) ≤ max line.spanX line.spanY) :
    (0 ≤ p ∧ p ≤ line.spanX) ∧ 0 ≤ q ∧ q ≤ line.spanY := by
  obtain ⟨hX, hY⟩ := span_nonneg line
  rcases Int.lt_or_le line.spanX line.spanY with htall | hwide
  · obtain ⟨hq, hnear⟩ := h.tall htall
    have hp := hnear.minor_le hX (by omega)
    have hp₀ := hnear.minor_nonneg
    omega
  · obtain ⟨hp, hnear⟩ := h.wide hwide
    have hq := hnear.minor_le hY (by omega)
    have hq₀ := hnear.minor_nonneg
    omega

theorem step_mem {first last steps : Int} (hlow : 0 ≤ steps) (hhigh : steps ≤ (last - first).natAbs) :
    first + (if first < last then 1 else -1) * steps ∈ Set.uIcc first last := by
  rw [Set.mem_uIcc]
  split <;> omega

theorem Reached.mem (h : Reached line rounds pen p q) (hrounds : (rounds : Int) ≤ max line.spanX line.spanY) :
    pen.x ∈ Set.uIcc line.x0 line.x1 ∧ pen.y ∈ Set.uIcc line.y0 line.y1 := by
  obtain ⟨⟨hp₀, hp⟩, hq₀, hq⟩ := h.steps hrounds
  rw [h.x, h.y]
  exact ⟨step_mem hp₀ hp, step_mem hq₀ hq⟩

/-- The loop ends at the second end, after as many rounds as the longer side has steps. -/
theorem Reached.end_iff (h : Reached line rounds pen p q) (hrounds : (rounds : Int) ≤ max line.spanX line.spanY) :
    pen.x = line.x1 ∧ pen.y = line.y1 ↔ (rounds : Int) = max line.spanX line.spanY := by
  obtain ⟨hX, hY⟩ := span_nonneg line
  obtain ⟨⟨hp₀, hp⟩, hq₀, hq⟩ := h.steps hrounds
  have hx : pen.x = line.x1 ↔ p = line.spanX := by
    rw [h.x]
    unfold Line.stepX Line.spanX at *
    split <;> omega
  have hy : pen.y = line.y1 ↔ q = line.spanY := by
    rw [h.y]
    unfold Line.stepY Line.spanY at *
    split <;> omega
  rw [hx, hy]
  rcases Int.lt_or_le line.spanX line.spanY with htall | hwide
  · obtain ⟨hrow, hnear⟩ := h.tall htall
    constructor
    · omega
    · intro hall
      have hq' : q = line.spanY := by omega
      rw [hq'] at hnear
      exact ⟨hnear.minor_eq hX htall.le, hq'⟩
  · obtain ⟨hcolumn, hnear⟩ := h.wide hwide
    constructor
    · omega
    · intro hall
      have hp' : p = line.spanX := by omega
      rw [hp'] at hnear
      exact ⟨hp', hnear.minor_eq hY hwide⟩

/-- The start of the loop. -/
theorem reached_start (line : Line) : Reached line 0 ⟨line.x0, line.y0, line.spanX - line.spanY⟩ 0 0 := by
  obtain ⟨hX, hY⟩ := span_nonneg line
  refine ⟨by rw [Int.mul_zero, Int.add_zero], by rw [Int.mul_zero, Int.add_zero], fun hwide => ⟨rfl, near_start hY hwide⟩,
    fun htall => ⟨rfl, ?_⟩⟩
  rw [Int.neg_sub]
  exact near_start hX htall.le

/-- The ends are on a canvas. -/
structure Line.Bounded (line : Line) : Prop where
  x0 : 0 ≤ line.x0 ∧ line.x0 < 2147483648
  y0 : 0 ≤ line.y0 ∧ line.y0 < 2147483648
  x1 : 0 ≤ line.x1 ∧ line.x1 < 2147483648
  y1 : 0 ≤ line.y1 ∧ line.y1 < 2147483648

theorem Line.Bounded.spans (h : line.Bounded) : line.spanX < 2147483648 ∧ line.spanY < 2147483648 := by
  obtain ⟨hx0, hy0, hx1, hy1⟩ := h
  unfold Line.spanX Line.spanY
  omega

/-- What a round does to the pen. -/
theorem move_eq {dx dy sx sy : Int} (herror : -4294967296 ≤ pen.error ∧ pen.error ≤ 8589934592)
    (hdx : 0 ≤ dx ∧ dx < 2147483648) (hdy : -2147483648 < dy ∧ dy ≤ 0) (hx : 0 ≤ pen.x ∧ pen.x < 2147483648)
    (hy : 0 ≤ pen.y ∧ pen.y < 2147483648) (hsx : sx = 1 ∨ sx = -1) (hsy : sy = 1 ∨ sy = -1) :
    pen.move dx dy sx sy = some
      ⟨if pen.error * 2 ≥ dy then pen.x + sx else pen.x, if pen.error * 2 ≤ dx then pen.y + sy else pen.y,
        pen.error + (if pen.error * 2 ≥ dy then dy else 0) + if pen.error * 2 ≤ dx then dx else 0⟩ := by
  unfold Pen.move
  rw [int64_eq (by omega) (by omega)]
  have hcolumn := @int64_eq (pen.x + sx) (by omega) (by omega)
  have hrow := @int64_eq (pen.y + sy) (by omega) (by omega)
  have hdown := @int64_eq (pen.error + dy) (by omega) (by omega)
  have hup := @int64_eq (pen.error + dx) (by omega) (by omega)
  have hboth := @int64_eq (pen.error + dy + dx) (by omega) (by omega)
  simp only [Option.bind_eq_bind, Option.bind_some, Option.pure_def]
  by_cases hacross : pen.error * 2 ≥ dy <;> by_cases halong : pen.error * 2 ≤ dx
  · simp only [if_pos hacross, if_pos halong, hdown, hcolumn, hboth, hrow, Option.bind_some]
  · simp only [if_pos hacross, if_neg halong, hdown, hcolumn, Option.bind_some, Int.add_zero]
  · simp only [if_neg hacross, if_pos halong, hup, hrow, Option.bind_some, Int.add_zero]
  · simp only [if_neg hacross, if_neg halong, Int.add_zero]

/-- A round takes one step along the longer side. -/
theorem Reached.move (h : Reached line rounds pen p q) (hbounded : line.Bounded) (hrounds : (rounds : Int) < max line.spanX line.spanY) :
    ∃ pen' p' q', pen.move line.spanX (-line.spanY) line.stepX line.stepY = some pen' ∧ Reached line (rounds + 1) pen' p' q' := by
  obtain ⟨hX, hY⟩ := span_nonneg line
  obtain ⟨hwidth, hheight⟩ := hbounded.spans
  obtain ⟨hx, hy⟩ := h.mem hrounds.le
  obtain ⟨hx0, hy0, hx1, hy1⟩ := hbounded
  rw [Set.mem_uIcc] at hx hy
  have hstepX : line.stepX = 1 ∨ line.stepX = -1 := by
    unfold Line.stepX
    split <;> omega
  have hstepY : line.stepY = 1 ∨ line.stepY = -1 := by
    unfold Line.stepY
    split <;> omega
  have herror : -4294967296 ≤ pen.error ∧ pen.error ≤ 8589934592 := by
    rcases Int.lt_or_le line.spanX line.spanY with htall | hwide
    · have hlow := (h.tall htall).2.low
      have hhigh := (h.tall htall).2.high
      omega
    · have hlow := (h.wide hwide).2.low
      have hhigh := (h.wide hwide).2.high
      omega
  refine ⟨_, if pen.error * 2 ≥ -line.spanY then p + 1 else p, if pen.error * 2 ≤ line.spanX then q + 1 else q,
    move_eq herror ⟨hX, hwidth⟩ (by omega) (by omega) (by omega) hstepX hstepY, ?_, ?_, fun hwide => ?_, fun htall => ?_⟩
  · dsimp only
    rw [h.x]
    split
    · ring
    · rfl
  · dsimp only
    rw [h.y]
    split
    · ring
    · rfl
  · obtain ⟨hp, hnear⟩ := h.wide hwide
    have hacross : pen.error * 2 ≥ -line.spanY := by
      have hlow := hnear.low
      omega
    by_cases hdown : pen.error * 2 ≤ line.spanX
    · simp only [if_pos hacross, if_pos hdown]
      exact ⟨by omega, hnear.both hwide (by omega)⟩
    · simp only [if_pos hacross, if_neg hdown, Int.add_zero]
      exact ⟨by omega, hnear.one hY (by omega)⟩
  · obtain ⟨hq, hnear⟩ := h.tall htall
    have hdown : pen.error * 2 ≤ line.spanX := by
      have hlow := hnear.low
      omega
    by_cases hacross : pen.error * 2 ≥ -line.spanY
    · have hboth := hnear.both htall.le (by omega)
      rw [show -pen.error - line.spanX + line.spanY = -(pen.error + -line.spanY + line.spanX) by omega] at hboth
      simp only [if_pos hdown, if_pos hacross]
      exact ⟨by omega, hboth⟩
    · have hone := hnear.one hX (by omega)
      rw [show -pen.error - line.spanX = -(pen.error + 0 + line.spanX) by omega] at hone
      simp only [if_pos hdown, if_neg hacross]
      exact ⟨by omega, hone⟩

/-! ## The loop -/

/-- The pixels of a line from a pen on: they go from the pen to the second end. -/
structure Path (line : Line) (pen : Pen) (left : Nat) (path : List (Int × Int)) : Prop where
  length : path.length = left + 1
  first : path.head? = some (pen.x, pen.y)
  last : path.getLast? = some (line.x1, line.y1)
  within : ∀ point ∈ path, point.1 ∈ Set.uIcc line.x0 line.x1 ∧ point.2 ∈ Set.uIcc line.y0 line.y1

/-- What the loop does with the pixels of a path: it draws all of them, or those up to the first that is refused. -/
def Draws (answers : Nat → Bool) (call : Nat) (path : List (Int × Int)) (outcome : Option (Int × List (Int × Int))) : Prop :=
  ((∀ k < path.length, answers (call + k) = true) → outcome = some (0, path)) ∧
    ∀ k < path.length, (∀ j < k, answers (call + j) = true) → answers (call + k) = false → outcome = some (-1, path.take (k + 1))

variable {answers : Nat → Bool} {dx dy sx sy : Int} {call fuel : Nat}

theorem draws_last (hend : pen.x = line.x1 ∧ pen.y = line.y1) :
    Draws answers call [(pen.x, pen.y)] (drawRounds answers line dx dy sx sy (fuel + 1) call pen) := by
  unfold drawRounds
  refine ⟨fun hall => ?_, fun k hk _ hno => ?_⟩
  · have hyes : answers call = true := hall 0 Nat.zero_lt_one
    rw [if_neg (by rw [hyes]; decide), if_pos hend]
    rfl
  · obtain rfl : k = 0 := by
      rw [List.length_singleton] at hk
      omega
    rw [if_pos (show answers call = false from hno)]
    rfl

theorem draws_next {path : List (Int × Int)} {pen' : Pen} (hmore : ¬(pen.x = line.x1 ∧ pen.y = line.y1))
    (hmove : pen.move dx dy sx sy = some pen')
    (hrest : Draws answers (call + 1) path (drawRounds answers line dx dy sx sy fuel (call + 1) pen')) :
    Draws answers call ((pen.x, pen.y) :: path) (drawRounds answers line dx dy sx sy (fuel + 1) call pen) := by
  obtain ⟨hdone, hstopped⟩ := hrest
  unfold drawRounds
  refine ⟨fun hall => ?_, fun k hk hbefore hno => ?_⟩
  · have hyes : answers call = true := hall 0 (Nat.succ_pos _)
    have hrest := hdone fun k hk => by
      rw [Nat.add_right_comm, Nat.add_assoc]
      exact hall (k + 1) (Nat.succ_lt_succ hk)
    rw [if_neg (by rw [hyes]; decide), if_neg hmore, hmove]
    simp only [Option.bind_eq_bind, Option.bind_some, hrest]
    rfl
  · cases k with
    | zero =>
      rw [if_pos (show answers call = false from hno)]
      rfl
    | succ k =>
      have hyes : answers call = true := hbefore 0 (Nat.succ_pos _)
      have hrest := hstopped k (Nat.lt_of_succ_lt_succ hk)
        (fun j hj => by
          rw [Nat.add_right_comm, Nat.add_assoc]
          exact hbefore (j + 1) (Nat.succ_lt_succ hj))
        (by
          rw [Nat.add_right_comm, Nat.add_assoc]
          exact hno)
      rw [if_neg (by rw [hyes]; decide), if_neg hmore, hmove]
      simp only [Option.bind_eq_bind, Option.bind_some, hrest]
      rfl

theorem drawRounds_path (hbounded : line.Bounded) {left : Nat} (hleft : (rounds + left : Int) = max line.spanX line.spanY)
    (h : Reached line rounds pen p q) :
    ∃ path, Path line pen left path ∧ ∀ answers call fuel, left < fuel →
      Draws answers call path (drawRounds answers line line.spanX (-line.spanY) line.stepX line.stepY fuel call pen) := by
  induction left generalizing rounds pen p q with
  | zero =>
    obtain ⟨hx, hy⟩ := (h.end_iff (by omega)).2 (by omega)
    refine ⟨[(pen.x, pen.y)], ⟨rfl, rfl, ?_, ?_⟩, fun answers call fuel hfuel => ?_⟩
    · rw [List.getLast?_singleton, hx, hy]
    · intro point hmem
      rw [List.mem_singleton.1 hmem]
      exact h.mem (by omega)
    obtain ⟨fuel, rfl⟩ := Nat.exists_eq_add_of_lt hfuel
    exact draws_last ⟨hx, hy⟩
  | succ left ih =>
    have hmore : ¬(pen.x = line.x1 ∧ pen.y = line.y1) := by
      rw [h.end_iff (by omega)]
      omega
    obtain ⟨pen', p', q', hmove, hreached⟩ := h.move hbounded (by omega)
    obtain ⟨path, hpath, hdraws⟩ := ih (by push_cast; omega) hreached
    refine ⟨(pen.x, pen.y) :: path, ⟨?_, rfl, ?_, ?_⟩, fun answers call fuel hfuel => ?_⟩
    · rw [List.length_cons, hpath.length]
    · rw [List.getLast?_cons, hpath.last]
      rfl
    · intro point hmem
      rcases List.mem_cons.1 hmem with rfl | hmem
      · exact h.mem (by omega)
      · exact hpath.within point hmem
    · obtain ⟨fuel, rfl⟩ := Nat.exists_eq_add_of_lt hfuel
      exact draws_next hmore hmove (hdraws answers (call + 1) _ (by omega))

/-- The loop of a line on a canvas. -/
theorem drawLine_eq (hbounded : line.Bounded) (answers : Nat → Bool) (fuel : Nat) :
    drawLine answers fuel line = drawRounds answers line line.spanX (-line.spanY) line.stepX line.stepY fuel 0
      ⟨line.x0, line.y0, line.spanX - line.spanY⟩ := by
  obtain ⟨hwidth, hheight⟩ := hbounded.spans
  obtain ⟨hX, hY⟩ := span_nonneg line
  have hdx : (if line.x1 ≥ line.x0 then line.x1 - line.x0 else line.x0 - line.x1) = line.spanX := by
    unfold Line.spanX
    split <;> omega
  have hdy : (if line.y1 ≥ line.y0 then line.y0 - line.y1 else line.y1 - line.y0) = -line.spanY := by
    unfold Line.spanY
    split <;> omega
  unfold drawLine
  rw [hdx, hdy, int64_eq (by omega) (by omega), int64_eq (by omega) (by omega)]
  simp only [Option.bind_eq_bind, Option.bind_some]
  rw [int64_eq (by omega) (by omega), Option.bind_some]
  rfl

/-- The pixels of a line: one for each step along its longer side, and one more. -/
theorem drawLine_path (hbounded : line.Bounded) :
    ∃ path : List (Int × Int), (path.length = max (line.x1 - line.x0).natAbs (line.y1 - line.y0).natAbs + 1 ∧
        path.head? = some (line.x0, line.y0) ∧ path.getLast? = some (line.x1, line.y1) ∧
        ∀ point ∈ path, point.1 ∈ Set.uIcc line.x0 line.x1 ∧ point.2 ∈ Set.uIcc line.y0 line.y1) ∧
      ∀ answers fuel, path.length ≤ fuel → Draws answers 0 path (drawLine answers fuel line) := by
  have hleft : ((0 : Nat) + (max (line.x1 - line.x0).natAbs (line.y1 - line.y0).natAbs : Nat) : Int) = max line.spanX line.spanY := by
    unfold Line.spanX Line.spanY
    omega
  obtain ⟨path, hpath, hdraws⟩ := drawRounds_path hbounded hleft (reached_start line)
  refine ⟨path, ⟨hpath.length, hpath.first, hpath.last, hpath.within⟩, fun answers fuel hfuel => ?_⟩
  rw [drawLine_eq hbounded]
  rw [hpath.length] at hfuel
  exact hdraws answers 0 fuel hfuel

/-! ## Lines on a canvas -/

theorem bounded_of_inside {width height : BitVec 32} (h : line.Inside (maximum width) (maximum height)) : line.Bounded := by
  obtain ⟨⟨hX, -⟩, -⟩ := maximum_bounds width
  obtain ⟨⟨hx0, hy0⟩, hx1, hy1⟩ := h
  have hwidth := (maximum_bounds width).1.2
  have hheight := (maximum_bounds height).1.2
  unfold InRange at hx0 hy0 hx1 hy1
  exact ⟨by omega, by omega, by omega, by omega⟩

/-- A coordinate of the canvas is below its size. -/
theorem lt_of_inRange {size : BitVec 32} (hsize : size ≠ 0) {value : Int} (h : InRange (maximum size) value) :
    0 ≤ value ∧ value < size.toNat := by
  have hpos : 1 ≤ size.toNat := by
    rcases Nat.eq_zero_or_pos size.toNat with hzero | hpos
    · exact absurd (BitVec.eq_of_toNat_eq hzero) hsize
    · exact hpos
  have hpred : (size - 1).toNat = size.toNat - 1 := by
    rw [BitVec.toNat_sub_of_le]
    · rfl
    · exact hpos
  unfold InRange maximum at h
  rw [hpred] at h
  split at h <;> omega

/-- `tabos_graphics_line` after the clipping. -/
theorem tabosGraphicsLine_eq {width height x0 y0 x1 y1 : BitVec 32} (hwidth : width ≠ 0) (hheight : height ≠ 0) {fuel : Nat}
    {clipped : Option Line} (hclip : clipLine (maximum width) (maximum height) fuel (Line.between x0 y0 x1 y1) = some clipped)
    (answers : Nat → Bool) :
    tabosGraphicsLine answers fuel width height x0 y0 x1 y1 = clipped.elim (some (0, [])) (drawLine answers fuel) := by
  unfold tabosGraphicsLine
  unfold Line.between at hclip
  rw [if_neg (not_or.2 ⟨hwidth, hheight⟩), hclip]
  cases clipped <;> rfl

/-- A line is clipped without an overflow; what is left of it is on the canvas, and its pixels are drawn from end to end. -/
theorem line_is_drawn (width height x0 y0 x1 y1 : BitVec 32) :
    (width = 0 ∨ height = 0 → ∀ answers fuel, tabosGraphicsLine answers fuel width height x0 y0 x1 y1 = some (0, [])) ∧
    ∃ clipped : Option Line,
      (∀ fuel, clipLine (maximum width) (maximum height) (fuel + 5) (Line.between x0 y0 x1 y1) = some clipped) ∧
      (clipped = none → ∀ answers fuel, tabosGraphicsLine answers (fuel + 5) width height x0 y0 x1 y1 = some (0, [])) ∧
      ∀ line, clipped = some line →
        line.Inside (maximum width) (maximum height) ∧ (Line.between x0 y0 x1 y1).Holds line ∧
        (width ≠ 0 → height ≠ 0 → ∃ path : List (Int × Int),
          (path.length = max (line.x1 - line.x0).natAbs (line.y1 - line.y0).natAbs + 1 ∧
            path.head? = some (line.x0, line.y0) ∧ path.getLast? = some (line.x1, line.y1) ∧
            ∀ point ∈ path, (0 ≤ point.1 ∧ point.1 < width.toNat) ∧ 0 ≤ point.2 ∧ point.2 < height.toNat) ∧
          ∀ answers fuel, path.length ≤ fuel →
            Draws answers 0 path (tabosGraphicsLine answers (fuel + 5) width height x0 y0 x1 y1)) := by
  have hzero : width = 0 ∨ height = 0 → ∀ answers fuel, tabosGraphicsLine answers fuel width height x0 y0 x1 y1 = some (0, []) :=
    fun hzero answers fuel => if_pos hzero
  refine ⟨hzero, ?_⟩
  rcases accepts_or_rejected (maximum_bounds width) (maximum_bounds height) (Line.fits_between x0 y0 x1 y1) 0 with
    ⟨line, haccepted, hinside, hholds⟩ | ⟨hrejected, -⟩
  · have hclip (fuel : Nat) : clipLine (maximum width) (maximum height) (fuel + 5) (Line.between x0 y0 x1 y1) = some (some line) := by
      rw [Nat.add_comm]
      exact clipRounds_add haccepted fuel
    refine ⟨some line, hclip, fun h => (nomatch h), ?_⟩
    rintro _ ⟨⟩
    obtain ⟨path, ⟨hlength, hfirst, hlast, hwithin⟩, hdraws⟩ := drawLine_path (bounded_of_inside hinside)
    refine ⟨hinside, hholds, fun hwidth hheight =>
      ⟨path, ⟨hlength, hfirst, hlast, fun point hmem => ?_⟩, fun answers fuel hfuel => ?_⟩⟩
    · obtain ⟨hx, hy⟩ := hwithin point hmem
      exact ⟨lt_of_inRange hwidth (hinside.1.1.of_mem hinside.2.1 hx), lt_of_inRange hheight (hinside.1.2.of_mem hinside.2.2 hy)⟩
    · rw [tabosGraphicsLine_eq hwidth hheight (hclip fuel)]
      exact hdraws answers (fuel + 5) (by omega)
  · have hclip (fuel : Nat) : clipLine (maximum width) (maximum height) (fuel + 5) (Line.between x0 y0 x1 y1) = some none := by
      rw [Nat.add_comm]
      exact clipRounds_add hrejected fuel
    refine ⟨none, hclip, fun _ answers fuel => ?_, fun line h => nomatch h⟩
    by_cases hempty : width = 0 ∨ height = 0
    · exact hzero hempty answers _
    · obtain ⟨hwidth, hheight⟩ := not_or.1 hempty
      exact tabosGraphicsLine_eq hwidth hheight (hclip fuel) answers

theorem line_is_drawn_point :
    ∃ path : List (Int × Int), path.length = 1 ∧ ∀ answers fuel, path.length ≤ fuel →
      Draws answers 0 path (tabosGraphicsLine answers (fuel + 5) 4 4 2 1 2 1) := by
  obtain ⟨clipped, hclip, -, hdraws⟩ := (line_is_drawn 4 4 2 1 2 1).2
  obtain rfl : clipped = some ⟨2, 1, 2, 1⟩ := Option.some.inj ((hclip 0).symm.trans rfl)
  obtain ⟨-, -, hpath⟩ := hdraws ⟨2, 1, 2, 1⟩ rfl
  obtain ⟨path, ⟨hlength, -⟩, hpath⟩ := hpath (by decide) (by decide)
  exact ⟨path, hlength, hpath⟩

end Sdk
end TabOS
