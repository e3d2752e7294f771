import TabOS.Raster.Clipping
import Mathlib.Tactic.NormNum

/-!
# Lines that the clipping rejects

An end that a round moves is truncated towards the end that it replaces, so the exact crossing lies between the moved end and the other
end: a line that is rejected at once, or after one round, is not on the canvas. Two rounds on the first end move the line by less than a
pixel, and a line that is rejected after them may touch an outermost column.
-/

namespace TabOS
namespace Sdk

open Library

/-- The real segment between the ends of a line meets a rectangle. -/
def Line.Meets (line : Line) (left right top bottom : ℝ) : Prop :=
  ∃ t : ℝ, (0 ≤ t ∧ t ≤ 1) ∧ (left ≤ along line.x0 line.x1 t ∧ along line.x0 line.x1 t ≤ right) ∧
    (top ≤ along line.y0 line.y1 t ∧ along line.y0 line.y1 t ≤ bottom)

variable {maximumX maximumY : Int} {line : Line}

/-- A value between two values that are beyond one end of a range is out of it. -/
theorem Beyond.not_real {maximum a b : Int} (h : Beyond maximum a b) {w : ℝ} (hw : w ∈ Set.uIcc (a : ℝ) b) : ¬(0 ≤ w ∧ w ≤ maximum) := by
  rintro ⟨hlow, hhigh⟩
  rw [Set.mem_uIcc] at hw
  rcases h with ⟨ha, hb⟩ | ⟨ha, hb⟩
  · have ha' : (a : ℝ) < 0 := by exact_mod_cast ha
    have hb' : (b : ℝ) < 0 := by exact_mod_cast hb
    rcases hw with hw | hw <;> linarith
  · have ha' : (maximum : ℝ) < a := by exact_mod_cast ha
    have hb' : (maximum : ℝ) < b := by exact_mod_cast hb
    rcases hw with hw | hw <;> linarith

theorem Line.Outside.not_meets (h : line.Outside maximumX maximumY) : ¬line.Meets 0 maximumX 0 maximumY := by
  rintro ⟨t, ⟨ht₀, ht₁⟩, hx, hy⟩
  rcases h with h | h
  · exact h.not_real (along_mem_uIcc ht₀ ht₁) hx
  · exact h.not_real (along_mem_uIcc ht₀ ht₁) hy

/-- A value in range is past every value out of it. -/
theorem mem_uIcc_of_range {maximum a : Int} {w : ℝ} (hw : 0 ≤ w ∧ w ≤ maximum) :
    (a < 0 → ((0 : Int) : ℝ) ∈ Set.uIcc (a : ℝ) w) ∧ (maximum < a → (maximum : ℝ) ∈ Set.uIcc (a : ℝ) w) := by
  refine ⟨fun ha => Set.mem_uIcc.2 (Or.inl ⟨?_, ?_⟩), fun ha => Set.mem_uIcc.2 (Or.inr ⟨hw.2, ?_⟩)⟩
  · exact_mod_cast ha.le
  · exact_mod_cast hw.1
  · exact_mod_cast ha.le

/-- The part of a line that is on the canvas is between the crossing and the second end. -/
theorem along_mem_crossing (hX : 0 ≤ maximumX) (hY : 0 ≤ maximumY) (hnot : ¬line.Outside maximumX maximumY)
    (hfirst : ¬line.FirstInside maximumX maximumY) {t : ℝ} (ht₀ : 0 ≤ t) (ht₁ : t ≤ 1)
    (hx : 0 ≤ along line.x0 line.x1 t ∧ along line.x0 line.x1 t ≤ maximumX)
    (hy : 0 ≤ along line.y0 line.y1 t ∧ along line.y0 line.y1 t ≤ maximumY) :
    (¬InRange maximumY line.y0 → along line.x0 line.x1 t ∈ Set.uIcc ((line.cutFirst maximumX maximumY).x0 : ℝ) line.x1) ∧
      (InRange maximumY line.y0 → along line.y0 line.y1 t ∈ Set.uIcc ((line.cutFirst maximumX maximumY).y0 : ℝ) line.y1) := by
  unfold Line.Outside Beyond at hnot
  unfold Line.FirstInside InRange at hfirst
  unfold InRange Line.cutFirst crossing
  by_cases htop : line.y0 < 0
  · simp only [if_pos htop]
    exact ⟨fun _ => along_mem (by omega) (Set.mem_uIcc.2 (by omega)) ht₀ ht₁ ((mem_uIcc_of_range hy).1 htop), fun h => by omega⟩
  by_cases hbottom : maximumY < line.y0
  · simp only [if_neg htop, if_pos hbottom]
    exact ⟨fun _ => along_mem (by omega) (Set.mem_uIcc.2 (by omega)) ht₀ ht₁ ((mem_uIcc_of_range hy).2 hbottom), fun h => by omega⟩
  by_cases hright : maximumX < line.x0
  · simp only [if_neg htop, if_neg hbottom, if_pos hright]
    exact ⟨fun h => by omega, fun _ => along_mem (by omega) (Set.mem_uIcc.2 (by omega)) ht₀ ht₁ ((mem_uIcc_of_range hx).2 hright)⟩
  · simp only [if_neg htop, if_neg hbottom, if_neg hright]
    exact ⟨fun h => by omega,
      fun _ => along_mem (by omega) (Set.mem_uIcc.2 (by omega)) ht₀ ht₁ ((mem_uIcc_of_range hx).1 (by omega))⟩

/-- A line whose ends are beyond one edge after a round is not on the canvas. -/
theorem not_meets_of_cut (hX : 0 ≤ maximumX) (hY : 0 ≤ maximumY) (hnot : ¬line.Outside maximumX maximumY)
    (hfirst : ¬line.FirstInside maximumX maximumY) (h : (line.cutFirst maximumX maximumY).Outside maximumX maximumY) :
    ¬line.Meets 0 maximumX 0 maximumY := by
  rintro ⟨t, ⟨ht₀, ht₁⟩, hx, hy⟩
  obtain ⟨hcolumn, hrow⟩ := along_mem_crossing hX hY hnot hfirst ht₀ ht₁ hx hy
  obtain ⟨-, hcutX, hcutY⟩ := holds_cutFirst hX hY hnot hfirst
  by_cases hin : InRange maximumY line.y0
  · rcases h with h | h
    · exact absurd h (hcutX hin).not_beyond
    · exact h.not_real (hrow hin) hy
  · rcases h with h | h
    · exact h.not_real (hcolumn hin) hx
    · exact absurd h (hcutY hin).not_beyond

/-- The edge that a value is beyond. -/
def edge (maximum value : Int) : Int := if value < 0 then 0 else maximum

theorem crossing_of_row {x y : Int} (hrow : ¬InRange maximumY y) :
    crossing maximumX maximumY line x y =
      (interpolate line.y0 line.y1 line.x0 line.x1 (edge maximumY y), edge maximumY y) := by
  unfold InRange at hrow
  unfold crossing edge
  by_cases htop : y < 0
  · rw [if_pos htop, if_pos htop]
  · rw [if_neg htop, if_pos (by omega), if_neg htop]

theorem crossing_of_column (hX : 0 ≤ maximumX) {x y : Int} (hrow : InRange maximumY y) (hcolumn : ¬InRange maximumX x) :
    crossing maximumX maximumY line x y =
      (edge maximumX x, interpolate line.x0 line.x1 line.y0 line.y1 (edge maximumX x)) := by
  unfold InRange at hrow hcolumn
  unfold crossing edge
  rw [if_neg (by omega), if_neg (by omega)]
  by_cases hleft : x < 0
  · rw [if_neg (by omega), if_pos hleft]
  · rw [if_pos (by omega), if_neg hleft]

/-- The second of two rounds goes to the lower end of its range. -/
theorem along_lt_one {maximum a c b d : Int} {t : ℝ} (hmaximum : 0 ≤ maximum) (ha : ¬InRange maximum a)
    (hnot : ¬Beyond maximum a c) (hcut : interpolate a c b d (edge maximum a) < 0) (hb : 0 ≤ d)
    (hlast : Beyond maximum (interpolate (interpolate a c b d (edge maximum a)) d (edge maximum a) c 0) c)
    (hmem : interpolate (interpolate a c b d (edge maximum a)) d (edge maximum a) c 0 ∈ Set.uIcc (edge maximum a) c)
    (hw : 0 ≤ along a c t ∧ along a c t ≤ maximum) : along b d t < 1 := by
  unfold InRange at ha
  unfold Beyond at hnot hlast
  rw [Set.mem_uIcc] at hmem
  by_cases htop : a < 0
  · have hedge : edge maximum a = 0 := if_pos htop
    rw [hedge] at hcut hlast hmem
    exact along_lt_of_cut_twice htop (by omega) hmaximum hcut hb (by omega) hw.1 hw.2
  · have hedge : edge maximum a = maximum := if_neg htop
    rw [hedge] at hcut hlast hmem
    have hcut' : interpolate (maximum - a) (maximum - c) b d 0 = interpolate a c b d maximum := by
      have hreflect := interpolate_reflect_line (a := a) (c := c) (b := b) (d := d) (m := maximum) maximum
      rwa [Int.sub_self] at hreflect
    have hlast' : interpolate (interpolate a c b d maximum) d 0 (maximum - c) 0 =
        maximum - interpolate (interpolate a c b d maximum) d maximum c 0 := by
      rw [← interpolate_reflect_value maximum, Int.sub_self]
    refine along_lt_of_cut_twice (a := maximum - a) (c := maximum - c) (n := maximum) (by omega) (by omega) hmaximum ?_ hb ?_ ?_ ?_
    · rw [hcut']
      exact hcut
    · rw [hcut', hlast']
      omega
    · rw [along_reflect]
      linarith
    · rw [along_reflect]
      linarith

/-- A line that is rejected after two rounds on its first end meets the canvas only in its outermost columns. -/
theorem not_meets_of_cut_twice (hX : 0 ≤ maximumX) (hY : 0 ≤ maximumY) (hnot : ¬line.Outside maximumX maximumY)
    (hrow : ¬InRange maximumY line.y0) (hnot' : ¬(line.cutFirst maximumX maximumY).Outside maximumX maximumY)
    (hfirst : ¬(line.cutFirst maximumX maximumY).FirstInside maximumX maximumY)
    (h : ((line.cutFirst maximumX maximumY).cutFirst maximumX maximumY).Outside maximumX maximumY) :
    ¬line.Meets 1 (maximumX - 1) 0 maximumY := by
  obtain ⟨-, -, hcut⟩ := holds_cutFirst hX hY hnot fun h => hrow h.2
  obtain ⟨hholds, hcutX, -⟩ := holds_cutFirst hX hY hnot' hfirst
  have hrange := hcut hrow
  have hlast : Beyond maximumY ((line.cutFirst maximumX maximumY).cutFirst maximumX maximumY).y0 line.y1 := by
    rcases h with h | h
    · exact absurd h (hcutX hrange).not_beyond
    · exact h
  have hcolumn : ¬InRange maximumX (line.cutFirst maximumX maximumY).x0 := fun h => hfirst ⟨h, hrange⟩
  have hmem := hholds.y0
  unfold Line.cutFirst at hlast hmem hnot' hcolumn hrange
  simp only [crossing_of_row hrow] at hlast hmem hnot' hcolumn hrange
  rw [crossing_of_column hX hrange hcolumn] at hlast hmem
  dsimp only at hlast hmem
  have hnotY : ¬Beyond maximumY line.y0 line.y1 := fun h => hnot (Or.inr h)
  unfold Line.Outside at hnot'
  dsimp only at hnot' hcolumn
  rintro ⟨t, -, ⟨hleft, hright⟩, hrows⟩
  by_cases hbefore : interpolate line.y0 line.y1 line.x0 line.x1 (edge maximumY line.y0) < 0
  · have hedge : edge maximumX (interpolate line.y0 line.y1 line.x0 line.x1 (edge maximumY line.y0)) = 0 := if_pos hbefore
    rw [hedge] at hlast hmem
    have hside : 0 ≤ line.x1 := by
      unfold Beyond at hnot'
      omega
    have hless := along_lt_one hY hrow hnotY hbefore hside hlast hmem hrows
    linarith
  · have hedge : edge maximumX (interpolate line.y0 line.y1 line.x0 line.x1 (edge maximumY line.y0)) = maximumX := if_neg hbefore
    rw [hedge] at hlast hmem
    have hside : maximumX < interpolate line.y0 line.y1 line.x0 line.x1 (edge maximumY line.y0) ∧ line.x1 ≤ maximumX := by
      unfold InRange at hcolumn
      unfold Beyond at hnot'
      omega
    have hlast' := interpolate_reflect_line (a := interpolate line.y0 line.y1 line.x0 line.x1 (edge maximumY line.y0)) (c := line.x1)
      (b := edge maximumY line.y0) (d := line.y1) (m := maximumX) maximumX
    rw [Int.sub_self, ← interpolate_reflect_value maximumX] at hlast'
    rw [← hlast'] at hlast hmem
    have hless := along_lt_one (b := maximumX - line.x0) (d := maximumX - line.x1) hY hrow hnotY
      (by rw [interpolate_reflect_value]; omega) (by omega) hlast hmem hrows
    rw [along_reflect] at hless
    linarith

/-- A line that is rejected does not meet the canvas between its outermost columns, and it does not meet the canvas at all when the row of
its first end is one of the canvas. -/
theorem rejected_is_hidden (width height x0 y0 x1 y1 : BitVec 32) (fuel : Nat)
    (h : clipLine (maximum width) (maximum height) fuel (Line.between x0 y0 x1 y1) = some none) :
    ¬(Line.between x0 y0 x1 y1).Meets 1 (maximum width - 1) 0 (maximum height) ∧
      (0 ≤ y0.toInt ∧ y0.toInt ≤ maximum height → ¬(Line.between x0 y0 x1 y1).Meets 0 (maximum width) 0 (maximum height)) := by
  obtain ⟨hX, hX₀⟩ := maximum_bounds width
  obtain ⟨hY, hY₀⟩ := maximum_bounds height
  have hinner : (Line.between x0 y0 x1 y1).Meets 1 (maximum width - 1) 0 (maximum height) →
      (Line.between x0 y0 x1 y1).Meets 0 (maximum width) 0 (maximum height) := by
    rintro ⟨t, ht, ⟨hleft, hright⟩, hrows⟩
    exact ⟨t, ht, ⟨by linarith, by linarith⟩, hrows⟩
  rcases accepts_or_rejected ⟨hX, hX₀⟩ ⟨hY, hY₀⟩ (Line.fits_between x0 y0 x1 y1) fuel with ⟨line', haccepted, -⟩ | ⟨-, hrejected⟩
  · have hnone := clipRounds_add h 5
    unfold clipLine at haccepted
    rw [hnone] at haccepted
    cases haccepted
  · cases hrejected with
    | outside hout => exact ⟨fun h => hout.not_meets (hinner h), fun _ => hout.not_meets⟩
    | once hnot hfirst hout =>
      have hhidden := not_meets_of_cut hX₀ hY₀ hnot hfirst hout
      exact ⟨fun h => hhidden (hinner h), fun _ => hhidden⟩
    | twice hnot hrow hnot' hfirst hout =>
      exact ⟨not_meets_of_cut_twice hX₀ hY₀ hnot hrow hnot' hfirst hout, fun h => absurd h hrow⟩

/-- A line through the left column of a canvas of one by two pixels that is rejected. -/
def grazing : Line := Line.between (-2) (-8) 1 5

theorem clipLine_grazing : clipLine (maximum 1) (maximum 2) 5 grazing = some none := rfl

theorem rejected_is_hidden_grazing :
    ¬grazing.Meets 1 (maximum 1 - 1) 0 (maximum 2) ∧
      (0 ≤ (-8 : BitVec 32).toInt ∧ (-8 : BitVec 32).toInt ≤ maximum 2 → ¬grazing.Meets 0 (maximum 1) 0 (maximum 2)) :=
  rejected_is_hidden 1 2 (-2) (-8) 1 5 5 clipLine_grazing

theorem visible_line_rejected :
    ¬∀ (width height x0 y0 x1 y1 : BitVec 32) (fuel : Nat),
      clipLine (maximum width) (maximum height) fuel (Line.between x0 y0 x1 y1) = some none →
      ¬(Line.between x0 y0 x1 y1).Meets 0 (maximum width) 0 (maximum height) := by
  intro hall
  have hcolumn : along grazing.x0 grazing.x1 (2 / 3) = 0 := by
    rw [show grazing.x0 = -2 from rfl, show grazing.x1 = 1 from rfl]
    unfold along
    norm_num
  have hrow : along grazing.y0 grazing.y1 (2 / 3) = 2 / 3 := by
    rw [show grazing.y0 = -8 from rfl, show grazing.y1 = 5 from rfl]
    unfold along
    norm_num
  have hvisible : grazing.Meets 0 (maximum 1) 0 (maximum 2) := by
    refine ⟨2 / 3, ⟨by norm_num, by norm_num⟩, ?_, ?_⟩
    · rw [hcolumn, show maximum 1 = 0 from rfl]
      norm_num
    · rw [hrow, show maximum 2 = 1 from rfl]
      norm_num
  exact hall 1 2 (-2) (-8) 1 5 5 clipLine_grazing hvisible

end Sdk
end TabOS
