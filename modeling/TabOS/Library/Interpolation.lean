import Mathlib.Data.Real.Basic
import Mathlib.Order.Interval.Set.UnorderedInterval
import Mathlib.Tactic.Linarith
import Mathlib.Tactic.Ring

/-!
# Interpolation with truncation

The value that a segment between two integer points has where it crosses a line of the grid, truncated towards the first of the two. It
lies between the ends of the segment, and between the first end and the exact value. Where the segment is cut there and cut again, the
second cut is one of a segment that has moved by less than one unit.
-/

namespace Library

/-- The other coordinate of the segment from `(a, b)` to `(c, d)` where the first one is `m`, truncated towards `b`. -/
def interpolate (a c b d m : Int) : Int := b + ((d - b) * (m - a)).tdiv (c - a)

/-- The value of a coordinate at `t` on a segment. -/
noncomputable def along (a c : Int) (t : ℝ) : ℝ := a + t * (c - a)

variable {a c b d m : Int} {t : ℝ}

/-! ## Symmetries -/

theorem interpolate_reflect_line (k : Int) : interpolate (k - a) (k - c) b d (k - m) = interpolate a c b d m := by
  unfold interpolate
  rw [show k - m - (k - a) = -(m - a) by omega, show k - c - (k - a) = -(c - a) by omega, Int.mul_neg, Int.neg_tdiv_neg]

theorem interpolate_reflect_value (k : Int) : interpolate a c (k - b) (k - d) m = k - interpolate a c b d m := by
  unfold interpolate
  rw [show k - d - (k - b) = -(d - b) by omega, Int.neg_mul, Int.neg_tdiv]
  omega

theorem along_reflect (k : Int) : along (k - a) (k - c) t = k - along a c t := by
  unfold along
  push_cast
  ring

/-! ## Bounds -/

/-- The truncated value of a rising segment that starts before the line. -/
theorem interpolate_bounds (ha : a < c) (hm : a ≤ m ∧ m ≤ c) (hb : b ≤ d) :
    b ≤ interpolate a c b d m ∧ interpolate a c b d m ≤ d ∧
      (interpolate a c b d m - b) * (c - a) ≤ (d - b) * (m - a) ∧
      (d - b) * (m - a) < (interpolate a c b d m - b + 1) * (c - a) := by
  have hd : 0 < c - a := by omega
  have hp : 0 ≤ (d - b) * (m - a) := Int.mul_nonneg (by omega) (by omega)
  have hq : interpolate a c b d m - b = (d - b) * (m - a) / (c - a) := by
    unfold interpolate
    rw [Int.tdiv_eq_ediv_of_nonneg hp]
    omega
  have hlow : 0 ≤ (d - b) * (m - a) / (c - a) := Int.ediv_nonneg hp hd.le
  have hhigh : (d - b) * (m - a) / (c - a) ≤ d - b :=
    Int.ediv_le_of_le_mul hd (Int.mul_le_mul_of_nonneg_left (by omega) (by omega))
  rw [← hq] at hlow hhigh
  refine ⟨by omega, by omega, ?_, ?_⟩
  · rw [hq]
    exact Int.ediv_mul_le _ hd.ne'
  · rw [hq]
    exact Int.lt_ediv_add_one_mul_self _ hd

/-- A property of the truncated value that reflections keep holds when it does of rising segments that start before the line. -/
theorem interpolate_induction {P : Int → Int → Int → Int → Int → Prop}
    (hline : ∀ a c b d m, P (0 - a) (0 - c) b d (0 - m) → P a c b d m)
    (hvalue : ∀ a c b d m, P a c (0 - b) (0 - d) m → P a c b d m)
    (hrising : ∀ a c b d m, a < c → a ≤ m ∧ m ≤ c → b ≤ d → P a c b d m) (ha : a ≠ c) (hm : m ∈ Set.uIcc a c) :
    P a c b d m := by
  have hforward : ∀ a c m, a < c → a ≤ m ∧ m ≤ c → P a c b d m := by
    intro a c m ha hm
    rcases Int.le_total b d with hb | hb
    · exact hrising _ _ _ _ _ ha hm hb
    · exact hvalue _ _ _ _ _ (hrising _ _ _ _ _ ha hm (by omega))
  rw [Set.mem_uIcc] at hm
  rcases Int.lt_or_gt_of_ne ha with hless | hless
  · exact hforward _ _ _ hless (by omega)
  · exact hline _ _ _ _ _ (hforward _ _ _ (by omega) (by omega))

/-- The truncated value lies between the ends. -/
theorem interpolate_mem (ha : a ≠ c) (hm : m ∈ Set.uIcc a c) : interpolate a c b d m ∈ Set.uIcc b d := by
  refine interpolate_induction (P := fun a c b d m => interpolate a c b d m ∈ Set.uIcc b d) ?_ ?_ ?_ ha hm
  · intro a c b d m h
    rwa [interpolate_reflect_line] at h
  · intro a c b d m h
    rw [interpolate_reflect_value] at h
    rw [Set.mem_uIcc] at h ⊢
    omega
  · intro a c b d m ha hm hb
    obtain ⟨hlow, hhigh, -, -⟩ := interpolate_bounds ha hm hb
    exact Set.mem_uIcc.2 (Or.inl ⟨hlow, hhigh⟩)

/-! ## The rest of the segment -/

theorem along_mem_uIcc (ht₀ : 0 ≤ t) (ht₁ : t ≤ 1) : along a c t ∈ Set.uIcc (a : ℝ) c := by
  unfold along
  rw [Set.mem_uIcc]
  rcases le_total (a : ℝ) c with h | h
  · have hlow : 0 ≤ t * ((c : ℝ) - a) := mul_nonneg ht₀ (by linarith)
    have hhigh : t * ((c : ℝ) - a) ≤ 1 * (c - a) := mul_le_mul_of_nonneg_right ht₁ (by linarith)
    exact Or.inl ⟨by linarith, by linarith⟩
  · have hlow : 0 ≤ t * ((a : ℝ) - c) := mul_nonneg ht₀ (by linarith)
    have hhigh : t * ((a : ℝ) - c) ≤ 1 * (a - c) := mul_le_mul_of_nonneg_right ht₁ (by linarith)
    exact Or.inr ⟨by linarith, by linarith⟩

/-- The part of a segment past the line lies between the truncated value and the second end. -/
theorem along_mem (ha : a ≠ c) (hm : m ∈ Set.uIcc a c) (ht₀ : 0 ≤ t) (ht₁ : t ≤ 1)
    (hpast : (m : ℝ) ∈ Set.uIcc (a : ℝ) (along a c t)) :
    along b d t ∈ Set.uIcc (interpolate a c b d m : ℝ) d := by
  refine interpolate_induction (P := fun a c b d m => (m : ℝ) ∈ Set.uIcc (a : ℝ) (along a c t) →
    along b d t ∈ Set.uIcc (interpolate a c b d m : ℝ) d) ?_ ?_ ?_ ha hm hpast
  · intro a c b d m h hpast
    rw [interpolate_reflect_line, along_reflect] at h
    refine h ?_
    push_cast
    rw [Set.mem_uIcc] at hpast ⊢
    rcases hpast with ⟨hlow, hhigh⟩ | ⟨hlow, hhigh⟩
    · exact Or.inr ⟨by linarith, by linarith⟩
    · exact Or.inl ⟨by linarith, by linarith⟩
  · intro a c b d m h hpast
    have hmem := h hpast
    rw [interpolate_reflect_value, along_reflect] at hmem
    push_cast at hmem
    rw [Set.mem_uIcc] at hmem ⊢
    rcases hmem with ⟨hlow, hhigh⟩ | ⟨hlow, hhigh⟩
    · exact Or.inr ⟨by linarith, by linarith⟩
    · exact Or.inl ⟨by linarith, by linarith⟩
  · intro a c b d m ha hm hb hpast
    obtain ⟨-, -, hbound, -⟩ := interpolate_bounds ha hm hb
    have ha' : (a : ℝ) < c := by exact_mod_cast ha
    have hb' : (b : ℝ) ≤ d := by exact_mod_cast hb
    have hbound' : ((interpolate a c b d m : ℝ) - b) * (c - a) ≤ (d - b) * (m - a) := by exact_mod_cast hbound
    have hreach : (m : ℝ) - a ≤ t * (c - a) := by
      have hforward : 0 ≤ t * ((c : ℝ) - a) := mul_nonneg ht₀ (by linarith)
      rw [Set.mem_uIcc] at hpast
      unfold along at hpast
      rcases hpast with ⟨hlow, hhigh⟩ | ⟨hlow, hhigh⟩
      · linarith
      · linarith
    refine Set.mem_uIcc.2 (Or.inl ⟨?_, ?_⟩)
    · have hscaled : ((interpolate a c b d m : ℝ) - b) * (c - a) ≤ t * (d - b) * (c - a) := by
        calc ((interpolate a c b d m : ℝ) - b) * (c - a) ≤ (d - b) * (m - a) := hbound'
          _ ≤ (d - b) * (t * (c - a)) := mul_le_mul_of_nonneg_left hreach (by linarith)
          _ = t * (d - b) * (c - a) := by ring
      have hless := le_of_mul_le_mul_right hscaled (by linarith)
      unfold along
      linarith
    · have hend : t * ((d : ℝ) - b) ≤ 1 * (d - b) := mul_le_mul_of_nonneg_right ht₁ (by linarith)
      unfold along
      linarith

/-- A segment that is cut at the line `0` before `0`, and that then comes to `0` past `n`, is before `1` up to `n`. -/
theorem along_lt_of_cut_twice {n : Int} (ha₀ : a < 0) (ha₁ : 0 ≤ c) (hn : 0 ≤ n) (hcut : interpolate a c b d 0 < 0) (hb₁ : 0 ≤ d)
    (hlate : n < interpolate (interpolate a c b d 0) d 0 c 0) (ht₀ : 0 ≤ along a c t)
    (ht₁ : along a c t ≤ n) : along b d t < 1 := by
  have hmem := interpolate_mem (b := b) (d := d) (show a ≠ c by omega) (m := 0) (Set.mem_uIcc.2 (Or.inl ⟨ha₀.le, ha₁⟩))
  rw [Set.mem_uIcc] at hmem
  obtain ⟨-, -, -, hnext⟩ := interpolate_bounds (b := b) (d := d) (show a < c by omega) (m := 0) ⟨ha₀.le, ha₁⟩ (by omega)
  generalize interpolate a c b d 0 = x at *
  obtain ⟨-, hlate', hreach, -⟩ := interpolate_bounds (b := 0) (d := c) (show x < d by omega) (m := 0) ⟨hcut.le, hb₁⟩ ha₁
  generalize interpolate x d 0 c 0 = y at *
  have hxb : (x : ℝ) < d := by exact_mod_cast (show x < d by omega)
  have hab : (a : ℝ) < c := by exact_mod_cast (show a < c by omega)
  have hpos : (0 : ℝ) < c := by exact_mod_cast (show 0 < c by omega)
  have hnext' : ((d : ℝ) - b) * (0 - a) < (x - b + 1) * (c - a) := by exact_mod_cast hnext
  have hreach' : ((y : ℝ) - 0) * (d - x) ≤ (c - 0) * (0 - x) := by exact_mod_cast hreach
  have hny : (n : ℝ) < y := by exact_mod_cast hlate
  have hya : (y : ℝ) ≤ c := by exact_mod_cast hlate'
  have hvalue : along b d t * (c - a) * c =
      ((d - b) * (0 - a) + b * (c - a)) * (c - along a c t) + d * (c - a) * along a c t := by
    unfold along
    ring
  generalize along a c t = w at *
  have hfirst : ((d - b) * (0 - a) + b * (c - a)) * (c - w) < ((x : ℝ) + 1) * (c - a) * (c - w) :=
    mul_lt_mul_of_pos_right (by linarith) (by linarith)
  have hmoved : (d - x) * w ≤ -(x : ℝ) * c := by
    have hheight : (d - x) * w ≤ ((d : ℝ) - x) * y := mul_le_mul_of_nonneg_left (by linarith) (by linarith)
    linarith
  have hsum : ((x : ℝ) * c + (d - x) * w + (c - w)) * (c - a) ≤ c * (c - a) :=
    mul_le_mul_of_nonneg_right (by linarith) (by linarith)
  have hscaled : along b d t * ((c - a) * c) < 1 * ((c - a) * c) := by
    calc along b d t * ((c - a) * c)
        = ((d - b) * (0 - a) + b * (c - a)) * (c - w) + d * (c - a) * w := by rw [← hvalue]; ring
      _ < ((x : ℝ) + 1) * (c - a) * (c - w) + d * (c - a) * w := by linarith
      _ = ((x : ℝ) * c + (d - x) * w + (c - w)) * (c - a) := by ring
      _ ≤ c * (c - a) := hsum
      _ = 1 * ((c - a) * c) := by ring
  exact lt_of_mul_lt_mul_right hscaled (mul_nonneg (by linarith) hpos.le)

end Library
