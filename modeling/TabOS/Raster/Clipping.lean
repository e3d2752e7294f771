import TabOS.Raster.Line

/-!
# Clipping of lines

A round of `clip_line` moves an end of the line to an edge of the canvas. The first end is inside after two rounds, the second after two
more, unless the ends come to lie beyond one edge: the loop ends after five rounds at most, and no round overflows.
-/

namespace TabOS
namespace Sdk

open Library

/-- The ends are of `int32_t`. -/
structure Line.Fits (line : Line) : Prop where
  x0 : Small line.x0
  y0 : Small line.y0
  x1 : Small line.x1
  y1 : Small line.y1

/-- Another line lies between the ends of this one, in each coordinate. -/
structure Line.Holds (line line' : Line) : Prop where
  x0 : line'.x0 ∈ Set.uIcc line.x0 line.x1
  y0 : line'.y0 ∈ Set.uIcc line.y0 line.y1
  x1 : line'.x1 ∈ Set.uIcc line.x0 line.x1
  y1 : line'.y1 ∈ Set.uIcc line.y0 line.y1

theorem Line.Holds.refl (line : Line) : line.Holds line :=
  ⟨Set.left_mem_uIcc, Set.left_mem_uIcc, Set.right_mem_uIcc, Set.right_mem_uIcc⟩

theorem Line.Holds.trans {line line' line'' : Line} (h : line.Holds line') (h' : line'.Holds line'') : line.Holds line'' :=
  ⟨Set.uIcc_subset_uIcc h.x0 h.x1 h'.x0, Set.uIcc_subset_uIcc h.y0 h.y1 h'.y0, Set.uIcc_subset_uIcc h.x0 h.x1 h'.x1,
    Set.uIcc_subset_uIcc h.y0 h.y1 h'.y1⟩

theorem Small.of_mem {a b c : Int} (ha : Small a) (hb : Small b) (hc : c ∈ Set.uIcc a b) : Small c := by
  rw [Set.mem_uIcc] at hc
  unfold Small at ha hb ⊢
  omega

theorem Line.Fits.of_holds {line line' : Line} (h : line.Fits) (h' : line.Holds line') : line'.Fits :=
  ⟨h.x0.of_mem h.x1 h'.x0, h.y0.of_mem h.y1 h'.y0, h.x0.of_mem h.x1 h'.x1, h.y0.of_mem h.y1 h'.y1⟩

/-- A coordinate is one of the canvas. -/
def InRange (maximum value : Int) : Prop := 0 ≤ value ∧ value ≤ maximum

instance (maximum value : Int) : Decidable (InRange maximum value) := inferInstanceAs (Decidable (_ ∧ _))

/-- Both values are beyond the same end of a range. -/
def Beyond (maximum value value' : Int) : Prop := value < 0 ∧ value' < 0 ∨ maximum < value ∧ maximum < value'

section Clip

variable (maximumX maximumY : Int)

/-- Both ends are on the canvas. -/
def Line.Inside (line : Line) : Prop :=
  (InRange maximumX line.x0 ∧ InRange maximumY line.y0) ∧ InRange maximumX line.x1 ∧ InRange maximumY line.y1

/-- Both ends are beyond one edge. -/
def Line.Outside (line : Line) : Prop := Beyond maximumX line.x0 line.x1 ∨ Beyond maximumY line.y0 line.y1

/-- The point at which the line through it crosses the edge that an end is beyond. -/
def crossing (line : Line) (x y : Int) : Int × Int :=
  if y < 0 then (interpolate line.y0 line.y1 line.x0 line.x1 0, 0)
  else if maximumY < y then (interpolate line.y0 line.y1 line.x0 line.x1 maximumY, maximumY)
  else if maximumX < x then (maximumX, interpolate line.x0 line.x1 line.y0 line.y1 maximumX)
  else (0, interpolate line.x0 line.x1 line.y0 line.y1 0)

/-- The line with its first end moved to the crossing. -/
def Line.cutFirst (line : Line) : Line :=
  let point := crossing maximumX maximumY line line.x0 line.y0
  { line with x0 := point.1, y0 := point.2 }

/-- The line with its second end moved to the crossing. -/
def Line.cutSecond (line : Line) : Line :=
  let point := crossing maximumX maximumY line line.x1 line.y1
  { line with x1 := point.1, y1 := point.2 }

variable {maximumX maximumY : Int} {line : Line}

/-! ## Outcodes -/

theorem lineClipCode_eq_inside {x y : Int} :
    lineClipCode x y maximumX maximumY = .inside ↔ InRange maximumX x ∧ InRange maximumY y := by
  unfold lineClipCode ClipCode.inside InRange
  simp only [ClipCode.mk.injEq, decide_eq_false_iff_not]
  omega

theorem lineClipCode_shares (hX : 0 ≤ maximumX) (hY : 0 ≤ maximumY) :
    (lineClipCode line.x0 line.y0 maximumX maximumY).Shares (lineClipCode line.x1 line.y1 maximumX maximumY) ↔
      line.Outside maximumX maximumY := by
  unfold ClipCode.Shares lineClipCode Line.Outside Beyond
  simp only [Bool.or_eq_true, Bool.and_eq_true, decide_eq_true_eq]
  omega

/-! ## A round -/

/-- A point that a round computes for an end that is beyond an edge. -/
theorem clipPoint_eq (hX : Small maximumX ∧ 0 ≤ maximumX) (hY : Small maximumY ∧ 0 ≤ maximumY) (h : line.Fits)
    (hnot : ¬line.Outside maximumX maximumY) {x y : Int} (hend : x = line.x0 ∧ y = line.y0 ∨ x = line.x1 ∧ y = line.y1)
    (hout : ¬(InRange maximumX x ∧ InRange maximumY y)) :
    clipPoint maximumX maximumY (lineClipCode x y maximumX maximumY) line = some (some (crossing maximumX maximumY line x y)) := by
  unfold Line.Outside Beyond at hnot
  unfold InRange at hout
  have hneg (value : Int) : -value = 0 - value := (Int.zero_sub value).symm
  unfold clipPoint lineClipCode crossing
  by_cases htop : y < 0
  · simp only [htop, decide_true, if_true, hneg]
    rw [if_neg (by omega)]
    exact cut_eq h.y0 h.y1 h.x0 h.x1 (by omega) (Set.mem_uIcc.2 (by omega)) fun x => some (some (x, 0))
  by_cases hbottom : maximumY < y
  · simp only [htop, hbottom, decide_true, decide_false, Bool.false_eq_true, not_false_eq_true, true_and, if_true, if_false]
    rw [if_neg (by omega)]
    exact cut_eq h.y0 h.y1 h.x0 h.x1 (by omega) (Set.mem_uIcc.2 (by omega)) fun x => some (some (x, maximumY))
  by_cases hright : maximumX < x
  · have hleft : ¬x < 0 := by omega
    simp only [htop, hbottom, hleft, hright, decide_true, decide_false, Bool.false_eq_true, not_false_eq_true, and_false, true_and,
      if_true, if_false]
    rw [if_neg (by omega)]
    exact cut_eq h.x0 h.x1 h.y0 h.y1 (by omega) (Set.mem_uIcc.2 (by omega)) fun y => some (some (maximumX, y))
  · simp only [htop, hbottom, hright, decide_false, Bool.false_eq_true, and_false, if_false, hneg]
    rw [if_neg (by omega)]
    exact cut_eq h.x0 h.x1 h.y0 h.y1 (by omega) (Set.mem_uIcc.2 (by omega)) fun y => some (some (0, y))

/-- A crossing lies between the ends, and on the edge. -/
theorem crossing_mem (hX : 0 ≤ maximumX) (hY : 0 ≤ maximumY) (hnot : ¬line.Outside maximumX maximumY) {x y : Int}
    (hend : x = line.x0 ∧ y = line.y0 ∨ x = line.x1 ∧ y = line.y1) (hout : ¬(InRange maximumX x ∧ InRange maximumY y)) :
    ((crossing maximumX maximumY line x y).1 ∈ Set.uIcc line.x0 line.x1 ∧
        (crossing maximumX maximumY line x y).2 ∈ Set.uIcc line.y0 line.y1) ∧
      (InRange maximumY y → InRange maximumX (crossing maximumX maximumY line x y).1) ∧
      (¬InRange maximumY y → InRange maximumY (crossing maximumX maximumY line x y).2) := by
  unfold Line.Outside Beyond at hnot
  unfold InRange at hout ⊢
  unfold crossing
  by_cases htop : y < 0
  · have hm : (0 : Int) ∈ Set.uIcc line.y0 line.y1 := Set.mem_uIcc.2 (by omega)
    rw [if_pos htop]
    exact ⟨⟨interpolate_mem (by omega) hm, hm⟩, fun h => by omega, fun _ => ⟨Int.le_refl 0, hY⟩⟩
  by_cases hbottom : maximumY < y
  · have hm : maximumY ∈ Set.uIcc line.y0 line.y1 := Set.mem_uIcc.2 (by omega)
    rw [if_neg htop, if_pos hbottom]
    exact ⟨⟨interpolate_mem (by omega) hm, hm⟩, fun h => by omega, fun _ => ⟨hY, Int.le_refl _⟩⟩
  rw [if_neg htop, if_neg hbottom]
  by_cases hright : maximumX < x
  · have hm : maximumX ∈ Set.uIcc line.x0 line.x1 := Set.mem_uIcc.2 (by omega)
    rw [if_pos hright]
    exact ⟨⟨hm, interpolate_mem (by omega) hm⟩, fun _ => ⟨hX, Int.le_refl _⟩, fun h => by omega⟩
  · have hm : (0 : Int) ∈ Set.uIcc line.x0 line.x1 := Set.mem_uIcc.2 (by omega)
    rw [if_neg hright]
    exact ⟨⟨hm, interpolate_mem (by omega) hm⟩, fun _ => ⟨Int.le_refl 0, hX⟩, fun h => by omega⟩

/-! ## The loop -/

/-- The first end is on the canvas. -/
def Line.FirstInside (maximumX maximumY : Int) (line : Line) : Prop := InRange maximumX line.x0 ∧ InRange maximumY line.y0

theorem Line.FirstInside.not_outside (h : line.FirstInside maximumX maximumY) : ¬line.Outside maximumX maximumY := by
  unfold Line.FirstInside InRange at h
  unfold Line.Outside Beyond
  omega

theorem clipLine_done (h : line.Inside maximumX maximumY) (fuel : Nat) : clipLine maximumX maximumY (fuel + 1) line = some (some line) :=
  if_pos ⟨lineClipCode_eq_inside.2 h.1, lineClipCode_eq_inside.2 h.2⟩

theorem clipLine_outside (hX : 0 ≤ maximumX) (hY : 0 ≤ maximumY) (h : line.Outside maximumX maximumY) (fuel : Nat) :
    clipLine maximumX maximumY (fuel + 1) line = some none := by
  unfold clipLine clipRounds
  rw [if_neg, if_pos ((lineClipCode_shares hX hY).2 h)]
  · rfl
  · rintro ⟨hcode, -⟩
    exact Line.FirstInside.not_outside (lineClipCode_eq_inside.1 hcode) h

theorem clipLine_first (hX : Small maximumX ∧ 0 ≤ maximumX) (hY : Small maximumY ∧ 0 ≤ maximumY) (h : line.Fits)
    (hnot : ¬line.Outside maximumX maximumY) (hfirst : ¬line.FirstInside maximumX maximumY) (fuel : Nat) :
    clipLine maximumX maximumY (fuel + 1) line = clipLine maximumX maximumY fuel (line.cutFirst maximumX maximumY) := by
  have hcode : lineClipCode line.x0 line.y0 maximumX maximumY ≠ .inside := fun hcode => hfirst (lineClipCode_eq_inside.1 hcode)
  unfold clipLine
  rw [clipRounds, if_neg fun h => hcode h.1, if_neg fun h => hnot ((lineClipCode_shares hX.2 hY.2).1 h)]
  simp only [if_pos hcode, clipPoint_eq hX hY h hnot (Or.inl ⟨rfl, rfl⟩) hfirst, Option.bind_eq_bind, Option.bind_some, if_true]
  rfl

theorem clipLine_second (hX : Small maximumX ∧ 0 ≤ maximumX) (hY : Small maximumY ∧ 0 ≤ maximumY) (h : line.Fits)
    (hfirst : line.FirstInside maximumX maximumY) (hsecond : ¬(InRange maximumX line.x1 ∧ InRange maximumY line.y1)) (fuel : Nat) :
    clipLine maximumX maximumY (fuel + 1) line = clipLine maximumX maximumY fuel (line.cutSecond maximumX maximumY) := by
  have hnot := hfirst.not_outside
  have hcode0 : lineClipCode line.x0 line.y0 maximumX maximumY = .inside := lineClipCode_eq_inside.2 hfirst
  have hcode1 : lineClipCode line.x1 line.y1 maximumX maximumY ≠ .inside := fun hcode => hsecond (lineClipCode_eq_inside.1 hcode)
  unfold clipLine
  rw [clipRounds, if_neg fun h => hcode1 h.2, if_neg fun h => hnot ((lineClipCode_shares hX.2 hY.2).1 h)]
  simp only [if_neg (not_not.2 hcode0), clipPoint_eq hX hY h hnot (Or.inr ⟨rfl, rfl⟩) hsecond, Option.bind_eq_bind, Option.bind_some,
    if_neg (hcode0.symm ▸ hcode1)]
  rfl

theorem holds_cutFirst (hX : 0 ≤ maximumX) (hY : 0 ≤ maximumY) (hnot : ¬line.Outside maximumX maximumY)
    (hfirst : ¬line.FirstInside maximumX maximumY) :
    line.Holds (line.cutFirst maximumX maximumY) ∧
      (InRange maximumY line.y0 → InRange maximumX (line.cutFirst maximumX maximumY).x0) ∧
      (¬InRange maximumY line.y0 → InRange maximumY (line.cutFirst maximumX maximumY).y0) := by
  obtain ⟨⟨hx, hy⟩, hcolumn, hrow⟩ := crossing_mem hX hY hnot (Or.inl ⟨rfl, rfl⟩) hfirst
  exact ⟨⟨hx, hy, Set.right_mem_uIcc, Set.right_mem_uIcc⟩, hcolumn, hrow⟩

theorem holds_cutSecond (hX : 0 ≤ maximumX) (hY : 0 ≤ maximumY) (hfirst : line.FirstInside maximumX maximumY)
    (hsecond : ¬(InRange maximumX line.x1 ∧ InRange maximumY line.y1)) :
    line.Holds (line.cutSecond maximumX maximumY) ∧
      (InRange maximumY line.y1 → InRange maximumX (line.cutSecond maximumX maximumY).x1) ∧
      (¬InRange maximumY line.y1 → InRange maximumY (line.cutSecond maximumX maximumY).y1) := by
  obtain ⟨⟨hx, hy⟩, hcolumn, hrow⟩ := crossing_mem hX hY hfirst.not_outside (Or.inr ⟨rfl, rfl⟩) hsecond
  exact ⟨⟨Set.left_mem_uIcc, Set.left_mem_uIcc, hx, hy⟩, hcolumn, hrow⟩

theorem InRange.not_beyond {maximum a b : Int} (h : InRange maximum a) : ¬Beyond maximum a b := by
  unfold InRange at h
  unfold Beyond
  omega

/-- A value between two values in range. -/
theorem InRange.of_mem {maximum a b c : Int} (ha : InRange maximum a) (hb : InRange maximum b) (hc : c ∈ Set.uIcc a b) :
    InRange maximum c := by
  rw [Set.mem_uIcc] at hc
  unfold InRange at ha hb ⊢
  omega

/-- A value out of range that lies between one in range and another is beyond the end that the other is beyond. -/
theorem Beyond.of_mem {maximum a b c : Int} (ha : InRange maximum a) (hc : ¬InRange maximum c) (hmem : c ∈ Set.uIcc a b) :
    Beyond maximum c b := by
  rw [Set.mem_uIcc] at hmem
  unfold InRange at ha hc
  unfold Beyond
  omega

/-- `clip_line` accepts the line, and what is left of it is on the canvas and between its ends. -/
def Accepts (maximumX maximumY : Int) (fuel : Nat) (line : Line) : Prop :=
  ∃ line', clipLine maximumX maximumY fuel line = some (some line') ∧ line'.Inside maximumX maximumY ∧ line.Holds line'

theorem Accepts.of_cut {fuel : Nat} {line' : Line} (h : Accepts maximumX maximumY fuel line')
    (hstep : clipLine maximumX maximumY (fuel + 1) line = clipLine maximumX maximumY fuel line') (hholds : line.Holds line') :
    Accepts maximumX maximumY (fuel + 1) line := by
  obtain ⟨last, hlast, hinside, hholds'⟩ := h
  exact ⟨last, hstep.trans hlast, hinside, hholds.trans hholds'⟩

theorem accepts_inside (h : line.Inside maximumX maximumY) (fuel : Nat) : Accepts maximumX maximumY (fuel + 1) line :=
  ⟨line, clipLine_done h fuel, h, Line.Holds.refl line⟩

/-- Once the rows of both ends are in range, and the first end is inside, one round is left. -/
theorem accepts_of_row (hX : Small maximumX ∧ 0 ≤ maximumX) (hY : Small maximumY ∧ 0 ≤ maximumY) (h : line.Fits)
    (hfirst : line.FirstInside maximumX maximumY) (hrow : InRange maximumY line.y1) (fuel : Nat) :
    Accepts maximumX maximumY (fuel + 2) line := by
  by_cases hcolumn : InRange maximumX line.x1
  · exact accepts_inside ⟨hfirst, hcolumn, hrow⟩ (fuel + 1)
  · have hsecond : ¬(InRange maximumX line.x1 ∧ InRange maximumY line.y1) := fun h => hcolumn h.1
    obtain ⟨hholds, hcut, -⟩ := holds_cutSecond hX.2 hY.2 hfirst hsecond
    have hinside : (line.cutSecond maximumX maximumY).Inside maximumX maximumY :=
      ⟨hfirst, hcut hrow, hfirst.2.of_mem hrow hholds.y1⟩
    exact (accepts_inside hinside fuel).of_cut (clipLine_second hX hY h hfirst hsecond (fuel + 1)) hholds

/-- Once the first end is inside, the line is accepted. -/
theorem accepts_of_first (hX : Small maximumX ∧ 0 ≤ maximumX) (hY : Small maximumY ∧ 0 ≤ maximumY) (h : line.Fits)
    (hfirst : line.FirstInside maximumX maximumY) (fuel : Nat) : Accepts maximumX maximumY (fuel + 3) line := by
  by_cases hrow : InRange maximumY line.y1
  · exact accepts_of_row hX hY h hfirst hrow (fuel + 1)
  · have hsecond : ¬(InRange maximumX line.x1 ∧ InRange maximumY line.y1) := fun h => hrow h.2
    obtain ⟨hholds, -, hcut⟩ := holds_cutSecond hX.2 hY.2 hfirst hsecond
    exact (accepts_of_row hX hY (h.of_holds hholds) hfirst (hcut hrow) fuel).of_cut
      (clipLine_second hX hY h hfirst hsecond (fuel + 2)) hholds

/-- A line whose first end has its row in range is accepted, or its ends are beyond one edge, at once or after a round. -/
theorem accepts_or_outside_of_row (hX : Small maximumX ∧ 0 ≤ maximumX) (hY : Small maximumY ∧ 0 ≤ maximumY) (h : line.Fits)
    (hrow : InRange maximumY line.y0) (fuel : Nat) :
    Accepts maximumX maximumY (fuel + 4) line ∨ clipLine maximumX maximumY (fuel + 4) line = some none ∧
      (line.Outside maximumX maximumY ∨
        (¬line.Outside maximumX maximumY ∧ ¬line.FirstInside maximumX maximumY) ∧
          (line.cutFirst maximumX maximumY).Outside maximumX maximumY) := by
  by_cases hout : line.Outside maximumX maximumY
  · exact Or.inr ⟨clipLine_outside hX.2 hY.2 hout (fuel + 3), Or.inl hout⟩
  by_cases hfirst : line.FirstInside maximumX maximumY
  · exact Or.inl (accepts_of_first hX hY h hfirst (fuel + 1))
  obtain ⟨hholds, hcolumn, -⟩ := holds_cutFirst hX.2 hY.2 hout hfirst
  have hstep := clipLine_first hX hY h hout hfirst (fuel + 3)
  by_cases hrow' : InRange maximumY (line.cutFirst maximumX maximumY).y0
  · exact Or.inl ((accepts_of_first hX hY (h.of_holds hholds) ⟨hcolumn hrow, hrow'⟩ fuel).of_cut hstep hholds)
  · have hout' : (line.cutFirst maximumX maximumY).Outside maximumX maximumY :=
      Or.inr (Beyond.of_mem hrow hrow' hholds.y0)
    exact Or.inr ⟨hstep.trans (clipLine_outside hX.2 hY.2 hout' (fuel + 2)), Or.inr ⟨⟨hout, hfirst⟩, hout'⟩⟩

/-- What is known of a line that is rejected. -/
inductive Rejected (maximumX maximumY : Int) (line : Line) : Prop
  | outside (h : line.Outside maximumX maximumY)
  | once (hnot : ¬line.Outside maximumX maximumY) (hfirst : ¬line.FirstInside maximumX maximumY)
      (h : (line.cutFirst maximumX maximumY).Outside maximumX maximumY)
  | twice (hnot : ¬line.Outside maximumX maximumY) (hrow : ¬InRange maximumY line.y0)
      (hnot' : ¬(line.cutFirst maximumX maximumY).Outside maximumX maximumY)
      (hfirst : ¬(line.cutFirst maximumX maximumY).FirstInside maximumX maximumY)
      (h : ((line.cutFirst maximumX maximumY).cutFirst maximumX maximumY).Outside maximumX maximumY)

/-- Five rounds are enough. -/
theorem accepts_or_rejected (hX : Small maximumX ∧ 0 ≤ maximumX) (hY : Small maximumY ∧ 0 ≤ maximumY) (h : line.Fits) (fuel : Nat) :
    Accepts maximumX maximumY (fuel + 5) line ∨
      clipLine maximumX maximumY (fuel + 5) line = some none ∧ Rejected maximumX maximumY line := by
  by_cases hrow : InRange maximumY line.y0
  · rcases accepts_or_outside_of_row hX hY h hrow (fuel + 1) with hdone | ⟨hnone, hout | ⟨⟨hnot, hfirst⟩, hout⟩⟩
    · exact Or.inl hdone
    · exact Or.inr ⟨hnone, .outside hout⟩
    · exact Or.inr ⟨hnone, .once hnot hfirst hout⟩
  by_cases hout : line.Outside maximumX maximumY
  · exact Or.inr ⟨clipLine_outside hX.2 hY.2 hout (fuel + 4), .outside hout⟩
  have hfirst : ¬line.FirstInside maximumX maximumY := fun h => hrow h.2
  obtain ⟨hholds, -, hcut⟩ := holds_cutFirst hX.2 hY.2 hout hfirst
  have hstep := clipLine_first hX hY h hout hfirst (fuel + 4)
  rcases accepts_or_outside_of_row hX hY (h.of_holds hholds) (hcut hrow) fuel with hdone | ⟨hnone, hout' | ⟨⟨hnot', hfirst'⟩, hout'⟩⟩
  · exact Or.inl (hdone.of_cut hstep hholds)
  · exact Or.inr ⟨hstep.trans hnone, .once hout hfirst hout'⟩
  · exact Or.inr ⟨hstep.trans hnone, .twice hout hrow hnot' hfirst' hout'⟩

/-- A loop that has ended ends so with more fuel. -/
theorem clipRounds_add {fuel : Nat} {code0 code1 : ClipCode} {result : Option Line}
    (h : clipRounds maximumX maximumY fuel line code0 code1 = some result) (more : Nat) :
    clipRounds maximumX maximumY (fuel + more) line code0 code1 = some result := by
  induction fuel generalizing line code0 code1 with
  | zero => cases h
  | succ fuel ih =>
    rw [Nat.add_right_comm]
    unfold clipRounds at h ⊢
    by_cases hinside : code0 = .inside ∧ code1 = .inside
    · rw [if_pos hinside] at h ⊢
      exact h
    by_cases hshares : code0.Shares code1
    · rw [if_neg hinside, if_pos hshares] at h ⊢
      exact h
    rw [if_neg hinside, if_neg hshares] at h ⊢
    dsimp only at h ⊢
    generalize (if code0 ≠ .inside then code0 else code1) = code at h ⊢
    cases hpoint : clipPoint maximumX maximumY code line with
    | none =>
      simp only [hpoint, Option.bind_eq_bind, Option.bind_none] at h
      cases h
    | some point =>
      simp only [hpoint, Option.bind_eq_bind, Option.bind_some] at h ⊢
      cases point with
      | none => exact h
      | some point =>
        dsimp only at h ⊢
        split
        · rename_i hfirst
          rw [if_pos hfirst] at h
          exact ih h
        · rename_i hfirst
          rw [if_neg hfirst] at h
          exact ih h

end Clip

/-- The line between two points of `int32_t` coordinates. -/
def Line.between (x0 y0 x1 y1 : BitVec 32) : Line := ⟨x0.toInt, y0.toInt, x1.toInt, y1.toInt⟩

theorem small_toInt (value : BitVec 32) : Small value.toInt := ⟨BitVec.le_toInt value, BitVec.toInt_lt⟩

theorem Line.fits_between (x0 y0 x1 y1 : BitVec 32) : (Line.between x0 y0 x1 y1).Fits :=
  ⟨small_toInt x0, small_toInt y0, small_toInt x1, small_toInt y1⟩

theorem maximum_bounds (size : BitVec 32) : Small (maximum size) ∧ 0 ≤ maximum size := by
  unfold Small maximum
  split <;> omega

end Sdk
end TabOS
