import Mathlib.Data.List.Basic

/-!
# Drawing over a picture

A picture is a function from places to colours, and a drawing is a function of pictures. A drawing is local to a region when it
leaves the places outside it and makes of every place something that depends on the colour of that place alone; it paints the
region when, besides, what it makes of a place inside does not depend on the picture at all.
-/

namespace Library

variable {α β ι : Type*} {R S : α → Prop} {f g : (α → β) → α → β}

/-- The drawing changes the region alone, place by place. -/
structure Local (R : α → Prop) (f : (α → β) → α → β) : Prop where
  outside : ∀ s a, ¬R a → f s a = s a
  pointwise : ∀ s s' a, s a = s' a → f s a = f s' a

/-- The drawing changes the region alone, whatever was there. -/
structure Paints (R : α → Prop) (f : (α → β) → α → β) : Prop where
  outside : ∀ s a, ¬R a → f s a = s a
  inside : ∀ s s' a, R a → f s a = f s' a

namespace Local

theorem id : Local R (fun s : α → β => s) := ⟨fun _ _ _ => rfl, fun _ _ _ h => h⟩

theorem mono (h : Local R f) (hRS : ∀ a, R a → S a) : Local S f :=
  ⟨fun s a ha => h.outside s a fun hR => ha (hRS a hR), h.pointwise⟩

/-- One drawing after another. -/
theorem comp (hg : Local R g) (hf : Local R f) : Local R (fun s => g (f s)) :=
  ⟨fun s a ha => (hg.outside _ a ha).trans (hf.outside s a ha),
    fun s s' a h => hg.pointwise _ _ a (hf.pointwise s s' a h)⟩

/-- A choice of two drawings. -/
theorem ite {c : Prop} [Decidable c] (hf : Local R f) (hg : Local R g) : Local R (fun s => if c then f s else g s) := by
  by_cases hc : c
  · simpa only [if_pos hc] using hf
  · simpa only [if_neg hc] using hg

/-- Drawings one after another. -/
theorem foldl {f : (α → β) → ι → α → β} {l : List ι} (h : ∀ i ∈ l, Local R fun s => f s i) :
    Local R (fun s => l.foldl f s) := by
  induction l with
  | nil => exact Local.id
  | cons i l ih =>
    obtain ⟨hi, hl⟩ := List.forall_mem_cons.1 h
    exact (ih hl).comp hi

end Local

namespace Paints

theorem isLocal (h : Paints R f) : Local R f := by
  refine ⟨h.outside, fun s s' a hs => ?_⟩
  by_cases ha : R a
  · exact h.inside s s' a ha
  · rw [h.outside s a ha, h.outside s' a ha, hs]

theorem congr (h : Paints R f) (hRS : ∀ a, R a ↔ S a) : Paints S f :=
  ⟨fun s a ha => h.outside s a fun hR => ha ((hRS a).1 hR), fun s s' a ha => h.inside s s' a ((hRS a).2 ha)⟩

/-- A drawing that is made under a condition. -/
theorem ite_self (h : Paints R f) (c : Prop) [Decidable c] : Paints (fun a => c ∧ R a) fun s => if c then f s else s := by
  by_cases hc : c
  · simp only [hc, true_and, if_true]
    exact h
  · simp only [hc, false_and, if_false]
    exact ⟨fun _ _ _ => rfl, fun _ _ _ ha => ha.elim⟩

/-- Drawing in a painted region keeps it painted. -/
theorem then_local (hf : Paints R f) (hg : Local R g) : Paints R (fun s => g (f s)) :=
  ⟨(hg.comp hf.isLocal).outside, fun s s' a ha => hg.pointwise _ _ a (hf.inside s s' a ha)⟩

/-- Painting a region covers what was drawn in it. -/
theorem absorb (hf : Paints R f) (hg : Local R g) (s : α → β) : f (g s) = f s := by
  funext a
  by_cases ha : R a
  · exact hf.inside _ _ a ha
  · rw [hf.outside _ a ha, hf.outside s a ha, hg.outside s a ha]

/-- Painting a region again changes nothing. -/
theorem idem (hf : Paints R f) (s : α → β) : f (f s) = f s := hf.absorb hf.isLocal s

/-- Painting regions one after another paints them all. -/
theorem foldl {R : ι → α → Prop} {f : (α → β) → ι → α → β} {l : List ι} (h : ∀ i ∈ l, Paints (R i) fun s => f s i) :
    Paints (fun a => ∃ i ∈ l, R i a) (fun s => l.foldl f s) := by
  have hlocal : Local (fun a => ∃ i ∈ l, R i a) (fun s => l.foldl f s) :=
    Local.foldl fun i hi => (h i hi).isLocal.mono fun _ ha => ⟨i, hi, ha⟩
  refine ⟨hlocal.outside, fun s s' a ha => ?_⟩
  clear hlocal
  induction l generalizing s s' with
  | nil =>
    obtain ⟨_, hi, _⟩ := ha
    nomatch hi
  | cons i l ih =>
    obtain ⟨hi, hl⟩ := List.forall_mem_cons.1 h
    rw [List.foldl_cons, List.foldl_cons]
    by_cases hrest : ∃ j ∈ l, R j a
    · exact ih hl _ _ hrest
    · obtain ⟨j, hj, hja⟩ := ha
      have hia : R i a := by
        rcases List.mem_cons.1 hj with rfl | hj
        · exact hja
        · exact absurd ⟨j, hj, hja⟩ hrest
      have hkeep : Local (fun _ => True) fun s => l.foldl f s :=
        Local.foldl fun k hk => (hl k hk).isLocal.mono fun _ _ => trivial
      exact hkeep.pointwise _ _ a (hi.inside s s' a hia)

end Paints

/-- A place that only one of the drawings changes has in the end the colour which that one gives it. -/
theorem foldl_range_apply {R : Nat → α → Prop} {f : (α → β) → Nat → α → β} {n i : Nat} {a : α}
    (h : ∀ j, j < n → Local (R j) fun s => f s j) (honly : ∀ j, j < n → j ≠ i → ¬R j a) (s : α → β) :
    (List.range n).foldl f s a = if i < n then f s i a else s a := by
  induction n with
  | zero => simp
  | succ n ih =>
    have hrest := ih (fun j hj => h j (Nat.lt_succ_of_lt hj)) fun j hj => honly j (Nat.lt_succ_of_lt hj)
    rw [List.range_succ, List.foldl_append, List.foldl_cons, List.foldl_nil]
    by_cases hin : n = i
    · subst hin
      rw [if_neg (Nat.lt_irrefl n)] at hrest
      rw [if_pos (Nat.lt_succ_self n)]
      exact (h n (Nat.lt_succ_self n)).pointwise _ _ a hrest
    · rw [(h n (Nat.lt_succ_self n)).outside _ a (honly n (Nat.lt_succ_self n) hin), hrest]
      by_cases hlt : i < n
      · rw [if_pos hlt, if_pos (Nat.lt_succ_of_lt hlt)]
      · rw [if_neg hlt, if_neg (by omega)]

end Library
