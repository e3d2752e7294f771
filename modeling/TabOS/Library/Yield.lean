import Mathlib.Data.List.Basic

/-!
# Work that yields

Work goes on in steps and asks between them whether it may go on. The answers are given by the number of the question. When an answer is
no, the work stops where it is: the steps that would follow change nothing, and nothing is asked any more.
-/

namespace Library

variable {σ ι : Type*} {answers : Nat → Bool} {P Q : σ → Prop}

/-- Work on a value: what there is of it, how often it asked, and whether it was stopped. -/
structure Work (σ : Type*) where
  value : σ
  asked : Nat
  stopped : Bool

namespace Work

/-- Work begins. -/
def start (value : σ) : Work σ := ⟨value, 0, false⟩

/-- A step of the work. -/
def act (w : Work σ) (f : σ → σ) : Work σ := if w.stopped = true then w else { w with value := f w.value }

/-- The work asks whether it may go on. -/
def ask (answers : Nat → Bool) (w : Work σ) : Work σ :=
  if w.stopped = true then w else { w with asked := w.asked + 1, stopped := !answers w.asked }

/-- The work meets `P` wherever it is, and `Q` too unless it was stopped. -/
structure Meets (P Q : σ → Prop) (w : Work σ) : Prop where
  always : P w.value
  done : w.stopped = false → Q w.value

theorem Meets.act {Q' : σ → Prop} {w : Work σ} (h : w.Meets P Q) {f : σ → σ} (hP : ∀ s, P s → Q s → P (f s))
    (hQ : ∀ s, P s → Q s → Q' (f s)) : (w.act f).Meets P Q' := by
  unfold Work.act
  cases hstopped : w.stopped with
  | true => exact ⟨h.always, fun hgo => absurd (hstopped.symm.trans hgo) (by simp)⟩
  | false => exact ⟨hP _ h.always (h.done hstopped), fun _ => hQ _ h.always (h.done hstopped)⟩

theorem Meets.ask {w : Work σ} (h : w.Meets P Q) : (w.ask answers).Meets P Q := by
  unfold Work.ask
  cases hstopped : w.stopped with
  | true => exact ⟨h.always, fun hgo => absurd (hstopped.symm.trans hgo) (by simp)⟩
  | false => exact ⟨h.always, fun _ => h.done hstopped⟩

theorem Meets.mono {Q' : σ → Prop} {w : Work σ} (h : w.Meets P Q) (hQ : ∀ s, P s → Q s → Q' s) : w.Meets P Q' :=
  ⟨h.always, fun hgo => hQ _ h.always (h.done hgo)⟩

/-- Steps one after another, where `Q` may speak of the steps that are still to come. -/
theorem Meets.foldl {Q : List ι → σ → Prop} {step : Work σ → ι → Work σ}
    (hstep : ∀ i l w, Meets P (Q (i :: l)) w → Meets P (Q l) (step w i)) (l : List ι) {w : Work σ} (h : w.Meets P (Q l)) :
    (l.foldl step w).Meets P (Q []) := by
  induction l generalizing w with
  | nil => exact h
  | cons i l ih => exact ih (hstep i l w h)

/-! ## Work that nothing stops -/

theorem act_stopped (w : Work σ) (f : σ → σ) : (w.act f).stopped = w.stopped := by
  unfold act
  split <;> rfl

theorem ask_stopped (w : Work σ) : (w.ask fun _ => true).stopped = w.stopped := by
  unfold ask
  split
  · rfl
  · rename_i hgo
    exact (Bool.eq_false_iff.2 hgo).symm

theorem foldl_stopped {step : Work σ → ι → Work σ} (h : ∀ w i, (step w i).stopped = w.stopped) (l : List ι) (w : Work σ) :
    (l.foldl step w).stopped = w.stopped := by
  induction l generalizing w with
  | nil => rfl
  | cons i l ih => exact (ih (step w i)).trans (h w i)

end Work

end Library
