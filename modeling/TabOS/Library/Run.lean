import Mathlib.Data.List.Basic

/-!
# Runs of a machine given as a function

A machine is a function `step : σ → α → σ` and a run is the fold of it over a list of inputs. `Along` says that a guard holds
of every state and input the run passes through, before the step is made. A guarded invariant holds at the end of every
guarded run, so, since every prefix of a guarded run is one, in every state the run reaches.
-/

namespace Library

variable {σ α : Type*}

/-- The guard holds before every step of the run. -/
def Along (step : σ → α → σ) (guard : σ → α → Prop) : σ → List α → Prop
  | _, [] => True
  | s, a :: as => guard s a ∧ Along step guard (step s a) as

variable {step : σ → α → σ} {guard : σ → α → Prop}

@[simp] theorem along_nil (s : σ) : Along step guard s [] := trivial

@[simp] theorem along_cons (s : σ) (a : α) (as : List α) :
    Along step guard s (a :: as) ↔ guard s a ∧ Along step guard (step s a) as := Iff.rfl

instance decidableAlong [∀ s a, Decidable (guard s a)] : ∀ s as, Decidable (Along step guard s as)
  | _, [] => isTrue trivial
  | s, a :: as => @instDecidableAnd _ _ _ (decidableAlong (step s a) as)

/-- A guarded run is a guarded run followed by a guarded run. -/
theorem along_append (s : σ) (as bs : List α) :
    Along step guard s (as ++ bs) ↔ Along step guard s as ∧ Along step guard (as.foldl step s) bs := by
  induction as generalizing s with
  | nil => simp
  | cons a as ih => simp only [List.cons_append, along_cons, List.foldl_cons, ih, and_assoc]

/-- A run guarded by a guard that always holds is any run. -/
theorem along_of_forall (h : ∀ s a, guard s a) (s : σ) (as : List α) : Along step guard s as := by
  induction as generalizing s with
  | nil => trivial
  | cons a as ih => exact ⟨h s a, ih _⟩

/-- A stronger guard is met along fewer runs. -/
theorem Along.mono {guard' : σ → α → Prop} (h : ∀ s a, guard s a → guard' s a) {s : σ} {as : List α}
    (hs : Along step guard s as) : Along step guard' s as := by
  induction as generalizing s with
  | nil => trivial
  | cons a as ih => exact ⟨h s a hs.1, ih hs.2⟩

/-- What every guarded step preserves holds at the end of every guarded run. -/
theorem Along.invariant (I : σ → Prop) (hstep : ∀ s a, I s → guard s a → I (step s a)) {s : σ} {as : List α}
    (hs : Along step guard s as) (h : I s) : I (as.foldl step s) := by
  induction as generalizing s with
  | nil => exact h
  | cons a as ih => exact ih hs.2 (hstep s a h hs.1)

/-- What every step preserves holds at the end of every run. -/
theorem foldl_invariant (I : σ → Prop) (hstep : ∀ s a, I s → I (step s a)) (as : List α) {s : σ} (h : I s) :
    I (as.foldl step s) := by
  have hs : Along step (fun _ _ => True) s as := along_of_forall (fun _ _ => trivial) s as
  exact hs.invariant I (fun s a hi _ => hstep s a hi) h

/-- Two runs over the same inputs stay related when every step keeps them related. -/
theorem foldl_related {τ : Type*} {step' : τ → α → τ} (R : σ → τ → Prop)
    (hstep : ∀ s t a, R s t → R (step s a) (step' t a)) (as : List α) {s : σ} {t : τ} (h : R s t) :
    R (as.foldl step s) (as.foldl step' t) := by
  induction as generalizing s t with
  | nil => exact h
  | cons a as ih => exact ih (hstep s t a h)

end Library
