import Mathlib.Control.Monad.Basic
import Mathlib.Data.List.Range

/-!
# Programs that may be refused or go wrong

A program runs on a state. It returns a value, or it is refused with an error of its own, or it goes wrong, which is what a
memory access outside its bounds does. `Meets` says of a program and a state that it does not go wrong, and what holds when it
returns or is refused; its rules take a program apart from the front.
-/

namespace Library

/-- How a program ends. -/
inductive Ending (ε σ α : Type*) where
  | wrong
  | refused (error : ε) (state : σ)
  | done (value : α) (state : σ)

/-- The value of a program that returns. -/
def Ending.value? {ε σ α : Type*} : Ending ε σ α → Option α
  | .done value _ => some value
  | _ => none

/-- The state that a program leaves, returning or refused. -/
def Ending.state? {ε σ α : Type*} : Ending ε σ α → Option σ
  | .wrong => none
  | .refused _ state => some state
  | .done _ state => some state

/-- A program that has a value returns it. -/
theorem Ending.eq_done_of_value? {ε σ α : Type*} {ending : Ending ε σ α} {value : α} (h : ending.value? = some value) :
    ∃ state, ending = .done value state := by
  cases ending with
  | wrong => nomatch h
  | refused error state => nomatch h
  | done value' state =>
    obtain rfl := Option.some.inj h
    exact ⟨state, rfl⟩

/-- A program on a state `σ` that returns an `α` or is refused with an `ε`. -/
def Program (ε σ α : Type*) := σ → Ending ε σ α

namespace Program

universe u

variable {ε σ : Type*} {α β : Type u}

/-- A program that returns a value and leaves the state. -/
def ret (value : α) : Program ε σ α := fun s => .done value s

/-- One program after another. -/
def next (x : Program ε σ α) (f : α → Program ε σ β) : Program ε σ β := fun s =>
  match x s with
  | .wrong => .wrong
  | .refused error t => .refused error t
  | .done value t => f value t

/-- A program that is refused. -/
def refuse (error : ε) : Program ε σ α := fun s => .refused error s

/-- A program whose refusal another one takes over. -/
def caught (x : Program ε σ α) (f : ε → Program ε σ α) : Program ε σ α := fun s =>
  match x s with
  | .wrong => .wrong
  | .refused error t => f error t
  | .done value t => .done value t

/-- A program that goes wrong. -/
def goWrong : Program ε σ α := fun _ => .wrong

/-- A program that changes the state. -/
def modify (f : σ → σ) : Program ε σ Unit := fun s => .done () (f s)

/-- A program that reads the state. -/
def observe (f : σ → α) : Program ε σ α := fun s => .done (f s) s

instance : Monad (Program ε σ) where
  pure := ret
  bind := next

instance : LawfulMonad (Program ε σ) := by
  refine LawfulMonad.mk' _ ?_ ?_ ?_
  · intro α x
    funext s
    show next x _ s = x s
    unfold next
    cases x s <;> rfl
  · intro α β value f
    rfl
  · intro α β γ x f g
    funext s
    show next (next x f) g s = next x (fun value => next (f value) g) s
    unfold next
    cases x s <;> rfl

/-- From this state the program does not go wrong; its value and state meet `Q`, or its error and state meet `E`. -/
def Meets (x : Program ε σ α) (s : σ) (Q : α → σ → Prop) (E : ε → σ → Prop) : Prop :=
  match x s with
  | .wrong => False
  | .refused error t => E error t
  | .done value t => Q value t

variable {s : σ} {Q : α → σ → Prop} {E : ε → σ → Prop}

@[simp] theorem meets_pure (value : α) : (pure value : Program ε σ α).Meets s Q E ↔ Q value s := Iff.rfl

@[simp] theorem meets_refuse (error : ε) : (refuse error : Program ε σ α).Meets s Q E ↔ E error s := Iff.rfl

@[simp] theorem meets_goWrong : ¬(goWrong : Program ε σ α).Meets s Q E := id

@[simp] theorem meets_modify (f : σ → σ) {Q : Unit → σ → Prop} :
    (modify f : Program ε σ Unit).Meets s Q E ↔ Q () (f s) := Iff.rfl

@[simp] theorem meets_observe (f : σ → α) : (observe f : Program ε σ α).Meets s Q E ↔ Q (f s) s := Iff.rfl

@[simp] theorem meets_bind (x : Program ε σ α) (f : α → Program ε σ β) {Q : β → σ → Prop} :
    (x >>= f).Meets s Q E ↔ x.Meets s (fun value t => (f value).Meets t Q E) E := by
  show Meets (next x f) s Q E ↔ _
  unfold Meets next
  cases x s <;> exact Iff.rfl

@[simp] theorem meets_caught (x : Program ε σ α) (f : ε → Program ε σ α) :
    (caught x f).Meets s Q E ↔ x.Meets s Q fun error t => (f error).Meets t Q E := by
  unfold Meets caught
  cases x s <;> exact Iff.rfl

theorem Meets.mono {x : Program ε σ α} {Q' : α → σ → Prop} {E' : ε → σ → Prop} (h : x.Meets s Q E)
    (hQ : ∀ value t, Q value t → Q' value t) (hE : ∀ error t, E error t → E' error t) : x.Meets s Q' E' := by
  unfold Meets at h ⊢
  cases hx : x s with
  | wrong =>
    rw [hx] at h
    exact h
  | refused error t =>
    rw [hx] at h
    exact hE error t h
  | done value t =>
    rw [hx] at h
    exact hQ value t h

/-- A program that does not go wrong reaches a state, and meets there what it is known to meet. -/
theorem Meets.and {x : Program ε σ α} {Q' : α → σ → Prop} {E' : ε → σ → Prop} (h : x.Meets s Q E) (h' : x.Meets s Q' E') :
    x.Meets s (fun value t => Q value t ∧ Q' value t) fun error t => E error t ∧ E' error t := by
  unfold Meets at h h' ⊢
  cases hx : x s with
  | wrong =>
    rw [hx] at h
    exact h
  | refused error t =>
    rw [hx] at h h'
    exact ⟨h, h'⟩
  | done value t =>
    rw [hx] at h h'
    exact ⟨h, h'⟩

/-- A condition that every ending decides in the same way. -/
theorem Meets.iff {x : Program ε σ α} {W : σ → Prop} {c : Prop} (h : x.Meets s (fun _ t => W t ↔ c) fun _ t => W t ↔ c) :
    (x.Meets s (fun _ t => W t) fun _ t => W t) ↔ c := by
  constructor
  · intro hW
    have hboth := h.and hW
    unfold Meets at hboth
    cases hx : x s with
    | wrong =>
      rw [hx] at hboth
      exact hboth.elim
    | refused error t =>
      rw [hx] at hboth
      exact hboth.1.1 hboth.2
    | done value t =>
      rw [hx] at hboth
      exact hboth.1.1 hboth.2
  · intro hc
    exact h.mono (fun _ _ ht => ht.2 hc) fun _ _ ht => ht.2 hc

/-- A program that returns a value returns it in a state that meets what it is known to meet. -/
theorem Meets.of_value? {x : Program ε σ α} (h : x.Meets s Q E) {value : α} (hx : (x s).value? = some value) :
    ∃ t, x s = .done value t ∧ Q value t := by
  obtain ⟨t, hdone⟩ := Ending.eq_done_of_value? hx
  unfold Meets at h
  rw [hdone] at h
  exact ⟨t, hdone, h⟩

/-- What every ending meets holds of the state that is left. -/
theorem Meets.of_state? {x : Program ε σ α} {W : σ → Prop} (h : x.Meets s (fun _ t => W t) fun _ t => W t) {t : σ}
    (hx : (x s).state? = some t) : W t := by
  unfold Meets at h
  cases hx' : x s with
  | wrong =>
    rw [hx'] at h
    exact h.elim
  | refused error t' =>
    rw [hx'] at h hx
    exact Option.some.inj hx ▸ h
  | done value t' =>
    rw [hx'] at h hx
    exact Option.some.inj hx ▸ h

/-- What a program that returns has met. -/
theorem Meets.of_done {x : Program ε σ α} (h : x.Meets s Q E) {value : α} {t : σ} (hx : x s = .done value t) : Q value t := by
  unfold Meets at h
  rw [hx] at h
  exact h

/-- A program that is known to return meets what holds there. -/
theorem meets_of_done {x : Program ε σ α} {value : α} {t : σ} (hx : x s = .done value t) : x.Meets s Q E ↔ Q value t := by
  unfold Meets
  rw [hx]

/-- What a program meets, together with how it returns. -/
theorem Meets.returning {x : Program ε σ α} (h : x.Meets s Q E) : x.Meets s (fun value t => Q value t ∧ x s = .done value t) E := by
  unfold Meets at h ⊢
  cases hx : x s with
  | wrong =>
    rw [hx] at h
    exact h
  | refused error t =>
    rw [hx] at h
    exact h
  | done value t =>
    rw [hx] at h
    exact ⟨h, rfl⟩

/-- A branch of a program. -/
theorem meets_ite {c : Prop} [Decidable c] {x y : Program ε σ α} (hx : c → x.Meets s Q E) (hy : ¬c → y.Meets s Q E) :
    (if c then x else y).Meets s Q E := by
  split
  · rename_i hc
    exact hx hc
  · rename_i hc
    exact hy hc

/-- A loop over the first numbers: the invariant holds at first and each round takes it to the next number. -/
theorem meets_foldlM_range {n : Nat} {f : β → Nat → Program ε σ β} {b : β} (I : Nat → β → σ → Prop) (h : I 0 b s)
    (hstep : ∀ i b t, i < n → I i b t → (f b i).Meets t (I (i + 1)) E) : ((List.range n).foldlM f b).Meets s (I n) E := by
  induction n with
  | zero => exact h
  | succ n ih =>
    rw [List.range_succ, List.foldlM_append, meets_bind]
    refine (ih fun i b t hi => hstep i b t (Nat.lt_succ_of_lt hi)).mono (fun b t hb => ?_) fun _ _ he => he
    rw [List.foldlM_cons, meets_bind]
    exact (hstep n b t (Nat.lt_succ_self n) hb).mono (fun _ _ hc => hc) fun _ _ he => he

/-- Loops whose rounds are equal. -/
theorem foldlM_congr {κ : Type*} {f g : β → κ → Program ε σ β} {l : List κ} (h : ∀ b, ∀ a ∈ l, f b a = g b a) (b : β) :
    l.foldlM f b = l.foldlM g b := by
  induction l generalizing b with
  | nil => rfl
  | cons a l ih =>
    have hrest : ∀ b', ∀ a' ∈ l, f b' a' = g b' a' := fun b' a' hmem => h b' a' (List.mem_cons_of_mem a hmem)
    rw [List.foldlM_cons, List.foldlM_cons, h b a List.mem_cons_self]
    exact bind_congr fun b' => ih hrest b'

/-! ## Steps of a loop given as data -/

/-- A round of a loop: nothing, a refusal, or a change of the state. -/
inductive Step (ε κ : Type*) where
  | skip
  | refuse (error : ε)
  | change (c : κ)

variable {κ : Type*}

/-- The program of a round, given what a change does. -/
def Step.run (act : κ → σ → σ) : Step ε κ → Program ε σ Unit
  | .skip => pure ()
  | .refuse error => Program.refuse error
  | .change c => modify (act c)

/-- The changes of a list of rounds up to the first refusal. -/
def changes : List (Step ε κ) → List κ
  | [] => []
  | .skip :: steps => changes steps
  | .refuse _ :: _ => []
  | .change c :: steps => c :: changes steps

theorem mem_of_mem_changes {steps : List (Step ε κ)} {c : κ} (h : c ∈ changes steps) : Step.change c ∈ steps := by
  induction steps with
  | nil => nomatch h
  | cons step steps ih =>
    cases step with
    | skip => exact List.mem_cons_of_mem _ (ih h)
    | refuse error => nomatch h
    | change c' =>
      rcases List.mem_cons.1 h with rfl | hmem
      · exact List.mem_cons_self
      · exact List.mem_cons_of_mem _ (ih hmem)

/-- Every change of the list comes after a refusal. -/
def ChangesRefused (steps : List (Step ε κ)) : Prop :=
  ∀ before c after, steps = before ++ .change c :: after → ∃ error, Step.refuse error ∈ before

/-- No change is made exactly when every change of the list comes after a refusal. -/
theorem changes_eq_nil_iff (steps : List (Step ε κ)) : changes steps = [] ↔ ChangesRefused steps := by
  induction steps with
  | nil => exact ⟨fun _ before c after h => by simp at h, fun _ => rfl⟩
  | cons step steps ih =>
    cases step with
    | skip =>
      refine ih.trans ⟨fun h before c after heq => ?_, fun h before c after heq => ?_⟩
      · cases before with
        | nil => simp at heq
        | cons first before =>
          obtain ⟨_, heq⟩ := List.cons.inj heq
          obtain ⟨error, hmem⟩ := h before c after heq
          exact ⟨error, List.mem_cons_of_mem _ hmem⟩
      · obtain ⟨error, hmem⟩ := h (.skip :: before) c after (congrArg _ heq)
        exact ⟨error, List.mem_of_ne_of_mem (by simp) hmem⟩
    | refuse error =>
      refine ⟨fun _ before c after heq => ?_, fun _ => rfl⟩
      cases before with
      | nil => simp at heq
      | cons first before => exact ⟨error, (List.cons.inj heq).1 ▸ List.mem_cons_self⟩
    | change c =>
      refine ⟨fun h => by simp [changes] at h, fun h => ?_⟩
      obtain ⟨error, hmem⟩ := h [] c steps rfl
      nomatch hmem

/-- A list without refusals makes all its changes. -/
theorem mem_changes_of_no_refuse {steps : List (Step ε κ)} (h : ∀ error, Step.refuse error ∉ steps) {c : κ}
    (hc : Step.change c ∈ steps) : c ∈ changes steps := by
  induction steps with
  | nil => nomatch hc
  | cons step steps ih =>
    have hrest : ∀ error, Step.refuse error ∉ steps := fun error hmem => h error (List.mem_cons_of_mem _ hmem)
    cases step with
    | skip => exact ih hrest (List.mem_of_ne_of_mem (by simp) hc)
    | refuse error => exact absurd List.mem_cons_self (h error)
    | change c' =>
      rcases List.mem_cons.1 hc with heq | hmem
      · exact List.mem_cons.2 (Or.inl (Step.change.inj heq))
      · exact List.mem_cons_of_mem _ (ih hrest hmem)

/-- A list of rounds makes its changes up to the first refusal, and returns if there is none. -/
theorem meets_steps (act : κ → σ → σ) (s : σ) (steps : List (Step ε κ)) :
    (steps.foldlM (fun _ (step : Step ε κ) => step.run act) ()).Meets s
      (fun _ t => t = (changes steps).foldl (fun t c => act c t) s ∧ ∀ error, Step.refuse error ∉ steps)
      (fun error t => t = (changes steps).foldl (fun t c => act c t) s ∧ Step.refuse error ∈ steps) := by
  induction steps generalizing s with
  | nil => exact ⟨rfl, fun _ => List.not_mem_nil⟩
  | cons step steps ih =>
    rw [List.foldlM_cons, meets_bind]
    cases step with
    | refuse error => exact ⟨rfl, List.mem_cons_self⟩
    | skip =>
      refine (ih s).mono ?_ ?_
      · rintro _ t ⟨ht, hnone⟩
        exact ⟨ht, fun error hmem => hnone error (List.mem_of_ne_of_mem (by simp) hmem)⟩
      · rintro error t ⟨ht, hmem⟩
        exact ⟨ht, List.mem_cons_of_mem _ hmem⟩
    | change c =>
      refine (ih (act c s)).mono ?_ ?_
      · rintro _ t ⟨ht, hnone⟩
        exact ⟨ht, fun error hmem => hnone error (List.mem_of_ne_of_mem (by simp) hmem)⟩
      · rintro error t ⟨ht, hmem⟩
        exact ⟨ht, List.mem_cons_of_mem _ hmem⟩

end Program
end Library
