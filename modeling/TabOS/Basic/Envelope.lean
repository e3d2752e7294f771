import TabOS.Basic.Sid
import Mathlib.Data.List.Iterate
import Mathlib.Logic.Function.Iterate

/-!
# The envelope of a voice

The envelope and the stage of a voice go on by themselves from sample to sample. An attack rises to the full value, a decay falls to the
sustain level, and a release falls until the voice is off.
-/

namespace TabOS
namespace Sid

open Library

/-- An envelope and its stage. -/
abbrev Contour := Nat × Stage

def Voice.contour (voice : Voice) : Contour := (voice.envelope, voice.stage)

/-- The steps that the tables have. -/
structure Steps.Valid (steps : Steps) : Prop where
  attack : 1 ≤ steps.attack ∧ steps.attack ≤ 65535
  decay : 1 ≤ steps.decay ∧ steps.decay ≤ 65535
  sustain : steps.sustain ≤ 65535
  release : 1 ≤ steps.release ∧ steps.release ≤ 65535

/-- An envelope at the next sample. -/
def advance (steps : Steps) : Contour → Contour
  | (envelope, .attack) => if 65535 - envelope ≤ steps.attack then (65535, .decay) else (envelope + steps.attack, .attack)
  | (envelope, .decay) =>
    if envelope ≤ steps.sustain + steps.decay then (steps.sustain, .sustain) else (envelope - steps.decay, .decay)
  | (_, .sustain) => (steps.sustain, .sustain)
  | (envelope, .release) => if envelope ≤ steps.release then (0, .off) else (envelope - steps.release, .release)
  | (envelope, .off) => (envelope, .off)

variable {steps : Steps} {c : Contour} {envelope : Nat}

/-- Updating an envelope overflows nowhere. -/
theorem updateEnvelope_eq (h : steps.Valid) {voice : Voice} (hvoice : voice.envelope ≤ 65535) :
    updateEnvelope steps voice =
      some { voice with envelope := (advance steps voice.contour).1, stage := (advance steps voice.contour).2 } := by
  obtain ⟨hattack, hdecay, hsustain, hrelease⟩ := h
  obtain ⟨phase, noise, envelope, stage, gate⟩ := voice
  dsimp only at hvoice
  cases stage with
  | attack =>
    have hleft : uint32 (65535 - (envelope : Int)) = some (65535 - envelope) := uint32_eq (by omega) (by omega)
    have hsum : uint32 ((envelope : Int) + steps.attack) = some (envelope + steps.attack) := uint32_eq (by omega) (by omega)
    simp only [updateEnvelope, Voice.contour, advance, hleft, hsum, Option.bind_eq_bind, Option.bind_some]
    split <;> rfl
  | decay =>
    have hlimit : uint32 ((steps.sustain : Int) + steps.decay) = some (steps.sustain + steps.decay) :=
      uint32_eq (by omega) (by omega)
    simp only [updateEnvelope, Voice.contour, advance, hlimit, Option.bind_eq_bind, Option.bind_some]
    split
    · rfl
    · have hleft : uint32 ((envelope : Int) - steps.decay) = some (envelope - steps.decay) := uint32_eq (by omega) (by omega)
      rw [hleft]
      rfl
  | sustain => rfl
  | release =>
    simp only [updateEnvelope, Voice.contour, advance]
    split
    · rfl
    · have hleft : uint32 ((envelope : Int) - steps.release) = some (envelope - steps.release) :=
        uint32_eq (by omega) (by omega)
      rw [hleft]
      rfl
  | off => rfl

/-- An envelope stays within 16 bits. -/
theorem advance_le (h : steps.Valid) (hc : c.1 ≤ 65535) : (advance steps c).1 ≤ 65535 := by
  obtain ⟨envelope, stage⟩ := c
  cases stage with
  | attack =>
    simp only [advance]
    split
    · exact Nat.le_refl _
    · dsimp only at hc ⊢
      omega
  | decay =>
    simp only [advance]
    split
    · exact h.sustain
    · exact (Nat.sub_le _ _).trans hc
  | sustain => exact h.sustain
  | release =>
    simp only [advance]
    split
    · exact Nat.zero_le _
    · exact (Nat.sub_le _ _).trans hc
  | off => exact hc

/-- The gate of a voice tells its stages apart. -/
def Stage.Gated : Stage → Prop
  | .attack | .decay | .sustain => True
  | .release | .off => False

theorem advance_gated : (advance steps c).2.Gated ↔ c.2.Gated := by
  obtain ⟨envelope, stage⟩ := c
  cases stage <;> simp only [advance] <;> (try split) <;> rfl

/-! ## Attack, decay and sustain -/

theorem attack_reaches (h : steps.Valid) (hle : envelope ≤ 65535) :
    ∃ n, (advance steps)^[n + 1] (envelope, .attack) = (65535, .decay) := by
  induction hleft : 65535 - envelope using Nat.strong_induction_on generalizing envelope with
  | _ left ih =>
    by_cases hlast : 65535 - envelope ≤ steps.attack
    · exact ⟨0, if_pos hlast⟩
    · have hstep : advance steps (envelope, .attack) = (envelope + steps.attack, .attack) := if_neg hlast
      have hattack := h.attack
      obtain ⟨n, hn⟩ := ih (65535 - (envelope + steps.attack)) (by omega) (by omega) rfl
      refine ⟨n + 1, ?_⟩
      rw [Function.iterate_succ_apply, hstep]
      exact hn

theorem decay_reaches (h : steps.Valid) :
    ∃ n, (advance steps)^[n + 1] (envelope, .decay) = (steps.sustain, .sustain) := by
  induction envelope using Nat.strong_induction_on with
  | _ envelope ih =>
    by_cases hlast : envelope ≤ steps.sustain + steps.decay
    · exact ⟨0, if_pos hlast⟩
    · have hstep : advance steps (envelope, .decay) = (envelope - steps.decay, .decay) := if_neg hlast
      have hdecay := h.decay
      obtain ⟨n, hn⟩ := ih (envelope - steps.decay) (by omega)
      refine ⟨n + 1, ?_⟩
      rw [Function.iterate_succ_apply, hstep]
      exact hn

theorem sustain_stays (n : Nat) : (advance steps)^[n] (steps.sustain, .sustain) = (steps.sustain, .sustain) :=
  Function.iterate_fixed rfl n

/-- An attack reaches the full value, and later the sustain level, which it keeps. -/
theorem attack_sustains (h : steps.Valid) (hle : envelope ≤ 65535) :
    ∃ i j, i < j ∧ (advance steps)^[i + 1] (envelope, .attack) = (65535, .decay) ∧
      ∀ k, j ≤ k → (advance steps)^[k + 1] (envelope, .attack) = (steps.sustain, .sustain) := by
  obtain ⟨i, hi⟩ := attack_reaches h hle
  obtain ⟨n, hn⟩ := @decay_reaches _ 65535 h
  refine ⟨i, i + 1 + n, by omega, hi, fun k hk => ?_⟩
  have hsplit : k + 1 = (k - (i + 1 + n)) + ((n + 1) + (i + 1)) := by omega
  rw [hsplit, Function.iterate_add_apply, Function.iterate_add_apply _ (n + 1), hi, hn, sustain_stays]

/-! ## Release -/

/-- The most samples until a voice is off. -/
def remaining (c : Contour) : Nat := if c.2 = .off then 0 else c.1 + 1

theorem advance_released (h : steps.Valid) (hc : ¬c.2.Gated) :
    (advance steps c).1 ≤ c.1 ∧ remaining (advance steps c) ≤ remaining c - 1 := by
  have hrelease := h.release
  obtain ⟨envelope, stage⟩ := c
  cases stage with
  | attack | decay | sustain => exact absurd trivial hc
  | off => exact ⟨Nat.le_refl envelope, Nat.zero_le _⟩
  | release =>
    by_cases hlast : envelope ≤ steps.release
    · have hstep : advance steps (envelope, .release) = (0, .off) := if_pos hlast
      rw [hstep]
      exact ⟨Nat.zero_le _, Nat.zero_le _⟩
    · have hstep : advance steps (envelope, .release) = (envelope - steps.release, .release) := if_neg hlast
      rw [hstep]
      refine ⟨Nat.sub_le _ _, ?_⟩
      change envelope - steps.release + 1 ≤ envelope + 1 - 1
      omega

/-- Some values fall from a first one, and no lower than to a last one. -/
structure Falls (first : Nat) (values : List Nat) (last : Nat) : Prop where
  descending : (first :: values).Pairwise (· ≥ ·)
  above : ∀ value ∈ first :: values, last ≤ value

theorem Falls.nil {first last : Nat} (h : last ≤ first) : Falls first [] last :=
  ⟨List.pairwise_singleton _ _, fun _ hvalue => List.mem_singleton.mp hvalue ▸ h⟩

theorem Falls.append {first middle last : Nat} {values more : List Nat} (h : Falls first values middle) (hmore : Falls middle more last) :
    Falls first (values ++ more) last := by
  obtain ⟨hmiddle, hrest⟩ := List.pairwise_cons.mp hmore.descending
  have hlast : last ≤ middle := hmore.above middle List.mem_cons_self
  refine ⟨?_, fun value hvalue => ?_⟩
  · rw [← List.cons_append, List.pairwise_append]
    exact ⟨h.descending, hrest, fun a ha b hb => (hmiddle b hb).trans (h.above a ha)⟩
  · rw [← List.cons_append] at hvalue
    rcases List.mem_append.mp hvalue with hvalue | hvalue
    · exact hlast.trans (h.above value hvalue)
    · exact hmore.above value (List.mem_cons_of_mem _ hvalue)

/-- A voice without its gate falls until it is off. -/
theorem released_falls (h : steps.Valid) (hc : ¬c.2.Gated) (n : Nat) :
    Falls c.1 ((List.iterate (advance steps) (advance steps c) n).map Prod.fst) ((advance steps)^[n] c).1 ∧
      remaining ((advance steps)^[n] c) ≤ remaining c - n := by
  induction n generalizing c with
  | zero => exact ⟨Falls.nil (Nat.le_refl _), Nat.le_refl _⟩
  | succ n ih =>
    obtain ⟨hfall, hremaining⟩ := advance_released h hc
    obtain ⟨hfalls, hleft⟩ := ih (c := advance steps c) fun hgated => hc (advance_gated.mp hgated)
    refine ⟨?_, ?_⟩
    · have hfirst : Falls c.1 [(advance steps c).1] (advance steps c).1 := by
        refine ⟨List.pairwise_pair.mpr hfall, fun value hvalue => ?_⟩
        rcases List.mem_cons.mp hvalue with rfl | hvalue
        · exact hfall
        · exact (List.mem_singleton.mp hvalue).ge
      exact hfirst.append hfalls
    · rw [Function.iterate_succ_apply]
      omega

end Sid
end TabOS
