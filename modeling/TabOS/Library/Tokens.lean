import Mathlib.Logic.Function.Basic

/-!
# Tokens that are held and freed

Tokens are created one after another. Each holder has one token at most; a token that a holder has is not freed, and one that no holder
has was freed once. A token is created into an empty hand, passed into another empty hand, or freed by its holder.
-/

namespace Library

variable {ι : Type*}

/-- Every token that was created is in one hand, or was freed once. -/
structure Accounted (has : ι → Option Nat) (created : Nat) (frees : Nat → Nat) : Prop where
  bounded : ∀ i token, has i = some token → token < created
  distinct : ∀ i j token, has i = some token → has j = some token → i = j
  held : ∀ i token, has i = some token → frees token = 0
  gone : ∀ token, token < created → (∀ i, has i ≠ some token) → frees token = 1
  fresh : ∀ token, created ≤ token → frees token = 0

namespace Accounted

variable {has : ι → Option Nat} {created : Nat} {frees : Nat → Nat}

theorem initial : Accounted (fun _ : ι => none) 0 (fun _ => 0) :=
  ⟨fun _ _ h => absurd h.symm (Option.some_ne_none _), fun _ _ _ h => absurd h.symm (Option.some_ne_none _),
    fun _ _ _ => rfl, fun _ h => absurd h (Nat.not_lt_zero _), fun _ _ => rfl⟩

variable [DecidableEq ι]

/-- A token is created into an empty hand. -/
theorem create (h : Accounted has created frees) {i : ι} (hi : has i = none) :
    Accounted (Function.update has i (some created)) (created + 1) frees := by
  have hother : ∀ j token, j ≠ i → Function.update has i (some created) j = some token → has j = some token ∧ token < created := by
    intro j token hj htoken
    rw [Function.update_of_ne hj] at htoken
    exact ⟨htoken, h.bounded j token htoken⟩
  have hself : ∀ token, Function.update has i (some created) i = some token → token = created := by
    intro token htoken
    rw [Function.update_self] at htoken
    exact (Option.some.inj htoken).symm
  refine ⟨?_, ?_, ?_, ?_, fun token htoken => h.fresh token (by omega)⟩
  · intro j token htoken
    by_cases hj : j = i
    · subst hj
      have := hself token htoken
      omega
    · have := (hother j token hj htoken).2
      omega
  · intro j k token hj hk
    by_cases hji : j = i
    · by_cases hki : k = i
      · rw [hji, hki]
      · subst hji
        have := hself token hj
        have := (hother k token hki hk).2
        omega
    · by_cases hki : k = i
      · subst hki
        have := hself token hk
        have := (hother j token hji hj).2
        omega
      · exact h.distinct j k token (hother j token hji hj).1 (hother k token hki hk).1
  · intro j token htoken
    by_cases hj : j = i
    · subst hj
      rw [hself token htoken]
      exact h.fresh created (Nat.le_refl _)
    · exact h.held j token (hother j token hj htoken).1
  · intro token hlt hno
    have hne : token ≠ created := by
      rintro rfl
      exact hno i (Function.update_self i _ has)
    refine h.gone token (by omega) fun j hj => ?_
    by_cases hji : j = i
    · subst hji
      rw [hi] at hj
      exact absurd hj.symm (Option.some_ne_none _)
    · exact hno j (by rw [Function.update_of_ne hji]; exact hj)

/-- A token is freed by its holder. -/
theorem free (h : Accounted has created frees) {i : ι} {token : Nat} (hi : has i = some token) :
    Accounted (Function.update has i none) created (Function.update frees token (frees token + 1)) := by
  have hlt := h.bounded i token hi
  have hother : ∀ j t, Function.update has i none j = some t → has j = some t ∧ t ≠ token := by
    intro j t ht
    by_cases hj : j = i
    · subst hj
      rw [Function.update_self] at ht
      exact absurd ht.symm (Option.some_ne_none _)
    · rw [Function.update_of_ne hj] at ht
      refine ⟨ht, ?_⟩
      rintro rfl
      exact hj (h.distinct j i t ht hi)
  refine ⟨fun j t ht => h.bounded j t (hother j t ht).1,
    fun j k t hj hk => h.distinct j k t (hother j t hj).1 (hother k t hk).1, ?_, ?_, ?_⟩
  · intro j t ht
    obtain ⟨hj, hne⟩ := hother j t ht
    rw [Function.update_of_ne hne]
    exact h.held j t hj
  · intro t ht hno
    by_cases heq : t = token
    · subst heq
      rw [Function.update_self, h.held i t hi]
    · rw [Function.update_of_ne heq]
      refine h.gone t ht fun j hj => ?_
      by_cases hji : j = i
      · subst hji
        rw [hi] at hj
        exact heq (Option.some.inj hj).symm
      · exact hno j (by rw [Function.update_of_ne hji]; exact hj)
  · intro t ht
    rw [Function.update_of_ne (by omega)]
    exact h.fresh t ht

/-- A token is passed into an empty hand. -/
theorem pass (h : Accounted has created frees) {i j : ι} {token : Nat} (hi : has i = some token) (hj : has j = none) :
    Accounted (Function.update (Function.update has i none) j (some token)) created frees := by
  have hother : ∀ k t, k ≠ j → Function.update (Function.update has i none) j (some token) k = some t → has k = some t ∧ k ≠ i := by
    intro k t hk ht
    rw [Function.update_of_ne hk] at ht
    by_cases hki : k = i
    · subst hki
      rw [Function.update_self] at ht
      exact absurd ht.symm (Option.some_ne_none _)
    · rw [Function.update_of_ne hki] at ht
      exact ⟨ht, hki⟩
  have hself : ∀ t, Function.update (Function.update has i none) j (some token) j = some t → t = token := by
    intro t ht
    rw [Function.update_self] at ht
    exact (Option.some.inj ht).symm
  refine ⟨?_, ?_, ?_, ?_, h.fresh⟩
  · intro k t ht
    by_cases hk : k = j
    · subst hk
      rw [hself t ht]
      exact h.bounded i token hi
    · exact h.bounded k t (hother k t hk ht).1
  · intro k l t hk hl
    by_cases hkj : k = j
    · by_cases hlj : l = j
      · rw [hkj, hlj]
      · subst hkj
        obtain ⟨hl', hne⟩ := hother l t hlj hl
        rw [hself t hk] at hl'
        exact absurd (h.distinct l i token hl' hi) hne
    · by_cases hlj : l = j
      · subst hlj
        obtain ⟨hk', hne⟩ := hother k t hkj hk
        rw [hself t hl] at hk'
        exact absurd (h.distinct k i token hk' hi) hne
      · exact h.distinct k l t (hother k t hkj hk).1 (hother l t hlj hl).1
  · intro k t ht
    by_cases hk : k = j
    · subst hk
      rw [hself t ht]
      exact h.held i token hi
    · exact h.held k t (hother k t hk ht).1
  · intro t ht hno
    refine h.gone t ht fun k hk => ?_
    by_cases hkj : k = j
    · subst hkj
      rw [hj] at hk
      exact absurd hk.symm (Option.some_ne_none _)
    · by_cases hki : k = i
      · subst hki
        rw [hi] at hk
        exact hno j (by rw [Function.update_self]; exact hk)
      · exact hno k (by rw [Function.update_of_ne hkj, Function.update_of_ne hki]; exact hk)

end Accounted

end Library
