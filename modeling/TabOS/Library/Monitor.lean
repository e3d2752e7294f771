import Mathlib.Data.List.Basic

/-!
# Monitors

A monitor reads the events of a log, the latest first, and keeps a view of them. `Always` says that every event was allowed in the
view of the events before it.
-/

namespace Library

variable {σ α : Type*} (observe : σ → α → σ) (initial : σ)

/-- The view of a log. -/
def watch (log : List α) : σ := log.foldr (fun event view => observe view event) initial

/-- Every event of a log was allowed when it happened. -/
def Always (allowed : σ → α → Prop) : List α → Prop
  | [] => True
  | event :: log => allowed (watch observe initial log) event ∧ Always allowed log

variable {observe : σ → α → σ} {initial : σ} {allowed allowed' : σ → α → Prop} {log : List α} {event : α}

@[simp] theorem watch_nil : watch observe initial [] = initial := rfl

@[simp] theorem watch_cons : watch observe initial (event :: log) = observe (watch observe initial log) event := rfl

@[simp] theorem always_nil : Always observe initial allowed [] := trivial

@[simp] theorem always_cons : Always observe initial allowed (event :: log) ↔
    allowed (watch observe initial log) event ∧ Always observe initial allowed log := Iff.rfl

/-- What is allowed more often holds always of more logs. -/
theorem Always.mono (h : Always observe initial allowed log)
    (himp : ∀ event ∈ log, ∀ view, allowed view event → allowed' view event) : Always observe initial allowed' log := by
  induction log with
  | nil => trivial
  | cons event log ih =>
    obtain ⟨hevent, hlog⟩ := h
    exact ⟨himp event List.mem_cons_self _ hevent, ih hlog fun other hother => himp other (List.mem_cons_of_mem _ hother)⟩

/-- What was always allowed was allowed at first. -/
theorem Always.of_append {later : List α} (h : Always observe initial allowed (later ++ log)) : Always observe initial allowed log := by
  induction later with
  | nil => exact h
  | cons event later ih => exact ih h.2

/-- What no view allows does not happen. -/
theorem Always.not_mem (h : Always observe initial allowed log) (hnever : ∀ view, ¬allowed view event) : event ∉ log := by
  induction log with
  | nil => exact List.not_mem_nil
  | cons other log ih =>
    obtain ⟨hother, hlog⟩ := h
    intro hmem
    rcases List.mem_cons.1 hmem with rfl | hmem
    · exact hnever _ hother
    · exact ih hlog hmem

end Library
