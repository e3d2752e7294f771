import TabOS.Power.Dependency
import TabOS.Power.Drive
import TabOS.Library.Monitor
import TabOS.Library.Run

/-!
# What the outside sees of the power manager

A monitor of the events: which participants are down, which callback is outstanding, whether the participants go up, whether the
platform is prepared and asleep, and which tokens have been given out. It says what a call of a callback and of the platform must
respect, in terms of the events alone. A completion with a token that is not the outstanding one's leaves the view.
-/

namespace TabOS
namespace Power

open Library

/-- The callback that was called last, its outcome unknown: whether it has returned, pending, and the completion that was reported
before. -/
structure Outstanding where
  token : CompletionToken
  waiting : Bool
  completion : Option CallbackResult
  deriving DecidableEq, Repr

/-- What the events say: the participants whose suspend succeeded and whose resume has not been called since, the latest first; the
outstanding callback; whether a suspend or a sleep has failed, or the platform has woken, since a suspend was called last; whether the
platform is prepared and asleep; and the tokens of all callbacks. -/
structure View where
  down : List Nat
  outstanding : Option Outstanding
  rising : Bool
  prepared : Bool
  asleep : Bool
  issued : List CompletionToken
  deriving DecidableEq, Repr

namespace View

/-- The view of no events. -/
def initial : View := ⟨[], none, false, false, false, []⟩

/-- The outcome of a callback is known. -/
def resolve (v : View) (token : CompletionToken) (result : CallbackResult) : View :=
  match token.operation with
  | .suspend =>
    if result = .success then { v with outstanding := none, down := token.participant :: v.down }
    else { v with outstanding := none, rising := true }
  | .resume => { v with outstanding := none }

/-- A callback is called: one to resume takes its participant up. -/
def call (v : View) (token : CompletionToken) : View :=
  match token.operation with
  | .suspend => { v with rising := false, issued := token :: v.issued }
  | .resume => { v with down := v.down.erase token.participant, issued := token :: v.issued }

/-- The view after one more event. -/
def observe (v : View) : Event → View
  | .called token => { v.call token with outstanding := some ⟨token, false, none⟩ }
  | .returned result =>
    match v.outstanding with
    | none => v
    | some o =>
      if result = .pending then
        match o.completion with
        | none => { v with outstanding := some { o with waiting := true } }
        | some completion => v.resolve o.token completion
      else v.resolve o.token result
  | .completed token result =>
    match v.outstanding with
    | none => v
    | some o =>
      if token = o.token then
        if o.waiting then v.resolve o.token result
        else if o.completion = none then { v with outstanding := some { o with completion := some result } }
        else v
      else v
  | .prepareSleep done => if done then { v with prepared := true } else { v with rising := true }
  | .enterLightSleep done => if done then { v with asleep := true } else { v with rising := true }
  | .abortSleep => { v with prepared := false }
  | .restore _ => { v with prepared := false, asleep := false, rising := true }
  | _ => v

/-! ### How a callback ends -/

theorem outstanding_resolve (v : View) (token : CompletionToken) (result : CallbackResult) :
    (v.resolve token result).outstanding = none := by
  unfold resolve
  split
  · split <;> rfl
  · rfl

/-- The outcome of a callback does not depend on how it was outstanding. -/
theorem resolve_outstanding (v : View) (o : Option Outstanding) (token : CompletionToken) (result : CallbackResult) :
    ({ v with outstanding := o } : View).resolve token result = v.resolve token result := by
  unfold resolve
  split
  · split <;> rfl
  · rfl

variable (base : View) (token : CompletionToken) (result completion : CallbackResult)

/-- A completion of a callback that has returned is its outcome. -/
theorem observe_completed_waiting :
    ({ base with outstanding := some ⟨token, true, none⟩ } : View).observe (.completed token result) = base.resolve token result := by
  rw [observe]
  dsimp only
  rw [if_pos rfl, if_pos rfl, resolve_outstanding]

/-- The first completion of a callback that has not returned is kept. -/
theorem observe_completed_first :
    ({ base with outstanding := some ⟨token, false, none⟩ } : View).observe (.completed token result) =
      { base with outstanding := some ⟨token, false, some result⟩ } := by
  rw [observe]
  dsimp only
  rw [if_pos rfl, if_neg (by decide), if_pos rfl]

/-- A second completion is ignored. -/
theorem observe_completed_again (other : CompletionToken) :
    ({ base with outstanding := some ⟨token, false, some completion⟩ } : View).observe (.completed other result) =
      { base with outstanding := some ⟨token, false, some completion⟩ } := by
  rw [observe]
  dsimp only
  by_cases htoken : other = token
  · rw [if_pos htoken, if_neg (by decide), if_neg (by intro h; nomatch h)]
  · rw [if_neg htoken]

/-- A completion with another token is ignored. -/
theorem observe_completed_other {other : CompletionToken} (h : other ≠ token) (waiting : Bool) (o : Option CallbackResult) :
    ({ base with outstanding := some ⟨token, waiting, o⟩ } : View).observe (.completed other result) =
      { base with outstanding := some ⟨token, waiting, o⟩ } := by
  rw [observe]
  dsimp only
  rw [if_neg h]

/-- Without an outstanding callback a completion is ignored. -/
theorem observe_completed_none {v : View} (h : v.outstanding = none) : v.observe (.completed token result) = v := by
  rw [observe, h]

/-- A callback that returns an outcome has it. -/
theorem observe_returned {r : CallbackResult} (h : r ≠ .pending) (waiting : Bool) (o : Option CallbackResult) :
    ({ base with outstanding := some ⟨token, waiting, o⟩ } : View).observe (.returned r) = base.resolve token r := by
  rw [observe]
  dsimp only
  rw [if_neg h, resolve_outstanding]

/-- A callback that returns pending is outstanding, unless it has been completed. -/
theorem observe_returned_pending :
    ({ base with outstanding := some ⟨token, false, none⟩ } : View).observe (.returned .pending) =
      { base with outstanding := some ⟨token, true, none⟩ } := rfl

theorem observe_returned_completed :
    ({ base with outstanding := some ⟨token, false, some completion⟩ } : View).observe (.returned .pending) =
      base.resolve token completion := resolve_outstanding ..

end View

/-- The view of a log. -/
def viewOf (log : List Event) : View := watch View.observe View.initial log

/-- When a callback may be called. There is none outstanding, the platform is neither prepared nor asleep, and the token is new. To
suspend, the participant is up, all that depend on it are down, and no others that went down before a failure are. To resume, the
participant is the last that went down, and all that it depends on are up. -/
def CallAllowed (needs : Nat → Nat → Prop) (v : View) : Event → Prop
  | .called token =>
    v.outstanding = none ∧ v.prepared = false ∧ v.asleep = false ∧ token ∉ v.issued ∧
      match token.operation with
      | .suspend =>
        token.participant ∉ v.down ∧ (∀ other, needs other token.participant → other ∈ v.down) ∧ (v.rising = true → v.down = [])
      | .resume =>
        v.rising = true ∧ v.down.head? = some token.participant ∧ ∀ other, needs token.participant other → other ∉ v.down
  | _ => True

/-- When the platform may be told to prepare its sleep, to abort and to restore. -/
def SleepAllowed (v : View) : Event → Prop
  | .prepareSleep _ => v.outstanding = none ∧ v.prepared = false
  | .abortSleep => v.prepared = true
  | .restore _ => v.prepared = true
  | _ => True

/-- All events were allowed, and no loop of `drive` has ended by its bound. -/
def Sound (needs : Nat → Nat → Prop) (log : List Event) : Prop :=
  Always View.observe View.initial (fun v event => CallAllowed needs v event ∧ SleepAllowed v event ∧ event ≠ .bound) log

variable {needs : Nat → Nat → Prop} {log : List Event}

@[simp] theorem viewOf_cons (event : Event) (log : List Event) : viewOf (event :: log) = (viewOf log).observe event := rfl

theorem sound_cons {event : Event} :
    Sound needs (event :: log) ↔
      (CallAllowed needs (viewOf log) event ∧ SleepAllowed (viewOf log) event ∧ event ≠ .bound) ∧ Sound needs log := Iff.rfl

/-! ## Events that are seen by nobody -/

/-- The events that the view does not depend on. -/
def Event.Silent : Event → Prop
  | .collectWakeCauses _ => True
  | .setBrightness _ _ => True
  | .setPanelEnabled _ _ => True
  | _ => False

theorem observe_of_silent {event : Event} (h : event.Silent) (v : View) : v.observe event = v := by
  cases event <;> first | rfl | exact h.elim

theorem sound_cons_of_silent {event : Event} (h : event.Silent) : Sound needs (event :: log) ↔ Sound needs log := by
  rw [sound_cons]
  refine and_iff_right ?_
  cases event <;> first | exact h.elim | exact ⟨trivial, trivial, by intro heq; nomatch heq⟩

theorem issued_resolve (v : View) (token : CompletionToken) (result : CallbackResult) : (v.resolve token result).issued = v.issued := by
  unfold View.resolve
  split
  · split <;> rfl
  · rfl

theorem issued_observe {event : Event} (h : ∀ token, event ≠ .called token) (v : View) : (v.observe event).issued = v.issued := by
  cases event with
  | called token => exact absurd rfl (h token)
  | returned result =>
    unfold View.observe
    cases v.outstanding with
    | none => rfl
    | some o =>
      dsimp only
      split
      · cases o.completion with
        | none => rfl
        | some completion => exact issued_resolve v _ _
      · exact issued_resolve v _ _
  | completed token result =>
    unfold View.observe
    cases v.outstanding with
    | none => rfl
    | some o =>
      dsimp only
      split
      · split
        · exact issued_resolve v _ _
        · split <;> rfl
      · rfl
  | prepareSleep done => cases done <;> rfl
  | enterLightSleep done => cases done <;> rfl
  | _ => rfl

/-- While no callback has been called, nothing depends on which participant needs which. -/
theorem sound_of_issued_nil {needs' : Nat → Nat → Prop} (h : Sound needs log) (hnone : (viewOf log).issued = []) :
    Sound needs' log := by
  induction log with
  | nil => trivial
  | cons event log ih =>
    obtain ⟨⟨-, hsleep, hbound⟩, hlog⟩ := h
    have hcalled : ∀ token, event ≠ .called token := by
      rintro token rfl
      have hissued : ((viewOf log).call token).issued = [] := hnone
      unfold View.call at hissued
      cases hoperation : token.operation with
      | suspend =>
        rw [hoperation] at hissued
        nomatch hissued
      | resume =>
        rw [hoperation] at hissued
        nomatch hissued
    have hbefore : (viewOf log).issued = [] := (issued_observe hcalled (viewOf log)).symm.trans hnone
    refine ⟨⟨?_, hsleep, hbound⟩, ih hlog hbefore⟩
    cases event with
    | called token => exact absurd rfl (hcalled token)
    | _ => trivial

end Power
end TabOS
