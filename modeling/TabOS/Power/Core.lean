import TabOS.Power.Trace

/-!
# The core of the power manager

What the driver goes by: the core of the manager. The display, the requests and the times are not part of it. An operation on them is
quiet: it leaves the core and the view. A callback takes the core and the view from one state to the next together.
-/

namespace TabOS
namespace Power

open Library

/-- The part of the manager that the driver goes by. -/
structure Core where
  state : State
  generation : Nat
  suspendAvailable : Bool
  participants : List Participant
  dependencyOrder : List Nat
  cursor : Nat
  suspended : List Nat
  phase : Phase
  expected : CompletionToken
  finalized : Bool
  completionReady : Bool
  completionResult : CallbackResult
  platformPrepared : Bool

/-- The core of a manager. -/
def Manager.core (m : Manager) : Core where
  state := m.status.state
  generation := m.status.generation
  suspendAvailable := m.status.suspendAvailable
  participants := m.participants
  dependencyOrder := m.dependencyOrder
  cursor := m.cursor
  suspended := m.suspended
  phase := m.phase
  expected := m.expected
  finalized := m.finalized
  completionReady := m.completionReady
  completionResult := m.completionResult
  platformPrepared := m.platformPrepared

/-! ## Quiet operations -/

/-- The core and the view are left. -/
structure Quiet (w w' : World) : Prop where
  core : w'.manager.core = w.manager.core
  view : viewOf w'.log = viewOf w.log
  sound : ∀ {needs}, Sound needs w.log → Sound needs w'.log

namespace Quiet

theorem refl (w : World) : Quiet w w := ⟨rfl, rfl, id⟩

theorem trans {w w' w'' : World} (h : Quiet w w') (h' : Quiet w' w'') : Quiet w w'' :=
  ⟨h'.core.trans h.core, h'.view.trans h.view, fun hs => h'.sound (h.sound hs)⟩

theorem modify {f : Manager → Manager} (h : ∀ m, (f m).core = m.core) (w : World) : Quiet w (w.modify f) := ⟨h _, rfl, id⟩

theorem modifyStatus {f : Status → Status}
    (h : ∀ s, (f s).state = s.state ∧ (f s).generation = s.generation ∧ (f s).suspendAvailable = s.suspendAvailable) (w : World) :
    Quiet w (w.modifyStatus f) := by
  refine modify (fun m => ?_) w
  obtain ⟨hstate, hgeneration, havailable⟩ := h m.status
  unfold Manager.core
  rw [hstate, hgeneration, havailable]

theorem record {a : Event} (h : a.Silent) (w : World) : Quiet w (w.record a) :=
  ⟨rfl, observe_of_silent h _, (sound_cons_of_silent h).2⟩

theorem ask (w : World) : Quiet w w.ask := ⟨rfl, rfl, id⟩

theorem failure (code : FailureCode) (name : Name) (w : World) : Quiet w (w.modify (Power.failure code name)) :=
  modify (f := Power.failure code name) (fun _ => rfl) w

end Quiet

variable (env : Environment)

theorem quiet_setBrightness (brightness : BitVec 8) (w : World) : Quiet w (setBrightness env brightness w).2 := by
  have hdesired := Quiet.modifyStatus (f := fun s => { s with desiredBrightness := brightness }) (fun _ => ⟨rfl, rfl, rfl⟩) w
  unfold setBrightness
  dsimp only
  split
  · exact hdesired
  · have hrecord := hdesired.trans (Quiet.record (a := .setBrightness brightness (env.succeeds w.asked)) trivial _)
    split
    · dsimp only
      refine (hrecord.trans (Quiet.modifyStatus ?_ _)).trans (Quiet.failure _ _ _)
      exact fun _ => ⟨rfl, rfl, rfl⟩
    · dsimp only
      refine hrecord.trans (Quiet.modifyStatus ?_ _)
      exact fun _ => ⟨rfl, rfl, rfl⟩

theorem quiet_setPanel (enabled : Bool) (w : World) : Quiet w (setPanel env enabled w).2 := by
  unfold setPanel
  dsimp only
  split
  · exact Quiet.refl w
  · have hrecord := Quiet.record (a := .setPanelEnabled enabled (env.succeeds w.asked)) trivial w
    split
    · dsimp only
      refine (hrecord.trans (Quiet.modifyStatus ?_ _)).trans (Quiet.failure _ _ _)
      exact fun _ => ⟨rfl, rfl, rfl⟩
    · dsimp only
      refine hrecord.trans (Quiet.modifyStatus ?_ _)
      exact fun _ => ⟨rfl, rfl, rfl⟩

theorem quiet_setDisplay (brightness : BitVec 8) (panelEnabled : Bool) (w : World) :
    Quiet w (setDisplay env brightness panelEnabled w) := by
  have hdesired := Quiet.modifyStatus (f := fun s => { s with desiredBrightness := brightness }) (fun _ => ⟨rfl, rfl, rfl⟩) w
  unfold setDisplay
  dsimp only
  split
  · have hset := hdesired.trans (quiet_setBrightness env 0 _)
    split <;> rename_i heq <;> rw [heq] at hset
    · exact hset.trans (quiet_setPanel env false _)
    · exact hset
  · have hset := hdesired.trans (quiet_setPanel env true _)
    split <;> rename_i heq <;> rw [heq] at hset
    · exact hset.trans (quiet_setBrightness env brightness _)
    · exact hset

theorem quiet_restoreDisplay (w : World) : Quiet w (restoreDisplay env w) := by
  unfold restoreDisplay
  refine (Quiet.modifyStatus ?_ w).trans (quiet_setDisplay env _ _ _)
  exact fun _ => ⟨rfl, rfl, rfl⟩

theorem quiet_applyIdleDisplay (nowMs : BitVec 64) (w : World) : Quiet w (applyIdleDisplay env nowMs w) := by
  unfold applyIdleDisplay
  refine (Quiet.modifyStatus ?_ w).trans (quiet_setDisplay env _ _ _)
  exact fun _ => ⟨rfl, rfl, rfl⟩

theorem core_trace (name : Name) (operation : Operation) (m : Manager) : (trace name operation m).core = m.core := by
  unfold trace
  split <;> rfl

/-! ## Calls meanwhile -/

/-- The view while a callback is outstanding: what it was before but for the callback, until a completion is taken. -/
def pendingView (c : Core) (waiting : Bool) (base : View) : View :=
  if waiting = true ∧ c.completionReady = true then base.resolve c.expected c.completionResult
  else { base with
    outstanding := some ⟨c.expected, waiting, if c.completionReady then some c.completionResult else none⟩ }

theorem pendingView_of_ready {c : Core} (h : c.completionReady = true) (base : View) :
    pendingView c true base = base.resolve c.expected c.completionResult := if_pos ⟨rfl, h⟩

theorem pendingView_of_not_ready {c : Core} (h : c.completionReady = false) (waiting : Bool) (base : View) :
    pendingView c waiting base = { base with outstanding := some ⟨c.expected, waiting, none⟩ } := by
  unfold pendingView
  rw [h, if_neg (by rintro ⟨-, h⟩; nomatch h), if_neg (by intro h; nomatch h)]

theorem pendingView_of_not_waiting {c : Core} (h : c.completionReady = true) (base : View) :
    pendingView c false base = { base with outstanding := some ⟨c.expected, false, some c.completionResult⟩ } := by
  unfold pendingView
  rw [h, if_neg (by rintro ⟨h, -⟩; nomatch h), if_pos rfl]

/-- What calls of other threads do: a completion may be taken. -/
structure Meanwhile (w w' : World) : Prop where
  core : w'.manager.core = { w.manager.core with
    completionReady := w'.manager.completionReady
    completionResult := w'.manager.completionResult }
  sound : ∀ {needs}, Sound needs w.log → Sound needs w'.log
  issued : (viewOf w'.log).issued = (viewOf w.log).issued
  quiet : (viewOf w.log).outstanding = none → viewOf w'.log = viewOf w.log
  pending : ∀ waiting base, viewOf w.log = pendingView w.manager.core waiting base →
    viewOf w'.log = pendingView w'.manager.core waiting base
  result : (w.manager.completionReady = true → w.manager.completionResult ≠ .pending) →
    w'.manager.completionReady = true → w'.manager.completionResult ≠ .pending

namespace Meanwhile

theorem refl (w : World) : Meanwhile w w := ⟨rfl, id, rfl, fun _ => rfl, fun _ _ h => h, id⟩

theorem trans {w w' w'' : World} (h : Meanwhile w w') (h' : Meanwhile w' w'') : Meanwhile w w'' where
  core := by rw [h'.core, h.core]
  sound hs := h'.sound (h.sound hs)
  issued := h'.issued.trans h.issued
  quiet hnone := by
    have hview := h.quiet hnone
    exact (h'.quiet (by rw [hview]; exact hnone)).trans hview
  pending waiting base hview := h'.pending waiting base (h.pending waiting base hview)
  result hr := h'.result (h.result hr)

theorem modify {f : Manager → Manager} (h : ∀ m, (f m).core = m.core) (w : World) : Meanwhile w (w.modify f) := by
  have hcore := h w.manager
  have hready : (f w.manager).completionReady = w.manager.completionReady := congrArg Core.completionReady hcore
  have hresult : (f w.manager).completionResult = w.manager.completionResult := congrArg Core.completionResult hcore
  refine ⟨?_, id, rfl, fun _ => rfl, fun waiting base hview => ?_, fun hr => ?_⟩
  · show (f w.manager).core = { w.manager.core with
      completionReady := (f w.manager).completionReady, completionResult := (f w.manager).completionResult }
    rw [hcore, hready, hresult]
    rfl
  · show viewOf w.log = pendingView (f w.manager).core waiting base
    rw [hcore]
    exact hview
  · show (f w.manager).completionReady = true → (f w.manager).completionResult ≠ .pending
    rw [hready, hresult]
    exact hr

/-- A completion is taken when its token is the expected one and none has been taken before. -/
theorem complete (token : CompletionToken) (result : CallbackResult) (w : World) :
    Meanwhile w (powerManagerComplete token result w) := by
  unfold powerManagerComplete
  by_cases hresult : result = .pending
  · rw [if_pos hresult]
    exact refl w
  rw [if_neg hresult]
  have hsound : ∀ {needs}, Sound needs w.log → Sound needs (Event.completed token result :: w.log) :=
    fun hs => ⟨⟨trivial, trivial, by intro heq; nomatch heq⟩, hs⟩
  have hissued : (viewOf (.completed token result :: w.log)).issued = (viewOf w.log).issued := by
    rw [viewOf_cons, issued_observe]
    intro other heq
    nomatch heq
  have hquiet : (viewOf w.log).outstanding = none → viewOf (.completed token result :: w.log) = viewOf w.log := by
    intro hnone
    rw [viewOf_cons, View.observe_completed_none token result hnone]
  dsimp only
  by_cases htaken : (w.record (.completed token result)).manager.completionReady = false ∧
      token = (w.record (.completed token result)).manager.expected
  · rw [if_pos htaken]
    obtain ⟨hready, htoken⟩ := htaken
    have hready : w.manager.core.completionReady = false := hready
    have htoken : token = w.manager.core.expected := htoken
    refine ⟨rfl, hsound, hissued, hquiet, fun waiting base hview => ?_, fun _ _ => hresult⟩
    show (viewOf w.log).observe (.completed token result) =
      pendingView { w.manager.core with completionReady := true, completionResult := result } waiting base
    rw [hview, htoken, pendingView_of_not_ready hready]
    cases waiting with
    | false =>
      rw [pendingView_of_not_waiting rfl]
      exact View.observe_completed_first base _ result
    | true =>
      rw [pendingView_of_ready rfl]
      exact View.observe_completed_waiting base _ result
  · rw [if_neg htaken]
    refine ⟨rfl, hsound, hissued, hquiet, fun waiting base hview => ?_, id⟩
    show (viewOf w.log).observe (.completed token result) = pendingView w.manager.core waiting base
    rw [hview]
    cases hready : w.manager.core.completionReady with
    | false =>
      have htoken : token ≠ w.manager.core.expected := fun htoken => htaken ⟨hready, htoken⟩
      rw [pendingView_of_not_ready hready]
      exact View.observe_completed_other base _ result htoken waiting none
    | true =>
      cases waiting with
      | false =>
        rw [pendingView_of_not_waiting hready]
        exact View.observe_completed_again base _ result _ token
      | true =>
        rw [pendingView_of_ready hready]
        exact View.observe_completed_none _ _ (View.outstanding_resolve ..)

theorem call (call : Call) (w : World) : Meanwhile w (call.make w) := by
  cases call with
  | requestSuspend => exact modify (f := fun m => { m with suspendRequested := true }) (fun _ => rfl) w
  | requestActivity nowMs =>
    exact modify (f := fun m => { m with activityRequested := true, activityMs := nowMs }) (fun _ => rfl) w
  | complete token result => exact complete token result w

end Meanwhile

theorem meanwhile_spec (w : World) : Meanwhile w (meanwhile env w) := by
  unfold meanwhile
  have hask : Meanwhile w w.ask := ⟨rfl, id, rfl, fun _ => rfl, fun _ _ h => h, id⟩
  exact foldl_invariant (fun w' => Meanwhile w w') (fun w' call h => h.trans (Meanwhile.call call w')) (env.calls w.asked) hask

/-! ## Callbacks -/

theorem observe_returned_pendingView (c : Core) (base : View) (result : CallbackResult) :
    (pendingView c false base).observe (.returned result) =
      if result = .pending then pendingView c true base else base.resolve c.expected result := by
  cases hready : c.completionReady with
  | false =>
    rw [pendingView_of_not_ready hready, pendingView_of_not_ready hready]
    by_cases hresult : result = .pending
    · rw [if_pos hresult, hresult, View.observe_returned_pending]
    · rw [if_neg hresult, View.observe_returned _ _ hresult]
  | true =>
    rw [pendingView_of_not_waiting hready, pendingView_of_ready hready]
    by_cases hresult : result = .pending
    · rw [if_pos hresult, hresult, View.observe_returned_completed]
    · rw [if_neg hresult, View.observe_returned _ _ hresult]

/-- The call of a callback. -/
theorem beginCallback_spec {needs : Nat → Nat → Prop} (index : Nat) (operation : Operation) {token : CompletionToken} {w : World}
    (hnone : (viewOf w.log).outstanding = none) (hallowed : CallAllowed needs (viewOf w.log) (.called token))
    (hsound : Sound needs w.log) :
    (beginCallback env index operation token w).manager.core = { w.manager.core with
      expected := token
      completionReady := false
      completionResult := (beginCallback env index operation token w).manager.core.completionResult } ∧
    Sound needs (beginCallback env index operation token w).log ∧
    viewOf (beginCallback env index operation token w).log =
      pendingView (beginCallback env index operation token w).manager.core false ((viewOf w.log).call token) := by
  have hbefore := meanwhile_spec env w
  have hview := hbefore.quiet hnone
  have hcore : (beginCallback env index operation token w).manager.core =
      { (meanwhile env w).manager.core with expected := token, completionReady := false } := core_trace _ _ _
  refine ⟨?_, ?_, ?_⟩
  · rw [hcore, hbefore.core]
  · refine sound_cons.2 ⟨⟨?_, trivial, by intro heq; nomatch heq⟩, hbefore.sound hsound⟩
    show CallAllowed needs (viewOf (meanwhile env w).log) (.called token)
    rw [hview]
    exact hallowed
  · rw [hcore, pendingView_of_not_ready rfl, ← hview]
    rfl

/-- A callback that may be called is called. Either it returns its outcome, or it is outstanding, unless it has been completed. -/
theorem callback_spec {needs : Nat → Nat → Prop} {index : Nat} {operation : Operation} {token : CompletionToken} {w w' : World}
    {result : CallbackResult} (h : callback env index operation w = (result, w'))
    (htoken : token = ⟨w.manager.status.generation, index, operation⟩) (hnone : (viewOf w.log).outstanding = none)
    (hallowed : CallAllowed needs (viewOf w.log) (.called token)) (hsound : Sound needs w.log) :
    w'.manager.core = { w.manager.core with
      expected := token
      completionReady := w'.manager.core.completionReady
      completionResult := w'.manager.core.completionResult } ∧
    Sound needs w'.log ∧
    (w'.manager.completionReady = true → w'.manager.completionResult ≠ .pending) ∧
    viewOf w'.log = if result = .pending then pendingView w'.manager.core true ((viewOf w.log).call token)
      else ((viewOf w.log).call token).resolve token result := by
  obtain ⟨hcore1, hsound1, hview1⟩ := beginCallback_spec env index operation hnone hallowed hsound
  unfold callback at h
  dsimp only at h
  rw [← htoken] at h
  generalize beginCallback env index operation token w = w1 at *
  have hduring := meanwhile_spec env w1
  have hcore2 := hduring.core
  have hview2 := hduring.pending false _ hview1
  have hready1 : w1.manager.completionReady = false := congrArg Core.completionReady hcore1
  have hresult2 := hduring.result fun hready => absurd (hready1.symm.trans hready) (by decide)
  have hsound2 := hduring.sound hsound1
  generalize meanwhile env w1 = w2 at *
  obtain ⟨rfl, rfl⟩ := Prod.mk.inj h
  have hexpected : w2.manager.core.expected = token := by rw [hcore2, hcore1]
  refine ⟨?_, ?_, hresult2, ?_⟩
  · show w2.manager.core = _
    rw [hcore2, hcore1]
    rfl
  · exact sound_cons.2 ⟨⟨trivial, trivial, by intro heq; nomatch heq⟩, hsound2⟩
  · refine (congrArg (View.observe · (.returned (env.callback w2.asked))) hview2).trans ?_
    refine (observe_returned_pendingView ..).trans ?_
    rw [hexpected]
    rfl

end Power
end TabOS
