import TabOS.Power.Display

/-!
# The sleep of the platform

Between a sleep that the platform has prepared and its end the manager is in the phase of the sleep. The driver and the activity
command the display in other phases only. A policy that is set while there are inhibitors, and inhibitors that are set, restore it in
any phase, so that the sleep is undisturbed where the display is as they want it.
-/

namespace TabOS
namespace Power

open Library

/-- No command of the display was made between the preparation of a sleep and its end. -/
def SleepUndisturbed (log : List Event) : Prop :=
  Always View.observe View.initial (fun v event => event.Commands → v.prepared = false) log

variable {log log' : List Event}

theorem sleepUndisturbed_cons {event : Event} :
    SleepUndisturbed (event :: log) ↔ (event.Commands → (viewOf log).prepared = false) ∧ SleepUndisturbed log := Iff.rfl

theorem Unlit.sleepUndisturbed (h : Unlit log log') (hlog : SleepUndisturbed log) : SleepUndisturbed log' := by
  obtain ⟨events, rfl, hevents⟩ := h
  induction events with
  | nil => exact hlog
  | cons event events ih =>
    exact ⟨fun hcommands => absurd hcommands (hevents event List.mem_cons_self),
      ih fun other hmem => hevents other (List.mem_cons_of_mem _ hmem)⟩

/-! ## When the platform is prepared -/

theorem prepared_resolve (v : View) (token : CompletionToken) (result : CallbackResult) :
    (v.resolve token result).prepared = v.prepared := by
  unfold View.resolve
  split
  · split <;> rfl
  · rfl

theorem prepared_pendingView (c : Core) (waiting : Bool) (base : View) : (pendingView c waiting base).prepared = base.prepared := by
  unfold pendingView
  split
  · exact prepared_resolve ..
  · rfl

/-- The platform is prepared to sleep in the phase of the sleep and no other. -/
theorem Inv.prepared_iff {w : World} (h : Inv w) : (viewOf w.log).prepared = true ↔ w.manager.phase = .sleep := by
  have hagrees := h.agrees
  unfold Agrees at hagrees
  cases hphase : w.manager.phase with
  | none =>
    rw [show w.manager.core.phase = .none from hphase] at hagrees
    exact iff_of_false (by rw [hagrees.prepared]; decide) (by decide)
  | suspend =>
    rw [show w.manager.core.phase = .suspend from hphase] at hagrees
    obtain ⟨-, -, hfalling⟩ := hagrees
    exact iff_of_false (by rw [hfalling.prepared]; decide) (by decide)
  | waitSuspend =>
    rw [show w.manager.core.phase = .waitSuspend from hphase] at hagrees
    obtain ⟨base, hview, -, hfalling, -⟩ := hagrees
    exact iff_of_false (by rw [hview, prepared_pendingView, hfalling.prepared]; decide) (by decide)
  | sleep =>
    rw [show w.manager.core.phase = .sleep from hphase] at hagrees
    exact iff_of_true hagrees.prepared rfl
  | resume =>
    rw [show w.manager.core.phase = .resume from hphase] at hagrees
    obtain ⟨-, bottom, hrising⟩ := hagrees
    exact iff_of_false (by rw [hrising.prepared]; decide) (by decide)
  | waitResume =>
    rw [show w.manager.core.phase = .waitResume from hphase] at hagrees
    obtain ⟨base, bottom, hview, hrising, -⟩ := hagrees
    exact iff_of_false (by rw [hview, prepared_pendingView, hrising.prepared]; decide) (by decide)

theorem Inv.prepared {w : World} (h : Inv w) (hphase : w.manager.phase ≠ .sleep) : (viewOf w.log).prepared = false := by
  rw [← Bool.not_eq_true, h.prepared_iff]
  exact hphase

/-- The manager is in the phase of the sleep when its state is suspended. -/
theorem StateOf.sleep_iff {phase : Phase} {state : State} (h : StateOf phase state) : phase = .sleep ↔ state = .suspended := by
  cases phase with
  | none => rcases h with rfl | rfl <;> exact iff_of_false (by decide) (by decide)
  | sleep => exact iff_of_true rfl h
  | _ =>
    cases h
    exact iff_of_false (by decide) (by decide)

/-! ## The commands of the display -/

variable (env : Environment)

theorem sleepUndisturbed_setBrightness {w : World} (hprepared : (viewOf w.log).prepared = false) (h : SleepUndisturbed w.log)
    (brightness : BitVec 8) : SleepUndisturbed (setBrightness env brightness w).2.log := by
  unfold setBrightness
  dsimp only
  split
  · exact h
  · split <;> exact ⟨fun _ => hprepared, h⟩

theorem sleepUndisturbed_setPanel {w : World} (hprepared : (viewOf w.log).prepared = false) (h : SleepUndisturbed w.log)
    (enabled : Bool) : SleepUndisturbed (setPanel env enabled w).2.log := by
  unfold setPanel
  dsimp only
  split
  · exact h
  · split <;> exact ⟨fun _ => hprepared, h⟩

theorem sleepUndisturbed_setDisplay {w : World} (hprepared : (viewOf w.log).prepared = false) (h : SleepUndisturbed w.log)
    (brightness : BitVec 8) (panelEnabled : Bool) : SleepUndisturbed (setDisplay env brightness panelEnabled w).log := by
  have hprepared1 : (viewOf (w.modifyStatus fun s => { s with desiredBrightness := brightness }).log).prepared = false := hprepared
  have h1 : SleepUndisturbed (w.modifyStatus fun s => { s with desiredBrightness := brightness }).log := h
  unfold setDisplay
  dsimp only
  generalize (w.modifyStatus fun s => { s with desiredBrightness := brightness }) = w1 at *
  split
  · have hset := sleepUndisturbed_setBrightness env hprepared1 h1 0
    have hquiet := quiet_setBrightness env 0 w1
    split <;> rename_i heq <;> rw [heq] at hset hquiet
    · exact sleepUndisturbed_setPanel env (by rw [hquiet.view]; exact hprepared1) hset false
    · exact hset
  · have hset := sleepUndisturbed_setPanel env hprepared1 h1 true
    have hquiet := quiet_setPanel env true w1
    split <;> rename_i heq <;> rw [heq] at hset hquiet
    · exact sleepUndisturbed_setBrightness env (by rw [hquiet.view]; exact hprepared1) hset brightness
    · exact hset

/-- A course whose commands are made while the platform is not prepared does not disturb its sleep. -/
theorem Course.sleepUndisturbed {w w' : World} (h : Course env (fun log => (viewOf log).prepared = false) w w')
    (hw : SleepUndisturbed w.log) : SleepUndisturbed w'.log := by
  induction h with
  | start => exact hw
  | unlit _ _ hlog ih => exact hlog.sleepUndisturbed ih
  | command _ brightness panelEnabled hawake ih => exact sleepUndisturbed_setDisplay env hawake ih brightness panelEnabled

/-! ## A display that is restored -/

/-- The panel is known to be on and the backlight to have the brightness of an active manager. -/
structure Manager.Restored (m : Manager) : Prop where
  panelValid : m.status.panelValid = true
  panelEnabled : m.status.panelEnabled = true
  brightnessValid : m.status.brightnessValid = true
  effectiveBrightness : m.status.effectiveBrightness = m.status.policy.activeBrightness

theorem setPanel_of_valid {w : World} {enabled : Bool} (hvalid : w.manager.status.panelValid = true)
    (henabled : w.manager.status.panelEnabled = enabled) : setPanel env enabled w = (true, w) := if_pos ⟨hvalid, henabled⟩

theorem log_setBrightness_of_invalid {w : World} {brightness : BitVec 8}
    (h : ¬(w.manager.status.brightnessValid = true ∧ w.manager.status.effectiveBrightness = brightness)) :
    (setBrightness env brightness w).2.log = .setBrightness brightness (env.succeeds w.asked) :: w.log := by
  unfold setBrightness
  dsimp only
  split
  · rename_i hcached
    exact absurd hcached h
  · split <;> rfl

theorem log_setBrightness_of_valid {w : World} {brightness : BitVec 8} (hvalid : w.manager.status.brightnessValid = true)
    (hbrightness : w.manager.status.effectiveBrightness = brightness) : (setBrightness env brightness w).2.log = w.log := by
  unfold setBrightness
  dsimp only
  split
  · rfl
  · rename_i hnot
    exact absurd ⟨hvalid, hbrightness⟩ hnot

theorem shown_setBrightness_of_valid {w : World} {brightness : BitVec 8} (hvalid : w.manager.status.brightnessValid = true)
    (hbrightness : w.manager.status.effectiveBrightness = brightness) :
    (setBrightness env brightness w).2.manager.shown = w.manager.shown := by
  unfold setBrightness
  dsimp only
  split
  · rfl
  · rename_i hnot
    exact absurd ⟨hvalid, hbrightness⟩ hnot

theorem log_setPanel_of_invalid {w : World} {enabled : Bool}
    (h : ¬(w.manager.status.panelValid = true ∧ w.manager.status.panelEnabled = enabled)) :
    (setPanel env enabled w).2.log = .setPanelEnabled enabled (env.succeeds w.asked) :: w.log := by
  unfold setPanel
  dsimp only
  split
  · rename_i hcached
    exact absurd hcached h
  · split <;> rfl

theorem suffix_setBrightness (brightness : BitVec 8) (w : World) : w.log <:+ (setBrightness env brightness w).2.log := by
  by_cases h : w.manager.status.brightnessValid = true ∧ w.manager.status.effectiveBrightness = brightness
  · exact ⟨[], (log_setBrightness_of_valid env h.1 h.2).symm⟩
  · exact ⟨[.setBrightness brightness (env.succeeds w.asked)], (log_setBrightness_of_invalid env h).symm⟩

/-- What `restore_display` asks `set_display` to show. -/
def toRestore (w : World) : World :=
  (w.modifyStatus fun s => { s with screenOffRequested := false, panelOffRequested := false }).modifyStatus fun s =>
    { s with desiredBrightness := s.policy.activeBrightness }

theorem restoreDisplay_eq (w : World) :
    restoreDisplay env w = if (setPanel env true (toRestore w)).1 then
      (setBrightness env w.manager.status.policy.activeBrightness (setPanel env true (toRestore w)).2).2
    else (setPanel env true (toRestore w)).2 := by
  unfold restoreDisplay setDisplay
  dsimp only
  rw [if_neg (by decide)]
  split
  · rename_i w' heq
    have hset : setPanel env true (toRestore w) = (true, w') := heq
    rw [hset]
    rfl
  · rename_i w' heq
    have hset : setPanel env true (toRestore w) = (false, w') := heq
    rw [hset]
    rfl

/-- A display that is restored needs no command. -/
theorem restoreDisplay_of_restored {w : World} (h : w.manager.Restored) :
    (restoreDisplay env w).log = w.log ∧ (restoreDisplay env w).manager.shown = w.manager.shown := by
  have hpanel : setPanel env true (toRestore w) = (true, toRestore w) := setPanel_of_valid env h.panelValid h.panelEnabled
  rw [restoreDisplay_eq, hpanel, if_pos rfl]
  exact ⟨log_setBrightness_of_valid env h.brightnessValid h.effectiveBrightness,
    shown_setBrightness_of_valid env h.brightnessValid h.effectiveBrightness⟩

/-- Another one gets one. -/
theorem restoreDisplay_of_not_restored {w : World} (h : ¬w.manager.Restored) :
    ∃ event, event.Commands ∧ event :: w.log <:+ (restoreDisplay env w).log := by
  rw [restoreDisplay_eq]
  by_cases hpanel : w.manager.status.panelValid = true ∧ w.manager.status.panelEnabled = true
  · rw [setPanel_of_valid env (w := toRestore w) hpanel.1 hpanel.2, if_pos rfl]
    have hbrightness : ¬(w.manager.status.brightnessValid = true ∧
        w.manager.status.effectiveBrightness = w.manager.status.policy.activeBrightness) :=
      fun hcached => h ⟨hpanel.1, hpanel.2, hcached.1, hcached.2⟩
    exact ⟨.setBrightness w.manager.status.policy.activeBrightness (env.succeeds w.asked), trivial, [],
      (log_setBrightness_of_invalid env (w := toRestore w) hbrightness).symm⟩
  · refine ⟨.setPanelEnabled true (env.succeeds w.asked), trivial, ?_⟩
    have hlog : (setPanel env true (toRestore w)).2.log = .setPanelEnabled true (env.succeeds w.asked) :: w.log :=
      log_setPanel_of_invalid env (w := toRestore w) hpanel
    rw [← hlog]
    split
    · exact suffix_setBrightness env _ _
    · exact List.suffix_refl _

/-! ## Runs -/

/-- The operation does not restore a display without a look at the state while the manager is suspended, unless it is restored. -/
def KeepsSleep (w : World) (op : Op) : Prop :=
  w.manager.status.state = .suspended → ∀ w', unguardedRestore w op = some w' → w'.manager.Restored

theorem Stopped.sleepUndisturbed {w : World} (h : Stopped w) (hw : SleepUndisturbed w.log) {op : Op} (hop : KeepsSleep w op) :
    SleepUndisturbed (step env w op).log := by
  have hcourse : Course env (fun log => (viewOf log).prepared = false) w (step env w op) := by
    refine step_course env (fun _ hinv hphase => hinv.prepared hphase) h fun w' hunguarded => ?_
    by_cases hstate : w.manager.status.state = .suspended
    · obtain ⟨hlog, hshown⟩ := restoreDisplay_of_restored env (hop hstate w' hunguarded)
      exact Course.start.unlit hshown (by rw [hlog]; exact Unlit.refl _)
    · refine Course.start.restoreDisplay ?_
      rw [(unguardedRestore_same hunguarded).1]
      exact h.inv.prepared (phase_ne_sleep h.inv.state hstate)
  exact hcourse.sleepUndisturbed env hw

/-- An operation that does not keep to it disturbs the sleep. -/
theorem Stopped.keepsSleep {w : World} (h : Stopped w) {op : Op} (hop : SleepUndisturbed (step env w op).log) : KeepsSleep w op := by
  intro hstate w' hunguarded
  by_contra hnot
  obtain ⟨event, hcommands, events, hevents⟩ := restoreDisplay_of_not_restored env hnot
  rw [step_of_unguarded env hunguarded, ← hevents] at hop
  have hprepared := (Always.of_append hop).1 hcommands
  rw [(unguardedRestore_same hunguarded).1] at hprepared
  have hasleep : (viewOf w.log).prepared = true := h.inv.prepared_iff.2 (h.inv.state.sleep_iff.2 hstate)
  exact absurd (hasleep.symm.trans hprepared) (by decide)

variable {env} {policy : Policy} {nowMs : BitVec 64} {w : World}

/-- In a run that does not restore the display of a suspended manager, unless it is restored, no sleep is disturbed; and a further
operation disturbs one exactly if it does that. -/
theorem sleep_undisturbed (hinit : powerManagerInit env policy nowMs = some w) (ops : List Op)
    (hops : Along (step env) KeepsSleep w ops) :
    SleepUndisturbed (ops.foldl (step env) w).log ∧
    ∀ op, SleepUndisturbed (step env (ops.foldl (step env) w) op).log ↔ KeepsSleep (ops.foldl (step env) w) op := by
  have hinitial : Stopped w ∧ SleepUndisturbed w.log := by
    refine ⟨(powerManagerInit_spec hinit).1, ?_⟩
    unfold powerManagerInit at hinit
    split at hinit
    · cases hinit
    · obtain rfl := Option.some.inj hinit
      have hnothing : SleepUndisturbed [] := trivial
      unfold restoreDisplay
      exact sleepUndisturbed_setDisplay env rfl hnothing _ true
  obtain ⟨hstopped, hundisturbed⟩ := hops.invariant (fun w => Stopped w ∧ SleepUndisturbed w.log)
    (fun w op hw hop => ⟨step_spec env hw.1 op, hw.1.sleepUndisturbed env hw.2 hop⟩) hinitial
  exact ⟨hundisturbed, fun op => ⟨hstopped.keepsSleep env, hstopped.sleepUndisturbed env hundisturbed⟩⟩

/-- The inhibitors come and go before a suspend, and the platform wakes. -/
theorem sleep_undisturbed_inhibited :
    ∃ w, powerManagerInit .pendingOnce ⟨100, 0, 0, 1000, 75, 20, false⟩ 10 = some w ∧
      let w' := [Op.finalize, .setDimInhibitors 1 20, .setDimInhibitors 0 30, .call .requestSuspend, .update false true 40,
        .update false true 50].foldl (step .pendingOnce) w
      SleepUndisturbed w'.log ∧ ∀ op, SleepUndisturbed (step .pendingOnce w' op).log ↔ KeepsSleep w' op := by
  have hinit : powerManagerInit .pendingOnce ⟨100, 0, 0, 1000, 75, 20, false⟩ 10 = some _ := rfl
  refine ⟨_, hinit, sleep_undisturbed hinit _ ⟨?_, ?_, ?_, ?_, ?_, ?_, trivial⟩⟩
  · intro _ w' h
    cases h
  · intro hsuspended
    cases hsuspended
  · intro hsuspended
    cases hsuspended
  · intro _ w' h
    cases h
  · intro _ w' h
    cases h
  · intro _ w' h
    cases h

/-- An inhibitor that is set while a dimmed device sleeps turns its backlight up. -/
theorem sleep_disturbed_by_inhibitor :
    ∃ w, run .pendingOnce ⟨100, 0, 0, 1000, 75, 20, false⟩ 10
      [.finalize, .update true false 120, .call .requestSuspend, .update false true 130, .setDimInhibitors 1 140] = some w ∧
      ¬SleepUndisturbed w.log := by
  refine ⟨_, rfl, ?_⟩
  intro h
  have hprepared := h.1 trivial
  cases hprepared

end Power
end TabOS
