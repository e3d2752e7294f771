import TabOS.Power.Background

/-!
# The display of the power manager

A monitor of the commands of the display. All of them are made by `set_display`, which turns the panel off behind the backlight and on
before it. A course is what an operation does to the display: it goes on without a command, and by `set_display` where the events so
far allow it.
-/

namespace TabOS
namespace Power

open Library

/-! ## What the outside sees of the display -/

/-- The brightness that the last command of the backlight has set and what the last command of the panel has made of it; none where
the command failed. -/
structure DisplayView where
  brightness : Option (BitVec 8)
  panel : Option Bool
  deriving DecidableEq, Repr

namespace DisplayView

/-- The view of no events. -/
def initial : DisplayView := ⟨none, none⟩

/-- The view after one more event. -/
def observe (v : DisplayView) : Event → DisplayView
  | .setBrightness brightness done => { v with brightness := if done then some brightness else none }
  | .setPanelEnabled enabled done => { v with panel := if done then some enabled else none }
  | _ => v

end DisplayView

/-- The view of a log. -/
def displayOf (log : List Event) : DisplayView := watch DisplayView.observe DisplayView.initial log

@[simp] theorem displayOf_cons (event : Event) (log : List Event) :
    displayOf (event :: log) = (displayOf log).observe event := rfl

/-- When the display may be commanded: the panel off when the backlight is known to be off, the backlight on when the panel is known to
be on. -/
def DisplayAllowed (v : DisplayView) : Event → Prop
  | .setBrightness brightness _ => brightness ≠ 0 → v.panel = some true
  | .setPanelEnabled enabled _ => enabled = false → v.brightness = some 0
  | _ => True

/-- Every command of the display was allowed when it was made. -/
def DisplayOrdered (log : List Event) : Prop := Always DisplayView.observe DisplayView.initial DisplayAllowed log

theorem observe_of_not_commands {event : Event} (h : ¬event.Commands) (v : DisplayView) : v.observe event = v := by
  cases event <;> first | rfl | exact absurd trivial h

theorem displayAllowed_of_not_commands {event : Event} (h : ¬event.Commands) (v : DisplayView) : DisplayAllowed v event := by
  cases event <;> first | trivial | exact absurd trivial h

namespace Unlit

variable {log log' : List Event}

theorem displayOf_eq (h : Unlit log log') : displayOf log' = displayOf log := by
  obtain ⟨events, rfl, hevents⟩ := h
  induction events with
  | nil => rfl
  | cons event events ih =>
    rw [List.cons_append, displayOf_cons, observe_of_not_commands (hevents event List.mem_cons_self)]
    exact ih fun other hmem => hevents other (List.mem_cons_of_mem _ hmem)

theorem displayOrdered (h : Unlit log log') (hlog : DisplayOrdered log) : DisplayOrdered log' := by
  obtain ⟨events, rfl, hevents⟩ := h
  induction events with
  | nil => exact hlog
  | cons event events ih =>
    exact ⟨displayAllowed_of_not_commands (hevents event List.mem_cons_self) _,
      ih fun other hmem => hevents other (List.mem_cons_of_mem _ hmem)⟩

end Unlit

variable (env : Environment)

/-! ## Restorations in any state -/

/-- The world whose display an operation restores without a look at the state: a policy is set while there are inhibitors, or
inhibitors are set. -/
def unguardedRestore (w : World) : Op → Option World
  | .setPolicy policy _ =>
    if w.manager.finalized = true ∧ policyOk policy = true ∧ w.manager.status.state ≠ .shuttingDown ∧
        w.manager.status.dimInhibitors ≠ 0 then some (w.modifyStatus fun s => { s with policy := policy })
    else none
  | .setDimInhibitors inhibitors nowMs =>
    if w.manager.finalized = true ∧ w.manager.status.state ≠ .shuttingDown ∧ inhibitors ≠ 0 then
      some (leaveIdle nowMs (w.modifyStatus fun s => { s with dimInhibitors := inhibitors }))
    else none
  | _ => none

theorem step_of_unguarded {w w' : World} {op : Op} (h : unguardedRestore w op = some w') :
    step env w op = restoreDisplay env w' := by
  unfold unguardedRestore at h
  cases op with
  | setPolicy policy nowMs =>
    dsimp only at h
    split at h
    · rename_i hset
      obtain ⟨hfinalized, hok, hstate, hinhibited⟩ := hset
      obtain rfl := Option.some.inj h
      show powerManagerSetPolicy env policy nowMs w = _
      unfold powerManagerSetPolicy
      rw [if_neg]
      · exact if_pos hinhibited
      · rintro (hnot | hnot | hnot)
        · exact absurd (hnot.symm.trans hfinalized) (by decide)
        · exact absurd (hnot.symm.trans hok) (by decide)
        · exact hstate hnot
    · cases h
  | setDimInhibitors inhibitors nowMs =>
    dsimp only at h
    split at h
    · rename_i hset
      obtain ⟨hfinalized, hstate, hinhibited⟩ := hset
      obtain rfl := Option.some.inj h
      show powerManagerSetDimInhibitors env inhibitors nowMs w = _
      unfold powerManagerSetDimInhibitors
      rw [if_neg]
      · exact if_pos hinhibited
      · rintro (hnot | hnot)
        · exact absurd (hnot.symm.trans hfinalized) (by decide)
        · exact hstate hnot
    · cases h
  | _ => cases h

/-- What an operation restores without a look at the state has the log and the display of before. -/
theorem unguardedRestore_same {w w' : World} {op : Op} (h : unguardedRestore w op = some w') :
    w'.log = w.log ∧ w'.manager.shown = w.manager.shown := by
  unfold unguardedRestore at h
  cases op with
  | setPolicy policy nowMs =>
    dsimp only at h
    split at h
    · obtain rfl := Option.some.inj h
      exact ⟨rfl, rfl⟩
    · cases h
  | setDimInhibitors inhibitors nowMs =>
    dsimp only at h
    split at h
    · obtain rfl := Option.some.inj h
      unfold leaveIdle
      split <;> exact ⟨rfl, rfl⟩
    · cases h
  | _ => cases h

/-! ## The commands of the display -/

/-- The manager knows the display, and it has been commanded in order. -/
structure Lit (w : World) : Prop where
  brightness : w.manager.status.brightnessValid = true →
    (displayOf w.log).brightness = some w.manager.status.effectiveBrightness
  panel : w.manager.status.panelValid = true → (displayOf w.log).panel = some w.manager.status.panelEnabled
  ordered : DisplayOrdered w.log

namespace Lit

variable {w w' : World}

/-- What does not change what the manager knows and makes no command leaves the display in order. -/
theorem congr (h : Lit w) (hshown : w'.manager.shown = w.manager.shown) (hlog : Unlit w.log w'.log) : Lit w' := by
  have hbrightness : w'.manager.status.effectiveBrightness = w.manager.status.effectiveBrightness :=
    congrArg Shown.effectiveBrightness hshown
  have hbrightnessValid : w'.manager.status.brightnessValid = w.manager.status.brightnessValid :=
    congrArg Shown.brightnessValid hshown
  have hpanel : w'.manager.status.panelEnabled = w.manager.status.panelEnabled := congrArg Shown.panelEnabled hshown
  have hpanelValid : w'.manager.status.panelValid = w.manager.status.panelValid := congrArg Shown.panelValid hshown
  refine ⟨?_, ?_, hlog.displayOrdered h.ordered⟩
  · rw [hbrightness, hbrightnessValid, hlog.displayOf_eq]
    exact h.brightness
  · rw [hpanel, hpanelValid, hlog.displayOf_eq]
    exact h.panel

theorem background (h : Lit w) (hback : Background w w') : Lit w' := h.congr hback.shown hback.log

theorem modifyStatus (h : Lit w) {f : Status → Status} (hshown : (w.modifyStatus f).manager.shown = w.manager.shown) :
    Lit (w.modifyStatus f) := h.congr hshown (Unlit.refl _)

/-- The backlight is turned on while the panel is known to be on, or off. -/
theorem setBrightness (h : Lit w) (brightness : BitVec 8) (hon : brightness ≠ 0 → (displayOf w.log).panel = some true) :
    Lit (setBrightness env brightness w).2 ∧
    ((Power.setBrightness env brightness w).1 = true →
      (displayOf (Power.setBrightness env brightness w).2.log).brightness = some brightness) := by
  unfold Power.setBrightness
  have hdesired : Lit (w.modifyStatus fun s => { s with desiredBrightness := brightness }) := h.modifyStatus rfl
  dsimp only
  split
  · rename_i hcached
    obtain ⟨hvalid, hsame⟩ := hcached
    exact ⟨hdesired, fun _ => hsame ▸ hdesired.brightness hvalid⟩
  · have hordered : ∀ done, DisplayOrdered (.setBrightness brightness done :: w.log) := fun _ => ⟨hon, h.ordered⟩
    split
    · refine ⟨⟨?_, hdesired.panel, hordered _⟩, ?_⟩
      · intro hvalid
        cases hvalid
      · intro hdone
        cases hdone
    · rename_i hdone
      rw [Bool.not_eq_false] at hdone
      have hset : (displayOf (.setBrightness brightness (env.succeeds w.asked) :: w.log)).brightness = some brightness := by
        rw [displayOf_cons, DisplayView.observe]
        exact if_pos hdone
      exact ⟨⟨fun _ => hset, hdesired.panel, hordered _⟩, fun _ => hset⟩

/-- The panel is turned off while the backlight is known to be off, or on. -/
theorem setPanel (h : Lit w) (enabled : Bool) (hoff : enabled = false → (displayOf w.log).brightness = some 0) :
    Lit (setPanel env enabled w).2 ∧
    ((Power.setPanel env enabled w).1 = true → (displayOf (Power.setPanel env enabled w).2.log).panel = some enabled) := by
  unfold Power.setPanel
  split
  · rename_i hcached
    obtain ⟨hvalid, hsame⟩ := hcached
    exact ⟨h, fun _ => hsame ▸ h.panel hvalid⟩
  · have hordered : ∀ done, DisplayOrdered (.setPanelEnabled enabled done :: w.log) := fun _ => ⟨hoff, h.ordered⟩
    dsimp only
    split
    · refine ⟨⟨h.brightness, ?_, hordered _⟩, ?_⟩
      · intro hvalid
        cases hvalid
      · intro hdone
        cases hdone
    · rename_i hdone
      rw [Bool.not_eq_false] at hdone
      have hset : (displayOf (.setPanelEnabled enabled (env.succeeds w.asked) :: w.log)).panel = some enabled := by
        rw [displayOf_cons, DisplayView.observe]
        exact if_pos hdone
      exact ⟨⟨h.brightness, fun _ => hset, hordered _⟩, fun _ => hset⟩

/-- `set_display` turns the panel off behind the backlight and on before it. -/
theorem setDisplay (h : Lit w) (brightness : BitVec 8) (panelEnabled : Bool) : Lit (setDisplay env brightness panelEnabled w) := by
  unfold Power.setDisplay
  have hdesired : Lit (w.modifyStatus fun s => { s with desiredBrightness := brightness }) := h.modifyStatus rfl
  dsimp only
  generalize (w.modifyStatus fun s => { s with desiredBrightness := brightness }) = w1 at *
  split
  · have hset := setBrightness env hdesired 0 fun hnot => absurd rfl hnot
    split <;> rename_i heq <;> rw [heq] at hset
    · exact (setPanel env hset.1 false fun _ => hset.2 rfl).1
    · exact hset.1
  · have hset := setPanel env hdesired true fun hnot => by cases hnot
    split <;> rename_i heq <;> rw [heq] at hset
    · exact (setBrightness env hset.1 brightness fun _ => hset.2 rfl).1
    · exact hset.1

theorem restoreDisplay (h : Lit w) : Lit (restoreDisplay env w) := by
  unfold Power.restoreDisplay
  exact setDisplay env (h.modifyStatus rfl) _ true

theorem applyIdleDisplay (h : Lit w) (nowMs : BitVec 64) : Lit (applyIdleDisplay env nowMs w) := by
  unfold Power.applyIdleDisplay
  exact setDisplay env (h.modifyStatus rfl) _ _

end Lit

/-! ## Courses -/

/-- One world comes from another without a command of the display, and by `set_display` where the events so far allow it. -/
inductive Course (awake : List Event → Prop) (w : World) : World → Prop
  | start : Course awake w w
  | unlit {w' w'' : World} (h : Course awake w w') (hshown : w''.manager.shown = w'.manager.shown)
      (hlog : Unlit w'.log w''.log) : Course awake w w''
  | command {w' : World} (h : Course awake w w') (brightness : BitVec 8) (panelEnabled : Bool) (hawake : awake w'.log) :
      Course awake w (setDisplay env brightness panelEnabled w')

namespace Course

variable {env} {awake awake' : List Event → Prop} {w w' w'' : World}

theorem trans (h : Course env awake w w') (h' : Course env awake w' w'') : Course env awake w w'' := by
  induction h' with
  | start => exact h
  | unlit _ hshown hlog ih => exact ih.unlit hshown hlog
  | command _ brightness panelEnabled hawake ih => exact ih.command brightness panelEnabled hawake

theorem background (h : Course env awake w w') (hback : Background w' w'') : Course env awake w w'' :=
  h.unlit hback.shown hback.log

theorem modify (h : Course env awake w w') {f : Manager → Manager} (hshown : (f w'.manager).shown = w'.manager.shown) :
    Course env awake w (w'.modify f) := h.unlit hshown (Unlit.refl _)

theorem modifyStatus (h : Course env awake w w') {f : Status → Status}
    (hshown : (w'.modifyStatus f).manager.shown = w'.manager.shown) : Course env awake w (w'.modifyStatus f) :=
  h.unlit hshown (Unlit.refl _)

theorem leaveIdle (h : Course env awake w w') (nowMs : BitVec 64) : Course env awake w (leaveIdle nowMs w') := by
  unfold Power.leaveIdle
  split
  · exact h.modifyStatus rfl
  · exact h

theorem restoreDisplay (h : Course env awake w w') (hawake : awake w'.log) : Course env awake w (restoreDisplay env w') := by
  unfold Power.restoreDisplay
  exact (h.modifyStatus rfl).command _ true hawake

theorem applyIdleDisplay (h : Course env awake w w') (nowMs : BitVec 64) (hawake : awake w'.log) :
    Course env awake w (applyIdleDisplay env nowMs w') := by
  unfold Power.applyIdleDisplay
  exact (h.modifyStatus rfl).command _ _ hawake

/-- A course keeps the display in order. -/
theorem lit (h : Course env awake w w') (hw : Lit w) : Lit w' := by
  induction h with
  | start => exact hw
  | unlit _ hshown hlog ih => exact ih.congr hshown hlog
  | command _ brightness panelEnabled _ ih => exact ih.setDisplay env brightness panelEnabled

end Course

theorem shown_register (registration : Participant) (m : Manager) : (powerManagerRegister registration m).shown = m.shown := by
  unfold powerManagerRegister
  split
  · rfl
  · split
    · rfl
    · split
      · rfl
      · split <;> rfl

theorem phase_ne_sleep {phase : Phase} {state : State} (h : StateOf phase state) (hstate : state ≠ .suspended) : phase ≠ .sleep := by
  rintro rfl
  exact hstate h

section Operations

variable {awake : List Event → Prop} (hawake : ∀ w, Inv w → w.manager.phase ≠ .sleep → awake w.log)

include hawake

/-- The driver commands the display when it finishes a resume, and then the platform does not sleep. -/
theorem drive_course {w : World} (h : Inv w) (nowMs : BitVec 64) : Course env awake w (drive env nowMs w) := by
  rcases drive_cases env nowMs w with ⟨-, hdrive⟩ | ⟨-, w', hfinish, heq⟩
  · exact Course.start.background hdrive
  · have hphase : w'.manager.phase ≠ .sleep := by
      rw [hfinish.atFinish.1]
      decide
    rw [heq, finish]
    exact ((Course.start.background hfinish.background).modify rfl).restoreDisplay (hawake w' (hfinish.inv h) hphase)

theorem noticeActivity_course {w : World} (h : Stopped w) (activity : Bool) (activityMs nowMs : BitVec 64) :
    Course env awake w (noticeActivity env activity activityMs nowMs w) := by
  unfold noticeActivity
  split
  · have hleft : Stopped (leaveIdle nowMs (w.modifyStatus fun s => { s with lastActivityMs := activityMs })) :=
      (h.quiet (Quiet.modifyStatus (by intro s; exact ⟨rfl, rfl, rfl⟩) w)).leaveIdle nowMs
    have hcourse : Course env awake w (leaveIdle nowMs (w.modifyStatus fun s => { s with lastActivityMs := activityMs })) :=
      (Course.start.modifyStatus rfl).leaveIdle nowMs
    dsimp only
    split
    · rename_i hactive
      refine hcourse.restoreDisplay (hawake _ hleft.inv (phase_ne_sleep hleft.inv.state ?_))
      rw [hactive]
      decide
    · exact hcourse
  · exact Course.start

theorem noticeDeadline_course {w : World} (h : Stopped w) (deadline : Bool) (nowMs : BitVec 64) :
    Course env awake w (noticeDeadline env deadline nowMs w).2 := by
  unfold noticeDeadline
  split
  · dsimp only
    split
    · rename_i hactive
      refine (Course.start.modifyStatus rfl).applyIdleDisplay nowMs (hawake w h.inv (phase_ne_sleep h.inv.state ?_))
      rw [hactive]
      decide
    · split
      · rename_i hidle
        refine Course.start.applyIdleDisplay nowMs (hawake w h.inv (phase_ne_sleep h.inv.state ?_))
        rw [hidle]
        decide
      · exact Course.start
  · exact Course.start

theorem serveRequest_course {w : World} (h : Inv w) (hfinalized : w.manager.finalized = true) (request : Bool) (nowMs : BitVec 64) :
    Course env awake w (serveRequest env request nowMs w) := by
  unfold serveRequest
  split
  · split
    · rename_i hstate
      have hphase := h.state.phase_eq hstate
      rcases start_cases env nowMs w with ⟨-, hrefused, -⟩ | ⟨haccepted, heq⟩
      · exact Course.start.background hrefused
      · have hquiet := quiet_collectBlockers env w
        have havailable : w.manager.status.suspendAvailable = true := by
          by_contra hnot
          exact haccepted (Or.inl (Bool.not_eq_true _ ▸ hnot))
        have hbegin : Inv ((collectBlockers env w).modify (beginSuspend nowMs)) := by
          refine beginSuspend_spec (h.quiet hquiet) ?_ ?_ ?_ nowMs
          · exact (congrArg Core.phase hquiet.core).trans hphase
          · exact (congrArg Core.finalized hquiet.core).trans hfinalized
          · exact (congrArg Core.suspendAvailable hquiet.core).trans havailable
        rw [heq]
        exact ((Course.start.background (background_collectBlockers env w)).modify rfl).trans (drive_course env hawake hbegin nowMs)
    · exact Course.start.background (Background.failure _ _ w)
  · exact Course.start

/-- An update makes its commands while the platform does not sleep. -/
theorem powerManagerUpdate_course {w : World} (h : Stopped w) (deadline power : Bool) (nowMs : BitVec 64) :
    Course env awake w (powerManagerUpdate env deadline power nowMs w) := by
  unfold powerManagerUpdate
  split
  · exact Course.start
  rename_i hnot
  have hfinalized : w.manager.finalized = true := by
    by_contra hf
    exact hnot (Or.inl (Bool.not_eq_true _ ▸ hf))
  have hcalls := meanwhile_spec env w
  have hstopped := h.meanwhile hcalls
  have hfinalized1 : (meanwhile env w).manager.finalized = true := (congrArg Core.finalized hcalls.core).trans hfinalized
  have hcourse : Course env awake w (meanwhile env w) := Course.start.background (background_meanwhile env w)
  dsimp only
  generalize meanwhile env w = w1 at *
  have htaken : Quiet w1 (w1.modify fun m => { m with suspendRequested := false, activityRequested := false }) :=
    Quiet.modify (by intro m; rfl) w1
  have hcourse1 : Course env awake w (w1.modify fun m => { m with suspendRequested := false, activityRequested := false }) :=
    hcourse.modify rfl
  have h1 := hstopped.quiet htaken
  have hfinalized2 : (w1.modify fun m => { m with suspendRequested := false, activityRequested := false }).manager.finalized = true :=
    hfinalized1
  generalize (w1.modify fun m => { m with suspendRequested := false, activityRequested := false }) = w2 at *
  have h2 := noticeActivity_spec env h1 w1.manager.activityRequested w1.manager.activityMs nowMs
  have hcourse2 := hcourse1.trans (noticeActivity_course env hawake h1 w1.manager.activityRequested w1.manager.activityMs nowMs)
  have hfinalized3 := (finalized_noticeActivity env w1.manager.activityRequested w1.manager.activityMs nowMs w2).trans hfinalized2
  generalize noticeActivity env w1.manager.activityRequested w1.manager.activityMs nowMs w2 = w3 at *
  have h3 := noticeDeadline_spec env h2 deadline nowMs
  have hcourse3 := hcourse2.trans (noticeDeadline_course env hawake h2 deadline nowMs)
  have hfinalized4 := (finalized_noticeDeadline env deadline nowMs w3).trans hfinalized3
  cases hdeadline : noticeDeadline env deadline nowMs w3 with
  | mk suspend w4 =>
  rw [hdeadline] at h3 hcourse3 hfinalized4
  have h4 := noticeWake_spec env h3.inv power nowMs
  have hcourse4 := hcourse3.background (background_noticeWake env power nowMs w4)
  have hfinalized5 := (finalized_noticeWake env power nowMs w4).trans hfinalized4
  have hserve := serveRequest_course env hawake h4 hfinalized5 (w1.manager.suspendRequested || suspend) nowMs
  have h5 := serveRequest_spec env h4 hfinalized5 (w1.manager.suspendRequested || suspend) nowMs
  exact (hcourse4.trans hserve).trans (drive_course env hawake h5 nowMs)

/-- A policy that is set without inhibitors commands the display of a manager that is active or idle. -/
theorem powerManagerSetPolicy_course {w : World} (h : Stopped w) (policy : Policy) (nowMs : BitVec 64)
    (hunguarded : unguardedRestore w (.setPolicy policy nowMs) = none) :
    Course env awake w (powerManagerSetPolicy env policy nowMs w) := by
  unfold powerManagerSetPolicy
  split
  · exact Course.start
  rename_i hset
  have hawaken : w.manager.status.state = .active ∨ w.manager.status.state = .idle → awake w.log := by
    intro hstate
    refine hawake w h.inv (phase_ne_sleep h.inv.state ?_)
    rcases hstate with hstate | hstate <;> rw [hstate] <;> decide
  dsimp only
  split
  · rename_i hinhibited
    rw [not_or, not_or, Bool.not_eq_false, Bool.not_eq_false] at hset
    obtain ⟨hfinalized, hok, hstate⟩ := hset
    cases (if_pos ⟨hfinalized, hok, hstate, hinhibited⟩).symm.trans hunguarded
  split
  · rename_i hstate
    split
    · exact ((Course.start.modifyStatus rfl).modifyStatus rfl).applyIdleDisplay nowMs (hawaken hstate)
    · exact ((Course.start.modifyStatus rfl).modifyStatus rfl).restoreDisplay (hawaken hstate)
  · exact Course.start.modifyStatus rfl

omit hawake in
theorem powerManagerSetDimInhibitors_course {w : World} (inhibitors : BitVec 32) (nowMs : BitVec 64)
    (hunguarded : unguardedRestore w (.setDimInhibitors inhibitors nowMs) = none) :
    Course env awake w (powerManagerSetDimInhibitors env inhibitors nowMs w) := by
  unfold powerManagerSetDimInhibitors
  split
  · exact Course.start
  rename_i hset
  dsimp only
  split
  · rename_i hinhibited
    rw [not_or, Bool.not_eq_false] at hset
    obtain ⟨hfinalized, hstate⟩ := hset
    cases (if_pos ⟨hfinalized, hstate, hinhibited⟩).symm.trans hunguarded
  split
  · exact ((Course.start.modifyStatus rfl).modifyStatus rfl).leaveIdle nowMs
  · exact Course.start.modifyStatus rfl

/-- An operation makes its commands while the platform does not sleep, but for what it restores without a look at the state. -/
theorem step_course {w : World} (h : Stopped w) {op : Op}
    (hrestore : ∀ w', unguardedRestore w op = some w' → Course env awake w' (restoreDisplay env w')) :
    Course env awake w (step env w op) := by
  cases hunguarded : unguardedRestore w op with
  | some w' =>
    obtain ⟨hlog, hshown⟩ := unguardedRestore_same hunguarded
    rw [step_of_unguarded env hunguarded]
    exact (Course.start.unlit hshown (by rw [hlog]; exact Unlit.refl _)).trans (hrestore w' hunguarded)
  | none =>
    cases op with
    | register registration => exact Course.start.modify (shown_register registration w.manager)
    | finalize =>
      unfold step
      dsimp only
      split
      · exact Course.start
      · split
        · exact Course.start
        · rename_i hm
          rw [powerManagerFinalize_eq hm]
          exact Course.start.modify (f := fun m => { m with
            status := _, dependencyOrder := _, finalized := _ }) rfl
    | call call => exact Course.start.background (background_call call w)
    | setPolicy policy nowMs => exact powerManagerSetPolicy_course env hawake h policy nowMs hunguarded
    | setDimInhibitors inhibitors nowMs => exact powerManagerSetDimInhibitors_course env inhibitors nowMs hunguarded
    | update deadline power nowMs => exact powerManagerUpdate_course env hawake h deadline power nowMs

end Operations

/-! ## Lives -/

/-- A manager that is shutting down. -/
structure ShuttingDown (w : World) : Prop where
  finalized : w.manager.finalized = true
  state : w.manager.status.state = .shuttingDown

namespace ShuttingDown

variable {w w' : World}

theorem quiet (h : ShuttingDown w) (hquiet : Quiet w w') : ShuttingDown w' :=
  ⟨(congrArg Core.finalized hquiet.core).trans h.finalized, (congrArg Core.state hquiet.core).trans h.state⟩

/-- A manager that is shutting down does nothing more. -/
theorem step (h : ShuttingDown w) (op : Op) : ShuttingDown (step env w op) ∧ Background w (step env w op) := by
  cases op with
  | register registration =>
    have heq : powerManagerRegister registration w.manager = refuseRegistration .argument [] w.manager := if_pos (Or.inl h.finalized)
    show ShuttingDown { w with manager := powerManagerRegister registration w.manager } ∧
      Background w { w with manager := powerManagerRegister registration w.manager }
    rw [heq]
    exact ⟨⟨h.finalized, h.state⟩, Background.modify (f := refuseRegistration .argument []) rfl rfl rfl rfl⟩
  | finalize =>
    have heq : Power.step env w .finalize = w := if_pos h.finalized
    rw [heq]
    exact ⟨h, Background.refl w⟩
  | call call =>
    have hcore := (Meanwhile.call call w).core
    exact ⟨⟨(congrArg Core.finalized hcore).trans h.finalized, (congrArg Core.state hcore).trans h.state⟩, background_call call w⟩
  | setPolicy policy nowMs =>
    have heq : powerManagerSetPolicy env policy nowMs w = w := if_pos (Or.inr (Or.inr h.state))
    show ShuttingDown (powerManagerSetPolicy env policy nowMs w) ∧ Background w (powerManagerSetPolicy env policy nowMs w)
    rw [heq]
    exact ⟨h, Background.refl w⟩
  | setDimInhibitors inhibitors nowMs =>
    have heq : powerManagerSetDimInhibitors env inhibitors nowMs w = w := if_pos (Or.inr h.state)
    show ShuttingDown (powerManagerSetDimInhibitors env inhibitors nowMs w) ∧
      Background w (powerManagerSetDimInhibitors env inhibitors nowMs w)
    rw [heq]
    exact ⟨h, Background.refl w⟩
  | update deadline power nowMs =>
    have heq : powerManagerUpdate env deadline power nowMs w = w := if_pos (Or.inr h.state)
    show ShuttingDown (powerManagerUpdate env deadline power nowMs w) ∧ Background w (powerManagerUpdate env deadline power nowMs w)
    rw [heq]
    exact ⟨h, Background.refl w⟩

end ShuttingDown

/-- A manager between operations: it may be shutting down. -/
def Between (w : World) : Prop := Stopped w ∨ ShuttingDown w

theorem powerManagerBeginShutdown_spec {w : World} (h : Between w) (nowMs : BitVec 64) :
    Between (powerManagerBeginShutdown nowMs w) := by
  unfold powerManagerBeginShutdown
  split
  · rename_i hfinalized
    exact Or.inr ⟨hfinalized, rfl⟩
  · exact h

theorem lifeStep_spec {w : World} (h : Between w) (op : LifeOp) : Between (lifeStep env w op) := by
  cases op with
  | op op => exact h.imp (fun hstopped => step_spec env hstopped op) fun hshutting => (hshutting.step env op).1
  | beginShutdown nowMs => exact powerManagerBeginShutdown_spec h nowMs

theorem lifeStep_lit {w : World} (h : Between w) (hlit : Lit w) (op : LifeOp) : Lit (lifeStep env w op) := by
  cases op with
  | op op =>
    rcases h with hstopped | hshutting
    · have hcourse : Course env (fun _ => True) w (step env w op) :=
        step_course env (fun _ _ _ => trivial) hstopped fun _ _ => Course.start.restoreDisplay trivial
      exact hcourse.lit hlit
    · exact hlit.background (hshutting.step env op).2
  | beginShutdown nowMs =>
    show Lit (powerManagerBeginShutdown nowMs w)
    unfold powerManagerBeginShutdown
    split
    · exact hlit.congr rfl (Unlit.refl _)
    · exact hlit

variable {env} {policy : Policy} {nowMs : BitVec 64} {w : World}

/-- What `power_manager_init` makes is at rest, and its display is in order. -/
theorem powerManagerInit_spec (h : powerManagerInit env policy nowMs = some w) : Stopped w ∧ Lit w := by
  unfold powerManagerInit at h
  split at h
  · cases h
  · obtain rfl := Option.some.inj h
    have hlit : Lit ⟨.initial policy nowMs, [], 0⟩ :=
      ⟨fun hvalid => (by cases hvalid), fun hvalid => (by cases hvalid), trivial⟩
    exact ⟨(initial_spec policy nowMs).quiet (quiet_restoreDisplay env _), hlit.restoreDisplay env⟩

theorem life_spec {ops : List LifeOp} (h : life env policy nowMs ops = some w) : Between w ∧ Lit w := by
  obtain ⟨w0, hinit, rfl⟩ := Option.map_eq_some_iff.1 h
  obtain ⟨hstopped, hlit⟩ := powerManagerInit_spec hinit
  exact foldl_invariant (fun w => Between w ∧ Lit w)
    (fun w op hw => ⟨lifeStep_spec env hw.1 op, lifeStep_lit env hw.1 hw.2 op⟩) ops ⟨Or.inl hstopped, hlit⟩

/-- Whatever the operations and the failures of the platform, the panel is turned off behind the backlight and on before it. -/
theorem panel_and_backlight_ordered {ops : List LifeOp} (h : life env policy nowMs ops = some w) : DisplayOrdered w.log :=
  (life_spec h).2.ordered

/-- A platform whose commands fail every third time. -/
def Environment.failing : Environment where
  succeeds asked := decide (asked % 3 ≠ 2)
  callback _ := .success
  blocked _ := (false, [])
  wakeCauses _ := 1
  calls _ := []

/-- The display is dimmed and turned off, restored for an activity, and turned off again. -/
def displayOps : List LifeOp :=
  [.op .finalize, .op (.update true false 120), .op (.update true false 150), .op (.update true false 170),
    .op (.call (.requestActivity 180)), .op (.update false true 180), .op (.setDimInhibitors 1 200), .op (.setDimInhibitors 0 210),
    .op (.update true false 400), .op (.call .requestSuspend), .op (.update false true 410), .op (.update false true 420),
    .beginShutdown 430]

theorem panel_and_backlight_ordered_failing :
    ∃ w, life .failing ⟨100, 120, 140, 1000, 75, 20, false⟩ 10 displayOps = some w ∧ DisplayOrdered w.log := by
  obtain ⟨w, hw⟩ := Option.isSome_iff_exists.1
    (show (life .failing ⟨100, 120, 140, 1000, 75, 20, false⟩ 10 displayOps).isSome from rfl)
  exact ⟨w, hw, panel_and_backlight_ordered hw⟩

end Power
end TabOS
