import TabOS.Power.Deadlines

/-!
# The inhibitors of the power manager

While there is an inhibitor, the manager is not idle, the inactivity has asked the display for nothing, and no operation starts a
suspend sequence. A sequence that is under way when the inhibitor comes goes on: what the driver does is seen in the events, of which
those of a suspend are only made by a manager that is suspending.
-/

namespace TabOS
namespace Power

open Library

/-! ## Suspend sequences -/

/-- An event of a suspend sequence: a participant is taken down, or the platform is prepared or put to sleep. -/
def Event.Suspends : Event → Prop
  | .called token => token.operation = .suspend
  | .prepareSleep _ => True
  | .enterLightSleep _ => True
  | _ => False

/-- No suspend sequence is started: the generation counts no other one, the manager does not come to be suspending, and there is no event
of a sequence unless it was. -/
structure Unstarted (w w' : World) : Prop where
  generation : w'.manager.status.generation = w.manager.status.generation
  suspending : w'.manager.status.state = .suspending → w.manager.status.state = .suspending
  log : ∃ events, w'.log = events ++ w.log ∧ ∀ event ∈ events, event.Suspends → w.manager.status.state = .suspending

namespace Unstarted

variable {w w' w'' : World}

theorem refl (w : World) : Unstarted w w := ⟨rfl, id, [], rfl, fun _ hmem => absurd hmem List.not_mem_nil⟩

theorem trans (h : Unstarted w w') (h' : Unstarted w' w'') : Unstarted w w'' := by
  obtain ⟨hgeneration, hsuspending, events, hlog, hevents⟩ := h
  obtain ⟨hgeneration', hsuspending', events', hlog', hevents'⟩ := h'
  refine ⟨hgeneration'.trans hgeneration, fun hstate => hsuspending (hsuspending' hstate), events' ++ events, ?_, ?_⟩
  · rw [hlog', hlog, List.append_assoc]
  · intro event hmem hsuspends
    rcases List.mem_append.1 hmem with hmem | hmem
    · exact hsuspending (hevents' event hmem hsuspends)
    · exact hevents event hmem hsuspends

/-- The manager is changed, but for the generation, and is not suspending after it. -/
theorem modify {f : Manager → Manager} (hgeneration : (f w.manager).status.generation = w.manager.status.generation)
    (hstate : (f w.manager).status.state = w.manager.status.state ∨ (f w.manager).status.state ≠ .suspending) :
    Unstarted w (w.modify f) := by
  refine ⟨hgeneration, fun hsuspending => ?_, [], rfl, fun _ hmem => absurd hmem List.not_mem_nil⟩
  rcases hstate with hsame | hnot
  · exact hsame.symm.trans hsuspending
  · exact absurd hsuspending hnot

theorem modifyStatus {f : Status → Status} (hgeneration : (f w.manager.status).generation = w.manager.status.generation)
    (hstate : (f w.manager.status).state = w.manager.status.state ∨ (f w.manager.status).state ≠ .suspending) :
    Unstarted w (w.modifyStatus f) :=
  modify (f := fun m => { m with status := f m.status }) hgeneration hstate

theorem failure (code : FailureCode) (name : Name) (w : World) : Unstarted w (w.modify (Power.failure code name)) :=
  modify rfl (Or.inl rfl)

theorem record {a : Event} (h : a.Suspends → w.manager.status.state = .suspending) : Unstarted w (w.record a) := by
  refine ⟨rfl, id, [a], rfl, ?_⟩
  intro event hmem hsuspends
  rw [List.mem_singleton.1 hmem] at hsuspends
  exact h hsuspends

theorem ask (w : World) : Unstarted w w.ask := ⟨rfl, id, [], rfl, fun _ hmem => absurd hmem List.not_mem_nil⟩

end Unstarted

/-! ## The display and the calls -/

variable (env : Environment)

theorem unstarted_setBrightness (brightness : BitVec 8) (w : World) : Unstarted w (setBrightness env brightness w).2 := by
  have hdesired : Unstarted w (w.modifyStatus fun s => { s with desiredBrightness := brightness }) :=
    Unstarted.modifyStatus rfl (Or.inl rfl)
  unfold setBrightness
  dsimp only
  split
  · exact hdesired
  · have hrecord := hdesired.trans (Unstarted.record (a := .setBrightness brightness (env.succeeds w.asked)) False.elim)
    split
    · dsimp only
      refine (hrecord.trans (Unstarted.modifyStatus ?_ (Or.inl ?_))).trans (Unstarted.failure _ _ _) <;> rfl
    · dsimp only
      refine hrecord.trans (Unstarted.modifyStatus ?_ (Or.inl ?_)) <;> rfl

theorem unstarted_setPanel (enabled : Bool) (w : World) : Unstarted w (setPanel env enabled w).2 := by
  unfold setPanel
  dsimp only
  split
  · exact Unstarted.refl w
  · have hrecord : Unstarted w (w.record (.setPanelEnabled enabled (env.succeeds w.asked))) := Unstarted.record False.elim
    split
    · dsimp only
      refine (hrecord.trans (Unstarted.modifyStatus ?_ (Or.inl ?_))).trans (Unstarted.failure _ _ _) <;> rfl
    · dsimp only
      refine hrecord.trans (Unstarted.modifyStatus ?_ (Or.inl ?_)) <;> rfl

theorem unstarted_setDisplay (brightness : BitVec 8) (panelEnabled : Bool) (w : World) :
    Unstarted w (setDisplay env brightness panelEnabled w) := by
  have hdesired : Unstarted w (w.modifyStatus fun s => { s with desiredBrightness := brightness }) :=
    Unstarted.modifyStatus rfl (Or.inl rfl)
  unfold setDisplay
  dsimp only
  generalize (w.modifyStatus fun s => { s with desiredBrightness := brightness }) = w1 at *
  split
  · have hset := hdesired.trans (unstarted_setBrightness env 0 w1)
    split <;> rename_i heq <;> rw [heq] at hset
    · exact hset.trans (unstarted_setPanel env false _)
    · exact hset
  · have hset := hdesired.trans (unstarted_setPanel env true w1)
    split <;> rename_i heq <;> rw [heq] at hset
    · exact hset.trans (unstarted_setBrightness env brightness _)
    · exact hset

theorem unstarted_restoreDisplay (w : World) : Unstarted w (restoreDisplay env w) := by
  unfold restoreDisplay
  dsimp only
  refine Unstarted.trans ?_ (unstarted_setDisplay env _ true _)
  exact Unstarted.modifyStatus rfl (Or.inl rfl)

theorem unstarted_applyIdleDisplay (nowMs : BitVec 64) (w : World) : Unstarted w (applyIdleDisplay env nowMs w) := by
  unfold applyIdleDisplay
  dsimp only
  refine Unstarted.trans ?_ (unstarted_setDisplay env _ _ _)
  exact Unstarted.modifyStatus rfl (Or.inl rfl)

theorem unstarted_leaveIdle (nowMs : BitVec 64) (w : World) : Unstarted w (leaveIdle nowMs w) := by
  unfold leaveIdle
  split
  · exact Unstarted.modifyStatus rfl (Or.inr (show State.active ≠ .suspending by decide))
  · exact Unstarted.refl w

theorem unstarted_call (call : Call) (w : World) : Unstarted w (call.make w) := by
  cases call with
  | requestSuspend => exact Unstarted.modify (f := fun m => { m with suspendRequested := true }) rfl (Or.inl rfl)
  | requestActivity nowMs =>
    exact Unstarted.modify (f := fun m => { m with activityRequested := true, activityMs := nowMs }) rfl (Or.inl rfl)
  | complete token result =>
    show Unstarted w (powerManagerComplete token result w)
    unfold powerManagerComplete
    split
    · exact Unstarted.refl w
    · have hrecord : Unstarted w (w.record (.completed token result)) := Unstarted.record False.elim
      dsimp only
      split
      · exact hrecord.trans (Unstarted.modify rfl (Or.inl rfl))
      · exact hrecord

theorem unstarted_meanwhile (w : World) : Unstarted w (meanwhile env w) := by
  unfold meanwhile
  exact foldl_invariant (fun w' => Unstarted w w') (fun w' call h => h.trans (unstarted_call call w')) (env.calls w.asked)
    (Unstarted.ask w)

/-! ## The driver -/

theorem unstarted_rollback (nowMs : BitVec 64) (code : FailureCode) (name : Name) (w : World) :
    Unstarted w (rollback nowMs code name w) := by
  have hfailure := Unstarted.failure code name w
  have hresume : ∀ w', Unstarted w' (w'.modify (beginResume nowMs .rollback)) :=
    fun w' => Unstarted.modify (f := beginResume nowMs .rollback) rfl (Or.inr (show State.resuming ≠ .suspending by decide))
  unfold rollback
  dsimp only
  split
  · exact (hfailure.trans (Unstarted.record (a := .abortSleep) False.elim)).trans (hresume _)
  · exact hfailure.trans (hresume _)

/-- A callback belongs to a suspend sequence when it takes a participant down. -/
theorem unstarted_callback (index : Nat) (operation : Operation) {w : World}
    (h : operation = .suspend → w.manager.status.state = .suspending) : Unstarted w (callback env index operation w).2 := by
  unfold callback beginCallback expectCompletion
  dsimp only
  have hcalls := unstarted_meanwhile env w
  have hstate : (meanwhile env w).manager.status.state = w.manager.status.state := congrArg Core.state (meanwhile_spec env w).core
  generalize meanwhile env w = w1 at *
  have htrace : ∀ name (m : Manager), trace name operation m = { m with trace := (trace name operation m).trace } := by
    intro name m
    unfold trace
    split <;> rfl
  refine Unstarted.trans ?_ (Unstarted.record False.elim)
  refine Unstarted.trans ?_ (unstarted_meanwhile env _)
  refine Unstarted.trans (hcalls.trans ?_) (Unstarted.record ?_)
  · have hexpected : Unstarted w1 (w1.modify fun m => { m with
        expected := ⟨w.manager.status.generation, index, operation⟩, completionReady := false }) :=
      Unstarted.modify rfl (Or.inl rfl)
    refine hexpected.trans (Unstarted.modify ?_ (Or.inl ?_))
    · rw [htrace]
    · rw [htrace]
  · intro hsuspends
    have hbefore := hstate.trans (h hsuspends)
    show (trace _ operation _).status.state = .suspending
    rw [htrace]
    exact hbefore

theorem unstarted_suspendCompleted (nowMs : BitVec 64) (result : CallbackResult) (w : World) :
    Unstarted w (suspendCompleted nowMs result w) := by
  unfold suspendCompleted
  split
  · exact unstarted_rollback nowMs _ _ w
  · exact Unstarted.modify rfl (Or.inl rfl)

theorem unstarted_resumeCompleted (result : CallbackResult) (w : World) : Unstarted w (resumeCompleted result w) := by
  unfold resumeCompleted
  dsimp only
  split
  · exact (Unstarted.failure _ _ w).trans (Unstarted.modify rfl (Or.inl rfl))
  · exact Unstarted.modify rfl (Or.inl rfl)

theorem unstarted_waitRound (nowMs : BitVec 64) (w : World) : Unstarted w (waitRound env nowMs w).2 := by
  have hcalls := unstarted_meanwhile env w
  unfold waitRound completion
  dsimp only
  split
  · exact hcalls
  · rename_i result m hready
    have htaken : Unstarted (meanwhile env w) { meanwhile env w with manager := m } := by
      split at hready
      · obtain ⟨-, rfl⟩ := Prod.mk.inj hready
        exact Unstarted.modify (f := fun m => { m with completionReady := false }) rfl (Or.inl rfl)
      · cases hready
    dsimp only
    split
    · exact (hcalls.trans htaken).trans (unstarted_suspendCompleted nowMs result _)
    · exact (hcalls.trans htaken).trans (unstarted_resumeCompleted result _)

theorem unstarted_sleepRound (nowMs : BitVec 64) {w : World} (h : w.manager.status.state = .suspending) :
    Unstarted w (sleepRound env nowMs w).2 := by
  have hprepare : Unstarted w (w.record (.prepareSleep (env.succeeds w.asked))) := Unstarted.record fun _ => h
  unfold sleepRound
  dsimp only
  split
  · exact hprepare.trans (unstarted_rollback nowMs _ _ _)
  · -- The platform is put to sleep by a manager that calls itself suspended, and was suspending.
    have hslept : ∀ done, Unstarted w (((w.record (.prepareSleep (env.succeeds w.asked))).modify fun m => { m with
        status := { m.status with
          state := .suspended
          stateChangedMs := nowMs
          suspendDurationMs := nowMs - m.status.suspendStartedMs }
        phase := .sleep
        platformPrepared := true }).record (.enterLightSleep done)) := by
      intro done
      exact ⟨rfl, fun _ => h, [.enterLightSleep done, .prepareSleep (env.succeeds w.asked)], rfl, fun _ _ _ => h⟩
    split
    · exact (hslept _).trans (unstarted_rollback nowMs _ _ _)
    · exact hslept _

theorem unstarted_suspendRound (nowMs : BitVec 64) {w : World} (h : w.manager.status.state = .suspending) :
    Unstarted w (suspendRound env nowMs w).2 := by
  unfold suspendRound
  split
  · exact unstarted_sleepRound env nowMs h
  · dsimp only
    generalize w.manager.dependencyOrder.getD (w.manager.participants.length - 1 - w.manager.cursor) 0 = index
    have hcallback := unstarted_callback env index .suspend fun _ => h
    cases heq : callback env index .suspend w with
    | mk result w' =>
    rw [heq] at hcallback
    cases result with
    | pending => exact hcallback.trans (Unstarted.modify (f := fun m => { m with phase := .waitSuspend }) rfl (Or.inl rfl))
    | failure => exact hcallback.trans (unstarted_rollback nowMs _ _ w')
    | success =>
      exact hcallback.trans (Unstarted.modify
        (f := fun m => { m with suspended := m.suspended ++ [index], cursor := m.cursor + 1 }) rfl (Or.inl rfl))

theorem unstarted_finish (nowMs : BitVec 64) (w : World) : Unstarted w (finish env nowMs w) := by
  unfold finish
  refine Unstarted.trans ?_ (unstarted_restoreDisplay env _)
  exact Unstarted.modify rfl (Or.inr (show State.active ≠ .suspending by decide))

theorem unstarted_resumeRound (nowMs : BitVec 64) (w : World) : Unstarted w (resumeRound env nowMs w).2 := by
  unfold resumeRound
  split
  · exact unstarted_finish env nowMs w
  · dsimp only
    generalize w.manager.suspended.getD (w.manager.suspended.length - 1 - w.manager.cursor) 0 = index
    have hcallback : Unstarted w (callback env index .resume w).2 :=
      unstarted_callback env index .resume fun hnot => by cases hnot
    have hnext : ∀ w', Unstarted w' (w'.modify fun m => { m with cursor := m.cursor + 1 }) :=
      fun w' => Unstarted.modify rfl (Or.inl rfl)
    cases heq : callback env index .resume w with
    | mk result w' =>
    rw [heq] at hcallback
    cases result with
    | pending => exact hcallback.trans (Unstarted.modify (f := fun m => { m with phase := .waitResume }) rfl (Or.inl rfl))
    | failure => exact (hcallback.trans (Unstarted.failure _ _ w')).trans (hnext _)
    | success => exact hcallback.trans (hnext w')

theorem unstarted_driveRound (nowMs : BitVec 64) {w : World} (h : Inv w) : Unstarted w (driveRound env nowMs w).2 := by
  have hstate := h.state
  unfold driveRound
  cases hphase : w.manager.phase with
  | none => exact Unstarted.refl w
  | sleep => exact Unstarted.refl w
  | waitSuspend => exact unstarted_waitRound env nowMs w
  | waitResume => exact unstarted_waitRound env nowMs w
  | suspend =>
    rw [hphase] at hstate
    exact unstarted_suspendRound env nowMs hstate
  | resume => exact unstarted_resumeRound env nowMs w

theorem unstarted_driveLoop (nowMs : BitVec 64) (rounds : Nat) {w : World} (h : Inv w) :
    Unstarted w (driveLoop env nowMs rounds w) := by
  induction rounds generalizing w with
  | zero => exact Unstarted.record False.elim
  | succ rounds ih =>
    have hround := unstarted_driveRound env nowMs h
    have hinv := (driveRound_spec env h nowMs).inv
    unfold driveLoop
    cases heq : driveRound env nowMs w with
    | mk more w' =>
    rw [heq] at hround hinv
    cases more with
    | false => exact hround
    | true => exact hround.trans (ih hinv)

theorem unstarted_drive (nowMs : BitVec 64) {w : World} (h : Inv w) : Unstarted w (drive env nowMs w) :=
  unstarted_driveLoop env nowMs _ h

/-! ## Awake managers -/

/-- The manager is not idle, and the inactivity has asked the display for nothing. -/
structure Manager.Awake (m : Manager) : Prop where
  state : m.status.state ≠ .idle
  requested : m.requested = (false, false)

namespace Manager.Awake

variable {m m' : Manager}

theorem congr (h : m.Awake) (hstate : m'.status.state = m.status.state) (hrequested : m'.requested = m.requested) : m'.Awake :=
  ⟨hstate.trans_ne h.state, hrequested.trans h.requested⟩

end Manager.Awake

/-- A display that is restored leaves nothing asked for. -/
theorem awake_restoreDisplay {w : World} (hstate : w.manager.status.state ≠ .idle) : (restoreDisplay env w).manager.Awake :=
  ⟨(state_restoreDisplay env w).trans_ne hstate, (settings_setDisplay env _ true _).2⟩

theorem awake_finish (nowMs : BitVec 64) (w : World) : (finish env nowMs w).manager.Awake :=
  awake_restoreDisplay env (show State.active ≠ .idle by decide)

theorem Inv.not_idle {w : World} (h : Inv w) (hphase : w.manager.phase ≠ .none) : w.manager.status.state ≠ .idle :=
  fun hidle => hphase ((stateOf_iff h.state).2 (Or.inr hidle))

/-- What a part of an update does to the inhibitors, and to a manager that is inhibited. -/
structure Steady (nowMs : BitVec 64) (w w' : World) : Prop where
  inhibitors : w'.manager.status.dimInhibitors = w.manager.status.dimInhibitors
  unstarted : w.manager.status.dimInhibitors ≠ 0 → Unstarted w w'
  awake : w.manager.status.dimInhibitors ≠ 0 → nowMs < BitVec.allOnes 64 → w.manager.Awake → w'.manager.Awake

namespace Steady

variable {nowMs : BitVec 64} {w w' w'' : World}

theorem refl (w : World) : Steady nowMs w w := ⟨rfl, fun _ => Unstarted.refl w, fun _ _ => id⟩

theorem trans (h : Steady nowMs w w') (h' : Steady nowMs w' w'') : Steady nowMs w w'' := by
  have hkept : w.manager.status.dimInhibitors ≠ 0 → w'.manager.status.dimInhibitors ≠ 0 :=
    fun hinhibited => h.inhibitors.trans_ne hinhibited
  refine ⟨h'.inhibitors.trans h.inhibitors, fun hinhibited => ?_, fun hinhibited hnow hawake => ?_⟩
  · exact (h.unstarted hinhibited).trans (h'.unstarted (hkept hinhibited))
  · exact h'.awake (hkept hinhibited) hnow (h.awake hinhibited hnow hawake)

/-- A part in the background that starts no suspend and does not become idle. -/
theorem background (hback : Background w w') (hunstarted : Unstarted w w')
    (hstate : w.manager.status.state ≠ .idle → w'.manager.status.state ≠ .idle) : Steady nowMs w w' :=
  ⟨congrArg Settings.dimInhibitors hback.settings, fun _ => hunstarted,
    fun _ _ hawake => ⟨hstate hawake.state, hback.requested.trans hawake.requested⟩⟩

end Steady

theorem steady_meanwhile (nowMs : BitVec 64) (w : World) : Steady nowMs w (meanwhile env w) :=
  Steady.background (background_meanwhile env w) (unstarted_meanwhile env w)
    fun hstate => (congrArg Core.state (meanwhile_spec env w).core).trans_ne hstate

theorem steady_noticeActivity (activity : Bool) (activityMs nowMs : BitVec 64) (w : World) :
    Steady nowMs w (noticeActivity env activity activityMs nowMs w) := by
  obtain ⟨hsettings, hstate⟩ := noticeActivity_settings env activity activityMs nowMs w
  refine ⟨?_, fun _ => ?_, fun _ _ hawake => ?_⟩
  · exact congrArg Settings.dimInhibitors hsettings
  · unfold noticeActivity
    split
    · dsimp only
      have hleft : Unstarted w (leaveIdle nowMs (w.modifyStatus fun s => { s with lastActivityMs := activityMs })) :=
        (Unstarted.modifyStatus rfl (Or.inl rfl)).trans (unstarted_leaveIdle nowMs _)
      split
      · exact hleft.trans (unstarted_restoreDisplay env _)
      · exact hleft
    · exact Unstarted.refl w
  · rw [if_neg fun hidle => hawake.state hidle.2] at hstate
    refine ⟨hstate.trans_ne hawake.state, ?_⟩
    unfold noticeActivity
    split
    · have hleft : leaveIdle nowMs (w.modifyStatus fun s => { s with lastActivityMs := activityMs }) =
          w.modifyStatus fun s => { s with lastActivityMs := activityMs } := if_neg hawake.state
      dsimp only
      rw [hleft]
      split
      · exact (awake_restoreDisplay env (w := w.modifyStatus fun s => { s with lastActivityMs := activityMs }) hawake.state).requested
      · exact hawake.requested
    · exact hawake.requested

/-- An inhibited manager has no deadline, so that none is reached. -/
theorem steady_noticeDeadline (deadline : Bool) (nowMs : BitVec 64) (w : World) :
    Steady nowMs w (noticeDeadline env deadline nowMs w).2 := by
  refine ⟨?_, fun _ => ?_, fun hinhibited hnow hawake => ?_⟩
  · unfold noticeDeadline
    split
    · dsimp only
      split
      · exact congrArg Settings.dimInhibitors (settings_applyIdleDisplay env nowMs _)
      · split
        · exact congrArg Settings.dimInhibitors (settings_applyIdleDisplay env nowMs w)
        · rfl
    · rfl
  · unfold noticeDeadline
    split
    · dsimp only
      split
      · refine Unstarted.trans ?_ (unstarted_applyIdleDisplay env nowMs _)
        exact Unstarted.modifyStatus rfl (Or.inr (show State.idle ≠ .suspending by decide))
      · split
        · exact unstarted_applyIdleDisplay env nowMs w
        · exact Unstarted.refl w
    · exact Unstarted.refl w
  · have heq : noticeDeadline env deadline nowMs w = (false, w) :=
      if_neg fun hreached => hinhibited (state_of_deadline hnow hreached.2).1
    rw [heq]
    exact hawake

theorem unstarted_noticeWake (power : Bool) (nowMs : BitVec 64) (w : World) : Unstarted w (noticeWake env power nowMs w) := by
  have hresume : ∀ w', Unstarted w' (w'.modify (beginResume nowMs .wake)) :=
    fun w' => Unstarted.modify (f := beginResume nowMs .wake) rfl (Or.inr (show State.resuming ≠ .suspending by decide))
  have hcollected : Unstarted w (w.record (.collectWakeCauses (env.wakeCauses w.asked))) := Unstarted.record False.elim
  unfold noticeWake
  split
  · dsimp only
    split
    · have hrestored := (hcollected.trans (Unstarted.modify (f := fun m => { m with
          status := { m.status with wakeCauses := env.wakeCauses w.asked } }) rfl (Or.inl rfl))).trans
        (Unstarted.record (a := .restore (env.succeeds (w.asked + 1))) False.elim)
      split
      · exact (hrestored.trans (Unstarted.failure _ _ _)).trans (hresume _)
      · exact hrestored.trans (hresume _)
    · exact hcollected
  · exact Unstarted.refl w

theorem steady_noticeWake (power : Bool) (nowMs : BitVec 64) {w : World} (h : Inv w) :
    Steady nowMs w (noticeWake env power nowMs w) := by
  refine Steady.background (background_noticeWake env power nowMs w) (unstarted_noticeWake env power nowMs w) fun hstate => ?_
  by_cases hwakes : w.manager.status.state = .suspended ∧ power = true
  · have hphase : w.manager.phase ≠ .none := by
      intro hnone
      have hrest := (stateOf_iff h.state).1 hnone
      rw [hwakes.1] at hrest
      rcases hrest with hnot | hnot <;> cases hnot
    exact (noticeWake_spec env h power nowMs).not_idle ((background_noticeWake env power nowMs w).busy hphase)
  · rwa [show noticeWake env power nowMs w = w from if_neg hwakes]

theorem steady_drive (nowMs : BitVec 64) {w : World} (h : Inv w) : Steady nowMs w (drive env nowMs w) := by
  have hunstarted := unstarted_drive env nowMs h
  by_cases hphase : w.manager.phase = .none
  · rw [(drive_of_phase_none env nowMs hphase).1]
    exact Steady.refl w
  rcases drive_cases env nowMs w with ⟨-, hdrive⟩ | ⟨-, w', hfinish, heq⟩
  · exact Steady.background hdrive hunstarted fun _ => (drive_spec env h nowMs).inv.not_idle (hdrive.busy hphase)
  · rw [heq] at hunstarted ⊢
    refine ⟨?_, fun _ => hunstarted, fun _ _ _ => awake_finish env nowMs w'⟩
    exact congrArg Settings.dimInhibitors ((finish_settings env nowMs w').1.trans hfinish.background.settings)

/-- An inhibited manager refuses to suspend. -/
theorem start_of_inhibited (nowMs : BitVec 64) {w : World} (h : w.manager.status.dimInhibitors ≠ 0) :
    Background w (start env nowMs w) ∧ Quiet w (start env nowMs w) ∧ (start env nowMs w).log = w.log := by
  rcases start_cases env nowMs w with ⟨-, hback, hquiet⟩ | ⟨haccepted, -⟩
  · refine ⟨hback, hquiet, ?_⟩
    unfold start
    dsimp only
    split
    · rfl
    · split
      · rfl
      · rename_i hnot
        exact absurd h hnot
  · exact absurd (Or.inr (Or.inl h)) haccepted

theorem inhibitors_start (nowMs : BitVec 64) (w : World) :
    (start env nowMs w).manager.status.dimInhibitors = w.manager.status.dimInhibitors := by
  rcases start_cases env nowMs w with ⟨-, hback, -⟩ | ⟨-, heq⟩
  · exact congrArg Settings.dimInhibitors hback.settings
  · rw [heq]
    have hcollected := (background_collectBlockers env w).settings
    rcases drive_cases env nowMs ((collectBlockers env w).modify (beginSuspend nowMs)) with ⟨-, hdrive⟩ | ⟨-, w', hfinish, heq'⟩
    · exact congrArg Settings.dimInhibitors (hdrive.settings.trans hcollected)
    · rw [heq']
      exact congrArg Settings.dimInhibitors
        ((finish_settings env nowMs w').1.trans (hfinish.background.settings.trans hcollected))

theorem steady_serveRequest (request : Bool) (nowMs : BitVec 64) (w : World) :
    Steady nowMs w (serveRequest env request nowMs w) := by
  unfold serveRequest
  split
  · split
    · refine ⟨inhibitors_start env nowMs w, fun hinhibited => ?_, fun hinhibited _ hawake => ?_⟩
      · obtain ⟨-, hquiet, hlog⟩ := start_of_inhibited env nowMs hinhibited
        have hstate : (start env nowMs w).manager.status.state = w.manager.status.state := congrArg Core.state hquiet.core
        exact ⟨congrArg Core.generation hquiet.core, hstate.symm.trans, [], hlog, fun _ hmem => absurd hmem List.not_mem_nil⟩
      · obtain ⟨hback, hquiet, -⟩ := start_of_inhibited env nowMs hinhibited
        exact hawake.congr (congrArg Core.state hquiet.core) hback.requested
    · exact Steady.background (Background.failure _ _ w) (Unstarted.failure _ _ w) id
  · exact Steady.refl w

theorem steady_update (deadline power : Bool) (nowMs : BitVec 64) {w : World} (h : Stopped w) :
    Steady nowMs w (powerManagerUpdate env deadline power nowMs w) := by
  unfold powerManagerUpdate
  split
  · exact Steady.refl w
  rename_i hnot
  have hfinalized : w.manager.finalized = true := by
    by_contra hf
    exact hnot (Or.inl (Bool.not_eq_true _ ▸ hf))
  have hcalls := meanwhile_spec env w
  have h1 := h.meanwhile hcalls
  have hfinalized1 : (meanwhile env w).manager.finalized = true := (congrArg Core.finalized hcalls.core).trans hfinalized
  have hsteady1 := steady_meanwhile env nowMs w
  dsimp only
  generalize meanwhile env w = w1 at *
  have hcleared : Quiet w1 (w1.modify fun m => { m with suspendRequested := false, activityRequested := false }) :=
    Quiet.modify (by intro m; rfl) w1
  have h2 := h1.quiet hcleared
  have hsteady2 : Steady nowMs w (w1.modify fun m => { m with suspendRequested := false, activityRequested := false }) :=
    hsteady1.trans (Steady.background (Background.modify rfl rfl rfl rfl) (Unstarted.modify rfl (Or.inl rfl)) id)
  have hfinalized2 : (w1.modify fun m => { m with suspendRequested := false, activityRequested := false }).manager.finalized = true :=
    hfinalized1
  generalize (w1.modify fun m => { m with suspendRequested := false, activityRequested := false }) = w2 at *
  have h3 := noticeActivity_spec env h2 w1.manager.activityRequested w1.manager.activityMs nowMs
  have hsteady3 := hsteady2.trans (steady_noticeActivity env w1.manager.activityRequested w1.manager.activityMs nowMs w2)
  have hfinalized3 := (finalized_noticeActivity env w1.manager.activityRequested w1.manager.activityMs nowMs w2).trans hfinalized2
  generalize noticeActivity env w1.manager.activityRequested w1.manager.activityMs nowMs w2 = w3 at *
  have h4 := noticeDeadline_spec env h3 deadline nowMs
  have hsteady4 := hsteady3.trans (steady_noticeDeadline env deadline nowMs w3)
  have hfinalized4 := (finalized_noticeDeadline env deadline nowMs w3).trans hfinalized3
  cases hdeadline : noticeDeadline env deadline nowMs w3 with
  | mk suspend w4 =>
  rw [hdeadline] at h4 hsteady4 hfinalized4
  have h5 := noticeWake_spec env h4.inv power nowMs
  have hsteady5 := hsteady4.trans (steady_noticeWake env power nowMs h4.inv)
  have hfinalized5 := (finalized_noticeWake env power nowMs w4).trans hfinalized4
  have h6 := serveRequest_spec env h5 hfinalized5 (w1.manager.suspendRequested || suspend) nowMs
  exact (hsteady5.trans (steady_serveRequest env _ nowMs _)).trans (steady_drive env nowMs h6)

/-! ## Operations -/

/-- While there are inhibitors the manager is awake. -/
def Undimmed (w : World) : Prop := w.manager.status.dimInhibitors ≠ 0 → w.manager.Awake

/-- An update is made before the time that stands for no deadline. -/
def LifeOp.Timely : LifeOp → Prop
  | .op (.update _ _ nowMs) => nowMs < BitVec.allOnes 64
  | _ => True

theorem undimmed_of_clear {w : World} (h : w.manager.status.dimInhibitors = 0) : Undimmed w := fun hinhibited => absurd h hinhibited

theorem undimmed_setPolicy (policy : Policy) (nowMs : BitVec 64) {w : World} (h : Undimmed w) :
    Undimmed (powerManagerSetPolicy env policy nowMs w) := by
  unfold powerManagerSetPolicy
  split
  · exact h
  dsimp only
  split
  · rename_i hinhibited
    exact fun _ => awake_restoreDisplay env (w := w.modifyStatus fun s => { s with policy := policy }) (h hinhibited).state
  rename_i hnot
  have hclear : w.manager.status.dimInhibitors = 0 := not_not.1 hnot
  split
  · split
    · refine undimmed_of_clear ((congrArg Settings.dimInhibitors (settings_applyIdleDisplay env nowMs _)).trans ?_)
      exact hclear
    · refine undimmed_of_clear ((congrArg Settings.dimInhibitors (settings_restoreDisplay env _)).trans ?_)
      exact hclear
  · exact undimmed_of_clear hclear

/-- A manager that gets an inhibitor leaves the idle state and has its display restored. -/
theorem undimmed_setDimInhibitors (inhibitors : BitVec 32) (nowMs : BitVec 64) {w : World} (h : Undimmed w) :
    Undimmed (powerManagerSetDimInhibitors env inhibitors nowMs w) := by
  unfold powerManagerSetDimInhibitors
  split
  · exact h
  dsimp only
  split
  · refine fun _ => awake_restoreDisplay env ?_
    rw [(settings_leaveIdle nowMs _).2]
    split
    · decide
    · assumption
  rename_i hnot
  have hclear : inhibitors = 0 := not_not.1 hnot
  split
  · refine undimmed_of_clear ((congrArg Settings.dimInhibitors (settings_leaveIdle nowMs _).1).trans ?_)
    exact hclear
  · exact undimmed_of_clear hclear

theorem Undimmed.background {w w' : World} (h : Undimmed w) (hback : Background w w')
    (hstate : w'.manager.status.state = w.manager.status.state) : Undimmed w' := by
  intro hinhibited
  have hkept : w'.manager.status.dimInhibitors = w.manager.status.dimInhibitors := congrArg Settings.dimInhibitors hback.settings
  exact (h (hkept ▸ hinhibited)).congr hstate hback.requested

/-- The registration and the finalization leave the display and the state alone. -/
theorem register_same (registration : Participant) (m : Manager) :
    (powerManagerRegister registration m).status.state = m.status.state ∧
    (powerManagerRegister registration m).status.generation = m.status.generation ∧
    (powerManagerRegister registration m).status.dimInhibitors = m.status.dimInhibitors ∧
    (powerManagerRegister registration m).requested = m.requested := by
  unfold powerManagerRegister
  split
  · exact ⟨rfl, rfl, rfl, rfl⟩
  · split
    · exact ⟨rfl, rfl, rfl, rfl⟩
    · split
      · exact ⟨rfl, rfl, rfl, rfl⟩
      · split <;> exact ⟨rfl, rfl, rfl, rfl⟩

theorem finalize_same {m m' : Manager} (h : powerManagerFinalize m = some m') :
    m'.status.state = m.status.state ∧ m'.status.generation = m.status.generation ∧
    m'.status.dimInhibitors = m.status.dimInhibitors ∧ m'.requested = m.requested := by
  rw [powerManagerFinalize_eq h]
  exact ⟨rfl, rfl, rfl, rfl⟩

theorem step_undimmed {w : World} (hstopped : Stopped w) (h : Undimmed w) {op : Op} (hop : (LifeOp.op op).Timely) :
    Undimmed (step env w op) := by
  cases op with
  | register registration =>
    obtain ⟨hstate, -, hinhibitors, hrequested⟩ := register_same registration w.manager
    exact fun hinhibited => (h (hinhibitors.symm.trans_ne hinhibited)).congr hstate hrequested
  | finalize =>
    unfold step
    dsimp only
    split
    · exact h
    · split
      · exact h
      · rename_i hm
        obtain ⟨hstate, -, hinhibitors, hrequested⟩ := finalize_same hm
        exact fun hinhibited => (h (hinhibitors.symm.trans_ne hinhibited)).congr hstate hrequested
  | call call => exact h.background (background_call call w) (congrArg Core.state (Meanwhile.call call w).core)
  | setPolicy policy nowMs => exact undimmed_setPolicy env policy nowMs h
  | setDimInhibitors inhibitors nowMs => exact undimmed_setDimInhibitors env inhibitors nowMs h
  | update deadline power nowMs =>
    have hsteady := steady_update env deadline power nowMs hstopped
    intro hinhibited
    have hbefore : w.manager.status.dimInhibitors ≠ 0 := hsteady.inhibitors.symm.trans_ne hinhibited
    exact hsteady.awake hbefore hop (h hbefore)

theorem lifeStep_undimmed {w : World} (hbetween : Between w) (h : Undimmed w) {op : LifeOp} (hop : op.Timely) :
    Undimmed (lifeStep env w op) := by
  cases op with
  | op op =>
    rcases hbetween with hstopped | hshutting
    · exact step_undimmed env hstopped h hop
    · obtain ⟨hshutting', hback⟩ := hshutting.step env op
      exact h.background hback (hshutting'.state.trans hshutting.state.symm)
  | beginShutdown nowMs =>
    show Undimmed (powerManagerBeginShutdown nowMs w)
    unfold powerManagerBeginShutdown
    split
    · exact fun hinhibited => ⟨show State.shuttingDown ≠ .idle by decide, (h hinhibited).requested⟩
    · exact h

/-- An operation on an inhibited manager starts no suspend sequence. -/
theorem step_unstarted {w : World} (hstopped : Stopped w) (hinhibited : w.manager.status.dimInhibitors ≠ 0) (op : Op) :
    Unstarted w (step env w op) := by
  cases op with
  | register registration =>
    obtain ⟨hstate, hgeneration, -, -⟩ := register_same registration w.manager
    exact Unstarted.modify hgeneration (Or.inl hstate)
  | finalize =>
    unfold step
    dsimp only
    split
    · exact Unstarted.refl w
    · split
      · exact Unstarted.refl w
      · rename_i m hm
        obtain ⟨hstate, hgeneration, -, -⟩ := finalize_same hm
        exact Unstarted.modify (f := fun _ => m) hgeneration (Or.inl hstate)
  | call call => exact unstarted_call call w
  | setPolicy policy nowMs =>
    show Unstarted w (powerManagerSetPolicy env policy nowMs w)
    unfold powerManagerSetPolicy
    split
    · exact Unstarted.refl w
    dsimp only
    split
    · refine Unstarted.trans ?_ (unstarted_restoreDisplay env _)
      exact Unstarted.modifyStatus rfl (Or.inl rfl)
    · rename_i hnot
      exact absurd hinhibited hnot
  | setDimInhibitors inhibitors nowMs =>
    show Unstarted w (powerManagerSetDimInhibitors env inhibitors nowMs w)
    unfold powerManagerSetDimInhibitors
    split
    · exact Unstarted.refl w
    have hset : Unstarted w (w.modifyStatus fun s => { s with dimInhibitors := inhibitors }) :=
      Unstarted.modifyStatus rfl (Or.inl rfl)
    dsimp only
    split
    · exact (hset.trans (unstarted_leaveIdle nowMs _)).trans (unstarted_restoreDisplay env _)
    · refine (hset.trans ?_).trans (unstarted_leaveIdle nowMs _)
      exact Unstarted.modifyStatus rfl (Or.inl rfl)
  | update deadline power nowMs => exact (steady_update env deadline power nowMs hstopped).unstarted hinhibited

/-- Nor does one on a manager that is shutting down. -/
theorem unstarted_of_shuttingDown {w : World} (h : ShuttingDown w) (op : Op) : Unstarted w (step env w op) := by
  cases op with
  | register registration =>
    obtain ⟨hstate, hgeneration, -, -⟩ := register_same registration w.manager
    exact Unstarted.modify hgeneration (Or.inl hstate)
  | finalize =>
    have heq : step env w .finalize = w := if_pos h.finalized
    rw [heq]
    exact Unstarted.refl w
  | call call => exact unstarted_call call w
  | setPolicy policy nowMs =>
    have heq : step env w (.setPolicy policy nowMs) = w := if_pos (Or.inr (Or.inr h.state))
    rw [heq]
    exact Unstarted.refl w
  | setDimInhibitors inhibitors nowMs =>
    have heq : step env w (.setDimInhibitors inhibitors nowMs) = w := if_pos (Or.inr h.state)
    rw [heq]
    exact Unstarted.refl w
  | update deadline power nowMs =>
    have heq : step env w (.update deadline power nowMs) = w := if_pos (Or.inr h.state)
    rw [heq]
    exact Unstarted.refl w

theorem lifeStep_unstarted {w : World} (hbetween : Between w) (hinhibited : w.manager.status.dimInhibitors ≠ 0) (op : LifeOp) :
    Unstarted w (lifeStep env w op) := by
  cases op with
  | op op =>
    rcases hbetween with hstopped | hshutting
    · exact step_unstarted env hstopped hinhibited op
    · exact unstarted_of_shuttingDown env hshutting op
  | beginShutdown nowMs =>
    show Unstarted w (powerManagerBeginShutdown nowMs w)
    unfold powerManagerBeginShutdown
    split
    · exact Unstarted.modify rfl (Or.inr (show State.shuttingDown ≠ .suspending by decide))
    · exact Unstarted.refl w

/-! ## Runs -/

variable {env} {policy : Policy} {initMs : BitVec 64} {ops : List LifeOp} {w : World}

theorem life_undimmed (h : life env policy initMs ops = some w) (hops : ∀ op ∈ ops, op.Timely) : Undimmed w := by
  obtain ⟨w0, hinit, rfl⟩ := Option.map_eq_some_iff.1 h
  have hbetween : Between w0 := Or.inl (powerManagerInit_spec hinit).1
  have hclear : Undimmed w0 := by
    unfold powerManagerInit at hinit
    split at hinit
    · cases hinit
    · obtain rfl := Option.some.inj hinit
      refine undimmed_of_clear ((congrArg Settings.dimInhibitors (settings_restoreDisplay env _)).trans ?_)
      rfl
  clear hinit h
  induction ops generalizing w0 with
  | nil => exact hclear
  | cons op ops ih =>
    have hop := hops op List.mem_cons_self
    exact ih (fun op' hmem => hops op' (List.mem_cons_of_mem _ hmem)) (lifeStep env w0 op) (lifeStep_spec env hbetween op)
      (lifeStep_undimmed env hbetween hclear hop)

/-- In every state that a manager can come to with an inhibitor, it is not idle, neither the backlight nor the panel has been asked to be
off, and no operation starts a suspend sequence. -/
theorem inhibited_awake (h : life env policy initMs ops = some w) (hops : ∀ op ∈ ops, op.Timely)
    (hinhibited : w.manager.status.dimInhibitors ≠ 0) :
    w.manager.status.state ≠ .idle ∧ w.manager.status.screenOffRequested = false ∧ w.manager.status.panelOffRequested = false ∧
    ∀ op, Unstarted w (lifeStep env w op) := by
  obtain ⟨hstate, hrequested⟩ := life_undimmed h hops hinhibited
  obtain ⟨hscreen, hpanel⟩ := Prod.mk.inj hrequested
  exact ⟨hstate, hscreen, hpanel, fun op => lifeStep_unstarted env (life_spec h).1 hinhibited op⟩

/-- The display is dimmed and turned off before an inhibitor comes, and a suspend is requested under it. -/
def inhibitedOps : List LifeOp :=
  [.op (.register ⟨[0x61], [], false, true, true⟩), .op .finalize, .op (.update true false 120), .op (.update true false 170),
    .op (.setDimInhibitors 1 200), .op (.call .requestSuspend), .op (.update true true 410)]

theorem inhibited_awake_requested :
    ∃ w, life .pendingOnce ⟨100, 120, 140, 1000, 75, 20, false⟩ 10 inhibitedOps = some w ∧ w.manager.status.dimInhibitors ≠ 0 ∧
      w.manager.status.state ≠ .idle ∧ w.manager.status.screenOffRequested = false ∧
      w.manager.status.panelOffRequested = false ∧ ∀ op, Unstarted w (lifeStep .pendingOnce w op) := by
  have hlife : life .pendingOnce ⟨100, 120, 140, 1000, 75, 20, false⟩ 10 inhibitedOps = some _ := rfl
  have htimely : ∀ op ∈ inhibitedOps, op.Timely := by
    unfold inhibitedOps
    simp [LifeOp.Timely]
  exact ⟨_, hlife, by decide, inhibited_awake hlife htimely (by decide)⟩

end Power
end TabOS
