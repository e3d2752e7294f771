import TabOS.Power.Runs

/-!
# The background of the power manager

What the driver does to the display and the settings: it goes on in the background, without a command of the display and without
touching the settings, until it finishes a resume. A suspend that is refused and a wake of the platform are in the background too.
-/

namespace TabOS
namespace Power

open Library

/-- A command of the display. -/
def Event.Commands : Event → Prop
  | .setBrightness _ _ => True
  | .setPanelEnabled _ _ => True
  | _ => False

instance (event : Event) : Decidable event.Commands := by
  cases event <;> unfold Event.Commands <;> infer_instance

/-! ## The background -/

/-- What the deadlines are derived from, but for the state and what has been requested. -/
structure Settings where
  finalized : Bool
  policy : Policy
  lastActivityMs : BitVec 64
  dimInhibitors : BitVec 32

/-- The settings of a manager. -/
def Manager.settings (m : Manager) : Settings := ⟨m.finalized, m.status.policy, m.status.lastActivityMs, m.status.dimInhibitors⟩

/-- What the manager knows of the display. -/
structure Shown where
  effectiveBrightness : BitVec 8
  brightnessValid : Bool
  panelEnabled : Bool
  panelValid : Bool

/-- What a manager knows of the display. -/
def Manager.shown (m : Manager) : Shown :=
  ⟨m.status.effectiveBrightness, m.status.brightnessValid, m.status.panelEnabled, m.status.panelValid⟩

/-- What the display has been asked for by the inactivity: its backlight off and its panel off. -/
def Manager.requested (m : Manager) : Bool × Bool := (m.status.screenOffRequested, m.status.panelOffRequested)

/-- Some events have been logged, none of them a command of the display. -/
def Unlit (log log' : List Event) : Prop := ∃ events, log' = events ++ log ∧ ∀ event ∈ events, ¬event.Commands

namespace Unlit

theorem refl (log : List Event) : Unlit log log := ⟨[], rfl, fun _ hmem => absurd hmem List.not_mem_nil⟩

theorem trans {log log' log'' : List Event} (h : Unlit log log') (h' : Unlit log' log'') : Unlit log log'' := by
  obtain ⟨events, rfl, hevents⟩ := h
  obtain ⟨events', rfl, hevents'⟩ := h'
  refine ⟨events' ++ events, (List.append_assoc ..).symm, ?_⟩
  intro event hmem
  exact (List.mem_append.1 hmem).elim (hevents' event) (hevents event)

theorem cons {event : Event} (h : ¬event.Commands) (log : List Event) : Unlit log (event :: log) := by
  refine ⟨[event], rfl, ?_⟩
  intro other hmem
  rwa [List.mem_singleton.1 hmem]

end Unlit

/-- The display and the settings are left alone, and what goes on goes on. -/
structure Background (w w' : World) : Prop where
  settings : w'.manager.settings = w.manager.settings
  shown : w'.manager.shown = w.manager.shown
  requested : w'.manager.requested = w.manager.requested
  busy : w.manager.phase ≠ .none → w'.manager.phase ≠ .none
  log : Unlit w.log w'.log

namespace Background

theorem refl (w : World) : Background w w := ⟨rfl, rfl, rfl, id, Unlit.refl _⟩

theorem trans {w w' w'' : World} (h : Background w w') (h' : Background w' w'') : Background w w'' :=
  ⟨h'.settings.trans h.settings, h'.shown.trans h.shown, h'.requested.trans h.requested, fun hphase => h'.busy (h.busy hphase),
    h.log.trans h'.log⟩

/-- The manager is changed, but for the display, the settings and the phase. -/
theorem modify {f : Manager → Manager} {w : World} (hsettings : (f w.manager).settings = w.manager.settings)
    (hshown : (f w.manager).shown = w.manager.shown) (hrequested : (f w.manager).requested = w.manager.requested)
    (hphase : (f w.manager).phase = w.manager.phase) : Background w (w.modify f) :=
  ⟨hsettings, hshown, hrequested, fun hbusy => hphase.trans_ne hbusy, Unlit.refl _⟩

/-- The manager goes to a phase. -/
theorem move {f : Manager → Manager} {w : World} {phase : Phase} (hsettings : (f w.manager).settings = w.manager.settings)
    (hshown : (f w.manager).shown = w.manager.shown) (hrequested : (f w.manager).requested = w.manager.requested)
    (hphase : (f w.manager).phase = phase) (hbusy : phase ≠ .none) : Background w (w.modify f) :=
  ⟨hsettings, hshown, hrequested, fun _ => hphase.trans_ne hbusy, Unlit.refl _⟩

theorem record {a : Event} (h : ¬a.Commands) (w : World) : Background w (w.record a) :=
  ⟨rfl, rfl, rfl, id, Unlit.cons h _⟩

theorem ask (w : World) : Background w w.ask := ⟨rfl, rfl, rfl, id, Unlit.refl _⟩

theorem failure (code : FailureCode) (name : Name) (w : World) : Background w (w.modify (Power.failure code name)) :=
  modify rfl rfl rfl rfl

end Background

variable (env : Environment)

theorem background_call (call : Call) (w : World) : Background w (call.make w) := by
  cases call with
  | requestSuspend => exact Background.modify (f := fun m => { m with suspendRequested := true }) rfl rfl rfl rfl
  | requestActivity nowMs =>
    exact Background.modify (f := fun m => { m with activityRequested := true, activityMs := nowMs }) rfl rfl rfl rfl
  | complete token result =>
    show Background w (powerManagerComplete token result w)
    unfold powerManagerComplete
    split
    · exact Background.refl w
    · have hrecord := Background.record (a := .completed token result) id w
      dsimp only
      split
      · exact hrecord.trans (Background.modify rfl rfl rfl rfl)
      · exact hrecord

theorem background_meanwhile (w : World) : Background w (meanwhile env w) := by
  unfold meanwhile
  exact foldl_invariant (fun w' => Background w w') (fun w' call h => h.trans (background_call call w')) (env.calls w.asked)
    (Background.ask w)

theorem background_rollback (nowMs : BitVec 64) (code : FailureCode) (name : Name) (w : World) :
    Background w (rollback nowMs code name w) := by
  have hfailure := Background.failure code name w
  have hresume : ∀ w', Background w' (w'.modify (beginResume nowMs .rollback)) :=
    fun w' => Background.move (f := beginResume nowMs .rollback) rfl rfl rfl rfl (show Phase.resume ≠ .none by decide)
  unfold rollback
  dsimp only
  split
  · exact (hfailure.trans (Background.record (a := .abortSleep) id _)).trans (hresume _)
  · exact hfailure.trans (hresume _)

theorem background_trace (name : Name) (operation : Operation) (w : World) : Background w (w.modify (trace name operation)) := by
  have htrace : trace name operation w.manager = { w.manager with trace := (trace name operation w.manager).trace } := by
    unfold trace
    split <;> rfl
  refine Background.modify ?_ ?_ ?_ ?_ <;> rw [htrace] <;> rfl

theorem background_callback (index : Nat) (operation : Operation) (w : World) :
    Background w (callback env index operation w).2 := by
  unfold callback beginCallback expectCompletion
  dsimp only
  refine Background.trans ?_ (Background.record (a := .returned _) id _)
  refine Background.trans ?_ (background_meanwhile env _)
  refine Background.trans ?_ (Background.record (a := .called _) id _)
  refine ((background_meanwhile env w).trans (Background.modify (f := fun m => { m with
    expected := ⟨w.manager.status.generation, index, operation⟩, completionReady := false }) rfl rfl rfl rfl)).trans ?_
  exact background_trace _ operation _

/-! ## The driver -/

theorem background_suspendCompleted (nowMs : BitVec 64) (result : CallbackResult) (w : World) :
    Background w (suspendCompleted nowMs result w) := by
  unfold suspendCompleted
  split
  · exact background_rollback nowMs _ _ w
  · exact Background.move rfl rfl rfl rfl (show Phase.suspend ≠ .none by decide)

theorem background_resumeCompleted (result : CallbackResult) (w : World) : Background w (resumeCompleted result w) := by
  have hmove : ∀ w', Background w' (w'.modify fun m => { m with phase := .resume, cursor := m.cursor + 1 }) :=
    fun w' => Background.move rfl rfl rfl rfl (show Phase.resume ≠ .none by decide)
  unfold resumeCompleted
  dsimp only
  split
  · exact (Background.failure _ _ w).trans (hmove _)
  · exact hmove w

theorem background_waitRound (nowMs : BitVec 64) (w : World) : Background w (waitRound env nowMs w).2 := by
  have hcalls := background_meanwhile env w
  unfold waitRound completion
  dsimp only
  split
  · exact hcalls
  · rename_i result m hready
    have htaken : Background (meanwhile env w) { meanwhile env w with manager := m } := by
      split at hready
      · obtain ⟨-, rfl⟩ := Prod.mk.inj hready
        exact Background.modify (f := fun m => { m with completionReady := false }) rfl rfl rfl rfl
      · cases hready
    dsimp only
    split
    · exact (hcalls.trans htaken).trans (background_suspendCompleted nowMs result _)
    · exact (hcalls.trans htaken).trans (background_resumeCompleted result _)

theorem background_sleepRound (nowMs : BitVec 64) (w : World) : Background w (sleepRound env nowMs w).2 := by
  have hprepare := Background.record (a := .prepareSleep (env.succeeds w.asked)) id w
  unfold sleepRound
  dsimp only
  split
  · exact hprepare.trans (background_rollback nowMs _ _ _)
  · have hsleep := hprepare.trans (Background.move (f := fun m => { m with
      status := { m.status with
        state := .suspended
        stateChangedMs := nowMs
        suspendDurationMs := nowMs - m.status.suspendStartedMs }
      phase := .sleep
      platformPrepared := true }) rfl rfl rfl rfl (show Phase.sleep ≠ .none by decide))
    split
    · exact (hsleep.trans (Background.record (a := .enterLightSleep _) id _)).trans (background_rollback nowMs _ _ _)
    · exact hsleep.trans (Background.record (a := .enterLightSleep _) id _)

theorem background_suspendRound (nowMs : BitVec 64) (w : World) : Background w (suspendRound env nowMs w).2 := by
  unfold suspendRound
  split
  · exact background_sleepRound env nowMs w
  · dsimp only
    generalize w.manager.dependencyOrder.getD (w.manager.participants.length - 1 - w.manager.cursor) 0 = index
    have hcallback := background_callback env index .suspend w
    cases heq : callback env index .suspend w with
    | mk result w' =>
    rw [heq] at hcallback
    cases result with
    | pending =>
      exact hcallback.trans (Background.move (f := fun m => { m with phase := .waitSuspend }) rfl rfl rfl rfl
        (show Phase.waitSuspend ≠ .none by decide))
    | failure => exact hcallback.trans (background_rollback nowMs _ _ w')
    | success =>
      exact hcallback.trans (Background.modify
        (f := fun m => { m with suspended := m.suspended ++ [index], cursor := m.cursor + 1 }) rfl rfl rfl rfl)

/-- All participants are up again. -/
def AtFinish (m : Manager) : Prop := m.phase = .resume ∧ m.cursor = m.suspended.length

instance (m : Manager) : Decidable (AtFinish m) := inferInstanceAs (Decidable (_ ∧ _))

theorem background_resumeRound (nowMs : BitVec 64) {w : World} (h : w.manager.cursor ≠ w.manager.suspended.length) :
    Background w (resumeRound env nowMs w).2 := by
  unfold resumeRound
  rw [if_neg h]
  dsimp only
  generalize w.manager.suspended.getD (w.manager.suspended.length - 1 - w.manager.cursor) 0 = index
  have hcallback := background_callback env index .resume w
  have hnext : ∀ w', Background w' (w'.modify fun m => { m with cursor := m.cursor + 1 }) :=
    fun w' => Background.modify rfl rfl rfl rfl
  cases heq : callback env index .resume w with
  | mk result w' =>
  rw [heq] at hcallback
  cases result with
  | pending =>
    exact hcallback.trans (Background.move (f := fun m => { m with phase := .waitResume }) rfl rfl rfl rfl
      (show Phase.waitResume ≠ .none by decide))
  | failure => exact (hcallback.trans (Background.failure _ _ w')).trans (hnext _)
  | success => exact hcallback.trans (hnext w')

/-- The driver goes on in the background until all participants are up. -/
theorem background_driveRound (nowMs : BitVec 64) {w : World} (h : ¬AtFinish w.manager) :
    Background w (driveRound env nowMs w).2 := by
  unfold driveRound
  cases hphase : w.manager.phase with
  | none => exact Background.refl w
  | sleep => exact Background.refl w
  | waitSuspend => exact background_waitRound env nowMs w
  | waitResume => exact background_waitRound env nowMs w
  | suspend => exact background_suspendRound env nowMs w
  | resume => exact background_resumeRound env nowMs fun hcursor => h ⟨hphase, hcursor⟩

theorem driveRound_of_atFinish (nowMs : BitVec 64) {w : World} (h : AtFinish w.manager) :
    driveRound env nowMs w = (false, finish env nowMs w) := by
  unfold driveRound resumeRound
  rw [h.1]
  dsimp only
  rw [if_pos h.2]

/-- The loop of `drive` comes to where all participants are up, so that it finishes the resume. -/
def Finishes (nowMs : BitVec 64) : Nat → World → Prop
  | 0, _ => False
  | rounds + 1, w =>
    AtFinish w.manager ∨ (driveRound env nowMs w).1 = true ∧ Finishes nowMs rounds (driveRound env nowMs w).2

instance decidableFinishes (nowMs : BitVec 64) : ∀ rounds w, Decidable (Finishes env nowMs rounds w)
  | 0, _ => isFalse id
  | rounds + 1, _ => @instDecidableOr _ _ _ (@instDecidableAnd _ _ _ (decidableFinishes nowMs rounds _))

/-- The world in which a loop of `drive` finishes a resume. -/
structure Finish (w w' : World) : Prop where
  background : Background w w'
  inv : Inv w → Inv w'
  atFinish : AtFinish w'.manager

/-- The loop of `drive` finishes a resume or is in the background. -/
theorem driveLoop_cases (nowMs : BitVec 64) (rounds : Nat) (w : World) :
    (¬Finishes env nowMs rounds w ∧ Background w (driveLoop env nowMs rounds w)) ∨
    (Finishes env nowMs rounds w ∧ ∃ w', Finish w w' ∧ driveLoop env nowMs rounds w = finish env nowMs w') := by
  induction rounds generalizing w with
  | zero => exact Or.inl ⟨id, Background.record (a := .bound) id w⟩
  | succ rounds ih =>
    by_cases hfinish : AtFinish w.manager
    · refine Or.inr ⟨Or.inl hfinish, w, ⟨Background.refl w, id, hfinish⟩, ?_⟩
      rw [driveLoop, driveRound_of_atFinish env nowMs hfinish]
    have hround := background_driveRound env nowMs hfinish
    have hinv : Inv w → Inv (driveRound env nowMs w).2 := fun h => (driveRound_spec env h nowMs).inv
    unfold Finishes driveLoop
    cases heq : driveRound env nowMs w with
    | mk more w' =>
    rw [heq] at hround hinv
    cases more with
    | false =>
      refine Or.inl ⟨?_, hround⟩
      rintro (hnot | ⟨hnot, -⟩)
      · exact hfinish hnot
      · cases hnot
    | true =>
      rcases ih w' with ⟨hnot, hloop⟩ | ⟨hloop, w'', hw'', heq⟩
      · refine Or.inl ⟨?_, hround.trans hloop⟩
        rintro (hnot' | ⟨-, hnot'⟩)
        · exact hfinish hnot'
        · exact hnot hnot'
      · exact Or.inr ⟨Or.inr ⟨rfl, hloop⟩, w'', ⟨hround.trans hw''.background, fun h => hw''.inv (hinv h), hw''.atFinish⟩, heq⟩

/-- `drive` finishes a resume. -/
def DriveFinishes (nowMs : BitVec 64) (w : World) : Prop := Finishes env nowMs (participantCapacity * 2 + 8) w

instance (nowMs : BitVec 64) (w : World) : Decidable (DriveFinishes env nowMs w) := decidableFinishes env nowMs _ w

theorem drive_cases (nowMs : BitVec 64) (w : World) :
    (¬DriveFinishes env nowMs w ∧ Background w (drive env nowMs w)) ∨
    (DriveFinishes env nowMs w ∧ ∃ w', Finish w w' ∧ drive env nowMs w = finish env nowMs w') := driveLoop_cases env nowMs _ w

/-! ## The begin of a suspend -/

theorem background_blockerRound (w : World) (index : Nat) : Background w (blockerRound env w index) := by
  have hblock : ∀ w' name, Background w' (w'.modifyStatus fun s => { s with blockers := s.blockers ++ [name] }) :=
    fun w' name => Background.modify rfl rfl rfl rfl
  unfold blockerRound
  split
  · exact Background.refl w
  · split
    · exact hblock w _
    · split
      · dsimp only
        split
        · exact (Background.ask w).trans (hblock _ _)
        · exact Background.ask w
      · exact Background.refl w

/-- What `start` makes of the blockers before. -/
def clearBlockers (w : World) : World := w.modifyStatus fun s => { s with blockers := [] }

/-- The loop of `start` over the participants. -/
def collectBlockers (w : World) : World := (clearBlockers w).manager.dependencyOrder.reverse.foldl (blockerRound env) (clearBlockers w)

/-- `start` refuses to suspend: it is not available, or there is an inhibitor, or a participant that blocks. -/
def StartRefuses (w : World) : Prop :=
  w.manager.status.suspendAvailable = false ∨ w.manager.status.dimInhibitors ≠ 0 ∨
    (collectBlockers env w).manager.status.blockers ≠ []

instance (w : World) : Decidable (StartRefuses env w) := inferInstanceAs (Decidable (_ ∨ _ ∨ _))

theorem background_collectBlockers (w : World) : Background w (collectBlockers env w) :=
  foldl_invariant (fun w' => Background w w') (fun w' index h => h.trans (background_blockerRound env w' index)) _
    (Background.modify (f := fun m => { m with status := { m.status with blockers := [] } }) rfl rfl rfl rfl)

theorem quiet_collectBlockers (w : World) : Quiet w (collectBlockers env w) :=
  foldl_invariant (fun w' => Quiet w w') (fun w' index h => h.trans (quiet_blockerRound env w' index)) _
    (Quiet.modifyStatus (by intro s; exact ⟨rfl, rfl, rfl⟩) w)

/-- A suspend that is refused leaves the manager as it is but for the failure; another one is driven. -/
theorem start_cases (nowMs : BitVec 64) (w : World) :
    (StartRefuses env w ∧ Background w (start env nowMs w) ∧ Quiet w (start env nowMs w)) ∨
    (¬StartRefuses env w ∧ start env nowMs w = drive env nowMs ((collectBlockers env w).modify (beginSuspend nowMs))) := by
  have hclear : Background w (clearBlockers w) :=
    Background.modify (f := fun m => { m with status := { m.status with blockers := [] } }) rfl rfl rfl rfl
  have hclear' : Quiet w (clearBlockers w) := Quiet.modifyStatus (by intro s; exact ⟨rfl, rfl, rfl⟩) w
  by_cases havailable : w.manager.status.suspendAvailable = false
  · have heq : start env nowMs w = (clearBlockers w).modify (failure .registration []) := if_pos havailable
    rw [heq]
    exact Or.inl ⟨Or.inl havailable, hclear.trans (Background.failure _ _ _), hclear'.trans (Quiet.failure _ _ _)⟩
  by_cases hinhibited : w.manager.status.dimInhibitors ≠ 0
  · have heq : start env nowMs w = ((clearBlockers w).modifyStatus fun s => { s with
        blockers := [inhibitorName w.manager.status.dimInhibitors] }).modify
          (failure .blocked (inhibitorName w.manager.status.dimInhibitors)) := (if_neg havailable).trans (if_pos hinhibited)
    rw [heq]
    refine Or.inl ⟨Or.inr (Or.inl hinhibited), (hclear.trans ?_).trans (Background.failure _ _ _),
      (hclear'.trans ?_).trans (Quiet.failure _ _ _)⟩
    · exact Background.modify rfl rfl rfl rfl
    · exact Quiet.modifyStatus (by intro s; exact ⟨rfl, rfl, rfl⟩) _
  have hcollected := background_collectBlockers env w
  have hcollected' := quiet_collectBlockers env w
  unfold start
  dsimp only
  rw [if_neg (show ¬(w.modifyStatus fun s => { s with blockers := [] }).manager.status.suspendAvailable = false from havailable),
    if_neg (show ¬(w.modifyStatus fun s => { s with blockers := [] }).manager.status.dimInhibitors ≠ 0 from hinhibited)]
  split
  · rename_i blocker blockers hblockers
    refine Or.inl ⟨Or.inr (Or.inr ?_), hcollected.trans (Background.failure _ _ _), hcollected'.trans (Quiet.failure _ _ _)⟩
    intro hnone
    cases hblockers.symm.trans hnone
  · rename_i hblockers
    refine Or.inr ⟨?_, rfl⟩
    rintro (hnot | hnot | hnot)
    · exact havailable hnot
    · exact hinhibited hnot
    · exact hnot hblockers

theorem background_noticeWake (power : Bool) (nowMs : BitVec 64) (w : World) : Background w (noticeWake env power nowMs w) := by
  have hresume : ∀ w', Background w' (w'.modify (beginResume nowMs .wake)) :=
    fun w' => Background.move (f := beginResume nowMs .wake) rfl rfl rfl rfl (show Phase.resume ≠ .none by decide)
  have hcollected := Background.record (a := .collectWakeCauses (env.wakeCauses w.asked)) id w
  unfold noticeWake
  split
  · dsimp only
    split
    · have hrestored := (hcollected.trans (Background.modify (f := fun m => { m with
          status := { m.status with wakeCauses := env.wakeCauses w.asked } }) rfl rfl rfl rfl)).trans
        (Background.record (a := .restore (env.succeeds (w.asked + 1))) id _)
      split
      · exact (hrestored.trans (Background.failure _ _ _)).trans (hresume _)
      · exact hrestored.trans (hresume _)
    · exact hcollected
  · exact Background.refl w

end Power
end TabOS
