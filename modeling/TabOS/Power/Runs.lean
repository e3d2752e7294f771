import TabOS.Power.Pairing

/-!
# Runs of the power manager

Every operation keeps what holds between operations, so it holds at the end of every run: the suspends and resumes of the participants
are paired and ordered, and so are the sleeps of the platform.
-/

namespace TabOS
namespace Power

open Library

variable (env : Environment)

/-! ## States at rest -/

/-- A manager that is active or idle is in no phase. -/
theorem StateOf.phase_eq {phase : Phase} {state : State} (h : StateOf phase state) (hstate : state = .active ∨ state = .idle) :
    phase = .none := by
  cases phase with
  | none => rfl
  | _ => rcases hstate with rfl | rfl <;> nomatch h

theorem stateOf_iff {phase : Phase} {state : State} (h : StateOf phase state) :
    phase = .none ↔ state = .active ∨ state = .idle := by
  refine ⟨?_, h.phase_eq⟩
  rintro rfl
  exact h

/-- A manager at rest may become active or idle. -/
theorem Inv.restate {w w' : World} (h : Inv w) (hphase : w.manager.phase = .none) {state : State}
    (hstate : state = .active ∨ state = .idle) (hlog : w'.log = w.log)
    (hcore : w'.manager.core = { w.manager.core with state := state }) : Inv w' := by
  have hparticipants : w'.manager.participants = w.manager.participants := congrArg Core.participants hcore
  have horder : w'.manager.dependencyOrder = w.manager.dependencyOrder := congrArg Core.dependencyOrder hcore
  have hphase' : w'.manager.phase = .none := (congrArg Core.phase hcore).trans hphase
  have hfinalized : w'.manager.finalized = w.manager.finalized := congrArg Core.finalized hcore
  have havailable : w'.manager.status.suspendAvailable = w.manager.status.suspendAvailable := congrArg Core.suspendAvailable hcore
  have hgeneration : w'.manager.status.generation = w.manager.status.generation := congrArg Core.generation hcore
  have hready : w'.manager.completionReady = w.manager.completionReady := congrArg Core.completionReady hcore
  have hresult : w'.manager.completionResult = w.manager.completionResult := congrArg Core.completionResult hcore
  refine ⟨?_, fun hnot => absurd hphase' hnot, ?_, ?_, ?_, ?_, ?_, ?_, ?_, ?_⟩
  · rw [hparticipants]
    exact h.capacity
  · rw [hphase', hfinalized, havailable]
    exact fun hdriven => (h.ordered (hdriven.imp_left fun hnot => absurd rfl hnot)).congr hparticipants horder
  · rw [hfinalized, horder]
    exact h.empty
  · rw [dependsOn_congr hparticipants, hlog]
    exact h.sound
  · rw [hlog, hgeneration]
    exact h.issued_le
  · rw [hfinalized, hlog]
    exact h.uncalled
  · rw [hready, hresult]
    exact h.result
  · rw [hphase', show w'.manager.status.state = state from congrArg Core.state hcore]
    exact hstate
  · have hagrees := h.agrees
    unfold Agrees at hagrees ⊢
    rw [show w.manager.core.phase = .none from hphase] at hagrees
    rw [hcore, hlog]
    dsimp only
    rw [show w.manager.core.phase = .none from hphase]
    exact ⟨hagrees.suspended, hagrees.unprepared, hagrees.outstanding, hagrees.down, hagrees.prepared, hagrees.asleep⟩

/-- What is between operations at rest. -/
theorem Inv.resting {w : World} (h : Inv w) (hphase : w.manager.phase = .none) : Resting w.manager.core (viewOf w.log) := by
  have hagrees := h.agrees
  unfold Agrees at hagrees
  rwa [show w.manager.core.phase = .none from hphase] at hagrees

theorem Stopped.quiet {w w' : World} (h : Stopped w) (hquiet : Quiet w w') : Stopped w' := by
  refine ⟨h.inv.quiet hquiet, ?_⟩
  rw [show w'.manager.phase = w.manager.phase from congrArg Core.phase hquiet.core]
  exact h.phase

theorem Stopped.meanwhile {w w' : World} (h : Stopped w) (hcalls : Meanwhile w w') : Stopped w' := by
  refine ⟨h.inv.meanwhile hcalls, ?_⟩
  rw [show w'.manager.phase = w.manager.phase from congrArg Core.phase hcalls.core]
  exact h.phase

theorem Stopped.restate {w w' : World} (h : Stopped w) (hphase : w.manager.phase = .none) {state : State}
    (hstate : state = .active ∨ state = .idle) (hlog : w'.log = w.log)
    (hcore : w'.manager.core = { w.manager.core with state := state }) : Stopped w' := by
  refine ⟨h.inv.restate hphase hstate hlog hcore, ?_⟩
  rw [show w'.manager.phase = .none from (congrArg Core.phase hcore).trans hphase]
  exact ⟨by decide, by decide⟩

theorem Stopped.leaveIdle {w : World} (h : Stopped w) (nowMs : BitVec 64) : Stopped (leaveIdle nowMs w) := by
  unfold Power.leaveIdle
  split
  · rename_i hidle
    exact h.restate (h.inv.state.phase_eq (Or.inr hidle)) (Or.inl rfl) rfl rfl
  · exact h

/-! ## Updates -/

theorem quiet_blockerRound (w : World) (index : Nat) : Quiet w (blockerRound env w index) := by
  unfold blockerRound
  split
  · exact Quiet.refl w
  · split
    · exact Quiet.modifyStatus (by intro s; exact ⟨rfl, rfl, rfl⟩) w
    · split
      · dsimp only
        split
        · exact (Quiet.ask w).trans (Quiet.modifyStatus (by intro s; exact ⟨rfl, rfl, rfl⟩) _)
        · exact Quiet.ask w
      · exact Quiet.refl w

/-- A suspend begins at rest, with a new generation. -/
theorem beginSuspend_spec {w : World} (h : Inv w) (hphase : w.manager.phase = .none) (hfinalized : w.manager.finalized = true)
    (havailable : w.manager.status.suspendAvailable = true) (nowMs : BitVec 64) : Inv (w.modify (beginSuspend nowMs)) := by
  have hordered := h.ordered (Or.inr ⟨hfinalized, havailable⟩)
  have hresting := h.resting hphase
  have hnothing : w.manager.dependencyOrder.drop (w.manager.participants.length - 0) = [] := by
    rw [Nat.sub_zero, ← hordered.length]
    exact List.drop_length
  have hdriving : Driving w := ⟨h.capacity, hfinalized, hordered, h.sound, h.issued_le, h.result⟩
  refine Driving.inv (hdriving.move rfl rfl rfl h.sound ?_ h.result) rfl ?_
  · intro token hmem
    exact Nat.le_succ_of_le (h.issued_le token hmem)
  · refine ⟨hresting.outstanding, fun _ => hresting.down, Nat.zero_le _, ?_, ?_, hresting.prepared, hresting.asleep,
      hresting.unprepared, ?_⟩
    · show [] = (w.manager.dependencyOrder.drop (w.manager.participants.length - 0)).reverse
      rw [hnothing]
      rfl
    · exact hresting.down.trans hnothing.symm
    · intro token hmem hgeneration
      have hle := h.issued_le token hmem
      have hsucc : token.generation = w.manager.status.generation + 1 := hgeneration
      omega

theorem start_spec {w : World} (h : Stopped w) (hphase : w.manager.phase = .none) (hfinalized : w.manager.finalized = true)
    (nowMs : BitVec 64) : Stopped (start env nowMs w) := by
  have hcleared := Quiet.modifyStatus (f := fun s => { s with blockers := [] }) (by intro s; exact ⟨rfl, rfl, rfl⟩) w
  unfold start
  dsimp only
  generalize (w.modifyStatus fun s => { s with blockers := [] }) = w1 at *
  split
  · exact h.quiet (hcleared.trans (Quiet.failure _ _ _))
  rename_i havailable
  rw [Bool.not_eq_false] at havailable
  split
  · refine h.quiet ((hcleared.trans (Quiet.modifyStatus ?_ _)).trans (Quiet.failure _ _ _))
    exact fun _ => ⟨rfl, rfl, rfl⟩
  have hblockers : Quiet w1 (w1.manager.dependencyOrder.reverse.foldl (blockerRound env) w1) :=
    foldl_invariant (fun w' => Quiet w1 w') (fun w' index hq => hq.trans (quiet_blockerRound env w' index)) _ (Quiet.refl w1)
  generalize w1.manager.dependencyOrder.reverse.foldl (blockerRound env) w1 = w2 at *
  have hquiet := hcleared.trans hblockers
  split
  · exact h.quiet (hquiet.trans (Quiet.failure _ _ _))
  · refine drive_spec env (beginSuspend_spec (h.inv.quiet hquiet) ?_ ?_ ?_ nowMs) nowMs
    · exact (congrArg Core.phase hquiet.core).trans hphase
    · exact (congrArg Core.finalized hquiet.core).trans hfinalized
    · exact (congrArg Core.suspendAvailable hblockers.core).trans havailable

theorem noticeActivity_spec {w : World} (h : Stopped w) (activity : Bool) (activityMs nowMs : BitVec 64) :
    Stopped (noticeActivity env activity activityMs nowMs w) := by
  unfold noticeActivity
  split
  · have hleft : Stopped (leaveIdle nowMs (w.modifyStatus fun s => { s with lastActivityMs := activityMs })) :=
      (h.quiet (Quiet.modifyStatus (by intro s; exact ⟨rfl, rfl, rfl⟩) w)).leaveIdle nowMs
    dsimp only
    split
    · exact hleft.quiet (quiet_restoreDisplay env _)
    · exact hleft
  · exact h

theorem noticeDeadline_spec {w : World} (h : Stopped w) (deadline : Bool) (nowMs : BitVec 64) :
    Stopped (noticeDeadline env deadline nowMs w).2 := by
  unfold noticeDeadline
  split
  · dsimp only
    split
    · rename_i hactive
      have hidle : Stopped (w.modifyStatus fun s => { s with state := .idle, reason := .inactivity, stateChangedMs := nowMs }) :=
        h.restate (h.inv.state.phase_eq (Or.inl hactive)) (Or.inr rfl) rfl rfl
      exact hidle.quiet (quiet_applyIdleDisplay env nowMs _)
    · split
      · exact h.quiet (quiet_applyIdleDisplay env nowMs w)
      · exact h
  · exact h

/-- A wake restores the platform and begins to take the participants up. -/
theorem noticeWake_spec {w : World} (h : Inv w) (power : Bool) (nowMs : BitVec 64) : Inv (noticeWake env power nowMs w) := by
  unfold noticeWake
  by_cases hwakes : w.manager.status.state = .suspended ∧ power = true
  · rw [if_pos hwakes]
    dsimp only
    have hcollected := Quiet.record (a := .collectWakeCauses (env.wakeCauses w.asked)) trivial w
    have hinv := h.quiet hcollected
    by_cases hcauses : env.wakeCauses w.asked ≠ 0
    · rw [if_pos hcauses]
      have hphase : w.manager.phase = .sleep := by
        have hstate := h.state
        rw [hwakes.1] at hstate
        cases hp : w.manager.phase with
        | sleep => rfl
        | none =>
          rw [hp] at hstate
          rcases hstate with hnot | hnot <;> nomatch hnot
        | _ =>
          rw [hp] at hstate
          nomatch hstate
      have hdriving := h.driving (by rw [hphase]; decide)
      have hsleeping : Sleeping w.manager.core (viewOf w.log) := by
        have hagrees := h.agrees
        unfold Agrees at hagrees
        rwa [show w.manager.core.phase = .sleep from hphase] at hagrees
      have hcauses := hcollected.trans
        (Quiet.modifyStatus (f := fun s => { s with wakeCauses := env.wakeCauses w.asked }) (by intro s; exact ⟨rfl, rfl, rfl⟩) _)
      generalize ((w.record (.collectWakeCauses (env.wakeCauses w.asked))).modifyStatus
        fun s => { s with wakeCauses := env.wakeCauses w.asked }) = w1 at *
      have hdriving1 := hdriving.quiet hcauses
      -- Whether the platform restores itself makes no difference.
      have hrestored : ∀ w2, Quiet (w1.record (.restore (env.succeeds w1.asked))) w2 →
          Inv (w2.modify (beginResume nowMs .wake)) := by
        intro w2 hquiet
        have hdriving2 : Driving (w1.record (.restore (env.succeeds w1.asked))) := by
          refine hdriving1.move rfl rfl rfl (sound_cons.2 ⟨⟨trivial, ?_, by intro heq; nomatch heq⟩, hdriving1.sound⟩)
            hdriving1.issued_le hdriving1.result
          show (viewOf w1.log).prepared = true
          rw [hcauses.view]
          exact hsleeping.prepared
        have hdriving3 := hdriving2.quiet hquiet
        have hcore : w2.manager.core = w.manager.core := hquiet.core.trans hcauses.core
        refine Driving.inv (hdriving3.move rfl rfl rfl hdriving3.sound hdriving3.issued_le hdriving3.result) rfl ?_
        show Agrees { w2.manager.core with state := .resuming, phase := .resume, cursor := 0 } (viewOf w2.log)
        rw [hcore, hquiet.view]
        show Agrees _ ((viewOf w1.log).observe (.restore (env.succeeds w1.asked)))
        rw [hcauses.view]
        refine ⟨hsleeping.outstanding, 0, Nat.zero_le _, hsleeping.suspended, hsleeping.down, rfl, rfl, rfl, ?_⟩
        intro token hmem hgeneration hoperation
        exact absurd ((hsleeping.issued token hmem hgeneration).symm.trans hoperation) (by decide)
      split
      · exact hrestored _ (Quiet.failure _ _ _)
      · exact hrestored _ (Quiet.refl _)
    · rw [if_neg hcauses]
      exact hinv
  · rw [if_neg hwakes]
    exact h

/-! ### What stays finalized -/

theorem finalized_leaveIdle (nowMs : BitVec 64) (w : World) : (leaveIdle nowMs w).manager.finalized = w.manager.finalized := by
  unfold leaveIdle
  split <;> rfl

theorem finalized_noticeActivity (activity : Bool) (activityMs nowMs : BitVec 64) (w : World) :
    (noticeActivity env activity activityMs nowMs w).manager.finalized = w.manager.finalized := by
  unfold noticeActivity
  split
  · dsimp only
    split
    · exact (congrArg Core.finalized (quiet_restoreDisplay env _).core).trans (finalized_leaveIdle ..)
    · exact finalized_leaveIdle ..
  · rfl

theorem finalized_noticeDeadline (deadline : Bool) (nowMs : BitVec 64) (w : World) :
    (noticeDeadline env deadline nowMs w).2.manager.finalized = w.manager.finalized := by
  unfold noticeDeadline
  split
  · dsimp only
    split
    · exact congrArg Core.finalized (quiet_applyIdleDisplay env nowMs _).core
    · split
      · exact congrArg Core.finalized (quiet_applyIdleDisplay env nowMs _).core
      · rfl
  · rfl

theorem finalized_noticeWake (power : Bool) (nowMs : BitVec 64) (w : World) :
    (noticeWake env power nowMs w).manager.finalized = w.manager.finalized := by
  unfold noticeWake
  split
  · dsimp only
    split
    · split <;> rfl
    · rfl
  · rfl

theorem serveRequest_spec {w : World} (h : Inv w) (hfinalized : w.manager.finalized = true) (request : Bool) (nowMs : BitVec 64) :
    Inv (serveRequest env request nowMs w) := by
  unfold serveRequest
  split
  · split
    · rename_i hstate
      have hphase := h.state.phase_eq hstate
      have hstopped : Stopped w := ⟨h, by rw [hphase]; exact ⟨by decide, by decide⟩⟩
      exact (start_spec env hstopped hphase hfinalized nowMs).inv
    · exact h.quiet (Quiet.failure _ _ _)
  · exact h

theorem powerManagerUpdate_spec {w : World} (h : Stopped w) (deadline power : Bool) (nowMs : BitVec 64) :
    Stopped (powerManagerUpdate env deadline power nowMs w) := by
  unfold powerManagerUpdate
  split
  · exact h
  rename_i hnot
  have hfinalized : w.manager.finalized = true := by
    cases hf : w.manager.finalized with
    | false => exact absurd (Or.inl hf) hnot
    | true => rfl
  have hcalls := meanwhile_spec env w
  have hstopped := h.meanwhile hcalls
  have hfinalized1 : (meanwhile env w).manager.finalized = true := (congrArg Core.finalized hcalls.core).trans hfinalized
  dsimp only
  generalize meanwhile env w = w1 at *
  have htaken : Quiet w1 (w1.modify fun m => { m with suspendRequested := false, activityRequested := false }) :=
    Quiet.modify (by intro m; rfl) w1
  have h2 := noticeActivity_spec env (hstopped.quiet htaken) w1.manager.activityRequested w1.manager.activityMs nowMs
  have hfinalized2 := (finalized_noticeActivity env w1.manager.activityRequested w1.manager.activityMs nowMs
    (w1.modify fun m => { m with suspendRequested := false, activityRequested := false })).trans hfinalized1
  generalize noticeActivity env w1.manager.activityRequested w1.manager.activityMs nowMs
    (w1.modify fun m => { m with suspendRequested := false, activityRequested := false }) = w2 at *
  have h3 := noticeDeadline_spec env h2 deadline nowMs
  have hfinalized3 := (finalized_noticeDeadline env deadline nowMs w2).trans hfinalized2
  cases hdeadline : noticeDeadline env deadline nowMs w2 with
  | mk suspend w3 =>
  rw [hdeadline] at h3 hfinalized3
  have h4 := noticeWake_spec env h3.inv power nowMs
  have hfinalized4 := (finalized_noticeWake env power nowMs w3).trans hfinalized3
  exact drive_spec env (serveRequest_spec env h4 hfinalized4 _ nowMs) nowMs

/-! ## Other operations -/

theorem powerManagerSetPolicy_spec {w : World} (h : Stopped w) (policy : Policy) (nowMs : BitVec 64) :
    Stopped (powerManagerSetPolicy env policy nowMs w) := by
  unfold powerManagerSetPolicy
  split
  · exact h
  have hpolicy : Quiet w (w.modifyStatus fun s => { s with policy := policy }) :=
    Quiet.modifyStatus (by intro s; exact ⟨rfl, rfl, rfl⟩) w
  have hset := h.quiet hpolicy
  dsimp only
  generalize (w.modifyStatus fun s => { s with policy := policy }) = w1 at *
  split
  · exact hset.quiet (quiet_restoreDisplay env w1)
  split
  · rename_i hstate
    have hphase := hset.inv.state.phase_eq hstate
    split
    · refine Stopped.quiet ?_ (quiet_applyIdleDisplay env nowMs _)
      exact hset.restate hphase (Or.inr rfl) rfl rfl
    · refine Stopped.quiet ?_ (quiet_restoreDisplay env _)
      exact hset.restate hphase (Or.inl rfl) rfl rfl
  · exact hset

theorem powerManagerSetDimInhibitors_spec {w : World} (h : Stopped w) (inhibitors : BitVec 32) (nowMs : BitVec 64) :
    Stopped (powerManagerSetDimInhibitors env inhibitors nowMs w) := by
  unfold powerManagerSetDimInhibitors
  split
  · exact h
  have hset := h.quiet
    (Quiet.modifyStatus (f := fun s => { s with dimInhibitors := inhibitors }) (by intro s; exact ⟨rfl, rfl, rfl⟩) w)
  dsimp only
  split
  · exact (hset.leaveIdle nowMs).quiet (quiet_restoreDisplay env _)
  · split
    · refine Stopped.leaveIdle (hset.quiet (Quiet.modifyStatus ?_ _)) nowMs
      exact fun s => ⟨rfl, rfl, rfl⟩
    · exact hset

/-- A registration that is refused makes suspend unavailable and no more. -/
theorem refuseRegistration_spec {w : World} (h : Stopped w) (code : FailureCode) (name : Name) :
    Stopped (w.modify (refuseRegistration code name)) := by
  obtain ⟨hinv, hphase⟩ := h
  refine ⟨⟨hinv.capacity, hinv.finalized, ?_, hinv.empty, hinv.sound, hinv.issued_le, hinv.uncalled, hinv.result, hinv.state, ?_⟩,
    hphase⟩
  · rintro (hdriven | ⟨-, hnot⟩)
    · exact (hinv.ordered (Or.inl hdriven)).congr rfl rfl
    · cases hnot
  · have hagrees := hinv.agrees
    unfold Agrees at hagrees ⊢
    have hsame : (w.modify (refuseRegistration code name)).manager.core.phase = w.manager.core.phase := rfl
    rw [hsame]
    cases hp : w.manager.core.phase with
    | none =>
      rw [hp] at hagrees
      exact ⟨hagrees.suspended, hagrees.unprepared, hagrees.outstanding, hagrees.down, hagrees.prepared, hagrees.asleep⟩
    | suspend => exact absurd hp hphase.1
    | resume => exact absurd hp hphase.2
    | sleep =>
      rw [hp] at hagrees
      exact ⟨hagrees.suspended, hagrees.outstanding, hagrees.down, hagrees.prepared, hagrees.asleep, hagrees.issued⟩
    | waitSuspend =>
      rw [hp] at hagrees
      obtain ⟨base, hview, hrising, hfalling, hrest⟩ := hagrees
      exact ⟨base, hview, hrising, ⟨hfalling.cursor_le, hfalling.suspended, hfalling.down, hfalling.prepared, hfalling.asleep,
        hfalling.unprepared, hfalling.issued⟩, hrest⟩
    | waitResume =>
      rw [hp] at hagrees
      obtain ⟨base, bottom, hview, hrising, hrest⟩ := hagrees
      exact ⟨base, bottom, hview, ⟨hrising.cursor_le, hrising.suspended, hrising.down, hrising.prepared, hrising.asleep,
        hrising.rising, hrising.issued⟩, hrest⟩

/-- Before the manager is finalized it is at rest, and no callback has been called. -/
theorem Inv.unfinalized {w : World} (h : Inv w) (hnot : w.manager.finalized = false) : w.manager.phase = .none := by
  cases hphase : w.manager.phase with
  | none => rfl
  | _ => exact absurd (hnot.symm.trans (h.finalized (by rw [hphase]; decide))) (by decide)

theorem powerManagerRegister_spec {w : World} (h : Stopped w) (registration : Participant) :
    Stopped (w.modify (powerManagerRegister registration)) := by
  unfold powerManagerRegister World.modify
  dsimp only
  split
  · exact refuseRegistration_spec h _ _
  rename_i hnot
  split
  · exact refuseRegistration_spec h _ _
  rename_i hcapacity
  split
  · exact refuseRegistration_spec h _ _
  split
  · exact refuseRegistration_spec h _ _
  have hfinalized : w.manager.finalized = false := by
    cases hf : w.manager.finalized with
    | false => rfl
    | true => exact absurd (Or.inl hf) hnot
  obtain ⟨hinv, hstopped⟩ := h
  have hphase := hinv.unfinalized hfinalized
  have hresting := hinv.resting hphase
  refine ⟨⟨?_, hinv.finalized, ?_, hinv.empty, ?_, hinv.issued_le, hinv.uncalled, hinv.result, hinv.state, ?_⟩, hstopped⟩
  · have hle := hinv.capacity
    show (w.manager.participants ++ [registration]).length ≤ participantCapacity
    rw [List.length_append, List.length_singleton]
    omega
  · rintro (hdriven | ⟨hdriven, -⟩)
    · exact absurd hphase hdriven
    · exact absurd (hfinalized.symm.trans hdriven) (by decide)
  · exact sound_of_issued_nil hinv.sound (hinv.uncalled hfinalized)
  · unfold Agrees
    rw [show Core.phase _ = .none from hphase]
    exact ⟨hresting.suspended, hresting.unprepared, hresting.outstanding, hresting.down, hresting.prepared, hresting.asleep⟩

theorem powerManagerFinalize_spec {w : World} (h : Stopped w) (hfinalized : w.manager.finalized = false) {m : Manager}
    (hm : powerManagerFinalize w.manager = some m) : Stopped { w with manager := m } := by
  obtain ⟨hinv, hstopped⟩ := h
  have hphase := hinv.unfinalized hfinalized
  have hresting := hinv.resting hphase
  have hm' := powerManagerFinalize_eq hm
  have hphase' : m.phase = .none := by rw [hm']; exact hphase
  have hparticipants : m.participants = w.manager.participants := by rw [hm']
  have hfinal : m.finalized = true := by rw [hm']
  refine ⟨⟨?_, fun _ => hfinal, ?_, ?_, ?_, ?_, ?_, ?_, ?_, ?_⟩, ?_⟩
  · show m.participants.length ≤ participantCapacity
    rw [hparticipants]
    exact hinv.capacity
  · rintro (hdriven | ⟨-, havailable⟩)
    · exact absurd hphase' hdriven
    · exact ordered_of_finalize (hinv.empty hfinalized) hm havailable
  · exact fun hnot => absurd (hnot.symm.trans hfinal) (by decide)
  · show Sound (DependsOn m) w.log
    rw [dependsOn_congr hparticipants]
    exact hinv.sound
  · rw [hm']
    exact hinv.issued_le
  · exact fun hnot => absurd (hnot.symm.trans hfinal) (by decide)
  · rw [hm']
    exact hinv.result
  · rw [hm']
    exact hinv.state
  · unfold Agrees
    rw [show Core.phase _ = .none from hphase', hm']
    exact ⟨hresting.suspended, hresting.unprepared, hresting.outstanding, hresting.down, hresting.prepared, hresting.asleep⟩
  · show m.phase ≠ .suspend ∧ m.phase ≠ .resume
    rw [hphase']
    exact ⟨by decide, by decide⟩

/-! ## Runs -/

theorem step_spec {w : World} (h : Stopped w) (op : Op) : Stopped (step env w op) := by
  cases op with
  | register registration => exact powerManagerRegister_spec h registration
  | finalize =>
    unfold step
    dsimp only
    split
    · exact h
    · rename_i hnot
      split
      · exact h
      · rename_i hm
        exact powerManagerFinalize_spec h (Bool.not_eq_true _ ▸ hnot) hm
  | call call => exact h.meanwhile (Meanwhile.call call w)
  | setPolicy policy nowMs => exact powerManagerSetPolicy_spec env h policy nowMs
  | setDimInhibitors inhibitors nowMs => exact powerManagerSetDimInhibitors_spec env h inhibitors nowMs
  | update deadline power nowMs => exact powerManagerUpdate_spec env h deadline power nowMs

theorem initial_spec (policy : Policy) (nowMs : BitVec 64) : Stopped ⟨.initial policy nowMs, [], 0⟩ := by
  refine ⟨⟨Nat.zero_le _, fun hnot => absurd rfl hnot, ?_, fun _ => rfl, trivial, fun _ hmem => (nomatch hmem), fun _ => rfl,
    fun hnot => (nomatch hnot), Or.inl rfl, ⟨rfl, rfl, rfl, rfl, rfl, rfl⟩⟩,
    ⟨(by intro heq; nomatch heq), (by intro heq; nomatch heq)⟩⟩
  rintro (hnot | ⟨hnot, -⟩)
  · exact absurd rfl hnot
  · nomatch hnot

variable {env} {policy : Policy} {nowMs : BitVec 64} {ops : List Op} {w : World}

/-- What holds between operations holds at the end of every run. -/
theorem run_spec (h : run env policy nowMs ops = some w) : Stopped w := by
  obtain ⟨w0, hinit, rfl⟩ := Option.map_eq_some_iff.1 h
  unfold powerManagerInit at hinit
  split at hinit
  · nomatch hinit
  · obtain rfl := Option.some.inj hinit
    have hstart := (initial_spec policy nowMs).quiet (quiet_restoreDisplay env _)
    exact foldl_invariant Stopped (fun w op h => step_spec env h op) ops hstart

/-- The manager waits for a callback that has returned pending. -/
def Waits (m : Manager) : Prop := m.phase = .waitSuspend ∨ m.phase = .waitResume

/-- Suspends and resumes are paired: every callback was called when it might be; while one is outstanding the manager waits, and it has
a result to go on with exactly when the callback has been completed with its own token; other tokens leave it; and what is down waits
for the platform to wake or for a callback. -/
structure SuspendPaired (w : World) : Prop where
  calls : Always View.observe View.initial (CallAllowed (DependsOn w.manager)) w.log
  outstanding : (viewOf w.log).outstanding ≠ none → Waits w.manager
  completed : Waits w.manager → (w.manager.completionReady = true ↔ (viewOf w.log).outstanding = none)
  foreign : Waits w.manager → ∀ token result, (∀ o, (viewOf w.log).outstanding = some o → token ≠ o.token) →
    (powerManagerComplete token result w).manager = w.manager
  down : (viewOf w.log).down ≠ [] → (viewOf w.log).asleep = true ∨ Waits w.manager

/-- Sleeps are paired: every call of the platform was made when it might be; the manager is in no phase exactly when it is active or
idle, and then nothing is suspended; and no loop of `drive` has ended by its bound. -/
structure SleepPaired (w : World) : Prop where
  sleeps : Always View.observe View.initial SleepAllowed w.log
  phase_iff : w.manager.phase = .none ↔ w.manager.status.state = .active ∨ w.manager.status.state = .idle
  resting : w.manager.phase = .none → w.manager.suspended = [] ∧ (viewOf w.log).down = []
  bound : Event.bound ∉ w.log

/-- While the manager waits, its callback is outstanding until it has a result. -/
theorem Inv.waits (h : Inv w) (hwaits : Waits w.manager) : ∃ base, viewOf w.log = pendingView w.manager.core true base := by
  have hagrees := h.agrees
  unfold Agrees at hagrees
  rcases hwaits with hphase | hphase
  · rw [show w.manager.core.phase = .waitSuspend from hphase] at hagrees
    obtain ⟨base, hview, -⟩ := hagrees
    exact ⟨base, hview⟩
  · rw [show w.manager.core.phase = .waitResume from hphase] at hagrees
    obtain ⟨base, bottom, hview, -⟩ := hagrees
    exact ⟨base, hview⟩

/-- Elsewhere none is outstanding, and nothing is down unless the platform is asleep. -/
theorem Stopped.not_waits (h : Stopped w) (hwaits : ¬Waits w.manager) :
    (viewOf w.log).outstanding = none ∧ ((viewOf w.log).down = [] ∨ (viewOf w.log).asleep = true) := by
  have hagrees := h.inv.agrees
  unfold Agrees at hagrees
  cases hphase : w.manager.phase with
  | none =>
    rw [show w.manager.core.phase = .none from hphase] at hagrees
    exact ⟨hagrees.outstanding, Or.inl hagrees.down⟩
  | sleep =>
    rw [show w.manager.core.phase = .sleep from hphase] at hagrees
    exact ⟨hagrees.outstanding, Or.inr hagrees.asleep⟩
  | suspend => exact absurd hphase h.phase.1
  | resume => exact absurd hphase h.phase.2
  | waitSuspend => exact absurd (Or.inl hphase) hwaits
  | waitResume => exact absurd (Or.inr hphase) hwaits

/-- In every run the suspends and resumes of the participants are paired. -/
theorem suspend_resume_paired (h : run env policy nowMs ops = some w) : SuspendPaired w := by
  have hstopped := run_spec h
  have hready : Waits w.manager → (w.manager.completionReady = true ↔ (viewOf w.log).outstanding = none) := by
    intro hwaits
    obtain ⟨base, hview⟩ := hstopped.inv.waits hwaits
    rw [hview]
    cases hready : w.manager.completionReady with
    | true =>
      rw [pendingView_of_ready hready]
      exact iff_of_true rfl (View.outstanding_resolve ..)
    | false =>
      rw [pendingView_of_not_ready hready]
      exact iff_of_false (by decide) (by intro heq; nomatch heq)
  refine ⟨hstopped.inv.sound.mono fun event _ v hallowed => hallowed.1, ?_, hready, ?_, ?_⟩
  · intro houtstanding
    by_contra hwaits
    exact houtstanding (hstopped.not_waits hwaits).1
  · intro hwaits token result hforeign
    unfold powerManagerComplete
    split
    · rfl
    · dsimp only
      rw [if_neg]
      · rfl
      rintro ⟨hnot, htoken⟩
      obtain ⟨base, hview⟩ := hstopped.inv.waits hwaits
      rw [pendingView_of_not_ready hnot] at hview
      exact hforeign _ (by rw [hview]) htoken
  · intro hdown
    by_contra hnot
    rw [not_or] at hnot
    exact ((hstopped.not_waits hnot.2).2.elim hdown hnot.1).elim

/-- A platform that does all it is asked, and participants whose first suspend stays pending. -/
def Environment.pendingOnce : Environment where
  succeeds _ := true
  callback asked := if asked ≤ 10 then .pending else .success
  blocked _ := (false, [])
  wakeCauses _ := 1
  calls _ := []

/-- A participant and one that it depends on suspend, the first of them asynchronously, and resume when the platform wakes. -/
def suspendOps : List Op :=
  [.register ⟨[0x61], [[0x62]], true, true, true⟩, .register ⟨[0x62], [], true, true, true⟩, .finalize, .call .requestSuspend,
    .update false true 20, .call (.complete ⟨0, 0, .suspend⟩ .success), .call (.complete ⟨1, 0, .suspend⟩ .success),
    .update false true 30, .update false true 40]

theorem suspend_resume_paired_pending :
    ∃ w, run .pendingOnce ⟨100, 0, 0, 1000, 75, 20, false⟩ 10 suspendOps = some w ∧ SuspendPaired w := by
  obtain ⟨w, hw⟩ := Option.isSome_iff_exists.1 (show (run .pendingOnce ⟨100, 0, 0, 1000, 75, 20, false⟩ 10 suspendOps).isSome from rfl)
  exact ⟨w, hw, suspend_resume_paired hw⟩

/-- In every run the sleeps of the platform are paired, and the manager is at rest when nothing goes on. -/
theorem prepare_restore_paired (h : run env policy nowMs ops = some w) : SleepPaired w := by
  have hstopped := run_spec h
  refine ⟨hstopped.inv.sound.mono fun event _ v hallowed => hallowed.2.1, stateOf_iff hstopped.inv.state, ?_, ?_⟩
  · intro hphase
    have hresting := hstopped.inv.resting hphase
    exact ⟨hresting.suspended, hresting.down⟩
  · exact hstopped.inv.sound.not_mem fun v hallowed => hallowed.2.2 rfl

theorem prepare_restore_paired_pending :
    ∃ w, run .pendingOnce ⟨100, 0, 0, 1000, 75, 20, false⟩ 10 suspendOps = some w ∧ SleepPaired w := by
  obtain ⟨w, hw⟩ := Option.isSome_iff_exists.1 (show (run .pendingOnce ⟨100, 0, 0, 1000, 75, 20, false⟩ 10 suspendOps).isSome from rfl)
  exact ⟨w, hw, prepare_restore_paired hw⟩

end Power
end TabOS
