import TabOS.Power.Display

/-!
# The deadlines of the power manager

What `power_manager_next_deadline` says after an update for the deadline. The idle display is consumed: what has been requested of it
gives no deadline again. An automatic suspend that is refused leaves its deadline behind, and a resume that is finished leaves the
deadline of the inactivity, however long that was before.
-/

namespace TabOS
namespace Power

open Library

/-! ## Deadlines that are reached -/

section Reached

variable {nowMs : BitVec 64} (hnow : nowMs < BitVec.allOnes 64)

theorem earlier_le_iff (deadline other : BitVec 64) : earlier deadline other ≤ nowMs ↔ deadline ≤ nowMs ∨ other ≤ nowMs := by
  unfold earlier
  split
  · rename_i hlt
    exact ⟨Or.inr, fun h => h.elim (fun hle => BitVec.le_trans (BitVec.le_of_lt hlt) hle) id⟩
  · rename_i hnot
    exact ⟨Or.inl, fun h => h.elim id fun hle => BitVec.le_trans (BitVec.not_lt.1 hnot) hle⟩

/-- One more deadline, under a condition. -/
theorem ite_earlier_le_iff (p : Prop) [Decidable p] (deadline other : BitVec 64) :
    (if p then earlier deadline other else deadline) ≤ nowMs ↔ deadline ≤ nowMs ∨ p ∧ other ≤ nowMs := by
  split
  · rename_i hp
    rw [earlier_le_iff, and_iff_right hp]
  · rename_i hp
    exact ⟨Or.inl, fun h => h.elim id fun hother => absurd hother.1 hp⟩

include hnow

theorem not_allOnes_le : ¬BitVec.allOnes 64 ≤ nowMs := BitVec.not_le.2 hnow

theorem ite_le_iff (p : Prop) [Decidable p] (deadline : BitVec 64) :
    (if p then deadline else BitVec.allOnes 64) ≤ nowMs ↔ p ∧ deadline ≤ nowMs := by
  split
  · rename_i hp
    exact (and_iff_right hp).symm
  · rename_i hp
    exact iff_of_false (not_allOnes_le hnow) fun h => hp h.1

/-- There is no deadline or a later one unless it is reached. -/
theorem later_iff (deadline : BitVec 64) : deadline = BitVec.allOnes 64 ∨ nowMs < deadline ↔ ¬deadline ≤ nowMs := by
  rw [BitVec.not_le]
  refine ⟨?_, Or.inr⟩
  rintro (rfl | hlt)
  · exact hnow
  · exact hlt

/-- An idle manager has a deadline that is reached for its display, as far as that has not been requested, or for its suspend. -/
theorem idleDeadline_le_iff (s : Status) : idleDeadline s ≤ nowMs ↔
    (s.screenOffRequested = false ∧ s.policy.screenOffMs ≠ 0) ∧ add s.lastActivityMs s.policy.screenOffMs ≤ nowMs ∨
    (s.panelOffRequested = false ∧ s.policy.panelOffMs ≠ 0) ∧ add s.lastActivityMs s.policy.panelOffMs ≤ nowMs ∨
    s.policy.automaticSuspend = true ∧ add s.lastActivityMs s.policy.suspendMs ≤ nowMs := by
  unfold idleDeadline
  dsimp only
  rw [ite_earlier_le_iff, ite_earlier_le_iff, ite_le_iff hnow, or_assoc]

variable {m : Manager}

/-- A manager whose deadline is reached is active or idle and has no inhibitors. -/
theorem state_of_deadline (h : powerManagerNextDeadline m ≤ nowMs) :
    m.status.dimInhibitors = 0 ∧ (m.status.state = .active ∨ m.status.state = .idle) := by
  unfold powerManagerNextDeadline at h
  split at h
  · exact absurd h (not_allOnes_le hnow)
  split at h
  · exact absurd h (not_allOnes_le hnow)
  rename_i hinhibited
  refine ⟨not_not.1 hinhibited, ?_⟩
  cases hstate : m.status.state with
  | active => exact Or.inl rfl
  | idle => exact Or.inr rfl
  | _ =>
    rw [hstate] at h
    exact absurd h (not_allOnes_le hnow)

omit hnow in
theorem deadline_of_active (hfinalized : m.finalized = true) (hinhibited : m.status.dimInhibitors = 0)
    (hstate : m.status.state = .active) :
    powerManagerNextDeadline m = add m.status.lastActivityMs m.status.policy.idleMs := by
  unfold powerManagerNextDeadline
  rw [hfinalized, if_neg (by decide), if_neg (not_not.2 hinhibited), hstate]

omit hnow in
theorem deadline_of_idle (hfinalized : m.finalized = true) (hinhibited : m.status.dimInhibitors = 0)
    (hstate : m.status.state = .idle) : powerManagerNextDeadline m = idleDeadline m.status := by
  unfold powerManagerNextDeadline
  rw [hfinalized, if_neg (by decide), if_neg (not_not.2 hinhibited), hstate]

omit hnow in
/-- What the deadline is derived from. -/
theorem deadline_congr {m' : Manager} (hsettings : m'.settings = m.settings) (hrequested : m'.requested = m.requested)
    (hstate : m'.status.state = m.status.state) : powerManagerNextDeadline m' = powerManagerNextDeadline m := by
  have hfinalized : m'.finalized = m.finalized := congrArg Settings.finalized hsettings
  have hpolicy : m'.status.policy = m.status.policy := congrArg Settings.policy hsettings
  have hlast : m'.status.lastActivityMs = m.status.lastActivityMs := congrArg Settings.lastActivityMs hsettings
  have hinhibitors : m'.status.dimInhibitors = m.status.dimInhibitors := congrArg Settings.dimInhibitors hsettings
  have hscreen : m'.status.screenOffRequested = m.status.screenOffRequested := congrArg Prod.fst hrequested
  have hpanel : m'.status.panelOffRequested = m.status.panelOffRequested := congrArg Prod.snd hrequested
  unfold powerManagerNextDeadline idleDeadline
  rw [hfinalized, hpolicy, hlast, hinhibitors, hscreen, hpanel, hstate]

end Reached

/-! ## The settings under the commands of the display -/

variable (env : Environment)

theorem settings_setBrightness (brightness : BitVec 8) (w : World) :
    (setBrightness env brightness w).2.manager.settings = w.manager.settings := by
  unfold setBrightness
  dsimp only
  split
  · rfl
  · split <;> rfl

theorem settings_setPanel (enabled : Bool) (w : World) : (setPanel env enabled w).2.manager.settings = w.manager.settings := by
  unfold setPanel
  dsimp only
  split
  · rfl
  · split <;> rfl

theorem requested_setBrightness (brightness : BitVec 8) (w : World) :
    (setBrightness env brightness w).2.manager.requested = w.manager.requested := by
  unfold setBrightness
  dsimp only
  split
  · rfl
  · split <;> rfl

theorem requested_setPanel (enabled : Bool) (w : World) : (setPanel env enabled w).2.manager.requested = w.manager.requested := by
  unfold setPanel
  dsimp only
  split
  · rfl
  · split <;> rfl

/-- A command of the display changes neither the settings nor what has been requested. -/
theorem settings_setDisplay (brightness : BitVec 8) (panelEnabled : Bool) (w : World) :
    (setDisplay env brightness panelEnabled w).manager.settings = w.manager.settings ∧
    (setDisplay env brightness panelEnabled w).manager.requested = w.manager.requested := by
  have hsettings : (w.modifyStatus fun s => { s with desiredBrightness := brightness }).manager.settings = w.manager.settings := rfl
  have hrequested : (w.modifyStatus fun s => { s with desiredBrightness := brightness }).manager.requested = w.manager.requested := rfl
  rw [← hsettings, ← hrequested]
  unfold setDisplay
  dsimp only
  generalize (w.modifyStatus fun s => { s with desiredBrightness := brightness }) = w1 at *
  split
  · have hset := settings_setBrightness env 0 w1
    have hset' := requested_setBrightness env 0 w1
    split <;> rename_i heq <;> rw [heq] at hset hset'
    · exact ⟨(settings_setPanel ..).trans hset, (requested_setPanel ..).trans hset'⟩
    · exact ⟨hset, hset'⟩
  · have hset := settings_setPanel env true w1
    have hset' := requested_setPanel env true w1
    split <;> rename_i heq <;> rw [heq] at hset hset'
    · exact ⟨(settings_setBrightness ..).trans hset, (requested_setBrightness ..).trans hset'⟩
    · exact ⟨hset, hset'⟩

theorem settings_restoreDisplay (w : World) : (restoreDisplay env w).manager.settings = w.manager.settings :=
  (settings_setDisplay env _ true _).1

theorem state_restoreDisplay (w : World) : (restoreDisplay env w).manager.status.state = w.manager.status.state :=
  congrArg Core.state (quiet_restoreDisplay env w).core

theorem state_applyIdleDisplay (nowMs : BitVec 64) (w : World) :
    (applyIdleDisplay env nowMs w).manager.status.state = w.manager.status.state :=
  congrArg Core.state (quiet_applyIdleDisplay env nowMs w).core

theorem settings_applyIdleDisplay (nowMs : BitVec 64) (w : World) :
    (applyIdleDisplay env nowMs w).manager.settings = w.manager.settings := (settings_setDisplay env _ _ _).1

/-- What is requested of an idle display is what its deadlines have been reached for. -/
theorem requested_applyIdleDisplay (nowMs : BitVec 64) (w : World) :
    (applyIdleDisplay env nowMs w).manager.requested =
      (decide (w.manager.status.policy.screenOffMs ≠ 0) &&
          decide (add w.manager.status.lastActivityMs w.manager.status.policy.screenOffMs ≤ nowMs),
        decide (w.manager.status.policy.panelOffMs ≠ 0) &&
          decide (add w.manager.status.lastActivityMs w.manager.status.policy.panelOffMs ≤ nowMs)) :=
  (settings_setDisplay env _ _ _).2

/-- The deadlines of the display are consumed: only the one of the suspend can still be reached. -/
theorem deadline_applyIdleDisplay {nowMs : BitVec 64} (hnow : nowMs < BitVec.allOnes 64) {w : World}
    (hfinalized : w.manager.finalized = true) (hinhibited : w.manager.status.dimInhibitors = 0)
    (hstate : w.manager.status.state = .idle) :
    powerManagerNextDeadline (applyIdleDisplay env nowMs w).manager ≤ nowMs ↔
      w.manager.status.policy.automaticSuspend = true ∧
        add w.manager.status.lastActivityMs w.manager.status.policy.suspendMs ≤ nowMs := by
  have hsettings := settings_applyIdleDisplay env nowMs w
  have hrequested := requested_applyIdleDisplay env nowMs w
  have hidle := (state_applyIdleDisplay env nowMs w).trans hstate
  generalize applyIdleDisplay env nowMs w = w' at *
  have hpolicy : w'.manager.status.policy = w.manager.status.policy := congrArg Settings.policy hsettings
  have hlast : w'.manager.status.lastActivityMs = w.manager.status.lastActivityMs := congrArg Settings.lastActivityMs hsettings
  obtain ⟨hscreen, hpanel⟩ := Prod.mk.inj hrequested
  rw [deadline_of_idle ((congrArg Settings.finalized hsettings).trans hfinalized)
    ((congrArg Settings.dimInhibitors hsettings).trans hinhibited) hidle, idleDeadline_le_iff hnow, hpolicy, hlast, hscreen, hpanel]
  refine ⟨?_, fun hsuspend => Or.inr (Or.inr hsuspend)⟩
  rintro (⟨⟨hnot, hset⟩, hreached⟩ | ⟨⟨hnot, hset⟩, hreached⟩ | hsuspend)
  · rw [decide_eq_true hset, decide_eq_true hreached] at hnot
    cases hnot
  · rw [decide_eq_true hset, decide_eq_true hreached] at hnot
    cases hnot
  · exact hsuspend

/-! ## The end of an update -/

theorem drive_of_phase_none (nowMs : BitVec 64) {w : World} (h : w.manager.phase = .none) :
    drive env nowMs w = w ∧ ¬DriveFinishes env nowMs w := by
  have hround : driveRound env nowMs w = (false, w) := by
    unfold driveRound
    rw [h]
  refine ⟨?_, ?_⟩
  · unfold drive driveLoop
    rw [hround]
  · unfold DriveFinishes Finishes
    rw [hround]
    rintro (hfinish | ⟨hnot, -⟩)
    · cases h.symm.trans hfinish.1
    · cases hnot

/-- A manager that has finished a resume is active, with its settings of before. -/
theorem finish_settings (nowMs : BitVec 64) (w : World) :
    (finish env nowMs w).manager.settings = w.manager.settings ∧ (finish env nowMs w).manager.status.state = .active ∧
      (finish env nowMs w).manager.phase = .none := by
  unfold finish
  refine ⟨?_, ?_, ?_⟩
  · rw [settings_restoreDisplay]
    rfl
  · rw [state_restoreDisplay]
    rfl
  · exact congrArg Core.phase (quiet_restoreDisplay env _).core

/-- The deadline of the inactivity is reached. -/
def IdleReached (nowMs : BitVec 64) (s : Settings) : Prop :=
  s.dimInhibitors = 0 ∧ add s.lastActivityMs s.policy.idleMs ≤ nowMs

/-- A manager that has finished a resume has the deadline of its inactivity. -/
theorem deadline_finish {nowMs : BitVec 64} (hnow : nowMs < BitVec.allOnes 64) {w : World} (hfinalized : w.manager.finalized = true) :
    powerManagerNextDeadline (finish env nowMs w).manager ≤ nowMs ↔ IdleReached nowMs w.manager.settings := by
  obtain ⟨hsettings, hstate, -⟩ := finish_settings env nowMs w
  generalize finish env nowMs w = w' at *
  have hpolicy : w'.manager.status.policy = w.manager.status.policy := congrArg Settings.policy hsettings
  have hlast : w'.manager.status.lastActivityMs = w.manager.status.lastActivityMs := congrArg Settings.lastActivityMs hsettings
  have hinhibitors : w'.manager.status.dimInhibitors = w.manager.status.dimInhibitors := congrArg Settings.dimInhibitors hsettings
  have hfinal : w'.manager.finalized = true := (congrArg Settings.finalized hsettings).trans hfinalized
  by_cases hinhibited : w.manager.status.dimInhibitors = 0
  · rw [deadline_of_active hfinal (hinhibitors.trans hinhibited) hstate, hpolicy, hlast]
    exact (and_iff_right hinhibited).symm
  · refine iff_of_false (fun hreached => ?_) fun hreached => hinhibited hreached.1
    exact hinhibited (hinhibitors.symm.trans (state_of_deadline hnow hreached).1)

/-- A manager in a phase has no deadline. -/
theorem not_deadline_of_phase {nowMs : BitVec 64} (hnow : nowMs < BitVec.allOnes 64) {w : World} (h : Inv w)
    (hphase : w.manager.phase ≠ .none) : ¬powerManagerNextDeadline w.manager ≤ nowMs :=
  fun hreached => hphase (h.state.phase_eq (state_of_deadline hnow hreached).2)

/-- A manager that is driven has a deadline that is reached when it finishes a resume after the deadline of its inactivity. -/
theorem deadline_drive {nowMs : BitVec 64} (hnow : nowMs < BitVec.allOnes 64) {w : World} (h : Inv w)
    (hphase : w.manager.phase ≠ .none) :
    powerManagerNextDeadline (drive env nowMs w).manager ≤ nowMs ↔
      DriveFinishes env nowMs w ∧ IdleReached nowMs w.manager.settings := by
  rcases drive_cases env nowMs w with ⟨hnot, hdrive⟩ | ⟨hfinishes, w', hfinish, heq⟩
  · refine iff_of_false ?_ fun hreached => hnot hreached.1
    exact not_deadline_of_phase hnow (drive_spec env h nowMs).inv (hdrive.busy hphase)
  · have hphase' : w'.manager.phase ≠ .none := by
      rw [hfinish.atFinish.1]
      decide
    rw [heq, deadline_finish env hnow ((hfinish.inv h).finalized hphase'), hfinish.background.settings]
    exact (and_iff_right hfinishes).symm

/-- The update finishes a resume from where it comes to the request: one that goes on, or the rollback of a suspend that the request
begins. -/
def ServeFinishes (request : Bool) (nowMs : BitVec 64) (w : World) : Prop :=
  DriveFinishes env nowMs (serveRequest env request nowMs w) ∨
    (request = true ∧ (w.manager.status.state = .active ∨ w.manager.status.state = .idle)) ∧ ¬StartRefuses env w ∧
      DriveFinishes env nowMs ((collectBlockers env w).modify (beginSuspend nowMs))

theorem serveRequest_of_not_served {request : Bool} (nowMs : BitVec 64) {w : World}
    (h : ¬(request = true ∧ (w.manager.status.state = .active ∨ w.manager.status.state = .idle))) :
    Background w (serveRequest env request nowMs w) ∧ Quiet w (serveRequest env request nowMs w) := by
  unfold serveRequest
  split
  · rename_i hrequest
    rw [if_neg fun hstate => h ⟨hrequest, hstate⟩]
    exact ⟨Background.failure _ _ w, Quiet.failure _ _ w⟩
  · exact ⟨Background.refl w, Quiet.refl w⟩

/-- Where the request is not served, or refused, the deadline of before remains. -/
theorem deadline_unserved {nowMs : BitVec 64} (hnow : nowMs < BitVec.allOnes 64) {w w' : World} (h : Inv w)
    (hback : Background w w') (hquiet : Quiet w w') :
    powerManagerNextDeadline (drive env nowMs w').manager ≤ nowMs ↔
      DriveFinishes env nowMs w' ∧ IdleReached nowMs w.manager.settings ∨ powerManagerNextDeadline w.manager ≤ nowMs := by
  have hphase' : w'.manager.phase = w.manager.phase := congrArg Core.phase hquiet.core
  by_cases hphase : w.manager.phase = .none
  · obtain ⟨heq, hnot⟩ := drive_of_phase_none env nowMs (hphase'.trans hphase)
    rw [heq, deadline_congr hback.settings hback.requested (congrArg Core.state hquiet.core)]
    exact ⟨Or.inr, fun hreached => hreached.elim (fun hfinishes => absurd hfinishes.1 hnot) id⟩
  · rw [deadline_drive env hnow (h.quiet hquiet) (by rw [hphase']; exact hphase), hback.settings]
    exact ⟨Or.inl, fun hreached => hreached.elim id fun hnot => absurd hnot (not_deadline_of_phase hnow h hphase)⟩

/-- After an update there is a deadline that is reached when it has finished a resume after the deadline of the inactivity, or when
there was one and no suspend has begun. -/
theorem deadline_serve {nowMs : BitVec 64} (hnow : nowMs < BitVec.allOnes 64) {w : World} (h : Inv w)
    (hfinalized : w.manager.finalized = true) (request : Bool) :
    powerManagerNextDeadline (drive env nowMs (serveRequest env request nowMs w)).manager ≤ nowMs ↔
      ServeFinishes env request nowMs w ∧ IdleReached nowMs w.manager.settings ∨
        (request = true → StartRefuses env w) ∧ powerManagerNextDeadline w.manager ≤ nowMs := by
  by_cases hserved : request = true ∧ (w.manager.status.state = .active ∨ w.manager.status.state = .idle)
  · obtain ⟨hrequest, hstate⟩ := id hserved
    have hphase := h.state.phase_eq hstate
    have hserve : serveRequest env request nowMs w = start env nowMs w := by
      unfold serveRequest
      rw [if_pos hrequest, if_pos hstate]
    unfold ServeFinishes
    rw [and_iff_right hserved, hserve]
    rcases start_cases env nowMs w with ⟨hrefuses, hback, hquiet⟩ | ⟨haccepts, heq⟩
    · rw [deadline_unserved env hnow h hback hquiet]
      refine or_congr (and_congr_left' ?_) ?_
      · exact ⟨Or.inl, fun hfinishes => hfinishes.elim id fun hnot => absurd hrefuses hnot.1⟩
      · exact (and_iff_right fun _ => hrefuses).symm
    · have hquiet := quiet_collectBlockers env w
      have havailable : w.manager.status.suspendAvailable = true := by
        by_contra hnot
        exact haccepts (Or.inl (Bool.not_eq_true _ ▸ hnot))
      have hbegin : Inv ((collectBlockers env w).modify (beginSuspend nowMs)) := by
        refine beginSuspend_spec (h.quiet hquiet) ?_ ?_ ?_ nowMs
        · exact (congrArg Core.phase hquiet.core).trans hphase
        · exact (congrArg Core.finalized hquiet.core).trans hfinalized
        · exact (congrArg Core.suspendAvailable hquiet.core).trans havailable
      have hbackground : Background w ((collectBlockers env w).modify (beginSuspend nowMs)) :=
        (background_collectBlockers env w).trans
          (Background.move (f := beginSuspend nowMs) rfl rfl rfl rfl (show Phase.suspend ≠ .none by decide))
      have hbusy : ((collectBlockers env w).modify (beginSuspend nowMs)).manager.phase ≠ .none :=
        show Phase.suspend ≠ .none by decide
      rw [heq, and_iff_right haccepts]
      generalize (collectBlockers env w).modify (beginSuspend nowMs) = w1 at *
      have hnever : ¬((request = true → StartRefuses env w) ∧ powerManagerNextDeadline w.manager ≤ nowMs) :=
        fun hrefuses => haccepts (hrefuses.1 hrequest)
      rw [or_iff_left hnever]
      rcases drive_cases env nowMs w1 with ⟨hnot, hdrive⟩ | ⟨hfinishes, w2, hfinish, heq'⟩
      · rw [deadline_drive env hnow (drive_spec env hbegin nowMs).inv (hdrive.busy hbusy), or_iff_left hnot,
          hdrive.settings, hbackground.settings]
      · -- The drive of the suspend comes back to rest, so that the drive of the update does nothing.
        have hagain := drive_of_phase_none env nowMs (finish_settings env nowMs w2).2.2
        have hbusy' : w2.manager.phase ≠ .none := by
          rw [hfinish.atFinish.1]
          decide
        rw [heq', hagain.1, deadline_finish env hnow ((hfinish.inv hbegin).finalized hbusy'), hfinish.background.settings,
          hbackground.settings]
        exact (and_iff_right (Or.inr hfinishes)).symm
  · obtain ⟨hback, hquiet⟩ := serveRequest_of_not_served env nowMs hserved
    rw [deadline_unserved env hnow h hback hquiet]
    unfold ServeFinishes
    refine or_congr (and_congr_left' ?_) ⟨fun hreached => ⟨fun hrequest => ?_, hreached⟩, And.right⟩
    · exact ⟨Or.inl, fun hfinishes => hfinishes.elim id fun hnot => absurd hnot.1 hserved⟩
    · exact absurd ⟨hrequest, (state_of_deadline hnow hreached).2⟩ hserved

/-! ## The deadline that an update notices -/

/-- The deadline of an automatic suspend is reached, and that of the inactivity, as far as it was not before. -/
structure SuspendReached (nowMs : BitVec 64) (m : Manager) : Prop where
  state : m.status.state = .active ∨ m.status.state = .idle
  inhibitors : m.status.dimInhibitors = 0
  automatic : m.status.policy.automaticSuspend = true
  suspend : add m.status.lastActivityMs m.status.policy.suspendMs ≤ nowMs
  idle : m.status.state = .active → add m.status.lastActivityMs m.status.policy.idleMs ≤ nowMs

/-- A deadline of an automatic suspend is a deadline of the manager. -/
theorem SuspendReached.deadline {nowMs : BitVec 64} (hnow : nowMs < BitVec.allOnes 64) {m : Manager} (h : SuspendReached nowMs m)
    (hfinalized : m.finalized = true) : powerManagerNextDeadline m ≤ nowMs := by
  rcases h.state with hactive | hidle
  · rw [deadline_of_active hfinalized h.inhibitors hactive]
    exact h.idle hactive
  · rw [deadline_of_idle hfinalized h.inhibitors hidle, idleDeadline_le_iff hnow]
    exact Or.inr (Or.inr ⟨h.automatic, h.suspend⟩)

/-- What an update that notices a deadline leaves of it: that of an automatic suspend, which it requests. -/
structure Noticed (nowMs : BitVec 64) (w : World) (suspend : Bool) (w' : World) : Prop where
  settings : w'.manager.settings = w.manager.settings
  suspend_iff : suspend = true ↔ SuspendReached nowMs w.manager
  deadline_iff : powerManagerNextDeadline w'.manager ≤ nowMs ↔ suspend = true

theorem noticeDeadline_noticed {nowMs : BitVec 64} (hnow : nowMs < BitVec.allOnes 64) {w : World}
    (hfinalized : w.manager.finalized = true) :
    Noticed nowMs w (noticeDeadline env true nowMs w).1 (noticeDeadline env true nowMs w).2 := by
  by_cases hreached : powerManagerNextDeadline w.manager ≤ nowMs
  · obtain ⟨hinhibited, hstate⟩ := state_of_deadline hnow hreached
    -- The manager becomes idle, or is so already.
    have hidle : ∃ w1, w1.manager.settings = w.manager.settings ∧ w1.manager.status.state = .idle ∧
        noticeDeadline env true nowMs w = (decide ((applyIdleDisplay env nowMs w1).manager.status.state = .idle) &&
          (applyIdleDisplay env nowMs w1).manager.status.policy.automaticSuspend &&
          decide (add (applyIdleDisplay env nowMs w1).manager.status.lastActivityMs
            (applyIdleDisplay env nowMs w1).manager.status.policy.suspendMs ≤ nowMs), applyIdleDisplay env nowMs w1) := by
      unfold noticeDeadline
      rw [if_pos ⟨rfl, hreached⟩]
      rcases hstate with hactive | hidle
      · refine ⟨w.modifyStatus fun s => { s with state := .idle, reason := .inactivity, stateChangedMs := nowMs }, rfl, rfl, ?_⟩
        rw [if_pos hactive]
      · refine ⟨w, rfl, hidle, ?_⟩
        rw [if_neg (by rw [hidle]; decide), if_pos hidle]
    obtain ⟨w1, hsettings1, hstate1, heq⟩ := hidle
    have hsettings := settings_applyIdleDisplay env nowMs w1
    have hpolicy1 : w1.manager.status.policy = w.manager.status.policy := congrArg Settings.policy hsettings1
    have hlast1 : w1.manager.status.lastActivityMs = w.manager.status.lastActivityMs := congrArg Settings.lastActivityMs hsettings1
    have hdeadline := deadline_applyIdleDisplay env hnow ((congrArg Settings.finalized hsettings1).trans hfinalized)
      ((congrArg Settings.dimInhibitors hsettings1).trans hinhibited) hstate1
    have hpolicy : (applyIdleDisplay env nowMs w1).manager.status.policy = w1.manager.status.policy :=
      congrArg Settings.policy hsettings
    have hlast : (applyIdleDisplay env nowMs w1).manager.status.lastActivityMs = w1.manager.status.lastActivityMs :=
      congrArg Settings.lastActivityMs hsettings
    have hsuspend : (noticeDeadline env true nowMs w).1 = true ↔ w1.manager.status.policy.automaticSuspend = true ∧
        add w1.manager.status.lastActivityMs w1.manager.status.policy.suspendMs ≤ nowMs := by
      rw [heq, hpolicy, hlast, state_applyIdleDisplay, decide_eq_true hstate1, Bool.true_and, Bool.and_eq_true, decide_eq_true_eq]
    refine ⟨?_, ?_, ?_⟩
    · rw [heq]
      exact hsettings.trans hsettings1
    · rw [hsuspend, hpolicy1, hlast1]
      refine ⟨fun h => ⟨hstate, hinhibited, h.1, h.2, fun hactive => ?_⟩, fun h => ⟨h.automatic, h.suspend⟩⟩
      rwa [deadline_of_active hfinalized hinhibited hactive] at hreached
    · rw [hsuspend, heq]
      exact hdeadline
  · have heq : noticeDeadline env true nowMs w = (false, w) := if_neg fun h => hreached h.2
    rw [heq]
    exact ⟨rfl, iff_of_false Bool.false_ne_true fun h => hreached (h.deadline hnow hfinalized),
      iff_of_false hreached Bool.false_ne_true⟩

/-- A wake of the platform makes no difference to the deadline. -/
theorem deadline_noticeWake {nowMs : BitVec 64} (hnow : nowMs < BitVec.allOnes 64) {w : World} (h : Inv w) (power : Bool) :
    powerManagerNextDeadline (noticeWake env power nowMs w).manager ≤ nowMs ↔ powerManagerNextDeadline w.manager ≤ nowMs := by
  by_cases hwakes : w.manager.status.state = .suspended ∧ power = true
  · have hphase : w.manager.phase ≠ .none := by
      intro hnone
      have hstate := (stateOf_iff h.state).1 hnone
      rw [hwakes.1] at hstate
      rcases hstate with hnot | hnot <;> cases hnot
    exact iff_of_false
      (not_deadline_of_phase hnow (noticeWake_spec env h power nowMs) ((background_noticeWake env power nowMs w).busy hphase))
      (not_deadline_of_phase hnow h hphase)
  · rw [show noticeWake env power nowMs w = w from if_neg hwakes]

/-! ## Updates -/

/-- The last activity that an update goes by: the one that has been requested, or the one before. -/
def lastActivity (w : World) : BitVec 64 :=
  if (meanwhile env w).manager.activityRequested then (meanwhile env w).manager.activityMs else w.manager.status.lastActivityMs

/-- An update takes the requests and notices the activity. -/
def takeRequests (nowMs : BitVec 64) (w : World) : World :=
  noticeActivity env (meanwhile env w).manager.activityRequested (meanwhile env w).manager.activityMs nowMs
    ((meanwhile env w).modify fun m => { m with suspendRequested := false, activityRequested := false })

/-- What an update for a deadline has when it comes to the request: whether there is one, and the world. -/
def atRequest (power : Bool) (nowMs : BitVec 64) (w : World) : Bool × World :=
  let (suspend, w') := noticeDeadline env true nowMs (takeRequests env nowMs w)
  ((meanwhile env w).manager.suspendRequested || suspend, noticeWake env power nowMs w')

theorem powerManagerUpdate_eq (power : Bool) (nowMs : BitVec 64) {w : World} (hfinalized : w.manager.finalized = true)
    (hstate : w.manager.status.state ≠ .shuttingDown) :
    powerManagerUpdate env true power nowMs w =
      drive env nowMs (serveRequest env (atRequest env power nowMs w).1 nowMs (atRequest env power nowMs w).2) := by
  have hrunning : ¬(w.manager.finalized = false ∨ w.manager.status.state = .shuttingDown) := by
    rintro (hnot | hnot)
    · exact absurd (hnot.symm.trans hfinalized) (by decide)
    · exact hstate hnot
  exact if_neg hrunning

theorem settings_leaveIdle (nowMs : BitVec 64) (w : World) :
    (leaveIdle nowMs w).manager.settings = w.manager.settings ∧
    (leaveIdle nowMs w).manager.status.state = if w.manager.status.state = .idle then .active else w.manager.status.state := by
  unfold leaveIdle
  split <;> exact ⟨rfl, rfl⟩

/-- The activity sets the time of the last one and ends the idleness. -/
theorem noticeActivity_settings (activity : Bool) (activityMs nowMs : BitVec 64) (w : World) :
    (noticeActivity env activity activityMs nowMs w).manager.settings =
      { w.manager.settings with lastActivityMs := if activity then activityMs else w.manager.status.lastActivityMs } ∧
    (noticeActivity env activity activityMs nowMs w).manager.status.state =
      if activity = true ∧ w.manager.status.state = .idle then .active else w.manager.status.state := by
  unfold noticeActivity
  cases activity with
  | false => exact ⟨rfl, rfl⟩
  | true =>
    obtain ⟨hsettings, hstate⟩ := settings_leaveIdle nowMs (w.modifyStatus fun s => { s with lastActivityMs := activityMs })
    rw [if_pos rfl, if_pos rfl]
    dsimp only
    generalize leaveIdle nowMs (w.modifyStatus fun s => { s with lastActivityMs := activityMs }) = w1 at *
    have hstate1 : w1.manager.status.state =
        if true = true ∧ w.manager.status.state = .idle then .active else w.manager.status.state := by
      rw [hstate]
      exact if_congr (and_iff_right rfl).symm rfl rfl
    split
    · rw [settings_restoreDisplay, state_restoreDisplay]
      exact ⟨hsettings, hstate1⟩
    · exact ⟨hsettings, hstate1⟩

/-- What an update goes by when it has taken the requests. -/
theorem takeRequests_spec (nowMs : BitVec 64) (w : World) :
    (takeRequests env nowMs w).manager.settings = { w.manager.settings with lastActivityMs := lastActivity env w } ∧
    (takeRequests env nowMs w).manager.status.state =
      if (meanwhile env w).manager.activityRequested = true ∧ w.manager.status.state = .idle then .active
      else w.manager.status.state := by
  have hback := background_meanwhile env w
  have hstate : (meanwhile env w).manager.status.state = w.manager.status.state := congrArg Core.state (meanwhile_spec env w).core
  have hlast : w.manager.status.lastActivityMs = (meanwhile env w).manager.status.lastActivityMs :=
    (congrArg Settings.lastActivityMs hback.settings).symm
  unfold takeRequests lastActivity
  rw [← hstate, ← hback.settings, hlast]
  generalize meanwhile env w = w1 at *
  obtain ⟨hsettings, hstate'⟩ := noticeActivity_settings env w1.manager.activityRequested w1.manager.activityMs nowMs
    (w1.modify fun m => { m with suspendRequested := false, activityRequested := false })
  exact ⟨hsettings, hstate'⟩

/-- An automatic suspend is due in an update: the manager is active or idle, and its deadline is reached, as is that of the inactivity
unless the manager stays idle. -/
structure SuspendDue (nowMs : BitVec 64) (w : World) : Prop where
  state : w.manager.status.state = .active ∨ w.manager.status.state = .idle
  automatic : w.manager.status.policy.automaticSuspend = true
  suspend : add (lastActivity env w) w.manager.status.policy.suspendMs ≤ nowMs
  idle : w.manager.status.state = .active ∨ (meanwhile env w).manager.activityRequested = true →
    add (lastActivity env w) w.manager.status.policy.idleMs ≤ nowMs

theorem suspendReached_takeRequests (nowMs : BitVec 64) (w : World) :
    SuspendReached nowMs (takeRequests env nowMs w).manager ↔ w.manager.status.dimInhibitors = 0 ∧ SuspendDue env nowMs w := by
  obtain ⟨hsettings, hstate⟩ := takeRequests_spec env nowMs w
  generalize takeRequests env nowMs w = w1 at *
  have hpolicy : w1.manager.status.policy = w.manager.status.policy := congrArg Settings.policy hsettings
  have hlast : w1.manager.status.lastActivityMs = lastActivity env w := congrArg Settings.lastActivityMs hsettings
  have hinhibitors : w1.manager.status.dimInhibitors = w.manager.status.dimInhibitors := congrArg Settings.dimInhibitors hsettings
  by_cases hactivity : (meanwhile env w).manager.activityRequested = true ∧ w.manager.status.state = .idle
  · rw [if_pos hactivity] at hstate
    constructor
    · rintro ⟨-, hinhibited, hautomatic, hsuspend, hidle⟩
      rw [hpolicy, hlast] at hsuspend hidle
      rw [hpolicy] at hautomatic
      exact ⟨hinhibitors.symm.trans hinhibited, Or.inr hactivity.2, hautomatic, hsuspend, fun _ => hidle hstate⟩
    · rintro ⟨hinhibited, -, hautomatic, hsuspend, hidle⟩
      refine ⟨Or.inl hstate, hinhibitors.trans hinhibited, ?_, ?_, fun _ => ?_⟩
      · rwa [hpolicy]
      · rwa [hpolicy, hlast]
      · rw [hpolicy, hlast]
        exact hidle (Or.inr hactivity.1)
  · rw [if_neg hactivity] at hstate
    constructor
    · rintro ⟨hrest, hinhibited, hautomatic, hsuspend, hidle⟩
      rw [hpolicy, hlast] at hsuspend hidle
      rw [hpolicy] at hautomatic
      rw [hstate] at hrest hidle
      refine ⟨hinhibitors.symm.trans hinhibited, hrest, hautomatic, hsuspend, ?_⟩
      rintro (hactive | hrequested)
      · exact hidle hactive
      · exact hrest.elim hidle fun hidle' => absurd ⟨hrequested, hidle'⟩ hactivity
    · rintro ⟨hinhibited, hrest, hautomatic, hsuspend, hidle⟩
      rw [← hstate] at hrest hidle
      refine ⟨hrest, hinhibitors.trans hinhibited, ?_, ?_, fun hactive => ?_⟩
      · rwa [hpolicy]
      · rwa [hpolicy, hlast]
      · rw [hpolicy, hlast]
        exact hidle (Or.inl hactive)

/-- An update for the deadline leaves a deadline behind that is reached: it finishes a resume when the deadline of the inactivity is
reached, or an automatic suspend is due and refused. -/
structure Spins (power : Bool) (nowMs : BitVec 64) (w : World) : Prop where
  finalized : w.manager.finalized = true
  running : w.manager.status.state ≠ .shuttingDown
  inhibitors : w.manager.status.dimInhibitors = 0
  branch :
    ServeFinishes env (atRequest env power nowMs w).1 nowMs (atRequest env power nowMs w).2 ∧
        add (lastActivity env w) w.manager.status.policy.idleMs ≤ nowMs ∨
      SuspendDue env nowMs w ∧ StartRefuses env (atRequest env power nowMs w).2

theorem deadline_update {nowMs : BitVec 64} (hnow : nowMs < BitVec.allOnes 64) (power : Bool) {w : World} (h : Stopped w)
    (hfinalized : w.manager.finalized = true) (hstate : w.manager.status.state ≠ .shuttingDown) :
    powerManagerNextDeadline (powerManagerUpdate env true power nowMs w).manager ≤ nowMs ↔ Spins env power nowMs w := by
  obtain ⟨hsettings, -⟩ := takeRequests_spec env nowMs w
  have hsuspend := suspendReached_takeRequests env nowMs w
  have htaken : Stopped (takeRequests env nowMs w) := by
    have hcleared : Quiet (meanwhile env w) ((meanwhile env w).modify fun m =>
        { m with suspendRequested := false, activityRequested := false }) := Quiet.modify (by intro m; rfl) _
    exact noticeActivity_spec env ((h.meanwhile (meanwhile_spec env w)).quiet hcleared) _ _ nowMs
  have hfinalized1 : (takeRequests env nowMs w).manager.finalized = true := (congrArg Settings.finalized hsettings).trans hfinalized
  have hnoticed := noticeDeadline_noticed env hnow hfinalized1
  have hdeadline := noticeDeadline_spec env htaken true nowMs
  have hfinalized2 := (finalized_noticeDeadline env true nowMs (takeRequests env nowMs w)).trans hfinalized1
  have hserve := deadline_serve env hnow (noticeWake_spec env hdeadline.inv power nowMs)
    ((finalized_noticeWake env power nowMs _).trans hfinalized2)
    ((meanwhile env w).manager.suspendRequested || (noticeDeadline env true nowMs (takeRequests env nowMs w)).1)
  have hwake := deadline_noticeWake env hnow hdeadline.inv power
  have hsettings' : (atRequest env power nowMs w).2.manager.settings =
      { w.manager.settings with lastActivityMs := lastActivity env w } :=
    (background_noticeWake env power nowMs _).settings.trans (hnoticed.settings.trans hsettings)
  have hreached : IdleReached nowMs (atRequest env power nowMs w).2.manager.settings ↔
      w.manager.status.dimInhibitors = 0 ∧ add (lastActivity env w) w.manager.status.policy.idleMs ≤ nowMs := by
    rw [hsettings']
    exact Iff.rfl
  have hrefused : ((atRequest env power nowMs w).1 = true → StartRefuses env (atRequest env power nowMs w).2) ∧
      powerManagerNextDeadline (atRequest env power nowMs w).2.manager ≤ nowMs ↔
      (w.manager.status.dimInhibitors = 0 ∧ SuspendDue env nowMs w) ∧ StartRefuses env (atRequest env power nowMs w).2 := by
    have hdue : powerManagerNextDeadline (atRequest env power nowMs w).2.manager ≤ nowMs ↔
        w.manager.status.dimInhibitors = 0 ∧ SuspendDue env nowMs w :=
      hwake.trans (hnoticed.deadline_iff.trans (hnoticed.suspend_iff.trans hsuspend))
    constructor
    · rintro ⟨hrefuses, hle⟩
      have hrequest : (atRequest env power nowMs w).1 = true := by
        refine Bool.or_eq_true_iff.2 (Or.inr ?_)
        exact hnoticed.suspend_iff.2 (hsuspend.2 (hdue.1 hle))
      exact ⟨hdue.1 hle, hrefuses hrequest⟩
    · rintro ⟨hdue', hrefuses⟩
      exact ⟨fun _ => hrefuses, hdue.2 hdue'⟩
  rw [powerManagerUpdate_eq env power nowMs hfinalized hstate]
  refine hserve.trans ((or_congr (and_congr_right' hreached) hrefused).trans ?_)
  constructor
  · rintro (⟨hfinishes, hinhibited, hidle⟩ | ⟨⟨hinhibited, hdue⟩, hrefuses⟩)
    · exact ⟨hfinalized, hstate, hinhibited, Or.inl ⟨hfinishes, hidle⟩⟩
    · exact ⟨hfinalized, hstate, hinhibited, Or.inr ⟨hdue, hrefuses⟩⟩
  · rintro ⟨-, -, hinhibited, ⟨hfinishes, hidle⟩ | ⟨hdue, hrefuses⟩⟩
    · exact Or.inl ⟨hfinishes, hinhibited, hidle⟩
    · exact Or.inr ⟨⟨hinhibited, hdue⟩, hrefuses⟩

/-- A policy with an automatic suspend. -/
def automaticPolicy : Policy := ⟨100, 0, 0, 1000, 75, 20, true⟩

/-- A participant that the manager cannot suspend. -/
def unsuspendable : Participant := ⟨[0x61], [], false, false, false⟩

end Power
end TabOS
