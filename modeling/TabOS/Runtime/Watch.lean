import TabOS.Power.Config
import TabOS.Power.Idling

/-!
# The passes over the power manager

What `kernel_runtime_start` and `kernel_runtime_update` of `kernel/runtime.c` do with the power manager. No code registers a participant,
calls the manager from elsewhere or asks it to suspend, and `power.conf` cannot ask for an automatic suspend: in every run of the kernel, the
manager is a clock of the inactivity.
-/

namespace TabOS
namespace Runtime

open Library Power

/-- A pass: whether the wake is for a deadline or the power, the time, the answers of the services of the input, the pointer, the console, the
audio and the camera, and whether the system has panicked when the pass looks at the power and at its end. -/
structure Pass where
  deadline : Bool
  power : Bool
  nowMs : BitVec 64
  inputActivity : Bool
  keyHeld : Bool
  pointerActivity : Bool
  contactActive : Bool
  graphicsActive : Bool
  media : Bool
  panicked : Bool
  panickedLast : Bool

/-- `POWER_INHIBITOR_PANIC`. -/
def inhibitorPanic : BitVec 32 := 16

/-- The inhibitors that a pass sets. -/
def Pass.inhibitors (pass : Pass) (panelOffRequested : Bool) : BitVec 32 :=
  (if pass.keyHeld then 1 else 0) ||| (if pass.contactActive && !panelOffRequested then 2 else 0) |||
    (if pass.graphicsActive then 4 else 0) ||| (if pass.panicked then inhibitorPanic else 0) ||| (if pass.media then 8 else 0)

/-- Whether a pass requests activity. -/
def Pass.activity (pass : Pass) (panelOffRequested : Bool) : Bool :=
  pass.inputActivity || (pass.pointerActivity && !panelOffRequested)

/-- The manager suspends, sleeps or resumes. -/
def asleep (m : Manager) : Bool := decide (m.status.state ∈ [.suspending, .suspended, .resuming])

section

variable (env : Environment)

/-- What a pass does with the manager between the drivers and the services. -/
def watchPower (pass : Pass) (w : World) : World :=
  let panelOffRequested := w.manager.status.panelOffRequested
  let w' := powerManagerSetDimInhibitors env (pass.inhibitors panelOffRequested) pass.nowMs w
  powerManagerUpdate env pass.deadline pass.power pass.nowMs
    (if pass.activity panelOffRequested then powerManagerRequestActivity pass.nowMs w' else w')

/-- What a pass does with the manager at its end. -/
def watchPanic (pass : Pass) (w : World) : World :=
  if pass.panickedLast then powerManagerSetDimInhibitors env (w.manager.status.dimInhibitors ||| inhibitorPanic) pass.nowMs w else w

/-- What `kernel_runtime_update` does with the manager. -/
def kernelRuntimeUpdate (w : World) (pass : Pass) : World :=
  let w := if asleep w.manager then powerManagerUpdate env pass.deadline pass.power pass.nowMs w else w
  if asleep w.manager then w
  else
    let w := watchPower env pass w
    if asleep w.manager then w else watchPanic env pass w

end

/-- The display answers the commands, and nobody else has to do with the manager. -/
def displayOnly (succeeds : Nat → Bool) : Environment where
  succeeds := succeeds
  callback _ := .success
  blocked _ := (false, [])
  wakeCauses _ := 0
  calls _ := []

/-- The policy that `power_config_load` leaves, for the content of `power.conf` if it is read. -/
def startPolicy : Option (List UInt8) → Policy
  | none => powerConfigDefaults
  | some content => (powerConfigParse (.bytes content) (some powerConfigDefaults)).2.getD powerConfigDefaults

/-- What `kernel_runtime_start` does with the manager. -/
def kernelRuntimeStart (succeeds : Nat → Bool) (config : Option (List UInt8)) (nowMs : BitVec 64) : Option World :=
  (powerManagerInit (displayOnly succeeds) (startPolicy config) nowMs).map fun w => Power.step (displayOnly succeeds) w .finalize

/-! ## The clock -/

/-- The clock that the kernel starts. -/
def startClock (policy : Policy) (nowMs : BitVec 64) : Idling where
  finalized := true
  phase := .none
  suspendRequested := false
  activityRequested := false
  activityMs := 0
  state := .active
  policy := policy
  lastActivityMs := nowMs
  dimInhibitors := 0
  screenOffRequested := false
  panelOffRequested := false

/-- The clock after a pass. -/
def clockPass (s : Idling) (pass : Pass) : Idling :=
  let next := s.look (pass.inhibitors s.panelOffRequested) (pass.activity s.panelOffRequested) pass.deadline pass.nowMs
  if pass.panickedLast then next.inhibit (next.dimInhibitors ||| inhibitorPanic) pass.nowMs else next

/-- A clock that runs and has noticed the activity. -/
structure Quiet (s : Idling) : Prop where
  calm : s.Calm
  noticed : s.activityRequested = false

theorem Quiet.clockPass {s : Idling} (h : Quiet s) (pass : Pass) : Quiet (clockPass s pass) := by
  have hlook := h.calm.look (pass.inhibitors s.panelOffRequested) (pass.activity s.panelOffRequested) pass.deadline pass.nowMs
  have hnoticed := Idling.look_activityRequested (pass.inhibitors s.panelOffRequested) (pass.activity s.panelOffRequested)
    pass.deadline pass.nowMs s
  unfold Runtime.clockPass
  dsimp only
  split
  · exact ⟨hlook.inhibit _ _, (Idling.inhibit_activityRequested _ _ _).trans hnoticed⟩
  · exact ⟨hlook, hnoticed⟩

/-- A policy of the kernel has a delay before the display is dimmed and no automatic suspend. -/
theorem startPolicy_spec (config : Option (List UInt8)) :
    policyOk (startPolicy config) = true ∧ (startPolicy config).automaticSuspend = false ∧ (startPolicy config).idleMs ≠ 0 := by
  have hdefaults : policyOk powerConfigDefaults = true ∧ powerConfigDefaults.automaticSuspend = false ∧
      powerConfigDefaults.idleMs ≠ 0 := by decide
  cases config with
  | none => exact hdefaults
  | some content =>
    unfold startPolicy
    dsimp only
    unfold powerConfigParse
    split_ifs with hlarge
    · exact hdefaults
    · dsimp only
      split_ifs with hzero
      · exact hdefaults
      · cases hparsed : parseContent content with
        | none => exact hdefaults
        | some parsed =>
          obtain ⟨hdescribes, hok⟩ := parseContent_describes hparsed
          refine ⟨hok, hdescribes.automaticSuspend, ?_⟩
          unfold parseContent at hparsed
          obtain ⟨state, -, hchecks⟩ := Option.bind_eq_some_iff.1 hparsed
          split_ifs at hchecks with hrefused
          obtain rfl := Option.some.inj hchecks
          exact fun hidle => hrefused (Or.inr (Or.inl hidle))

theorem quiet_startClock (config : Option (List UInt8)) (nowMs : BitVec 64) : Quiet (startClock (startPolicy config) nowMs) := by
  obtain ⟨-, hautomatic, hidle⟩ := startPolicy_spec config
  exact ⟨⟨rfl, rfl, rfl, Or.inl rfl, hautomatic, hidle⟩, rfl⟩

/-! ## The manager is the clock -/

variable (succeeds : Nat → Bool)

theorem not_asleep {m : Manager} (h : m.idling.Calm) : asleep m = false := by
  have hstate : m.status.state = .active ∨ m.status.state = .idle := h.state
  rcases hstate with hstate | hstate <;> simp [asleep, hstate]

theorem idling_pass {w : World} (h : w.manager.idling.Calm) (pass : Pass) :
    (kernelRuntimeUpdate (displayOnly succeeds) w pass).manager.idling = clockPass w.manager.idling pass := by
  have hlook : (watchPower (displayOnly succeeds) pass w).manager.idling =
      w.manager.idling.look (pass.inhibitors w.manager.status.panelOffRequested) (pass.activity w.manager.status.panelOffRequested)
        pass.deadline pass.nowMs := idling_look (displayOnly succeeds) rfl _ _ _ _ _ h
  have hcalm := h.look (pass.inhibitors w.manager.status.panelOffRequested) (pass.activity w.manager.status.panelOffRequested)
    pass.deadline pass.nowMs
  rw [← hlook] at hcalm
  have hpass : kernelRuntimeUpdate (displayOnly succeeds) w pass =
      watchPanic (displayOnly succeeds) pass (watchPower (displayOnly succeeds) pass w) := by
    simp [kernelRuntimeUpdate, not_asleep h, not_asleep hcalm]
  have hpanel : w.manager.idling.panelOffRequested = w.manager.status.panelOffRequested := rfl
  rw [hpass]
  unfold watchPanic clockPass
  rw [hpanel, ← hlook]
  cases pass.panickedLast with
  | false => rfl
  | true => exact idling_setDimInhibitors (displayOnly succeeds) hcalm _ _

theorem kernelRuntimeStart_spec (config : Option (List UInt8)) (nowMs : BitVec 64) :
    ∃ w, kernelRuntimeStart succeeds config nowMs = some w ∧ w.manager.idling = startClock (startPolicy config) nowMs := by
  have hok := (startPolicy_spec config).1
  unfold kernelRuntimeStart
  generalize startPolicy config = policy at hok
  have hinit : powerManagerInit (displayOnly succeeds) policy nowMs =
      some (restoreDisplay (displayOnly succeeds) ⟨.initial policy nowMs, [], 0⟩) := by
    unfold powerManagerInit
    rw [if_neg (by rw [hok]; decide)]
  have hparticipants := congrArg Core.participants (quiet_restoreDisplay (displayOnly succeeds) ⟨.initial policy nowMs, [], 0⟩).core
  have hidling := idling_restoreDisplay (displayOnly succeeds) ⟨.initial policy nowMs, [], 0⟩
  rw [hinit]
  generalize restoreDisplay (displayOnly succeeds) ⟨.initial policy nowMs, [], 0⟩ = w at hparticipants hidling
  have hnobody : w.manager.participants = [] := hparticipants
  have hunfinished : w.manager.finalized = false := congrArg Idling.finalized hidling
  have hfinalize : powerManagerFinalize w.manager = some { w.manager with finalized := true } := by
    simp [powerManagerFinalize, hnobody]
  have hstep : Power.step (displayOnly succeeds) w .finalize = { w with manager := { w.manager with finalized := true } } := by
    simp [Power.step, hunfinished, hfinalize]
  refine ⟨_, rfl, ?_⟩
  have hfinal : ({ w.manager with finalized := true } : Manager).idling = { w.manager.idling with finalized := true } := rfl
  dsimp only
  rw [hstep]
  exact hfinal.trans (by rw [hidling]; rfl)

theorem quiet_started {config : Option (List UInt8)} {startMs : BitVec 64} {w : World}
    (h : kernelRuntimeStart succeeds config startMs = some w) : Quiet w.manager.idling := by
  obtain ⟨w1, hstart, hclock⟩ := kernelRuntimeStart_spec succeeds config startMs
  obtain rfl : w1 = w := Option.some.inj (hstart.symm.trans h)
  rw [hclock]
  exact quiet_startClock config startMs

/-- What every run of the kernel keeps. -/
theorem quiet_run {s : Idling} (h : Quiet s) (passes : List Pass) : Quiet (passes.foldl clockPass s) :=
  foldl_invariant Quiet (fun _ pass hs => hs.clockPass pass) passes h

theorem idling_run {w : World} (h : Quiet w.manager.idling) (passes : List Pass) :
    (passes.foldl (kernelRuntimeUpdate (displayOnly succeeds)) w).manager.idling = passes.foldl clockPass w.manager.idling := by
  induction passes generalizing w with
  | nil => rfl
  | cons pass passes ih =>
    have hpass := idling_pass succeeds h.calm pass
    rw [List.foldl_cons, List.foldl_cons, ← hpass]
    exact ih (hpass ▸ h.clockPass pass)

/-- For every `power.conf`, whatever the display answers and whatever the passes find, the manager of the kernel starts, it is the clock of
the inactivity, and it never suspends. -/
theorem power_is_clock (config : Option (List UInt8)) (startMs : BitVec 64) :
    ∃ w, kernelRuntimeStart succeeds config startMs = some w ∧ ∀ passes : List Pass,
      (passes.foldl (kernelRuntimeUpdate (displayOnly succeeds)) w).manager.idling =
          passes.foldl clockPass (startClock (startPolicy config) startMs) ∧
        asleep (passes.foldl (kernelRuntimeUpdate (displayOnly succeeds)) w).manager = false := by
  obtain ⟨w, hstart, hclock⟩ := kernelRuntimeStart_spec succeeds config startMs
  refine ⟨w, hstart, fun passes => ?_⟩
  have hquiet := quiet_started succeeds hstart
  have hrun := idling_run succeeds hquiet passes
  rw [← hclock]
  refine ⟨hrun, not_asleep ?_⟩
  rw [hrun]
  exact (quiet_run hquiet passes).calm

/-! ## What the clock says -/

/-- A reachable manager of the kernel. -/
def Reached (w : World) : Prop :=
  ∃ config startMs w0, ∃ passes : List Pass, kernelRuntimeStart succeeds config startMs = some w0 ∧
    w = passes.foldl (kernelRuntimeUpdate (displayOnly succeeds)) w0

theorem Reached.quiet {w : World} (h : Reached succeeds w) : Quiet w.manager.idling := by
  obtain ⟨config, startMs, w0, passes, hstart, rfl⟩ := h
  have hquiet := quiet_started succeeds hstart
  rw [idling_run succeeds hquiet passes]
  exact quiet_run hquiet passes

/-- The inhibitors of a clock that a panic inhibits. -/
theorem inhibit_panic (s : Idling) (nowMs : BitVec 64) :
    (s.inhibit (s.dimInhibitors ||| inhibitorPanic) nowMs).dimInhibitors ≠ 0 ∧
      (s.inhibit (s.dimInhibitors ||| inhibitorPanic) nowMs).state = .active := by
  have hpanic : s.dimInhibitors ||| inhibitorPanic ≠ 0 := by
    intro hzero
    have hbit := congrArg (BitVec.getLsbD · 4) hzero
    simp [inhibitorPanic] at hbit
  unfold Idling.inhibit
  rw [if_pos hpanic]
  exact ⟨hpanic, rfl⟩

/-- After a pass for a deadline, the manager has no deadline or a later one: it never makes the kernel spin. -/
theorem power_rests {w : World} (h : Reached succeeds w) {pass : Pass} (hdeadline : pass.deadline = true)
    (hnow : pass.nowMs < BitVec.allOnes 64) :
    pass.nowMs < powerManagerNextDeadline (kernelRuntimeUpdate (displayOnly succeeds) w pass).manager := by
  have hquiet := Reached.quiet succeeds h
  have hpass := idling_pass succeeds hquiet.calm pass
  have hcalm := (hquiet.clockPass pass).calm
  rw [← hpass] at hcalm
  rw [idling_deadline hcalm, hpass, ← BitVec.not_le]
  unfold clockPass
  dsimp only
  split
  · exact Idling.not_deadline_inhibited hnow (inhibit_panic _ _).1
  · unfold Idling.look
    rw [hdeadline]
    exact Idling.not_deadline_tick hnow _

/-- A wake for a deadline, where nobody uses the system. -/
def unusedPass : Pass := ⟨true, false, 100000, false, false, false, false, false, false, false, false⟩

theorem power_rests_unused : ∃ w, Reached (fun _ => true) w ∧
    100000 < powerManagerNextDeadline (kernelRuntimeUpdate (displayOnly fun _ => true) w unusedPass).manager := by
  obtain ⟨w, hstart, -⟩ := kernelRuntimeStart_spec (fun _ => true) none 0
  have hreached : Reached (fun _ => true) w := ⟨none, 0, w, [], hstart, rfl⟩
  have hdeadline : unusedPass.deadline = true := rfl
  exact ⟨w, hreached, power_rests _ hreached hdeadline (by decide)⟩

/-- The manager is idle after a pass exactly when the system has not panicked, nothing inhibits the idleness or did so at the last pass, there
is no activity, and the manager was idle already or the pass is for a deadline and the delay since the last activity is over. -/
theorem dimmed_iff {w : World} (h : Reached succeeds w) (pass : Pass) (hnow : pass.nowMs < BitVec.allOnes 64) :
    (kernelRuntimeUpdate (displayOnly succeeds) w pass).manager.status.state = .idle ↔
      pass.panickedLast = false ∧ pass.inhibitors w.manager.status.panelOffRequested = 0 ∧
        pass.activity w.manager.status.panelOffRequested = false ∧ w.manager.status.dimInhibitors = 0 ∧
        (w.manager.status.state = .idle ∨
          pass.deadline = true ∧ add w.manager.status.lastActivityMs w.manager.status.policy.idleMs ≤ pass.nowMs) := by
  have hquiet := Reached.quiet succeeds h
  have hstate := congrArg Idling.state (idling_pass succeeds hquiet.calm pass)
  have hlook := Idling.idle_look hnow hquiet.calm hquiet.noticed (pass.inhibitors w.manager.status.panelOffRequested)
    (pass.activity w.manager.status.panelOffRequested) pass.deadline
  have hiff : (kernelRuntimeUpdate (displayOnly succeeds) w pass).manager.status.state = .idle ↔
      (clockPass w.manager.idling pass).state = .idle := by rw [← hstate]; rfl
  rw [hiff]
  unfold clockPass
  dsimp only
  cases hpanicked : pass.panickedLast with
  | false => exact hlook.trans (and_iff_right rfl).symm
  | true =>
    rw [if_pos rfl, (inhibit_panic _ _).2]
    exact iff_of_false (by decide) fun hidle => Bool.false_ne_true hidle.1.symm

theorem dimmed_iff_unused : ∃ w, Reached (fun _ => true) w ∧
    (kernelRuntimeUpdate (displayOnly fun _ => true) w unusedPass).manager.status.state = .idle := by
  obtain ⟨w, hstart, hclock⟩ := kernelRuntimeStart_spec (fun _ => true) none 0
  have hreached : Reached (fun _ => true) w := ⟨none, 0, w, [], hstart, rfl⟩
  have hinhibitors : w.manager.status.dimInhibitors = 0 := congrArg Idling.dimInhibitors hclock
  have hlast : w.manager.status.lastActivityMs = 0 := congrArg Idling.lastActivityMs hclock
  have hpolicy : w.manager.status.policy = startPolicy none := congrArg Idling.policy hclock
  refine ⟨w, hreached, (dimmed_iff _ hreached unusedPass (by decide)).2 ⟨rfl, ?_, rfl, hinhibitors, .inr ⟨rfl, ?_⟩⟩⟩
  · cases w.manager.status.panelOffRequested <;> rfl
  · rw [hlast, hpolicy]
    decide

end Runtime
end TabOS
