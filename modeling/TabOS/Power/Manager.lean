import Mathlib.Data.List.Basic

/-!
# The power manager

`kernel/power.c` up to the driver: the records of `power.h`, the display, the registration of participants and their dependency
order, the policy and the deadlines. The manager is one that `power_manager_init` has made, so its mutex is there.

What the code asks of the outside, the platform calls and the callbacks of the participants, is answered by an environment: the n-th
question has the n-th answer, so that the environments give all the answers that there are. `suspended` and `dependency_order` hold
what is in use of the arrays of the source, and a generation, a `uint64_t`, does not wrap.
-/

namespace TabOS
namespace Power

/-- A name, the bytes of a string. -/
abbrev Name := List (BitVec 8)

/-- `POWER_PARTICIPANT_CAPACITY`. -/
def participantCapacity : Nat := 16

/-- `POWER_NAME_CAPACITY`. -/
def nameCapacity : Nat := 32

/-- `POWER_DEPENDENCY_CAPACITY`. -/
def dependencyCapacity : Nat := 8

/-- `POWER_TRACE_CAPACITY`. -/
def traceCapacity : Nat := 64

/-- `power_state_t`. -/
inductive State where
  | active | idle | suspending | suspended | resuming | shuttingDown
  deriving DecidableEq, Repr

/-- `power_reason_t`. -/
inductive Reason where
  | startup | inactivity | request | activity | wake | rollback | systemAction
  deriving DecidableEq, Repr

/-- `power_failure_code_t`. -/
inductive FailureCode where
  | none | argument | capacity | duplicate | missingDependency | dependencyCycle | invalidState | registration | blocked | callback
  | platformPrepare | platformSleep | platformRestore | brightness | panel
  deriving DecidableEq, Repr

/-- `power_callback_result_t`. -/
inductive CallbackResult where
  | success | pending | failure
  deriving DecidableEq, Repr

/-- `power_operation_t`. -/
inductive Operation where
  | suspend | resume
  deriving DecidableEq, Repr

/-- `power_phase_t`. -/
inductive Phase where
  | none | suspend | waitSuspend | sleep | resume | waitResume
  deriving DecidableEq, Repr

/-- `power_completion_token_t`. -/
structure CompletionToken where
  generation : Nat
  participant : Nat
  operation : Operation
  deriving DecidableEq, Repr

/-- `power_policy_t`. -/
structure Policy where
  idleMs : BitVec 64
  screenOffMs : BitVec 64
  panelOffMs : BitVec 64
  suspendMs : BitVec 64
  activeBrightness : BitVec 8
  idleBrightness : BitVec 8
  automaticSuspend : Bool
  deriving DecidableEq, Repr

/-- `power_failure_t`. -/
structure Failure where
  code : FailureCode
  generation : Nat
  participant : Name
  deriving DecidableEq, Repr

/-- `power_status_t`; `blockers` holds `blocker_count` names. -/
structure Status where
  state : State
  reason : Reason
  policy : Policy
  generation : Nat
  lastActivityMs : BitVec 64
  stateChangedMs : BitVec 64
  suspendStartedMs : BitVec 64
  suspendDurationMs : BitVec 64
  resumeStartedMs : BitVec 64
  resumeDurationMs : BitVec 64
  wakeCauses : BitVec 32
  failure : Failure
  blockers : List Name
  dimInhibitors : BitVec 32
  desiredBrightness : BitVec 8
  effectiveBrightness : BitVec 8
  brightnessValid : Bool
  screenOffRequested : Bool
  panelOffRequested : Bool
  panelEnabled : Bool
  panelValid : Bool
  suspendAvailable : Bool
  deriving DecidableEq, Repr

/-- `power_participant_t`, and `power_participant_registration_t`; of the callbacks, whether they are given. -/
structure Participant where
  name : Name
  dependencies : List Name
  blocked : Bool
  suspend : Bool
  resume : Bool
  deriving DecidableEq, Repr

/-- `power_manager_t`. -/
structure Manager where
  status : Status
  participants : List Participant
  dependencyOrder : List Nat
  cursor : Nat
  suspended : List Nat
  phase : Phase
  expected : CompletionToken
  finalized : Bool
  suspendRequested : Bool
  activityRequested : Bool
  activityMs : BitVec 64
  completionReady : Bool
  completionResult : CallbackResult
  platformPrepared : Bool
  trace : List (Name × Operation)
  deriving DecidableEq, Repr

/-! ## The outside -/

/-- A call that another thread, or a callback, may make at any time. -/
inductive Call where
  | requestSuspend
  | requestActivity (nowMs : BitVec 64)
  | complete (token : CompletionToken) (result : CallbackResult)
  deriving DecidableEq, Repr

/-- What happens between the manager and the outside: a callback is called with a token and returns, a completion is reported, the
platform is asked for something. `bound` is the end of the loop of `drive` by its bound. -/
inductive Event where
  | called (token : CompletionToken)
  | returned (result : CallbackResult)
  | completed (token : CompletionToken) (result : CallbackResult)
  | prepareSleep (done : Bool)
  | enterLightSleep (done : Bool)
  | abortSleep
  | restore (done : Bool)
  | collectWakeCauses (causes : BitVec 32)
  | setBrightness (brightness : BitVec 8) (done : Bool)
  | setPanelEnabled (enabled : Bool) (done : Bool)
  | bound
  deriving DecidableEq, Repr

/-- The answers of the outside: of the platform's calls, of the callbacks of the participants, and the calls that are made meanwhile. -/
structure Environment where
  succeeds : Nat → Bool
  callback : Nat → CallbackResult
  blocked : Nat → Bool × Name
  wakeCauses : Nat → BitVec 32
  calls : Nat → List Call

/-- The manager, the events so far, the latest first, and the number of questions asked. -/
structure World where
  manager : Manager
  log : List Event
  asked : Nat

namespace World

/-- Change the manager. -/
def modify (f : Manager → Manager) (w : World) : World := { w with manager := f w.manager }

/-- Change the status. -/
def modifyStatus (f : Status → Status) (w : World) : World := w.modify fun m => { m with status := f m.status }

/-- Record an event. -/
def record (event : Event) (w : World) : World := { w with log := event :: w.log, asked := w.asked + 1 }

/-- Ask a question that is not an event. -/
def ask (w : World) : World := { w with asked := w.asked + 1 }

end World

/-! ## Auxiliary functions -/

/-- `add`, which saturates. -/
def add (a b : BitVec 64) : BitVec 64 := if BitVec.allOnes 64 - a < b then BitVec.allOnes 64 else a + b

/-- `name_ok`. -/
def nameOk (name : Name) : Bool := decide (name ≠ []) && decide (name.length < nameCapacity)

/-- `find`; none stands for `POWER_PARTICIPANT_CAPACITY`. -/
def find (m : Manager) (name : Name) : Option Nat := m.participants.findIdx? fun p => decide (p.name = name)

/-- `failure`. -/
def failure (code : FailureCode) (name : Name) (m : Manager) : Manager :=
  { m with status := { m.status with failure := ⟨code, m.status.generation, name⟩ } }

/-- `policy_ok`. -/
def policyOk (policy : Policy) : Bool :=
  decide (policy.activeBrightness ≤ 100) && decide (policy.idleBrightness ≤ 100) &&
    (decide (policy.screenOffMs = 0) || decide (policy.idleMs ≤ policy.screenOffMs)) &&
    (decide (policy.panelOffMs = 0) || (decide (policy.screenOffMs ≠ 0) && decide (policy.screenOffMs ≤ policy.panelOffMs)))

/-- `idle_brightness`. -/
def idleBrightness (policy : Policy) : BitVec 8 :=
  if policy.idleBrightness < policy.activeBrightness then policy.idleBrightness else policy.activeBrightness

/-- `inhibitor_name`: "keyboard", "pointer", "fullscreen", "panic" or "media". -/
def inhibitorName (inhibitors : BitVec 32) : Name :=
  if inhibitors &&& 1 ≠ 0 then [0x6b, 0x65, 0x79, 0x62, 0x6f, 0x61, 0x72, 0x64]
  else if inhibitors &&& 2 ≠ 0 then [0x70, 0x6f, 0x69, 0x6e, 0x74, 0x65, 0x72]
  else if inhibitors &&& 4 ≠ 0 then [0x66, 0x75, 0x6c, 0x6c, 0x73, 0x63, 0x72, 0x65, 0x65, 0x6e]
  else if inhibitors &&& 16 ≠ 0 then [0x70, 0x61, 0x6e, 0x69, 0x63]
  else [0x6d, 0x65, 0x64, 0x69, 0x61]

/-! ## The display -/

variable (env : Environment)

/-- `set_brightness`. -/
def setBrightness (brightness : BitVec 8) (w : World) : Bool × World :=
  let w := w.modifyStatus fun s => { s with desiredBrightness := brightness }
  if w.manager.status.brightnessValid = true ∧ w.manager.status.effectiveBrightness = brightness then (true, w)
  else
    let done := env.succeeds w.asked
    let w := w.record (.setBrightness brightness done)
    if done = false then
      (false, (w.modifyStatus fun s => { s with brightnessValid := false }).modify (failure .brightness []))
    else (true, w.modifyStatus fun s => { s with effectiveBrightness := brightness, brightnessValid := true })

/-- `set_panel`. -/
def setPanel (enabled : Bool) (w : World) : Bool × World :=
  if w.manager.status.panelValid = true ∧ w.manager.status.panelEnabled = enabled then (true, w)
  else
    let done := env.succeeds w.asked
    let w := w.record (.setPanelEnabled enabled done)
    if done = false then (false, (w.modifyStatus fun s => { s with panelValid := false }).modify (failure .panel []))
    else (true, w.modifyStatus fun s => { s with panelEnabled := enabled, panelValid := true })

/-- `set_display`. -/
def setDisplay (brightness : BitVec 8) (panelEnabled : Bool) (w : World) : World :=
  let w := w.modifyStatus fun s => { s with desiredBrightness := brightness }
  if panelEnabled = false then
    match setBrightness env 0 w with
    | (true, w) => (setPanel env false w).2
    | (false, w) => w
  else
    match setPanel env true w with
    | (true, w) => (setBrightness env brightness w).2
    | (false, w) => w

/-- `restore_display`. -/
def restoreDisplay (w : World) : World :=
  let w := w.modifyStatus fun s => { s with screenOffRequested := false, panelOffRequested := false }
  setDisplay env w.manager.status.policy.activeBrightness true w

/-- `apply_idle_display`. -/
def applyIdleDisplay (nowMs : BitVec 64) (w : World) : World :=
  let policy := w.manager.status.policy
  let w := w.modifyStatus fun s => { s with
    screenOffRequested := decide (policy.screenOffMs ≠ 0) && decide (add s.lastActivityMs policy.screenOffMs ≤ nowMs)
    panelOffRequested := decide (policy.panelOffMs ≠ 0) && decide (add s.lastActivityMs policy.panelOffMs ≤ nowMs) }
  setDisplay env (if w.manager.status.screenOffRequested then 0 else idleBrightness policy)
    (!w.manager.status.panelOffRequested) w

/-! ## Registration -/

/-- The zeroed status. -/
def Status.zero : Status where
  state := .active
  reason := .startup
  policy := ⟨0, 0, 0, 0, 0, 0, false⟩
  generation := 0
  lastActivityMs := 0
  stateChangedMs := 0
  suspendStartedMs := 0
  suspendDurationMs := 0
  resumeStartedMs := 0
  resumeDurationMs := 0
  wakeCauses := 0
  failure := ⟨.none, 0, []⟩
  blockers := []
  dimInhibitors := 0
  desiredBrightness := 0
  effectiveBrightness := 0
  brightnessValid := false
  screenOffRequested := false
  panelOffRequested := false
  panelEnabled := false
  panelValid := false
  suspendAvailable := false

/-- What `power_manager_init` stores before it restores the display. -/
def Manager.initial (policy : Policy) (nowMs : BitVec 64) : Manager where
  status := { Status.zero with
    state := .active
    reason := .startup
    policy := policy
    lastActivityMs := nowMs
    stateChangedMs := nowMs
    suspendAvailable := true }
  participants := []
  dependencyOrder := []
  cursor := 0
  suspended := []
  phase := .none
  expected := ⟨0, 0, .suspend⟩
  finalized := false
  suspendRequested := false
  activityRequested := false
  activityMs := 0
  completionReady := false
  completionResult := .success
  platformPrepared := false
  trace := []

/-- `power_manager_init`, for a policy that `policy_ok` accepts; for others there is no manager. -/
def powerManagerInit (policy : Policy) (nowMs : BitVec 64) : Option World :=
  if policyOk policy = false then none else some (restoreDisplay env ⟨.initial policy nowMs, [], 0⟩)

/-- What a refused registration does. -/
def refuseRegistration (code : FailureCode) (name : Name) (m : Manager) : Manager :=
  failure code name { m with status := { m.status with suspendAvailable := false } }

/-- `power_manager_register`. -/
def powerManagerRegister (registration : Participant) (m : Manager) : Manager :=
  if m.finalized = true ∨ nameOk registration.name = false ∨ dependencyCapacity < registration.dependencies.length then
    refuseRegistration .argument [] m
  else if m.participants.length = participantCapacity then refuseRegistration .capacity registration.name m
  else if (find m registration.name).isSome then refuseRegistration .duplicate registration.name m
  else if registration.dependencies.any (fun name => !nameOk name) then refuseRegistration .argument registration.name m
  else { m with participants := m.participants ++ [registration] }

/-! ## The dependency order -/

/-- The values of `marks`: 0, 1 and 2. -/
inductive Mark where
  | unvisited | active | done
  deriving DecidableEq, Repr

/-- The manager and the marks. `count` is the length of the dependency order. -/
structure Visit where
  manager : Manager
  marks : Nat → Mark

/-- Set a mark. -/
def Visit.mark (index : Nat) (mark : Mark) (v : Visit) : Visit := { v with marks := Function.update v.marks index mark }

/-- The loop over the dependencies in `visit`. -/
def visitDependencies (visit : Nat → Visit → Option (Bool × Visit)) : List Name → Visit → Option (Bool × Visit)
  | [], v => some (true, v)
  | name :: names, v =>
    match find v.manager name with
    | none => some (false, { v with manager := failure .missingDependency name v.manager })
    | some dependency =>
      match visit dependency v with
      | none => none
      | some (false, v) => some (false, v)
      | some (true, v) => visitDependencies visit names v

/-- `visit`, for a bound on its depth. -/
def visit : Nat → Nat → Visit → Option (Bool × Visit)
  | 0, _, _ => none
  | fuel + 1, index, v =>
    match v.marks index with
    | .done => some (true, v)
    | .active =>
      some (false, { v with
        manager := failure .dependencyCycle ((v.manager.participants[index]?.map Participant.name).getD []) v.manager })
    | .unvisited =>
      match visitDependencies (visit fuel) ((v.manager.participants[index]?.map Participant.dependencies).getD [])
          (v.mark index .active) with
      | none => none
      | some (false, v) => some (false, v)
      | some (true, v) =>
        let v := v.mark index .done
        some (true, { v with manager := { v.manager with dependencyOrder := v.manager.dependencyOrder ++ [index] } })

/-- A round of the loop of `power_manager_finalize`. -/
def finalizeRound (v : Visit) (index : Nat) : Option Visit :=
  match visit (v.manager.participants.length + 1) index v with
  | none => none
  | some (true, v) => some v
  | some (false, v) =>
    some { v with manager := { v.manager with status := { v.manager.status with suspendAvailable := false } } }

/-- `power_manager_finalize`, of a manager that is not finalized. -/
def powerManagerFinalize (m : Manager) : Option Manager :=
  match (List.range m.participants.length).foldlM finalizeRound ⟨m, fun _ => .unvisited⟩ with
  | none => none
  | some v => some { v.manager with finalized := true }

/-! ## Policy and deadlines -/

/-- `power_manager_set_policy`. -/
def powerManagerSetPolicy (policy : Policy) (nowMs : BitVec 64) (w : World) : World :=
  if w.manager.finalized = false ∨ policyOk policy = false ∨ w.manager.status.state = .shuttingDown then w
  else
    let w := w.modifyStatus fun s => { s with policy := policy }
    if w.manager.status.dimInhibitors ≠ 0 then restoreDisplay env w
    else if w.manager.status.state = .active ∨ w.manager.status.state = .idle then
      if add w.manager.status.lastActivityMs policy.idleMs ≤ nowMs then
        applyIdleDisplay env nowMs
          (w.modifyStatus fun s => { s with state := .idle, reason := .inactivity, stateChangedMs := nowMs })
      else restoreDisplay env (w.modifyStatus fun s => { s with state := .active, stateChangedMs := nowMs })
    else w

/-- Leave `POWER_STATE_IDLE` for an activity. -/
def leaveIdle (nowMs : BitVec 64) (w : World) : World :=
  if w.manager.status.state = .idle then
    w.modifyStatus fun s => { s with state := .active, reason := .activity, stateChangedMs := nowMs }
  else w

/-- `power_manager_set_dim_inhibitors`. -/
def powerManagerSetDimInhibitors (inhibitors : BitVec 32) (nowMs : BitVec 64) (w : World) : World :=
  if w.manager.finalized = false ∨ w.manager.status.state = .shuttingDown then w
  else
    let previous := w.manager.status.dimInhibitors
    let w := w.modifyStatus fun s => { s with dimInhibitors := inhibitors }
    if inhibitors ≠ 0 then restoreDisplay env (leaveIdle nowMs w)
    else if previous ≠ 0 then leaveIdle nowMs (w.modifyStatus fun s => { s with lastActivityMs := nowMs })
    else w

/-- The smaller deadline. -/
def earlier (deadline other : BitVec 64) : BitVec 64 := if other < deadline then other else deadline

/-- The deadline of an idle manager in `power_manager_next_deadline`. -/
def idleDeadline (s : Status) : BitVec 64 :=
  let deadline :=
    if s.screenOffRequested = false ∧ s.policy.screenOffMs ≠ 0 then add s.lastActivityMs s.policy.screenOffMs
    else BitVec.allOnes 64
  let deadline :=
    if s.panelOffRequested = false ∧ s.policy.panelOffMs ≠ 0 then earlier deadline (add s.lastActivityMs s.policy.panelOffMs)
    else deadline
  if s.policy.automaticSuspend then earlier deadline (add s.lastActivityMs s.policy.suspendMs) else deadline

/-- `power_manager_next_deadline`; all ones are `PLATFORM_RUNTIME_DEADLINE_NONE`. -/
def powerManagerNextDeadline (m : Manager) : BitVec 64 :=
  if m.finalized = false then BitVec.allOnes 64
  else if m.status.dimInhibitors ≠ 0 then BitVec.allOnes 64
  else match m.status.state with
    | .active => add m.status.lastActivityMs m.status.policy.idleMs
    | .idle => idleDeadline m.status
    | _ => BitVec.allOnes 64

end Power
end TabOS
