import TabOS.Power.Manager

/-!
# The driver of the power manager

`kernel/power.c` from the requests on: `drive`, which takes the participants down and up, and `power_manager_update`. The requests
and completions are calls that other threads make under the mutex of the manager. They are made, as the environment has it, before
each part of the code that holds the mutex and during each callback; what the manager does without the mutex does not depend on them.
-/

namespace TabOS
namespace Power

variable (env : Environment)

/-! ## Requests and completions -/

/-- `power_manager_request_suspend`. -/
def powerManagerRequestSuspend (w : World) : World := w.modify fun m => { m with suspendRequested := true }

/-- `power_manager_request_activity`. -/
def powerManagerRequestActivity (nowMs : BitVec 64) (w : World) : World :=
  w.modify fun m => { m with activityRequested := true, activityMs := nowMs }

/-- `power_manager_complete`. -/
def powerManagerComplete (token : CompletionToken) (result : CallbackResult) (w : World) : World :=
  if result = .pending then w
  else
    let w := w.record (.completed token result)
    if w.manager.completionReady = false ∧ token = w.manager.expected then
      w.modify fun m => { m with completionResult := result, completionReady := true }
    else w

/-- Make a call. -/
def Call.make : Call → World → World
  | .requestSuspend, w => powerManagerRequestSuspend w
  | .requestActivity nowMs, w => powerManagerRequestActivity nowMs w
  | .complete token result, w => powerManagerComplete token result w

/-- The calls that are made before the mutex is taken, or during a callback. -/
def meanwhile (w : World) : World := (env.calls w.asked).foldl (fun w call => call.make w) w.ask

/-! ## The driver -/

/-- `trace`. -/
def trace (name : Name) (operation : Operation) (m : Manager) : Manager :=
  if m.trace.length < traceCapacity then { m with trace := m.trace ++ [(name, operation)] } else m

/-- `begin_resume`. -/
def beginResume (nowMs : BitVec 64) (reason : Reason) (m : Manager) : Manager :=
  { m with
    status := { m.status with state := .resuming, reason := reason, stateChangedMs := nowMs, resumeStartedMs := nowMs }
    phase := .resume
    cursor := 0 }

/-- `rollback`. -/
def rollback (nowMs : BitVec 64) (code : FailureCode) (name : Name) (w : World) : World :=
  let w := w.modify (failure code name)
  let w := if w.manager.platformPrepared then w.record .abortSleep else w
  w.modify (beginResume nowMs .rollback)

/-- `completion`, with the mutex held. -/
def completion (m : Manager) : Option CallbackResult × Manager :=
  if m.completionReady then (some m.completionResult, { m with completionReady := false }) else (none, m)

/-- `expect_completion`. -/
def expectCompletion (token : CompletionToken) (w : World) : World :=
  (meanwhile env w).modify fun m => { m with expected := token, completionReady := false }

/-- `finish`. -/
def finish (nowMs : BitVec 64) (w : World) : World :=
  restoreDisplay env (w.modify fun m => { m with
    status := { m.status with
      state := .active
      stateChangedMs := nowMs
      resumeDurationMs := nowMs - m.status.resumeStartedMs }
    phase := .none
    cursor := 0
    suspended := []
    platformPrepared := false })

/-- The name of a participant. -/
def Manager.nameOf (m : Manager) (index : Nat) : Name := (m.participants[index]?.map Participant.name).getD []

/-- The call of a callback of a participant in `drive`. -/
def beginCallback (index : Nat) (operation : Operation) (token : CompletionToken) (w : World) : World :=
  let w := expectCompletion env token w
  (w.modify (trace (w.manager.nameOf index) operation)).record (.called token)

/-- A callback of a participant in `drive`, up to its return. -/
def callback (index : Nat) (operation : Operation) (w : World) : CallbackResult × World :=
  let w := meanwhile env (beginCallback env index operation ⟨w.manager.status.generation, index, operation⟩ w)
  let result := env.callback w.asked
  (result, w.record (.returned result))

/-- What `drive` does with the result of a suspend that was pending. -/
def suspendCompleted (nowMs : BitVec 64) (result : CallbackResult) (w : World) : World :=
  if result = .failure then rollback nowMs .callback (w.manager.nameOf w.manager.expected.participant) w
  else
    w.modify fun m => { m with
      suspended := m.suspended ++ [m.expected.participant]
      phase := .suspend
      cursor := m.cursor + 1 }

/-- What `drive` does with the result of a resume that was pending. -/
def resumeCompleted (result : CallbackResult) (w : World) : World :=
  let w := if result = .failure then w.modify (failure .callback (w.manager.nameOf w.manager.expected.participant)) else w
  w.modify fun m => { m with phase := .resume, cursor := m.cursor + 1 }

/-- A round of the loop of `drive` in the phases `WAIT_SUSPEND` and `WAIT_RESUME`. The value is whether the loop goes on. -/
def waitRound (nowMs : BitVec 64) (w : World) : Bool × World :=
  let w := meanwhile env w
  match completion w.manager with
  | (none, _) => (false, w)
  | (some result, m) =>
    let w := { w with manager := m }
    (true, if w.manager.phase = .waitSuspend then suspendCompleted nowMs result w else resumeCompleted result w)

/-- The end of the phase `SUSPEND` in `drive`: the platform is prepared and sleeps. -/
def sleepRound (nowMs : BitVec 64) (w : World) : Bool × World :=
  let prepared := env.succeeds w.asked
  let w := w.record (.prepareSleep prepared)
  if prepared = false then (true, rollback nowMs .platformPrepare [] w)
  else
    let w := w.modify fun m => { m with
      status := { m.status with
        state := .suspended
        stateChangedMs := nowMs
        suspendDurationMs := nowMs - m.status.suspendStartedMs }
      phase := .sleep
      platformPrepared := true }
    let slept := env.succeeds w.asked
    let w := w.record (.enterLightSleep slept)
    if slept = false then (true, rollback nowMs .platformSleep [] w) else (false, w)

/-- A round of the loop of `drive` in the phase `SUSPEND`. -/
def suspendRound (nowMs : BitVec 64) (w : World) : Bool × World :=
  if w.manager.cursor = w.manager.participants.length then sleepRound env nowMs w
  else
    let index := w.manager.dependencyOrder.getD (w.manager.participants.length - 1 - w.manager.cursor) 0
    match callback env index .suspend w with
    | (.pending, w) => (false, w.modify fun m => { m with phase := .waitSuspend })
    | (.failure, w) => (true, rollback nowMs .callback (w.manager.nameOf index) w)
    | (.success, w) => (true, w.modify fun m => { m with suspended := m.suspended ++ [index], cursor := m.cursor + 1 })

/-- A round of the loop of `drive` in the phase `RESUME`. -/
def resumeRound (nowMs : BitVec 64) (w : World) : Bool × World :=
  if w.manager.cursor = w.manager.suspended.length then (false, finish env nowMs w)
  else
    let index := w.manager.suspended.getD (w.manager.suspended.length - 1 - w.manager.cursor) 0
    match callback env index .resume w with
    | (.pending, w) => (false, w.modify fun m => { m with phase := .waitResume })
    | (.failure, w) =>
      (true, (w.modify (failure .callback (w.manager.nameOf index))).modify fun m => { m with cursor := m.cursor + 1 })
    | (.success, w) => (true, w.modify fun m => { m with cursor := m.cursor + 1 })

/-- A round of the loop of `drive`. -/
def driveRound (nowMs : BitVec 64) (w : World) : Bool × World :=
  match w.manager.phase with
  | .waitSuspend => waitRound env nowMs w
  | .waitResume => waitRound env nowMs w
  | .suspend => suspendRound env nowMs w
  | .resume => resumeRound env nowMs w
  | .none => (false, w)
  | .sleep => (false, w)

/-- The loop of `drive`, for at most a number of rounds. -/
def driveLoop (nowMs : BitVec 64) : Nat → World → World
  | 0, w => w.record .bound
  | rounds + 1, w =>
    match driveRound env nowMs w with
    | (true, w) => driveLoop nowMs rounds w
    | (false, w) => w

/-- `drive`. -/
def drive (nowMs : BitVec 64) (w : World) : World := driveLoop env nowMs (participantCapacity * 2 + 8) w

/-! ## The update -/

/-- A round of the loop of `start`: a participant that cannot suspend is a blocker. -/
def blockerRound (w : World) (index : Nat) : World :=
  match w.manager.participants[index]? with
  | none => w
  | some p =>
    if p.suspend = false ∨ p.resume = false then w.modifyStatus fun s => { s with blockers := s.blockers ++ [p.name] }
    else if p.blocked then
      let (blocked, reason) := env.blocked w.asked
      let w := w.ask
      if blocked then
        w.modifyStatus fun s => { s with blockers := s.blockers ++ [if reason ≠ [] then reason else p.name] }
      else w
    else w

/-- What `start` stores when no participant blocks. -/
def beginSuspend (nowMs : BitVec 64) (m : Manager) : Manager :=
  { m with
    status := { m.status with
      generation := m.status.generation + 1
      state := .suspending
      reason := .request
      stateChangedMs := nowMs
      suspendStartedMs := nowMs
      failure := ⟨.none, 0, []⟩ }
    phase := .suspend
    cursor := 0
    suspended := [] }

/-- `start`. -/
def start (nowMs : BitVec 64) (w : World) : World :=
  let w := w.modifyStatus fun s => { s with blockers := [] }
  if w.manager.status.suspendAvailable = false then w.modify (failure .registration [])
  else if w.manager.status.dimInhibitors ≠ 0 then
    let name := inhibitorName w.manager.status.dimInhibitors
    (w.modifyStatus fun s => { s with blockers := [name] }).modify (failure .blocked name)
  else
    let w := w.manager.dependencyOrder.reverse.foldl (blockerRound env) w
    match w.manager.status.blockers with
    | blocker :: _ => w.modify (failure .blocked blocker)
    | [] => drive env nowMs (w.modify (beginSuspend nowMs))

/-- What `power_manager_update` does for an activity. -/
def noticeActivity (activity : Bool) (activityMs nowMs : BitVec 64) (w : World) : World :=
  if activity then
    let w := leaveIdle nowMs (w.modifyStatus fun s => { s with lastActivityMs := activityMs })
    if w.manager.status.state = .active then restoreDisplay env w else w
  else w

/-- What `power_manager_update` does for a deadline. The value is whether it requests a suspend. -/
def noticeDeadline (deadline : Bool) (nowMs : BitVec 64) (w : World) : Bool × World :=
  if deadline = true ∧ powerManagerNextDeadline w.manager ≤ nowMs then
    let w :=
      if w.manager.status.state = .active then
        applyIdleDisplay env nowMs
          (w.modifyStatus fun s => { s with state := .idle, reason := .inactivity, stateChangedMs := nowMs })
      else if w.manager.status.state = .idle then applyIdleDisplay env nowMs w
      else w
    (decide (w.manager.status.state = .idle) && w.manager.status.policy.automaticSuspend &&
      decide (add w.manager.status.lastActivityMs w.manager.status.policy.suspendMs ≤ nowMs), w)
  else (false, w)

/-- What `power_manager_update` does for a wake of the platform. -/
def noticeWake (power : Bool) (nowMs : BitVec 64) (w : World) : World :=
  if w.manager.status.state = .suspended ∧ power = true then
    let causes := env.wakeCauses w.asked
    let w := w.record (.collectWakeCauses causes)
    if causes ≠ 0 then
      let w := w.modifyStatus fun s => { s with wakeCauses := causes }
      let restored := env.succeeds w.asked
      let w := w.record (.restore restored)
      let w := if restored = false then w.modify (failure .platformRestore []) else w
      w.modify (beginResume nowMs .wake)
    else w
  else w

/-- What `power_manager_update` does for a request to suspend. -/
def serveRequest (request : Bool) (nowMs : BitVec 64) (w : World) : World :=
  if request = true then
    if w.manager.status.state = .active ∨ w.manager.status.state = .idle then start env nowMs w
    else w.modify (failure .invalidState [])
  else w

/-- `power_manager_update`, for the events `PLATFORM_RUNTIME_EVENT_DEADLINE` and `PLATFORM_RUNTIME_EVENT_POWER`. -/
def powerManagerUpdate (deadline power : Bool) (nowMs : BitVec 64) (w : World) : World :=
  if w.manager.finalized = false ∨ w.manager.status.state = .shuttingDown then w
  else
    let w := meanwhile env w
    let request := w.manager.suspendRequested
    let activity := w.manager.activityRequested
    let activityMs := w.manager.activityMs
    let w := w.modify fun m => { m with suspendRequested := false, activityRequested := false }
    let w := noticeActivity env activity activityMs nowMs w
    let (suspend, w) := noticeDeadline env deadline nowMs w
    let w := noticeWake env power nowMs w
    let w := serveRequest env (request || suspend) nowMs w
    drive env nowMs w

/-- `power_manager_begin_shutdown`. -/
def powerManagerBeginShutdown (nowMs : BitVec 64) (w : World) : World :=
  if w.manager.finalized then
    w.modify fun m => { m with
      status := { m.status with state := .shuttingDown, reason := .systemAction, stateChangedMs := nowMs }
      phase := .none }
  else w

/-! ## Runs -/

/-- An operation of the power manager, other than the end of it. -/
inductive Op where
  | register (registration : Participant)
  | finalize
  | call (call : Call)
  | setPolicy (policy : Policy) (nowMs : BitVec 64)
  | setDimInhibitors (inhibitors : BitVec 32) (nowMs : BitVec 64)
  | update (deadline power : Bool) (nowMs : BitVec 64)
  deriving DecidableEq, Repr

/-- The manager after an operation. -/
def step (w : World) : Op → World
  | .register registration => w.modify (powerManagerRegister registration)
  | .finalize =>
    if w.manager.finalized then w
    else match powerManagerFinalize w.manager with
      | none => w
      | some m => { w with manager := m }
  | .call call => call.make w
  | .setPolicy policy nowMs => powerManagerSetPolicy env policy nowMs w
  | .setDimInhibitors inhibitors nowMs => powerManagerSetDimInhibitors env inhibitors nowMs w
  | .update deadline power nowMs => powerManagerUpdate env deadline power nowMs w

/-- The manager after the operations of a run, where `power_manager_init` made one. -/
def run (policy : Policy) (nowMs : BitVec 64) (ops : List Op) : Option World :=
  (powerManagerInit env policy nowMs).map fun w => ops.foldl (step env) w

/-- Any operation of the power manager. -/
inductive LifeOp where
  | op (op : Op)
  | beginShutdown (nowMs : BitVec 64)
  deriving DecidableEq, Repr

/-- The manager after any operation. -/
def lifeStep (w : World) : LifeOp → World
  | .op op => step env w op
  | .beginShutdown nowMs => powerManagerBeginShutdown nowMs w

/-- The manager after any operations, where `power_manager_init` made one. -/
def life (policy : Policy) (nowMs : BitVec 64) (ops : List LifeOp) : Option World :=
  (powerManagerInit env policy nowMs).map fun w => ops.foldl (lifeStep env) w

end Power
end TabOS
