import TabOS.Library.Run
import Mathlib.Data.List.Basic

/-!
# Native tasks

`platform/esp32p4/application_task.c` as its tasks interleave on the two cores, an atomic operation, a signal or a call of the scheduler at
a time: the task of the application, which calls services through gates; the task that computes for it; and the kernel, which starts the
application, asks whether it has finished, stops it and deletes it. A task that the other core suspends runs on until that core takes notice.
The history variables, which no branch reads, are the jobs that were accepted and run, the outcomes and reports of them, and how many calls
went through a gate after the kernel had asked for a stop.
-/

namespace TabOS
namespace Executor
namespace Native

open Library

/-- A task as the scheduler has it: whether it is on the list of suspended tasks, and whether it is the current task of a core. -/
structure Task where
  suspended : Bool
  running : Bool
  deriving DecidableEq, Repr

/-- What an application gives to `platform_riscv32_compute_submit`. -/
structure Job where
  callback : Nat
  data : Nat
  deriving DecidableEq, Repr

/-- Where the application is in a service: in one that does not compute, in `platform_riscv32_compute_submit` before it checks the job, before
it stores it, before it publishes it or before it wakes the computing task, in `platform_riscv32_compute_poll`, or in the loop of
`platform_riscv32_compute_wait` and past it. -/
inductive Service where
  | other | submit (job : Job) | store (job : Job) | publish | wake | poll | polled | join | cancelled | await | take
  deriving DecidableEq, Repr

/-- Where the application is: in its own code, in `gate_enter` before it looks for a stop, before it suspends itself or before it counts
itself in, in a service, in `gate_leave` before it counts itself out, before it looks for a stop or before it suspends itself, or past its
entry function, before it says so, before it suspends itself, suspended, or returned from the function of the task. -/
inductive Pc where
  | code | enter | park | count | service (at_ : Service) | leave | left | parkLeft | finish | retire | retired | escaped
  deriving DecidableEq, Repr

/-- Where `compute_task_main` is: it waits, takes what was submitted, calls, is in the callback, says that the job is complete, or wakes the
application. -/
inductive WorkerPc where
  | wait | exchange | call | run | complete | notify
  deriving DecidableEq, Repr

/-- Where the kernel is: outside `platform_riscv32_stop`, in the loop of it, past it, or past `platform_riscv32_destroy`. -/
inductive KernelPc where
  | idle | flag | suspend | settle | depth | cancel | resume | suspendCompute | settleCompute | quiet | deleted
  deriving DecidableEq, Repr

/-- `platform_riscv32_context`, with where its tasks are, what the last call of a computing service returned, and its history. -/
structure Context where
  task : Task
  pc : Pc
  computeTask : Option Task
  workerPc : WorkerPc
  kernel : KernelPc
  destroying : Bool
  started : Bool
  finished : Bool
  stopRequested : Bool
  gateDepth : Nat
  returnedStatus : Int
  computeReady : Bool
  computeFinished : Bool
  computeJob : Job
  computeSubmitted : Bool
  computeComplete : Bool
  computePending : Bool
  computeResult : Int
  answer : Int
  status : Option Int
  accepted : List Job
  ran : List Job
  outcomes : List Int
  reported : List Int
  late : Nat
  deriving DecidableEq, Repr

/-- `platform_riscv32_create`. -/
def Context.created : Context where
  task := ⟨false, false⟩
  pc := .code
  computeTask := none
  workerPc := .wait
  kernel := .idle
  destroying := false
  started := false
  finished := false
  stopRequested := false
  gateDepth := 0
  returnedStatus := 0
  computeReady := false
  computeFinished := false
  computeJob := ⟨0, 0⟩
  computeSubmitted := false
  computeComplete := false
  computePending := false
  computeResult := 0
  answer := 0
  status := none
  accepted := []
  ran := []
  outcomes := []
  reported := []
  late := 0

def ecanceled : Int := 125
def ebusy : Int := 16
def einval : Int := 22
def enomem : Int := 12
def eperm : Int := 1

/-- `executable_memory` and `executable_bytes`. -/
structure Executable where
  base : Nat
  bytes : Nat

/-- The check of the callback and of the data in `platform_riscv32_compute_submit`. -/
def Executable.refuses (image : Executable) (job : Job) : Bool :=
  job.callback < image.base || job.callback - image.base ≥ image.bytes || image.bytes - (job.callback - image.base) < 4 ||
    job.callback % 4 != 0 || job.data == 0

/-- What the application does next where it may choose: it goes on, returns from its entry function, enters a service that computes, or is
refused the memory for the computing task. -/
inductive Choice where
  | go | returns (status : Int) | submit (job : Job) | poll | wait | noMemory
  deriving DecidableEq, Repr

/-- A service has returned. -/
def Context.answers (c : Context) (answer : Int) : Context := { c with answer := answer, pc := .leave }

/-- A service goes on by a step. -/
def Context.serve (image : Executable) (c : Context) (choice : Choice) : Service → Context
  | .other => { c with pc := .leave }
  | .submit job =>
    if c.stopRequested then c.answers (-ecanceled)
    else if c.computePending then c.answers (-ebusy)
    else if image.refuses job then c.answers (-einval)
    else
      match c.computeTask, choice with
      | none, .noMemory => c.answers (-enomem)
      | none, _ => { c with computeTask := some ⟨false, false⟩, pc := .service (.store job) }
      | some _, _ => { c with pc := .service (.store job) }
  | .store job =>
    { c with
      computeJob := job, computePending := true, computeComplete := false, accepted := c.accepted ++ [job], pc := .service .publish }
  | .publish => { c with computeSubmitted := true, pc := .service .wake }
  | .wake => { c.answers 0 with computeReady := true }
  | .poll => if c.stopRequested then c.answers (-ecanceled) else { c with pc := .service .polled }
  | .polled => c.answers (if !c.computePending || c.computeComplete then 1 else 0)
  | .join => { c with pc := .service (if c.computePending && !c.computeComplete then .cancelled else .take) }
  | .cancelled => if c.stopRequested then c.answers (-ecanceled) else { c with pc := .service .await }
  | .await => { c with computeFinished := false, pc := .service .join }
  | .take =>
    if c.computePending then { c.answers c.computeResult with computePending := false, reported := c.reported ++ [c.computeResult] }
    else c.answers 0

/-- The service that a gate calls. -/
def Choice.service : Choice → Service
  | .submit job => .submit job
  | .poll => .poll
  | .wait => .join
  | _ => .other

/-- `elf_task_main`, the gates and the services go on by a step. -/
def Context.goTask (image : Executable) (c : Context) (choice : Choice) : Context :=
  match c.pc with
  | .code =>
    match choice with
    | .returns status => { c with returnedStatus := status, pc := .finish }
    | _ => { c with pc := .enter }
  | .enter => { c with pc := if c.stopRequested then .park else .count }
  | .park => { c with task := ⟨true, false⟩, pc := .enter }
  | .count =>
    { c with gateDepth := c.gateDepth + 1, late := if c.stopRequested then c.late + 1 else c.late, pc := .service choice.service }
  | .service at_ => c.serve image choice at_
  | .leave => { c with gateDepth := c.gateDepth - 1, pc := if c.gateDepth = 1 then .left else .code }
  | .left => { c with pc := if c.stopRequested then .parkLeft else .code }
  | .parkLeft => { c with task := ⟨true, false⟩, pc := .left }
  | .finish => { c with finished := true, pc := .retire }
  | .retire => { c with task := ⟨true, false⟩, pc := .retired }
  | .retired => { c with pc := .escaped }
  | .escaped => c

/-- `compute_task_main` goes on by a step; a callback returns, or is thrown out of the gate that it calls. -/
def Context.goWorker (c : Context) (escapes : Bool) : Context :=
  match c.workerPc with
  | .wait => if c.computeReady then { c with computeReady := false, workerPc := .exchange } else c
  | .exchange => { c with computeSubmitted := false, workerPc := if c.computeSubmitted then .call else .wait }
  | .call => { c with ran := c.ran ++ [c.computeJob], workerPc := .run }
  | .run =>
    let result := if escapes then -eperm else 0
    { c with computeResult := result, outcomes := c.outcomes ++ [result], workerPc := .complete }
  | .complete => { c with computeComplete := true, workerPc := .notify }
  | .notify => { c with computeFinished := true, workerPc := .wait }

/-- `platform_riscv32_stop` goes on by a step, and `platform_riscv32_destroy` after it. -/
def Context.goKernel (c : Context) : Context :=
  match c.kernel with
  | .idle => c
  | .flag => { c with stopRequested := true, kernel := .suspend }
  | .suspend => { c with task := { c.task with suspended := true }, kernel := .settle }
  | .settle => if c.task.running then c else { c with kernel := .depth }
  | .depth => { c with kernel := if c.gateDepth = 0 then .suspendCompute else .cancel }
  | .cancel => { c with kernel := .resume }
  | .resume => { c with task := { c.task with suspended := false }, kernel := .suspend }
  | .suspendCompute =>
    match c.computeTask with
    | none => { c with kernel := .quiet }
    | some worker => { c with computeTask := some { worker with suspended := true }, kernel := .settleCompute }
  | .settleCompute => if c.computeTask.any Task.running then c else { c with kernel := .quiet }
  | .quiet => if c.destroying then { c with kernel := .deleted } else c
  | .deleted => c

/-- What happens next: a core takes up a task or leaves it, a task goes on, or the kernel calls `platform_riscv32_step`,
`platform_riscv32_stop` or `platform_riscv32_destroy`, or goes on. -/
inductive Event where
  | dispatch | preempt | task (choice : Choice)
  | dispatchWorker | preemptWorker | worker (escapes : Bool)
  | step (created : Bool) | stop | destroy | kernel
  deriving DecidableEq, Repr

def Task.dispatch (t : Task) : Task := if t.suspended then t else { t with running := true }

def Task.preempt (t : Task) : Task := { t with running := false }

/-- `platform_riscv32_step`; no task is created without memory. -/
def Context.poll (c : Context) (created : Bool) : Context :=
  if !c.started then if created then { c with started := true } else c
  else if c.finished then { c with status := some c.returnedStatus }
  else c

/-- `platform_riscv32_stop` and `platform_riscv32_destroy` up to the first step that others can see. -/
def Context.halt (c : Context) (destroying : Bool) : Context :=
  if c.started then { c with kernel := .flag, destroying := destroying }
  else if destroying then { c with kernel := .deleted }
  else c

def Context.step (image : Executable) (c : Context) : Event → Context
  | .dispatch => if c.started then { c with task := c.task.dispatch } else c
  | .preempt => { c with task := c.task.preempt }
  | .task choice => if c.task.running then c.goTask image choice else c
  | .dispatchWorker => { c with computeTask := c.computeTask.map Task.dispatch }
  | .preemptWorker => { c with computeTask := c.computeTask.map Task.preempt }
  | .worker escapes => if c.computeTask.any Task.running then c.goWorker escapes else c
  | .step created => if c.kernel = .idle then c.poll created else c
  | .stop => if c.kernel = .idle ∨ c.kernel = .quiet then c.halt false else c
  | .destroy => if c.kernel = .idle ∨ c.kernel = .quiet then c.halt true else c
  | .kernel => c.goKernel

/-- The states that a run of events leads to. -/
def run (image : Executable) (events : List Event) : Context := events.foldl (Context.step image) .created

/-! ## What is known while the kernel stops the application -/

/-- The application is in a gate, and counted. -/
def Pc.inGate : Pc → Bool
  | .service _ | .leave => true
  | _ => false

/-- The application is past its entry function and has said so. -/
def Pc.done : Pc → Bool
  | .retire | .retired => true
  | _ => false

/-- The kernel has suspended the task of the application and has not resumed it. -/
def KernelPc.holds : KernelPc → Bool
  | .settle | .depth | .cancel | .resume | .suspendCompute | .settleCompute | .quiet => true
  | _ => false

/-- The kernel has seen that the task of the application does not run. -/
def KernelPc.settled : KernelPc → Bool
  | .depth | .cancel | .resume | .suspendCompute | .settleCompute | .quiet | .deleted => true
  | _ => false

/-- The kernel has seen that the application is in no gate. -/
def KernelPc.past : KernelPc → Bool
  | .suspendCompute | .settleCompute | .quiet | .deleted => true
  | _ => false

/-- The tasks and the kernel agree on who runs, who is suspended, and who is in a gate. -/
structure Stopping (c : Context) : Prop where
  unstarted : c.started = false → c.task = ⟨false, false⟩ ∧ c.pc = .code ∧ c.computeTask = none ∧ (c.kernel = .idle ∨ c.kernel = .deleted)
  depth : c.gateDepth = if c.pc.inGate then 1 else 0
  held : c.kernel.holds → c.task.suspended = true
  still : c.kernel.settled → c.task.running = false
  inside : c.kernel = .cancel ∨ c.kernel = .resume → c.pc.inGate = true
  outside : c.kernel.past → c.pc.inGate = false
  deleted : c.kernel = .deleted → c.started = true → c.task.suspended = true
  workerHeld : c.kernel = .settleCompute ∨ c.kernel = .quiet ∨ c.kernel = .deleted → ∀ t ∈ c.computeTask, t.suspended = true
  workerStill : c.kernel = .quiet ∨ c.kernel = .deleted → ∀ t ∈ c.computeTask, t.running = false
  asked : c.kernel.holds ∨ c.kernel = .suspend → c.stopRequested = true
  late : c.late + (if c.stopRequested ∧ c.pc = .count then 1 else 0) ≤ 1
  early : c.stopRequested = false → c.late = 0
  retired : c.pc = .retired → c.task = ⟨true, false⟩
  stays : c.pc ≠ .escaped
  told : c.finished = c.pc.done
  status : ∀ status, c.status = some status → c.pc.done = true ∧ c.returnedStatus = status

theorem stopping_created : Stopping .created := by
  constructor <;> simp [Context.created, Pc.inGate, Pc.done, KernelPc.holds, KernelPc.settled, KernelPc.past]

/-- What a service leaves as it is, and what it may create. -/
theorem serve_frame (image : Executable) (c : Context) (choice : Choice) (at_ : Service) :
    let d := c.serve image choice at_
    d.pc.inGate = true ∧ d.task = c.task ∧ d.kernel = c.kernel ∧ d.stopRequested = c.stopRequested ∧ d.started = c.started ∧
      d.gateDepth = c.gateDepth ∧ d.late = c.late ∧ d.finished = c.finished ∧ d.status = c.status ∧ d.workerPc = c.workerPc ∧
      (d.computeTask = c.computeTask ∨ d.computeTask = some ⟨false, false⟩) := by
  cases at_ <;> simp only [Context.serve, Context.answers]
  case submit job =>
    split
    · simp [Pc.inGate]
    split
    · simp [Pc.inGate]
    split
    · simp [Pc.inGate]
    cases c.computeTask <;> cases choice <;> simp [Pc.inGate]
  case poll => split <;> simp [Pc.inGate]
  case cancelled => split <;> simp [Pc.inGate]
  case take => split <;> simp [Pc.inGate]
  all_goals simp [Pc.inGate]

/-- The kernel is before the point where it sees that the task of the application does not run. -/
theorem Stopping.unsettled {c : Context} (h : Stopping c) (hr : c.task.running = true) : c.kernel.settled = false := by
  by_contra hs
  rw [Bool.not_eq_false] at hs
  rw [h.still hs] at hr
  exact Bool.noConfusion hr

theorem KernelPc.of_unsettled {k : KernelPc} (h : k.settled = false) : k = .idle ∨ k = .flag ∨ k = .suspend ∨ k = .settle := by
  cases k <;> simp_all [KernelPc.settled]

/-- A task that goes on keeps what is known when it counts its gates and stays suspended once it is. -/
theorem Stopping.moved {c d : Context} (h : Stopping c) (hr : c.task.running = true) (hkernel : d.kernel = c.kernel)
    (hstop : d.stopRequested = c.stopRequested) (hstarted : d.started = c.started)
    (hsuspended : c.task.suspended = true → d.task.suspended = true) (hdepth : d.gateDepth = if d.pc.inGate then 1 else 0)
    (hlate : d.late + (if d.stopRequested ∧ d.pc = .count then 1 else 0) ≤ c.late + (if c.stopRequested ∧ c.pc = .count then 1 else 0))
    (hretired : d.pc = .retired → d.task = ⟨true, false⟩) (hstays : d.pc ≠ .escaped) (htold : d.finished = d.pc.done)
    (hstatus : ∀ status, d.status = some status → d.pc.done = true ∧ d.returnedStatus = status) : Stopping d := by
  have hunsettled := h.unsettled hr
  have hwas : c.started = true := by
    by_contra hno
    rw [Bool.not_eq_true] at hno
    rw [(h.unstarted hno).1] at hr
    exact Bool.noConfusion hr
  constructor
  case unstarted =>
    intro hno
    rw [hstarted, hwas] at hno
    exact Bool.noConfusion hno
  case depth => exact hdepth
  case held =>
    rw [hkernel]
    exact fun hk => hsuspended (h.held hk)
  case asked =>
    rw [hkernel, hstop]
    exact h.asked
  case late => exact Nat.le_trans hlate h.late
  case early =>
    rw [hstop]
    intro hno
    have hle := hlate
    rw [h.early hno] at hle
    simp only [hno, hstop, Bool.false_eq_true, false_and, if_false] at hle
    omega
  case retired => exact hretired
  case stays => exact hstays
  case told => exact htold
  case status => exact hstatus
  all_goals
    rw [hkernel]
    rcases KernelPc.of_unsettled hunsettled with hk | hk | hk | hk <;> rw [hk] <;> simp [KernelPc.settled, KernelPc.past]

theorem Pc.not_done_of_inGate {pc : Pc} (h : pc.inGate = true) : pc.done = false ∧ pc ≠ .count ∧ pc ≠ .retired ∧ pc ≠ .escaped := by
  cases pc <;> simp_all [Pc.inGate, Pc.done]

theorem Stopping.untold {c : Context} (h : Stopping c) (hdone : c.pc.done = false) (status : Int) : c.status ≠ some status := by
  intro hsome
  rw [(h.status status hsome).1] at hdone
  exact Bool.noConfusion hdone

/-- The application goes from a place in no gate to another. -/
theorem Stopping.setPc {c : Context} (h : Stopping c) (hr : c.task.running = true) {task : Task} {pc : Pc}
    (hwas : c.pc.inGate = false ∧ c.pc.done = false) (hpc : pc.inGate = false ∧ pc.done = false ∧ pc ≠ .escaped)
    (hcount : pc = .count → c.stopRequested = false) (hs : c.task.suspended = true → task.suspended = true) :
    Stopping { c with task := task, pc := pc } := by
  have hretired : pc ≠ .retired := by
    rintro rfl
    exact Bool.noConfusion hpc.2.1
  refine h.moved hr rfl rfl rfl hs ?_ ?_ (fun hp => absurd hp hretired) hpc.2.2 ?_ fun status hsome => absurd hsome (h.untold hwas.2 status)
  · simp only [hpc.1]
    rw [h.depth, hwas.1]
  · rw [if_neg]
    · exact Nat.le_add_right _ _
    · rintro ⟨hstop, hp⟩
      rw [hcount hp] at hstop
      exact Bool.noConfusion hstop
  · simp only [hpc.2.1]
    rw [h.told, hwas.2]

/-- A service goes on by a step. -/
theorem Stopping.serve {c : Context} (image : Executable) (h : Stopping c) (hr : c.task.running = true) (choice : Choice) {at_ : Service}
    (hpc : c.pc = .service at_) : Stopping (c.serve image choice at_) := by
  obtain ⟨hin, htask, hkernel, hstop, hstarted, hgates, hlate, hfinished, hstat, -, -⟩ := serve_frame image c choice at_
  obtain ⟨hdone, hcount, hretired, hescaped⟩ := Pc.not_done_of_inGate hin
  have hwas : c.pc.done = false := by rw [hpc]; rfl
  refine h.moved hr hkernel hstop hstarted (fun hs => by rwa [htask]) ?_ ?_ (fun hp => absurd hp hretired) hescaped ?_ ?_
  · rw [hgates, hin, h.depth, hpc]
    rfl
  · rw [hlate, if_neg fun hp => hcount hp.2]
    omega
  · rw [hfinished, hdone, h.told, hwas]
  · intro status hsome
    rw [hstat] at hsome
    exact absurd hsome (h.untold hwas status)

/-- The application goes on by a step. -/
theorem Stopping.goTask {c : Context} (image : Executable) (h : Stopping c) (hr : c.task.running = true) (choice : Choice) :
    Stopping (c.goTask image choice) := by
  have hdepth := h.depth
  have htold := h.told
  unfold Context.goTask
  cases hpc : c.pc <;> rw [hpc] at hdepth htold <;> dsimp only
  case service at_ => exact h.serve image hr choice hpc
  case escaped => exact absurd hpc h.stays
  case retired =>
    rw [h.retired hpc] at hr
    exact Bool.noConfusion hr
  case code =>
    have hwas : c.pc.inGate = false ∧ c.pc.done = false := by rw [hpc]; exact ⟨rfl, rfl⟩
    cases choice
    case returns status =>
      refine h.moved hr rfl rfl rfl id hdepth (by simp) (by simp) (by simp) htold fun status hs => ?_
      exact absurd hs (h.untold hwas.2 status)
    all_goals exact h.setPc hr hwas ⟨rfl, rfl, by simp⟩ (by simp) id
  case enter =>
    have hwas : c.pc.inGate = false ∧ c.pc.done = false := by rw [hpc]; exact ⟨rfl, rfl⟩
    by_cases hstop : c.stopRequested = true
    · rw [if_pos hstop]
      exact h.setPc hr hwas ⟨rfl, rfl, by simp⟩ (by simp) id
    · rw [if_neg hstop]
      exact h.setPc hr hwas ⟨rfl, rfl, by simp⟩ (fun _ => Bool.eq_false_iff.mpr hstop) id
  case park => exact h.setPc hr (by rw [hpc]; exact ⟨rfl, rfl⟩) ⟨rfl, rfl, by simp⟩ (by simp) fun _ => rfl
  case count =>
    refine h.moved hr rfl rfl rfl id ?_ ?_ (by simp) (by simp) htold fun status hs => absurd hs (h.untold (by rw [hpc]; rfl) status)
    · simp only [hdepth]
      rfl
    · cases hstop : c.stopRequested <;> simp [hpc]
  case leave =>
    have hone : c.gateDepth = 1 := hdepth
    rw [if_pos hone]
    refine h.moved hr rfl rfl rfl id ?_ (by simp) (by simp) (by simp) htold fun status hs => absurd hs (h.untold (by rw [hpc]; rfl) status)
    simp only [hone]
    rfl
  case left =>
    have hwas : c.pc.inGate = false ∧ c.pc.done = false := by rw [hpc]; exact ⟨rfl, rfl⟩
    by_cases hstop : c.stopRequested = true
    · rw [if_pos hstop]
      exact h.setPc hr hwas ⟨rfl, rfl, by simp⟩ (by simp) id
    · rw [if_neg hstop]
      exact h.setPc hr hwas ⟨rfl, rfl, by simp⟩ (by simp) id
  case parkLeft => exact h.setPc hr (by rw [hpc]; exact ⟨rfl, rfl⟩) ⟨rfl, rfl, by simp⟩ (by simp) fun _ => rfl
  case finish =>
    exact h.moved hr rfl rfl rfl id hdepth (by simp) (by simp) (by simp) rfl fun status hs =>
      absurd hs (h.untold (by rw [hpc]; rfl) status)
  case retire =>
    exact h.moved hr rfl rfl rfl (fun _ => rfl) hdepth (by simp) (fun _ => rfl) (by simp) htold fun status hs =>
      ⟨rfl, (h.status status hs).2⟩

/-- What is known does not depend on the state of the jobs. -/
theorem Stopping.congr {c d : Context} (h : Stopping c) (htask : d.task = c.task) (hpc : d.pc = c.pc)
    (hworker : d.computeTask = c.computeTask) (hkernel : d.kernel = c.kernel) (hstarted : d.started = c.started)
    (hfinished : d.finished = c.finished) (hstop : d.stopRequested = c.stopRequested) (hdepth : d.gateDepth = c.gateDepth)
    (hreturned : d.returnedStatus = c.returnedStatus) (hstatus : d.status = c.status) (hlate : d.late = c.late) : Stopping d := by
  constructor
  case unstarted => rw [hstarted, htask, hpc, hworker, hkernel]; exact h.unstarted
  case depth => rw [hdepth, hpc]; exact h.depth
  case held => rw [hkernel, htask]; exact h.held
  case still => rw [hkernel, htask]; exact h.still
  case inside => rw [hkernel, hpc]; exact h.inside
  case outside => rw [hkernel, hpc]; exact h.outside
  case deleted => rw [hkernel, hstarted, htask]; exact h.deleted
  case workerHeld => rw [hkernel, hworker]; exact h.workerHeld
  case workerStill => rw [hkernel, hworker]; exact h.workerStill
  case asked => rw [hkernel, hstop]; exact h.asked
  case late => rw [hlate, hstop, hpc]; exact h.late
  case early => rw [hstop, hlate]; exact h.early
  case retired => rw [hpc, htask]; exact h.retired
  case stays => rw [hpc]; exact h.stays
  case told => rw [hfinished, hpc]; exact h.told
  case status => rw [hstatus, hpc, hreturned]; exact h.status

/-- The computing task goes on by a step. -/
theorem Stopping.goWorker {c : Context} (h : Stopping c) (escapes : Bool) : Stopping (c.goWorker escapes) := by
  unfold Context.goWorker
  split
  · split
    · exact h.congr rfl rfl rfl rfl rfl rfl rfl rfl rfl rfl rfl
    · exact h
  all_goals exact h.congr rfl rfl rfl rfl rfl rfl rfl rfl rfl rfl rfl

theorem Stopping.isStarted {c : Context} (h : Stopping c) (hk : c.kernel ≠ .idle ∧ c.kernel ≠ .deleted) : c.started = true := by
  by_contra hno
  rw [Bool.not_eq_true] at hno
  obtain ⟨-, -, -, hidle | hdeleted⟩ := h.unstarted hno
  · exact hk.1 hidle
  · exact hk.2 hdeleted

/-- The kernel goes on, and may suspend or resume the tasks. -/
theorem Stopping.setKernel {c : Context} (h : Stopping c) {task : Task} {worker : Option Task} {k : KernelPc}
    (hstarted : c.started = true) (hheld : k.holds → task.suspended = true) (hstill : k.settled → task.running = false)
    (hinside : k = .cancel ∨ k = .resume → c.pc.inGate = true) (houtside : k.past → c.pc.inGate = false)
    (hdeleted : k = .deleted → task.suspended = true)
    (hworkerHeld : k = .settleCompute ∨ k = .quiet ∨ k = .deleted → ∀ t ∈ worker, t.suspended = true)
    (hworkerStill : k = .quiet ∨ k = .deleted → ∀ t ∈ worker, t.running = false)
    (hasked : k.holds ∨ k = .suspend → c.stopRequested = true) (hretired : c.pc = .retired → task = ⟨true, false⟩) :
    Stopping { c with task := task, computeTask := worker, kernel := k } where
  unstarted := fun hno => by
    rw [hstarted] at hno
    exact Bool.noConfusion hno
  depth := h.depth
  held := hheld
  still := hstill
  inside := hinside
  outside := houtside
  deleted := fun hk _ => hdeleted hk
  workerHeld := hworkerHeld
  workerStill := hworkerStill
  asked := hasked
  late := h.late
  early := h.early
  retired := hretired
  stays := h.stays
  told := h.told
  status := h.status

/-- `platform_riscv32_stop` goes on by a step. -/
theorem Stopping.goKernel {c : Context} (h : Stopping c) : Stopping c.goKernel := by
  have hheld := h.held
  have hstill := h.still
  have hasked := h.asked
  unfold Context.goKernel
  cases hk : c.kernel <;> rw [hk] at hheld hstill hasked <;> dsimp only
  case idle => exact h
  case deleted => exact h
  case flag =>
    have hstarted := h.isStarted (by rw [hk]; decide)
    have hlate := h.late
    have hearly := h.early
    refine ⟨fun hno => ?_, h.depth, by simp [KernelPc.holds], by simp [KernelPc.settled], by simp, by simp [KernelPc.past], by simp, by simp,
      by simp, fun _ => rfl, ?_, by simp, h.retired, h.stays, h.told, h.status⟩
    · rw [show c.started = false from hno] at hstarted
      exact Bool.noConfusion hstarted
    · show c.late + _ ≤ 1
      cases hstop : c.stopRequested
      · rw [hearly hstop]
        split <;> omega
      · simpa [hstop] using hlate
  case suspend =>
    refine h.setKernel (h.isStarted (by rw [hk]; decide)) (fun _ => rfl) (by simp [KernelPc.settled]) (by simp) (by simp [KernelPc.past])
      (by simp) (by simp) (by simp) (fun _ => hasked (.inr rfl)) fun hp => ?_
    rw [h.retired hp]
  case settle =>
    split
    · exact h
    · rename_i hno
      rw [Bool.not_eq_true] at hno
      exact h.setKernel (h.isStarted (by rw [hk]; decide)) (fun _ => hheld rfl) (fun _ => hno) (by simp) (by simp [KernelPc.past]) (by simp)
        (by simp) (by simp) (fun _ => hasked (.inl rfl)) h.retired
  case depth =>
    have hstarted := h.isStarted (by rw [hk]; decide)
    by_cases hzero : c.gateDepth = 0
    · have hout : c.pc.inGate = false := by
        rw [h.depth] at hzero
        by_contra hin
        rw [Bool.not_eq_false] at hin
        simp [hin] at hzero
      rw [if_pos hzero]
      exact h.setKernel hstarted (fun _ => hheld rfl) (fun _ => hstill rfl) (by simp) (fun _ => hout) (by simp) (by simp) (by simp)
        (fun _ => hasked (.inl rfl)) h.retired
    · have hin : c.pc.inGate = true := by
        by_contra hout
        rw [h.depth, if_neg hout] at hzero
        exact hzero rfl
      rw [if_neg hzero]
      exact h.setKernel hstarted (fun _ => hheld rfl) (fun _ => hstill rfl) (fun _ => hin) (by simp [KernelPc.past]) (by simp) (by simp)
        (by simp) (fun _ => hasked (.inl rfl)) h.retired
  case cancel =>
    exact h.setKernel (h.isStarted (by rw [hk]; decide)) (fun _ => hheld rfl) (fun _ => hstill rfl) (fun _ => h.inside (.inl hk))
      (by simp [KernelPc.past]) (by simp) (by simp) (by simp) (fun _ => hasked (.inl rfl)) h.retired
  case resume =>
    refine h.setKernel (h.isStarted (by rw [hk]; decide)) (by simp [KernelPc.holds]) (by simp [KernelPc.settled]) (by simp)
      (by simp [KernelPc.past]) (by simp) (by simp) (by simp) (fun _ => hasked (.inl rfl)) fun hp => ?_
    have hin := h.inside (.inr hk)
    rw [hp] at hin
    exact Bool.noConfusion hin
  case suspendCompute =>
    have hstarted := h.isStarted (by rw [hk]; decide)
    have hout := h.outside (by rw [hk]; rfl)
    split
    · rename_i hnone
      exact h.setKernel hstarted (fun _ => hheld rfl) (fun _ => hstill rfl) (by simp) (fun _ => hout) (by simp) (by simp [hnone])
        (by simp [hnone]) (fun _ => hasked (.inl rfl)) h.retired
    · exact h.setKernel hstarted (fun _ => hheld rfl) (fun _ => hstill rfl) (by simp) (fun _ => hout) (by simp) (by simp) (by simp)
        (fun _ => hasked (.inl rfl)) h.retired
  case settleCompute =>
    have hout := h.outside (by rw [hk]; rfl)
    split
    · exact h
    · rename_i hno
      have hworker : ∀ t ∈ c.computeTask, t.running = false := by
        intro t ht
        rw [Option.mem_def] at ht
        simpa [ht] using hno
      exact h.setKernel (h.isStarted (by rw [hk]; decide)) (fun _ => hheld rfl) (fun _ => hstill rfl) (by simp) (fun _ => hout) (by simp)
        (fun _ => h.workerHeld (.inl hk)) (fun _ => hworker) (fun _ => hasked (.inl rfl)) h.retired
  case quiet =>
    have hout := h.outside (by rw [hk]; rfl)
    split
    · exact h.setKernel (h.isStarted (by rw [hk]; decide)) (fun _ => hheld rfl) (fun _ => hstill rfl) (by simp) (fun _ => hout)
        (fun _ => hheld rfl) (fun _ => h.workerHeld (.inr (.inl hk))) (fun _ => h.workerStill (.inl hk)) (fun _ => hasked (.inl rfl)) h.retired
    · exact h

theorem Task.dispatch_suspended (t : Task) : t.dispatch.suspended = t.suspended := by
  unfold Task.dispatch
  split <;> rfl

/-- A task that is suspended is not taken up. -/
theorem Task.dispatch_of_suspended {t : Task} (h : t.suspended = true) : t.dispatch = t := if_pos h

/-- The scheduler takes up the tasks or leaves them, and none that is suspended. -/
theorem Stopping.schedule {c : Context} (h : Stopping c) {task : Task} {worker : Option Task} (hstarted : c.started = true)
    (hsuspended : task.suspended = c.task.suspended) (hrunning : c.task.running = false → c.task.suspended = true → task.running = false)
    (hworker : ∀ t ∈ worker, ∃ t' ∈ c.computeTask, t.suspended = t'.suspended ∧
      (t'.suspended = true → t'.running = false → t.running = false)) :
    Stopping { c with task := task, computeTask := worker } := by
  have hstill : c.kernel.settled → task.running = false := by
    intro hk
    refine hrunning (h.still hk) ?_
    by_cases hdeleted : c.kernel = .deleted
    · exact h.deleted hdeleted hstarted
    · refine h.held ?_
      cases hkernel : c.kernel <;> rw [hkernel] at hk hdeleted <;> simp_all [KernelPc.settled, KernelPc.holds]
  have hheld : c.kernel = .settleCompute ∨ c.kernel = .quiet ∨ c.kernel = .deleted → ∀ t ∈ worker, t.suspended = true := by
    intro hk t ht
    obtain ⟨t', ht', hs, -⟩ := hworker t ht
    rw [hs]
    exact h.workerHeld hk t' ht'
  refine h.setKernel hstarted (fun hk => by rw [hsuspended]; exact h.held hk) hstill h.inside h.outside
    (fun hk => by rw [hsuspended]; exact h.deleted hk hstarted) hheld ?_ h.asked ?_
  · intro hk t ht
    obtain ⟨t', ht', -, hr⟩ := hworker t ht
    exact hr (h.workerHeld (.inr hk) t' ht') (h.workerStill hk t' ht')
  · intro hp
    obtain ⟨suspended, running⟩ := task
    have hretired := h.retired hp
    rw [hretired] at hsuspended hrunning
    rw [show suspended = true from hsuspended, show running = false from hrunning rfl rfl]

theorem same_worker (c : Context) : ∀ t ∈ c.computeTask, ∃ t' ∈ c.computeTask, t.suspended = t'.suspended ∧
    (t'.suspended = true → t'.running = false → t.running = false) := fun t ht => ⟨t, ht, rfl, fun _ hr => hr⟩

/-- The kernel calls `platform_riscv32_stop` or `platform_riscv32_destroy`. -/
theorem Stopping.halt {c : Context} (h : Stopping c) (destroying : Bool) :
    Stopping (if c.kernel = .idle ∨ c.kernel = .quiet then c.halt destroying else c) := by
  split
  · rename_i hk
    unfold Context.halt
    split
    · rename_i hstarted
      have hset : Stopping { c with kernel := .flag } :=
        h.setKernel hstarted (by simp [KernelPc.holds]) (by simp [KernelPc.settled]) (by simp) (by simp [KernelPc.past]) (by simp) (by simp)
          (by simp) (by simp [KernelPc.holds]) h.retired
      exact hset.congr rfl rfl rfl rfl rfl rfl rfl rfl rfl rfl rfl
    · rename_i hno
      split
      · rw [Bool.not_eq_true] at hno
        obtain ⟨htask, hpc, hworker, -⟩ := h.unstarted hno
        refine ⟨fun _ => ⟨htask, hpc, hworker, .inr rfl⟩, h.depth, by simp [KernelPc.holds], fun _ => ?_, by simp, fun _ => ?_, fun _ hyes => ?_,
          fun _ t ht => ?_, fun _ t ht => ?_, by simp [KernelPc.holds], h.late, h.early, h.retired, h.stays, h.told, h.status⟩
        · show c.task.running = false
          rw [htask]
        · show c.pc.inGate = false
          rw [hpc]
          rfl
        · exact absurd (hno.symm.trans hyes) Bool.false_ne_true
        all_goals
          rw [show c.computeTask = none from hworker] at ht
          exact absurd ht (by simp)
      · exact h
  · exact h

/-- Whatever happens next keeps what is known. -/
theorem Stopping.step {c : Context} (image : Executable) (h : Stopping c) (event : Event) : Stopping (c.step image event) := by
  cases event <;> simp only [Context.step]
  case dispatch =>
    split
    · rename_i hstarted
      refine h.schedule hstarted c.task.dispatch_suspended (fun hr hs => ?_) (same_worker c)
      rw [Task.dispatch_of_suspended hs, hr]
    · exact h
  case preempt =>
    by_cases hstarted : c.started = true
    · exact h.schedule hstarted rfl (fun _ _ => rfl) (same_worker c)
    · rw [Bool.not_eq_true] at hstarted
      refine h.congr ?_ rfl rfl rfl rfl rfl rfl rfl rfl rfl rfl
      rw [(h.unstarted hstarted).1]
      rfl
  case task choice =>
    split
    · rename_i hr
      exact h.goTask image hr choice
    · exact h
  case dispatchWorker =>
    by_cases hstarted : c.started = true
    · refine h.schedule hstarted rfl (fun hr _ => hr) fun t ht => ?_
      obtain ⟨t', ht', rfl⟩ := Option.map_eq_some_iff.mp ht
      refine ⟨t', ht', t'.dispatch_suspended, fun hs hr => ?_⟩
      rw [Task.dispatch_of_suspended hs, hr]
    · rw [Bool.not_eq_true] at hstarted
      refine h.congr rfl rfl ?_ rfl rfl rfl rfl rfl rfl rfl rfl
      rw [(h.unstarted hstarted).2.2.1]
      rfl
  case preemptWorker =>
    by_cases hstarted : c.started = true
    · refine h.schedule hstarted rfl (fun hr _ => hr) fun t ht => ?_
      obtain ⟨t', ht', rfl⟩ := Option.map_eq_some_iff.mp ht
      exact ⟨t', ht', rfl, fun _ _ => rfl⟩
    · rw [Bool.not_eq_true] at hstarted
      refine h.congr rfl rfl ?_ rfl rfl rfl rfl rfl rfl rfl rfl
      rw [(h.unstarted hstarted).2.2.1]
      rfl
  case worker escapes =>
    split
    · exact h.goWorker escapes
    · exact h
  case step created =>
    split
    · rename_i hidle
      unfold Context.poll
      split
      · rename_i hno
        split
        · have hun := h.unstarted (by simpa using hno)
          refine ⟨by simp, h.depth, h.held, h.still, h.inside, h.outside, ?_, h.workerHeld, h.workerStill, h.asked, h.late, h.early, h.retired,
            h.stays, h.told, h.status⟩
          simp [hidle]
        · exact h
      · split
        · rename_i hfinished
          refine ⟨h.unstarted, h.depth, h.held, h.still, h.inside, h.outside, h.deleted, h.workerHeld, h.workerStill, h.asked, h.late,
            h.early, h.retired, h.stays, h.told, ?_⟩
          intro status hs
          exact ⟨h.told ▸ hfinished, Option.some.inj hs⟩
        · exact h
    · exact h
  case stop => exact h.halt false
  case destroy => exact h.halt true
  case kernel => exact h.goKernel

theorem stopping_run (image : Executable) (events : List Event) : Stopping (run image events) :=
  foldl_invariant Stopping (fun _ event hs => hs.step image event) events stopping_created

/-! ## Past the stop -/

/-- The application and the computing task are suspended, and the application is in no gate. -/
structure Stopped (c : Context) : Prop where
  started : c.started = true
  asked : c.stopRequested = true
  task : c.task = ⟨true, false⟩
  outside : c.pc.inGate = false
  worker : ∀ t ∈ c.computeTask, t = ⟨true, false⟩

theorem Stopping.stopped {c : Context} (h : Stopping c) (hk : c.kernel = .quiet) : Stopped c where
  started := h.isStarted (by rw [hk]; decide)
  asked := h.asked (.inl (by rw [hk]; rfl))
  task := by
    have hheld := h.held (by rw [hk]; rfl)
    have hstill := h.still (by rw [hk]; rfl)
    cases htask : c.task
    simp_all
  outside := h.outside (by rw [hk]; rfl)
  worker := fun t ht => by
    have hheld := h.workerHeld (.inr (.inl hk)) t ht
    have hstill := h.workerStill (.inl hk) t ht
    cases t
    simp_all

/-- Nothing has changed but where the kernel is and what it was told. -/
def Frozen (c d : Context) : Prop := d = { c with kernel := d.kernel, destroying := d.destroying, status := d.status }

theorem Frozen.refl (c : Context) : Frozen c c := rfl

theorem Frozen.trans {c d e : Context} (hcd : Frozen c d) (hde : Frozen d e) : Frozen c e := by
  unfold Frozen at *
  rw [hde, hcd]

theorem Frozen.stopped {c d : Context} (h : Frozen c d) (hs : Stopped c) : Stopped d := by
  rw [h]
  exact ⟨hs.started, hs.asked, hs.task, hs.outside, hs.worker⟩

theorem frozen_of {c : Context} {task : Task} {worker : Option Task} {stop destroying : Bool} {kernel : KernelPc} {status : Option Int}
    (htask : task = c.task) (hworker : worker = c.computeTask) (hstop : stop = c.stopRequested) :
    Frozen c { c with
      task := task, computeTask := worker, stopRequested := stop, kernel := kernel, destroying := destroying, status := status } := by
  subst htask hworker hstop
  rfl

theorem Stopped.same_workers {c : Context} (hs : Stopped c) {f : Task → Task} (hf : f ⟨true, false⟩ = ⟨true, false⟩) :
    c.computeTask.map f = c.computeTask := by
  cases hworker : c.computeTask with
  | none => rfl
  | some t => rw [Option.map_some, hs.worker t hworker, hf]

theorem Stopped.idle_workers {c : Context} (hs : Stopped c) : c.computeTask.any Task.running = false := by
  cases hworker : c.computeTask with
  | none => rfl
  | some t =>
    rw [hs.worker t hworker]
    rfl

/-- The kernel goes on with the stop of an application that is stopped. -/
theorem Stopped.goKernel {c : Context} (hs : Stopped c) (h : Stopping c) : Frozen c c.goKernel := by
  unfold Context.goKernel
  cases hk : c.kernel <;> dsimp only
  case flag => exact frozen_of rfl rfl hs.asked.symm
  case suspend => exact frozen_of (by rw [hs.task]) rfl rfl
  case settle => split <;> rfl
  case resume =>
    have hin := h.inside (.inr hk)
    rw [hs.outside] at hin
    exact Bool.noConfusion hin
  case suspendCompute =>
    split
    · rfl
    · rename_i worker hworker
      exact frozen_of rfl (by rw [hworker, hs.worker worker hworker]) rfl
  case settleCompute => split <;> rfl
  case quiet => split <;> rfl
  all_goals rfl

/-- Whatever happens next leaves an application that is stopped as it is. -/
theorem Stopped.step {c : Context} (image : Executable) (hs : Stopped c) (h : Stopping c) (event : Event) :
    Frozen c (c.step image event) := by
  have hhalt (destroying : Bool) : Frozen c (if c.kernel = .idle ∨ c.kernel = .quiet then c.halt destroying else c) := by
    split
    · rw [Context.halt, if_pos hs.started]
      rfl
    · rfl
  cases event <;> simp only [Context.step]
  case dispatch =>
    rw [if_pos hs.started]
    exact frozen_of (Task.dispatch_of_suspended (by rw [hs.task])) rfl rfl
  case preempt => exact frozen_of (by rw [hs.task]; rfl) rfl rfl
  case task choice =>
    rw [if_neg (by rw [hs.task]; decide)]
    rfl
  case dispatchWorker => exact frozen_of rfl (hs.same_workers (Task.dispatch_of_suspended rfl)) rfl
  case preemptWorker => exact frozen_of rfl (hs.same_workers rfl) rfl
  case worker escapes =>
    rw [if_neg (by rw [hs.idle_workers]; decide)]
    rfl
  case step created =>
    split
    · rw [Context.poll, if_neg (by rw [hs.started]; decide)]
      split <;> rfl
    · rfl
  case stop => exact hhalt false
  case destroy => exact hhalt true
  case kernel => exact hs.goKernel h

theorem Stopped.run {c : Context} (image : Executable) (hs : Stopped c) (h : Stopping c) (events : List Event) :
    Frozen c (events.foldl (Context.step image) c) := by
  refine (foldl_invariant (fun d => Frozen c d ∧ Stopped d ∧ Stopping d) ?_ events ⟨.refl c, hs, h⟩).1
  rintro d event ⟨hfrozen, hd, hd'⟩
  have hstep := hd.step image hd' event
  exact ⟨hfrozen.trans hstep, hstep.stopped hd, hd'.step image event⟩

/-- In every interleaving of an application, its computing task and the kernel, at most one service starts after the kernel has asked for a
stop; the kernel cancels what the application waits for only while the application is suspended, not running, in a gate; the task of the
application never returns from its function; the kernel is told that the application has finished only past its entry function, with what
that returned; and once `platform_riscv32_stop` has returned, both tasks are suspended and not running, the application is in no gate, and
whatever happens later changes nothing but where the kernel is and what it was told, so that nothing runs when `platform_riscv32_destroy`
frees the context. -/
theorem stop_quiesces (image : Executable) (events : List Event) :
    let c := Native.run image events
    c.late ≤ 1 ∧ (c.kernel = .cancel → c.task = ⟨true, false⟩ ∧ c.pc.inGate = true) ∧ c.pc ≠ .escaped ∧
      (∀ status, c.status = some status → (c.pc = .retire ∨ c.pc = .retired) ∧ c.returnedStatus = status) ∧
      (c.kernel = .quiet → c.task = ⟨true, false⟩ ∧ (∀ t ∈ c.computeTask, t = ⟨true, false⟩) ∧ c.pc.inGate = false ∧ c.gateDepth = 0 ∧
        ∀ later : List Event, Frozen c (later.foldl (Context.step image) c)) ∧
      (c.kernel = .deleted → c.task.running = false ∧ (∀ t ∈ c.computeTask, t.running = false) ∧ c.gateDepth = 0) := by
  intro c
  have h : Stopping c := stopping_run image events
  refine ⟨?_, fun hk => ⟨?_, h.inside (.inl hk)⟩, h.stays, fun status hstatus => ?_, fun hk => ?_, fun hk => ?_⟩
  · have hlate := h.late
    omega
  · have hheld := h.held (by rw [hk]; rfl)
    have hstill := h.still (by rw [hk]; rfl)
    cases htask : c.task
    simp_all
  · obtain ⟨hdone, hreturned⟩ := h.status status hstatus
    refine ⟨?_, hreturned⟩
    cases hpc : c.pc <;> rw [hpc] at hdone <;> simp_all [Pc.done]
  · have hs := h.stopped hk
    refine ⟨hs.task, hs.worker, hs.outside, ?_, hs.run image h⟩
    rw [h.depth, hs.outside]
    rfl
  · refine ⟨h.still (by rw [hk]; rfl), h.workerStill (.inr hk), ?_⟩
    rw [h.depth, h.outside (by rw [hk]; rfl)]
    rfl

/-! ## The stop comes to its end -/

/-- Some events lead from a state to one with a property. -/
def Leads (image : Executable) (c : Context) (P : Context → Prop) : Prop := ∃ events : List Event, P (events.foldl (Context.step image) c)

theorem Leads.now {image : Executable} {c : Context} {P : Context → Prop} (h : P c) : Leads image c P := ⟨[], h⟩

theorem Leads.after {image : Executable} {c : Context} {P : Context → Prop} (event : Event) (h : Leads image (c.step image event) P) :
    Leads image c P := by
  obtain ⟨events, hevents⟩ := h
  exact ⟨event :: events, hevents⟩

theorem Leads.trans {image : Executable} {c : Context} {P Q : Context → Prop} (h : Leads image c P) (hq : ∀ d, P d → Leads image d Q) :
    Leads image c Q := by
  obtain ⟨events, hevents⟩ := h
  obtain ⟨more, hmore⟩ := hq _ hevents
  exact ⟨events ++ more, by rwa [List.foldl_append]⟩

/-- How many steps a service goes on for at most once the application is to stop. -/
def Service.rank : Service → Nat
  | .store _ | .await => 3
  | .publish | .join => 2
  | _ => 1

def Pc.rank : Pc → Nat
  | .service at_ => at_.rank
  | _ => 0

theorem serve_rank (image : Executable) {c : Context} (hstop : c.stopRequested = true) (choice : Choice) (at_ : Service) :
    (c.serve image choice at_).pc.rank < at_.rank := by
  cases at_ <;> simp only [Context.serve, Context.answers, hstop, if_true]
  case join => cases c.computePending && !c.computeComplete <;> simp [Pc.rank, Service.rank]
  case take => split <;> simp [Pc.rank, Service.rank]
  all_goals simp [Pc.rank, Service.rank]

/-- The kernel is about to suspend a task that runs in a gate. -/
structure Leaving (c : Context) : Prop where
  kernel : c.kernel = .suspend
  asked : c.stopRequested = true
  running : c.task.running = true
  inside : c.pc.inGate = true
  depth : c.gateDepth = 1

/-- An application leaves its gate. -/
theorem Leaving.leads (image : Executable) : ∀ (rank : Nat) {c : Context}, c.pc.rank ≤ rank → Leaving c →
    Leads image c fun d => d.kernel = .suspend ∧ d.gateDepth = 0 := by
  intro rank
  induction rank with
  | zero =>
    intro c hrank h
    have hpc : c.pc = .leave := by
      have hin := h.inside
      cases hpc : c.pc with
      | service at_ =>
        rw [hpc] at hrank
        cases at_ <;> simp [Pc.rank, Service.rank] at hrank
      | leave => rfl
      | _ =>
        rw [hpc] at hin
        exact Bool.noConfusion hin
    refine .after (.task .go) (.now ?_)
    simp only [Context.step, h.running, if_true, Context.goTask, hpc, h.kernel, h.depth, true_and]
  | succ rank ih =>
    intro c hrank h
    have hin := h.inside
    cases hpc : c.pc with
    | service at_ =>
      have hstep : c.step image (.task .go) = c.serve image .go at_ := by
        simp only [Context.step, h.running, if_true, Context.goTask, hpc]
      obtain ⟨hinside, htask, hkernel, hstop, -, hdepth, -⟩ := serve_frame image c .go at_
      have hless := serve_rank image h.asked .go at_
      rw [hpc] at hrank
      refine .after (.task .go) ?_
      rw [hstep]
      refine ih ?_ ⟨by rw [hkernel, h.kernel], by rw [hstop, h.asked], by rw [htask, h.running], hinside, by rw [hdepth, h.depth]⟩
      exact Nat.le_of_lt_succ (Nat.lt_of_lt_of_le hless hrank)
    | leave =>
      refine ih ?_ h
      rw [hpc]
      exact Nat.zero_le _
    | _ =>
      rw [hpc] at hin
      exact Bool.noConfusion hin

/-- The kernel has only the computing task left to suspend. -/
theorem leads_of_past (image : Executable) {c : Context} (hk : c.kernel = .suspendCompute ∨ c.kernel = .settleCompute) :
    Leads image c fun d => d.kernel = .quiet := by
  have hsettle : ∀ {d : Context}, d.kernel = .settleCompute → Leads image d fun e => e.kernel = .quiet := by
    intro d hd
    refine .after .preemptWorker (.after .kernel (.now ?_))
    have hnone : (d.computeTask.map Task.preempt).any Task.running = false := by cases d.computeTask <;> rfl
    simp [Context.step, Context.goKernel, hd, hnone]
  rcases hk with hk | hk
  · cases hworker : c.computeTask with
    | none =>
      refine .after .kernel (.now ?_)
      simp [Context.step, Context.goKernel, hk, hworker]
    | some worker =>
      refine .after .kernel (hsettle ?_)
      simp [Context.step, Context.goKernel, hk, hworker]
  · exact hsettle hk

/-- The kernel suspends an application that is in no gate. -/
theorem leads_of_outside (image : Executable) {c : Context} (hk : c.kernel = .suspend) (hdepth : c.gateDepth = 0) :
    Leads image c fun d => d.kernel = .quiet := by
  refine .after .kernel (.after .preempt (.after .kernel (.after .kernel (leads_of_past image (.inl ?_)))))
  simp [Context.step, Context.goKernel, hk, hdepth, Task.preempt]

/-- The kernel is about to resume an application that is in a gate. -/
theorem leads_of_resume (image : Executable) {c : Context} (h : Stopping c) (hk : c.kernel = .resume) :
    Leads image c fun d => d.kernel = .quiet := by
  have hin := h.inside (.inr hk)
  have hdepth := h.depth
  rw [if_pos hin] at hdepth
  have hstarted := h.isStarted (by rw [hk]; decide)
  refine .after .kernel (.after .dispatch ?_)
  refine (Leaving.leads image _ (Nat.le_refl _) ?_).trans fun d hd => leads_of_outside image hd.1 hd.2
  constructor <;> simp [Context.step, Context.goKernel, hk, hstarted, Task.dispatch, hin, hdepth, h.asked (.inl (by rw [hk]; rfl))]

/-- The kernel is about to look whether the application is in a gate. -/
theorem leads_of_depth (image : Executable) {c : Context} (h : Stopping c) (hk : c.kernel = .depth) :
    Leads image c fun d => d.kernel = .quiet := by
  by_cases hzero : c.gateDepth = 0
  · refine .after .kernel (leads_of_past image (.inl ?_))
    simp [Context.step, Context.goKernel, hk, hzero]
  · refine .after .kernel (.after .kernel (leads_of_resume image ((h.step image _).step image _) ?_))
    simp [Context.step, Context.goKernel, hk, hzero]

/-- From every state of every run in which `platform_riscv32_stop` goes on, some way of taking the steps brings it to its end: no stop is
stuck, wherever the application is, in its own code, parked, or in the middle of a service that waits. -/
theorem stop_finishes (image : Executable) (events : List Event)
    (hstopping : (Native.run image events).kernel ≠ .idle ∧ (Native.run image events).kernel ≠ .deleted) :
    ∃ more : List Event, (Native.run image (events ++ more)).kernel = .quiet := by
  have hleads : Leads image (Native.run image events) fun d => d.kernel = .quiet := by
    have h := stopping_run image events
    generalize Native.run image events = c at h hstopping
    have hsettle : ∀ {d : Context}, Stopping d → d.kernel = .settle → Leads image d fun e => e.kernel = .quiet := by
      intro d hd hk
      refine .after .preempt (.after .kernel (leads_of_depth image ((hd.step image _).step image _) ?_))
      simp [Context.step, Context.goKernel, hk, Task.preempt]
    have hsuspend : ∀ {d : Context}, Stopping d → d.kernel = .suspend → Leads image d fun e => e.kernel = .quiet := by
      intro d hd hk
      refine .after .kernel (hsettle (hd.step image _) ?_)
      simp only [Context.step, Context.goKernel, hk]
    cases hk : c.kernel with
    | idle => exact absurd hk hstopping.1
    | deleted => exact absurd hk hstopping.2
    | flag =>
      refine .after .kernel (hsuspend (h.step image _) ?_)
      simp only [Context.step, Context.goKernel, hk]
    | suspend => exact hsuspend h hk
    | settle => exact hsettle h hk
    | depth => exact leads_of_depth image h hk
    | cancel =>
      refine .after .kernel (leads_of_resume image (h.step image _) ?_)
      simp only [Context.step, Context.goKernel, hk]
    | resume => exact leads_of_resume image h hk
    | suspendCompute => exact leads_of_past image (.inl hk)
    | settleCompute => exact leads_of_past image (.inr hk)
    | quiet => exact .now hk
  obtain ⟨more, hmore⟩ := hleads
  exact ⟨more, by rwa [Native.run, List.foldl_append]⟩

/-- An application is stopped that waits for a job that no core has taken up. -/
def waitingEvents : List Event :=
  [.step true, .dispatch, .task .go, .task .go, .task (.submit ⟨4, 8⟩), .task .go, .task .go, .task .go, .task .go, .task .go, .task .go,
    .task .go, .task .go, .task .wait, .task .go, .task .go, .stop, .kernel]

example : (Native.run ⟨0, 16⟩ waitingEvents).pc = .service .await := by decide

theorem stop_finishes_waiting : ∃ more : List Event, (Native.run ⟨0, 16⟩ (waitingEvents ++ more)).kernel = .quiet :=
  stop_finishes ⟨0, 16⟩ waitingEvents (by decide)

end Native
end Executor
end TabOS
