import TabOS.Executor.Gates
import TabOS.HostIo.Jobs

/-!
# Gates of the host

`platform_riscv32_step` of `platform/host/sdl/executable.c` as it arrives at the service gates of a guest. The three gates whose services
call `host_io_call` are modelled with what decides whether a job is started, kept or delivered; every other gate, and a batch of
instructions, leaves the job alone and may do anything else. A job carries the gate and the invocation that it was started for, and what
is delivered is recorded with the gate and the invocation that it is delivered to. An invocation that was suspended goes on when it is
retried.
-/

namespace TabOS
namespace HostIo

open Library
open Executor (Gate maxRamSize sizeofNetworkAddress sizeofNetworkEchoResult)

/-- `MiniRV32IMAState`, as far as the gates use it. -/
structure MiniRV32IMAState where
  pc : BitVec 32
  regs : Fin 32 → BitVec 32

/-- What a job was started for. -/
structure Started where
  gate : BitVec 32
  invocation : Nat
  deriving DecidableEq, Repr

/-- A job that was delivered, and the gate and the invocation that it was delivered to. -/
structure Delivery where
  job : Started
  gate : BitVec 32
  invocation : Nat
  deriving DecidableEq, Repr

/-- `platform_riscv32_context_t`, as far as the gates use it, with its history. -/
structure Context where
  memorySize : Nat
  fits : memorySize ≤ maxRamSize
  state : MiniRV32IMAState
  gateState : MiniRV32IMAState
  job : Option Started
  pending : Bool
  retrying : Bool
  resumeAt : Nat
  waiting : Bool
  waitDeadline : Nat
  invocation : Nat
  suspended : Bool
  deliveries : List Delivery

/-- `platform_riscv32_create`, in the end. -/
def Context.new (memorySize : Nat) (fits : memorySize ≤ maxRamSize) (state : MiniRV32IMAState) : Context where
  memorySize := memorySize
  fits := fits
  state := state
  gateState := ⟨0, fun _ => 0⟩
  job := none
  pending := false
  retrying := false
  resumeAt := 0
  waiting := false
  waitDeadline := 0
  invocation := 0
  suspended := false
  deliveries := []

/-- `platform_riscv32_result_t`, with the status that was returned. -/
inductive Riscv32Result where
  | yielded
  | returned (status : BitVec 32)
  | fault
  deriving DecidableEq, Repr

/-- The errors that a service returns before it calls `host_io_call`, and the one for a call that has no result. -/
inductive NetworkError where
  | invalid | offline | io
  deriving DecidableEq, Repr

/-- `-TABOS_EINVAL`, `-TABOS_ENETDOWN` and `-TABOS_EIO` in a register. -/
def networkOperationError : NetworkError → BitVec 32
  | .invalid => -22#32
  | .offline => -115#32
  | .io => -5#32

/-- What comes of an iteration that the context does not decide: whether the string ends, the service is there, it returns early, the job
is started or done, and with what result; what another gate or a batch of instructions does. -/
structure Answer where
  terminated : Bool
  service : Bool
  early : Option NetworkError
  started : Bool
  done : Bool
  result : BitVec 32
  state : MiniRV32IMAState
  executed : Nat
  retry : Bool
  waiting : Bool
  waitDeadline : Nat
  stop : Option Riscv32Result

/-- Whether `guest_string` has a string. -/
def Context.guestString (c : Context) (address : BitVec 32) (terminated : Bool) : Bool :=
  decide (address.toNat < c.memorySize) && terminated

/-- Whether `guest_buffer` has a buffer. -/
def Context.guestBuffer (c : Context) (address : BitVec 32) (capacity : Nat) : Bool :=
  decide (address.toNat ≤ c.memorySize) && decide (capacity ≤ c.memorySize - address.toNat)

/-- A service returns to the guest. -/
def Context.returns (c : Context) (value : BitVec 32) : Context :=
  { c with state := ⟨c.state.regs 1, Function.update c.state.regs 10 value⟩ }

/-- A service that calls `host_io_call`, from the gate to the guest. -/
def Context.networkService (c : Context) (a : Answer) : Context :=
  match a.early with
  | some error => c.returns (networkOperationError error)
  | none =>
    match c.job with
    | some job =>
      if a.done then
        { c.returns a.result with job := none, deliveries := c.deliveries ++ [⟨job, c.state.pc, c.invocation⟩] }
      else { c.returns (networkOperationError .io) with pending := true }
    | none =>
      if a.started then
        { c.returns (networkOperationError .io) with job := some ⟨c.state.pc, c.invocation⟩, pending := true }
      else c.returns (networkOperationError .io)

/-- How an iteration ends: the loop goes on and so much of the budget is spent, or the step ends. -/
inductive Iteration where
  | spent (count : Nat)
  | ends (result : Riscv32Result)
  deriving DecidableEq, Repr

/-- The gate, or the batch of instructions, at the program counter. -/
def Context.gate (c : Context) (a : Answer) : Context × Iteration :=
  if c.state.pc = Gate.hostReturn.address then (c, .ends (.returned (c.state.regs 10)))
  else if c.state.pc = Gate.networkResolve.address then
    if c.guestString (c.state.regs 10) a.terminated && c.guestBuffer (c.state.regs 12) sizeofNetworkAddress && a.service then
      (c.networkService a, .spent 1)
    else (c, .ends .fault)
  else if c.state.pc = Gate.networkEcho.address then
    if c.guestBuffer (c.state.regs 10) sizeofNetworkAddress && c.guestBuffer (c.state.regs 14) sizeofNetworkEchoResult && a.service then
      (c.networkService a, .spent 1)
    else (c, .ends .fault)
  else if c.state.pc = Gate.tlsConnect.address then
    if c.guestString (c.state.regs 10) a.terminated && a.service then (c.networkService a, .spent 1) else (c, .ends .fault)
  else
    ({ c with state := a.state, pending := c.pending || a.retry, waiting := a.waiting, waitDeadline := a.waitDeadline },
      a.stop.elim (.spent (max 1 a.executed)) .ends)

/-- The loop arrives at a program counter: a job of another one is cancelled. -/
def Context.arrive (c : Context) : Context :=
  let moved : Bool := decide (c.state.pc ≠ c.gateState.pc)
  { c with
    retrying := if moved then false else c.retrying
    job := if moved then none else c.job
    gateState := c.state
    invocation := if c.suspended then c.invocation else c.invocation + 1
    suspended := false }

/-- The loop of `step_inner`, with what is left of the budget; an iteration spends one at least. -/
def stepLoop (answers : Nat → Answer) : Nat → Nat → Context → Context × Riscv32Result
  | 0, _, c => (c, .yielded)
  | fuel + 1, left, c =>
    if left = 0 then (c, .yielded)
    else if c.pending then (c, .yielded)
    else
      match c.arrive.gate (answers fuel) with
      | (c', .spent count) => stepLoop answers fuel (left - count) c'
      | (c', .ends result) => (c', result)

/-- `step_inner`. -/
def stepInner (c : Context) (instructionBudget : Nat) (returnedStatus : Bool) (answers : Nat → Answer) : Context × Riscv32Result :=
  if instructionBudget = 0 ∨ returnedStatus = false then (c, .fault) else stepLoop answers instructionBudget instructionBudget c

/-- When a context that was suspended at `now` is to be resumed. -/
def Context.resume (c : Context) (now : Nat) : Nat :=
  let later := if 2 ^ 64 - 1 - now ≤ 10 then 2 ^ 64 - 2 else now + 10
  if c.waiting && decide (c.waitDeadline < later) then c.waitDeadline else later

/-- `platform_riscv32_step`. -/
def platformRiscv32Step (c : Context) (instructionBudget : Nat) (returnedStatus : Bool) (answers : Nat → Answer) (now : Nat) :
    Context × Riscv32Result :=
  match stepInner { c with pending := false } instructionBudget returnedStatus answers with
  | (c', result) =>
    if c'.pending then ({ c' with state := c'.gateState, retrying := true, resumeAt := c'.resume now, suspended := true }, .yielded)
    else ({ c' with resumeAt := 0, job := none }, result)

/-- `platform_riscv32_stop`, and `platform_riscv32_destroy` as far as the job goes. -/
def platformRiscv32Stop (c : Context) : Context := { c with job := none }

/-- What is done to a context. -/
inductive Op where
  | step (instructionBudget : Nat) (returnedStatus : Bool) (answers : Nat → Answer) (now : Nat)
  | stop

def Context.step (c : Context) : Op → Context
  | .step instructionBudget returnedStatus answers now => (platformRiscv32Step c instructionBudget returnedStatus answers now).1
  | .stop => platformRiscv32Stop c

/-! ## The job of a context -/

/-- The program counters whose services call `host_io_call`. -/
def Calls (pc : BitVec 32) : Prop := pc = Gate.networkResolve.address ∨ pc = Gate.networkEcho.address ∨ pc = Gate.tlsConnect.address

/-- What was delivered was started for the gate and the invocation that it was delivered to. -/
def Context.Matched (c : Context) : Prop := ∀ d ∈ c.deliveries, d.job = ⟨d.gate, d.invocation⟩

/-- What is known of the job of a context in the loop: it is of the gate that the context was last at, and of its last invocation while
this is suspended or is to be; else the guest was returned an error, with which it cannot call that gate. -/
def Context.Sound (c : Context) : Prop :=
  ∀ job, c.job = some job → job.gate = c.gateState.pc ∧ Calls job.gate ∧
    ((c.suspended = true ∧ job.invocation = c.invocation ∧ c.state.pc = c.gateState.pc) ∨
      (c.suspended = false ∧ c.pending = true ∧ job.invocation = c.invocation) ∨
      (c.suspended = false ∧ c.pending = false ∧ c.memorySize < (c.state.regs 10).toNat))

/-- What is known of the job of a context between steps. -/
def Context.Rested (c : Context) : Prop :=
  ∀ job, c.job = some job → job.gate = c.gateState.pc ∧ Calls job.gate ∧ c.suspended = true ∧ job.invocation = c.invocation ∧
    c.state.pc = c.gateState.pc

/-- What is known of the job of a context at a gate. -/
structure Context.Arrived (c : Context) : Prop where
  here : c.gateState.pc = c.state.pc
  suspended : c.suspended = false
  pending : c.pending = false
  job : ∀ job, c.job = some job → job.gate = c.state.pc ∧ Calls job.gate ∧
    (job.invocation = c.invocation ∨ c.memorySize < (c.state.regs 10).toNat)

theorem networkOperationError_far (error : NetworkError) : maxRamSize < (networkOperationError error).toNat := by
  cases error <;> decide

/-- The job that a context keeps as it arrives at a gate is of that gate. -/
theorem arrive_arrived {c : Context} (hs : c.Sound) (hp : c.pending = false) : c.arrive.Arrived := by
  refine ⟨rfl, rfl, hp, ?_⟩
  intro job hjob
  by_cases hmoved : c.state.pc = c.gateState.pc
  · have hjob' : c.job = some job := by simpa [Context.arrive, hmoved] using hjob
    obtain ⟨hgate, hcalls, hcase⟩ := hs job hjob'
    refine ⟨hgate.trans hmoved.symm, hcalls, ?_⟩
    rcases hcase with ⟨hsus, hinv, -⟩ | ⟨-, hpend, -⟩ | ⟨-, -, hfar⟩
    · refine .inl ?_
      rw [hinv, Context.arrive]
      simp [hsus]
    · exact absurd (hp.symm.trans hpend) Bool.false_ne_true
    · exact .inr hfar
  · simp [Context.arrive, hmoved] at hjob

/-- A service that the guest could call keeps, starts or delivers a job of its own invocation. -/
theorem networkService_sound {c : Context} (ha : c.Arrived) (hm : c.Matched) (hcalls : Calls c.state.pc)
    (hnear : (c.state.regs 10).toNat ≤ c.memorySize) (a : Answer) : (c.networkService a).Sound ∧ (c.networkService a).Matched := by
  have hfar : ∀ error, c.memorySize < (networkOperationError error).toNat := by
    intro error
    have := networkOperationError_far error
    have := c.fits
    omega
  have hinv : ∀ job, c.job = some job → job.invocation = c.invocation := by
    intro job hjob
    rcases (ha.job job hjob).2.2 with h | h
    · exact h
    · omega
  cases hearly : a.early with
  | some error =>
    simp only [Context.networkService, hearly]
    refine ⟨?_, hm⟩
    intro job hjob
    obtain ⟨hgate, hc, -⟩ := ha.job job hjob
    refine ⟨hgate.trans ha.here.symm, hc, .inr (.inr ⟨ha.suspended, ha.pending, ?_⟩)⟩
    simpa only [Context.returns, Function.update_self] using hfar error
  | none =>
    cases hjob : c.job with
    | some job =>
      obtain ⟨hgate, hc, -⟩ := ha.job job hjob
      simp only [Context.networkService, hearly, hjob]
      split
      · refine ⟨fun _ h => absurd h.symm (Option.some_ne_none _), ?_⟩
        intro d hd
        rcases List.mem_append.1 hd with hd | hd
        · exact hm d hd
        · obtain rfl := List.mem_singleton.1 hd
          obtain ⟨gate, invocation⟩ := job
          exact congrArg₂ Started.mk hgate (hinv _ hjob)
      · refine ⟨?_, hm⟩
        intro other hother
        obtain rfl : job = other := by
          have : c.job = some other := hother
          rw [hjob] at this
          exact Option.some.inj this
        exact ⟨hgate.trans ha.here.symm, hc, .inr (.inl ⟨ha.suspended, rfl, hinv job hjob⟩)⟩
    | none =>
      simp only [Context.networkService, hearly, hjob]
      split
      · refine ⟨?_, hm⟩
        intro other hother
        obtain rfl : ⟨c.state.pc, c.invocation⟩ = other := Option.some.inj hother
        exact ⟨ha.here.symm, hcalls, .inr (.inl ⟨ha.suspended, rfl, rfl⟩)⟩
      · refine ⟨?_, hm⟩
        intro other hother
        have : c.job = some other := hother
        rw [hjob] at this
        exact absurd this.symm (Option.some_ne_none other)

theorem guestString_near {c : Context} {address : BitVec 32} {terminated : Bool} (h : c.guestString address terminated = true) :
    address.toNat ≤ c.memorySize := by
  rw [Context.guestString, Bool.and_eq_true, decide_eq_true_eq] at h
  omega

theorem guestBuffer_near {c : Context} {address : BitVec 32} {capacity : Nat} (h : c.guestBuffer address capacity = true) :
    address.toNat ≤ c.memorySize := by
  rw [Context.guestBuffer, Bool.and_eq_true, decide_eq_true_eq] at h
  omega

/-- What an iteration leaves: a sound context for the next one, and for the end of the step one that is sound if it is to be suspended. -/
def Left : Context × Iteration → Prop
  | (c, .spent _) => c.Sound ∧ c.Matched
  | (c, .ends _) => (c.pending = true → c.Sound) ∧ c.Matched

/-- An iteration at any program counter. -/
theorem gate_left {c : Context} (ha : c.Arrived) (hm : c.Matched) (a : Answer) : Left (c.gate a) := by
  have hstop : ∀ result, Left (c, .ends result) := fun _ => ⟨fun h => absurd (ha.pending.symm.trans h) Bool.false_ne_true, hm⟩
  rw [Context.gate]
  by_cases hreturn : c.state.pc = Gate.hostReturn.address
  · rw [if_pos hreturn]
    exact hstop _
  rw [if_neg hreturn]
  by_cases hresolve : c.state.pc = Gate.networkResolve.address
  · rw [if_pos hresolve]
    split
    · rename_i hguest
      rw [Bool.and_eq_true, Bool.and_eq_true] at hguest
      exact networkService_sound ha hm (.inl hresolve) (guestString_near hguest.1.1) a
    · exact hstop _
  rw [if_neg hresolve]
  by_cases hecho : c.state.pc = Gate.networkEcho.address
  · rw [if_pos hecho]
    split
    · rename_i hguest
      rw [Bool.and_eq_true, Bool.and_eq_true] at hguest
      exact networkService_sound ha hm (.inr (.inl hecho)) (guestBuffer_near hguest.1.1) a
    · exact hstop _
  rw [if_neg hecho]
  by_cases htls : c.state.pc = Gate.tlsConnect.address
  · rw [if_pos htls]
    split
    · rename_i hguest
      rw [Bool.and_eq_true] at hguest
      exact networkService_sound ha hm (.inr (.inr htls)) (guestString_near hguest.1) a
    · exact hstop _
  rw [if_neg htls]
  have hnone : c.job = none := by
    cases hjob : c.job with
    | none => rfl
    | some job =>
      obtain ⟨hgate, hcalls, -⟩ := ha.job job hjob
      rw [hgate] at hcalls
      rcases hcalls with h | h | h
      · exact absurd h hresolve
      · exact absurd h hecho
      · exact absurd h htls
  have hsound : ∀ c' : Context, c'.job = c.job → c'.Sound := by
    intro c' hjob' job hjob
    rw [hjob', hnone] at hjob
    exact absurd hjob.symm (Option.some_ne_none job)
  cases a.stop with
  | none => exact ⟨hsound _ rfl, hm⟩
  | some result => exact ⟨fun _ => hsound _ rfl, hm⟩

/-- The loop delivers a job to the gate and the invocation that it was started for, and leaves a context that can be suspended. -/
theorem stepLoop_sound (answers : Nat → Answer) (fuel left : Nat) {c : Context} (hs : c.Sound) (hm : c.Matched) :
    ((stepLoop answers fuel left c).1.pending = true → (stepLoop answers fuel left c).1.Sound) ∧
      (stepLoop answers fuel left c).1.Matched := by
  induction fuel generalizing left c with
  | zero => exact ⟨fun _ => hs, hm⟩
  | succ fuel ih =>
    rw [stepLoop]
    split
    · exact ⟨fun _ => hs, hm⟩
    · split
      · exact ⟨fun _ => hs, hm⟩
      · rename_i hp
        have hleft := gate_left (arrive_arrived hs (Bool.eq_false_of_not_eq_true hp)) hm (answers fuel)
        split
        · rename_i c' count heq
          rw [heq] at hleft
          exact ih _ hleft.1 hleft.2
        · rename_i c' result heq
          rw [heq] at hleft
          exact hleft

/-- A step, from a context that rests to one that rests. -/
theorem step_rested (c : Context) (op : Op) (h : c.Rested ∧ c.Matched) : (c.step op).Rested ∧ (c.step op).Matched := by
  obtain ⟨hr, hm⟩ := h
  cases op with
  | stop => exact ⟨fun _ h => absurd h.symm (Option.some_ne_none _), hm⟩
  | step instructionBudget returnedStatus answers now =>
    have hs : ({ c with pending := false } : Context).Sound := by
      intro job hjob
      obtain ⟨hgate, hcalls, hsus, hinv, hpc⟩ := hr job hjob
      exact ⟨hgate, hcalls, .inl ⟨hsus, hinv, hpc⟩⟩
    have hinner : ∀ c' result, stepInner { c with pending := false } instructionBudget returnedStatus answers = (c', result) →
        (c'.pending = true → c'.Sound) ∧ c'.Matched := by
      intro c' result heq
      rw [stepInner] at heq
      split at heq
      · obtain ⟨rfl, -⟩ := Prod.mk.inj heq
        exact ⟨fun _ => hs, hm⟩
      · have hloop := stepLoop_sound answers instructionBudget instructionBudget hs hm
        rw [heq] at hloop
        exact hloop
    rw [Context.step, platformRiscv32Step]
    split
    rename_i c' result heq
    obtain ⟨hsound, hm'⟩ := hinner c' result heq
    split
    · rename_i hp
      refine ⟨?_, hm'⟩
      intro job hjob
      obtain ⟨hgate, hcalls, hcase⟩ := hsound hp job hjob
      refine ⟨hgate, hcalls, rfl, ?_, rfl⟩
      rcases hcase with ⟨-, hinv, -⟩ | ⟨-, -, hinv⟩ | ⟨-, hnp, -⟩
      · exact hinv
      · exact hinv
      · exact absurd (hnp.symm.trans hp) Bool.false_ne_true
    · exact ⟨fun _ h => absurd h.symm (Option.some_ne_none _), hm'⟩

/-- Along every run of a context, a job is delivered to the gate and the invocation that it was started for. -/
theorem deliveries_matched (memorySize : Nat) (fits : memorySize ≤ maxRamSize) (state : MiniRV32IMAState) (ops : List Op) :
    (ops.foldl Context.step (.new memorySize fits state)).Matched := by
  have hrun := foldl_invariant (fun c : Context => c.Rested ∧ c.Matched) step_rested ops
    (s := .new memorySize fits state) ⟨fun _ h => absurd h.symm (Option.some_ne_none _), fun _ h => absurd h List.not_mem_nil⟩
  exact hrun.2

/-- The life of the jobs of the host, whatever their scopes and workers do, and the gates that their results are delivered to. -/
theorem host_io_jobs :
    (∀ (n : Nat) (es : List (Event n)), Lifecycle (es.foldl Host.step (Host.initial n))) ∧
    (∀ (n : Nat) (es es' : List (Event n)) (job : Nat), job < (es.foldl Host.step (Host.initial n)).created →
      3 ≤ es'.countP (·.isWork job) → (∀ scope, (((es ++ es').foldl Host.step (Host.initial n)).scopes scope).has ≠ some job) →
      (((es ++ es').foldl Host.step (Host.initial n)).jobs job).frees = 1) ∧
    (∀ (memorySize : Nat) (fits : memorySize ≤ maxRamSize) (state : MiniRV32IMAState) (ops : List Op),
      ∀ d ∈ (ops.foldl Context.step (.new memorySize fits state)).deliveries, d.job = ⟨d.gate, d.invocation⟩) :=
  ⟨lifecycle_run, fun _ es es' _ => freed_run es es', deliveries_matched⟩

end HostIo
end TabOS
