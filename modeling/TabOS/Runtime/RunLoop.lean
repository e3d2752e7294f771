import TabOS.Library.Run
import Mathlib.Data.BitVec
import Mathlib.Logic.Function.Basic

/-!
# The run loop

`platform/esp32p4/runtime.c`: `platform_run` and those that wake it, tasks and interrupts, an atomic operation or a call of the scheduler at
a time, with `kernel_runtime_request_system_action` of `kernel/runtime.c`, which ends it. Whoever has something to say puts its bits into
`runtime_events` and notifies the task of the loop; the loop takes all bits at once. The history variables, which no branch reads, are the
bits that were put in and handed to the update function, and how many updates began after a stop was requested.
-/

namespace TabOS
namespace Runtime

open Library

variable {ν : Type}

/-- The numbers of the bits of `PLATFORM_RUNTIME_EVENT_DEADLINE` and `PLATFORM_RUNTIME_EVENT_SHUTDOWN`. -/
def deadlineBit : Nat := 7
def shutdownBit : Nat := 8

def eventDeadline : BitVec 32 := 0x80
def eventShutdown : BitVec 32 := 0x100

/-- `PLATFORM_RUNTIME_DEADLINE_NONE`. -/
def deadlineNone : Nat := 0xffffffffffffffff

def portMaxDelay : Nat := 0xffffffff

/-- `configTICK_RATE_HZ`: nothing in the repository sets it, so it is the default. -/
def configTickRateHz : Nat := 100

/-- The system actions that can be requested. -/
inductive SystemAction where
  | reboot | powerOff
  deriving DecidableEq, Repr

/-- Where `platform_run` is: before it registers its task; in `platform_runtime_wait_until` before it takes the bits, before it reads the
clock, before it forgets the notification, or waiting; before it looks for a stop, before it calls the update function, in it, before it
looks again, before it asks for the next deadline; before it forgets its task, or returned. -/
inductive Pc where
  | entry | exchange | clock | drain | block | check | call | update | recheck | plan | leave | left
  deriving DecidableEq, Repr

/-- Where a notifier is: outside, in `platform_stop_run_loop` before it requests the stop, or in `platform_runtime_notify` before it puts its
bits in, before it reads the task, or before it notifies the task. -/
inductive Notifier where
  | idle | stop | put (bits : BitVec 32) | load | give
  deriving DecidableEq, Repr

/-- What was put into `runtime_events` and what was handed to the update function. -/
inductive Entry where
  | sent (bits : BitVec 32)
  | handed (bits : BitVec 32)
  deriving DecidableEq, Repr

/-- The variables of the loop. The task is registered or not, its notification value is zero or not, and the time to wait is in ticks, or
none for ever. -/
structure Loop (ν : Type) where
  stopRequested : Bool
  runtimeEvents : BitVec 32
  runtimeTask : Bool
  notified : Bool
  requestedSystemAction : Option SystemAction
  now : Nat
  pc : Pc
  deadline : Nat
  events : BitVec 32
  waitTicks : Option Nat
  notifiers : ν → Notifier
  log : List Entry
  late : Nat

/-- What `platform_init` leaves. -/
def Loop.initial (ν : Type) (now : Nat) : Loop ν where
  stopRequested := false
  runtimeEvents := 0
  runtimeTask := false
  notified := false
  requestedSystemAction := none
  now := now
  pc := .entry
  deadline := 0
  events := 0
  waitTicks := none
  notifiers := fun _ => .idle
  log := []
  late := 0

section
variable (msToTicks : Nat → Nat)

/-- The ticks that `platform_runtime_wait_until` waits; `msToTicks` is `pdMS_TO_TICKS`. -/
def ticksUntil (deadline now : Nat) : Option Nat :=
  if deadline = deadlineNone then none
  else
    let remaining := deadline - now
    let maximum := (portMaxDelay - 1) * 1000 / configTickRateHz
    let ticks := if remaining ≥ maximum then portMaxDelay - 1 else msToTicks remaining
    some (if ticks = 0 then 1 else ticks)

/-- The loop goes on by a step; `next` is what the deadline function says. -/
def Loop.go (c : Loop ν) (next : Nat) : Loop ν :=
  match c.pc with
  | .entry => { c with runtimeTask := true, deadline := c.now, pc := .exchange }
  | .exchange => { c with events := c.runtimeEvents, runtimeEvents := 0, pc := .clock }
  | .clock =>
    let events := if c.deadline ≠ deadlineNone ∧ c.now ≥ c.deadline then c.events ||| eventDeadline else c.events
    if events ≠ 0 then { c with events := events, pc := .drain }
    else { c with events := events, waitTicks := ticksUntil msToTicks c.deadline c.now, pc := .block }
  | .drain => { c with notified := false, pc := .check }
  | .block => if c.notified then { c with notified := false, pc := .exchange } else c
  | .check => { c with pc := if c.stopRequested then .leave else .call }
  | .call => { c with log := c.log ++ [.handed c.events], late := if c.stopRequested then c.late + 1 else c.late, pc := .update }
  | .update => { c with pc := .recheck }
  | .recheck => { c with pc := if c.stopRequested then .check else .plan }
  | .plan => { c with deadline := next, pc := .exchange }
  | .leave => { c with runtimeTask := false, pc := .left }
  | .left => c

variable [DecidableEq ν]

def Loop.setNotifier (c : Loop ν) (n : ν) (notifier : Notifier) : Loop ν :=
  { c with notifiers := Function.update c.notifiers n notifier }

/-- A notifier goes on by a step. -/
def Loop.goNotifier (c : Loop ν) (n : ν) : Loop ν :=
  match c.notifiers n with
  | .idle => c
  | .stop => { c.setNotifier n (.put eventShutdown) with stopRequested := true }
  | .put bits => { c.setNotifier n .load with runtimeEvents := c.runtimeEvents ||| bits, log := c.log ++ [.sent bits] }
  | .load => c.setNotifier n (if c.runtimeTask then .give else .idle)
  | .give => { c.setNotifier n .idle with notified := true }

/-- What happens next: the loop goes on, its wait times out, time passes, or a notifier calls `platform_runtime_notify`,
`platform_stop_run_loop` or `kernel_runtime_request_system_action`, or goes on. -/
inductive Event (ν : Type) where
  | loop (next : Nat)
  | timeout
  | pass (ms : Nat)
  | notify (n : ν) (bits : BitVec 32)
  | stop (n : ν)
  | request (n : ν) (action : SystemAction)
  | notifier (n : ν)

def Loop.step (c : Loop ν) : Event ν → Loop ν
  | .loop next => c.go msToTicks next
  | .timeout => if c.pc = .block ∧ c.waitTicks.isSome then { c with notified := false, pc := .exchange } else c
  | .pass ms => { c with now := c.now + ms }
  | .notify n bits => if c.notifiers n = .idle ∧ bits ≠ 0 then c.setNotifier n (.put bits) else c
  | .stop n => if c.notifiers n = .idle then c.setNotifier n .stop else c
  | .request n action =>
    if c.notifiers n = .idle ∧ c.requestedSystemAction = none then
      { c.setNotifier n .stop with requestedSystemAction := some action }
    else c
  | .notifier n => c.goNotifier n

def run (now : Nat) (events : List (Event ν)) : Loop ν := events.foldl (Loop.step msToTicks) (.initial ν now)

end

/-! ## What is known -/

/-- No update that began since the bit was last put in was told of it. -/
def owes (log : List Entry) (k : Nat) : Bool :=
  log.foldl (fun owed entry =>
    match entry with
    | .sent bits => owed || bits.getLsbD k
    | .handed bits => owed && !bits.getLsbD k) false

/-- How often a bit was put in, and how many updates were told of it. -/
def sentCount (log : List Entry) (k : Nat) : Nat :=
  log.countP (fun entry => match entry with | .sent bits => bits.getLsbD k | .handed _ => false)

def handedCount (log : List Entry) (k : Nat) : Nat :=
  log.countP (fun entry => match entry with | .sent _ => false | .handed bits => bits.getLsbD k)

/-- The loop has taken the bit and will hand it on. -/
def Loop.holds (c : Loop ν) (k : Nat) : Bool :=
  (match c.pc with
    | .clock | .drain | .call => true
    | .check => !c.stopRequested
    | _ => false) && c.events.getLsbD k

/-- The loop waits and has not been notified. -/
def Loop.asleep (c : Loop ν) : Prop := c.pc = .block ∧ c.notified = false

instance (c : Loop ν) : Decidable c.asleep := inferInstanceAs (Decidable (_ ∧ _))

/-- The loop can come to wait without looking for a stop. -/
def Pc.committed : Pc → Bool
  | .entry | .plan | .exchange | .clock | .block => true
  | _ => false

/-- Until a stop is requested, every bit put in and not handed on is in `runtime_events` or in the hands of the loop. An update is told of
something, and each bit but the deadline's is told at most as often as it was put in. -/
structure Accounts (c : Loop ν) : Prop where
  accounted : c.stopRequested = false → ∀ k, owes c.log k = true → c.runtimeEvents.getLsbD k = true ∨ c.holds k = true
  counted : ∀ k, k ≠ deadlineBit →
    handedCount c.log k + (c.runtimeEvents.getLsbD k).toNat + (c.holds k).toNat ≤ sentCount c.log k
  some : c.pc = .drain ∨ c.pc = .check ∧ c.stopRequested = false ∨ c.pc = .call → c.events ≠ 0
  told : ∀ bits, .handed bits ∈ c.log → bits ≠ 0

/-- A loop that waits beside bits has been notified or is about to be. -/
structure Wakes (c : Loop ν) : Prop where
  task : c.runtimeTask = true ↔ c.pc ≠ .entry ∧ c.pc ≠ .left
  wake : c.pc = .clock ∨ c.pc = .block → c.notified = false → c.runtimeEvents ≠ 0 → ∃ n, c.notifiers n = .load ∨ c.notifiers n = .give

/-- A stop stays visible to the loop, which begins at most one update after it. -/
structure Stops (c : Loop ν) : Prop where
  stopping : c.stopRequested = true → c.pc.committed = true →
    (∃ n, c.notifiers n = .put eventShutdown) ∨ c.runtimeEvents.getLsbD shutdownBit = true ∨
      c.pc = .clock ∧ c.events.getLsbD shutdownBit = true
  early : c.stopRequested = false → c.late = 0
  late : c.late + (if c.stopRequested = true ∧ c.pc = .call then 1 else 0) ≤ 1
  action : c.requestedSystemAction.isSome = true → c.stopRequested = true ∨ ∃ n, c.notifiers n = .stop

@[simp] theorem owes_nil (k : Nat) : owes [] k = false := rfl

@[simp] theorem owes_sent (log : List Entry) (bits : BitVec 32) (k : Nat) :
    owes (log ++ [.sent bits]) k = (owes log k || bits.getLsbD k) := by
  simp [owes]

@[simp] theorem owes_handed (log : List Entry) (bits : BitVec 32) (k : Nat) :
    owes (log ++ [.handed bits]) k = (owes log k && !bits.getLsbD k) := by
  simp [owes]

@[simp] theorem sentCount_sent (log : List Entry) (bits : BitVec 32) (k : Nat) :
    sentCount (log ++ [.sent bits]) k = sentCount log k + (bits.getLsbD k).toNat := by
  cases h : bits.getLsbD k <;> simp [sentCount, h]

@[simp] theorem sentCount_handed (log : List Entry) (bits : BitVec 32) (k : Nat) :
    sentCount (log ++ [.handed bits]) k = sentCount log k := by
  simp [sentCount]

@[simp] theorem handedCount_sent (log : List Entry) (bits : BitVec 32) (k : Nat) :
    handedCount (log ++ [.sent bits]) k = handedCount log k := by
  simp [handedCount]

@[simp] theorem handedCount_handed (log : List Entry) (bits : BitVec 32) (k : Nat) :
    handedCount (log ++ [.handed bits]) k = handedCount log k + (bits.getLsbD k).toNat := by
  cases h : bits.getLsbD k <;> simp [handedCount, h]

/-! ## One step of the loop -/

/-- The deadline's bit is the only one that the loop adds. -/
theorem eventDeadline_getLsbD {k : Nat} (h : k ≠ deadlineBit) : eventDeadline.getLsbD k = false := by
  have hbit : eventDeadline = BitVec.twoPow 32 deadlineBit := by decide
  rw [hbit, BitVec.getLsbD_twoPow]
  simp [Ne.symm h]

theorem or_eventDeadline_ne_zero (bits : BitVec 32) : bits ||| eventDeadline ≠ 0 := by
  intro hzero
  have hbit := congrArg (BitVec.getLsbD · deadlineBit) hzero
  have hdeadline : eventDeadline.getLsbD deadlineBit = true := by decide
  simp [hdeadline] at hbit

theorem toNat_or_le (a b : Bool) : (a || b).toNat ≤ a.toNat + b.toNat := by
  cases a <;> cases b <;> decide

section
variable (msToTicks : Nat → Nat)

theorem Accounts.go {c : Loop ν} (h : Accounts c) (next : Nat) : Accounts (c.go msToTicks next) := by
  obtain ⟨haccounted, hcounted, hsome, htold⟩ := h
  cases hpc : c.pc with
  | entry | exchange | update | plan | leave | left =>
    constructor <;> simp_all [Loop.go, Loop.holds]
  | clock =>
    have hadded : ∀ k, k ≠ deadlineBit → (c.events ||| eventDeadline).getLsbD k = c.events.getLsbD k := by
      intro k hk
      rw [BitVec.getLsbD_or, eventDeadline_getLsbD hk, Bool.or_false]
    simp only [Loop.holds, hpc, Bool.true_and] at haccounted hcounted
    simp only [Loop.go, hpc]
    split_ifs with hdue hevents hevents
    · refine ⟨?_, ?_, fun _ => hevents, htold⟩
      · intro hstop k howes
        rcases haccounted hstop k howes with hk | hk
        · exact .inl hk
        · exact .inr (by simp [Loop.holds, hk])
      · intro k hk
        simpa only [Loop.holds, Bool.true_and, hadded k hk] using hcounted k hk
    · exact absurd (or_eventDeadline_ne_zero c.events) hevents
    · exact ⟨by simpa [Loop.holds] using haccounted, by simpa [Loop.holds] using hcounted, fun _ => hevents, htold⟩
    · have hzero : c.events = 0 := by simpa using hevents
      simp only [hzero] at haccounted hcounted
      exact ⟨by simpa [Loop.holds] using haccounted, by simpa [Loop.holds] using hcounted, by simp, htold⟩
  | drain =>
    simp only [Loop.holds, hpc, Bool.true_and] at haccounted hcounted
    simp only [Loop.go, hpc]
    refine ⟨?_, ?_, fun _ => hsome (.inl hpc), htold⟩
    · intro (hstop : c.stopRequested = false)
      simpa [Loop.holds, hstop] using haccounted hstop
    · intro k hk
      have hkept := Bool.toNat_le_toNat (Bool.and_le_right (!c.stopRequested) (c.events.getLsbD k))
      have hbound := hcounted k hk
      simp only [Loop.holds]
      omega
  | block =>
    simp only [Loop.go, hpc]
    split_ifs with hnotified
    · constructor <;> simp_all [Loop.holds]
    · exact ⟨haccounted, hcounted, hsome, htold⟩
  | check | recheck =>
    simp only [Loop.go, hpc]
    split_ifs with hstop <;> constructor <;> simp_all [Loop.holds]
  | call =>
    have hne : c.events ≠ 0 := hsome (by simp [hpc])
    simp only [Loop.holds, hpc, Bool.true_and] at haccounted hcounted
    simp only [Loop.go, hpc]
    refine ⟨?_, ?_, by simp, ?_⟩
    · intro hstop k howes
      simp only [owes_handed, Bool.and_eq_true, Bool.not_eq_true'] at howes
      rcases haccounted hstop k howes.1 with hk | hk
      · exact .inl hk
      · exact absurd hk (by simp [howes.2])
    · intro k hk
      have hbound := hcounted k hk
      simp only [handedCount_handed, sentCount_handed, Loop.holds, Bool.false_and, Bool.toNat_false]
      omega
    · intro bits hbits
      rcases List.mem_append.1 hbits with hbits | hbits
      · exact htold bits hbits
      · obtain rfl : bits = c.events := by simpa using hbits
        exact hne

theorem Wakes.go {c : Loop ν} (h : Wakes c) (next : Nat) : Wakes (c.go msToTicks next) := by
  obtain ⟨htask, hwake⟩ := h
  cases hpc : c.pc with
  | entry | exchange | drain | call | update | plan | leave | left =>
    constructor <;> simp_all [Loop.go]
  | clock =>
    simp only [Loop.go, hpc]
    split_ifs
    all_goals constructor <;> simp_all
  | block | check | recheck =>
    simp only [Loop.go, hpc]
    split_ifs <;> constructor <;> simp_all

theorem Stops.go {c : Loop ν} (h : Stops c) (next : Nat) : Stops (c.go msToTicks next) := by
  obtain ⟨hstopping, hearly, hlate, haction⟩ := h
  cases hpc : c.pc with
  | entry | exchange | drain | update | plan | leave | left =>
    constructor <;> simp_all [Loop.go, Pc.committed]
  | call =>
    by_cases hstop : c.stopRequested = true
    all_goals constructor <;> simp_all [Loop.go, Pc.committed]
  | clock =>
    simp only [Loop.go, hpc]
    split_ifs
    all_goals constructor <;> simp_all [Pc.committed]
  | block | check | recheck =>
    simp only [Loop.go, hpc]
    split_ifs <;> constructor <;> simp_all [Pc.committed]

end

/-! ## One step of a notifier -/

/-- A stop takes bits out of the hands of the loop at most. -/
theorem holds_stop_le (c : Loop ν) (notifiers : ν → Notifier) (k : Nat) :
    ({ c with stopRequested := true, notifiers := notifiers } : Loop ν).holds k ≤ c.holds k := by
  cases hpc : c.pc <;> simp [Loop.holds, hpc]

section
variable [DecidableEq ν]

@[simp] theorem setNotifier_self (c : Loop ν) (n : ν) (notifier : Notifier) :
    (c.setNotifier n notifier).notifiers n = notifier := by
  simp [Loop.setNotifier]

theorem setNotifier_ne (c : Loop ν) {n m : ν} (h : m ≠ n) (notifier : Notifier) :
    (c.setNotifier n notifier).notifiers m = c.notifiers m := by
  simp [Loop.setNotifier, h]

/-- A notifier that goes on leaves the others where they are. -/
theorem exists_notifier_of_ne {c : Loop ν} {n : ν} {P : Notifier → Prop} (h : ∃ m, P (c.notifiers m)) (hn : ¬P (c.notifiers n))
    (notifier : Notifier) : ∃ m, P ((c.setNotifier n notifier).notifiers m) := by
  obtain ⟨m, hm⟩ := h
  have hne : m ≠ n := by
    rintro rfl
    exact hn hm
  exact ⟨m, by rwa [setNotifier_ne c hne]⟩

theorem Accounts.goNotifier {c : Loop ν} (h : Accounts c) (n : ν) : Accounts (c.goNotifier n) := by
  obtain ⟨haccounted, hcounted, hsome, htold⟩ := h
  unfold Loop.goNotifier
  cases hn : c.notifiers n with
  | idle | load | give => exact ⟨haccounted, hcounted, hsome, htold⟩
  | stop =>
    refine ⟨by simp, ?_, ?_, htold⟩
    · intro k hk
      have hbound := hcounted k hk
      have hless := Bool.toNat_le_toNat (holds_stop_le c (c.setNotifier n (.put eventShutdown)).notifiers k)
      simp only [Loop.setNotifier] at hless ⊢
      omega
    · intro hpc
      simp only [Loop.setNotifier, Bool.true_eq_false, and_false, false_or] at hpc
      exact hsome (by tauto)
  | put bits =>
    refine ⟨?_, ?_, hsome, ?_⟩
    · intro hstop k howes
      simp only [owes_sent, Bool.or_eq_true] at howes
      rcases howes with howes | hk
      · rcases haccounted hstop k howes with hk | hk
        · exact .inl (by simp [hk])
        · exact .inr hk
      · exact .inl (by simp [hk])
    · intro k hk
      have hbound := hcounted k hk
      have hput := toNat_or_le (c.runtimeEvents.getLsbD k) (bits.getLsbD k)
      have hholds : ({ c.setNotifier n .load with runtimeEvents := c.runtimeEvents ||| bits, log := c.log ++ [.sent bits] } : Loop ν).holds k =
          c.holds k := rfl
      simp only [handedCount_sent, sentCount_sent, BitVec.getLsbD_or, hholds]
      omega
    · simpa using htold

theorem Wakes.setNotifier {c : Loop ν} (h : Wakes c) {n : ν} (hn : ¬(c.notifiers n = .load ∨ c.notifiers n = .give))
    (notifier : Notifier) : Wakes (c.setNotifier n notifier) :=
  ⟨h.task, fun hpc hnotified hevents => exists_notifier_of_ne (P := fun m => m = .load ∨ m = .give) (h.wake hpc hnotified hevents) hn notifier⟩

theorem Wakes.goNotifier {c : Loop ν} (h : Wakes c) (n : ν) : Wakes (c.goNotifier n) := by
  unfold Loop.goNotifier
  cases hn : c.notifiers n with
  | idle => exact h
  | stop =>
    have hset := h.setNotifier (n := n) (by simp [hn]) (.put eventShutdown)
    exact ⟨hset.task, hset.wake⟩
  | put bits => exact ⟨h.task, fun _ _ _ => ⟨n, by simp⟩⟩
  | load =>
    by_cases htask : c.runtimeTask = true
    · rw [if_pos htask]
      exact ⟨h.task, fun _ _ _ => ⟨n, by simp⟩⟩
    · rw [if_neg htask]
      refine ⟨h.task, fun hpc _ _ => absurd (h.task.2 ?_) htask⟩
      rcases hpc with hpc | hpc <;> simp_all [Loop.setNotifier]
  | give => exact ⟨h.task, by simp⟩

theorem Stops.setNotifier {c : Loop ν} (h : Stops c) {n : ν} (hput : c.notifiers n ≠ .put eventShutdown) (hstop : c.notifiers n ≠ .stop)
    (notifier : Notifier) : Stops (c.setNotifier n notifier) := by
  refine ⟨?_, h.early, h.late, ?_⟩
  · intro hrequested hpc
    rcases h.stopping hrequested hpc with hm | hvisible
    · exact .inl (exists_notifier_of_ne (P := (· = .put eventShutdown)) hm hput notifier)
    · exact .inr hvisible
  · intro hsome
    rcases h.action hsome with hrequested | hm
    · exact .inl hrequested
    · exact .inr (exists_notifier_of_ne (P := (· = .stop)) hm hstop notifier)

theorem Stops.goNotifier {c : Loop ν} (h : Stops c) (n : ν) : Stops (c.goNotifier n) := by
  unfold Loop.goNotifier
  cases hn : c.notifiers n with
  | idle => exact h
  | stop =>
    refine ⟨fun _ _ => .inl ⟨n, by simp⟩, by simp, ?_, by simp⟩
    have hlate := h.late
    have hearly := h.early
    cases hstop : c.stopRequested <;> simp_all [Loop.setNotifier]
    split_ifs <;> decide
  | put bits =>
    by_cases hshutdown : bits = eventShutdown
    · refine ⟨fun _ _ => .inr (.inl ?_), h.early, h.late, ?_⟩
      · have hbit : eventShutdown.getLsbD shutdownBit = true := by decide
        simp [hshutdown, hbit]
      · intro hsome
        rcases h.action hsome with hrequested | hm
        · exact .inl hrequested
        · exact .inr (exists_notifier_of_ne (P := (· = .stop)) hm (by simp [hn]) _)
    · have hset := h.setNotifier (n := n) (by simp [hn, hshutdown]) (by simp [hn]) .load
      refine ⟨?_, hset.early, hset.late, hset.action⟩
      intro hrequested hpc
      rcases hset.stopping hrequested hpc with hm | hbit | hevents
      · exact .inl hm
      · exact .inr (.inl (by simp_all [Loop.setNotifier]))
      · exact .inr (.inr hevents)
  | load => exact h.setNotifier (by simp [hn]) (by simp [hn]) _
  | give =>
    have hset := h.setNotifier (n := n) (by simp [hn]) (by simp [hn]) .idle
    exact ⟨hset.stopping, hset.early, hset.late, hset.action⟩

end

/-! ## One step -/

section
variable (msToTicks : Nat → Nat) [DecidableEq ν]

theorem Accounts.step {c : Loop ν} (h : Accounts c) (event : Event ν) : Accounts (c.step msToTicks event) := by
  cases event with
  | loop next => exact h.go msToTicks next
  | timeout =>
    simp only [Loop.step]
    split_ifs with hblock
    · obtain ⟨haccounted, hcounted, hsome, htold⟩ := h
      simp only [Loop.holds, hblock.1, Bool.false_and] at haccounted hcounted
      exact ⟨by simpa [Loop.holds] using haccounted, by simpa [Loop.holds] using hcounted, by simp, htold⟩
    · exact h
  | pass ms => exact ⟨h.accounted, h.counted, h.some, h.told⟩
  | notify n bits =>
    simp only [Loop.step]
    split_ifs
    · exact ⟨h.accounted, h.counted, h.some, h.told⟩
    · exact h
  | stop n =>
    simp only [Loop.step]
    split_ifs
    · exact ⟨h.accounted, h.counted, h.some, h.told⟩
    · exact h
  | request n action =>
    simp only [Loop.step]
    split_ifs
    · exact ⟨h.accounted, h.counted, h.some, h.told⟩
    · exact h
  | notifier n => exact h.goNotifier n

theorem Wakes.step {c : Loop ν} (h : Wakes c) (event : Event ν) : Wakes (c.step msToTicks event) := by
  cases event with
  | loop next => exact h.go msToTicks next
  | timeout =>
    simp only [Loop.step]
    split_ifs with hblock
    · obtain ⟨htask, hwake⟩ := h
      constructor <;> simp_all
    · exact h
  | pass ms => exact ⟨h.task, h.wake⟩
  | notify n bits =>
    simp only [Loop.step]
    split_ifs with hidle
    · exact h.setNotifier (by simp [hidle.1]) _
    · exact h
  | stop n =>
    simp only [Loop.step]
    split_ifs with hidle
    · exact h.setNotifier (by simp [hidle]) _
    · exact h
  | request n action =>
    simp only [Loop.step]
    split_ifs with hidle
    · have hset := h.setNotifier (n := n) (by simp [hidle.1]) .stop
      exact ⟨hset.task, hset.wake⟩
    · exact h
  | notifier n => exact h.goNotifier n

theorem Stops.step {c : Loop ν} (h : Stops c) (event : Event ν) : Stops (c.step msToTicks event) := by
  cases event with
  | loop next => exact h.go msToTicks next
  | timeout =>
    simp only [Loop.step]
    split_ifs with hblock
    · obtain ⟨hstopping, hearly, hlate, haction⟩ := h
      constructor <;> simp_all [Pc.committed]
    · exact h
  | pass ms => exact ⟨h.stopping, h.early, h.late, h.action⟩
  | notify n bits =>
    simp only [Loop.step]
    split_ifs with hidle
    · exact h.setNotifier (by simp [hidle.1]) (by simp [hidle.1]) _
    · exact h
  | stop n =>
    simp only [Loop.step]
    split_ifs with hidle
    · exact h.setNotifier (by simp [hidle]) (by simp [hidle]) _
    · exact h
  | request n action =>
    simp only [Loop.step]
    split_ifs with hidle
    · have hset := h.setNotifier (n := n) (by simp [hidle.1]) (by simp [hidle.1]) .stop
      exact ⟨hset.stopping, hset.early, hset.late, fun _ => .inr ⟨n, by simp⟩⟩
    · exact h
  | notifier n => exact h.goNotifier n

/-! ## A run -/

theorem accounts_run (now : Nat) (events : List (Event ν)) : Accounts (run msToTicks now events) :=
  foldl_invariant Accounts (fun _ event h => h.step msToTicks event) events
    ⟨by simp [Loop.initial], by simp [Loop.initial, Loop.holds, handedCount, sentCount], by simp [Loop.initial], by simp [Loop.initial]⟩

theorem wakes_run (now : Nat) (events : List (Event ν)) : Wakes (run msToTicks now events) :=
  foldl_invariant Wakes (fun _ event h => h.step msToTicks event) events ⟨by simp [Loop.initial], by simp [Loop.initial]⟩

theorem stops_run (now : Nat) (events : List (Event ν)) : Stops (run msToTicks now events) :=
  foldl_invariant Stops (fun _ event h => h.step msToTicks event) events
    ⟨by simp [Loop.initial], by simp [Loop.initial], by simp [Loop.initial], by simp [Loop.initial]⟩

/-- What the loop knows where it waits: when it looked at the clock the deadline had not come, and it waits for the rest. -/
def Waits (c : Loop ν) : Prop :=
  c.pc = .block → ∃ read ≤ c.now, (c.deadline ≠ deadlineNone → read < c.deadline) ∧ c.waitTicks = ticksUntil msToTicks c.deadline read

theorem Waits.step {c : Loop ν} (h : Waits msToTicks c) (event : Event ν) : Waits msToTicks (c.step msToTicks event) := by
  cases event with
  | loop next =>
    simp only [Loop.step]
    cases hpc : c.pc with
    | clock =>
      simp only [Loop.go, hpc]
      split_ifs with hdue
      · simp [Waits]
      · exact absurd (or_eventDeadline_ne_zero c.events) (by assumption)
      · simp [Waits]
      · exact fun _ => ⟨c.now, le_refl _, by simpa using hdue, rfl⟩
    | block =>
      simp only [Loop.go, hpc]
      split_ifs
      · simp [Waits]
      · exact h
    | check | recheck =>
      simp only [Loop.go, hpc, Waits]
      split_ifs <;> simp
    | _ => simp [Loop.go, hpc, Waits]
  | timeout =>
    simp only [Loop.step]
    split_ifs
    · simp [Waits]
    · exact h
  | pass ms =>
    intro hblock
    obtain ⟨read, hread, hwait⟩ := h hblock
    exact ⟨read, Nat.le_add_right_of_le hread, hwait⟩
  | notify n bits | stop n | request n action =>
    simp only [Loop.step]
    split_ifs
    · exact h
    · exact h
  | notifier n =>
    simp only [Loop.step, Loop.goNotifier]
    cases hn : c.notifiers n <;> exact h

theorem waits_run (now : Nat) (events : List (Event ν)) : Waits msToTicks (run msToTicks now events) :=
  foldl_invariant (Waits msToTicks) (fun _ event h => h.step msToTicks event) events (by simp [Waits, Loop.initial])

/-- The wait is none but for no deadline, is a tick at least, and ends by the deadline if it is longer. -/
theorem ticksUntil_within (hticks : ∀ ms, msToTicks ms * 1000 ≤ ms * configTickRateHz) {deadline read ticks : Nat}
    (h : ticksUntil msToTicks deadline read = some ticks) :
    0 < ticks ∧ ticks < portMaxDelay ∧ (ticks = 1 ∨ ticks * 1000 ≤ (deadline - read) * configTickRateHz) := by
  have hbound := hticks (deadline - read)
  have hmaximum : (portMaxDelay - 1) * 1000 / configTickRateHz = 42949672940 := rfl
  have hdelay : portMaxDelay = 4294967295 := rfl
  have hrate : configTickRateHz = 100 := rfl
  simp only [ticksUntil, hmaximum] at h
  rw [hrate] at hbound ⊢
  split_ifs at h <;> simp only [Option.some.injEq] at h <;> omega

theorem ticksUntil_eq_none_iff {deadline read : Nat} : ticksUntil msToTicks deadline read = none ↔ deadline = deadlineNone := by
  simp only [ticksUntil]
  split_ifs with h <;> simp [h]

/-- Whatever the tasks, the interrupts and the loop do in whatever order: until a stop is requested, an event that no update was told of
since it was put in is still there or in the hands of the loop, and no update is told of nothing or of an event more often than it was put
in. The loop does not sleep over an event: while it waits beside one, a notification is on its way. And it sleeps for ever only without a
deadline, else by a tick or no longer than to the deadline. -/
theorem wakes_kept (hticks : ∀ ms, msToTicks ms * 1000 ≤ ms * configTickRateHz) (now : Nat) (events : List (Event ν)) :
    let c := run msToTicks now events
    (c.stopRequested = false → ∀ k, owes c.log k = true → c.runtimeEvents.getLsbD k = true ∨ c.holds k = true) ∧
      (∀ k, k ≠ deadlineBit → handedCount c.log k ≤ sentCount c.log k) ∧
      (∀ bits, .handed bits ∈ c.log → bits ≠ 0) ∧
      (c.asleep → (∃ n, c.notifiers n = .load ∨ c.notifiers n = .give) ∨
        c.runtimeEvents = 0 ∧ (c.stopRequested = false → ∀ k, owes c.log k = false)) ∧
      (c.pc = .block → (c.waitTicks = none ↔ c.deadline = deadlineNone) ∧
        ∀ ticks, c.waitTicks = some ticks → 0 < ticks ∧ ticks < portMaxDelay ∧
          (ticks = 1 ∨ ∃ read ≤ c.now, read < c.deadline ∧ ticks * 1000 ≤ (c.deadline - read) * configTickRateHz)) := by
  intro c
  have haccounts : Accounts c := accounts_run msToTicks now events
  have hwakes : Wakes c := wakes_run msToTicks now events
  have hwaits : Waits msToTicks c := waits_run msToTicks now events
  refine ⟨haccounts.accounted, ?_, haccounts.told, ?_, ?_⟩
  · intro k hk
    have hcounted := haccounts.counted k hk
    omega
  · intro ⟨hblock, hnotified⟩
    by_cases hevents : c.runtimeEvents = 0
    · refine .inr ⟨hevents, fun hstop k => ?_⟩
      rw [← Bool.not_eq_true]
      intro howes
      rcases haccounts.accounted hstop k howes with hk | hk
      · simp [hevents] at hk
      · simp [Loop.holds, hblock] at hk
    · exact .inl (hwakes.wake (.inr hblock) hnotified hevents)
  · intro hblock
    obtain ⟨read, hread, hbefore, hwait⟩ := hwaits hblock
    rw [hwait]
    refine ⟨ticksUntil_eq_none_iff msToTicks, ?_⟩
    intro ticks hsome
    obtain ⟨hpos, hmax, hwithin⟩ := ticksUntil_within msToTicks hticks hsome
    refine ⟨hpos, hmax, hwithin.imp_right fun hwithin => ⟨read, hread, hbefore ?_, hwithin⟩⟩
    intro hnone
    rw [(ticksUntil_eq_none_iff msToTicks).2 hnone] at hsome
    simp at hsome

/-- The bits come when the loop has taken what there was and before it waits. -/
theorem wakes_kept_after_exchange :
    let events : List (Event Unit) := [.loop 0, .loop 0, .loop 0, .loop 0, .loop 0, .loop 0, .loop 0, .loop 0, .loop 50, .loop 0,
      .notify () 1, .notifier (), .loop 0]
    let c := run (fun ms => ms * 100 / 1000) 0 events
    c.asleep ∧ ∃ n, c.notifiers n = .load ∨ c.notifiers n = .give := by
  intro events c
  have hasleep : c.asleep := by decide
  rcases (wakes_kept (fun ms => ms * 100 / 1000) (fun ms => Nat.div_mul_le_self _ _) 0 events).2.2.2.1 hasleep with hway | hnothing
  · exact ⟨hasleep, hway⟩
  · exact absurd hnothing.1 (by decide)

end

/-! ## The end -/

section
variable (msToTicks : Nat → Nat)

/-- How many steps of the loop it is to the end at most once a stop is requested. -/
def Loop.distance (c : Loop ν) : Nat :=
  match c.pc with
  | .entry | .plan | .block => 6
  | .exchange | .call => 5
  | .clock => if c.events.getLsbD shutdownBit then 4 else 7
  | .update => 4
  | .drain | .recheck => 3
  | .check => 2
  | .leave => 1
  | .left => 0

/-- A stop is requested and the loop cannot come to wait without finding its bit. -/
structure Stopped (c : Loop ν) : Prop where
  requested : c.stopRequested = true
  visible : c.pc.committed = true → c.runtimeEvents.getLsbD shutdownBit = true ∨ c.pc = .clock ∧ c.events.getLsbD shutdownBit = true

theorem Stopped.go {c : Loop ν} (h : Stopped c) (next : Nat) :
    Stopped (c.go msToTicks next) ∧ (c.go msToTicks next).distance ≤ c.distance - (if c.asleep then 0 else 1) := by
  obtain ⟨hrequested, hvisible⟩ := h
  cases hpc : c.pc with
  | entry | exchange | drain | call | update | plan | leave | left =>
    refine ⟨?_, ?_⟩
    · constructor <;> simp_all [Loop.go, Pc.committed]
    · simp_all [Loop.go, Loop.distance, Loop.asleep, Pc.committed]
  | clock =>
    have hawake : ¬c.asleep := by simp [Loop.asleep, hpc]
    have hbit : c.runtimeEvents.getLsbD shutdownBit = true ∨ c.events.getLsbD shutdownBit = true := by
      simpa [hpc] using hvisible (by simp [hpc, Pc.committed])
    rw [if_neg hawake]
    simp only [Loop.go, hpc]
    split_ifs with hdue hevents hevents
    · refine ⟨⟨hrequested, by simp [Pc.committed]⟩, ?_⟩
      simp only [Loop.distance, hpc]
      split_ifs <;> decide
    · exact absurd (or_eventDeadline_ne_zero c.events) hevents
    · refine ⟨⟨hrequested, by simp [Pc.committed]⟩, ?_⟩
      simp only [Loop.distance, hpc]
      split_ifs <;> decide
    · have hzero : c.events = 0 := by simpa using hevents
      have hleft : c.runtimeEvents.getLsbD shutdownBit = true := by simpa [hzero] using hbit
      exact ⟨⟨hrequested, fun _ => .inl hleft⟩, by simp [Loop.distance, hpc, hzero]⟩
  | block =>
    have hleft : c.runtimeEvents.getLsbD shutdownBit = true := by
      simpa [hpc] using hvisible (by simp [hpc, Pc.committed])
    simp only [Loop.go, hpc]
    split_ifs with hnotified hasleep hasleep
    · simp [Loop.asleep, hnotified] at hasleep
    · exact ⟨⟨hrequested, fun _ => .inl hleft⟩, by simp [Loop.distance, hpc]⟩
    · exact ⟨⟨hrequested, hvisible⟩, by simp⟩
    · exact absurd ⟨hpc, by simpa using hnotified⟩ hasleep
  | check | recheck =>
    simp only [Loop.go, hpc]
    rw [if_pos hrequested]
    refine ⟨?_, by simp [Loop.distance, Loop.asleep, hpc]⟩
    constructor <;> simp_all [Pc.committed]

theorem Loop.distance_le (c : Loop ν) : c.distance ≤ 7 := by
  unfold Loop.distance
  cases c.pc <;> dsimp only <;> try split_ifs
  all_goals decide

theorem Loop.left_of_distance {c : Loop ν} (h : c.distance = 0) : c.pc = .left := by
  unfold Loop.distance at h
  cases hpc : c.pc with
  | clock =>
    simp only [hpc] at h
    split_ifs at h
  | left => rfl
  | _ => simp [hpc] at h

end

section
variable (msToTicks : Nat → Nat) [DecidableEq ν]

/-- How many steps of the loop are in the events, but for those it sleeps at. -/
def awakeSteps : Loop ν → List (Event ν) → Nat
  | _, [] => 0
  | c, event :: events =>
    (match event with
      | .loop _ => if c.asleep then 0 else 1
      | _ => 0) + awakeSteps (c.step msToTicks event) events

theorem Stopped.step {c : Loop ν} (h : Stopped c) (event : Event ν) :
    Stopped (c.step msToTicks event) ∧ (c.step msToTicks event).distance ≤ c.distance - awakeSteps msToTicks c [event] := by
  cases event with
  | loop next => simpa [Loop.step, awakeSteps] using h.go msToTicks next
  | timeout =>
    simp only [Loop.step]
    split_ifs with hblock
    · have hvisible := h.visible
      refine ⟨⟨h.requested, ?_⟩, by simp [Loop.distance, hblock.1, awakeSteps]⟩
      simp_all [Pc.committed]
    · exact ⟨h, le_refl _⟩
  | pass ms => exact ⟨⟨h.requested, h.visible⟩, le_refl _⟩
  | notify n bits | stop n | request n action =>
    simp only [Loop.step]
    split_ifs
    · exact ⟨⟨h.requested, h.visible⟩, le_refl _⟩
    · exact ⟨h, le_refl _⟩
  | notifier n =>
    simp only [Loop.step, Loop.goNotifier]
    cases hn : c.notifiers n with
    | idle => exact ⟨h, le_refl _⟩
    | stop => exact ⟨⟨rfl, h.visible⟩, le_refl _⟩
    | put bits =>
      refine ⟨⟨h.requested, fun hpc => ?_⟩, le_refl _⟩
      rcases h.visible hpc with hbit | hevents
      · exact .inl (by simp [hbit])
      · exact .inr hevents
    | load => exact ⟨⟨h.requested, h.visible⟩, le_refl _⟩
    | give => exact ⟨⟨h.requested, h.visible⟩, le_refl _⟩

theorem Stopped.run {c : Loop ν} (h : Stopped c) (events : List (Event ν)) :
    Stopped (events.foldl (Loop.step msToTicks) c) ∧
      (events.foldl (Loop.step msToTicks) c).distance ≤ c.distance - awakeSteps msToTicks c events := by
  induction events generalizing c with
  | nil => exact ⟨h, le_refl _⟩
  | cons event events ih =>
    obtain ⟨hstep, hdistance⟩ := h.step msToTicks event
    obtain ⟨hrest, hdistances⟩ := ih hstep
    refine ⟨hrest, hdistances.trans ?_⟩
    simp only [awakeSteps, Nat.add_zero] at hdistance ⊢
    omega

/-- A stop ends the run loop: when who requested it, or the reboot or the power off, has put in its bit, the loop leaves by its seventh step
that is not a waiting one, whatever it was doing and whatever happens in between. It begins at most one update after the request, and while
it waits a notification is on its way. -/
theorem stop_ends (now : Nat) (events more : List (Event ν))
    (hstop : (run msToTicks now events).stopRequested = true ∨ (run msToTicks now events).requestedSystemAction.isSome = true)
    (hput : ∀ n, (run msToTicks now events).notifiers n ≠ .stop ∧ (run msToTicks now events).notifiers n ≠ .put eventShutdown) :
    let c := run msToTicks now (events ++ more)
    (7 ≤ awakeSteps msToTicks (run msToTicks now events) more → c.pc = .left) ∧ c.late ≤ 1 ∧
      (c.asleep → ∃ n, c.notifiers n = .load ∨ c.notifiers n = .give) := by
  have hstops : Stops (run msToTicks now events) := stops_run msToTicks now events
  have hrequested : (run msToTicks now events).stopRequested = true := by
    rcases hstop with hrequested | haction
    · exact hrequested
    · rcases hstops.action haction with hrequested | ⟨n, hn⟩
      · exact hrequested
      · exact absurd hn (hput n).1
  have hstopped : Stopped (run msToTicks now events) := by
    refine ⟨hrequested, fun hpc => ?_⟩
    rcases hstops.stopping hrequested hpc with ⟨n, hn⟩ | hvisible
    · exact absurd hn (hput n).2
    · exact hvisible
  intro c
  have hrun : c = more.foldl (Loop.step msToTicks) (run msToTicks now events) := by
    simp [c, Runtime.run, List.foldl_append]
  obtain ⟨hend, hdistance⟩ := hstopped.run msToTicks more
  rw [← hrun] at hend hdistance
  refine ⟨fun hsteps => Loop.left_of_distance ?_, ?_, ?_⟩
  · have hmost := (run msToTicks now events).distance_le
    omega
  · have hlate := (stops_run msToTicks now (events ++ more)).late
    exact le_trans (Nat.le_add_right _ _) hlate
  · intro hasleep
    have hbit : c.runtimeEvents.getLsbD shutdownBit = true := by
      simpa [hasleep.1] using hend.visible (by simp [hasleep.1, Pc.committed])
    have hsome : c.runtimeEvents ≠ 0 := by
      intro hzero
      simp [hzero] at hbit
    exact (wakes_run msToTicks now (events ++ more)).wake (.inr hasleep.1) hasleep.2 hsome

/-- A power off while the loop waits. -/
theorem stop_ends_power_off :
    let events : List (Event Unit) := [.loop 0, .loop 0, .loop 0, .loop 0, .loop 0, .loop 0, .loop 0, .loop 0, .loop 50, .loop 0, .loop 0,
      .request () .powerOff, .notifier (), .notifier (), .notifier (), .notifier ()]
    (run (fun ms => ms * 100 / 1000) 0 (events ++ List.replicate 7 (.loop 0))).pc = .left := by
  intro events
  refine (stop_ends (fun ms => ms * 100 / 1000) 0 events (List.replicate 7 (.loop 0)) (.inr rfl) ?_).1 (by decide)
  decide

end

end Runtime
end TabOS
