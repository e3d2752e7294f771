import TabOS.Library.Run
import Mathlib.Algebra.Order.BigOperators.Group.Finset
import Mathlib.Data.Fintype.BigOperators
import Mathlib.Logic.Function.Basic

/-!
# Jobs of the host

`platform/posix/host_io.c` as its scopes and workers interleave, a critical section of a job's mutex or an atomic operation at a time.
What a side does with a job that it alone can reach is one step. The calls of one scope do not overlap. The jobs have history variables
that no branch reads: how often the work ran, the data was copied out and the job was freed, what the disposals were told, and whether the
job was touched once it was freed.
-/

namespace TabOS
namespace HostIo

open Library

/-- `HOST_IO_JOB_LIMIT`. -/
def hostIoJobLimit : Nat := 16

/-- Where the worker of a job is: there is none, the work is to run, `done` is to be set, the abandoned job is to be freed, the job is to
be taken off the count, or the thread has ended. -/
inductive Worker where
  | none | working | finishing | freeing | uncounting | ended
  deriving DecidableEq, Repr

/-- `host_io_job_t`, with its history. -/
structure Job where
  done : Bool
  abandoned : Bool
  worker : Worker
  works : Nat
  copies : Nat
  disposals : List Bool
  frees : Nat
  stale : Bool
  deriving DecidableEq, Repr

def Job.new (worker : Worker) : Job := ⟨false, false, worker, 0, 0, [], 0, false⟩

/-- The job is read or written. -/
def Job.touch (job : Job) : Job := { job with stale := job.stale || decide (job.frees > 0) }

/-- `job_free` up to the count. -/
def Job.free (job : Job) (delivered : Bool) : Job :=
  { job.touch with disposals := job.disposals ++ [delivered], frees := job.frees + 1 }

/-- Where a scope is in a call: between calls, in `host_io_call` refused, with a place counted, with the thread of a job created, with a
job to check or to deliver, or in `host_io_cancel` with a job to abandon; or with a job to free, or a job to take off the count. -/
inductive Pc where
  | idle | refuse | create | attach (job : Nat) | check (job : Nat) | deliver (job : Nat) | abandon (job : Nat) | discard (job : Nat)
  | uncount
  deriving DecidableEq, Repr

/-- `host_io_scope_t`, with where it is. -/
structure Scope where
  job : Option Nat
  pending : Bool
  retrying : Bool
  pc : Pc
  deriving DecidableEq, Repr

/-- The scopes, the scope of each thread, the jobs that were created, and `job_count`. -/
structure Host (n : Nat) where
  scopes : Fin n → Scope
  current : Nat → Option (Fin n)
  jobs : Nat → Job
  created : Nat
  jobCount : Nat

/-- No scope has a job. -/
def Host.initial (n : Nat) : Host n := ⟨fun _ => ⟨none, false, false, .idle⟩, fun _ => none, fun _ => .new .none, 0, 0⟩

/-- What comes of creating a job: there is no memory or mutex, there is no thread, or its thread starts. -/
inductive Creation where
  | noMemory | noThread | started
  deriving DecidableEq, Repr

/-- What happens next: a thread enters a scope, leaves it or calls, a scope is cancelled, the call of a scope goes on, or a worker
does. -/
inductive Event (n : Nat) where
  | enter (thread : Nat) (scope : Fin n)
  | leave (thread : Nat)
  | call (thread : Nat)
  | cancel (scope : Fin n)
  | go (scope : Fin n) (creation : Creation)
  | work (job : Nat)

variable {n : Nat}

def Host.setScope (h : Host n) (scope : Fin n) (value : Scope) : Host n := { h with scopes := Function.update h.scopes scope value }

def Host.setJob (h : Host n) (job : Nat) (value : Job) : Host n := { h with jobs := Function.update h.jobs job value }

/-- `host_io_call` up to the first step that others can see; without a scope the work is done at once. -/
def hostIoCall (h : Host n) (thread : Nat) : Host n :=
  match h.current thread with
  | none => h
  | some scope =>
    let s := h.scopes scope
    if s.pc ≠ .idle then h
    else
      match s.job with
      | some job => h.setScope scope { s with pc := .check job }
      | none =>
        { h.setScope scope { s with pc := if h.jobCount ≥ hostIoJobLimit then .refuse else .create } with jobCount := h.jobCount + 1 }

/-- `host_io_cancel` up to the mutex. -/
def hostIoCancel (h : Host n) (scope : Fin n) : Host n :=
  let s := h.scopes scope
  match s.pc, s.job with
  | .idle, some job => h.setScope scope { s with job := none, pc := .abandon job }
  | _, _ => h

/-- A call in which a scope is goes on. -/
def Host.go (h : Host n) (scope : Fin n) (creation : Creation) : Host n :=
  let s := h.scopes scope
  match s.pc with
  | .idle => h
  | .refuse => { h.setScope scope { s with pc := .idle } with jobCount := h.jobCount - 1 }
  | .create =>
    match creation with
    | .noMemory => { h.setScope scope { s with pc := .idle } with jobCount := h.jobCount - 1 }
    | .noThread => { (h.setScope scope { s with pc := .discard h.created }).setJob h.created (.new .none) with created := h.created + 1 }
    | .started => { (h.setScope scope { s with pc := .attach h.created }).setJob h.created (.new .working) with created := h.created + 1 }
  | .attach job => h.setScope scope { s with job := some job, pending := true, pc := .idle }
  | .check job =>
    let j := (h.jobs job).touch
    (h.setScope scope (if j.done then { s with pc := .deliver job } else { s with pending := true, pc := .idle })).setJob job j
  | .deliver job =>
    let j := h.jobs job
    (h.setScope scope { s with job := none, pc := .uncount }).setJob job ({ j with copies := j.copies + 1 }.free true)
  | .abandon job =>
    let j := { (h.jobs job).touch with abandoned := true }
    (h.setScope scope { s with pc := if j.done then .discard job else .idle }).setJob job j
  | .discard job => (h.setScope scope { s with pc := .uncount }).setJob job ((h.jobs job).free false)
  | .uncount => { h.setScope scope { s with pc := .idle } with jobCount := h.jobCount - 1 }

/-- `job_run`: the worker of a job goes on. -/
def jobRun (h : Host n) (job : Nat) : Host n :=
  let j := h.jobs job
  match j.worker with
  | .none => h
  | .working => h.setJob job { j.touch with works := j.works + 1, worker := .finishing }
  | .finishing => h.setJob job { j.touch with done := true, worker := if j.abandoned then .freeing else .ended }
  | .freeing => h.setJob job { j.free false with worker := .uncounting }
  | .uncounting => { h.setJob job { j with worker := .ended } with jobCount := h.jobCount - 1 }
  | .ended => h

def Host.step (h : Host n) : Event n → Host n
  | .enter thread scope =>
    { h.setScope scope { h.scopes scope with pending := false } with current := Function.update h.current thread (some scope) }
  | .leave thread => { h with current := Function.update h.current thread none }
  | .call thread => hostIoCall h thread
  | .cancel scope => hostIoCancel h scope
  | .go scope creation => h.go scope creation
  | .work job => jobRun h job

/-! ## Who has a job -/

/-- The job that a scope can reach. -/
def Scope.has (s : Scope) : Option Nat :=
  match s.pc with
  | .attach job => some job
  | .check job => some job
  | .deliver job => some job
  | .abandon job => some job
  | .discard job => some job
  | _ => s.job

/-- The place of a job that a scope has besides where it is in a call. -/
structure Scope.Placed (s : Scope) : Prop where
  checked : ∀ job, s.pc = .check job ∨ s.pc = .deliver job → s.job = some job
  without : s.pc ≠ .idle → (∀ job, s.pc ≠ .check job ∧ s.pc ≠ .deliver job) → s.job = none

/-- A job that was not freed and whose worker goes on or has ended; the work ran once when `done` is to be set. -/
structure Job.Live (j : Job) : Prop where
  fresh : j.frees = 0 ∧ j.disposals = [] ∧ j.copies = 0 ∧ j.stale = false
  worker : (j.worker = .working ∧ j.works = 0 ∧ j.done = false) ∨ (j.worker = .finishing ∧ j.works = 1 ∧ j.done = false) ∨
    (j.worker = .freeing ∧ j.works = 1 ∧ j.done = true ∧ j.abandoned = true) ∨
    (j.worker = .ended ∧ j.works = 1 ∧ j.done = true)

/-- What is known of a job while a scope has it. -/
def Job.Held (j : Job) : Pc → Prop
  | .deliver _ => j.Live ∧ j.abandoned = false ∧ j.done = true
  | .discard _ => (j.Live ∧ j.worker = .ended) ∨
      (j.frees = 0 ∧ j.disposals = [] ∧ j.copies = 0 ∧ j.stale = false ∧ j.worker = .none ∧ j.works = 0)
  | _ => j.Live ∧ j.abandoned = false

/-- A job that was freed once: it was copied out exactly when the disposal was told that it was delivered. -/
structure Job.Gone (j : Job) : Prop where
  frees : j.frees = 1
  works : j.works ≤ 1
  fresh : j.stale = false
  disposal : (j.disposals = [true] ∧ j.copies = 1 ∧ j.works = 1) ∨ (j.disposals = [false] ∧ j.copies = 0)
  worker : j.worker = .none ∨ j.worker = .uncounting ∨ j.worker = .ended

/-- What is known of a job that no scope has: the worker is to free it, or it was freed. -/
def Job.Loose (j : Job) : Prop := (j.Live ∧ j.abandoned = true ∧ j.worker ≠ .ended) ∨ j.Gone

/-- Every job is had by at most one scope, and each side knows what it may do. -/
structure Owned (h : Host n) : Prop where
  placed : ∀ scope, (h.scopes scope).Placed
  distinct : ∀ first second job, (h.scopes first).has = some job → (h.scopes second).has = some job → first = second
  held : ∀ scope job, (h.scopes scope).has = some job → job < h.created ∧ (h.jobs job).Held (h.scopes scope).pc
  loose : ∀ job, job < h.created → (∀ scope, (h.scopes scope).has ≠ some job) → (h.jobs job).Loose
  fresh : ∀ job, h.created ≤ job → h.jobs job = .new .none

/-! ## What the steps keep -/

@[simp] theorem setScope_jobs (h : Host n) (scope : Fin n) (value : Scope) : (h.setScope scope value).jobs = h.jobs := rfl

@[simp] theorem setScope_created (h : Host n) (scope : Fin n) (value : Scope) : (h.setScope scope value).created = h.created := rfl

@[simp] theorem setScope_jobCount (h : Host n) (scope : Fin n) (value : Scope) : (h.setScope scope value).jobCount = h.jobCount := rfl

@[simp] theorem setJob_scopes (h : Host n) (job : Nat) (value : Job) : (h.setJob job value).scopes = h.scopes := rfl

@[simp] theorem setJob_created (h : Host n) (job : Nat) (value : Job) : (h.setJob job value).created = h.created := rfl

theorem setScope_same (h : Host n) (scope : Fin n) (value : Scope) : (h.setScope scope value).scopes scope = value := by
  simp only [Host.setScope, Function.update_self]

theorem setScope_other (h : Host n) {scope other : Fin n} (hne : other ≠ scope) (value : Scope) :
    (h.setScope scope value).scopes other = h.scopes other := by
  simp only [Host.setScope, Function.update_of_ne hne]

theorem setJob_same (h : Host n) (job : Nat) (value : Job) : (h.setJob job value).jobs job = value := by
  simp only [Host.setJob, Function.update_self]

theorem setJob_other (h : Host n) {job other : Nat} (hne : other ≠ job) (value : Job) :
    (h.setJob job value).jobs other = h.jobs other := by
  simp only [Host.setJob, Function.update_of_ne hne]

/-- Ownership does not look at the count or at the scopes of the threads. -/
theorem Owned.congr {h h' : Host n} (ho : Owned h) (hs : h'.scopes = h.scopes) (hj : h'.jobs = h.jobs)
    (hc : h'.created = h.created) : Owned h' where
  placed := by rw [hs]; exact ho.placed
  distinct := by rw [hs]; exact ho.distinct
  held := by rw [hs, hj, hc]; exact ho.held
  loose := by rw [hs, hj, hc]; exact ho.loose
  fresh := by rw [hj, hc]; exact ho.fresh

/-- A job is held or loose. -/
theorem Owned.known {h : Host n} (ho : Owned h) {job : Nat} (hlt : job < h.created) :
    (∃ pc, (h.jobs job).Held pc) ∨ (h.jobs job).Loose := by
  by_cases hscope : ∃ scope, (h.scopes scope).has = some job
  · obtain ⟨scope, hhas⟩ := hscope
    exact .inl ⟨_, (ho.held scope job hhas).2⟩
  · exact .inr (ho.loose job hlt fun scope hhas => hscope ⟨scope, hhas⟩)

/-- A scope goes on with what it has. -/
theorem Owned.setScope {h : Host n} (ho : Owned h) {scope : Fin n} {value : Scope} (hp : value.Placed)
    (hhas : value.has = (h.scopes scope).has)
    (hheld : ∀ job, value.has = some job → (h.jobs job).Held (h.scopes scope).pc → (h.jobs job).Held value.pc) :
    Owned (h.setScope scope value) := by
  have hs : ∀ other, ((h.setScope scope value).scopes other).has = (h.scopes other).has := by
    intro other
    by_cases hother : other = scope
    · subst hother
      rw [setScope_same, hhas]
    · rw [setScope_other h hother]
  refine ⟨?_, ?_, ?_, ?_, ho.fresh⟩
  · intro other
    by_cases hother : other = scope
    · subst hother
      rw [setScope_same]
      exact hp
    · rw [setScope_other h hother]
      exact ho.placed other
  · intro first second job hfirst hsecond
    rw [hs] at hfirst hsecond
    exact ho.distinct first second job hfirst hsecond
  · intro other job hjob
    have hjob' := hs other ▸ hjob
    obtain ⟨hlt, hh⟩ := ho.held other job hjob'
    refine ⟨hlt, ?_⟩
    by_cases hother : other = scope
    · subst hother
      rw [setScope_same] at hjob ⊢
      exact hheld job hjob hh
    · rw [setScope_other h hother]
      exact hh
  · intro job hlt hno
    exact ho.loose job hlt fun other => hs other ▸ hno other

/-- A worker goes on. -/
theorem Owned.setJob {h : Host n} (ho : Owned h) {job : Nat} {value : Job} (hlt : job < h.created)
    (hheld : ∀ scope, (h.scopes scope).has = some job → (h.jobs job).Held (h.scopes scope).pc → value.Held (h.scopes scope).pc)
    (hloose : (h.jobs job).Loose → value.Loose) : Owned (h.setJob job value) := by
  refine ⟨ho.placed, ho.distinct, ?_, ?_, ?_⟩
  · intro scope other hother
    obtain ⟨hlt', hh⟩ := ho.held scope other hother
    refine ⟨hlt', ?_⟩
    by_cases heq : other = job
    · subst heq
      rw [setJob_same]
      exact hheld scope hother hh
    · rw [setJob_other h heq]
      exact hh
  · intro other hlt' hno
    have hh := ho.loose other hlt' hno
    by_cases heq : other = job
    · subst heq
      rw [setJob_same]
      exact hloose hh
    · rw [setJob_other h heq]
      exact hh
  · intro other hge
    have hne : other ≠ job := by have : h.created ≤ other := hge; omega
    rw [setJob_other h hne]
    exact ho.fresh other hge

/-- A scope goes on with its job, or lets go of it. -/
theorem Owned.setBoth {h : Host n} (ho : Owned h) {scope : Fin n} {s : Scope} {job : Nat} {j : Job}
    (hhas : (h.scopes scope).has = some job) (hp : s.Placed)
    (hnew : (s.has = some job ∧ j.Held s.pc) ∨ (s.has = none ∧ j.Loose)) :
    Owned ((h.setScope scope s).setJob job j) := by
  have hlt := (ho.held scope job hhas).1
  have hothers : ∀ other, other ≠ scope → (h.scopes other).has ≠ some job := by
    intro other hne hother
    exact hne (ho.distinct other scope job hother hhas)
  refine ⟨?_, ?_, ?_, ?_, ?_⟩
  · intro other
    by_cases hother : other = scope
    · subst hother
      rw [setJob_scopes, setScope_same]
      exact hp
    · rw [setJob_scopes, setScope_other h hother]
      exact ho.placed other
  · intro first second k hfirst hsecond
    rw [setJob_scopes] at hfirst hsecond
    by_cases h1 : first = scope
    · by_cases h2 : second = scope
      · rw [h1, h2]
      · rw [h1, setScope_same] at hfirst
        rw [setScope_other h h2] at hsecond
        rcases hnew with ⟨hs, -⟩ | ⟨hs, -⟩
        · rw [hs] at hfirst
          rw [← Option.some.inj hfirst] at hsecond
          exact absurd hsecond (hothers second h2)
        · rw [hs] at hfirst
          exact absurd hfirst.symm (Option.some_ne_none k)
    · rw [setScope_other h h1] at hfirst
      by_cases h2 : second = scope
      · rw [h2, setScope_same] at hsecond
        rcases hnew with ⟨hs, -⟩ | ⟨hs, -⟩
        · rw [hs] at hsecond
          rw [← Option.some.inj hsecond] at hfirst
          exact absurd hfirst (hothers first h1)
        · rw [hs] at hsecond
          exact absurd hsecond.symm (Option.some_ne_none k)
      · rw [setScope_other h h2] at hsecond
        exact ho.distinct first second k hfirst hsecond
  · intro other k hk
    rw [setJob_scopes] at hk ⊢
    by_cases hother : other = scope
    · subst hother
      rw [setScope_same] at hk ⊢
      rcases hnew with ⟨hs, hheld⟩ | ⟨hs, -⟩
      · rw [hs] at hk
        obtain rfl := Option.some.inj hk
        rw [setJob_same]
        exact ⟨hlt, hheld⟩
      · rw [hs] at hk
        exact absurd hk.symm (Option.some_ne_none k)
    · rw [setScope_other h hother] at hk ⊢
      have hne : k ≠ job := fun heq => hothers other hother (heq ▸ hk)
      rw [setJob_other _ hne]
      exact ho.held other k hk
  · intro k hk hno
    by_cases heq : k = job
    · subst heq
      rw [setJob_same]
      rcases hnew with ⟨hs, -⟩ | ⟨-, hloose⟩
      · refine absurd hs ?_
        have := hno scope
        rwa [setJob_scopes, setScope_same] at this
      · exact hloose
    · rw [setJob_other _ heq]
      refine ho.loose k hk fun other hother => ?_
      by_cases hscope : other = scope
      · rw [hscope, hhas] at hother
        exact heq (Option.some.inj hother).symm
      · refine hno other ?_
        rw [setJob_scopes, setScope_other h hscope]
        exact hother
  · intro k hge
    have hne : k ≠ job := by have : h.created ≤ k := hge; omega
    rw [setJob_other _ hne]
    exact ho.fresh k hge

/-- A scope without a job creates one. -/
theorem Owned.create {h : Host n} (ho : Owned h) {scope : Fin n} {s : Scope} {j : Job} (hhas : (h.scopes scope).has = none)
    (hp : s.Placed) (hnew : s.has = some h.created) (hheld : j.Held s.pc) :
    Owned { (h.setScope scope s).setJob h.created j with created := h.created + 1 } := by
  have hothers : ∀ other, (h.scopes other).has ≠ some h.created := by
    intro other hother
    have := (ho.held other _ hother).1
    omega
  refine ⟨?_, ?_, ?_, ?_, ?_⟩
  · intro other
    dsimp only
    by_cases hother : other = scope
    · subst hother
      rw [setJob_scopes, setScope_same]
      exact hp
    · rw [setJob_scopes, setScope_other h hother]
      exact ho.placed other
  · intro first second k hfirst hsecond
    dsimp only at hfirst hsecond
    rw [setJob_scopes] at hfirst hsecond
    by_cases h1 : first = scope
    · by_cases h2 : second = scope
      · rw [h1, h2]
      · rw [h1, setScope_same, hnew] at hfirst
        rw [setScope_other h h2, ← Option.some.inj hfirst] at hsecond
        exact absurd hsecond (hothers second)
    · rw [setScope_other h h1] at hfirst
      by_cases h2 : second = scope
      · rw [h2, setScope_same, hnew] at hsecond
        rw [← Option.some.inj hsecond] at hfirst
        exact absurd hfirst (hothers first)
      · rw [setScope_other h h2] at hsecond
        exact ho.distinct first second k hfirst hsecond
  · intro other k hk
    dsimp only at hk ⊢
    rw [setJob_scopes] at hk ⊢
    by_cases hother : other = scope
    · subst hother
      rw [setScope_same] at hk ⊢
      rw [hnew] at hk
      obtain rfl := Option.some.inj hk
      rw [setJob_same]
      exact ⟨Nat.lt_succ_self _, hheld⟩
    · rw [setScope_other h hother] at hk ⊢
      obtain ⟨hlt, hh⟩ := ho.held other k hk
      rw [setJob_other _ (by omega)]
      exact ⟨by omega, hh⟩
  · intro k hk hno
    dsimp only at hk hno ⊢
    have hne : k ≠ h.created := by
      rintro rfl
      apply hno scope
      rw [setJob_scopes, setScope_same, hnew]
    rw [setJob_other _ hne]
    refine ho.loose k (by omega) fun other hother => ?_
    by_cases hscope : other = scope
    · rw [hscope, hhas] at hother
      exact absurd hother.symm (Option.some_ne_none k)
    · refine hno other ?_
      rw [setJob_scopes, setScope_other h hscope]
      exact hother
  · intro k hge
    dsimp only at hge ⊢
    rw [setJob_other _ (by omega)]
    exact ho.fresh k (by omega)

theorem Job.touch_live {j : Job} (hfrees : j.frees = 0) : j.touch = j := by
  obtain ⟨done, abandoned, worker, works, copies, disposals, frees, stale⟩ := j
  obtain rfl : frees = 0 := hfrees
  simp [Job.touch]

/-- The work is done. -/
theorem Job.Live.work {j : Job} (hl : j.Live) (hw : j.worker = .working) :
    ({ j.touch with works := j.works + 1, worker := .finishing } : Job).Live := by
  rw [Job.touch_live hl.fresh.1]
  rcases hl.worker with ⟨-, hworks, hdone⟩ | ⟨h, -⟩ | ⟨h, -⟩ | ⟨h, -⟩
  · exact ⟨hl.fresh, .inr (.inl ⟨rfl, by simp [hworks], hdone⟩)⟩
  all_goals exact absurd (hw.symm.trans h) (by decide)

/-- `done` is set, and the worker sees whether the job is abandoned. -/
theorem Job.Live.finish {j : Job} (hl : j.Live) (hw : j.worker = .finishing) :
    ({ j.touch with done := true, worker := if j.abandoned then .freeing else .ended } : Job).Live := by
  rw [Job.touch_live hl.fresh.1]
  rcases hl.worker with ⟨h, -⟩ | ⟨-, hworks, hdone⟩ | ⟨h, -⟩ | ⟨h, -⟩
  · exact absurd (hw.symm.trans h) (by decide)
  · refine ⟨hl.fresh, ?_⟩
    cases hab : j.abandoned with
    | false => exact .inr (.inr (.inr ⟨rfl, hworks, rfl⟩))
    | true => exact .inr (.inr (.inl ⟨rfl, hworks, rfl, rfl⟩))
  all_goals exact absurd (hw.symm.trans h) (by decide)

/-- A job that was not freed is freed without being delivered. -/
theorem Job.Gone.of_discard {j : Job} (hfresh : j.frees = 0 ∧ j.disposals = [] ∧ j.copies = 0 ∧ j.stale = false)
    (hworks : j.works ≤ 1) {worker : Worker} (hw : worker = .none ∨ worker = .uncounting ∨ worker = .ended) :
    ({ j.free false with worker := worker } : Job).Gone := by
  obtain ⟨hfrees, hdisposals, hcopies, hstale⟩ := hfresh
  refine ⟨?_, ?_, ?_, .inr ⟨?_, ?_⟩, hw⟩
  · simp [Job.free, hfrees]
  · simpa [Job.free, Job.touch] using hworks
  · simp [Job.free, Job.touch, hstale, hfrees]
  · simp [Job.free, hdisposals]
  · simpa [Job.free, Job.touch] using hcopies

/-- A job that is done is copied out and freed. -/
theorem Job.Gone.of_deliver {j : Job} (hfresh : j.frees = 0 ∧ j.disposals = [] ∧ j.copies = 0 ∧ j.stale = false)
    (hworks : j.works = 1) (hw : j.worker = .ended) : ({ j with copies := j.copies + 1 }.free true : Job).Gone := by
  obtain ⟨hfrees, hdisposals, hcopies, hstale⟩ := hfresh
  refine ⟨?_, ?_, ?_, .inl ⟨?_, ?_, ?_⟩, .inr (.inr hw)⟩
  · simp [Job.free, hfrees]
  · simp [Job.free, Job.touch, hworks]
  · simp [Job.free, Job.touch, hstale, hfrees]
  · simp [Job.free, hdisposals]
  · simp [Job.free, Job.touch, hcopies]
  · simpa [Job.free, Job.touch] using hworks

/-- A job whose worker goes on is not at the point of being delivered or discarded. -/
theorem Job.Held.running {j : Job} {pc : Pc} (hh : j.Held pc) (hw : j.worker = .working ∨ j.worker = .finishing ∨ j.worker = .freeing ∨
    j.worker = .uncounting) : (j.Live ∧ j.abandoned = false) ∧ (∀ value : Job, value.Live ∧ value.abandoned = false → value.Held pc) := by
  have hnot : ∀ worker, worker = Worker.ended ∨ worker = Worker.none → j.worker ≠ worker := by
    rintro worker (rfl | rfl) <;> rcases hw with h | h | h | h <;> rw [h] <;> decide
  cases pc with
  | deliver =>
    obtain ⟨hl, hab, hdone⟩ := hh
    rcases hl.worker with ⟨-, -, h⟩ | ⟨-, -, h⟩ | ⟨-, -, -, h⟩ | ⟨h, -⟩
    · exact absurd (h.symm.trans hdone) Bool.false_ne_true
    · exact absurd (h.symm.trans hdone) Bool.false_ne_true
    · exact absurd (hab.symm.trans h) Bool.false_ne_true
    · exact absurd h (hnot _ (.inl rfl))
  | discard =>
    rcases hh with ⟨-, h⟩ | ⟨-, -, -, -, h, -⟩
    · exact absurd h (hnot _ (.inl rfl))
    · exact absurd h (hnot _ (.inr rfl))
  | idle => exact ⟨hh, fun _ h => h⟩
  | refuse => exact ⟨hh, fun _ h => h⟩
  | create => exact ⟨hh, fun _ h => h⟩
  | attach => exact ⟨hh, fun _ h => h⟩
  | check => exact ⟨hh, fun _ h => h⟩
  | abandon => exact ⟨hh, fun _ h => h⟩
  | uncount => exact ⟨hh, fun _ h => h⟩

/-- A step of the worker keeps what is known of its job. -/
theorem jobRun_owned {h : Host n} (ho : Owned h) (job : Nat) : Owned (jobRun h job) := by
  by_cases hlt : job < h.created
  · cases hw : (h.jobs job).worker with
    | none => simpa only [jobRun, hw] using ho
    | ended => simpa only [jobRun, hw] using ho
    | working =>
      simp only [jobRun, hw]
      refine ho.setJob hlt ?_ ?_
      · intro scope hhas hheld
        obtain ⟨⟨hl, hab⟩, hback⟩ := hheld.running (.inl hw)
        exact hback _ ⟨hl.work hw, hab⟩
      · rintro (⟨hl, hab, -⟩ | hg)
        · exact .inl ⟨hl.work hw, hab, by simp⟩
        · rcases hg.worker with h' | h' | h' <;> exact absurd (hw.symm.trans h') (by decide)
    | finishing =>
      simp only [jobRun, hw]
      refine ho.setJob hlt ?_ ?_
      · intro scope hhas hheld
        obtain ⟨⟨hl, hab⟩, hback⟩ := hheld.running (.inr (.inl hw))
        exact hback _ ⟨hl.finish hw, hab⟩
      · rintro (⟨hl, hab, -⟩ | hg)
        · exact .inl ⟨hl.finish hw, hab, by simp [hab]⟩
        · rcases hg.worker with h' | h' | h' <;> exact absurd (hw.symm.trans h') (by decide)
    | freeing =>
      simp only [jobRun, hw]
      refine ho.setJob hlt ?_ ?_
      · intro scope hhas hheld
        obtain ⟨⟨hl, hab⟩, -⟩ := hheld.running (.inr (.inr (.inl hw)))
        rcases hl.worker with ⟨h', -⟩ | ⟨h', -⟩ | ⟨-, -, -, h'⟩ | ⟨h', -⟩
        · exact absurd (hw.symm.trans h') (by decide)
        · exact absurd (hw.symm.trans h') (by decide)
        · exact absurd (hab.symm.trans h') Bool.false_ne_true
        · exact absurd (hw.symm.trans h') (by decide)
      · rintro (⟨hl, -, -⟩ | hg)
        · rcases hl.worker with ⟨h', -⟩ | ⟨h', -⟩ | ⟨-, hworks, -⟩ | ⟨h', -⟩
          · exact absurd (hw.symm.trans h') (by decide)
          · exact absurd (hw.symm.trans h') (by decide)
          · exact .inr (.of_discard hl.fresh (by omega) (.inr (.inl rfl)))
          · exact absurd (hw.symm.trans h') (by decide)
        · rcases hg.worker with h' | h' | h' <;> exact absurd (hw.symm.trans h') (by decide)
    | uncounting =>
      simp only [jobRun, hw]
      have hset : Owned (h.setJob job { h.jobs job with worker := .ended }) := by
        refine ho.setJob hlt ?_ ?_
        · intro scope hhas hheld
          obtain ⟨⟨hl, -⟩, -⟩ := hheld.running (.inr (.inr (.inr hw)))
          rcases hl.worker with ⟨h', -⟩ | ⟨h', -⟩ | ⟨h', -⟩ | ⟨h', -⟩ <;> exact absurd (hw.symm.trans h') (by decide)
        · rintro (⟨hl, -, -⟩ | hg)
          · rcases hl.worker with ⟨h', -⟩ | ⟨h', -⟩ | ⟨h', -⟩ | ⟨h', -⟩ <;> exact absurd (hw.symm.trans h') (by decide)
          · exact .inr ⟨hg.frees, hg.works, hg.fresh, hg.disposal, .inr (.inr rfl)⟩
      exact hset.congr rfl rfl rfl
  · have hnew := ho.fresh job (by omega)
    simpa only [jobRun, hnew, Job.new] using ho

theorem Scope.placed_idle {s : Scope} (h : s.pc = .idle) : s.Placed :=
  ⟨fun _ h' => by rcases h' with h' | h' <;> exact absurd (h.symm.trans h') (by simp), fun h' => absurd h h'⟩

/-- Between calls a scope has the job that it holds. -/
theorem Scope.has_idle {s : Scope} (h : s.pc = .idle) : s.has = s.job := by
  rw [Scope.has, h]

/-- Entering a scope does not change what it has. -/
theorem enter_owned {h : Host n} (ho : Owned h) (scope : Fin n) (pending : Bool) :
    Owned (h.setScope scope { h.scopes scope with pending := pending }) := by
  have hp := ho.placed scope
  exact ho.setScope ⟨hp.checked, hp.without⟩ rfl fun _ _ hh => hh

/-- A call begins. -/
theorem hostIoCall_owned {h : Host n} (ho : Owned h) (thread : Nat) : Owned (hostIoCall h thread) := by
  cases hc : h.current thread with
  | none => simpa only [hostIoCall, hc] using ho
  | some scope =>
    simp only [hostIoCall, hc]
    by_cases hidle : (h.scopes scope).pc = .idle
    · rw [if_neg (not_not_intro hidle)]
      have hhas := Scope.has_idle hidle
      cases hjob : (h.scopes scope).job with
      | some job =>
        dsimp only
        refine ho.setScope ⟨fun k hk => ?_, fun _ hk => absurd rfl (hk job).1⟩ ?_ ?_
        · rcases hk with hk | hk
          · obtain rfl := Pc.check.inj hk
            rfl
          · exact absurd hk (by simp)
        · rw [hhas, hjob, Scope.has]
        · intro k _ hh
          rw [hidle] at hh
          exact hh
      | none =>
        dsimp only
        have hset : Owned (h.setScope scope { h.scopes scope with pc := if h.jobCount ≥ hostIoJobLimit then .refuse else .create }) := by
          split
          all_goals
            refine ho.setScope ⟨fun k hk => ?_, fun _ _ => hjob⟩ ?_ ?_
            · rcases hk with hk | hk <;> exact absurd hk (by simp)
            · rw [hhas, hjob, Scope.has, hjob]
            · intro k hk
              rw [Scope.has, hjob] at hk
              exact absurd hk.symm (Option.some_ne_none k)
        refine hset.congr ?_ rfl rfl
        simp only [Host.setScope, hjob]
    · rw [if_pos hidle]
      exact ho

/-- A cancellation begins. -/
theorem hostIoCancel_owned {h : Host n} (ho : Owned h) (scope : Fin n) : Owned (hostIoCancel h scope) := by
  rw [hostIoCancel]
  split
  · rename_i job hidle hjob
    refine ho.setScope ⟨fun k hk => ?_, fun _ _ => rfl⟩ ?_ ?_
    · rcases hk with hk | hk <;> exact absurd hk (by simp)
    · rw [Scope.has_idle hidle, hjob, Scope.has]
    · intro k _ hh
      rw [hidle] at hh
      exact hh
  · exact ho

/-- A scope that was counted, or was to be, is back between calls. -/
theorem idle_owned {h : Host n} (ho : Owned h) {scope : Fin n} (hpc : (h.scopes scope).pc = .refuse ∨ (h.scopes scope).pc = .create ∨
    (h.scopes scope).pc = .uncount) (count : Nat) :
    Owned { h.setScope scope { h.scopes scope with pc := .idle } with jobCount := count } := by
  have hset : Owned (h.setScope scope { h.scopes scope with pc := .idle }) := by
    refine ho.setScope (Scope.placed_idle rfl) ?_ ?_
    · rw [Scope.has_idle rfl, Scope.has]
      rcases hpc with hpc | hpc | hpc <;> rw [hpc]
    · intro k _ hh
      rcases hpc with hpc | hpc | hpc <;> rw [hpc] at hh <;> exact hh
  exact hset.congr rfl rfl rfl

/-- A call goes on. -/
theorem go_owned {h : Host n} (ho : Owned h) (scope : Fin n) (creation : Creation) : Owned (h.go scope creation) := by
  have hplaced := ho.placed scope
  cases hpc : (h.scopes scope).pc with
  | idle => simpa only [Host.go, hpc] using ho
  | refuse =>
    simp only [Host.go, hpc]
    exact idle_owned ho (.inl hpc) _
  | uncount =>
    simp only [Host.go, hpc]
    exact idle_owned ho (.inr (.inr hpc)) _
  | create =>
    have hjob : (h.scopes scope).job = none := hplaced.without (by simp [hpc]) (by simp [hpc])
    have hhas : (h.scopes scope).has = none := by rw [Scope.has, hpc, hjob]
    cases creation with
    | noMemory =>
      simp only [Host.go, hpc]
      exact idle_owned ho (.inr (.inl hpc)) _
    | noThread =>
      simp only [Host.go, hpc]
      refine ho.create hhas ⟨fun k hk => ?_, fun _ _ => hjob⟩ rfl (.inr ⟨rfl, rfl, rfl, rfl, rfl, rfl⟩)
      rcases hk with hk | hk <;> exact absurd hk (by simp)
    | started =>
      simp only [Host.go, hpc]
      refine ho.create hhas ⟨fun k hk => ?_, fun _ _ => hjob⟩ rfl ⟨⟨⟨rfl, rfl, rfl, rfl⟩, .inl ⟨rfl, rfl, rfl⟩⟩, rfl⟩
      rcases hk with hk | hk <;> exact absurd hk (by simp)
  | attach job =>
    have hhas : (h.scopes scope).has = some job := by rw [Scope.has, hpc]
    simp only [Host.go, hpc]
    refine ho.setScope (Scope.placed_idle rfl) ?_ ?_
    · rw [hhas, Scope.has_idle rfl]
    · intro k _ hh
      rw [hpc] at hh
      exact hh
  | check job =>
    have hhas : (h.scopes scope).has = some job := by rw [Scope.has, hpc]
    have hjob : (h.scopes scope).job = some job := hplaced.checked job (.inl hpc)
    obtain ⟨-, hheld⟩ := ho.held scope job hhas
    rw [hpc] at hheld
    obtain ⟨hl, hab⟩ := hheld
    simp only [Host.go, hpc]
    rw [Job.touch_live hl.fresh.1]
    cases hdone : (h.jobs job).done with
    | true =>
      rw [if_pos rfl]
      refine ho.setBoth hhas ⟨fun k hk => ?_, fun _ hk => absurd rfl (hk job).2⟩ (.inl ⟨rfl, hl, hab, hdone⟩)
      rcases hk with hk | hk
      · exact absurd hk (by simp)
      · obtain rfl := Pc.deliver.inj hk
        exact hjob
    | false =>
      rw [if_neg Bool.false_ne_true]
      exact ho.setBoth hhas (Scope.placed_idle rfl) (.inl ⟨(Scope.has_idle rfl).trans hjob, hl, hab⟩)
  | deliver job =>
    have hhas : (h.scopes scope).has = some job := by rw [Scope.has, hpc]
    obtain ⟨-, hheld⟩ := ho.held scope job hhas
    rw [hpc] at hheld
    obtain ⟨hl, hab, hdone⟩ := hheld
    have hended : (h.jobs job).works = 1 ∧ (h.jobs job).worker = .ended := by
      rcases hl.worker with ⟨-, -, h'⟩ | ⟨-, -, h'⟩ | ⟨-, -, -, h'⟩ | ⟨hw, hworks, -⟩
      · exact absurd (h'.symm.trans hdone) Bool.false_ne_true
      · exact absurd (h'.symm.trans hdone) Bool.false_ne_true
      · exact absurd (hab.symm.trans h') Bool.false_ne_true
      · exact ⟨hworks, hw⟩
    simp only [Host.go, hpc]
    refine ho.setBoth hhas ⟨fun k hk => ?_, fun _ _ => rfl⟩ (.inr ⟨rfl, .inr (.of_deliver hl.fresh hended.1 hended.2)⟩)
    rcases hk with hk | hk <;> exact absurd hk (by simp)
  | abandon job =>
    have hhas : (h.scopes scope).has = some job := by rw [Scope.has, hpc]
    have hjob : (h.scopes scope).job = none := hplaced.without (by simp [hpc]) (by simp [hpc])
    obtain ⟨-, hheld⟩ := ho.held scope job hhas
    rw [hpc] at hheld
    obtain ⟨hl, hab⟩ := hheld
    simp only [Host.go, hpc]
    rw [Job.touch_live hl.fresh.1]
    rcases hl.worker with ⟨hw, hworks, hdone⟩ | ⟨hw, hworks, hdone⟩ | ⟨-, -, -, h'⟩ | ⟨hw, hworks, hdone⟩
    · rw [hdone, if_neg Bool.false_ne_true]
      refine ho.setBoth hhas (Scope.placed_idle rfl) (.inr ⟨(Scope.has_idle rfl).trans hjob, .inl ⟨⟨hl.fresh, ?_⟩, rfl, ?_⟩⟩)
      · exact .inl ⟨hw, hworks, rfl⟩
      · simp [hw]
    · rw [hdone, if_neg Bool.false_ne_true]
      refine ho.setBoth hhas (Scope.placed_idle rfl) (.inr ⟨(Scope.has_idle rfl).trans hjob, .inl ⟨⟨hl.fresh, ?_⟩, rfl, ?_⟩⟩)
      · exact .inr (.inl ⟨hw, hworks, rfl⟩)
      · simp [hw]
    · exact absurd (hab.symm.trans h') Bool.false_ne_true
    · rw [hdone, if_pos rfl]
      refine ho.setBoth hhas ⟨fun k hk => ?_, fun _ _ => hjob⟩ (.inl ⟨rfl, .inl ⟨⟨hl.fresh, ?_⟩, hw⟩⟩)
      · rcases hk with hk | hk <;> exact absurd hk (by simp)
      · exact .inr (.inr (.inr ⟨hw, hworks, rfl⟩))
  | discard job =>
    have hhas : (h.scopes scope).has = some job := by rw [Scope.has, hpc]
    have hjob : (h.scopes scope).job = none := hplaced.without (by simp [hpc]) (by simp [hpc])
    obtain ⟨-, hheld⟩ := ho.held scope job hhas
    rw [hpc] at hheld
    have hgone : ((h.jobs job).free false).Gone := by
      rcases hheld with ⟨hl, hw⟩ | ⟨hfrees, hdisposals, hcopies, hstale, hw, hworks⟩
      · have hworks : (h.jobs job).works ≤ 1 := by rcases hl.worker with ⟨-, hk, -⟩ | ⟨-, hk, -⟩ | ⟨-, hk, -⟩ | ⟨-, hk, -⟩ <;> omega
        have := Job.Gone.of_discard hl.fresh hworks (.inr (.inr hw))
        exact this
      · have := Job.Gone.of_discard ⟨hfrees, hdisposals, hcopies, hstale⟩ (by omega) (.inl hw)
        exact this
    simp only [Host.go, hpc]
    refine ho.setBoth hhas ⟨fun k hk => ?_, fun _ _ => hjob⟩ (.inr ⟨?_, .inr hgone⟩)
    · rcases hk with hk | hk <;> exact absurd hk (by simp)
    · rw [Scope.has]
      exact hjob

/-- Every event keeps the ownership of the jobs. -/
theorem step_owned {h : Host n} (ho : Owned h) (e : Event n) : Owned (h.step e) := by
  cases e with
  | enter thread scope =>
    have hset := enter_owned ho scope false
    exact hset.congr rfl rfl rfl
  | leave thread => exact ho.congr rfl rfl rfl
  | call thread => exact hostIoCall_owned ho thread
  | cancel scope => exact hostIoCancel_owned ho scope
  | go scope creation => exact go_owned ho scope creation
  | work job => exact jobRun_owned ho job

theorem initial_owned (n : Nat) : Owned (Host.initial n) :=
  ⟨fun _ => Scope.placed_idle rfl, fun _ _ _ h => absurd h.symm (Option.some_ne_none _),
    fun _ _ h => absurd h.symm (Option.some_ne_none _),
    fun _ h => absurd h (Nat.not_lt_zero _), fun _ _ => rfl⟩

/-! ## The count of the jobs -/

/-- The places that a job has in `job_count`: one until it is freed, and one until the worker that freed it has counted it off. -/
def Job.weight (j : Job) : Nat := (if j.frees = 0 then 1 else 0) + if j.worker = .uncounting then 1 else 0

/-- The place that a scope has in `job_count` for a job it is to create or has freed. -/
def Scope.weight (s : Scope) : Nat := if s.pc = .create ∨ s.pc = .uncount then 1 else 0

/-- The place that a scope has in `job_count` before it is refused. -/
def Scope.refused (s : Scope) : Nat := if s.pc = .refuse then 1 else 0

/-- A sum over the jobs and the scopes. -/
def Host.total (h : Host n) (f : Job → Nat) (g : Scope → Nat) : Nat :=
  ∑ job ∈ Finset.range h.created, f (h.jobs job) + ∑ scope, g (h.scopes scope)

/-- The jobs that are not freed. -/
def Host.alive (h : Host n) : Finset Nat := (Finset.range h.created).filter fun job => (h.jobs job).frees = 0

/-- `job_count` is the places that are taken, and those of jobs are within the limit. -/
structure Counted (h : Host n) : Prop where
  count : h.jobCount = h.total Job.weight (fun s => s.weight + s.refused)
  limit : h.total Job.weight Scope.weight ≤ hostIoJobLimit

theorem total_setScope (h : Host n) (scope : Fin n) (s : Scope) (f : Job → Nat) (g : Scope → Nat) :
    (h.setScope scope s).total f g + g (h.scopes scope) = h.total f g + g s := by
  have hnew : ∑ other, g ((h.setScope scope s).scopes other) = g s + ∑ other ∈ Finset.univ.erase scope, g (h.scopes other) := by
    rw [← Finset.add_sum_erase _ _ (Finset.mem_univ scope), setScope_same]
    congr 1
    exact Finset.sum_congr rfl fun other hother => by rw [setScope_other h (Finset.ne_of_mem_erase hother)]
  have hold : ∑ other, g (h.scopes other) = g (h.scopes scope) + ∑ other ∈ Finset.univ.erase scope, g (h.scopes other) :=
    (Finset.add_sum_erase _ _ (Finset.mem_univ scope)).symm
  simp only [Host.total, setScope_jobs, setScope_created, hnew, hold]
  omega

theorem total_setJob (h : Host n) {job : Nat} (hlt : job < h.created) (j : Job) (f : Job → Nat) (g : Scope → Nat) :
    (h.setJob job j).total f g + f (h.jobs job) = h.total f g + f j := by
  have hmem := Finset.mem_range.2 hlt
  have hnew : ∑ other ∈ Finset.range h.created, f ((h.setJob job j).jobs other) =
      f j + ∑ other ∈ (Finset.range h.created).erase job, f (h.jobs other) := by
    rw [← Finset.add_sum_erase _ _ hmem, setJob_same]
    congr 1
    exact Finset.sum_congr rfl fun other hother => by rw [setJob_other h (Finset.ne_of_mem_erase hother)]
  have hold : ∑ other ∈ Finset.range h.created, f (h.jobs other) =
      f (h.jobs job) + ∑ other ∈ (Finset.range h.created).erase job, f (h.jobs other) :=
    (Finset.add_sum_erase _ _ hmem).symm
  simp only [Host.total, setJob_scopes, setJob_created, hnew, hold]
  omega

theorem total_create (h : Host n) (j : Job) (f : Job → Nat) (g : Scope → Nat) :
    ({ h.setJob h.created j with created := h.created + 1 } : Host n).total f g = h.total f g + f j := by
  have hold : ∑ other ∈ Finset.range h.created, f ((h.setJob h.created j).jobs other) =
      ∑ other ∈ Finset.range h.created, f (h.jobs other) :=
    Finset.sum_congr rfl fun other hother => by rw [setJob_other h (by have := Finset.mem_range.1 hother; omega)]
  simp only [Host.total, setJob_scopes, Finset.sum_range_succ, hold, setJob_same]
  omega

/-- A scope and its job change at once. -/
theorem total_setBoth (h : Host n) (scope : Fin n) (s : Scope) {job : Nat} (hlt : job < h.created) (j : Job) (f : Job → Nat)
    (g : Scope → Nat) :
    ((h.setScope scope s).setJob job j).total f g + f (h.jobs job) + g (h.scopes scope) = h.total f g + f j + g s := by
  have h1 := total_setJob (h.setScope scope s) hlt j f g
  have h2 := total_setScope h scope s f g
  rw [setScope_jobs] at h1
  omega

theorem total_mono (h : Host n) (f : Job → Nat) {g g' : Scope → Nat} (hle : ∀ s, g s ≤ g' s) : h.total f g ≤ h.total f g' :=
  Nat.add_le_add_left (Finset.sum_le_sum fun _ _ => hle _) _

/-- The count does not look at the scopes of the threads. -/
theorem Counted.congr {h h' : Host n} (hc : Counted h) (hs : h'.scopes = h.scopes) (hj : h'.jobs = h.jobs) (hcr : h'.created = h.created)
    (hn : h'.jobCount = h.jobCount) : Counted h' := by
  have htotal : ∀ f g, h'.total f g = h.total f g := by
    intro f g
    rw [Host.total, Host.total, hs, hj, hcr]
  exact ⟨by rw [hn, htotal]; exact hc.count, by rw [htotal]; exact hc.limit⟩

/-- A scope goes on and takes no place. -/
theorem Counted.setScope {h : Host n} (hc : Counted h) {scope : Fin n} {s : Scope} {count : Nat}
    (hcount : count + (h.scopes scope).weight + (h.scopes scope).refused = h.jobCount + s.weight + s.refused)
    (hle : s.weight ≤ (h.scopes scope).weight) : Counted { h.setScope scope s with jobCount := count } := by
  have h1 := total_setScope h scope s Job.weight (fun s => s.weight + s.refused)
  have h2 := total_setScope h scope s Job.weight Scope.weight
  have hcount' := hc.count
  have hlimit' := hc.limit
  refine ⟨?_, ?_⟩
  · change count = (h.setScope scope s).total Job.weight (fun s => s.weight + s.refused)
    omega
  · change (h.setScope scope s).total Job.weight Scope.weight ≤ hostIoJobLimit
    omega

/-- A scope and its job change, and take no place more. -/
theorem Counted.setBoth {h : Host n} (hc : Counted h) {scope : Fin n} {s : Scope} {job : Nat} (hlt : job < h.created) {j : Job}
    {count : Nat}
    (hcount : count + (h.jobs job).weight + (h.scopes scope).weight + (h.scopes scope).refused =
      h.jobCount + j.weight + s.weight + s.refused)
    (hle : j.weight + s.weight ≤ (h.jobs job).weight + (h.scopes scope).weight) :
    Counted { (h.setScope scope s).setJob job j with jobCount := count } := by
  have h1 := total_setBoth h scope s hlt j Job.weight (fun s => s.weight + s.refused)
  have h2 := total_setBoth h scope s hlt j Job.weight Scope.weight
  have hcount' := hc.count
  have hlimit' := hc.limit
  refine ⟨?_, ?_⟩
  · change count = ((h.setScope scope s).setJob job j).total Job.weight (fun s => s.weight + s.refused)
    omega
  · change ((h.setScope scope s).setJob job j).total Job.weight Scope.weight ≤ hostIoJobLimit
    omega

/-- A worker goes on. -/
theorem Counted.setJob {h : Host n} (hc : Counted h) {job : Nat} (hlt : job < h.created) {j : Job} {count : Nat}
    (hcount : count + (h.jobs job).weight = h.jobCount + j.weight) (hle : j.weight ≤ (h.jobs job).weight) :
    Counted { h.setJob job j with jobCount := count } := by
  have h1 := total_setJob h hlt j Job.weight (fun s => s.weight + s.refused)
  have h2 := total_setJob h hlt j Job.weight Scope.weight
  have hcount' := hc.count
  have hlimit' := hc.limit
  refine ⟨?_, ?_⟩
  · change count = (h.setJob job j).total Job.weight (fun s => s.weight + s.refused)
    omega
  · change (h.setJob job j).total Job.weight Scope.weight ≤ hostIoJobLimit
    omega

/-- The place of a scope becomes the place of its job. -/
theorem Counted.create {h : Host n} (hc : Counted h) {scope : Fin n} {s : Scope} {j : Job}
    (hold : (h.scopes scope).weight = 1 ∧ (h.scopes scope).refused = 0) (hnew : j.weight = 1 ∧ s.weight = 0 ∧ s.refused = 0) :
    Counted { (h.setScope scope s).setJob h.created j with created := h.created + 1 } := by
  have h1 := total_create (h.setScope scope s) j Job.weight (fun s => s.weight + s.refused)
  have h2 := total_create (h.setScope scope s) j Job.weight Scope.weight
  have h3 := total_setScope h scope s Job.weight (fun s => s.weight + s.refused)
  have h4 := total_setScope h scope s Job.weight Scope.weight
  simp only [setScope_created] at h1 h2
  have hcount' := hc.count
  have hlimit' := hc.limit
  refine ⟨?_, ?_⟩
  · change h.jobCount = _
    rw [h1]
    omega
  · rw [h2]
    omega

theorem Job.weight_live {j : Job} (hl : j.Live) : j.weight = 1 := by
  rw [Job.weight, if_pos hl.fresh.1, if_neg]
  rcases hl.worker with ⟨h, -⟩ | ⟨h, -⟩ | ⟨h, -⟩ | ⟨h, -⟩ <;> rw [h] <;> decide

/-- A scope takes a place within the limit. -/
theorem Counted.reserve {h : Host n} (hc : Counted h) {scope : Fin n} {s : Scope}
    (hold : (h.scopes scope).weight = 0 ∧ (h.scopes scope).refused = 0) (hnew : s.weight = 1 ∧ s.refused = 0)
    (hlt : h.jobCount < hostIoJobLimit) : Counted { h.setScope scope s with jobCount := h.jobCount + 1 } := by
  have h1 := total_setScope h scope s Job.weight (fun s => s.weight + s.refused)
  have h2 := total_setScope h scope s Job.weight Scope.weight
  have hle : h.total Job.weight Scope.weight ≤ h.total Job.weight (fun s => s.weight + s.refused) :=
    total_mono h _ fun s => Nat.le_add_right _ _
  have hcount' := hc.count
  refine ⟨?_, ?_⟩
  · change h.jobCount + 1 = (h.setScope scope s).total Job.weight (fun s => s.weight + s.refused)
    omega
  · change (h.setScope scope s).total Job.weight Scope.weight ≤ hostIoJobLimit
    omega

/-- The job as its worker ends. -/
def Job.uncounted (j : Job) : Job := { j with worker := .ended }

theorem Job.weight_uncounting {j : Job} (hw : j.worker = .uncounting) : j.weight = j.uncounted.weight + 1 := by
  have hne : j.uncounted.worker ≠ .uncounting := by simp [Job.uncounted]
  rw [Job.weight, Job.weight, if_pos hw, if_neg hne]
  rfl

theorem hostIoCall_counted {h : Host n} (hc : Counted h) (thread : Nat) : Counted (hostIoCall h thread) := by
  cases hcur : h.current thread with
  | none => simpa only [hostIoCall, hcur] using hc
  | some scope =>
    simp only [hostIoCall, hcur]
    by_cases hidle : (h.scopes scope).pc = .idle
    · rw [if_neg (not_not_intro hidle)]
      cases hjob : (h.scopes scope).job with
      | some job =>
        dsimp only
        exact hc.setScope (by simp [hidle, Scope.weight, Scope.refused]) (by simp [hidle, Scope.weight])
      | none =>
        dsimp only
        by_cases hfull : h.jobCount ≥ hostIoJobLimit
        · rw [if_pos hfull]
          exact hc.setScope (by simp [hidle, Scope.weight, Scope.refused]) (by simp [hidle, Scope.weight])
        · rw [if_neg hfull]
          exact hc.reserve (by simp [hidle, Scope.weight, Scope.refused]) (by simp [Scope.weight, Scope.refused]) (by omega)
    · rw [if_pos hidle]
      exact hc

theorem hostIoCancel_counted {h : Host n} (hc : Counted h) (scope : Fin n) : Counted (hostIoCancel h scope) := by
  rw [hostIoCancel]
  split
  · rename_i job hidle hjob
    exact hc.setScope (by simp [hidle, Scope.weight, Scope.refused]) (by simp [hidle, Scope.weight])
  · exact hc

/-- A scope that has a place gives it back. -/
theorem Counted.release {h : Host n} (hc : Counted h) {scope : Fin n} {s : Scope} (hnew : s.weight = 0 ∧ s.refused = 0)
    (hold : (h.scopes scope).weight + (h.scopes scope).refused = 1) :
    Counted { h.setScope scope s with jobCount := h.jobCount - 1 } := by
  have h1 := total_setScope h scope s Job.weight (fun s => s.weight + s.refused)
  have hcount' := hc.count
  exact hc.setScope (by omega) (by omega)

theorem go_counted {h : Host n} (ho : Owned h) (hc : Counted h) (scope : Fin n) (creation : Creation) :
    Counted (h.go scope creation) := by
  have hidle : ∀ s : Scope, ({ s with pc := .idle } : Scope).weight = 0 ∧ ({ s with pc := .idle } : Scope).refused = 0 :=
    fun s => by simp [Scope.weight, Scope.refused]
  cases hpc : (h.scopes scope).pc with
  | idle => simpa only [Host.go, hpc] using hc
  | refuse =>
    simp only [Host.go, hpc]
    exact hc.release (hidle _) (by simp [hpc, Scope.weight, Scope.refused])
  | uncount =>
    simp only [Host.go, hpc]
    exact hc.release (hidle _) (by simp [hpc, Scope.weight, Scope.refused])
  | create =>
    have hold : (h.scopes scope).weight = 1 ∧ (h.scopes scope).refused = 0 := by simp [hpc, Scope.weight, Scope.refused]
    cases creation with
    | noMemory =>
      simp only [Host.go, hpc]
      exact hc.release (hidle _) (by omega)
    | noThread =>
      simp only [Host.go, hpc]
      exact hc.create hold ⟨rfl, by simp [Scope.weight], by simp [Scope.refused]⟩
    | started =>
      simp only [Host.go, hpc]
      exact hc.create hold ⟨rfl, by simp [Scope.weight], by simp [Scope.refused]⟩
  | attach job =>
    simp only [Host.go, hpc]
    exact hc.setScope (by simp [hpc, Scope.weight, Scope.refused]) (by simp [Scope.weight])
  | check job =>
    obtain ⟨hlt, hheld⟩ := ho.held scope job (by rw [Scope.has, hpc])
    rw [hpc] at hheld
    obtain ⟨hl, -⟩ := hheld
    simp only [Host.go, hpc]
    rw [Job.touch_live hl.fresh.1]
    split
    all_goals exact hc.setBoth hlt (by simp [hpc, Scope.weight, Scope.refused]) (by simp [Scope.weight])
  | deliver job =>
    obtain ⟨hlt, hheld⟩ := ho.held scope job (by rw [Scope.has, hpc])
    rw [hpc] at hheld
    obtain ⟨hl, hab, hdone⟩ := hheld
    have hw := Job.weight_live hl
    have hnew : (({ h.jobs job with copies := (h.jobs job).copies + 1 } : Job).free true).weight = 0 := by
      rcases hl.worker with ⟨-, -, h'⟩ | ⟨-, -, h'⟩ | ⟨-, -, -, h'⟩ | ⟨h', -⟩
      · exact absurd (h'.symm.trans hdone) Bool.false_ne_true
      · exact absurd (h'.symm.trans hdone) Bool.false_ne_true
      · exact absurd (hab.symm.trans h') Bool.false_ne_true
      · simp [Job.weight, Job.free, Job.touch, h']
    simp only [Host.go, hpc]
    exact hc.setBoth hlt (by simp [hpc, hw, hnew, Scope.weight, Scope.refused]) (by simp [hw, hnew, Scope.weight])
  | abandon job =>
    obtain ⟨hlt, hheld⟩ := ho.held scope job (by rw [Scope.has, hpc])
    rw [hpc] at hheld
    obtain ⟨hl, -⟩ := hheld
    simp only [Host.go, hpc]
    rw [Job.touch_live hl.fresh.1]
    split
    all_goals exact hc.setBoth hlt (by simp [hpc, Job.weight, Scope.weight, Scope.refused]) (by simp [Job.weight, Scope.weight])
  | discard job =>
    obtain ⟨hlt, hheld⟩ := ho.held scope job (by rw [Scope.has, hpc])
    rw [hpc] at hheld
    have hweights : (h.jobs job).weight = 1 ∧ ((h.jobs job).free false).weight = 0 := by
      rcases hheld with ⟨hl, hw⟩ | ⟨hfrees, -, -, -, hw, -⟩
      · exact ⟨Job.weight_live hl, by simp [Job.weight, Job.free, Job.touch, hw]⟩
      · exact ⟨by simp [Job.weight, hfrees, hw], by simp [Job.weight, Job.free, Job.touch, hw]⟩
    simp only [Host.go, hpc]
    exact hc.setBoth hlt (by simp [hpc, hweights.1, hweights.2, Scope.weight, Scope.refused])
      (by simp [hweights.1, hweights.2, Scope.weight])

theorem jobRun_counted {h : Host n} (ho : Owned h) (hc : Counted h) (job : Nat) : Counted (jobRun h job) := by
  by_cases hlt : job < h.created
  · cases hw : (h.jobs job).worker with
    | none => simpa only [jobRun, hw] using hc
    | ended => simpa only [jobRun, hw] using hc
    | working =>
      simp only [jobRun, hw]
      exact hc.setJob hlt (by simp [hw, Job.weight, Job.touch]) (by simp [hw, Job.weight, Job.touch])
    | finishing =>
      simp only [jobRun, hw]
      have hnew : ∀ worker, worker = Worker.freeing ∨ worker = .ended →
          ({ (h.jobs job).touch with done := true, worker := worker } : Job).weight = (h.jobs job).weight := by
        rintro worker (rfl | rfl) <;> simp [hw, Job.weight, Job.touch]
      have hnew' := hnew (if (h.jobs job).abandoned then .freeing else .ended) (by cases (h.jobs job).abandoned <;> simp)
      exact hc.setJob hlt (by rw [hnew']) (Nat.le_of_eq hnew')
    | freeing =>
      have hfrees : (h.jobs job).frees = 0 := by
        rcases ho.known hlt with ⟨pc, hheld⟩ | ⟨hl, -⟩ | hg
        · exact (hheld.running (.inr (.inr (.inl hw)))).1.1.fresh.1
        · exact hl.fresh.1
        · rcases hg.worker with h' | h' | h' <;> exact absurd (hw.symm.trans h') (by decide)
      simp only [jobRun, hw]
      exact hc.setJob hlt (by simp [hw, hfrees, Job.weight, Job.touch, Job.free]) (by simp [hw, hfrees, Job.weight, Job.touch, Job.free])
    | uncounting =>
      simp only [jobRun, hw]
      have hold := Job.weight_uncounting hw
      have h1 := total_setJob h hlt (h.jobs job).uncounted Job.weight (fun s => s.weight + s.refused)
      have hcount' := hc.count
      exact hc.setJob hlt (j := (h.jobs job).uncounted) (by omega) (by omega)
  · have hnew := ho.fresh job (by omega)
    simpa only [jobRun, hnew, Job.new] using hc

/-! ## What is left to a worker -/

/-- The steps that a worker has still to make. -/
def Worker.rest : Worker → Nat
  | .none => 0
  | .working => 4
  | .finishing => 3
  | .freeing => 2
  | .uncounting => 1
  | .ended => 0

def Event.isWork (job : Nat) : Event n → Bool
  | .work other => other == job
  | _ => false

theorem setJob_worker (h : Host n) {job other : Nat} {value : Job} (hkeep : value.worker = (h.jobs job).worker) :
    ((h.setJob job value).jobs other).worker = (h.jobs other).worker := by
  by_cases heq : other = job
  · subst heq
    rw [setJob_same, hkeep]
  · rw [setJob_other h heq]

/-- The scopes leave the workers of the jobs that there are alone. -/
theorem go_worker (h : Host n) (scope : Fin n) (creation : Creation) {job : Nat} (hlt : job < h.created) :
    ((h.go scope creation).jobs job).worker = (h.jobs job).worker ∧ h.created ≤ (h.go scope creation).created := by
  have hne : job ≠ h.created := by omega
  cases hpc : (h.scopes scope).pc with
  | create =>
    cases creation with
    | noMemory => simp only [Host.go, hpc, setScope_jobs]; exact ⟨trivial, Nat.le_refl _⟩
    | noThread => simp only [Host.go, hpc]; exact ⟨by rw [setJob_other _ hne]; rfl, Nat.le_succ _⟩
    | started => simp only [Host.go, hpc]; exact ⟨by rw [setJob_other _ hne]; rfl, Nat.le_succ _⟩
  | idle => simp only [Host.go, hpc]; exact ⟨trivial, Nat.le_refl _⟩
  | refuse => simp only [Host.go, hpc]; exact ⟨rfl, Nat.le_refl _⟩
  | uncount => simp only [Host.go, hpc]; exact ⟨rfl, Nat.le_refl _⟩
  | attach => simp only [Host.go, hpc]; exact ⟨rfl, Nat.le_refl _⟩
  | check => simp only [Host.go, hpc]; exact ⟨setJob_worker _ rfl, Nat.le_refl _⟩
  | deliver => simp only [Host.go, hpc]; exact ⟨setJob_worker _ rfl, Nat.le_refl _⟩
  | abandon => simp only [Host.go, hpc]; exact ⟨setJob_worker _ rfl, Nat.le_refl _⟩
  | discard => simp only [Host.go, hpc]; exact ⟨setJob_worker _ rfl, Nat.le_refl _⟩

/-- A step of a worker takes one from what is left to it. -/
theorem jobRun_rest (h : Host n) (job other : Nat) :
    ((jobRun h job).jobs other).worker.rest ≤ (h.jobs other).worker.rest - (if job = other then 1 else 0) := by
  by_cases heq : other = job
  · subst heq
    rw [if_pos rfl]
    cases hw : (h.jobs other).worker with
    | none => simp only [jobRun, hw]; decide
    | ended => simp only [jobRun, hw]; decide
    | working => simp only [jobRun, hw, setJob_same]; decide
    | finishing =>
      simp only [jobRun, hw, setJob_same]
      cases (h.jobs other).abandoned <;> decide
    | freeing => simp only [jobRun, hw, setJob_same]; decide
    | uncounting => simp only [jobRun, hw, setJob_same]; decide
  · rw [if_neg (fun h => heq h.symm)]
    cases hw : (h.jobs job).worker with
    | none => simp only [jobRun, hw]; exact Nat.le_refl _
    | ended => simp only [jobRun, hw]; exact Nat.le_refl _
    | working => simp only [jobRun, hw, setJob_other _ heq]; exact Nat.le_refl _
    | finishing => simp only [jobRun, hw, setJob_other _ heq]; exact Nat.le_refl _
    | freeing => simp only [jobRun, hw, setJob_other _ heq]; exact Nat.le_refl _
    | uncounting => simp only [jobRun, hw, setJob_other _ heq]; exact Nat.le_refl _

theorem jobRun_created (h : Host n) (job : Nat) : (jobRun h job).created = h.created := by
  cases hw : (h.jobs job).worker <;> simp only [jobRun, hw] <;> rfl

theorem hostIoCall_jobs (h : Host n) (thread : Nat) :
    (hostIoCall h thread).jobs = h.jobs ∧ (hostIoCall h thread).created = h.created := by
  rw [hostIoCall]
  split
  · exact ⟨rfl, rfl⟩
  · dsimp only
    split
    · exact ⟨rfl, rfl⟩
    · split <;> exact ⟨rfl, rfl⟩

theorem hostIoCancel_jobs (h : Host n) (scope : Fin n) :
    (hostIoCancel h scope).jobs = h.jobs ∧ (hostIoCancel h scope).created = h.created := by
  rw [hostIoCancel]
  split <;> exact ⟨rfl, rfl⟩

/-- A step of a run takes from what is left to a worker when it is a step of that worker. -/
theorem step_rest (h : Host n) (e : Event n) {job : Nat} (hlt : job < h.created) :
    ((h.step e).jobs job).worker.rest ≤ (h.jobs job).worker.rest - (if e.isWork job then 1 else 0) ∧ job < (h.step e).created := by
  cases e with
  | enter thread scope => exact ⟨Nat.le_refl _, hlt⟩
  | leave thread => exact ⟨Nat.le_refl _, hlt⟩
  | call thread =>
    obtain ⟨hjobs, hcreated⟩ := hostIoCall_jobs h thread
    simp only [Host.step, hjobs, hcreated]
    exact ⟨Nat.le_refl _, hlt⟩
  | cancel scope =>
    obtain ⟨hjobs, hcreated⟩ := hostIoCancel_jobs h scope
    simp only [Host.step, hjobs, hcreated]
    exact ⟨Nat.le_refl _, hlt⟩
  | go scope creation =>
    obtain ⟨hworker, hcreated⟩ := go_worker h scope creation hlt
    simp only [Host.step, hworker]
    exact ⟨Nat.le_refl _, by omega⟩
  | work other =>
    have hrest := jobRun_rest h other job
    refine ⟨?_, ?_⟩
    · simpa only [Host.step, Event.isWork, beq_iff_eq] using hrest
    · rw [Host.step, jobRun_created]
      exact hlt

/-- Each step of a worker in a run takes from what is left to it. -/
theorem run_rest (es : List (Event n)) (h : Host n) {job : Nat} (hlt : job < h.created) :
    ((es.foldl Host.step h).jobs job).worker.rest ≤ (h.jobs job).worker.rest - es.countP (·.isWork job) := by
  induction es generalizing h with
  | nil => exact Nat.le_refl _
  | cons e es ih =>
    obtain ⟨hrest, hlt'⟩ := step_rest h e hlt
    have htail := ih _ hlt'
    rw [List.foldl_cons, List.countP_cons]
    cases hw : e.isWork job with
    | true =>
      rw [hw, if_pos rfl] at hrest
      rw [if_pos rfl]
      omega
    | false =>
      rw [hw, if_neg Bool.false_ne_true] at hrest
      rw [if_neg Bool.false_ne_true]
      omega

/-! ## The life of a job -/

/-- What holds of the jobs of a host, whatever its scopes and workers do. -/
structure Lifecycle (h : Host n) : Prop where
  /-- The work ran once at most, the disposal and the free once at most and together, and nothing touched the job after them. -/
  once : ∀ job, job < h.created → (h.jobs job).works ≤ 1 ∧ (h.jobs job).frees ≤ 1 ∧
    (h.jobs job).disposals.length = (h.jobs job).frees ∧ (h.jobs job).stale = false
  /-- The disposal was told that the job was delivered exactly when its data was copied out, once, after the work. -/
  delivered : ∀ job, job < h.created → (h.jobs job).copies ≤ (h.jobs job).works ∧
    (true ∈ (h.jobs job).disposals ↔ (h.jobs job).copies = 1)
  /-- A job that no scope has was freed, once its worker has nothing left to do. -/
  freed : ∀ job, job < h.created → (∀ scope, (h.scopes scope).has ≠ some job) → (h.jobs job).worker.rest ≤ 1 → (h.jobs job).frees = 1
  /-- No more than sixteen jobs are alive, and fewer while a call is about to create one. -/
  limit : h.alive.card ≤ hostIoJobLimit ∧ ∀ scope, (h.scopes scope).pc = .create → h.alive.card < hostIoJobLimit
  /-- The count is never far from the jobs that are alive. -/
  count : h.alive.card ≤ h.jobCount ∧ h.jobCount ≤ hostIoJobLimit + n
  /-- Once the calls are over and the workers have counted off what they freed, the count is the jobs that are alive. -/
  settled : (∀ scope, (h.scopes scope).pc = .idle) → (∀ job, job < h.created → (h.jobs job).worker ≠ .uncounting) →
    h.jobCount = h.alive.card

theorem alive_card (h : Host n) : h.alive.card = h.total (fun j => if j.frees = 0 then 1 else 0) (fun _ => 0) := by
  rw [Host.alive, Finset.card_filter, Host.total, Finset.sum_const_zero, Nat.add_zero]

/-- The jobs that are alive and the places of the scopes are within the places that are taken. -/
theorem alive_le (h : Host n) (g : Scope → Nat) : h.alive.card + ∑ scope, g (h.scopes scope) ≤ h.total Job.weight g := by
  rw [Host.alive, Finset.card_filter, Host.total]
  exact Nat.add_le_add_right (Finset.sum_le_sum fun _ _ => Nat.le_add_right _ _) _

/-- A job that was not freed is as it was created, but for its work. -/
structure Job.Kept (j : Job) : Prop where
  works : j.works ≤ 1
  fresh : j.frees = 0 ∧ j.disposals = [] ∧ j.copies = 0 ∧ j.stale = false

theorem Job.Live.kept {j : Job} (hl : j.Live) : j.Kept := by
  refine ⟨?_, hl.fresh⟩
  rcases hl.worker with ⟨-, hk, -⟩ | ⟨-, hk, -⟩ | ⟨-, hk, -⟩ | ⟨-, hk, -⟩ <;> omega

theorem Job.Held.kept {j : Job} {pc : Pc} (hh : j.Held pc) : j.Kept := by
  cases pc with
  | discard =>
    rcases hh with ⟨hl, -⟩ | ⟨hfrees, hdisposals, hcopies, hstale, -, hworks⟩
    · exact hl.kept
    · exact ⟨by omega, hfrees, hdisposals, hcopies, hstale⟩
  | idle => exact hh.1.kept
  | refuse => exact hh.1.kept
  | create => exact hh.1.kept
  | attach => exact hh.1.kept
  | check => exact hh.1.kept
  | deliver => exact hh.1.kept
  | abandon => exact hh.1.kept
  | uncount => exact hh.1.kept

/-- A job was freed once, or it was kept. -/
theorem Owned.life {h : Host n} (ho : Owned h) {job : Nat} (hlt : job < h.created) : (h.jobs job).Gone ∨ (h.jobs job).Kept := by
  rcases ho.known hlt with ⟨pc, hheld⟩ | ⟨hl, -⟩ | hg
  · exact .inr hheld.kept
  · exact .inr hl.kept
  · exact .inl hg

/-- What is known of the jobs and of the count gives the life of every job. -/
theorem lifecycle_of_owned {h : Host n} (ho : Owned h) (hc : Counted h) : Lifecycle h where
  once := by
    intro job hlt
    rcases ho.life hlt with hg | hk
    · refine ⟨hg.works, Nat.le_of_eq hg.frees, ?_, hg.fresh⟩
      rcases hg.disposal with ⟨hd, -, -⟩ | ⟨hd, -⟩ <;> rw [hd, hg.frees] <;> rfl
    · obtain ⟨hfrees, hdisposals, -, hstale⟩ := hk.fresh
      exact ⟨hk.works, by omega, by rw [hdisposals, hfrees]; rfl, hstale⟩
  delivered := by
    intro job hlt
    rcases ho.life hlt with hg | hk
    · rcases hg.disposal with ⟨hd, hcopies, hworks⟩ | ⟨hd, hcopies⟩
      · exact ⟨by omega, by simp [hd, hcopies]⟩
      · exact ⟨by omega, by simp [hd, hcopies]⟩
    · obtain ⟨-, hdisposals, hcopies, -⟩ := hk.fresh
      exact ⟨by omega, by simp [hdisposals, hcopies]⟩
  freed := by
    intro job hlt hno hrest
    rcases ho.loose job hlt hno with ⟨hl, -, hne⟩ | hg
    · rcases hl.worker with ⟨hw, -⟩ | ⟨hw, -⟩ | ⟨hw, -⟩ | ⟨hw, -⟩
      · rw [hw] at hrest
        exact absurd hrest (by decide)
      · rw [hw] at hrest
        exact absurd hrest (by decide)
      · rw [hw] at hrest
        exact absurd hrest (by decide)
      · exact absurd hw hne
    · exact hg.frees
  limit := by
    have hle := alive_le h Scope.weight
    have hlimit := hc.limit
    refine ⟨by omega, fun scope hpc => ?_⟩
    have hone : (h.scopes scope).weight ≤ ∑ other, (h.scopes other).weight :=
      Finset.single_le_sum (f := fun other => (h.scopes other).weight) (fun _ _ => Nat.zero_le _) (Finset.mem_univ scope)
    have hw : (h.scopes scope).weight = 1 := by simp [Scope.weight, hpc]
    omega
  count := by
    have hle := alive_le h (fun s => s.weight + s.refused)
    have hlimit := hc.limit
    have hcount := hc.count
    have hrefused : ∑ scope, (h.scopes scope).refused ≤ n := by
      have hone : ∀ scope ∈ Finset.univ, (h.scopes scope).refused ≤ 1 := by
        intro scope _
        rw [Scope.refused]
        split <;> decide
      simpa using Finset.sum_le_card_nsmul Finset.univ _ 1 hone
    have hsplit : h.total Job.weight (fun s => s.weight + s.refused) =
        h.total Job.weight Scope.weight + ∑ scope, (h.scopes scope).refused := by
      rw [Host.total, Host.total, Finset.sum_add_distrib]
      omega
    exact ⟨by omega, by omega⟩
  settled := by
    intro hidle hworkers
    have hscopes : ∑ scope, ((h.scopes scope).weight + (h.scopes scope).refused) = 0 :=
      Finset.sum_eq_zero fun scope _ => by simp [Scope.weight, Scope.refused, hidle scope]
    have hjobs : ∑ job ∈ Finset.range h.created, (h.jobs job).weight =
        ∑ job ∈ Finset.range h.created, if (h.jobs job).frees = 0 then 1 else 0 :=
      Finset.sum_congr rfl fun job hjob => by
        rw [Job.weight, if_neg (hworkers job (Finset.mem_range.1 hjob)), Nat.add_zero]
    rw [hc.count, Host.total, hscopes, hjobs, Host.alive, Finset.card_filter, Nat.add_zero]

theorem initial_counted (n : Nat) : Counted (Host.initial n) := by
  have hscopes : ∀ g : Scope → Nat, g ⟨none, false, false, .idle⟩ = 0 → (Host.initial n).total Job.weight g = 0 := by
    intro g hg
    simp [Host.total, Host.initial, hg]
  refine ⟨(hscopes _ (by simp [Scope.weight, Scope.refused])).symm, ?_⟩
  rw [hscopes _ (by simp [Scope.weight])]
  exact Nat.zero_le _

/-- Every event keeps the count. -/
theorem step_counted {h : Host n} (ho : Owned h) (hc : Counted h) (e : Event n) : Counted (h.step e) := by
  cases e with
  | enter thread scope =>
    have hset : Counted (h.setScope scope { h.scopes scope with pending := false }) :=
      hc.setScope (by simp [Scope.weight, Scope.refused]) (by simp [Scope.weight])
    exact hset.congr rfl rfl rfl rfl
  | leave thread => exact hc.congr rfl rfl rfl rfl
  | call thread => exact hostIoCall_counted hc thread
  | cancel scope => exact hostIoCancel_counted hc scope
  | go scope creation => exact go_counted ho hc scope creation
  | work job => exact jobRun_counted ho hc job

/-- The life of every job holds along every run of the scopes and the workers. -/
theorem lifecycle_run (n : Nat) (es : List (Event n)) : Lifecycle (es.foldl Host.step (Host.initial n)) := by
  obtain ⟨ho, hc⟩ := foldl_invariant (fun h => Owned h ∧ Counted h) (fun h e hi => ⟨step_owned hi.1 e, step_counted hi.1 hi.2 e⟩) es
    ⟨initial_owned n, initial_counted n⟩
  exact lifecycle_of_owned ho hc

/-- A job that no scope has at the end of a run in which its worker made three steps was freed once, and its disposal was called once. -/
theorem freed_run (es es' : List (Event n)) {job : Nat} (hlt : job < (es.foldl Host.step (Host.initial n)).created)
    (hwork : 3 ≤ es'.countP (·.isWork job))
    (hno : ∀ scope, (((es ++ es').foldl Host.step (Host.initial n)).scopes scope).has ≠ some job) :
    (((es ++ es').foldl Host.step (Host.initial n)).jobs job).frees = 1 := by
  have hlife := lifecycle_run n (es ++ es')
  rw [List.foldl_append] at hlife hno ⊢
  have hrest := run_rest es' _ hlt
  have hfour : ∀ worker : Worker, worker.rest ≤ 4 := by intro worker; cases worker <;> decide
  have hold := hfour ((es.foldl Host.step (Host.initial n)).jobs job).worker
  have hcreated : job < (es'.foldl Host.step (es.foldl Host.step (Host.initial n))).created := by
    have hkeep := foldl_invariant (fun h : Host n => job < h.created) (fun h e hi => (step_rest h e hi).2) es' hlt
    exact hkeep
  exact hlife.freed job hcreated hno (by omega)

end HostIo
end TabOS
