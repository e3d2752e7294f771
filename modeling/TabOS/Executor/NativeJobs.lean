import TabOS.Executor.NativeTask

/-!
# Jobs of the computing task

The jobs that an application submits, through every interleaving of the application with its computing task and with the kernel that may
suspend either. A job is submitted by four stores of the application and taken by two steps of the computing task, and its result comes back
the same way, so that at any time the job is at one stage, and each side knows which stages it may find.
-/

namespace TabOS
namespace Executor
namespace Native

open Library

/-- How far the last job that was accepted has come; `idle` when its outcome was reported, or there was none. -/
inductive Stage where
  | idle | stored | published | woken | taken | called | running | ended | complete
  deriving DecidableEq, Repr

/-- Whether `compute_submitted` is set at a stage. -/
def Stage.submitted : Stage → Bool
  | .published | .woken | .taken => true
  | _ => false

/-- Where the computing task may be at a stage. -/
def Stage.allows : Stage → WorkerPc → Bool
  | .taken, pc => pc == .exchange
  | .called, pc => pc == .call
  | .running, pc => pc == .run
  | .ended, pc => pc == .complete
  | _, pc => pc == .wait || pc == .notify

/-- The job is accepted and its callback is not called yet. -/
def Stage.queued : Stage → Bool
  | .stored | .published | .woken | .taken | .called => true
  | _ => false

/-- The callback has come to its end and the outcome is not reported yet. -/
def Stage.unreported : Stage → Bool
  | .ended | .complete => true
  | _ => false

/-- The services that change what is known of a job. -/
def Pc.submits : Pc → Bool
  | .service (.store _) | .service .publish | .service .wake | .service .take => true
  | _ => false

/-- The last job is at a stage. -/
structure Tracks (image : Executable) (stage : Stage) (c : Context) : Prop where
  pending : c.computePending = decide (stage ≠ .idle)
  submitted : c.computeSubmitted = stage.submitted
  ready : c.computeReady = decide (stage = .woken)
  complete : stage ≠ .idle → c.computeComplete = decide (stage = .complete)
  worker : stage.allows c.workerPc = true
  created : stage ≠ .idle → c.computeTask.isSome = true
  stored : c.pc = .service .publish ↔ stage = .stored
  published : c.pc = .service .wake ↔ stage = .published
  storing : ∀ job, c.pc = .service (.store job) → stage = .idle ∧ image.refuses job = false ∧ c.computeTask.isSome = true
  taking : c.pc = .service .take → stage = .idle ∨ stage = .complete
  jobs : c.accepted = c.ran ++ if stage.queued then [c.computeJob] else []
  results : c.outcomes = c.reported ++ if stage.unreported then [c.computeResult] else []
  runs : c.ran.length = c.outcomes.length + if stage = .running then 1 else 0
  inside : ∀ job ∈ c.accepted, image.refuses job = false

theorem tracks_created (image : Executable) : Tracks image .idle .created := by
  constructor <;> simp [Context.created, Stage.submitted, Stage.allows, Stage.queued, Stage.unreported]

section Steps

variable {image : Executable} {stage : Stage} {c d : Context}

/-- A step that touches no job and enters or leaves no part of a submission keeps the stage. -/
theorem Tracks.roam (h : Tracks image stage c) (hpending : d.computePending = c.computePending)
    (hsubmitted : d.computeSubmitted = c.computeSubmitted) (hready : d.computeReady = c.computeReady)
    (hcomplete : d.computeComplete = c.computeComplete) (hworker : d.workerPc = c.workerPc)
    (htask : c.computeTask.isSome = true → d.computeTask.isSome = true) (hjob : d.computeJob = c.computeJob)
    (hresult : d.computeResult = c.computeResult) (haccepted : d.accepted = c.accepted) (hran : d.ran = c.ran)
    (houtcomes : d.outcomes = c.outcomes) (hreported : d.reported = c.reported)
    (hpc : d.pc = c.pc ∨ (c.pc ≠ .service .publish ∧ c.pc ≠ .service .wake ∧ d.pc.submits = false)) : Tracks image stage d := by
  refine ⟨by rw [hpending, h.pending], by rw [hsubmitted, h.submitted], by rw [hready, h.ready], fun hs => by rw [hcomplete, h.complete hs],
    by rw [hworker, h.worker], fun hs => htask (h.created hs), ?_, ?_, ?_, ?_, by rw [haccepted, hran, hjob, h.jobs],
    by rw [houtcomes, hreported, hresult, h.results], by rw [hran, houtcomes, h.runs], by rw [haccepted]; exact h.inside⟩
  · rcases hpc with hpc | ⟨hpublish, -, hpc⟩
    · rw [hpc, h.stored]
    · rw [← h.stored]
      refine ⟨fun hd => ?_, fun hc => absurd hc hpublish⟩
      rw [hd] at hpc
      exact Bool.noConfusion hpc
  · rcases hpc with hpc | ⟨-, hwake, hpc⟩
    · rw [hpc, h.published]
    · rw [← h.published]
      refine ⟨fun hd => ?_, fun hc => absurd hc hwake⟩
      rw [hd] at hpc
      exact Bool.noConfusion hpc
  · intro job hd
    rcases hpc with hpc | ⟨-, -, hpc⟩
    · obtain ⟨hidle, himage, hsome⟩ := h.storing job (hpc ▸ hd)
      exact ⟨hidle, himage, htask hsome⟩
    · rw [hd] at hpc
      exact Bool.noConfusion hpc
  · intro hd
    rcases hpc with hpc | ⟨-, -, hpc⟩
    · exact h.taking (hpc ▸ hd)
    · rw [hd] at hpc
      exact Bool.noConfusion hpc

/-- A service goes on by a step. -/
theorem Tracks.serve (h : Tracks image stage c) (choice : Choice) {at_ : Service} (hpc : c.pc = .service at_) :
    ∃ stage', Tracks image stage' (c.serve image choice at_) := by
  have hroam : at_ ≠ .publish ∧ at_ ≠ .wake → ∀ pc : Pc, pc.submits = false → ∀ (answer : Int) (finished : Bool),
      Tracks image stage { c with answer := answer, computeFinished := finished, pc := pc } := by
    intro hat pc hsubmits answer finished
    refine h.roam rfl rfl rfl rfl rfl id rfl rfl rfl rfl rfl rfl (.inr ⟨?_, ?_, hsubmits⟩) <;> rw [hpc] <;> simp [hat]
  have hidle : c.computePending = false → stage = .idle := by
    intro hno
    have hpending := h.pending
    rw [hno] at hpending
    simpa using hpending.symm
  cases at_ <;> simp only [Context.serve, Context.answers]
  case other => exact ⟨stage, hroam (by simp) _ rfl _ _⟩
  case submit job =>
    split
    · exact ⟨stage, hroam (by simp) _ rfl _ _⟩
    split
    · exact ⟨stage, hroam (by simp) _ rfl _ _⟩
    rename_i hfree
    obtain rfl := hidle (by simpa using hfree)
    split
    · exact ⟨.idle, hroam (by simp) _ rfl _ _⟩
    rename_i hvalid
    rw [Bool.not_eq_true] at hvalid
    have hstore : ∀ worker : Option Task, worker.isSome = true →
        Tracks image .idle { c with computeTask := worker, pc := .service (.store job) } := by
      intro worker hsome
      refine ⟨h.pending, h.submitted, h.ready, h.complete, h.worker, by simp, by simp, by simp, ?_, by simp, h.jobs, h.results, h.runs, h.inside⟩
      intro job' hjob
      obtain rfl : job = job' := by simpa using hjob
      exact ⟨rfl, hvalid, hsome⟩
    split
    · exact ⟨.idle, hroam (by simp) _ rfl _ _⟩
    · exact ⟨.idle, hstore _ rfl⟩
    · rename_i hworker
      exact ⟨.idle, hstore c.computeTask (by rw [hworker]; rfl)⟩
  case store job =>
    obtain ⟨rfl, hvalid, hsome⟩ := h.storing job hpc
    have hjobs := h.jobs
    refine ⟨.stored, by simp, h.submitted, h.ready, fun _ => by simp, h.worker, fun _ => hsome, by simp, by simp, by simp, by simp, ?_,
      h.results, h.runs, ?_⟩
    · simpa [Stage.queued] using hjobs
    · intro job' hmem
      rcases List.mem_append.mp hmem with hmem | hmem
      · exact h.inside job' hmem
      · rwa [List.mem_singleton.mp hmem]
  case publish =>
    obtain rfl := h.stored.mp hpc
    exact ⟨.published, h.pending, by simp [Stage.submitted], h.ready, fun _ => by simp [h.complete], h.worker, fun _ => h.created (by simp),
      by simp, by simp, by simp, by simp, h.jobs, h.results, h.runs, h.inside⟩
  case wake =>
    obtain rfl := h.published.mp hpc
    exact ⟨.woken, h.pending, h.submitted, by simp, fun _ => by simp [h.complete], h.worker, fun _ => h.created (by simp), by simp, by simp,
      by simp, by simp, h.jobs, h.results, h.runs, h.inside⟩
  case poll => split <;> exact ⟨stage, hroam (by simp) _ rfl _ _⟩
  case polled => exact ⟨stage, hroam (by simp) _ rfl _ _⟩
  case join =>
    have hnot : stage ≠ .stored ∧ stage ≠ .published := by
      refine ⟨fun hs => ?_, fun hs => ?_⟩
      · have := h.stored.mpr hs
        simp [hpc] at this
      · have := h.published.mpr hs
        simp [hpc] at this
    cases hwaits : c.computePending && !c.computeComplete
    · refine ⟨stage, h.pending, h.submitted, h.ready, h.complete, h.worker, h.created, by simp [hnot.1], by simp [hnot.2], by simp, fun _ => ?_,
        h.jobs, h.results, h.runs, h.inside⟩
      by_cases hs : stage = .idle
      · exact .inl hs
      · have hpending := h.pending
        have hcomplete := h.complete hs
        simp_all
    · exact ⟨stage, hroam (by simp) _ rfl _ _⟩
  case cancelled => split <;> exact ⟨stage, hroam (by simp) _ rfl _ _⟩
  case await => exact ⟨stage, hroam (by simp) _ rfl _ _⟩
  case take =>
    split
    · rename_i hpending
      rcases h.taking hpc with rfl | rfl
      · have := h.pending
        simp [hpending] at this
      · have hjobs := h.jobs
        have hresults := h.results
        refine ⟨.idle, by simp, h.submitted, h.ready, by simp, h.worker, by simp, by simp, by simp, by simp, by simp, hjobs, ?_, h.runs, h.inside⟩
        simpa [Stage.unreported] using hresults
    · exact ⟨stage, hroam (by simp) _ rfl _ _⟩

/-- The application goes on by a step. -/
theorem Tracks.goTask (h : Tracks image stage c) (choice : Choice) : ∃ stage', Tracks image stage' (c.goTask image choice) := by
  unfold Context.goTask
  cases hpc : c.pc <;> dsimp only
  case service at_ => exact h.serve choice hpc
  case code =>
    cases choice
    case returns status => exact ⟨stage, h.roam rfl rfl rfl rfl rfl id rfl rfl rfl rfl rfl rfl (.inr ⟨by simp [hpc], by simp [hpc], rfl⟩)⟩
    all_goals exact ⟨stage, h.roam rfl rfl rfl rfl rfl id rfl rfl rfl rfl rfl rfl (.inr ⟨by simp [hpc], by simp [hpc], rfl⟩)⟩
  all_goals
    refine ⟨stage, h.roam rfl rfl rfl rfl rfl id rfl rfl rfl rfl rfl rfl ?_⟩
  case escaped => exact .inl rfl
  case count =>
    refine .inr ⟨by simp [hpc], by simp [hpc], ?_⟩
    cases choice <;> rfl
  case enter =>
    refine .inr ⟨by simp [hpc], by simp [hpc], ?_⟩
    cases c.stopRequested <;> rfl
  case leave =>
    refine .inr ⟨by simp [hpc], by simp [hpc], ?_⟩
    dsimp only
    split <;> rfl
  case left =>
    refine .inr ⟨by simp [hpc], by simp [hpc], ?_⟩
    cases c.stopRequested <;> rfl
  all_goals exact .inr ⟨by simp [hpc], by simp [hpc], rfl⟩

/-- The computing task goes on by a step. -/
theorem Tracks.goWorker (h : Tracks image stage c) (escapes : Bool) : ∃ stage', Tracks image stage' (c.goWorker escapes) := by
  have hworker := h.worker
  unfold Context.goWorker
  cases hpc : c.workerPc <;> rw [hpc] at hworker <;> dsimp only
  case wait =>
    split
    · rename_i hready
      obtain rfl : stage = .woken := by simpa [hready] using h.ready
      exact ⟨.taken, h.pending, h.submitted, by simp, fun _ => by simp [h.complete], rfl, fun _ => h.created (by simp), by simp [h.stored],
        by simp [h.published], fun job hjob => by simpa using h.storing job hjob, fun ht => by simpa using h.taking ht, h.jobs, h.results,
        h.runs, h.inside⟩
    · exact ⟨stage, h⟩
  case exchange =>
    obtain rfl : stage = .taken := by cases stage <;> simp_all [Stage.allows]
    refine ⟨.called, h.pending, by simp [Stage.submitted], by simp [h.ready], fun _ => by simp [h.complete], ?_, fun _ => h.created (by simp),
      by simp [h.stored], by simp [h.published], fun job hjob => by simpa using h.storing job hjob, fun ht => by simpa using h.taking ht,
      h.jobs, h.results, h.runs, h.inside⟩
    simp [h.submitted, Stage.submitted, Stage.allows]
  case call =>
    obtain rfl : stage = .called := by cases stage <;> simp_all [Stage.allows]
    have hjobs := h.jobs
    have hruns := h.runs
    refine ⟨.running, h.pending, h.submitted, by simp [h.ready], fun _ => by simp [h.complete], rfl, fun _ => h.created (by simp),
      by simp [h.stored], by simp [h.published], fun job hjob => by simpa using h.storing job hjob, fun ht => by simpa using h.taking ht,
      ?_, h.results, ?_, h.inside⟩
    · simpa [Stage.queued] using hjobs
    · simpa using hruns
  case run =>
    obtain rfl : stage = .running := by cases stage <;> simp_all [Stage.allows]
    have hresults := h.results
    have hruns := h.runs
    refine ⟨.ended, h.pending, h.submitted, by simp [h.ready], fun _ => by simp [h.complete], rfl, fun _ => h.created (by simp),
      by simp [h.stored], by simp [h.published], fun job hjob => by simpa using h.storing job hjob, fun ht => by simpa using h.taking ht,
      h.jobs, ?_, ?_, h.inside⟩
    · simpa [Stage.unreported] using hresults
    · simpa using hruns
  case complete =>
    obtain rfl : stage = .ended := by cases stage <;> simp_all [Stage.allows]
    exact ⟨.complete, h.pending, h.submitted, by simp [h.ready], fun _ => by simp, rfl, fun _ => h.created (by simp),
      by simp [h.stored], by simp [h.published], fun job hjob => by simpa using h.storing job hjob, fun _ => .inr rfl,
      h.jobs, h.results, h.runs, h.inside⟩
  case notify =>
    exact ⟨stage, h.pending, h.submitted, h.ready, h.complete, by cases stage <;> simp_all [Stage.allows], h.created, h.stored, h.published,
      h.storing, h.taking, h.jobs, h.results, h.runs, h.inside⟩

/-- Neither the scheduler nor the kernel touches a job. -/
theorem Tracks.untouched (h : Tracks image stage c) {worker : Option Task} (hworker : worker.isSome = c.computeTask.isSome) {task : Task}
    {kernel : KernelPc} {destroying started stop : Bool} {status : Option Int} :
    Tracks image stage { c with
      task := task, computeTask := worker, kernel := kernel, destroying := destroying, started := started, stopRequested := stop,
      status := status } :=
  h.roam rfl rfl rfl rfl rfl (fun hs => by rwa [hworker]) rfl rfl rfl rfl rfl rfl (.inl rfl)

/-- The kernel goes on by a step. -/
theorem Tracks.goKernel (h : Tracks image stage c) : Tracks image stage c.goKernel := by
  unfold Context.goKernel
  cases hk : c.kernel <;> dsimp only
  case settle => split <;> first | exact h | exact h.untouched rfl
  case suspendCompute =>
    split
    · exact h.untouched rfl
    · rename_i hworker
      exact h.untouched (by rw [hworker]; rfl)
  case settleCompute => split <;> first | exact h | exact h.untouched rfl
  case quiet => split <;> first | exact h | exact h.untouched rfl
  case idle => exact h
  case deleted => exact h
  all_goals exact h.untouched rfl

/-- Whatever happens next, the last job is at some stage. -/
theorem Tracks.step (h : Tracks image stage c) (event : Event) : ∃ stage', Tracks image stage' (c.step image event) := by
  have hhalt (destroying : Bool) : Tracks image stage (c.halt destroying) := by
    unfold Context.halt
    split
    · exact h.untouched rfl
    · split
      · exact h.untouched rfl
      · exact h
  cases event <;> simp only [Context.step]
  case dispatch =>
    split
    · exact ⟨stage, h.untouched rfl⟩
    · exact ⟨stage, h⟩
  case preempt => exact ⟨stage, h.untouched rfl⟩
  case task choice =>
    split
    · exact h.goTask choice
    · exact ⟨stage, h⟩
  case dispatchWorker => exact ⟨stage, h.untouched (by simp)⟩
  case preemptWorker => exact ⟨stage, h.untouched (by simp)⟩
  case worker escapes =>
    split
    · exact h.goWorker escapes
    · exact ⟨stage, h⟩
  case step created =>
    split
    · unfold Context.poll
      split
      · split
        · exact ⟨stage, h.untouched rfl⟩
        · exact ⟨stage, h⟩
      · split
        · exact ⟨stage, h.untouched rfl⟩
        · exact ⟨stage, h⟩
    · exact ⟨stage, h⟩
  case stop =>
    split
    · exact ⟨stage, hhalt false⟩
    · exact ⟨stage, h⟩
  case destroy =>
    split
    · exact ⟨stage, hhalt true⟩
    · exact ⟨stage, h⟩
  case kernel => exact ⟨stage, h.goKernel⟩

end Steps

theorem tracks_run (image : Executable) (events : List Event) : ∃ stage, Tracks image stage (Native.run image events) := by
  refine foldl_invariant (fun c => ∃ stage, Tracks image stage c) ?_ events ⟨.idle, tracks_created image⟩
  rintro c event ⟨stage, h⟩
  exact h.step event

/-- In every interleaving the computing task runs the accepted jobs in their order, each once, and none whose callback is outside the
executable; `platform_riscv32_compute_wait` reports the outcomes of the runs in their order, each once; there is never a second job before the
outcome of the first is reported; when no job is pending, each has run and its outcome is reported; once the last is complete, the result is
that of its run; and while it is not, the computing task is not left waiting, unless the submission is still to wake it. -/
theorem jobs_run_once (image : Executable) (events : List Event) :
    let c := Native.run image events
    c.ran <+: c.accepted ∧ c.reported <+: c.outcomes ∧ c.outcomes.length ≤ c.ran.length ∧ c.accepted.length ≤ c.reported.length + 1 ∧
      (∀ job ∈ c.ran, image.refuses job = false) ∧
      (c.computePending = false → c.ran = c.accepted ∧ c.outcomes = c.reported ∧ c.ran.length = c.outcomes.length) ∧
      (c.computePending = true → c.computeComplete = true →
        c.ran = c.accepted ∧ c.ran.length = c.outcomes.length ∧ c.outcomes = c.reported ++ [c.computeResult]) ∧
      (c.computePending = true → c.computeComplete = false →
        c.pc = .service .publish ∨ c.pc = .service .wake ∨ c.computeReady = true ∨ c.workerPc ≠ .wait ∧ c.workerPc ≠ .notify) := by
  intro c
  obtain ⟨stage, h⟩ := tracks_run image events
  change Tracks image stage c at h
  have hjobs := h.jobs
  have hresults := h.results
  have hruns := h.runs
  refine ⟨⟨_, hjobs.symm⟩, ⟨_, hresults.symm⟩, by omega, ?_, fun job hmem => h.inside job ?_, fun hpending => ?_, fun hpending hcomplete => ?_,
    fun hpending hcomplete => ?_⟩
  · rw [hjobs, List.length_append, hruns, hresults, List.length_append]
    cases stage <;> simp [Stage.queued, Stage.unreported]
  · rw [hjobs]
    exact List.mem_append_left _ hmem
  · obtain rfl : stage = .idle := by simpa [hpending] using h.pending
    simp_all [Stage.queued, Stage.unreported]
  · obtain rfl : stage = .complete := by
      have hnot : stage ≠ .idle := by simpa [hpending] using h.pending
      simpa [hcomplete] using h.complete hnot
    simp_all [Stage.queued, Stage.unreported]
  · have hnot : stage ≠ .idle := by simpa [hpending] using h.pending
    have hcomplete' := h.complete hnot
    have hworker := h.worker
    have hready := h.ready
    rw [h.stored, h.published]
    cases stage <;> simp_all [Stage.allows]

end Native
end Executor
end TabOS
