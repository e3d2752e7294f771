import TabOS.Power.Core

/-!
# Suspend and resume

What the core of the manager and the view of the outside have to do with each other, phase by phase, and that the driver keeps it. The
participants that are down are always the end of the dependency order: `drive` takes them down from the end and up to the end. A loop
of `drive` ends before its bound, because no round that goes on leaves as much work as it found.
-/

namespace TabOS
namespace Power

open Library

/-- The states of a phase. -/
def StateOf : Phase → State → Prop
  | .none, state => state = .active ∨ state = .idle
  | .suspend, state => state = .suspending
  | .waitSuspend, state => state = .suspending
  | .sleep, state => state = .suspended
  | .resume, state => state = .resuming
  | .waitResume, state => state = .resuming

/-- On the way down: the last participants of the order are down, and the tokens of this generation are to suspend those that have
been called. -/
structure Falling (c : Core) (called : Nat) (v : View) : Prop where
  cursor_le : c.cursor ≤ c.participants.length
  suspended : c.suspended = (c.dependencyOrder.drop (c.participants.length - c.cursor)).reverse
  down : v.down = c.dependencyOrder.drop (c.participants.length - c.cursor)
  prepared : v.prepared = false
  asleep : v.asleep = false
  unprepared : c.platformPrepared = false
  issued : ∀ token ∈ v.issued, token.generation = c.generation →
    token.operation = .suspend ∧ token.participant ∈ c.dependencyOrder.drop (c.participants.length - called)

/-- On the way up, from the participant of the order that was suspended last: of those that were suspended, the later ones are still
down, and the tokens of this generation to resume are for those that have been called. -/
structure Rising (c : Core) (bottom called : Nat) (v : View) : Prop where
  cursor_le : bottom + c.cursor ≤ c.participants.length
  suspended : c.suspended = (c.dependencyOrder.drop bottom).reverse
  down : v.down = c.dependencyOrder.drop (bottom + called)
  prepared : v.prepared = false
  asleep : v.asleep = false
  rising : v.rising = true
  issued : ∀ token ∈ v.issued, token.generation = c.generation → token.operation = .resume →
    token.participant ∈ (c.dependencyOrder.drop bottom).take called

/-- Nothing is down and the platform is awake. -/
structure Resting (c : Core) (v : View) : Prop where
  suspended : c.suspended = []
  unprepared : c.platformPrepared = false
  outstanding : v.outstanding = none
  down : v.down = []
  prepared : v.prepared = false
  asleep : v.asleep = false

/-- All participants are down and the platform is asleep. -/
structure Sleeping (c : Core) (v : View) : Prop where
  suspended : c.suspended = c.dependencyOrder.reverse
  outstanding : v.outstanding = none
  down : v.down = c.dependencyOrder
  prepared : v.prepared = true
  asleep : v.asleep = true
  issued : ∀ token ∈ v.issued, token.generation = c.generation → token.operation = .suspend

/-- The core and the view in each phase. -/
def Agrees (c : Core) (v : View) : Prop :=
  match c.phase with
  | .none => Resting c v
  | .suspend => v.outstanding = none ∧ (v.rising = true → v.down = []) ∧ Falling c c.cursor v
  | .waitSuspend =>
    ∃ base, v = pendingView c true base ∧ base.rising = false ∧ Falling c (c.cursor + 1) base ∧
      c.cursor < c.participants.length ∧ c.expected.operation = .suspend ∧
      c.dependencyOrder[c.participants.length - 1 - c.cursor]? = some c.expected.participant
  | .sleep => Sleeping c v
  | .resume => v.outstanding = none ∧ ∃ bottom, Rising c bottom c.cursor v
  | .waitResume =>
    ∃ base bottom, v = pendingView c true base ∧ Rising c bottom (c.cursor + 1) base ∧
      bottom + c.cursor < c.participants.length ∧ c.expected.operation = .resume

/-- A finalized manager with its dependency order, in the middle of a round. -/
structure Driving (w : World) : Prop where
  capacity : w.manager.participants.length ≤ participantCapacity
  finalized : w.manager.finalized = true
  ordered : Ordered w.manager
  sound : Sound (DependsOn w.manager) w.log
  issued_le : ∀ token ∈ (viewOf w.log).issued, token.generation ≤ w.manager.status.generation
  result : w.manager.completionReady = true → w.manager.completionResult ≠ .pending

/-- What holds of the manager and the view between rounds. -/
structure Inv (w : World) : Prop where
  capacity : w.manager.participants.length ≤ participantCapacity
  finalized : w.manager.phase ≠ .none → w.manager.finalized = true
  ordered : w.manager.phase ≠ .none ∨ w.manager.finalized = true ∧ w.manager.status.suspendAvailable = true → Ordered w.manager
  empty : w.manager.finalized = false → w.manager.dependencyOrder = []
  sound : Sound (DependsOn w.manager) w.log
  issued_le : ∀ token ∈ (viewOf w.log).issued, token.generation ≤ w.manager.status.generation
  uncalled : w.manager.finalized = false → (viewOf w.log).issued = []
  result : w.manager.completionReady = true → w.manager.completionResult ≠ .pending
  state : StateOf w.manager.phase w.manager.status.state
  agrees : Agrees w.manager.core (viewOf w.log)

theorem Inv.driving {w : World} (h : Inv w) (hphase : w.manager.phase ≠ .none) : Driving w :=
  ⟨h.capacity, h.finalized hphase, h.ordered (Or.inl hphase), h.sound, h.issued_le, h.result⟩

theorem Driving.inv {w : World} (h : Driving w) (hstate : StateOf w.manager.phase w.manager.status.state)
    (hagrees : Agrees w.manager.core (viewOf w.log)) : Inv w where
  capacity := h.capacity
  finalized _ := h.finalized
  ordered _ := h.ordered
  empty hnot := absurd (hnot.symm.trans h.finalized) (by decide)
  sound := h.sound
  issued_le := h.issued_le
  uncalled hnot := absurd (hnot.symm.trans h.finalized) (by decide)
  result := h.result
  state := hstate
  agrees := hagrees

theorem Ordered.congr {m m' : Manager} (h : Ordered m) (hparticipants : m'.participants = m.participants)
    (horder : m'.dependencyOrder = m.dependencyOrder) : Ordered m' := by
  refine ⟨?_, ?_⟩
  · rw [dependsOn_congr hparticipants, horder]
    exact h.topological
  · rw [horder, hparticipants]
    exact h.perm

/-- The participants and their order stay while the manager is driven. -/
theorem Driving.move {w w' : World} (h : Driving w) (hparticipants : w'.manager.participants = w.manager.participants)
    (horder : w'.manager.dependencyOrder = w.manager.dependencyOrder) (hfinalized : w'.manager.finalized = w.manager.finalized)
    (hsound : Sound (DependsOn w.manager) w'.log)
    (hissued : ∀ token ∈ (viewOf w'.log).issued, token.generation ≤ w'.manager.status.generation)
    (hresult : w'.manager.completionReady = true → w'.manager.completionResult ≠ .pending) : Driving w' where
  capacity := hparticipants ▸ h.capacity
  finalized := hfinalized.trans h.finalized
  ordered := h.ordered.congr hparticipants horder
  sound := by
    rw [dependsOn_congr hparticipants]
    exact hsound
  issued_le := hissued
  result := hresult

/-- A quiet operation keeps what holds. -/
theorem Driving.quiet {w w' : World} (h : Driving w) (hquiet : Quiet w w') : Driving w' := by
  have hgeneration : w'.manager.status.generation = w.manager.status.generation := congrArg Core.generation hquiet.core
  have hready : w'.manager.completionReady = w.manager.completionReady := congrArg Core.completionReady hquiet.core
  have hresult : w'.manager.completionResult = w.manager.completionResult := congrArg Core.completionResult hquiet.core
  refine h.move (congrArg Core.participants hquiet.core) (congrArg Core.dependencyOrder hquiet.core)
    (congrArg Core.finalized hquiet.core) (hquiet.sound h.sound) ?_ ?_
  · rw [hquiet.view, hgeneration]
    exact h.issued_le
  · rw [hready, hresult]
    exact h.result

theorem Inv.quiet {w w' : World} (h : Inv w) (hquiet : Quiet w w') : Inv w' := by
  have hparticipants : w'.manager.participants = w.manager.participants := congrArg Core.participants hquiet.core
  have horder : w'.manager.dependencyOrder = w.manager.dependencyOrder := congrArg Core.dependencyOrder hquiet.core
  have hphase : w'.manager.phase = w.manager.phase := congrArg Core.phase hquiet.core
  have hfinalized : w'.manager.finalized = w.manager.finalized := congrArg Core.finalized hquiet.core
  have havailable : w'.manager.status.suspendAvailable = w.manager.status.suspendAvailable :=
    congrArg Core.suspendAvailable hquiet.core
  have hgeneration : w'.manager.status.generation = w.manager.status.generation := congrArg Core.generation hquiet.core
  have hready : w'.manager.completionReady = w.manager.completionReady := congrArg Core.completionReady hquiet.core
  have hresult : w'.manager.completionResult = w.manager.completionResult := congrArg Core.completionResult hquiet.core
  have hstate : w'.manager.status.state = w.manager.status.state := congrArg Core.state hquiet.core
  refine ⟨?_, ?_, ?_, ?_, ?_, ?_, ?_, ?_, ?_, ?_⟩
  · rw [hparticipants]
    exact h.capacity
  · rw [hphase, hfinalized]
    exact h.finalized
  · rw [hphase, hfinalized, havailable]
    exact fun hdriven => (h.ordered hdriven).congr hparticipants horder
  · rw [hfinalized, horder]
    exact h.empty
  · rw [dependsOn_congr hparticipants]
    exact hquiet.sound h.sound
  · rw [hquiet.view, hgeneration]
    exact h.issued_le
  · rw [hfinalized, hquiet.view]
    exact h.uncalled
  · rw [hready, hresult]
    exact h.result
  · rw [hphase, hstate]
    exact h.state
  · rw [hquiet.core, hquiet.view]
    exact h.agrees

/-! ## Calls meanwhile -/

variable (env : Environment) {result : CallbackResult}

/-- What agrees agrees after calls of other threads. -/
theorem Agrees.meanwhile {w w' : World} (h : Agrees w.manager.core (viewOf w.log)) (hcalls : Meanwhile w w') :
    Agrees w'.manager.core (viewOf w'.log) := by
  have hpending := hcalls.pending true
  have hquiet := hcalls.quiet
  have hcore := hcalls.core
  generalize hc' : w'.manager.core = c' at *
  generalize w.manager.core = c at *
  have hphase : c'.phase = c.phase := by rw [hcore]
  unfold Agrees at h ⊢
  rw [hphase]
  cases hp : c.phase with
  | none =>
    rw [hp] at h
    dsimp only at h ⊢
    rw [hquiet h.outstanding, hcore]
    exact ⟨h.suspended, h.unprepared, h.outstanding, h.down, h.prepared, h.asleep⟩
  | suspend =>
    rw [hp] at h
    obtain ⟨hnone, hrising, hfalling⟩ := h
    dsimp only
    rw [hquiet hnone, hcore]
    exact ⟨hnone, hrising, hfalling.cursor_le, hfalling.suspended, hfalling.down, hfalling.prepared, hfalling.asleep,
      hfalling.unprepared, hfalling.issued⟩
  | waitSuspend =>
    rw [hp] at h
    obtain ⟨base, hview, hrising, hfalling, hrest⟩ := h
    refine ⟨base, hpending base hview, hrising, ?_⟩
    rw [hcore]
    exact ⟨⟨hfalling.cursor_le, hfalling.suspended, hfalling.down, hfalling.prepared, hfalling.asleep, hfalling.unprepared,
      hfalling.issued⟩, hrest⟩
  | sleep =>
    rw [hp] at h
    dsimp only at h ⊢
    rw [hquiet h.outstanding, hcore]
    exact ⟨h.suspended, h.outstanding, h.down, h.prepared, h.asleep, h.issued⟩
  | resume =>
    rw [hp] at h
    obtain ⟨hnone, bottom, hrising⟩ := h
    dsimp only
    rw [hquiet hnone, hcore]
    exact ⟨hnone, bottom, hrising.cursor_le, hrising.suspended, hrising.down, hrising.prepared, hrising.asleep, hrising.rising,
      hrising.issued⟩
  | waitResume =>
    rw [hp] at h
    obtain ⟨base, bottom, hview, hrising, hrest⟩ := h
    refine ⟨base, bottom, hpending base hview, ?_⟩
    rw [hcore]
    exact ⟨⟨hrising.cursor_le, hrising.suspended, hrising.down, hrising.prepared, hrising.asleep, hrising.rising,
      hrising.issued⟩, hrest⟩

/-- What holds holds after calls of other threads. -/
theorem Inv.meanwhile {w w' : World} (h : Inv w) (hcalls : Meanwhile w w') : Inv w' := by
  have hparticipants : w'.manager.participants = w.manager.participants := congrArg Core.participants hcalls.core
  have horder : w'.manager.dependencyOrder = w.manager.dependencyOrder := congrArg Core.dependencyOrder hcalls.core
  have hphase : w'.manager.phase = w.manager.phase := congrArg Core.phase hcalls.core
  have hfinalized : w'.manager.finalized = w.manager.finalized := congrArg Core.finalized hcalls.core
  have havailable : w'.manager.status.suspendAvailable = w.manager.status.suspendAvailable :=
    congrArg Core.suspendAvailable hcalls.core
  have hgeneration : w'.manager.status.generation = w.manager.status.generation := congrArg Core.generation hcalls.core
  have hstate : w'.manager.status.state = w.manager.status.state := congrArg Core.state hcalls.core
  refine ⟨?_, ?_, ?_, ?_, ?_, ?_, ?_, hcalls.result h.result, ?_, h.agrees.meanwhile hcalls⟩
  · rw [hparticipants]
    exact h.capacity
  · rw [hphase, hfinalized]
    exact h.finalized
  · rw [hphase, hfinalized, havailable]
    exact fun hdriven => (h.ordered hdriven).congr hparticipants horder
  · rw [hfinalized, horder]
    exact h.empty
  · rw [dependsOn_congr hparticipants]
    exact hcalls.sound h.sound
  · rw [hcalls.issued, hgeneration]
    exact h.issued_le
  · rw [hfinalized, hcalls.issued]
    exact h.uncalled
  · rw [hphase, hstate]
    exact h.state

/-! ## Rounds -/

/-- The most rounds that go on before `drive` returns. -/
def Core.work (c : Core) : Nat :=
  match c.phase with
  | .none => 0
  | .sleep => 0
  | .suspend => (c.participants.length - c.cursor) + c.participants.length + 2
  | .waitSuspend => (c.participants.length - c.cursor) + c.participants.length + 2
  | .resume => c.suspended.length - c.cursor + 1
  | .waitResume => c.suspended.length - c.cursor + 1

/-- What a round leaves: it goes on with less work, or it stops between rounds of calls. -/
structure Rounded (work : Nat) (round : Bool × World) : Prop where
  inv : Inv round.2
  less : round.1 = true → round.2.manager.core.work < work
  stops : round.1 = false → round.2.manager.phase ≠ .suspend ∧ round.2.manager.phase ≠ .resume

/-- A suspend or a sleep has failed: the last participants of the order are down, and the tokens of this generation are to suspend. -/
structure Failed (c : Core) (v : View) : Prop where
  suspended : ∃ bottom, bottom ≤ c.participants.length ∧ c.suspended = (c.dependencyOrder.drop bottom).reverse ∧
    v.down = c.dependencyOrder.drop bottom
  outstanding : v.outstanding = none
  rising : v.rising = true
  asleep : v.asleep = false
  prepared : v.prepared = c.platformPrepared
  issued : ∀ token ∈ v.issued, token.generation = c.generation → token.operation = .suspend

/-- A rollback goes on with the resumes of the participants that are down. -/
theorem rollback_spec {w : World} (h : Driving w) (hfailed : Failed w.manager.core (viewOf w.log)) (nowMs : BitVec 64)
    (code : FailureCode) (name : Name) :
    Inv (rollback nowMs code name w) ∧ (rollback nowMs code name w).manager.core.work = w.manager.suspended.length + 1 := by
  obtain ⟨bottom, hbottom, hsuspended, hdown⟩ := hfailed.suspended
  have hagrees : ∀ v : View, v.outstanding = none → v.down = (viewOf w.log).down → v.prepared = false → v.asleep = false →
      v.rising = true → v.issued = (viewOf w.log).issued → Agrees
        { w.manager.core with state := .resuming, phase := .resume, cursor := 0 } v := by
    intro v hnone hdown' hprepared hasleep hrising hissued
    refine ⟨hnone, bottom, hbottom, hsuspended, hdown'.trans hdown, hprepared, hasleep, hrising, ?_⟩
    intro token hmem hgeneration hoperation
    exact absurd ((hfailed.issued token (hissued ▸ hmem) hgeneration).symm.trans hoperation) (by decide)
  unfold rollback
  dsimp only
  split
  · rename_i hprepared
    have hdriving : Driving ((w.modify (failure code name)).record .abortSleep) := by
      refine h.move rfl rfl rfl (sound_cons.2 ⟨⟨trivial, ?_, by intro heq; nomatch heq⟩, h.sound⟩) h.issued_le h.result
      exact hfailed.prepared.trans hprepared
    refine ⟨?_, rfl⟩
    refine Driving.inv (hdriving.move rfl rfl rfl hdriving.sound hdriving.issued_le hdriving.result) rfl ?_
    exact hagrees _ hfailed.outstanding rfl rfl hfailed.asleep hfailed.rising rfl
  · rename_i hprepared
    have hprepared : w.manager.platformPrepared = false := Bool.not_eq_true _ ▸ hprepared
    refine ⟨?_, rfl⟩
    refine Driving.inv (h.move rfl rfl rfl h.sound h.issued_le h.result) rfl ?_
    exact hagrees _ hfailed.outstanding rfl (hfailed.prepared.trans hprepared) hfailed.asleep hfailed.rising rfl

/-- The end of a list, with one more element of it. -/
theorem drop_sub_succ {order : List Nat} {n cursor index : Nat} (hcursor : cursor < n) (hindex : order[n - 1 - cursor]? = some index) :
    order.drop (n - (cursor + 1)) = index :: order.drop (n - cursor) := by
  have hsub : n - (cursor + 1) = n - 1 - cursor := by omega
  obtain ⟨hlt, rfl⟩ := List.getElem?_eq_some_iff.1 hindex
  rw [hsub, List.drop_eq_getElem_cons hlt]
  congr 2
  omega

section Falling

variable {c : Core} {v : View}

/-- A suspend has failed. -/
theorem Falling.failed (h : Falling c (c.cursor + 1) v) : Failed c { v with outstanding := none, rising := true } where
  suspended := ⟨_, Nat.sub_le _ _, h.suspended, h.down⟩
  outstanding := rfl
  rising := rfl
  asleep := h.asleep
  prepared := h.prepared.trans h.unprepared.symm
  issued token hmem hgeneration := (h.issued token hmem hgeneration).1

/-- A suspend has succeeded. -/
theorem Falling.succeeded (h : Falling c (c.cursor + 1) v) (hcursor : c.cursor < c.participants.length) {index : Nat}
    (hindex : c.dependencyOrder[c.participants.length - 1 - c.cursor]? = some index) (expected : CompletionToken) (ready : Bool)
    (result : CallbackResult) :
    Falling { c with
      suspended := c.suspended ++ [index]
      phase := .suspend
      cursor := c.cursor + 1
      expected := expected
      completionReady := ready
      completionResult := result } (c.cursor + 1) { v with outstanding := none, down := index :: v.down } where
  cursor_le := hcursor
  suspended := by
    show c.suspended ++ [index] = (c.dependencyOrder.drop (c.participants.length - (c.cursor + 1))).reverse
    rw [drop_sub_succ hcursor hindex, List.reverse_cons, h.suspended]
  down := by
    show index :: v.down = c.dependencyOrder.drop (c.participants.length - (c.cursor + 1))
    rw [drop_sub_succ hcursor hindex, h.down]
  prepared := h.prepared
  asleep := h.asleep
  unprepared := h.unprepared
  issued := h.issued

end Falling

/-- What is known of a participant that depends on another one: it is there. -/
theorem DependsOn.lt {m : Manager} {index dependency : Nat} (h : DependsOn m index dependency) : index < m.participants.length := by
  obtain ⟨name, hname, -⟩ := h
  unfold Manager.dependenciesOf at hname
  by_cases hlt : index < m.participants.length
  · exact hlt
  · rw [List.getElem?_eq_none (Nat.le_of_not_lt hlt)] at hname
    nomatch hname

theorem length_suspended {c : Core} {bottom : Nat} (hlength : c.dependencyOrder.length = c.participants.length)
    (hsuspended : c.suspended = (c.dependencyOrder.drop bottom).reverse) :
    c.suspended.length = c.participants.length - bottom := by
  rw [hsuspended, List.length_reverse, List.length_drop, hlength]

/-- The result of a suspend that was pending is taken. -/
theorem suspendCompleted_spec {w : World} (h : Driving w) (hstate : w.manager.status.state = .suspending) {base : View}
    (hview : viewOf w.log = base.resolve w.manager.expected result) (hresult : result ≠ .pending) (hrising : base.rising = false)
    (hfalling : Falling w.manager.core (w.manager.cursor + 1) base) (hcursor : w.manager.cursor < w.manager.participants.length)
    (hoperation : w.manager.expected.operation = .suspend)
    (hindex : w.manager.dependencyOrder[w.manager.participants.length - 1 - w.manager.cursor]? =
      some w.manager.expected.participant) (nowMs : BitVec 64) :
    Rounded ((w.manager.participants.length - w.manager.cursor) + w.manager.participants.length + 2)
      (true, suspendCompleted nowMs result w) := by
  unfold View.resolve at hview
  rw [hoperation] at hview
  unfold suspendCompleted
  by_cases hfailure : result = .failure
  · rw [if_pos hfailure]
    rw [if_neg (show result ≠ .success by rw [hfailure]; decide)] at hview
    have hfailed : Failed w.manager.core (viewOf w.log) := hview ▸ hfalling.failed
    obtain ⟨hinv, hwork⟩ := rollback_spec h hfailed nowMs .callback (w.manager.nameOf w.manager.expected.participant)
    refine ⟨hinv, fun _ => Nat.lt_of_le_of_lt (Nat.le_of_eq hwork) ?_, fun hgo => nomatch hgo⟩
    have hsuspended : w.manager.suspended.length =
      w.manager.participants.length - (w.manager.participants.length - w.manager.cursor) :=
        length_suspended h.ordered.length hfalling.suspended
    omega
  · rw [if_neg hfailure]
    have hsuccess : result = .success := by
      cases result with
      | success => rfl
      | pending => exact absurd rfl hresult
      | failure => exact absurd rfl hfailure
    rw [if_pos hsuccess] at hview
    refine ⟨?_, fun _ => ?_, fun hgo => nomatch hgo⟩
    · refine Driving.inv (h.move rfl rfl rfl h.sound h.issued_le h.result) hstate ?_
      show Agrees _ (viewOf w.log)
      rw [hview]
      refine ⟨rfl, fun hnot => absurd (hrising.symm.trans hnot) (by decide), ?_⟩
      exact hfalling.succeeded hcursor hindex _ _ _
    · show w.manager.participants.length - (w.manager.cursor + 1) + w.manager.participants.length + 2 < _
      omega

/-- The result of a resume that was pending is taken; a failure is recorded and no more. -/
theorem resumeCompleted_spec {w : World} (h : Driving w) (hstate : w.manager.status.state = .resuming) {base : View} {bottom : Nat}
    (hview : viewOf w.log = base.resolve w.manager.expected result)
    (hrising : Rising w.manager.core bottom (w.manager.cursor + 1) base)
    (hcursor : bottom + w.manager.cursor < w.manager.participants.length) (hoperation : w.manager.expected.operation = .resume) :
    Rounded (w.manager.suspended.length - w.manager.cursor + 1) (true, resumeCompleted result w) := by
  unfold View.resolve at hview
  rw [hoperation] at hview
  have hrecorded : ∀ w', Quiet w w' → Rounded (w.manager.suspended.length - w.manager.cursor + 1)
      (true, w'.modify fun m => { m with phase := .resume, cursor := m.cursor + 1 }) := by
    intro w' hquiet
    have h' := h.quiet hquiet
    refine ⟨?_, fun _ => ?_, fun hgo => nomatch hgo⟩
    · refine Driving.inv (h'.move rfl rfl rfl h'.sound h'.issued_le h'.result) ((congrArg Core.state hquiet.core).trans hstate) ?_
      show Agrees { w'.manager.core with phase := .resume, cursor := w'.manager.core.cursor + 1 } (viewOf w'.log)
      rw [hquiet.core, hquiet.view, hview]
      exact ⟨rfl, bottom, hcursor, hrising.suspended, hrising.down, hrising.prepared, hrising.asleep, hrising.rising,
        hrising.issued⟩
    · show Core.work { w'.manager.core with phase := .resume, cursor := w'.manager.core.cursor + 1 } < _
      rw [hquiet.core]
      show w.manager.suspended.length - (w.manager.cursor + 1) + 1 < _
      have hsuspended : w.manager.suspended.length = w.manager.participants.length - bottom :=
        length_suspended h.ordered.length hrising.suspended
      omega
  unfold resumeCompleted
  dsimp only
  split
  · exact hrecorded _ (Quiet.failure _ _ _)
  · exact hrecorded _ (Quiet.refl _)

/-- A round that waits goes on when the outcome of the callback is known. -/
theorem waitRound_spec {w : World} (h : Inv w) (hphase : w.manager.phase = .waitSuspend ∨ w.manager.phase = .waitResume)
    (nowMs : BitVec 64) : Rounded w.manager.core.work (waitRound env nowMs w) := by
  have hcalls := meanwhile_spec env w
  have hinv := h.meanwhile hcalls
  have hwork : (Power.meanwhile env w).manager.core.work = w.manager.core.work := by
    rw [hcalls.core]
    rfl
  have hphase1 : (Power.meanwhile env w).manager.phase = w.manager.phase := congrArg Core.phase hcalls.core
  rw [← hphase1] at hphase
  unfold waitRound
  rw [← hwork]
  dsimp only
  generalize Power.meanwhile env w = w1 at *
  have hdriving : Driving w1 := hinv.driving (by rcases hphase with hphase | hphase <;> rw [hphase] <;> decide)
  have hagrees := hinv.agrees
  have hstate := hinv.state
  unfold Agrees at hagrees
  unfold completion
  cases hready : w1.manager.completionReady with
  | false =>
    rw [if_neg (by decide)]
    refine ⟨hinv, fun hgo => (nomatch hgo), fun _ => ?_⟩
    rcases hphase with hphase | hphase <;> rw [hphase] <;> exact ⟨by decide, by decide⟩
  | true =>
    rw [if_pos rfl]
    have hresult := hinv.result hready
    have hdriving1 : Driving { w1 with manager := { w1.manager with completionReady := false } } :=
      hdriving.move rfl rfl rfl hdriving.sound hdriving.issued_le fun hnot => nomatch hnot
    dsimp only
    unfold Core.work
    rcases hphase with hphase | hphase
    · have hphase' : w1.manager.core.phase = .waitSuspend := hphase
      rw [hphase'] at hagrees ⊢
      rw [hphase] at hstate
      obtain ⟨base, hview, hrising, hfalling, hcursor, hoperation, hindex⟩ := hagrees
      rw [pendingView_of_ready hready] at hview
      rw [if_pos hphase]
      refine suspendCompleted_spec hdriving1 hstate hview hresult hrising ?_ hcursor hoperation hindex nowMs
      exact ⟨hfalling.cursor_le, hfalling.suspended, hfalling.down, hfalling.prepared, hfalling.asleep, hfalling.unprepared,
        hfalling.issued⟩
    · have hphase' : w1.manager.core.phase = .waitResume := hphase
      rw [hphase'] at hagrees ⊢
      rw [hphase] at hstate
      obtain ⟨base, bottom, hview, hrising, hcursor, hoperation⟩ := hagrees
      rw [pendingView_of_ready hready] at hview
      rw [if_neg (by rw [hphase]; decide)]
      refine resumeCompleted_spec hdriving1 hstate hview ?_ hcursor hoperation
      exact ⟨hrising.cursor_le, hrising.suspended, hrising.down, hrising.prepared, hrising.asleep, hrising.rising, hrising.issued⟩

/-! ### The phase of suspends -/

/-- All participants are down: the platform is prepared and sleeps, or all go up again. -/
theorem sleepRound_spec {w : World} (h : Driving w) (hnone : (viewOf w.log).outstanding = none)
    (hfalling : Falling w.manager.core w.manager.cursor (viewOf w.log))
    (hcursor : w.manager.cursor = w.manager.participants.length) (nowMs : BitVec 64) :
    Rounded (w.manager.participants.length + 2) (sleepRound env nowMs w) := by
  have hsuspended : w.manager.suspended = w.manager.dependencyOrder.reverse := by
    have hdrop : w.manager.suspended =
      (w.manager.dependencyOrder.drop (w.manager.participants.length - w.manager.cursor)).reverse := hfalling.suspended
    rwa [hcursor, Nat.sub_self, List.drop_zero] at hdrop
  have hdown : (viewOf w.log).down = w.manager.dependencyOrder := by
    have hdrop : (viewOf w.log).down =
      w.manager.dependencyOrder.drop (w.manager.participants.length - w.manager.cursor) := hfalling.down
    rwa [hcursor, Nat.sub_self, List.drop_zero] at hdrop
  have hwork : w.manager.suspended.length + 1 < w.manager.participants.length + 2 := by
    rw [hsuspended, List.length_reverse, h.ordered.length]
    omega
  have hissued : ∀ token ∈ (viewOf w.log).issued, token.generation = w.manager.status.generation → token.operation = .suspend :=
    fun token hmem hgeneration => (hfalling.issued token hmem hgeneration).1
  have hsound : ∀ done, Sound (DependsOn w.manager) (.prepareSleep done :: w.log) :=
    fun done => sound_cons.2 ⟨⟨trivial, ⟨hnone, hfalling.prepared⟩, by intro heq; nomatch heq⟩, h.sound⟩
  have hfailed : ∀ c : Core, c.dependencyOrder = w.manager.dependencyOrder → c.suspended = w.manager.suspended →
      c.generation = w.manager.status.generation → ∀ v : View, v.down = (viewOf w.log).down → v.outstanding = none →
      v.rising = true → v.asleep = false → v.prepared = c.platformPrepared → v.issued = (viewOf w.log).issued → Failed c v := by
    intro c horder hc hgeneration v hv hnone hrising hasleep hprepared hi
    refine ⟨⟨0, Nat.zero_le _, ?_, ?_⟩, hnone, hrising, hasleep, hprepared, ?_⟩
    · rw [hc, horder, hsuspended, List.drop_zero]
    · rw [hv, hdown, horder, List.drop_zero]
    · rw [hi, hgeneration]
      exact hissued
  unfold sleepRound
  dsimp only
  cases hprepared : env.succeeds w.asked with
  | false =>
    rw [if_pos rfl]
    have hdriving : Driving (w.record (.prepareSleep false)) := h.move rfl rfl rfl (hsound false) h.issued_le h.result
    obtain ⟨hinv, hwork'⟩ := rollback_spec hdriving (hfailed _ rfl rfl rfl _ rfl hnone rfl hfalling.asleep
      (hfalling.prepared.trans hfalling.unprepared.symm) rfl) nowMs .platformPrepare []
    exact ⟨hinv, fun _ => Nat.lt_of_le_of_lt (Nat.le_of_eq hwork') hwork, fun hgo => nomatch hgo⟩
  | true =>
    rw [if_neg (by decide)]
    split
    · rename_i hslept
      rw [hslept]
      have hdriving : Driving (((w.record (.prepareSleep true)).modify fun m => { m with
          status := { m.status with
            state := .suspended, stateChangedMs := nowMs, suspendDurationMs := nowMs - m.status.suspendStartedMs }
          phase := .sleep
          platformPrepared := true }).record (.enterLightSleep false)) :=
        h.move rfl rfl rfl (sound_cons.2 ⟨⟨trivial, trivial, by intro heq; nomatch heq⟩, hsound true⟩) h.issued_le h.result
      obtain ⟨hinv, hwork'⟩ := rollback_spec hdriving (hfailed _ rfl rfl rfl _ rfl hnone rfl hfalling.asleep rfl rfl) nowMs
        .platformSleep []
      exact ⟨hinv, fun _ => Nat.lt_of_le_of_lt (Nat.le_of_eq hwork') hwork, fun hgo => nomatch hgo⟩
    · rename_i hslept
      rw [Bool.not_eq_false] at hslept
      rw [hslept]
      refine ⟨?_, fun hgo => (nomatch hgo), fun _ => ⟨(by intro heq; nomatch heq), (by intro heq; nomatch heq)⟩⟩
      refine Driving.inv (h.move rfl rfl rfl (sound_cons.2 ⟨⟨trivial, trivial, by intro heq; nomatch heq⟩, hsound true⟩)
        h.issued_le h.result) rfl ?_
      exact ⟨hsuspended, hnone, hdown, rfl, rfl, hissued⟩

/-- The next participant may be called to suspend. -/
theorem suspend_allowed {w : World} (h : Driving w) (hnone : (viewOf w.log).outstanding = none)
    (hrising : (viewOf w.log).rising = true → (viewOf w.log).down = [])
    (hfalling : Falling w.manager.core w.manager.cursor (viewOf w.log))
    (hcursor : w.manager.cursor < w.manager.participants.length) {index : Nat}
    (hindex : w.manager.dependencyOrder[w.manager.participants.length - 1 - w.manager.cursor]? = some index) :
    CallAllowed (DependsOn w.manager) (viewOf w.log) (.called ⟨w.manager.status.generation, index, .suspend⟩) := by
  have hdown : (viewOf w.log).down =
      w.manager.dependencyOrder.drop (w.manager.participants.length - 1 - w.manager.cursor + 1) := by
    have hsub : w.manager.participants.length - 1 - w.manager.cursor + 1 = w.manager.participants.length - w.manager.cursor := by
      omega
    rw [hsub]
    exact hfalling.down
  have hnotmem : index ∉ (viewOf w.log).down := by
    rw [hdown]
    exact h.ordered.topological.not_mem_drop_succ hindex
  refine ⟨hnone, hfalling.prepared, hfalling.asleep, fun hmem => ?_, hnotmem, fun other hneeds => ?_, hrising⟩
  · have hdown' : (viewOf w.log).down = w.manager.dependencyOrder.drop (w.manager.participants.length - w.manager.cursor) :=
      hfalling.down
    rw [hdown'] at hnotmem
    exact hnotmem (hfalling.issued _ hmem rfl).2
  · rw [hdown]
    exact h.ordered.topological.mem_drop hindex (h.ordered.mem_iff.2 hneeds.lt) hneeds

/-- The call of a suspend keeps what is known of the participants that are down. -/
theorem Falling.called {c : Core} {v : View} (h : Falling c c.cursor v) (hcursor : c.cursor < c.participants.length) {index : Nat}
    (hindex : c.dependencyOrder[c.participants.length - 1 - c.cursor]? = some index) {token : CompletionToken}
    (hoperation : token.operation = .suspend) (hparticipant : token.participant = index) :
    Falling c (c.cursor + 1) (v.call token) := by
  unfold View.call
  rw [hoperation]
  refine ⟨h.cursor_le, h.suspended, h.down, h.prepared, h.asleep, h.unprepared, ?_⟩
  intro other hmem hgeneration
  rw [drop_sub_succ hcursor hindex]
  rcases List.mem_cons.1 hmem with rfl | hmem
  · exact ⟨hoperation, hparticipant ▸ List.mem_cons_self⟩
  · obtain ⟨hsuspend, hdrop⟩ := h.issued other hmem hgeneration
    exact ⟨hsuspend, List.mem_cons_of_mem _ hdrop⟩

theorem issued_call (v : View) (token : CompletionToken) : (v.call token).issued = token :: v.issued := by
  unfold View.call
  split <;> rfl

theorem issued_pendingView (c : Core) (waiting : Bool) (base : View) : (pendingView c waiting base).issued = base.issued := by
  unfold pendingView
  split
  · exact issued_resolve ..
  · rfl

/-- After a callback its manager is still driven. -/
theorem Driving.callback {w w' : World} (h : Driving w) {index : Nat} {operation : Operation}
    (hcall : callback env index operation w = (result, w')) (hnone : (viewOf w.log).outstanding = none)
    (hallowed : CallAllowed (DependsOn w.manager) (viewOf w.log) (.called ⟨w.manager.status.generation, index, operation⟩)) :
    Driving w' := by
  obtain ⟨hcore, hsound, hresult, hview⟩ := callback_spec env hcall rfl hnone hallowed h.sound
  have hgeneration : w'.manager.status.generation = w.manager.status.generation := congrArg Core.generation hcore
  refine h.move (congrArg Core.participants hcore) (congrArg Core.dependencyOrder hcore) (congrArg Core.finalized hcore) hsound ?_
    hresult
  have hissued : (viewOf w'.log).issued = ⟨w.manager.status.generation, index, operation⟩ :: (viewOf w.log).issued := by
    rw [hview]
    split
    · rw [issued_pendingView, issued_call]
    · rw [issued_resolve, issued_call]
  rw [hissued, hgeneration]
  exact List.forall_mem_cons.2 ⟨Nat.le_refl _, h.issued_le⟩

/-- A round of suspends. -/
theorem suspendRound_spec {w : World} (h : Inv w) (hphase : w.manager.phase = .suspend) (nowMs : BitVec 64) :
    Rounded w.manager.core.work (suspendRound env nowMs w) := by
  have hdriving := h.driving (by rw [hphase]; decide)
  have hagrees := h.agrees
  have hstate := h.state
  have hphase' : w.manager.core.phase = .suspend := hphase
  unfold Agrees at hagrees
  rw [hphase'] at hagrees
  rw [hphase] at hstate
  obtain ⟨hnone, hrising, hfalling⟩ := hagrees
  have hcursor_le : w.manager.cursor ≤ w.manager.participants.length := hfalling.cursor_le
  have hwork : w.manager.core.work = (w.manager.participants.length - w.manager.cursor) + w.manager.participants.length + 2 := by
    unfold Core.work
    rw [hphase']
    rfl
  rw [hwork]
  unfold suspendRound
  by_cases hcursor : w.manager.cursor = w.manager.participants.length
  · rw [if_pos hcursor, hcursor, Nat.sub_self, Nat.zero_add]
    exact sleepRound_spec env hdriving hnone hfalling hcursor nowMs
  rw [if_neg hcursor]
  have hlt : w.manager.cursor < w.manager.participants.length := by omega
  have hindex : w.manager.dependencyOrder[w.manager.participants.length - 1 - w.manager.cursor]? =
      some (w.manager.dependencyOrder.getD (w.manager.participants.length - 1 - w.manager.cursor) 0) := by
    have hin : w.manager.participants.length - 1 - w.manager.cursor < w.manager.dependencyOrder.length := by
      rw [hdriving.ordered.length]
      omega
    rw [List.getD_eq_getElem?_getD, List.getElem?_eq_getElem hin]
    rfl
  generalize w.manager.dependencyOrder.getD (w.manager.participants.length - 1 - w.manager.cursor) 0 = index at *
  dsimp only
  have hallowed := suspend_allowed hdriving hnone hrising hfalling hlt hindex
  have hcalled : Falling w.manager.core (w.manager.core.cursor + 1)
      ((viewOf w.log).call ⟨w.manager.status.generation, index, .suspend⟩) := hfalling.called hlt hindex rfl rfl
  cases hcall : callback env index .suspend w with
  | mk result w' =>
  obtain ⟨hcore, -, -, hview⟩ := callback_spec env hcall rfl hnone hallowed hdriving.sound
  have hdriving' := hdriving.callback env hcall hnone hallowed
  have hstate' : w'.manager.status.state = .suspending := (congrArg Core.state hcore).trans hstate
  cases result with
  | pending =>
    rw [if_pos rfl] at hview
    refine ⟨?_, fun hgo => (nomatch hgo), fun _ => ⟨(by intro heq; nomatch heq), (by intro heq; nomatch heq)⟩⟩
    refine Driving.inv (hdriving'.move rfl rfl rfl hdriving'.sound hdriving'.issued_le hdriving'.result) hstate' ?_
    show Agrees { w'.manager.core with phase := .waitSuspend } (viewOf w'.log)
    rw [hview]
    refine ⟨_, rfl, rfl, ?_⟩
    rw [hcore]
    exact ⟨⟨hcalled.cursor_le, hcalled.suspended, hcalled.down, hcalled.prepared, hcalled.asleep, hcalled.unprepared,
      hcalled.issued⟩, hlt, rfl, hindex⟩
  | failure =>
    rw [if_neg (by decide)] at hview
    have hfailed : Failed w'.manager.core (viewOf w'.log) := by
      rw [hview, hcore]
      have hfailed := hcalled.failed
      exact ⟨hfailed.suspended, rfl, rfl, hfailed.asleep, hfailed.prepared, hfailed.issued⟩
    obtain ⟨hinv, hwork'⟩ := rollback_spec hdriving' hfailed nowMs .callback (w'.manager.nameOf index)
    refine ⟨hinv, fun _ => Nat.lt_of_le_of_lt (Nat.le_of_eq hwork') ?_, fun hgo => nomatch hgo⟩
    have hsuspended' : w'.manager.suspended = w.manager.suspended := congrArg Core.suspended hcore
    have hsuspended : w.manager.suspended.length =
      w.manager.participants.length - (w.manager.participants.length - w.manager.cursor) :=
        length_suspended hdriving.ordered.length hfalling.suspended
    rw [hsuspended']
    omega
  | success =>
    rw [if_neg (by decide)] at hview
    refine ⟨?_, fun _ => ?_, fun hgo => nomatch hgo⟩
    · refine Driving.inv (hdriving'.move rfl rfl rfl hdriving'.sound hdriving'.issued_le hdriving'.result) ?_ ?_
      · show StateOf w'.manager.core.phase w'.manager.core.state
        rw [hcore]
        show StateOf w.manager.phase w.manager.status.state
        rw [hphase]
        exact hstate
      · show Agrees { w'.manager.core with
          suspended := w'.manager.core.suspended ++ [index], cursor := w'.manager.core.cursor + 1 } (viewOf w'.log)
        rw [hview, hcore]
        unfold Agrees
        dsimp only
        rw [hphase']
        have hsucceeded := hcalled.succeeded hlt hindex ⟨w.manager.status.generation, index, .suspend⟩
          w'.manager.core.completionReady w'.manager.core.completionResult
        exact ⟨rfl, fun hnot => (nomatch hnot), hsucceeded.cursor_le, hsucceeded.suspended, hsucceeded.down, hsucceeded.prepared,
          hsucceeded.asleep, hsucceeded.unprepared, hsucceeded.issued⟩
    · show Core.work { w'.manager.core with
        suspended := w'.manager.core.suspended ++ [index], cursor := w'.manager.core.cursor + 1 } < _
      rw [hcore]
      unfold Core.work
      dsimp only
      rw [hphase']
      show w.manager.participants.length - (w.manager.cursor + 1) + w.manager.participants.length + 2 < _
      omega

/-! ### The phase of resumes -/

section Rising

variable {c : Core} {v : View} {bottom index : Nat}

/-- The next participant is the last that went down. -/
theorem Rising.down_cons (h : Rising c bottom c.cursor v) (hindex : c.dependencyOrder[bottom + c.cursor]? = some index) :
    v.down = index :: c.dependencyOrder.drop (bottom + (c.cursor + 1)) := by
  obtain ⟨hlt, rfl⟩ := List.getElem?_eq_some_iff.1 hindex
  rw [h.down, List.drop_eq_getElem_cons hlt]
  rfl

/-- The call of a resume takes its participant up. -/
theorem Rising.called (h : Rising c bottom c.cursor v) (hindex : c.dependencyOrder[bottom + c.cursor]? = some index)
    {token : CompletionToken} (hoperation : token.operation = .resume) (hparticipant : token.participant = index) :
    Rising c bottom (c.cursor + 1) (v.call token) := by
  unfold View.call
  rw [hoperation]
  refine ⟨h.cursor_le, h.suspended, ?_, h.prepared, h.asleep, h.rising, ?_⟩
  · show v.down.erase token.participant = c.dependencyOrder.drop (bottom + (c.cursor + 1))
    rw [h.down_cons hindex, hparticipant, List.erase_cons_head]
  · intro other hmem hgeneration hresume
    rw [List.take_add_one, List.mem_append]
    rcases List.mem_cons.1 hmem with rfl | hmem
    · refine Or.inr ?_
      rw [List.getElem?_drop, hindex, hparticipant]
      exact List.mem_singleton_self index
    · exact Or.inl (h.issued other hmem hgeneration hresume)

end Rising

/-- The next participant may be called to resume. -/
theorem resume_allowed {w : World} (h : Driving w) {bottom index : Nat} (hnone : (viewOf w.log).outstanding = none)
    (hrising : Rising w.manager.core bottom w.manager.cursor (viewOf w.log))
    (hindex : w.manager.dependencyOrder[bottom + w.manager.cursor]? = some index) :
    CallAllowed (DependsOn w.manager) (viewOf w.log) (.called ⟨w.manager.status.generation, index, .resume⟩) := by
  have hdown : (viewOf w.log).down = w.manager.dependencyOrder.drop (bottom + w.manager.cursor) := hrising.down
  refine ⟨hnone, hrising.prepared, hrising.asleep, fun hmem => ?_, hrising.rising, ?_, fun other hneeds => ?_⟩
  · have htake : index ∈ (w.manager.dependencyOrder.drop bottom).take w.manager.cursor := hrising.issued _ hmem rfl rfl
    rw [List.take_drop] at htake
    exact h.ordered.topological.not_mem_take hindex (List.mem_of_mem_drop htake)
  · have hcons := Rising.down_cons hrising hindex
    rw [hcons]
    rfl
  · rw [hdown]
    exact h.ordered.topological.not_mem_drop hindex hneeds

/-- All participants are up again. -/
theorem finish_spec {w : World} (h : Driving w) (hnone : (viewOf w.log).outstanding = none) (hdown : (viewOf w.log).down = [])
    (hprepared : (viewOf w.log).prepared = false) (hasleep : (viewOf w.log).asleep = false) (nowMs : BitVec 64) :
    Inv (finish env nowMs w) ∧ (finish env nowMs w).manager.phase = .none := by
  have hrests : Inv (w.modify fun m => { m with
      status := { m.status with
        state := .active, stateChangedMs := nowMs, resumeDurationMs := nowMs - m.status.resumeStartedMs }
      phase := .none
      cursor := 0
      suspended := []
      platformPrepared := false }) := by
    refine Driving.inv (h.move rfl rfl rfl h.sound h.issued_le h.result) (Or.inl rfl) ?_
    exact ⟨rfl, rfl, hnone, hdown, hprepared, hasleep⟩
  have hquiet := quiet_restoreDisplay env (w.modify fun m => { m with
    status := { m.status with
      state := .active, stateChangedMs := nowMs, resumeDurationMs := nowMs - m.status.resumeStartedMs }
    phase := .none
    cursor := 0
    suspended := []
    platformPrepared := false })
  exact ⟨hrests.quiet hquiet, congrArg Core.phase hquiet.core⟩

/-- A round of resumes. -/
theorem resumeRound_spec {w : World} (h : Inv w) (hphase : w.manager.phase = .resume) (nowMs : BitVec 64) :
    Rounded w.manager.core.work (resumeRound env nowMs w) := by
  have hdriving := h.driving (by rw [hphase]; decide)
  have hagrees := h.agrees
  have hstate := h.state
  have hphase' : w.manager.core.phase = .resume := hphase
  unfold Agrees at hagrees
  rw [hphase'] at hagrees
  rw [hphase] at hstate
  obtain ⟨hnone, bottom, hrising⟩ := hagrees
  have hcursor_le : bottom + w.manager.cursor ≤ w.manager.participants.length := hrising.cursor_le
  have hlength : w.manager.suspended.length = w.manager.participants.length - bottom :=
    length_suspended hdriving.ordered.length hrising.suspended
  have hwork : w.manager.core.work = w.manager.suspended.length - w.manager.cursor + 1 := by
    unfold Core.work
    rw [hphase']
    rfl
  rw [hwork]
  unfold resumeRound
  by_cases hcursor : w.manager.cursor = w.manager.suspended.length
  · rw [if_pos hcursor]
    have hdown : (viewOf w.log).down = [] := by
      rw [hrising.down]
      refine List.drop_eq_nil_of_le ?_
      show w.manager.dependencyOrder.length ≤ bottom + w.manager.cursor
      rw [hdriving.ordered.length]
      omega
    obtain ⟨hinv, hfinished⟩ := finish_spec env hdriving hnone hdown hrising.prepared hrising.asleep nowMs
    refine ⟨hinv, fun hgo => (nomatch hgo), fun _ => ?_⟩
    dsimp only
    rw [hfinished]
    exact ⟨by decide, by decide⟩
  rw [if_neg hcursor]
  have hlt : bottom + w.manager.cursor < w.manager.participants.length := by omega
  have hindex : w.manager.dependencyOrder[bottom + w.manager.cursor]? =
      some (w.manager.suspended.getD (w.manager.suspended.length - 1 - w.manager.cursor) 0) := by
    have hsuspended : w.manager.suspended = (w.manager.dependencyOrder.drop bottom).reverse := hrising.suspended
    have hin : bottom + w.manager.cursor < w.manager.dependencyOrder.length := by
      rw [hdriving.ordered.length]
      omega
    have hdrop : (w.manager.dependencyOrder.drop bottom).length = w.manager.suspended.length := by
      rw [hsuspended, List.length_reverse]
    have hback : (w.manager.dependencyOrder.drop bottom).length - 1 -
        (w.manager.suspended.length - 1 - w.manager.cursor) = w.manager.cursor := by omega
    rw [List.getD_eq_getElem?_getD, hsuspended, List.getElem?_reverse (by rw [← hsuspended]; omega), ← hsuspended, hback,
      List.getElem?_drop, List.getElem?_eq_getElem hin]
    rfl
  generalize w.manager.suspended.getD (w.manager.suspended.length - 1 - w.manager.cursor) 0 = index at *
  dsimp only
  have hallowed := resume_allowed hdriving hnone hrising hindex
  have hcalled : Rising w.manager.core bottom (w.manager.core.cursor + 1)
      ((viewOf w.log).call ⟨w.manager.status.generation, index, .resume⟩) := hrising.called hindex rfl rfl
  cases hcall : callback env index .resume w with
  | mk result w' =>
  obtain ⟨hcore, -, -, hview⟩ := callback_spec env hcall rfl hnone hallowed hdriving.sound
  have hdriving' := hdriving.callback env hcall hnone hallowed
  have hstate' : w'.manager.status.state = .resuming := (congrArg Core.state hcore).trans hstate
  -- A callback that has returned its outcome: a failure is recorded and no more.
  have hrecorded : result ≠ .pending → ∀ w2, Quiet w' w2 → Rounded (w.manager.suspended.length - w.manager.cursor + 1)
      (true, w2.modify fun m => { m with cursor := m.cursor + 1 }) := by
    intro hresult w2 hquiet
    have h2 := hdriving'.quiet hquiet
    rw [if_neg hresult] at hview
    refine ⟨?_, fun _ => ?_, fun hgo => nomatch hgo⟩
    · refine Driving.inv (h2.move rfl rfl rfl h2.sound h2.issued_le h2.result) ?_ ?_
      · show StateOf w2.manager.core.phase w2.manager.core.state
        rw [hquiet.core, hcore]
        show StateOf w.manager.phase w.manager.status.state
        rw [hphase]
        exact hstate
      · show Agrees { w2.manager.core with cursor := w2.manager.core.cursor + 1 } (viewOf w2.log)
        rw [hquiet.core, hquiet.view, hview, hcore]
        unfold Agrees
        dsimp only
        rw [hphase']
        exact ⟨View.outstanding_resolve .., bottom, hlt, hcalled.suspended, hcalled.down, hcalled.prepared, hcalled.asleep,
          hcalled.rising, hcalled.issued⟩
    · show Core.work { w2.manager.core with cursor := w2.manager.core.cursor + 1 } < _
      rw [hquiet.core, hcore]
      unfold Core.work
      dsimp only
      rw [hphase']
      show w.manager.suspended.length - (w.manager.cursor + 1) + 1 < _
      omega
  cases result with
  | pending =>
    rw [if_pos rfl] at hview
    refine ⟨?_, fun hgo => (nomatch hgo), fun _ => ⟨(by intro heq; nomatch heq), (by intro heq; nomatch heq)⟩⟩
    refine Driving.inv (hdriving'.move rfl rfl rfl hdriving'.sound hdriving'.issued_le hdriving'.result) hstate' ?_
    show Agrees { w'.manager.core with phase := .waitResume } (viewOf w'.log)
    rw [hview]
    refine ⟨_, bottom, rfl, ?_⟩
    rw [hcore]
    exact ⟨⟨hcalled.cursor_le, hcalled.suspended, hcalled.down, hcalled.prepared, hcalled.asleep, hcalled.rising,
      hcalled.issued⟩, hlt, rfl⟩
  | failure => exact hrecorded (by decide) _ (Quiet.failure _ _ _)
  | success => exact hrecorded (by decide) _ (Quiet.refl _)

/-! ## The loop -/

theorem driveRound_spec {w : World} (h : Inv w) (nowMs : BitVec 64) :
    Rounded w.manager.core.work (driveRound env nowMs w) := by
  unfold driveRound
  cases hphase : w.manager.phase with
  | none => exact ⟨h, fun hgo => (nomatch hgo), fun _ => ⟨by rw [hphase]; decide, by rw [hphase]; decide⟩⟩
  | suspend => exact suspendRound_spec env h hphase nowMs
  | waitSuspend => exact waitRound_spec env h (Or.inl hphase) nowMs
  | sleep => exact ⟨h, fun hgo => (nomatch hgo), fun _ => ⟨by rw [hphase]; decide, by rw [hphase]; decide⟩⟩
  | resume => exact resumeRound_spec env h hphase nowMs
  | waitResume => exact waitRound_spec env h (Or.inr hphase) nowMs

/-- Between operations the driver has stopped: nothing is down, the platform is asleep, or a callback has returned pending. -/
structure Stopped (w : World) : Prop where
  inv : Inv w
  phase : w.manager.phase ≠ .suspend ∧ w.manager.phase ≠ .resume

/-- A loop with more rounds than there is work stops by itself. -/
theorem driveLoop_spec (nowMs : BitVec 64) (rounds : Nat) {w : World} (h : Inv w) (hwork : w.manager.core.work < rounds) :
    Stopped (driveLoop env nowMs rounds w) := by
  induction rounds generalizing w with
  | zero => exact absurd hwork (Nat.not_lt_zero _)
  | succ rounds ih =>
    have hround := driveRound_spec env h nowMs
    unfold driveLoop
    cases hcall : driveRound env nowMs w with
    | mk go w' =>
    rw [hcall] at hround
    cases go with
    | false => exact ⟨hround.inv, hround.stops rfl⟩
    | true =>
      have hless : w'.manager.core.work < w.manager.core.work := hround.less rfl
      exact ih hround.inv (by omega)

/-- The bound of `drive` is above the work that there is. -/
theorem work_lt {w : World} (h : Inv w) : w.manager.core.work < participantCapacity * 2 + 8 := by
  have hcapacity := h.capacity
  unfold participantCapacity at hcapacity ⊢
  have hagrees := h.agrees
  unfold Agrees at hagrees
  unfold Core.work
  have hparticipants : w.manager.core.participants.length ≤ 16 := hcapacity
  cases hphase : w.manager.core.phase with
  | none => exact Nat.zero_lt_succ _
  | sleep => exact Nat.zero_lt_succ _
  | suspend =>
    dsimp only
    omega
  | waitSuspend =>
    dsimp only
    omega
  | resume =>
    rw [hphase] at hagrees
    obtain ⟨-, bottom, hrising⟩ := hagrees
    have hlength := length_suspended (h.ordered (Or.inl (by
      intro hnot
      exact absurd (hphase.symm.trans hnot) (by decide)))).length hrising.suspended
    dsimp only
    omega
  | waitResume =>
    rw [hphase] at hagrees
    obtain ⟨_, bottom, -, hrising, -⟩ := hagrees
    have hlength := length_suspended (h.ordered (Or.inl (by
      intro hnot
      exact absurd (hphase.symm.trans hnot) (by decide)))).length hrising.suspended
    dsimp only
    omega

theorem drive_spec {w : World} (h : Inv w) (nowMs : BitVec 64) : Stopped (drive env nowMs w) :=
  driveLoop_spec env nowMs _ h (work_lt h)

end Power
end TabOS
