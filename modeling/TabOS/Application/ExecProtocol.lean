import TabOS.Application.Exec
import Mathlib.Data.List.Nodup

/-!
# Every request gets its own answer

A process with no request, with a request that is recorded, with a child in front of it and with a status that is not returned yet are the
phases of the protocol. While no status is the value that stands for a pending request and no program calls `tabos_exec` before it has
waited for what it spawned, every step leads from a phase to a phase, and every event is due.
-/

namespace TabOS
namespace Exec

open Library

variable {s : System} {p : Process} {id child : Nat} {status : Int} {kind : RequestKind} {command : Command} {above : Option Nat}

/-! ## Phases -/

/-- One session that is not idle. -/
def single (kind : RequestKind) (session : Session) : RequestKind → Session := Function.update (fun _ => .idle) kind session

@[simp] theorem single_self (kind : RequestKind) (session : Session) : single kind session kind = session := Function.update_self _ _ _

@[simp] theorem update_single (kind : RequestKind) (session session' : Session) :
    Function.update (single kind session) kind session' = single kind session' := Function.update_idem _ _ _

@[simp] theorem update_single_idle (kind : RequestKind) (session : Session) :
    Function.update (single kind session) kind .idle = fun _ => .idle := by
  rw [update_single]
  exact Function.update_eq_self kind _

/-- A session that is not idle is the one. -/
theorem single_eq {kind' : RequestKind} {session session' : Session} (h : single kind session kind' = session') (hne : session' ≠ .idle) :
    kind' = kind ∧ session = session' := by
  rcases eq_or_ne kind' kind with rfl | hkind
  · exact ⟨rfl, (single_self kind' session).symm.trans h⟩
  · rw [single, Function.update_of_ne hkind] at h
    exact absurd h.symm hne

theorem exit_single (kind : RequestKind) (command : Command) (child : Nat) (status : Int) :
    (fun other => (single kind (.running command child) other).exit child status) = single kind (.done status) := by
  funext other
  rcases eq_or_ne other kind with rfl | hne
  · rw [single_self, single_self, Session.exit, if_pos rfl]
  · rw [single, single, Function.update_of_ne hne, Function.update_of_ne hne]
    rfl

/-- The flags of the protocol. -/
structure Flags (p : Process) (requested inFlight ready valid : Bool) : Prop where
  requested_eq : p.execRequested = requested
  inFlight_eq : p.execInFlight = inFlight
  ready_eq : p.execStatusReady = ready
  valid_eq : p.childStatusValid = valid

/-- The program asks for the answer of a request. -/
structure Asks (p : Process) (kind : RequestKind) (command : Command) : Prop where
  path_ne : command.path ≠ []
  exec : kind = .exec → p.call = .exec command ∧ p.pending = none
  spawn : kind = .spawn → p.pending = some command ∧ (p.call = .none ∨ p.call = .waitpid)

/-- The phases of a process; `above` is the child in front of it. -/
inductive Phase (above : Option Nat) (p : Process) : Prop
  | idle (habove : above = none) (hsessions : sessions p.log = fun _ => .idle) (hflags : Flags p false false false false)
      (hcall : p.call = .none) (hpending : p.pending = none)
  | called (command : Command) (habove : above = none) (hsessions : sessions p.log = single .exec (.calling command))
      (hflags : Flags p false false false false) (hasks : Asks p .exec command)
  | recorded (kind : RequestKind) (command : Command) (habove : above = none)
      (hsessions : sessions p.log = single kind (.calling command))
      (hflags : Flags p true true false false) (hasks : Asks p kind command) (hcommand : p.execCommand = command)
      (hkind : p.execKind = kind)
  | running (kind : RequestKind) (command : Command) (child : Nat) (habove : above = some child)
      (hsessions : sessions p.log = single kind (.running command child)) (hflags : Flags p false true false false)
      (hasks : Asks p kind command)
  | exited (kind : RequestKind) (command : Command) (status : Int) (habove : above = none)
      (hsessions : sessions p.log = single kind (.done status)) (hflags : Flags p false true false true) (hasks : Asks p kind command)
      (hstatus : p.childStatus = status) (hne : status ≠ elfExecPending)
  | ready (kind : RequestKind) (command : Command) (status : Int) (habove : above = none)
      (hsessions : sessions p.log = single kind (.done status)) (hflags : Flags p false true true false) (hasks : Asks p kind command)
      (hstatus : p.execStatus = status) (hne : status ≠ elfExecPending)

/-- A process whose log is due and that is in a phase. -/
structure Good (above : Option Nat) (p : Process) : Prop where
  phase : Phase above p
  answered : Answered p.log

theorem good_initial : Good none .initial := ⟨.idle rfl rfl ⟨rfl, rfl, rfl, rfl⟩ rfl rfl, trivial⟩

theorem answered_record {event : ExecEvent} (h : Answered p.log) (hdue : Due (sessions p.log) event) : Answered (p.record event).log :=
  ⟨hdue, h⟩

theorem sessions_record (p : Process) (event : ExecEvent) : sessions (p.record event).log = observe (sessions p.log) event := rfl

/-! ## The service -/

/-- While a request is in flight and its answer is not ready, the service answers that it is pending. -/
theorem elfExec_inFlight (hpath : command.path ≠ []) (hready : p.execStatusReady = false) (hflight : p.execInFlight = true)
    (kind : RequestKind) (environment : ExecEnvironment) : elfExec p kind command environment = (elfExecPending, p) := by
  rw [elfExec, if_neg hpath, hready, if_neg Bool.false_ne_true, if_pos hflight]

/-- An answer that is ready is taken. -/
theorem elfExec_ready (hpath : command.path ≠ []) (hready : p.execStatusReady = true) (kind : RequestKind)
    (environment : ExecEnvironment) :
    elfExec p kind command environment = (p.execStatus, { p with execStatusReady := false, execInFlight := false }) := by
  rw [elfExec, if_neg hpath, if_pos hready]

/-- A refusal is an error. -/
theorem execRefusal_neg {environment : ExecEnvironment} {code : Int} (h : execRefusal command environment = some code) : code < 0 := by
  unfold execRefusal at h
  split at h
  · obtain rfl := Option.some.inj h
    decide
  split at h
  · next hcompute =>
    obtain rfl := Option.some.inj h
    exact hcompute.1
  split at h
  · obtain rfl := Option.some.inj h
    decide
  split at h
  · obtain rfl := Option.some.inj h
    decide
  split at h
  · obtain rfl := Option.some.inj h
    decide
  · cases h

/-- A refusal is not taken for a pending request. -/
theorem execRefusal_ne_pending {environment : ExecEnvironment} {code : Int} (h : execRefusal command environment = some code)
    (henvironment : environment.computeResult ≠ elfExecPending) : code ≠ elfExecPending := by
  unfold execRefusal at h
  split at h
  · obtain rfl := Option.some.inj h
    decide
  split at h
  · obtain rfl := Option.some.inj h
    exact henvironment
  split at h
  · obtain rfl := Option.some.inj h
    decide
  split at h
  · obtain rfl := Option.some.inj h
    decide
  split at h
  · obtain rfl := Option.some.inj h
    decide
  · cases h

/-- A request that finds none in flight is refused or recorded. -/
theorem elfExec_free (hready : p.execStatusReady = false) (hflight : p.execInFlight = false) (kind : RequestKind) (command : Command)
    {environment : ExecEnvironment} (henvironment : environment.computeResult ≠ elfExecPending) :
    (∃ code, code < 0 ∧ code ≠ elfExecPending ∧ elfExec p kind command environment = (code, p.record (.refused kind code))) ∨
      (command.path ≠ [] ∧ elfExec p kind command environment =
        (elfExecPending, { p with execCommand := command, execKind := kind, execInFlight := true, execRequested := true })) := by
  unfold elfExec
  by_cases hpath : command.path = []
  · rw [if_pos hpath]
    exact Or.inl ⟨-einval, by decide, by decide, rfl⟩
  rw [if_neg hpath, hready, if_neg Bool.false_ne_true, hflight, if_neg Bool.false_ne_true]
  cases hrefusal : execRefusal command environment with
  | some code => exact Or.inl ⟨code, execRefusal_neg hrefusal, execRefusal_ne_pending hrefusal henvironment, rfl⟩
  | none => exact Or.inr ⟨hpath, rfl⟩

/-! ## Programs -/

theorem Asks.unique {kind' : RequestKind} {command' : Command} (h : Asks p kind command) (h' : Asks p kind' command') :
    kind = kind' ∧ command = command' := by
  cases kind with
  | exec =>
    obtain ⟨hcall, hpending⟩ := h.exec rfl
    cases kind' with
    | exec =>
      obtain ⟨hcall', -⟩ := h'.exec rfl
      rw [hcall] at hcall'
      exact ⟨rfl, GuestCall.exec.inj hcall'⟩
    | spawn =>
      obtain ⟨hpending', -⟩ := h'.spawn rfl
      rw [hpending] at hpending'
      cases hpending'
  | spawn =>
    obtain ⟨hpending, -⟩ := h.spawn rfl
    cases kind' with
    | exec =>
      obtain ⟨-, hpending'⟩ := h'.exec rfl
      rw [hpending] at hpending'
      cases hpending'
    | spawn =>
      obtain ⟨hpending', -⟩ := h'.spawn rfl
      rw [hpending] at hpending'
      exact ⟨rfl, Option.some.inj hpending'⟩

/-- A program asks for an answer exactly when it is in `tabos_exec` or has spawned a child. -/
theorem Asks.busy (h : Asks p kind command) : p.call ≠ .none ∨ p.pending ≠ none := by
  cases kind with
  | exec =>
    left
    rw [(h.exec rfl).1]
    exact fun heq => by cases heq
  | spawn =>
    right
    rw [(h.spawn rfl).1]
    exact fun heq => by cases heq

/-- A process is idle, or its program asks for an answer. -/
theorem Phase.idle_or_asks (h : Phase above p) :
    (above = none ∧ sessions p.log = (fun _ => .idle) ∧ Flags p false false false false ∧ p.call = .none ∧ p.pending = none) ∨
      ∃ kind command, Asks p kind command := by
  cases h with
  | idle habove hsessions hflags hcall hpending => exact Or.inl ⟨habove, hsessions, hflags, hcall, hpending⟩
  | called command _ _ _ hasks => exact Or.inr ⟨_, command, hasks⟩
  | recorded kind command _ _ _ hasks => exact Or.inr ⟨kind, command, hasks⟩
  | running kind command _ _ _ _ hasks => exact Or.inr ⟨kind, command, hasks⟩
  | exited kind command _ _ _ _ hasks => exact Or.inr ⟨kind, command, hasks⟩
  | ready kind command _ _ _ _ hasks => exact Or.inr ⟨kind, command, hasks⟩

/-- What the service does for a program that asks: the request stays pending, or the program gets its own answer. -/
theorem Good.elfExec (h : Good above p) (hasks : Asks p kind command) {environment : ExecEnvironment}
    (henvironment : environment.computeResult ≠ elfExecPending) :
    (∃ q, Exec.elfExec p kind command environment = (elfExecPending, q) ∧ Good above q) ∨
      ∃ status q, Exec.elfExec p kind command environment = (status, q) ∧ status ≠ elfExecPending ∧ above = none ∧ Answered q.log ∧
        sessions q.log = single kind (.done status) ∧ Flags q false false false false ∧ q.call = p.call ∧ q.pending = p.pending := by
  obtain ⟨hphase, hanswered⟩ := h
  cases hphase with
  | idle _ _ _ hcall hpending => exact absurd hasks.busy (by rw [hcall, hpending]; simp)
  | called command' habove hsessions hflags hasks' =>
    obtain ⟨rfl, rfl⟩ := hasks.unique hasks'
    rcases elfExec_free hflags.ready_eq hflags.inFlight_eq .exec command henvironment with
      ⟨code, -, hne, heq⟩ | ⟨-, heq⟩
    · refine Or.inr ⟨code, _, heq, hne, habove, answered_record hanswered ?_, ?_,
        ⟨hflags.1, hflags.2, hflags.3, hflags.4⟩, rfl, rfl⟩
      · exact ⟨command, by rw [hsessions, single_self]⟩
      · rw [sessions_record, hsessions, observe, update_single]
    · exact Or.inl ⟨_, heq, .recorded .exec command habove hsessions ⟨rfl, rfl, hflags.ready_eq, hflags.valid_eq⟩
        ⟨hasks.path_ne, hasks.exec, hasks.spawn⟩ rfl rfl, hanswered⟩
  | recorded kind' command' habove hsessions hflags hasks' hcommand hkind =>
    refine Or.inl ⟨p, elfExec_inFlight hasks.path_ne hflags.ready_eq hflags.inFlight_eq kind environment, ?_, hanswered⟩
    exact .recorded kind' command' habove hsessions hflags hasks' hcommand hkind
  | running kind' command' child habove hsessions hflags hasks' =>
    refine Or.inl ⟨p, elfExec_inFlight hasks.path_ne hflags.ready_eq hflags.inFlight_eq kind environment, ?_, hanswered⟩
    exact .running kind' command' child habove hsessions hflags hasks'
  | exited kind' command' status habove hsessions hflags hasks' hstatus hne =>
    refine Or.inl ⟨p, elfExec_inFlight hasks.path_ne hflags.ready_eq hflags.inFlight_eq kind environment, ?_, hanswered⟩
    exact .exited kind' command' status habove hsessions hflags hasks' hstatus hne
  | ready kind' command' status habove hsessions hflags hasks' hstatus hne =>
    obtain ⟨rfl, rfl⟩ := hasks.unique hasks'
    refine Or.inr ⟨p.execStatus, _, elfExec_ready hasks.path_ne hflags.ready_eq kind environment, ?_, habove, hanswered, ?_,
      ⟨hflags.requested_eq, rfl, rfl, hflags.valid_eq⟩, rfl, rfl⟩
    · rwa [hstatus]
    · rw [hstatus]
      exact hsessions

/-- An answer that is returned leaves the process idle. -/
theorem good_returned {q : Process} (habove : above = none) (hanswered : Answered q.log)
    (hsessions : sessions q.log = single kind (.done status))
    (hflags : Flags q false false false false) : Good above { q.record (.returned kind status) with pending := none, call := .none } where
  phase := by
    refine .idle habove ?_ ⟨hflags.1, hflags.2, hflags.3, hflags.4⟩ rfl rfl
    show observe (sessions q.log) (.returned kind status) = _
    rw [hsessions, observe, update_single_idle]
  answered := by
    refine answered_record hanswered ?_
    rw [hsessions]
    exact single_self kind _

theorem Good.execRound (h : Good above p) (hasks : Asks p .exec command) {environment : ExecEnvironment}
    (henvironment : environment.computeResult ≠ elfExecPending) : Good above (execRound p command environment) := by
  unfold Exec.execRound
  rcases h.elfExec hasks henvironment with ⟨q, heq, hgood⟩ | ⟨status, q, heq, hne, habove, hanswered, hsessions, hflags, -, hpending⟩
  · rw [heq]
    dsimp only
    rwa [if_pos rfl]
  · rw [heq]
    dsimp only
    rw [if_neg hne]
    have hgood := good_returned habove hanswered hsessions hflags
    rwa [← (hasks.exec rfl).2, ← hpending] at hgood

theorem Good.waitpidRound (h : Good above p) (hasks : Asks p .spawn command) {environment : ExecEnvironment}
    (henvironment : environment.computeResult ≠ elfExecPending) : Good above (waitpidRound p environment) := by
  unfold Exec.waitpidRound
  rw [(hasks.spawn rfl).1]
  dsimp only
  rcases h.elfExec hasks henvironment with ⟨q, heq, hgood⟩ | ⟨status, q, heq, hne, habove, hanswered, hsessions, hflags, -, -⟩
  · rw [heq]
    dsimp only
    rwa [if_pos rfl]
  · rw [heq]
    dsimp only
    rw [if_neg hne]
    exact good_returned habove hanswered hsessions hflags

/-- A program that waits for what it spawned still asks for the same answer. -/
theorem Good.waiting (h : Good above p) (hpending : p.pending = some command) : Good above { p with call := .waitpid } := by
  obtain ⟨hphase, hanswered⟩ := h
  refine ⟨?_, hanswered⟩
  have hasks : ∀ kind command', Asks p kind command' → Asks { p with call := .waitpid } kind command' := by
    intro kind command' h
    refine ⟨h.path_ne, fun hkind => ?_, fun hkind => ⟨(h.spawn hkind).1, Or.inr rfl⟩⟩
    rw [(h.exec hkind).2] at hpending
    cases hpending
  cases hphase with
  | idle _ _ _ _ hnone =>
    rw [hnone] at hpending
    cases hpending
  | called command' habove hsessions hflags h =>
    exact .called command' habove hsessions ⟨hflags.1, hflags.2, hflags.3, hflags.4⟩ (hasks _ _ h)
  | recorded kind command' habove hsessions hflags h hcommand hkind =>
    exact .recorded kind command' habove hsessions ⟨hflags.1, hflags.2, hflags.3, hflags.4⟩ (hasks _ _ h) hcommand hkind
  | running kind command' child habove hsessions hflags h =>
    exact .running kind command' child habove hsessions ⟨hflags.1, hflags.2, hflags.3, hflags.4⟩ (hasks _ _ h)
  | exited kind command' status habove hsessions hflags h hstatus hne =>
    exact .exited kind command' status habove hsessions ⟨hflags.1, hflags.2, hflags.3, hflags.4⟩ (hasks _ _ h) hstatus hne
  | ready kind command' status habove hsessions hflags h hstatus hne =>
    exact .ready kind command' status habove hsessions ⟨hflags.1, hflags.2, hflags.3, hflags.4⟩ (hasks _ _ h) hstatus hne

theorem Good.tabosExec (h : Good above p) (hcall : p.call = .none) (hpending : p.pending = none) (command : Command) :
    Good above (tabosExec p command) := by
  unfold Exec.tabosExec
  split
  · exact h
  next hvalid =>
  rcases h.phase.idle_or_asks with ⟨habove, hsessions, hflags, -, -⟩ | ⟨kind, command', hasks⟩
  · refine ⟨.called command habove ?_ ⟨hflags.1, hflags.2, hflags.3, hflags.4⟩
      ⟨fun hpath => hvalid (Or.inl hpath), fun _ => ⟨rfl, hpending⟩,
      fun hkind => (by cases hkind)⟩, answered_record h.answered ?_⟩
    · show observe (sessions p.log) (.called .exec command) = _
      rw [hsessions]
      rfl
    · rw [hsessions]
      rfl
  · exact absurd hasks.busy (by rw [hcall, hpending]; simp)

theorem Good.tabosSpawn (h : Good above p) (hcall : p.call = .none) (command : Command) {environment : ExecEnvironment}
    (henvironment : environment.computeResult ≠ elfExecPending) : Good above (tabosSpawn p command environment).2 := by
  unfold Exec.tabosSpawn
  split
  · exact h
  next hnone =>
  have hpending : p.pending = none := by simpa using hnone
  rcases h.phase.idle_or_asks with ⟨habove, hsessions, hflags, -, -⟩ | ⟨kind, command', hasks⟩
  · have hanswered : Answered (p.record (.called .spawn command)).log := by
      refine answered_record h.answered ?_
      rw [hsessions]
      rfl
    have hsessions' : sessions (p.record (.called .spawn command)).log = single .spawn (.calling command) := by
      rw [sessions_record, hsessions]
      rfl
    have hfree : Flags (p.record (.called .spawn command)) false false false false := ⟨hflags.1, hflags.2, hflags.3, hflags.4⟩
    rcases elfExec_free hfree.ready_eq hfree.inFlight_eq .spawn command henvironment with ⟨code, hneg, hne, heq⟩ | ⟨hpath, heq⟩
    · rw [heq]
      dsimp only
      rw [if_pos ⟨hneg, hne⟩]
      have hrefused : Answered ((p.record (.called .spawn command)).record (.refused .spawn code)).log :=
        answered_record hanswered ⟨command, by rw [hsessions', single_self]⟩
      have hdone : sessions ((p.record (.called .spawn command)).record (.refused .spawn code)).log = single .spawn (.done code) := by
        rw [sessions_record, hsessions', observe, update_single]
      have hgood := good_returned habove hrefused hdone ⟨hflags.1, hflags.2, hflags.3, hflags.4⟩
      rwa [← hpending, ← hcall] at hgood
    · rw [heq]
      dsimp only
      rw [if_neg fun hfailed => hfailed.2 rfl]
      exact ⟨.recorded .spawn command habove hsessions' ⟨rfl, rfl, hflags.ready_eq, hflags.valid_eq⟩
        ⟨hpath, fun hkind => (by cases hkind), fun _ => ⟨rfl, Or.inl hcall⟩⟩ rfl rfl, hanswered⟩
  · exact absurd hasks.busy (by rw [hcall, hpending]; simp)

/-- What a program may do: it does not call `tabos_exec` before it has waited for what it spawned, and no compute job that it waits for
has the result that stands for a pending request. -/
def RegularGuest (p : Process) : GuestStep → Prop
  | .exec _ => p.pending = none
  | .spawn _ environment => environment.computeResult ≠ elfExecPending
  | .waitpid _ => True
  | .round environment => environment.computeResult ≠ elfExecPending

instance (p : Process) : ∀ action, Decidable (RegularGuest p action)
  | .exec _ => inferInstanceAs (Decidable (p.pending = none))
  | .spawn _ environment => inferInstanceAs (Decidable (environment.computeResult ≠ elfExecPending))
  | .waitpid _ => isTrue trivial
  | .round environment => inferInstanceAs (Decidable (environment.computeResult ≠ elfExecPending))

/-- A program in `tabos_exec` asks for its answer. -/
theorem Phase.asks_of_exec (h : Phase above p) (hcall : p.call = .exec command) : Asks p .exec command := by
  rcases h.idle_or_asks with ⟨-, -, -, hnone, -⟩ | ⟨kind, command', hasks⟩
  · rw [hnone] at hcall
    cases hcall
  · cases kind with
    | exec =>
      rw [(hasks.exec rfl).1] at hcall
      exact GuestCall.exec.inj hcall ▸ hasks
    | spawn =>
      rcases (hasks.spawn rfl).2 with hnone | hwait
      · rw [hnone] at hcall
        cases hcall
      · rw [hwait] at hcall
        cases hcall

/-- A program in `tabos_waitpid` asks for the answer of what it spawned. -/
theorem Phase.asks_of_waitpid (h : Phase above p) (hcall : p.call = .waitpid) : ∃ command, Asks p .spawn command := by
  rcases h.idle_or_asks with ⟨-, -, -, hnone, -⟩ | ⟨kind, command, hasks⟩
  · rw [hnone] at hcall
    cases hcall
  · cases kind with
    | exec =>
      rw [(hasks.exec rfl).1] at hcall
      cases hcall
    | spawn => exact ⟨command, hasks⟩

theorem Good.guestStep (h : Good above p) {action : GuestStep} (hregular : RegularGuest p action) : Good above (guestStep p action) := by
  cases action with
  | exec command =>
    rw [Exec.guestStep]
    split
    · next hcall => exact h.tabosExec hcall hregular command
    · exact h
  | spawn command environment =>
    rw [Exec.guestStep]
    split
    · next hcall => exact h.tabosSpawn hcall command hregular
    · exact h
  | waitpid pid =>
    rw [Exec.guestStep]
    split
    · rw [tabosWaitpid]
      split
      · exact h
      · next hwait =>
        obtain ⟨command, hpending⟩ := Option.isSome_iff_exists.1
          ((Bool.eq_false_or_eq_true _).resolve_right fun hnone => hwait (Or.inl hnone))
        exact h.waiting hpending
    · exact h
  | round environment =>
    rw [Exec.guestStep]
    cases hcall : p.call with
    | none => exact h
    | exec command => exact h.execRound (h.phase.asks_of_exec hcall) hregular
    | waitpid =>
      obtain ⟨command, hasks⟩ := h.phase.asks_of_waitpid hcall
      exact h.waitpidRound hasks hregular

/-! ## The process manager -/

/-- A program asks for the same whatever the process manager does. -/
theorem Asks.congr {q : Process} (h : Asks p kind command) (hcall : q.call = p.call) (hpending : q.pending = p.pending) :
    Asks q kind command := by
  refine ⟨h.path_ne, fun hkind => ?_, fun hkind => ?_⟩
  · rw [hcall, hpending]
    exact h.exec hkind
  · rw [hcall, hpending]
    exact h.spawn hkind

/-- The status of a child is passed on. -/
theorem Good.takeChildStatus (h : Good none p) :
    Good none (takeChildStatus p) ∧ (takeChildStatus p).execRequested = p.execRequested ∧ (takeChildStatus p).log = p.log := by
  unfold Exec.takeChildStatus
  split
  · next hvalid =>
    refine ⟨⟨?_, h.answered⟩, rfl, rfl⟩
    cases h.phase with
    | exited kind command status habove hsessions hflags hasks hstatus hne =>
      exact .ready kind command status rfl hsessions ⟨hflags.1, hflags.2, rfl, rfl⟩ (hasks.congr rfl rfl) hstatus hne
    | idle _ _ hflags _ _ => exact absurd (hvalid.symm.trans hflags.valid_eq) (by decide)
    | called _ _ _ hflags _ => exact absurd (hvalid.symm.trans hflags.valid_eq) (by decide)
    | recorded _ _ _ _ hflags _ _ _ => exact absurd (hvalid.symm.trans hflags.valid_eq) (by decide)
    | running _ _ _ habove => cases habove
    | ready _ _ _ _ _ hflags _ _ _ => exact absurd (hvalid.symm.trans hflags.valid_eq) (by decide)
  · exact ⟨h, rfl, rfl⟩

/-- A request that is to be launched. -/
structure Launching (p : Process) (kind : RequestKind) (command : Command) : Prop where
  answered : Answered p.log
  sessions_eq : sessions p.log = single kind (.calling command)
  flags : Flags p false true false false
  asks : Asks p kind command
  command_eq : p.execCommand = command
  kind_eq : p.execKind = kind

/-- A request that is recorded is launched next. -/
theorem Good.launching (h : Good none p) (hrequested : p.execRequested = true) :
    ∃ kind command, Launching { p with execRequested := false } kind command := by
  cases h.phase with
  | recorded kind command _ hsessions hflags hasks hcommand hkind =>
    exact ⟨kind, command, h.answered, hsessions, ⟨rfl, hflags.2, hflags.3, hflags.4⟩, hasks.congr rfl rfl, hcommand, hkind⟩
  | idle _ _ hflags _ _ => exact absurd (hrequested.symm.trans hflags.requested_eq) (by decide)
  | called _ _ _ hflags _ => exact absurd (hrequested.symm.trans hflags.requested_eq) (by decide)
  | running _ _ _ habove => cases habove
  | exited _ _ _ _ _ hflags _ _ _ => exact absurd (hrequested.symm.trans hflags.requested_eq) (by decide)
  | ready _ _ _ _ _ hflags _ _ _ => exact absurd (hrequested.symm.trans hflags.requested_eq) (by decide)

theorem AppError.code_ne_pending (error : AppError) : -(100 + error.toInt) ≠ elfExecPending := by cases error <;> decide

theorem Launching.failed (h : Launching p kind command) (error : AppError) : Good none (launchFailed p error) where
  phase := by
    refine .ready kind command (-(100 + error.toInt)) rfl ?_ ⟨h.flags.1, h.flags.2, rfl, rfl⟩ (h.asks.congr rfl rfl) rfl
      error.code_ne_pending
    show observe (sessions p.log) (.failed p.execKind p.execCommand _) = _
    rw [h.sessions_eq, h.kind_eq, observe, update_single]
  answered := by
    refine answered_record h.answered ?_
    rw [h.sessions_eq, h.kind_eq, h.command_eq]
    exact single_self _ _

theorem Launching.started (h : Launching p kind command) (child : Nat) :
    Good (some child) (p.record (.launched p.execKind p.execCommand child)) where
  phase := by
    refine .running kind command child rfl ?_ ⟨h.flags.1, h.flags.2, h.flags.3, h.flags.4⟩ (h.asks.congr rfl rfl)
    rw [sessions_record, h.sessions_eq, h.kind_eq, h.command_eq, observe, update_single]
  answered := by
    refine answered_record h.answered ?_
    rw [h.sessions_eq, h.kind_eq, h.command_eq]
    exact single_self _ _

/-- The parent of a child that finishes. -/
theorem Good.childFinished (h : Good (some child) p) (hne : status ≠ elfExecPending) : Good none (childFinished p child status) := by
  cases h.phase with
  | running kind command child' habove hsessions hflags hasks =>
    cases habove
    refine ⟨.exited kind command status rfl ?_ ⟨hflags.1, hflags.2, hflags.3, rfl⟩ (hasks.congr rfl rfl) rfl hne,
      answered_record h.answered ⟨kind, command, by rw [hsessions, single_self]⟩⟩
    show observe (sessions p.log) (.exited child status) = _
    rw [hsessions]
    exact exit_single kind command child status
  | idle habove => cases habove
  | called _ habove => cases habove
  | recorded _ _ habove => cases habove
  | exited _ _ _ habove => cases habove
  | ready _ _ _ habove => cases habove

/-! ## Systems -/

/-- The child in front of a process on the stack. -/
def childOf : List Nat → Nat → Option Nat
  | child :: parent :: below, id => if id = parent then some child else childOf (parent :: below) id
  | _, _ => none

theorem childOf_of_not_mem_tail {stack : List Nat} (h : id ∉ stack.tail) : childOf stack id = none := by
  induction stack with
  | nil => rfl
  | cons child stack ih =>
    cases stack with
    | nil => rfl
    | cons parent below =>
      rw [List.tail_cons] at h
      have hne : id ≠ parent := by
        rintro rfl
        exact h List.mem_cons_self
      rw [childOf, if_neg hne]
      exact ih fun hmem => h (List.mem_cons_of_mem _ hmem)

/-- The processes on the stack are in phases, and every log is due. -/
structure Consistent (s : System) : Prop where
  nodup : s.stack.Nodup
  lt : ∀ id ∈ s.stack, id < s.nextProcessId
  fresh : ∀ id, s.nextProcessId ≤ id → s.processes id = .initial
  phase : ∀ id ∈ s.stack, Phase (childOf s.stack id) (s.processes id)
  answered : ∀ id, Answered (s.processes id).log

theorem Consistent.good (h : Consistent s) (hmem : id ∈ s.stack) : Good (childOf s.stack id) (s.processes id) :=
  ⟨h.phase id hmem, h.answered id⟩

theorem consistent_initial : Consistent .initial where
  nodup := List.nodup_singleton 0
  lt := fun id hmem => by
    obtain rfl := List.mem_singleton.1 hmem
    exact Nat.one_pos
  fresh := fun _ _ => rfl
  phase := fun _ _ => good_initial.phase
  answered := fun _ => trivial

@[simp] theorem set_processes_self (s : System) (id : Nat) (p : Process) : (s.set id p).processes id = p := Function.update_self _ _ _

theorem set_processes_of_ne {other : Nat} (hne : other ≠ id) (s : System) (p : Process) :
    (s.set id p).processes other = s.processes other := Function.update_of_ne hne _ _

/-- A process on the stack changes and stays good. -/
theorem Consistent.set (h : Consistent s) (hmem : id ∈ s.stack) (hgood : Good (childOf s.stack id) p) : Consistent (s.set id p) where
  nodup := h.nodup
  lt := h.lt
  fresh := by
    intro other hle
    have hne : other ≠ id := by
      rintro rfl
      exact Nat.lt_irrefl _ (Nat.lt_of_lt_of_le (h.lt other hmem) hle)
    rw [set_processes_of_ne hne]
    exact h.fresh other hle
  phase := by
    intro other hother
    rcases eq_or_ne other id with rfl | hne
    · rw [set_processes_self]
      exact hgood.phase
    · rw [set_processes_of_ne hne]
      exact h.phase other hother
  answered := by
    intro other
    rcases eq_or_ne other id with rfl | hne
    · rw [set_processes_self]
      exact hgood.answered
    · rw [set_processes_of_ne hne]
      exact h.answered other

/-- An id is used up. -/
theorem Consistent.skip (h : Consistent s) : Consistent { s with nextProcessId := s.nextProcessId + 1 } :=
  ⟨h.nodup, fun id hmem => Nat.lt_succ_of_lt (h.lt id hmem), fun id hle => h.fresh id (Nat.le_of_succ_le hle), h.phase, h.answered⟩

/-- A child is put in front of the foreground process. -/
theorem Consistent.push {below : List Nat} (h : Consistent s) (hstack : s.stack = id :: below)
    (hgood : Good (some s.nextProcessId) p) :
    Consistent { s.set id p with stack := s.nextProcessId :: s.stack, nextProcessId := s.nextProcessId + 1 } := by
  have hmem : id ∈ s.stack := by
    rw [hstack]
    exact List.mem_cons_self
  have hnew : s.nextProcessId ∉ s.stack := fun hmem => Nat.lt_irrefl _ (h.lt _ hmem)
  have hne : s.nextProcessId ≠ id := fun heq => hnew (heq ▸ hmem)
  refine ⟨List.nodup_cons.2 ⟨hnew, h.nodup⟩, fun other hother => ?_, fun other hle => ?_, fun other hother => ?_, fun other => ?_⟩
  · rcases List.mem_cons.1 hother with rfl | hother
    · exact Nat.lt_succ_self _
    · exact Nat.lt_succ_of_lt (h.lt other hother)
  · have hother : other ≠ id := by
      rintro rfl
      exact Nat.lt_irrefl _ (Nat.lt_of_lt_of_le (h.lt other hmem) (Nat.le_of_succ_le hle))
    exact (set_processes_of_ne hother s p).trans (h.fresh other (Nat.le_of_succ_le hle))
  · rcases List.mem_cons.1 hother with rfl | hother
    · show Phase (childOf (s.nextProcessId :: s.stack) s.nextProcessId) ((s.set id p).processes s.nextProcessId)
      rw [childOf_of_not_mem_tail hnew, set_processes_of_ne hne, h.fresh _ (Nat.le_refl _)]
      exact good_initial.phase
    · show Phase (childOf (s.nextProcessId :: s.stack) other) ((s.set id p).processes other)
      rw [hstack, childOf]
      rcases eq_or_ne other id with rfl | hne'
      · rw [if_pos rfl, set_processes_self]
        exact hgood.phase
      · rw [if_neg hne', set_processes_of_ne hne', ← hstack]
        exact h.phase other hother
  · show Answered ((s.set id p).processes other).log
    rcases eq_or_ne other id with rfl | hne'
    · rw [set_processes_self]
      exact hgood.answered
    · rw [set_processes_of_ne hne']
      exact h.answered other

/-- The foreground process has no child in front of it. -/
theorem Consistent.childOf_head {below : List Nat} (h : Consistent s) (hstack : s.stack = id :: below) : childOf s.stack id = none := by
  have hnodup := h.nodup
  rw [hstack] at hnodup ⊢
  exact childOf_of_not_mem_tail (List.nodup_cons.1 hnodup).1

theorem Consistent.finish (h : Consistent s) (hne : status ≠ elfExecPending) : Consistent (finishForeground s status) := by
  unfold finishForeground
  split
  · next child parent below hstack =>
    have hnodup := h.nodup
    rw [hstack] at hnodup
    obtain ⟨hchild, hbelow⟩ := List.nodup_cons.1 hnodup
    have hparent : parent ∈ s.stack := by
      rw [hstack]
      exact List.mem_cons_of_mem _ List.mem_cons_self
    have hgood := h.good hparent
    rw [hstack, childOf, if_pos rfl] at hgood
    have hfinished := hgood.childFinished hne
    have hne' : parent ≠ child := fun heq => hchild (heq ▸ List.mem_cons_self)
    refine ⟨hbelow, fun other hother => ?_, fun other hle => ?_, fun other hother => ?_, fun other => ?_⟩
    · refine h.lt other ?_
      rw [hstack]
      exact List.mem_cons_of_mem _ hother
    · have hother : other ≠ parent := by
        rintro rfl
        exact Nat.lt_irrefl _ (Nat.lt_of_lt_of_le (h.lt other hparent) hle)
      exact (set_processes_of_ne hother s _).trans (h.fresh other hle)
    · show Phase (childOf (parent :: below) other) ((s.set parent _).processes other)
      rcases eq_or_ne other parent with rfl | hother'
      · rw [childOf_of_not_mem_tail (List.nodup_cons.1 hbelow).1, set_processes_self]
        exact hfinished.phase
      · rw [set_processes_of_ne hother']
        have hphase := h.phase other (by rw [hstack]; exact List.mem_cons_of_mem _ hother)
        rwa [hstack, childOf, if_neg hother'] at hphase
    · show Answered ((s.set parent _).processes other).log
      rcases eq_or_ne other parent with rfl | hother'
      · rw [set_processes_self]
        exact hfinished.answered
      · rw [set_processes_of_ne hother']
        exact h.answered other
  · exact h

theorem Consistent.launch {below : List Nat} (h : Consistent s) (hstack : s.stack = id :: below) (hlaunching : Launching p kind command)
    {outcome : LaunchOutcome} (houtcome : outcome ≠ .finished elfExecPending) : Consistent (launch s id p outcome) := by
  have hmem : id ∈ s.stack := by
    rw [hstack]
    exact List.mem_cons_self
  have habove := h.childOf_head hstack
  have hfailed : ∀ error, Consistent (s.set id (launchFailed p error)) := fun error =>
    h.set hmem (by rw [habove]; exact hlaunching.failed error)
  unfold Exec.launch
  dsimp only
  split
  · exact hfailed .startFailed
  cases outcome with
  | failed error => exact hfailed error
  | entryFailed => exact (hfailed .startFailed).skip
  | started => exact h.push hstack (hlaunching.started s.nextProcessId)
  | finished status =>
    have hne : status ≠ elfExecPending := fun heq => houtcome (heq ▸ rfl)
    have hfinished := (hlaunching.started s.nextProcessId).childFinished hne
    exact (h.set hmem (by rw [habove]; exact hfinished)).skip

theorem Consistent.update (h : Consistent s) {outcome : LaunchOutcome} (houtcome : outcome ≠ .finished elfExecPending) :
    Consistent (elfUpdate s outcome) := by
  unfold elfUpdate
  split
  · exact h
  next id below hstack =>
  have hmem : id ∈ s.stack := by
    rw [hstack]
    exact List.mem_cons_self
  have hgood := h.good hmem
  rw [h.childOf_head hstack] at hgood
  obtain ⟨htaken, -, -⟩ := hgood.takeChildStatus
  dsimp only
  split
  · next hrequested =>
    obtain ⟨kind, command, hlaunching⟩ := htaken.launching hrequested
    exact h.launch hstack hlaunching houtcome
  · refine h.set hmem ?_
    rwa [h.childOf_head hstack]

/-! ## Every run -/

/-- What programs and children may do: programs as `RegularGuest` says, and no child exits with the value that stands for a pending
request. -/
def Regular (s : System) : SystemStep → Prop
  | .guest id action => RegularGuest (s.processes id) action
  | .update outcome => outcome ≠ .finished elfExecPending
  | .finish status => status ≠ elfExecPending

instance (s : System) : ∀ action, Decidable (Regular s action)
  | .guest id action => inferInstanceAs (Decidable (RegularGuest (s.processes id) action))
  | .update outcome => inferInstanceAs (Decidable (outcome ≠ .finished elfExecPending))
  | .finish status => inferInstanceAs (Decidable (status ≠ elfExecPending))

theorem Consistent.step (h : Consistent s) {action : SystemStep} (hregular : Regular s action) : Consistent (step s action) := by
  cases action with
  | guest id action =>
    rw [Exec.step]
    split
    · next hmem => exact h.set hmem ((h.good hmem).guestStep hregular)
    · exact h
  | update outcome => exact h.update hregular
  | finish status => exact h.finish hregular

theorem consistent_run {steps : List SystemStep} (hregular : Along Exec.step Regular .initial steps) : Consistent (run .initial steps) :=
  hregular.invariant Consistent (fun _ _ hconsistent hstep => hconsistent.step hstep) consistent_initial

/-- A request that the service has accepted is launched, or fails, in the next update of its process. -/
theorem launched_next {below : List Nat} (h : Good none (s.processes id)) (hstack : s.stack = id :: below)
    (hsession : sessions (s.processes id).log kind = .calling command) (hflight : (s.processes id).execInFlight = true)
    (outcome : LaunchOutcome) :
    ∃ log, ((elfUpdate s outcome).processes id).log = log ++ (s.processes id).log ∧
      ((∃ child, .launched kind command child ∈ log) ∨ ∃ code, .failed kind command code ∈ log) := by
  have hne : Session.calling command ≠ .idle := fun heq => by cases heq
  cases h.phase with
  | recorded kind' command' _ hsessions hflags _ hcommand hkind =>
    rw [hsessions] at hsession
    obtain ⟨rfl, heq⟩ := single_eq hsession hne
    obtain rfl := Session.calling.inj heq
    have htaken : takeChildStatus (s.processes id) = s.processes id := by
      rw [takeChildStatus, hflags.valid_eq, if_neg Bool.false_ne_true]
    rw [elfUpdate, hstack]
    dsimp only
    rw [htaken, if_pos hflags.requested_eq]
    unfold launch
    dsimp only
    split
    · rw [set_processes_self]
      exact ⟨[.failed kind command' _], by rw [← hkind, ← hcommand]; rfl, Or.inr ⟨_, List.mem_singleton_self _⟩⟩
    cases outcome with
    | failed error =>
      dsimp only
      rw [set_processes_self]
      exact ⟨[.failed kind command' _], by rw [← hkind, ← hcommand]; rfl, Or.inr ⟨_, List.mem_singleton_self _⟩⟩
    | entryFailed =>
      dsimp only
      rw [set_processes_self]
      exact ⟨[.failed kind command' _], by rw [← hkind, ← hcommand]; rfl, Or.inr ⟨_, List.mem_singleton_self _⟩⟩
    | started =>
      dsimp only
      rw [set_processes_self]
      exact ⟨[.launched kind command' _], by rw [← hkind, ← hcommand]; rfl, Or.inl ⟨_, List.mem_singleton_self _⟩⟩
    | finished status =>
      dsimp only
      rw [set_processes_self]
      exact ⟨[.exited _ status, .launched kind command' _], by rw [← hkind, ← hcommand]; rfl,
        Or.inl ⟨_, List.mem_cons_of_mem _ (List.mem_singleton_self _)⟩⟩
  | idle _ hsessions =>
    rw [hsessions] at hsession
    exact absurd hsession.symm hne
  | called _ _ _ hflags _ => exact absurd (hflight.symm.trans hflags.inFlight_eq) (by decide)
  | running _ _ _ habove => cases habove
  | exited _ _ _ _ hsessions =>
    rw [hsessions] at hsession
    cases (single_eq hsession hne).2
  | ready _ _ _ _ hsessions =>
    rw [hsessions] at hsession
    cases (single_eq hsession hne).2

/-- A status that is due is ready after an update. -/
theorem ready_next {value : Int} (h : Good none p) (hsession : sessions p.log kind = .done value) :
    (takeChildStatus p).execRequested = false ∧ (takeChildStatus p).execStatusReady = true ∧ (takeChildStatus p).execStatus = value ∧
      value ≠ elfExecPending ∧ ∃ command, Asks (takeChildStatus p) kind command := by
  have hne : Session.done value ≠ .idle := fun heq => by cases heq
  cases h.phase with
  | exited kind' command' status _ hsessions hflags hasks hstatus hpending =>
    rw [hsessions] at hsession
    obtain ⟨rfl, heq⟩ := single_eq hsession hne
    obtain rfl := Session.done.inj heq
    rw [takeChildStatus, if_pos hflags.valid_eq]
    exact ⟨hflags.requested_eq, rfl, hstatus, hpending, command', hasks.congr rfl rfl⟩
  | ready kind' command' status _ hsessions hflags hasks hstatus hpending =>
    rw [hsessions] at hsession
    obtain ⟨rfl, heq⟩ := single_eq hsession hne
    obtain rfl := Session.done.inj heq
    rw [takeChildStatus, hflags.valid_eq, if_neg Bool.false_ne_true]
    exact ⟨hflags.requested_eq, hflags.ready_eq, hstatus, hpending, command', hasks⟩
  | idle _ hsessions =>
    rw [hsessions] at hsession
    exact absurd hsession.symm hne
  | called _ _ hsessions =>
    rw [hsessions] at hsession
    cases (single_eq hsession hne).2
  | recorded _ _ _ hsessions =>
    rw [hsessions] at hsession
    cases (single_eq hsession hne).2
  | running _ _ _ habove => cases habove

@[simp] theorem log_takeChildStatus (p : Process) : (takeChildStatus p).log = p.log := by
  unfold takeChildStatus
  split <;> rfl

@[simp] theorem call_takeChildStatus (p : Process) : (takeChildStatus p).call = p.call := by
  unfold takeChildStatus
  split <;> rfl

/-- A status that is due is returned in the next round after an update. -/
theorem returned_next {below : List Nat} {value : Int} (h : Good none (s.processes id)) (hstack : s.stack = id :: below)
    (hsession : sessions (s.processes id).log kind = .done value) (hwaits : kind = .spawn → (s.processes id).call = .waitpid)
    (outcome : LaunchOutcome) (environment : ExecEnvironment) :
    (guestStep ((elfUpdate s outcome).processes id) (.round environment)).log = .returned kind value :: (s.processes id).log := by
  obtain ⟨hrequested, hready, hstatus, hne, command, hasks⟩ := ready_next h hsession
  have hupdate : (elfUpdate s outcome).processes id = takeChildStatus (s.processes id) := by
    rw [elfUpdate, hstack]
    dsimp only
    rw [hrequested, if_neg Bool.false_ne_true, set_processes_self]
  rw [hupdate, guestStep]
  cases kind with
  | exec =>
    rw [(hasks.exec rfl).1]
    dsimp only
    rw [execRound, elfExec_ready hasks.path_ne hready]
    dsimp only
    rw [hstatus, if_neg hne]
    show ExecEvent.returned .exec value :: (takeChildStatus (s.processes id)).log = _
    rw [log_takeChildStatus]
  | spawn =>
    rw [call_takeChildStatus, hwaits rfl]
    dsimp only
    rw [waitpidRound, (hasks.spawn rfl).1]
    dsimp only
    rw [elfExec_ready hasks.path_ne hready]
    dsimp only
    rw [hstatus, if_neg hne]
    show ExecEvent.returned .spawn value :: (takeChildStatus (s.processes id)).log = _
    rw [log_takeChildStatus]

/-- Unless a program calls `tabos_exec` before it has waited for what it spawned, or a status or the result of a compute job is the value
that stands for a pending request: every event in the log of every process is due, a request that was accepted is launched or fails in the
next update of its process, and a status that is due is returned by its own call in the next round after that. -/
theorem requests_answered (steps : List SystemStep) (hregular : Along step Regular .initial steps) :
    let s := run .initial steps
    (∀ id, Answered (s.processes id).log) ∧
      (∀ id below kind command outcome, s.stack = id :: below → sessions (s.processes id).log kind = .calling command →
        (s.processes id).execInFlight = true →
          ∃ log, ((step s (.update outcome)).processes id).log = log ++ (s.processes id).log ∧
            ((∃ child, .launched kind command child ∈ log) ∨ ∃ code, .failed kind command code ∈ log)) ∧
        ∀ id below kind value outcome environment, s.stack = id :: below → sessions (s.processes id).log kind = .done value →
          (kind = .spawn → (s.processes id).call = .waitpid) →
            (guestStep ((step s (.update outcome)).processes id) (.round environment)).log =
              .returned kind value :: (s.processes id).log := by
  intro s
  have hconsistent : Consistent s := consistent_run hregular
  have hgood : ∀ id below, s.stack = id :: below → Good none (s.processes id) := by
    intro id below hstack
    rw [← hconsistent.childOf_head hstack]
    exact hconsistent.good (by rw [hstack]; exact List.mem_cons_self)
  refine ⟨hconsistent.answered, fun id below kind command outcome hstack hsession hflight => ?_,
    fun id below kind value outcome environment hstack hsession hwaits => ?_⟩
  · exact launched_next (hgood id below hstack) hstack hsession hflight outcome
  · exact returned_next (hgood id below hstack) hstack hsession hwaits outcome environment

def listDirectory : Command where
  path := [108, 115]
  arguments := [[108, 115]]

def copyFile : Command where
  path := [99, 112]
  arguments := [[99, 112]]

/-- Every request passes the checks. -/
def accepting : ExecEnvironment where
  graphicsActive := false
  computeResult := 0
  pathReadable := true
  argumentsFit := true

/-- A child is spawned, exits and is waited for. -/
def spawnAndWait : List SystemStep :=
  [.guest 0 (.spawn listDirectory accepting), .update .started, .finish 7, .guest 0 (.waitpid 1), .update .started,
    .guest 0 (.round accepting)]

theorem requests_answered_spawnAndWait :
    Along step Regular .initial spawnAndWait ∧ Answered ((run .initial spawnAndWait).processes 0).log :=
  ⟨by decide, (requests_answered spawnAndWait (by decide)).1 0⟩

/-- A child that exits with the value that stands for a pending request. -/
def exitPending : List SystemStep :=
  [.guest 0 (.exec listDirectory), .guest 0 (.round accepting), .update .started, .finish elfExecPending, .update .started,
    .guest 0 (.round accepting), .guest 0 (.round accepting), .update .started]

/-- A program that spawns one child and executes another one before it has waited for the first. -/
def execWhileSpawned : List SystemStep :=
  [.guest 0 (.spawn listDirectory accepting), .update .started, .finish 7, .update .started, .guest 0 (.exec copyFile),
    .guest 0 (.round accepting)]

/-- The status of the first child is lost and its program is launched again, and the status of the child that was spawned is returned for
one that was never launched. -/
theorem requests_not_answered :
    ((run .initial exitPending).processes 0).log =
        [.launched .exec listDirectory 2, .exited 1 elfExecPending, .launched .exec listDirectory 1, .called .exec listDirectory] ∧
      ¬Answered ((run .initial exitPending).processes 0).log ∧
        ((run .initial execWhileSpawned).processes 0).log =
            [.returned .exec 7, .called .exec copyFile, .exited 1 7, .launched .spawn listDirectory 1, .called .spawn listDirectory] ∧
          ¬Answered ((run .initial execWhileSpawned).processes 0).log := by
  have hpending : ((run .initial exitPending).processes 0).log =
      [.launched .exec listDirectory 2, .exited 1 elfExecPending, .launched .exec listDirectory 1, .called .exec listDirectory] := by
    decide
  have hspawned : ((run .initial execWhileSpawned).processes 0).log =
      [.returned .exec 7, .called .exec copyFile, .exited 1 7, .launched .spawn listDirectory 1, .called .spawn listDirectory] := by
    decide
  refine ⟨hpending, fun hanswered => ?_, hspawned, fun hanswered => ?_⟩
  · rw [hpending] at hanswered
    have hdue : sessions [.exited 1 elfExecPending, .launched .exec listDirectory 1, .called .exec listDirectory] .exec =
        .calling listDirectory := hanswered.1
    exact absurd hdue (by decide)
  · rw [hspawned] at hanswered
    have hdue : sessions [.called .exec copyFile, .exited 1 7, .launched .spawn listDirectory 1, .called .spawn listDirectory] .exec =
        .done 7 := hanswered.1
    exact absurd hdue (by decide)

end Exec
end TabOS
