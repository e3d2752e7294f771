import TabOS.Library.Monitor
import TabOS.Library.Run
import Mathlib.Logic.Function.Basic

/-!
# Executing child programs

`tabos_exec`, `tabos_spawn` and `tabos_waitpid` of the SDK, the service `elf_exec` that they poll, the update of an application, and what
the process manager does when a child is launched and when it finishes. The programs of all processes run while the process manager
updates the foreground process; each call of the service and each update is one step. What the platform and the programs do is an argument
of the steps. Every process has a log, a history variable that no branch reads, with the latest event first.
-/

namespace TabOS
namespace Exec

open Library

/-- `TABOS_ELF_EXEC_PENDING`. -/
def elfExecPending : Int := -2147483648

/-- `TABOS_ELF_ARG_MAX`. -/
def elfArgMax : Nat := 16

/-- `TABOS_FS_PATH_MAX`. -/
def fsPathMax : Nat := 512

/-- `KERNEL_PROCESS_CAPACITY`. -/
def kernelProcessCapacity : Nat := 16

def eio : Int := 5
def echild : Int := 10
def ebusy : Int := 16
def einval : Int := 22
def enametoolong : Int := 36
def enotsup : Int := 95

/-- `tabos_app_result_t` without success. -/
inductive AppError where
  | notFound
  | busy
  | invalid
  | startFailed
  deriving DecidableEq, Repr

def AppError.toInt : AppError → Int
  | .notFound => 1
  | .busy => 2
  | .invalid => 3
  | .startFailed => 4

/-- A program and its arguments. -/
structure Command where
  path : List UInt8
  arguments : List (List UInt8)
  deriving DecidableEq, Repr

/-- The call of the SDK that a child is requested with. -/
inductive RequestKind where
  | exec
  | spawn
  deriving DecidableEq, Repr

/-- What happens to the requests of a process. -/
inductive ExecEvent where
  | called (kind : RequestKind) (command : Command)
  | refused (kind : RequestKind) (code : Int)
  | launched (kind : RequestKind) (command : Command) (child : Nat)
  | failed (kind : RequestKind) (command : Command) (code : Int)
  | exited (child : Nat) (status : Int)
  | returned (kind : RequestKind) (value : Int)
  deriving DecidableEq, Repr

/-- The call of the SDK that a program is in. -/
inductive GuestCall where
  | none
  | exec (command : Command)
  | waitpid
  deriving DecidableEq, Repr

/-- A process: the fields of `loader_elf_application` and of the context that the protocol is about, the variables of the SDK, and the
log. `execKind` is a part of the history: the call that the recorded request comes from. -/
structure Process where
  execRequested : Bool
  execInFlight : Bool
  execStatusReady : Bool
  execStatus : Int
  execCommand : Command
  execKind : RequestKind
  childStatus : Int
  childStatusValid : Bool
  pending : Option Command
  call : GuestCall
  log : List ExecEvent
  deriving DecidableEq, Repr

def Process.initial : Process where
  execRequested := false
  execInFlight := false
  execStatusReady := false
  execStatus := 0
  execCommand := { path := [], arguments := [] }
  execKind := .exec
  childStatus := 0
  childStatusValid := false
  pending := none
  call := .none
  log := []

def Process.record (p : Process) (event : ExecEvent) : Process := { p with log := event :: p.log }

/-! ## The service -/

/-- What the checks of `elf_exec` read: the graphics of the application, the result of the compute job that it waits for, and whether the
path and the arguments can be read and fit. -/
structure ExecEnvironment where
  graphicsActive : Bool
  computeResult : Int
  pathReadable : Bool
  argumentsFit : Bool
  deriving DecidableEq, Repr

/-- The code with which a request is refused. -/
def execRefusal (command : Command) (environment : ExecEnvironment) : Option Int :=
  if environment.graphicsActive = true then some (-ebusy)
  else if environment.computeResult < 0 ∧ environment.computeResult ≠ -enotsup then some environment.computeResult
  else if environment.pathReadable = false then some (-eio)
  else if command.path.length ≥ fsPathMax then some (-enametoolong)
  else if environment.argumentsFit = false then some (-einval)
  else none

def elfExec (p : Process) (kind : RequestKind) (command : Command) (environment : ExecEnvironment) : Int × Process :=
  if command.path = [] then (-einval, p.record (.refused kind (-einval)))
  else if p.execStatusReady = true then (p.execStatus, { p with execStatusReady := false, execInFlight := false })
  else if p.execInFlight = true then (elfExecPending, p)
  else
    match execRefusal command environment with
    | some code => (code, p.record (.refused kind code))
    | none => (elfExecPending, { p with execCommand := command, execKind := kind, execInFlight := true, execRequested := true })

/-! ## The SDK -/

/-- `tabos_exec` up to its loop. -/
def tabosExec (p : Process) (command : Command) : Process :=
  if command.path = [] ∨ command.arguments.length < 1 ∨ command.arguments.length > elfArgMax then p
  else { p.record (.called .exec command) with call := .exec command }

/-- A round of the loop of `tabos_exec`. -/
def execRound (p : Process) (command : Command) (environment : ExecEnvironment) : Process :=
  let (status, p) := elfExec p .exec command environment
  if status = elfExecPending then p else { p.record (.returned .exec status) with call := .none }

def tabosSpawn (p : Process) (command : Command) (environment : ExecEnvironment) : Int × Process :=
  if p.pending.isSome = true then (-ebusy, p)
  else
    let (result, p) := elfExec (p.record (.called .spawn command)) .spawn command environment
    if result < 0 ∧ result ≠ elfExecPending then (result, p.record (.returned .spawn result))
    else (1, { p with pending := some command })

/-- `tabos_waitpid` up to its loop. -/
def tabosWaitpid (p : Process) (pid : Int) : Process :=
  if p.pending.isSome = false ∨ pid ≠ 1 then p else { p with call := .waitpid }

/-- A round of the loop of `tabos_waitpid`. -/
def waitpidRound (p : Process) (environment : ExecEnvironment) : Process :=
  match p.pending with
  | none => p
  | some command =>
    let (result, p) := elfExec p .spawn command environment
    if result = elfExecPending then p else { p.record (.returned .spawn result) with pending := none, call := .none }

/-- What the program of a process does: it enters a call of the SDK unless it is in one, or it goes on with the one that it is in. -/
inductive GuestStep where
  | exec (command : Command)
  | spawn (command : Command) (environment : ExecEnvironment)
  | waitpid (pid : Int)
  | round (environment : ExecEnvironment)
  deriving DecidableEq, Repr

def guestStep (p : Process) : GuestStep → Process
  | .exec command => if p.call = .none then tabosExec p command else p
  | .spawn command environment => if p.call = .none then (tabosSpawn p command environment).2 else p
  | .waitpid pid => if p.call = .none then tabosWaitpid p pid else p
  | .round environment =>
    match p.call with
    | .none => p
    | .exec command => execRound p command environment
    | .waitpid => waitpidRound p environment

/-! ## The process manager -/

/-- The processes by their ids and the foreground stack, the top first; a process that is not on the stack has finished. -/
structure System where
  processes : Nat → Process
  stack : List Nat
  nextProcessId : Nat

/-- Process 0 was launched. -/
def System.initial : System where
  processes := fun _ => .initial
  stack := [0]
  nextProcessId := 1

def System.set (s : System) (id : Nat) (p : Process) : System := { s with processes := Function.update s.processes id p }

/-- `tabos_app_take_child_status`, as the update of an application uses it. -/
def takeChildStatus (p : Process) : Process :=
  if p.childStatusValid = true then { p with childStatusValid := false, execStatus := p.childStatus, execStatusReady := true } else p

/-- How `tabos_app_exec_args` ends: before there is a child, with a child whose entry fails, with a child in the foreground, or with a
child that finished in its entry. -/
inductive LaunchOutcome where
  | failed (error : AppError)
  | entryFailed
  | started
  | finished (status : Int)
  deriving DecidableEq, Repr

/-- What `elf_update` leaves of a launch that failed. -/
def launchFailed (p : Process) (error : AppError) : Process :=
  { p.record (.failed p.execKind p.execCommand (-(100 + error.toInt))) with
    childStatusValid := false
    execStatus := -(100 + error.toInt)
    execStatusReady := true }

/-- What `finish_child_process` does to the parent of a child. -/
def childFinished (p : Process) (child : Nat) (status : Int) : Process :=
  { p.record (.exited child status) with childStatus := status, childStatusValid := true }

/-- The request of the foreground process is launched. -/
def launch (s : System) (id : Nat) (p : Process) (outcome : LaunchOutcome) : System :=
  let child := s.nextProcessId
  let launched := p.record (.launched p.execKind p.execCommand child)
  if s.stack.length ≥ kernelProcessCapacity then s.set id (launchFailed p .startFailed)
  else
    match outcome with
    | .failed error => s.set id (launchFailed p error)
    | .entryFailed => { s.set id (launchFailed p .startFailed) with nextProcessId := child + 1 }
    | .started => { s.set id launched with stack := child :: s.stack, nextProcessId := child + 1 }
    | .finished status => { s.set id (childFinished launched child status) with nextProcessId := child + 1 }

/-- `elf_update` of the foreground process, as far as it is about children. -/
def elfUpdate (s : System) (outcome : LaunchOutcome) : System :=
  match s.stack with
  | [] => s
  | id :: _ =>
    let p := takeChildStatus (s.processes id)
    if p.execRequested = true then launch s id { p with execRequested := false } outcome else s.set id p

/-- The foreground process finishes with a status; process 0 panics and stays where it is. -/
def finishForeground (s : System) (status : Int) : System :=
  match s.stack with
  | child :: parent :: below =>
    { s.set parent (childFinished (s.processes parent) child status) with stack := parent :: below }
  | _ => s

inductive SystemStep where
  | guest (id : Nat) (action : GuestStep)
  | update (outcome : LaunchOutcome)
  | finish (status : Int)
  deriving DecidableEq, Repr

/-- Only the programs of processes that have not finished run. -/
def step (s : System) : SystemStep → System
  | .guest id action => if id ∈ s.stack then s.set id (guestStep (s.processes id) action) else s
  | .update outcome => elfUpdate s outcome
  | .finish status => finishForeground s status

def run (s : System) (steps : List SystemStep) : System := steps.foldl step s

/-! ## What a request is due -/

/-- Where a request is. -/
inductive Session where
  | idle
  | calling (command : Command)
  | running (command : Command) (child : Nat)
  | done (value : Int)
  deriving DecidableEq, Repr

/-- The child of a session is done. -/
def Session.exit (child : Nat) (status : Int) : Session → Session
  | .running command other => if other = child then .done status else .running command other
  | session => session

/-- What an event does to the sessions of the two kinds. -/
def observe (sessions : RequestKind → Session) : ExecEvent → RequestKind → Session
  | .called kind command => Function.update sessions kind (.calling command)
  | .refused kind code => Function.update sessions kind (.done code)
  | .launched kind command child => Function.update sessions kind (.running command child)
  | .failed kind _ code => Function.update sessions kind (.done code)
  | .exited child status => fun kind => (sessions kind).exit child status
  | .returned kind _ => Function.update sessions kind .idle

/-- A call is made when none of its kind is under way, a child is launched for the command that was called, once, and what a call returns
is the status of its own child or its own failure. -/
def Due (sessions : RequestKind → Session) : ExecEvent → Prop
  | .called kind _ => sessions kind = .idle
  | .refused kind _ => ∃ command, sessions kind = .calling command
  | .launched kind command _ => sessions kind = .calling command
  | .failed kind command _ => sessions kind = .calling command
  | .exited child _ => ∃ kind command, sessions kind = .running command child
  | .returned kind value => sessions kind = .done value

/-- The sessions after a log. -/
def sessions (log : List ExecEvent) : RequestKind → Session := watch observe (fun _ => .idle) log

/-- Every event of a log was due. -/
def Answered (log : List ExecEvent) : Prop := Always observe (fun _ => Session.idle) Due log

end Exec
end TabOS
