import Mathlib.Algebra.Group.Nat.Defs
import TabOS.Library.Run
import Mathlib.Logic.Function.Basic

/-!
# The process manager

`process.c`: the table of process records, the foreground stack and the calls that launch, end and update processes. The entry, update and
cleanup callbacks of an application are not part of the manager, and they may call it again. A call of the manager therefore runs up to
its next callback, which becomes a frame; the frame says what the manager goes on with when the callback returns. Between two steps either
no callback runs or the one of the top frame does, and the next call is made from there. Whether a picture is presented is given by
`presents`, a function of the number of the attempt. The shutdown of the system is not among the calls.
-/

namespace TabOS
namespace Process

/-- `TABOS_PROCESS_ID_INVALID`. -/
def tabosProcessIdInvalid : Nat := 0xffffffff

/-- `TABOS_PROCESS_RUNNING`, `TABOS_PROCESS_BLOCKED`, `TABOS_PROCESS_PANICKED`. -/
inductive ProcessState where
  | running
  | blocked
  | panicked
  deriving DecidableEq, Repr

/-- `tabos_process_termination_t`. -/
inductive Termination where
  | none
  | exitRequest
  | returned
  | fault
  | forced
  deriving DecidableEq, Repr

/-- `tabos_app_result_t`. -/
inductive AppResult where
  | ok
  | notFound
  | busy
  | invalid
  | startFailed
  deriving DecidableEq, Repr

/-- `tabos_app_descriptor_t`: the name, whether the capabilities include the console, and whether there are the two optional callbacks. -/
structure Descriptor where
  name : List Char := []
  console : Bool := false
  update : Bool := false
  cleanup : Bool := false
  deriving DecidableEq, Repr

/-- `kernel_process_t` with the fields of its context. Pointers are numbers and the null pointer is 0; the descriptor of an empty record
is never read. -/
structure Record where
  occupied : Bool := false
  id : Nat := 0
  parentId : Nat := 0
  state : ProcessState := .running
  descriptor : Descriptor := {}
  token : Nat := 0
  consoleOwned : Bool := false
  exitRequested : Bool := false
  exitStatus : Int := 0
  terminationCause : Termination := .none
  childStatusValid : Bool := false
  childStatus : Int := 0
  applicationData : Nat := 0
  applicationDataDestroy : Bool := false
  deriving DecidableEq, Repr

/-- A place of the table of `KERNEL_PROCESS_CAPACITY` records. -/
abbrev Slot := Fin 16

/-- What `console.c` keeps about the foreground session, and the number of attempts to present a picture. -/
structure Console where
  terminal : Bool
  foregroundToken : Nat
  nextToken : Nat
  attempts : Nat
  deriving DecidableEq, Repr

/-- The variables of the manager, the foreground stack with its top first, and what it leaves behind: the application data that it
destroyed and the messages that it logged, the latest first. -/
structure System where
  processes : Slot → Record
  foregroundStack : List Nat
  nextProcessId : Nat
  foregroundProcess : Option Slot
  lastExitStatus : Option Int
  pointerOwner : Nat
  console : Console
  destroyed : List Nat
  logged : List (List Char)

/-- What `kernel_application_system_init` leaves. -/
def System.initial (terminal : Bool) : System where
  processes := fun _ => {}
  foregroundStack := []
  nextProcessId := 0
  foregroundProcess := none
  lastExitStatus := none
  pointerOwner := 0
  console := { terminal := terminal, foregroundToken := 0, nextToken := 1, attempts := 0 }
  destroyed := []
  logged := []

/-- A record is changed. -/
def System.modify (s : System) (p : Slot) (change : Record → Record) : System :=
  { s with processes := Function.update s.processes p (change (s.processes p)) }

def System.setConsole (s : System) (console : Console) : System := { s with console := console }

/-! ## The console -/

def ownsConsole (s : System) (p : Slot) : Prop :=
  (s.processes p).token ≠ 0 ∧ (s.processes p).token = s.console.foregroundToken

instance (s : System) (p : Slot) : Decidable (ownsConsole s p) := inferInstanceAs (Decidable (_ ∧ _))

def tabosConsoleAcquire (presents : Nat → Bool) (s : System) (p : Slot) : Bool × System :=
  if s.console.terminal = false ∨ s.console.foregroundToken ≠ 0 then (false, s.modify p fun r => { r with token := 0 })
  else
    let token := if s.console.nextToken = 0 then 1 else s.console.nextToken
    let console := { s.console with nextToken := (token + 1) % 2 ^ 32, attempts := s.console.attempts + 1 }
    if presents s.console.attempts = true then
      (true, (s.modify p fun r => { r with token := token }).setConsole { console with foregroundToken := token })
    else (false, (s.modify p fun r => { r with token := 0 }).setConsole console)

def tabosConsoleRelease (s : System) (p : Slot) : System :=
  let console :=
    if ownsConsole s p then { s.console with foregroundToken := 0, attempts := s.console.attempts + 1 } else s.console
  (s.modify p fun r => { r with token := 0 }).setConsole console

def acquireProcessConsole (presents : Nat → Bool) (s : System) (p : Slot) : Bool × System :=
  if (s.processes p).descriptor.console = false then (true, s)
  else
    match tabosConsoleAcquire presents s p with
    | (false, s) => (false, s)
    | (true, s) => (true, s.modify p fun r => { r with consoleOwned := true })

def releaseProcessConsole (s : System) (p : Slot) : System :=
  if (s.processes p).consoleOwned = true then (tabosConsoleRelease s p).modify p fun r => { r with consoleOwned := false } else s

/-! ## The table -/

def terminationName : Termination → List Char
  | .exitRequest => "exit request".toList
  | .returned => "return".toList
  | .fault => "execution fault".toList
  | .forced => "forced termination".toList
  | .none => "unknown cause".toList

/-- The message of a panic, cut to its buffer. -/
def panicMessage (r : Record) : List Char :=
  ("KERNEL PANIC: process 0 (".toList ++ r.descriptor.name ++ "): ".toList ++ terminationName r.terminationCause ++
    "; status ".toList ++ (toString r.exitStatus).toList).take 95

/-- `panic_root_process`; the message is written to the console by whoever owns it. -/
def panicRootProcess (s : System) (p : Slot) : System :=
  let message := panicMessage (s.processes p)
  let console := if s.console.terminal = true then { s.console with attempts := s.console.attempts + 1 } else s.console
  let status := (s.processes p).exitStatus
  let s := s.modify p fun r => { r with state := .panicked, exitRequested := false }
  { s with lastExitStatus := some status, logged := message :: s.logged, console := console }

def findProcess (s : System) (id : Nat) : Option Slot :=
  (List.finRange 16).find? fun p => (s.processes p).occupied && (s.processes p).id == id

def freeProcessSlot (s : System) : Option Slot := (List.finRange 16).find? fun p => !(s.processes p).occupied

/-- The data of an application that is not launched is destroyed. -/
def System.discard (s : System) (data : Nat) (destroy : Bool) : System :=
  { s with destroyed := if destroy = true then data :: s.destroyed else s.destroyed }

/-- `destroy_process` after the cleanup callback. -/
def destroyProcess (s : System) (p : Slot) (status : Int) : System :=
  let s := if (s.processes p).consoleOwned = true then tabosConsoleRelease s p else s
  let s := s.discard (s.processes p).applicationData (s.processes p).applicationDataDestroy
  let s := s.modify p fun _ => {}
  { s with lastExitStatus := some status }

/-- What `finish_child_process` does with the process that is the foreground process again. -/
def resume (presents : Nat → Bool) (s : System) (q : Slot) (status : Int) : System :=
  let s := { s with pointerOwner := (s.processes q).applicationData }
  let s := s.modify q fun r => { r with state := .running, childStatus := status, childStatusValid := true }
  match acquireProcessConsole presents s q with
  | (true, s) => s
  | (false, s) =>
    let s := s.modify q fun r => { r with exitStatus := -1 }
    if (s.processes q).id = 0 then panicRootProcess s q else s.modify q fun r => { r with exitRequested := true }

/-- What `finish_child_process` does when the process is gone: it takes the top off the stack and goes on with the one below. -/
def resumeParent (presents : Nat → Bool) (s : System) (status : Int) : System :=
  let stack := s.foregroundStack.tail
  match stack.head?.bind (findProcess s) with
  | none => { s with foregroundStack := stack, foregroundProcess := none }
  | some q => resume presents { s with foregroundStack := stack, foregroundProcess := some q } q status

/-! ## Calls and callbacks -/

/-- What a call of the manager returns. -/
inductive Returned where
  | nothing
  | launched (result : AppResult)
  | terminated (done : Bool)
  deriving DecidableEq, Repr

/-- A callback that runs, with the record it was called for and what the manager needs when it returns. -/
inductive Frame where
  | rootEntry (p : Slot)
  | rootCleanup (p : Slot) (status : Int)
  | childEntry (p : Slot)
  | childCleanup (p : Slot) (status : Int) (returned : Returned)
  | update (p : Slot)
  deriving DecidableEq, Repr

/-- The manager with the callbacks that run, the innermost first, what the call that ended last returned, and whether the null pointer was
read. -/
structure Machine where
  system : System
  frames : List Frame
  returned : Returned
  fault : Bool

def Machine.initial (terminal : Bool) : Machine where
  system := .initial terminal
  frames := []
  returned := .nothing
  fault := false

/-- A call ends. -/
def Machine.done (m : Machine) (s : System) (returned : Returned) : Machine := { m with system := s, returned := returned }

/-- A callback is called. -/
def Machine.call (m : Machine) (s : System) (frame : Frame) : Machine := { m with system := s, frames := frame :: m.frames }

/-- `finish_child_process` at the end of a call that returns `returned`. -/
def finishChildProcess (presents : Nat → Bool) (m : Machine) (p : Slot) (returned : Returned) : Machine :=
  let status := (m.system.processes p).exitStatus
  let s := releaseProcessConsole { m.system with pointerOwner := 0 } p
  if (s.processes p).occupied = false then m.done (resumeParent presents s status) returned
  else if (s.processes p).descriptor.cleanup = true then m.call s (.childCleanup p status returned)
  else m.done (resumeParent presents (destroyProcess s p status) status) returned

/-- What `launch_root_descriptor` does when the process is gone whose entry failed. -/
def rootGone (s : System) : System := { s with foregroundProcess := none, foregroundStack := [], pointerOwner := 0 }

/-- The record that a process starts with. -/
def launchedRecord (id parentId : Nat) (descriptor : Descriptor) (data : Nat) (destroy : Bool) : Record where
  occupied := true
  id := id
  parentId := parentId
  state := .running
  descriptor := descriptor
  applicationData := data
  applicationDataDestroy := destroy

def launchRootDescriptor (presents : Nat → Bool) (m : Machine) (descriptor : Option Descriptor) (data : Nat) (destroy : Bool) :
    Machine :=
  match descriptor with
  | none => m.done (m.system.discard data destroy) (.launched .invalid)
  | some descriptor =>
    if m.system.foregroundProcess ≠ none then m.done (m.system.discard data destroy) (.launched .busy)
    else
      match freeProcessSlot m.system with
      | none => m.done (m.system.discard data destroy) (.launched .startFailed)
      | some p =>
        let s := { m.system with nextProcessId := 1 }.modify p fun _ => launchedRecord 0 tabosProcessIdInvalid descriptor data destroy
        match acquireProcessConsole presents s p with
        | (false, s) => m.done ((s.discard data destroy).modify p fun _ => {}) (.launched .startFailed)
        | (true, s) =>
          let s := { s with foregroundProcess := some p, foregroundStack := [0], lastExitStatus := none, pointerOwner := data }
          m.call s (.rootEntry p)

/-- A child is put on top of its parent, as far as the console is concerned not yet. -/
def pushChild (s : System) (parent child : Slot) (descriptor : Descriptor) (data : Nat) (destroy : Bool) : System :=
  let childId := s.nextProcessId
  let s := { s with nextProcessId := (childId + 1) % 2 ^ 32 }.modify child fun _ =>
    launchedRecord childId (s.processes parent).id descriptor data destroy
  let s := releaseProcessConsole s parent
  let s := s.modify parent fun r => { r with state := .blocked }
  { s with foregroundStack := childId :: s.foregroundStack, foregroundProcess := some child, pointerOwner := data }

def launchChildDescriptor (presents : Nat → Bool) (m : Machine) (parent : Option Slot) (descriptor : Option Descriptor) (data : Nat)
    (destroy : Bool) : Machine :=
  match parent, descriptor with
  | some parent, some descriptor =>
    if m.system.foregroundProcess ≠ some parent ∨ (m.system.processes parent).state ≠ .running then
      m.done (m.system.discard data destroy) (.launched .busy)
    else
      match freeProcessSlot m.system with
      | none => m.done (m.system.discard data destroy) (.launched .startFailed)
      | some child =>
        if m.system.foregroundStack.length ≥ 16 then m.done (m.system.discard data destroy) (.launched .startFailed)
        else
          match acquireProcessConsole presents (pushChild m.system parent child descriptor data destroy) child with
          | (true, s) => m.call s (.childEntry child)
          | (false, s) =>
            finishChildProcess presents { m with system := s.modify child fun r => { r with exitStatus := -1 } } child
              (.launched .startFailed)
  | _, _ => m.done (m.system.discard data destroy) (.launched .invalid)

/-- `kernel_application_system_update` after the update callback of the record it was called for. -/
def updated (presents : Nat → Bool) (m : Machine) (p : Slot) : Machine :=
  if (m.system.processes p).exitRequested = false then m.done m.system .nothing
  else
    match m.system.foregroundProcess with
    | none => { m with fault := true }
    | some q =>
      if (m.system.processes q).id = 0 then m.done (panicRootProcess m.system q) .nothing
      else finishChildProcess presents m q .nothing

def kernelApplicationSystemUpdate (presents : Nat → Bool) (m : Machine) : Machine :=
  match m.system.foregroundProcess with
  | none => m.done m.system .nothing
  | some p =>
    let r := m.system.processes p
    if r.state = .running ∧ r.exitRequested = false ∧ r.descriptor.update = true then m.call m.system (.update p)
    else updated presents m p

def tabosAppRequestExit (s : System) (context : Option Slot) (exitStatus : Int) : System :=
  match context with
  | none => s
  | some p =>
    if s.foregroundProcess = some p then
      s.modify p fun r =>
        { r with
          terminationCause := if r.terminationCause = .none then .exitRequest else r.terminationCause
          exitRequested := true
          exitStatus := exitStatus }
    else s

def kernelProcessFail (s : System) (context : Option Slot) (cause : Termination) (exitStatus : Int) : System :=
  match context with
  | none => s
  | some p =>
    if s.foregroundProcess ≠ some p ∨ cause = .none then s
    else s.modify p fun r => { r with terminationCause := cause, exitRequested := true, exitStatus := exitStatus }

def kernelProcessForceTerminate (s : System) (id : Nat) (exitStatus : Int) : Bool × System :=
  match findProcess s id with
  | none => (false, s)
  | some p => if s.foregroundProcess ≠ some p then (false, s) else (true, kernelProcessFail s (some p) .forced exitStatus)

/-- The rest of `launch_root_descriptor` after the entry callback. -/
def rootEntered (m : Machine) (p : Slot) (result : Bool) : Machine :=
  if result = false then
    let s := m.system.modify p fun r => { r with exitStatus := -1 }
    if (s.processes p).occupied = false then m.done (rootGone s) (.launched .startFailed)
    else if (s.processes p).descriptor.cleanup = true then m.call s (.rootCleanup p (-1))
    else m.done (rootGone (destroyProcess s p (-1))) (.launched .startFailed)
  else if (m.system.processes p).exitRequested = true then m.done (panicRootProcess m.system p) (.launched .ok)
  else m.done m.system (.launched .ok)

/-- The rest of `launch_child_descriptor` after the entry callback. -/
def childEntered (presents : Nat → Bool) (m : Machine) (p : Slot) (result : Bool) : Machine :=
  if result = false then
    finishChildProcess presents { m with system := m.system.modify p fun r => { r with exitStatus := -1 } } p (.launched .startFailed)
  else if (m.system.processes p).exitRequested = true then finishChildProcess presents m p (.launched .ok)
  else m.done m.system (.launched .ok)

/-- The innermost callback returns. -/
def callbackReturns (presents : Nat → Bool) (m : Machine) (result : Bool) : Machine :=
  match m.frames with
  | [] => m
  | frame :: frames =>
    let m := { m with frames := frames }
    match frame with
    | .rootEntry p => rootEntered m p result
    | .rootCleanup p status => m.done (rootGone (destroyProcess m.system p status)) (.launched .startFailed)
    | .childEntry p => childEntered presents m p result
    | .childCleanup p status returned => m.done (resumeParent presents (destroyProcess m.system p status) status) returned
    | .update p => updated presents m p

/-- A call of the manager, by the innermost callback or by the system when no callback runs, or the return of the innermost callback. -/
inductive Event where
  | launchRoot (descriptor : Option Descriptor) (data : Nat) (destroy : Bool)
  | launchChild (parent : Option Slot) (descriptor : Option Descriptor) (data : Nat) (destroy : Bool)
  | requestExit (context : Option Slot) (status : Int)
  | fail (context : Option Slot) (cause : Termination) (status : Int)
  | forceTerminate (id : Nat) (status : Int)
  | update
  | callbackReturns (result : Bool)
  deriving DecidableEq, Repr

/-- After the null pointer was read there are no more steps. -/
def step (presents : Nat → Bool) (m : Machine) (event : Event) : Machine :=
  if m.fault = true then m
  else
    match event with
    | .launchRoot descriptor data destroy => launchRootDescriptor presents m descriptor data destroy
    | .launchChild parent descriptor data destroy => launchChildDescriptor presents m parent descriptor data destroy
    | .requestExit context status => m.done (tabosAppRequestExit m.system context status) .nothing
    | .fail context cause status => m.done (kernelProcessFail m.system context cause status) .nothing
    | .forceTerminate id status =>
      m.done (kernelProcessForceTerminate m.system id status).2 (.terminated (kernelProcessForceTerminate m.system id status).1)
    | .update => kernelApplicationSystemUpdate presents m
    | .callbackReturns result => callbackReturns presents m result

end Process
end TabOS
