import TabOS.Console.Focus

/-!
# Standard input of applications

`loader/elf_application.c`: how the events of the console become the bytes of descriptor 0 of the ELF applications, the events of
`elf_input_poll` and the text of `elf_console_read`. A call polls the console until it has something to return. Between two of its polls
anything can happen: keys are pressed, other applications call, the console changes its owner. An application and its session are one member
of a type.
-/

namespace TabOS
namespace Application
namespace Stdin

open Library

variable {ι : Type} [DecidableEq ι]

def keyBackspace : Nat := 42
def keyHome : Nat := 74
def keyPageUp : Nat := 75
def keyEnd : Nat := 77
def keyPageDown : Nat := 78
def keyRight : Nat := 79
def keyLeft : Nat := 80
def keyDown : Nat := 81
def keyUp : Nat := 82

/-- The calls that poll the console, with the size of the caller's buffer. -/
inductive Call where
  | fdRead (count : Nat)
  | inputPoll
  | consoleRead (capacity : Nat)
  deriving DecidableEq, Repr

/-- What a call returns: bytes, an event, the text of a line, `-TABOS_EAGAIN`, zero for no event, and -1. -/
inductive Result where
  | bytes (data : List UInt8)
  | event (event : Input.InputEvent)
  | text (data : List UInt8)
  | again
  | nothing
  | invalid
  deriving DecidableEq, Repr

/-- The fields of `loader_elf_application_t` that input uses, the bytes of `input_pending` up to its length, and the call that the
application is in. -/
structure ElfApplication where
  graphicsActive : Bool
  scrollKeys : Bool
  rawInput : Bool
  inputPending : List UInt8
  inputPendingOffset : Nat
  call : Option Call
  deriving DecidableEq, Repr

/-- What a new application has. -/
def ElfApplication.new : ElfApplication where
  graphicsActive := false
  scrollKeys := false
  rawInput := false
  inputPending := []
  inputPendingOffset := 0
  call := none

/-- `elf_handle_tty_navigation`: the movement of the viewport that a key makes. -/
def handleTtyNavigation (a : ElfApplication) (event : Input.InputEvent) : Option Console.Scroll :=
  let control := decide (event.modifiers &&& Input.modifierControl ≠ 0)
  if a.graphicsActive ∨ a.scrollKeys = false ∨ event.type ≠ .keyDown then none
  else if event.key = keyPageUp ∨ event.key = keyUp ∧ control then some .pageUp
  else if event.key = keyPageDown ∨ event.key = keyDown ∧ control then some .pageDown
  else if event.key = keyHome ∨ event.key = keyLeft ∧ control then some .toStart
  else if event.key = keyEnd ∨ event.key = keyRight ∧ control then some .toEnd
  else none

/-- `loader_elf_application_read_pending_input`. -/
def readPendingInput (a : ElfApplication) (count : Nat) : List UInt8 × ElfApplication :=
  let available := a.inputPending.length - a.inputPendingOffset
  let copied := if available < count then available else count
  if copied = 0 then ([], a)
  else
    let data := (a.inputPending.drop a.inputPendingOffset).take copied
    let offset := a.inputPendingOffset + copied
    if offset = a.inputPending.length then (data, { a with inputPending := [], inputPendingOffset := 0 })
    else (data, { a with inputPendingOffset := offset })

/-- `loader_elf_application_queue_input_event`. -/
def queueInputEvent (a : ElfApplication) (event : Input.InputEvent) : Bool × ElfApplication :=
  if a.inputPending.length ≠ 0 then (false, a)
  else if event.type = .text then
    if event.text.length = 0 ∨ event.text.length > Input.inputTextMaxBytes then (false, a)
    else (true, { a with inputPending := event.text, inputPendingOffset := 0 })
  else if event.type ≠ .keyDown then (false, a)
  else
    let final : Option UInt8 :=
      if event.key = keyUp then some 65
      else if event.key = keyDown then some 66
      else if event.key = keyRight then some 67
      else if event.key = keyLeft then some 68
      else none
    match final with
    | none => (false, a)
    | some final => (true, { a with inputPending := [0x1b, 0x5b, final], inputPendingOffset := 0 })

/-- An event that an application polled, with the call that it polled it in and what the application was then. -/
structure Routed (ι : Type) where
  application : ι
  state : ElfApplication
  call : Call
  event : Input.InputEvent

/-- The console, the applications, and what was done: the events that they polled and what their calls returned. -/
structure System (ι : Type) where
  console : Console.System ι
  application : ι → ElfApplication
  routed : List (Routed ι)
  returned : List (ι × Call × Result)

def System.boot (ι : Type) (generation : UInt32) : System ι where
  console := .boot ι generation
  application := fun _ => .new
  routed := []
  returned := []

def System.setApplication (s : System ι) (i : ι) (a : ElfApplication) : System ι :=
  { s with application := Function.update s.application i a }

/-- A call returns. -/
def System.return (s : System ι) (i : ι) (a : ElfApplication) (call : Call) (result : Result) : System ι :=
  { s.setApplication i { a with call := none } with returned := s.returned ++ [(i, call, result)] }

/-- The bytes that `elf_fd_read` returns when it has put an event into the pending input. -/
def System.returnPending (s : System ι) (i : ι) (a : ElfApplication) (count : Nat) : System ι :=
  let (data, a) := readPendingInput a count
  s.return i a (.fdRead count) (.bytes data)

/-- A call starts: what it does before its loop. -/
def begin (s : System ι) (i : ι) (call : Call) : System ι :=
  let a := s.application i
  if a.call ≠ none then s
  else
    match call with
    | .fdRead count =>
      if count = 0 then s.return i a call (.bytes [])
      else
        let (data, a) := readPendingInput a count
        if data ≠ [] then s.return i a call (.bytes data) else s.setApplication i { a with call := some call }
    | .inputPoll => s.setApplication i { a with call := some call }
    | .consoleRead capacity => if capacity < 2 then s.return i a call .invalid else s.setApplication i { a with call := some call }

section
variable (presents : Nat → Bool)

/-- What the loop of a call does with an event. -/
def handle (s : System ι) (i : ι) (call : Call) (event : Input.InputEvent) : System ι :=
  let a := s.application i
  match call with
  | .fdRead count =>
    match handleTtyNavigation a event with
    | some scroll => { s with console := (Console.updateViewport presents s.console i scroll).2 }
    | none =>
      if event.type = .text then
        let (queued, a) := queueInputEvent a event
        if queued then s.returnPending i a count else s
      else if event.type = .keyDown ∧ event.key = keyBackspace then s.return i a call (.bytes [8])
      else
        let (queued, a) := queueInputEvent a event
        if queued then s.returnPending i a count else s
  | .inputPoll =>
    match handleTtyNavigation a event with
    | some scroll => { s with console := (Console.updateViewport presents s.console i scroll).2 }
    | none => if a.rawInput ∧ event.type = .text then s else s.return i a call (.event event)
  | .consoleRead capacity =>
    if event.type = .text then s.return i a call (.text (event.text.take (capacity - 1)))
    else if event.type = .keyDown ∧ event.key = keyBackspace then s.return i a call (.text [8])
    else s

/-- One turn of the loop of the call that an application is in: `elf_fd_read`, `elf_input_poll`, `elf_console_read`. -/
def turn (s : System ι) (i : ι) (now : Nat) : System ι :=
  let a := s.application i
  match a.call with
  | none => s
  | some call =>
    match Console.consolePolled s.console i with
    | some event =>
      handle presents { s with
        console := Console.tabosConsolePoll s.console i now
        routed := s.routed ++ [⟨i, a, call, event⟩] } i call event
    | none =>
      s.return i a call <|
        match call with
        | .fdRead _ => .again
        | .inputPoll => .nothing
        | .consoleRead _ => .text []

/-- The console's events that are no polls. -/
def other : Console.Event ι → Bool
  | .poll _ _ => false
  | _ => true

/-- What can happen: a call starts or goes on, `elf_tty_set_mode`, `elf_graphics_open` and `elf_graphics_close` are accepted, or anything but
a poll happens to the console. -/
inductive Event (ι : Type) where
  | begin (i : ι) (call : Call)
  | turn (i : ι) (now : Nat)
  | ttySetMode (i : ι) (scrollKeys rawInput : Bool)
  | graphics (i : ι) (active : Bool) (now : Nat)
  | console (event : Console.Event ι) (h : other event = true)

def step (s : System ι) : Event ι → System ι
  | .begin i call => begin s i call
  | .turn i now => turn presents s i now
  | .ttySetMode i scrollKeys rawInput =>
    s.setApplication i { s.application i with scrollKeys := scrollKeys, rawInput := rawInput }
  | .graphics i active now =>
    { s.setApplication i { s.application i with graphicsActive := active } with
      console := Console.consoleSetGraphicsActive presents s.console active now }
  | .console event _ => { s with console := Console.step presents s.console event }

def run (s : System ι) (events : List (Event ι)) : System ι := events.foldl (step presents) s

end

end Stdin
end Application
end TabOS
