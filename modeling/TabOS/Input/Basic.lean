import TabOS.Library.Queue
import TabOS.Timer
import Mathlib.Data.UInt

/-!
# Keyboard input

`input/input.c` once it is initialised; each operation runs under the mutex of the queue. The state has history variables that no
branch reads: the events that entered the queue with the number of generation changes before each, and the events that were polled.
-/

namespace TabOS
namespace Input

open Library

/-- `INPUT_QUEUE_CAPACITY`. -/
def inputQueueCapacity : Nat := 64

/-- `TABOS_INPUT_TEXT_MAX_BYTES`. -/
def inputTextMaxBytes : Nat := 9

/-- `TABOS_KEY_REPEAT_DELAY_MS` of `config/Input.cmake`. -/
def keyRepeatDelay : Nat := 400

/-- `TABOS_KEY_REPEAT_INTERVAL_MS` of `config/Input.cmake`. -/
def keyRepeatInterval : Nat := 50

def keyUnknown : Nat := 0
def keyCtrl : Nat := 0x100
def keySym : Nat := 0x104

def modifierControl : UInt8 := 1
def modifierShift : UInt8 := 2
def modifierAlt : UInt8 := 4
def modifierGui : UInt8 := 8

inductive EventType where
  | keyDown | keyUp | text
  deriving DecidableEq, Repr

/-- `tabos_input_event_t`; the text is the C string in its array. -/
structure InputEvent where
  type : EventType
  key : Nat
  modifiers : UInt8
  repeated : Bool
  logicalKey : Nat
  logicalModifiers : UInt8
  generation : UInt32
  text : List UInt8
  deriving DecidableEq, Repr

/-- An event that entered the queue, and the number of generation changes before that. -/
structure Stamped where
  event : InputEvent
  changes : Nat
  deriving DecidableEq, Repr

structure History where
  enqueued : List Stamped
  changes : Nat
  polled : List InputEvent
  deriving DecidableEq, Repr

structure InputState where
  queue : Queue InputEvent inputQueueCapacity
  heldKey : Nat
  heldModifiers : UInt8
  heldText : List UInt8
  heldTextModifiers : UInt8
  repeatTimer : Timer
  inputGeneration : UInt32
  heldBinding : InputEvent
  powerKeys : Nat → Bool
  powerHeldCount : Nat
  powerUnknownHeldCount : Nat
  powerActivityPending : Bool
  history : History

/-- The zeroed event. -/
def InputEvent.zero : InputEvent where
  type := .keyDown
  key := keyUnknown
  modifiers := 0
  repeated := false
  logicalKey := keyUnknown
  logicalModifiers := 0
  generation := 0
  text := []

/-- What `input_init` leaves in static storage with a generation. -/
def InputState.initial (generation : UInt32) : InputState where
  queue := { slots := fun _ => .zero, head := 0, count := 0 }
  heldKey := keyUnknown
  heldModifiers := 0
  heldText := []
  heldTextModifiers := 0
  repeatTimer := .cancelled
  inputGeneration := generation
  heldBinding := .zero
  powerKeys := fun _ => false
  powerHeldCount := 0
  powerUnknownHeldCount := 0
  powerActivityPending := false
  history := { enqueued := [], changes := 0, polled := [] }

/-! ## The text of a key -/

def plainDigits : List UInt8 := [0x31, 0x32, 0x33, 0x34, 0x35, 0x36, 0x37, 0x38, 0x39, 0x30]
def shiftDigits : List UInt8 := [0x21, 0x40, 0x23, 0x24, 0x25, 0x5e, 0x26, 0x2a, 0x28, 0x29]

/-- The keys of `input_text_from_hid` other than letters and digits. -/
def punctuation (usage : Nat) (shifted : Bool) : UInt8 :=
  match usage with
  | 40 => 0x0a
  | 43 => 0x09
  | 44 => 0x20
  | 45 => if shifted then 0x5f else 0x2d
  | 46 => if shifted then 0x2b else 0x3d
  | 47 => if shifted then 0x7b else 0x5b
  | 48 => if shifted then 0x7d else 0x5d
  | 49 => if shifted then 0x7c else 0x5c
  | 51 => if shifted then 0x3a else 0x3b
  | 52 => if shifted then 0x22 else 0x27
  | 53 => if shifted then 0x7e else 0x60
  | 54 => if shifted then 0x3c else 0x2c
  | 55 => if shifted then 0x3e else 0x2e
  | 56 => if shifted then 0x3f else 0x2f
  | _ => 0

def characterFromHid (usage : Nat) (shifted : Bool) : UInt8 :=
  if 4 ≤ usage ∧ usage ≤ 29 then (if shifted then 0x41 else 0x61) + UInt8.ofNat (usage - 4)
  else if 30 ≤ usage ∧ usage ≤ 39 then (if shifted then shiftDigits else plainDigits).getD (usage - 30) 0
  else punctuation usage shifted

def inputTextFromHid (usage : Nat) (modifiers : UInt8) : List UInt8 :=
  if modifiers &&& (modifierControl ||| modifierAlt ||| modifierGui) ≠ 0 then []
  else
    let character := characterFromHid usage (decide (modifiers &&& modifierShift ≠ 0))
    if character = 0 then [] else [character]

/-! ## The queue -/

/-- Advances the generation. -/
def changeGeneration (s : InputState) : InputState :=
  { s with inputGeneration := s.inputGeneration + 1, history := { s.history with changes := s.history.changes + 1 } }

/-- Drops the oldest event of a full queue. -/
def makeRoom (s : InputState) : InputState :=
  if s.queue.count = inputQueueCapacity then changeGeneration { s with queue := s.queue.popFront } else s

/-- Puts an event into the queue under the generation. -/
def append (s : InputState) (event : InputEvent) : InputState :=
  let stamped := { event with generation := s.inputGeneration }
  { s with
    queue := s.queue.pushBack stamped
    history := { s.history with enqueued := s.history.enqueued ++ [{ event := stamped, changes := s.history.changes }] } }

def enqueue (s : InputState) (event : InputEvent) : InputState := append (makeRoom s) event

/-- Drops every event. -/
def discard (s : InputState) : InputState := changeGeneration { s with queue := s.queue.clear }

/-! ## Operations -/

def modifierKey (key : Nat) : Bool := keyCtrl ≤ key && key ≤ keySym

def refreshHeldRepeat (s : InputState) (modifiers : UInt8) : InputState :=
  { s with
    heldModifiers := modifiers
    heldTextModifiers := modifiers
    heldText := inputTextFromHid (s.heldKey % 256) modifiers }

def InputEvent.isKey (event : InputEvent) : Prop := event.type = .keyDown ∨ event.type = .keyUp

instance (event : InputEvent) : Decidable event.isKey := decidable_of_iff (event.type = .keyDown ∨ event.type = .keyUp) Iff.rfl

/-- The key goes down or up in the account of held keys. -/
def setPowerKey (s : InputState) (key : Nat) (down : Bool) : InputState :=
  if s.powerKeys key = down then s
  else
    { s with
      powerKeys := Function.update s.powerKeys key down
      powerHeldCount := if down then s.powerHeldCount + 1 else s.powerHeldCount - 1 }

/-- What `input_submit` keeps for the power state. -/
def trackPower (s : InputState) (event : InputEvent) : InputState :=
  if event.isKey then
    let s := { s with powerActivityPending := true }
    if event.key > keyUnknown ∧ event.key ≤ keySym then setPowerKey s event.key (decide (event.type = .keyDown))
    else if event.type = .keyDown then { s with powerUnknownHeldCount := s.powerUnknownHeldCount + 1 }
    else if s.powerUnknownHeldCount > 0 then { s with powerUnknownHeldCount := s.powerUnknownHeldCount - 1 }
    else s
  else s

/-- The logical key of an event that has none is its key. -/
def bindLogical (event : InputEvent) : InputEvent :=
  if event.logicalKey = keyUnknown then { event with logicalKey := event.key, logicalModifiers := event.modifiers } else event

/-- What `input_submit` keeps for the repetition of the held key. -/
def trackHeld (s : InputState) (event : InputEvent) (now : Nat) : InputState :=
  if event.type = .keyDown ∧ modifierKey event.key = false then
    { s with
      heldBinding := bindLogical event
      heldKey := event.key
      heldModifiers := event.modifiers
      heldText := []
      heldTextModifiers := 0
      repeatTimer := .start now keyRepeatDelay keyRepeatInterval }
  else if event.type = .keyUp ∧ event.key = s.heldKey then
    { s with
      heldKey := keyUnknown
      heldModifiers := 0
      heldText := []
      heldTextModifiers := 0
      repeatTimer := .cancelled }
  else if event.isKey ∧ modifierKey event.key ∧ s.heldKey ≠ keyUnknown then refreshHeldRepeat s event.modifiers
  else if event.type = .text ∧ s.heldKey ≠ keyUnknown then
    { s with heldText := event.text.take inputTextMaxBytes, heldTextModifiers := event.modifiers }
  else s

def inputSubmit (s : InputState) (event : InputEvent) (now : Nat) : InputState :=
  if event.repeated then s else enqueue (trackHeld (trackPower s event) event now) (bindLogical event)

/-- The event that repeats the held key. -/
def repeatedKey (s : InputState) : InputEvent :=
  { InputEvent.zero with
    type := .keyDown
    key := s.heldKey
    modifiers := s.heldModifiers
    repeated := true
    logicalKey := s.heldBinding.logicalKey
    logicalModifiers := s.heldBinding.logicalModifiers }

/-- The event that repeats the text of the held key. -/
def repeatedText (s : InputState) : InputEvent :=
  { InputEvent.zero with type := .text, modifiers := s.heldTextModifiers, repeated := true, text := s.heldText }

def repeatText (s : InputState) : InputState := if s.heldText ≠ [] then enqueue s (repeatedText s) else s

def inputUpdate (s : InputState) (now : Nat) : InputState :=
  if s.heldKey = keyUnknown ∨ s.repeatTimer.fires now = false then s
  else
    let s := { s with repeatTimer := s.repeatTimer.poll now }
    repeatText (enqueue s (repeatedKey s))

/-- The event that `tabos_input_poll` returns. -/
def polledEvent (s : InputState) : Option InputEvent := if s.queue.count = 0 then none else some s.queue.front

def tabosInputPoll (s : InputState) : InputState :=
  if s.queue.count = 0 then s
  else { s with queue := s.queue.popFront, history := { s.history with polled := s.history.polled ++ [s.queue.front] } }

def inputTakePowerActivity (s : InputState) : InputState := { s with powerActivityPending := false }

def inputGetState (s : InputState) (resynchronize : Bool) : InputState := if resynchronize then discard s else s

def inputReset (s : InputState) (clearPressed : Bool) : InputState :=
  let s := { discard s with heldKey := keyUnknown, repeatTimer := .cancelled }
  if clearPressed then { s with powerKeys := fun _ => false, powerHeldCount := 0, powerUnknownHeldCount := 0 } else s

/-- The operations, with the time where the timer is read. -/
inductive Operation where
  | submit (event : InputEvent) (now : Nat)
  | update (now : Nat)
  | poll
  | takePowerActivity
  | getState (resynchronize : Bool)
  | reset (clearPressed : Bool)

def step (s : InputState) : Operation → InputState
  | .submit event now => inputSubmit s event now
  | .update now => inputUpdate s now
  | .poll => tabosInputPoll s
  | .takePowerActivity => inputTakePowerActivity s
  | .getState resynchronize => inputGetState s resynchronize
  | .reset clearPressed => inputReset s clearPressed

def run (s : InputState) (operations : List Operation) : InputState := operations.foldl step s

end Input
end TabOS
