import TabOS.Input.Basic
import TabOS.Terminal.Basic

/-!
# The console

`console/console.c`: the terminal that sessions take turns in, the blinking cursor, the pause for graphics and the capture of what is
written. The mutex makes every function one step. A session is its token; the sessions are the members of a type. Whether a picture is
presented is given by `presents`, a function of the number of the attempt, and `now` is the time. What `tabos_console_wait` does between two
waits is a poll.
-/

namespace TabOS
namespace Console

variable {ι : Type} [DecidableEq ι]

/-- `TABOS_CURSOR_BLINK_INTERVAL_MS` of `config/Console.cmake`. -/
def cursorBlinkInterval : Nat := 500

/-- The size of the capture buffer. -/
def captureCapacity : Nat := 8192

/-- What was done; no function reads it. The events that the sessions polled, and since the capture was started the bytes that were written
and the bytes that were read from the capture. -/
structure History (ι : Type) where
  delivered : List (ι × Input.InputEvent)
  captured : List UInt8
  captureRead : List UInt8

/-- The variables of `console.c`, with the terminal that `active_terminal` points to, the input queue, the sessions' tokens and the number
of attempts to present a picture. -/
structure System (ι : Type) where
  activeTerminal : Option Terminal
  foregroundToken : Nat
  nextToken : Nat
  mutex : Bool
  cursorTimer : Timer
  cursorPhaseVisible : Bool
  graphicsActive : Bool
  captureBuffer : Option (List UInt8)
  captureOverflow : Bool
  input : Input.InputState
  token : ι → Nat
  attempts : Nat
  history : History ι

/-- The console before `console_init`, with the generation of the input. -/
def System.boot (ι : Type) (generation : UInt32) : System ι where
  activeTerminal := none
  foregroundToken := 0
  nextToken := 1
  mutex := false
  cursorTimer := .cancelled
  cursorPhaseVisible := true
  graphicsActive := false
  captureBuffer := none
  captureOverflow := false
  input := .initial generation
  token := fun _ => 0
  attempts := 0
  history := { delivered := [], captured := [], captureRead := [] }

/-- The terminal, if there is one, is changed. -/
def System.onTerminal (c : System ι) (change : Terminal → Terminal) : System ι :=
  { c with activeTerminal := c.activeTerminal.map change }

/-! ## The capture -/

/-- `capture_bytes`. -/
def captureBytes (c : System ι) (data : List UInt8) : System ι :=
  match c.captureBuffer with
  | none => c
  | some buffer =>
    let copied := data.take (captureCapacity - buffer.length)
    { c with
      captureBuffer := some (buffer ++ copied)
      captureOverflow := c.captureOverflow || decide (copied.length ≠ data.length)
      history := { c.history with captured := c.history.captured ++ data } }

/-- `console_capture_start`; `allocates` says whether the buffer is allocated. -/
def consoleCaptureStart (c : System ι) (allocates : Bool) : Bool × System ι :=
  if c.mutex = false then (false, c)
  else
    let ready := c.captureBuffer.isSome || allocates
    (ready, { c with
      captureBuffer := if ready then some [] else none
      captureOverflow := false
      history := { c.history with captured := [], captureRead := [] } })

/-- `console_capture_read`: what is read and whether bytes were lost. -/
def consoleCaptureRead (c : System ι) (capacity : Nat) : (List UInt8 × Bool) × System ι :=
  if c.mutex = false then (([], false), c)
  else
    match c.captureBuffer with
    | none => (([], c.captureOverflow), c)
    | some buffer =>
      ((buffer.take capacity, c.captureOverflow), { c with
        captureBuffer := some (buffer.drop capacity)
        history := { c.history with captureRead := c.history.captureRead ++ buffer.take capacity } })

/-- `console_capture_stop`. -/
def consoleCaptureStop (c : System ι) : System ι :=
  if c.mutex = false then c
  else
    { c with
      captureBuffer := none
      captureOverflow := false
      history := { c.history with captured := [], captureRead := [] } }

/-! ## The picture -/

section
variable (presents : Nat → Bool)

/-- `present_console`. -/
def presentConsole (c : System ι) : Bool × System ι :=
  if c.graphicsActive then (true, c) else (presents c.attempts, { c with attempts := c.attempts + 1 })

/-- `restart_cursor_blink`. -/
def restartCursorBlink (c : System ι) (now : Nat) : System ι :=
  let c := { c with cursorPhaseVisible := true }
  if c.graphicsActive then c
  else { c.onTerminal fun t => t.setCursorPhase true with cursorTimer := .start now cursorBlinkInterval cursorBlinkInterval }

/-- `owns_console`. -/
def System.Owns (c : System ι) (i : ι) : Prop := c.token i ≠ 0 ∧ c.token i = c.foregroundToken

instance (c : System ι) (i : ι) : Decidable (c.Owns i) := inferInstanceAs (Decidable (_ ∧ _))

/-- The session owns the console and there is a terminal. -/
def System.Serves (c : System ι) (i : ι) : Prop := c.Owns i ∧ c.activeTerminal.isSome = true

instance (c : System ι) (i : ι) : Decidable (c.Serves i) := inferInstanceAs (Decidable (_ ∧ _))

/-! ## The console -/

/-- `console_init`; `created` says whether the mutex is created. -/
def consoleInit (c : System ι) (terminal : Terminal) (created : Bool) : Bool × System ι :=
  if c.mutex = true ∨ created = false then (false, c)
  else
    (true, { c with
      mutex := true
      activeTerminal := some terminal
      foregroundToken := 0
      nextToken := 1
      cursorTimer := .cancelled
      cursorPhaseVisible := true })

/-- `console_rebind`. -/
def consoleRebind (c : System ι) (terminal : Terminal) (now : Nat) : System ι :=
  if c.mutex = false then c
  else
    let c := { c with activeTerminal := some terminal }
    if c.foregroundToken ≠ 0 then restartCursorBlink c now else c

/-- `console_resize_result_t`. -/
inductive ResizeResult where
  | failed | presentFailed | ok
  deriving DecidableEq, Repr

/-- `console_resize`. -/
def consoleResize (c : System ι) (heap : Heap) (framebuffer : Framebuffer) (scale now : Nat) : ResizeResult × System ι :=
  if c.mutex = false then (.failed, c)
  else
    match c.activeTerminal.bind fun t => t.resize heap framebuffer scale with
    | none => (.failed, c)
    | some resized =>
      let c := { c with activeTerminal := some resized }
      let c := if c.foregroundToken ≠ 0 then restartCursorBlink c now else c
      let (presented, c) := presentConsole presents c
      (if presented then .ok else .presentFailed, c)

/-- `terminal_write_line`. -/
def terminalWriteLine (t : Terminal) (text : List UInt8) : Terminal := (t.writeBytes text).writeBytes [10]

/-- The parser and the colours that a session leaves. -/
def resetTerminal (t : Terminal) : Terminal := { t with ansiState := .ground, reverse := false }.setColors 0xffff 0x0000

/-- `console_write_panic`. -/
def consoleWritePanic (c : System ι) (text : List UInt8) : Bool × System ι :=
  if c.mutex = false ∨ c.activeTerminal.isSome = false then (false, c)
  else
    let c := { c with graphicsActive := false }
    let c := c.onTerminal fun t => (resetTerminal ((t.setRenderingEnabled true).setCursorVisible false)).clear
    let c := captureBytes (captureBytes c text) [10]
    presentConsole presents (c.onTerminal fun t => terminalWriteLine t text)

/-- `console_shutdown`. -/
def consoleShutdown (c : System ι) : System ι :=
  let c := consoleCaptureStop c
  if c.mutex = false then c
  else { c with activeTerminal := none, foregroundToken := 0, cursorTimer := .cancelled, mutex := false }

/-- `console_update`. -/
def consoleUpdate (c : System ι) (now : Nat) : System ι :=
  if c.graphicsActive = false ∧ c.activeTerminal.isSome = true ∧ c.foregroundToken ≠ 0 then
    if c.cursorTimer.fires now then
      let c := { c with cursorTimer := c.cursorTimer.poll now, cursorPhaseVisible := !c.cursorPhaseVisible }
      (presentConsole presents (c.onTerminal fun t => t.setCursorPhase c.cursorPhaseVisible)).2
    else { c with cursorTimer := c.cursorTimer.poll now }
  else c

/-- `console_next_deadline`. -/
def consoleNextDeadline (c : System ι) : Nat :=
  if c.graphicsActive = false ∧ c.activeTerminal.isSome = true ∧ c.foregroundToken ≠ 0 then
    if c.cursorTimer.active then c.cursorTimer.deadline else timeDeadlineNone
  else timeDeadlineNone

/-- `console_set_graphics_active`. -/
def consoleSetGraphicsActive (c : System ι) (active : Bool) (now : Nat) : System ι :=
  if c.graphicsActive = active ∨ c.activeTerminal.isSome = false then c
  else
    let c := { c with graphicsActive := active }
    if active then { c.onTerminal fun t => (t.setRenderingEnabled false).setCursorVisible false with cursorTimer := .cancelled }
    else
      let c := c.onTerminal fun t => t.setRenderingEnabled true
      let c := if c.foregroundToken ≠ 0 then restartCursorBlink (c.onTerminal fun t => t.setCursorVisible true) now else c
      (presentConsole presents (c.onTerminal fun t => t.redraw)).2

/-! ## The sessions -/

/-- `tabos_console_acquire`. -/
def tabosConsoleAcquire (c : System ι) (i : ι) (now : Nat) : Bool × System ι :=
  if c.activeTerminal.isSome = false ∨ c.foregroundToken ≠ 0 then (false, { c with token := Function.update c.token i 0 })
  else
    let token := if c.nextToken = 0 then 1 else c.nextToken
    let c := { c with
      input := Input.inputReset c.input false
      foregroundToken := token
      nextToken := (token + 1) % 2 ^ 32
      token := Function.update c.token i token }
    let (presented, c) := presentConsole presents (restartCursorBlink (c.onTerminal fun t => t.setCursorVisible true) now)
    if presented then (true, c)
    else
      (false, { c.onTerminal fun t => t.setCursorVisible false with
        foregroundToken := 0
        token := Function.update c.token i 0
        cursorTimer := .cancelled })

/-- `tabos_console_release`. -/
def tabosConsoleRelease (c : System ι) (i : ι) : System ι :=
  let c :=
    if c.Owns i then
      let c := { c.onTerminal fun t => (resetTerminal t).setCursorVisible false with cursorTimer := .cancelled }
      let c := (presentConsole presents c).2
      { c with input := Input.inputReset c.input false, foregroundToken := 0 }
    else c
  { c with token := Function.update c.token i 0 }

/-- What `tabos_console_write_bytes`, `tabos_console_write_line` and `tabos_console_clear` do for the owner. -/
def serve (c : System ι) (i : ι) (now : Nat) (captured : List (List UInt8)) (change : Terminal → Terminal) : Bool × System ι :=
  if c.Serves i then presentConsole presents (restartCursorBlink ((captured.foldl captureBytes c).onTerminal change) now) else (false, c)

/-- `tabos_console_write_bytes`. -/
def tabosConsoleWriteBytes (c : System ι) (i : ι) (data : List UInt8) (now : Nat) : Bool × System ι :=
  serve presents c i now [data] fun t => t.writeBytes data

/-- `tabos_console_write_line`. -/
def tabosConsoleWriteLine (c : System ι) (i : ι) (text : List UInt8) (now : Nat) : Bool × System ι :=
  serve presents c i now [text, [10]] fun t => terminalWriteLine t text

/-- `tabos_console_clear`. -/
def tabosConsoleClear (c : System ι) (i : ι) (now : Nat) : Bool × System ι := serve presents c i now [] fun t => t.clear

/-- The functions that move the viewport. -/
inductive Scroll where
  | byLines (lines : Int)
  | pageUp
  | pageDown
  | toStart
  | toEnd

def Scroll.apply : Scroll → Terminal → Terminal
  | .byLines lines, t => t.scrollLines lines
  | .pageUp, t => t.pageUp
  | .pageDown, t => t.pageDown
  | .toStart, t => t.scrollToStart
  | .toEnd, t => t.scrollToEnd

/-- `update_viewport` and `tabos_console_scroll_lines`. -/
def updateViewport (c : System ι) (i : ι) (scroll : Scroll) : Bool × System ι :=
  if c.Serves i ∧ c.graphicsActive = false then presentConsole presents (c.onTerminal scroll.apply) else (false, c)

/-- The event that `tabos_console_poll` returns. -/
def consolePolled (c : System ι) (i : ι) : Option Input.InputEvent := if c.Serves i then Input.polledEvent c.input else none

/-- `tabos_console_poll`. -/
def tabosConsolePoll (c : System ι) (i : ι) (now : Nat) : System ι :=
  match consolePolled c i with
  | none => c
  | some event =>
    restartCursorBlink { c with
      input := Input.tabosInputPoll c.input
      history := { c.history with delivered := c.history.delivered ++ [(i, event)] } } now

/-! ## Steps -/

/-- What happens to the input queue apart from polls. -/
inductive Keyboard where
  | submit (event : Input.InputEvent) (now : Nat)
  | update (now : Nat)
  | takePowerActivity
  | getState (resynchronize : Bool)
  | reset (clearPressed : Bool)

def Keyboard.operation : Keyboard → Input.Operation
  | .submit event now => .submit event now
  | .update now => .update now
  | .takePowerActivity => .takePowerActivity
  | .getState resynchronize => .getState resynchronize
  | .reset clearPressed => .reset clearPressed

/-- A call of a function of the console, or of the input queue. -/
inductive Event (ι : Type) where
  | init (terminal : Terminal) (created : Bool)
  | rebind (terminal : Terminal) (now : Nat)
  | resize (heap : Heap) (framebuffer : Framebuffer) (scale now : Nat)
  | writePanic (text : List UInt8)
  | shutdown
  | update (now : Nat)
  | setGraphicsActive (active : Bool) (now : Nat)
  | captureStart (allocates : Bool)
  | captureRead (capacity : Nat)
  | captureStop
  | acquire (i : ι) (now : Nat)
  | release (i : ι)
  | writeBytes (i : ι) (data : List UInt8) (now : Nat)
  | writeLine (i : ι) (text : List UInt8) (now : Nat)
  | clear (i : ι) (now : Nat)
  | scroll (i : ι) (scroll : Scroll)
  | poll (i : ι) (now : Nat)
  | keyboard (keyboard : Keyboard)

def step (c : System ι) : Event ι → System ι
  | .init terminal created => (consoleInit c terminal created).2
  | .rebind terminal now => consoleRebind c terminal now
  | .resize heap framebuffer scale now => (consoleResize presents c heap framebuffer scale now).2
  | .writePanic text => (consoleWritePanic presents c text).2
  | .shutdown => consoleShutdown c
  | .update now => consoleUpdate presents c now
  | .setGraphicsActive active now => consoleSetGraphicsActive presents c active now
  | .captureStart allocates => (consoleCaptureStart c allocates).2
  | .captureRead capacity => (consoleCaptureRead c capacity).2
  | .captureStop => consoleCaptureStop c
  | .acquire i now => (tabosConsoleAcquire presents c i now).2
  | .release i => tabosConsoleRelease presents c i
  | .writeBytes i data now => (tabosConsoleWriteBytes presents c i data now).2
  | .writeLine i text now => (tabosConsoleWriteLine presents c i text now).2
  | .clear i now => (tabosConsoleClear presents c i now).2
  | .scroll i scroll => (updateViewport presents c i scroll).2
  | .poll i now => tabosConsolePoll c i now
  | .keyboard keyboard => { c with input := Input.step c.input keyboard.operation }

def run (c : System ι) (events : List (Event ι)) : System ι := events.foldl (step presents) c

end

end Console
end TabOS
