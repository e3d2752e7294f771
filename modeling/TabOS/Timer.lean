/-!
# Timers

`time/time.c`: deadlines that saturate, and a timer that fires once or keeps its interval.
-/

namespace TabOS

/-- `TIME_DEADLINE_NONE`. -/
def timeDeadlineNone : Nat := 0xffffffffffffffff

/-- `TIME_DEADLINE_LATEST`. -/
def timeDeadlineLatest : Nat := timeDeadlineNone - 1

def timeDeadlineAfter (now delay : Nat) : Nat :=
  if now ≥ timeDeadlineLatest ∨ delay > timeDeadlineLatest - now then timeDeadlineLatest else now + delay

def timeDeadlineAdvance (deadline interval now : Nat) : Nat :=
  if deadline = timeDeadlineNone ∨ interval = 0 ∨ now ≥ timeDeadlineLatest then timeDeadlineNone
  else if now < deadline then deadline
  else timeDeadlineAfter now (interval - (now - deadline) % interval)

/-- `tabos_timer_t`. -/
structure Timer where
  deadline : Nat
  interval : Nat
  active : Bool
  deriving DecidableEq, Repr

namespace Timer

def start (now delay interval : Nat) : Timer := { deadline := timeDeadlineAfter now delay, interval := interval, active := true }

/-- What `tabos_timer_cancel` leaves. -/
def cancelled : Timer := { deadline := 0, interval := 0, active := false }

/-- Whether the timer fires at a poll. -/
def fires (timer : Timer) (now : Nat) : Bool := timer.active && !decide (now < timer.deadline)

/-- The timer after a poll. -/
def poll (timer : Timer) (now : Nat) : Timer :=
  if timer.fires now = false then timer
  else if timer.interval = 0 then { timer with active := false }
  else
    let deadline := timeDeadlineAdvance timer.deadline timer.interval now
    { timer with deadline := deadline, active := decide (deadline ≠ timeDeadlineNone) }

end Timer
end TabOS
