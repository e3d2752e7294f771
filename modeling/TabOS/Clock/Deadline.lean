import TabOS.Timer
import Mathlib.Data.UInt
import Mathlib.Order.Bounds.Basic

/-!
# Periodic deadlines

The 64-bit arithmetic of `time/time.c` does not wrap, so the deadlines of a periodic timer are the first ones of their phase after the
polls at which it fires, as long as these can be represented.
-/

namespace TabOS

/-! ## The arithmetic of `uint64_t` -/

namespace UInt64Time

/-- `TIME_DEADLINE_NONE`. -/
def deadlineNone : UInt64 := 0xffffffffffffffff

/-- `TIME_DEADLINE_LATEST`. -/
def deadlineLatest : UInt64 := deadlineNone - 1

/-- `time_deadline_after`. -/
def deadlineAfter (now delay : UInt64) : UInt64 :=
  if now ≥ deadlineLatest ∨ delay > deadlineLatest - now then deadlineLatest else now + delay

/-- `time_deadline_advance`. -/
def deadlineAdvance (deadline interval now : UInt64) : UInt64 :=
  if deadline = deadlineNone ∨ interval = 0 ∨ now ≥ deadlineLatest then deadlineNone
  else if now < deadline then deadline
  else deadlineAfter now (interval - (now - deadline) % interval)

theorem deadlineLatest_toNat : deadlineLatest.toNat = timeDeadlineLatest := rfl

theorem deadlineNone_toNat : deadlineNone.toNat = timeDeadlineNone := rfl

/-- A sum that is not past the latest deadline does not wrap. -/
theorem deadlineAfter_toNat (now delay : UInt64) : (deadlineAfter now delay).toNat = timeDeadlineAfter now.toNat delay.toNat := by
  have hlatest : timeDeadlineLatest = 18446744073709551614 := by decide
  have hlate : now ≥ deadlineLatest ↔ now.toNat ≥ timeDeadlineLatest := UInt64.le_iff_toNat_le
  unfold deadlineAfter timeDeadlineAfter
  by_cases hpast : now ≥ deadlineLatest
  · rw [if_pos (Or.inl hpast), if_pos (Or.inl (hlate.1 hpast))]
    rfl
  have hleft : (deadlineLatest - now).toNat = timeDeadlineLatest - now.toNat := by
    rw [UInt64.toNat_sub_of_le _ _ (UInt64.le_of_lt (UInt64.not_le.1 hpast))]
    rfl
  have hlong : delay > deadlineLatest - now ↔ delay.toNat > timeDeadlineLatest - now.toNat := by
    rw [gt_iff_lt, UInt64.lt_iff_toNat_lt, hleft]
  rw [hlate] at hpast
  by_cases hmore : delay > deadlineLatest - now
  · rw [if_pos (Or.inr hmore), if_pos (Or.inr (hlong.1 hmore))]
    rfl
  · rw [if_neg (by rw [hlate, not_or]; exact ⟨hpast, hmore⟩), UInt64.toNat_add]
    rw [hlong] at hmore
    rw [if_neg (not_or.2 ⟨hpast, hmore⟩)]
    omega

theorem deadlineAdvance_toNat (deadline interval now : UInt64) :
    (deadlineAdvance deadline interval now).toNat = timeDeadlineAdvance deadline.toNat interval.toNat now.toNat := by
  have hnone : deadline = deadlineNone ↔ deadline.toNat = timeDeadlineNone := (UInt64.toNat_inj (b := deadlineNone)).symm
  have hzero : interval = 0 ↔ interval.toNat = 0 := (UInt64.toNat_inj (b := 0)).symm
  have hlate : now ≥ deadlineLatest ↔ now.toNat ≥ timeDeadlineLatest := UInt64.le_iff_toNat_le
  have hfuture : now < deadline ↔ now.toNat < deadline.toNat := UInt64.lt_iff_toNat_lt
  unfold deadlineAdvance timeDeadlineAdvance
  rw [if_congr (or_congr hnone (or_congr hzero hlate)) rfl rfl, if_congr hfuture rfl rfl]
  split
  · rfl
  rename_i hvalid
  split
  · rfl
  rename_i hpast
  have helapsed : (now - deadline).toNat = now.toNat - deadline.toNat :=
    UInt64.toNat_sub_of_le _ _ (UInt64.le_iff_toNat_le.2 (by omega))
  have hmod : ((now - deadline) % interval).toNat = (now.toNat - deadline.toNat) % interval.toNat := by
    rw [UInt64.toNat_mod, helapsed]
  have hless := Nat.mod_lt (now.toNat - deadline.toNat) (show interval.toNat > 0 by omega)
  rw [deadlineAfter_toNat, UInt64.toNat_sub_of_le _ _ (UInt64.le_iff_toNat_le.2 (by omega)), hmod]

end UInt64Time

/-! ## The next deadline -/

/-- The times of a phase. -/
def Phase (deadline interval : Nat) (time : Nat) : Prop := ∃ k, time = deadline + k * interval

/-- A time of the phase is the first one after another time. -/
def FirstAfter (deadline interval now time : Nat) : Prop := IsLeast {t | Phase deadline interval t ∧ now < t} time

theorem firstAfter_of_le {deadline interval now : Nat} (hinterval : 0 < interval) (h : deadline ≤ now) :
    FirstAfter deadline interval now (now + (interval - (now - deadline) % interval)) := by
  obtain ⟨elapsed, rfl⟩ := Nat.exists_eq_add_of_le h
  rw [Nat.add_sub_cancel_left]
  have hmod := Nat.mod_lt elapsed hinterval
  have hdiv := Nat.div_add_mod elapsed interval
  refine ⟨⟨⟨elapsed / interval + 1, ?_⟩, by omega⟩, ?_⟩
  · rw [Nat.succ_mul, Nat.mul_comm]
    omega
  · rintro t ⟨⟨k, rfl⟩, hlate⟩
    have hk : elapsed / interval < k := (Nat.div_lt_iff_lt_mul hinterval).2 (by omega)
    have hsteps := Nat.mul_le_mul_right interval (show elapsed / interval + 1 ≤ k from hk)
    rw [Nat.succ_mul, Nat.mul_comm _ interval] at hsteps
    omega

/-- What `time_deadline_advance` returns before the latest deadline. -/
theorem timeDeadlineAdvance_spec {deadline interval now : Nat} (hdeadline : deadline ≤ timeDeadlineNone) (hinterval : 0 < interval)
    (hnow : now < timeDeadlineLatest) :
    (now < deadline → timeDeadlineAdvance deadline interval now = deadline) ∧
      (deadline ≤ now → ∃ next, FirstAfter deadline interval now next ∧
        timeDeadlineAdvance deadline interval now = min next timeDeadlineLatest) := by
  have hlatest : timeDeadlineLatest < timeDeadlineNone := by decide
  constructor
  · intro hfuture
    unfold timeDeadlineAdvance
    split
    · omega
    · rfl
  · intro hpast
    refine ⟨_, firstAfter_of_le hinterval hpast, ?_⟩
    unfold timeDeadlineAdvance timeDeadlineAfter
    rw [if_neg (by omega), if_neg (by omega)]
    split <;> omega

/-! ## A periodic timer -/

namespace UInt64Time

/-- `tabos_timer_t` with the fields of its type. -/
structure Timer64 where
  deadline : UInt64
  interval : UInt64
  active : Bool

/-- `tabos_timer_start`, at a time. -/
def tabosTimerStart (now delay interval : UInt64) : Timer64 :=
  { deadline := deadlineAfter now delay, interval := interval, active := true }

/-- `tabos_timer_poll`, at a time: whether the timer fires, and the timer. -/
def tabosTimerPoll (timer : Timer64) (now : UInt64) : Bool × Timer64 :=
  if timer.active = false then (false, timer)
  else if now < timer.deadline then (false, timer)
  else if timer.interval = 0 then (true, { timer with active := false })
  else
    let deadline := deadlineAdvance timer.deadline timer.interval now
    (true, { timer with deadline := deadline, active := if deadline = deadlineNone then false else timer.active })

/-- The timer before the poll of a number. -/
def polled (timer : Timer64) (times : Nat → UInt64) : Nat → Timer64
  | 0 => timer
  | i + 1 => (tabosTimerPoll (polled timer times i) (times i)).2

/-- The poll of a number fires. -/
def fires (timer : Timer64) (times : Nat → UInt64) (i : Nat) : Bool := (tabosTimerPoll (polled timer times i) (times i)).1

/-- A deadline of the phase that starts at `first`, saturated. -/
def OnPhase (first interval deadline : Nat) : Prop := ∃ k, deadline = min (first + k * interval) timeDeadlineLatest

/-- What every poll keeps. -/
structure Periodic (first : Nat) (interval : UInt64) (timer : Timer64) : Prop where
  interval_eq : timer.interval = interval
  phase : timer.active = true → OnPhase first interval.toNat timer.deadline.toNat

/-- The deadline after one that has passed. -/
theorem advance_of_passed {first : Nat} {deadline interval now : UInt64} (hinterval : interval ≠ 0) (hpassed : deadline ≤ now)
    (hphase : OnPhase first interval.toNat deadline.toNat) (hnow : now.toNat < timeDeadlineLatest) :
    OnPhase first interval.toNat (deadlineAdvance deadline interval now).toNat ∧ now < deadlineAdvance deadline interval now ∧
      deadlineAdvance deadline interval now ≠ deadlineNone := by
  have hlatest : timeDeadlineLatest < timeDeadlineNone := by decide
  have hpositive : 0 < interval.toNat := Nat.pos_of_ne_zero fun h => hinterval (UInt64.toNat_inj.1 h)
  have hpast : deadline.toNat ≤ now.toNat := UInt64.le_iff_toNat_le.1 hpassed
  obtain ⟨next, hnext, hadvance⟩ := (timeDeadlineAdvance_spec (by omega) hpositive hnow).2 hpast
  rw [← deadlineAdvance_toNat] at hadvance
  obtain ⟨⟨⟨k, hk⟩, hlate⟩, -⟩ := hnext
  obtain ⟨k', hk'⟩ := hphase
  refine ⟨⟨k' + k, ?_⟩, UInt64.lt_iff_toNat_lt.2 (by omega), fun hnone => ?_⟩
  · rw [hadvance, hk, Nat.add_mul]
    omega
  · rw [hnone, deadlineNone_toNat] at hadvance
    omega

/-- What a poll does to a periodic timer. -/
theorem tabosTimerPoll_cases {first : Nat} {interval : UInt64} (hinterval : interval ≠ 0) {timer : Timer64}
    (h : Periodic first interval timer) (now : UInt64) :
    (tabosTimerPoll timer now = (false, timer) ∧ (timer.active = true → now < timer.deadline)) ∨
      (timer.active = true ∧ timer.deadline ≤ now ∧ (tabosTimerPoll timer now).1 = true ∧
        Periodic first interval (tabosTimerPoll timer now).2 ∧
        ((tabosTimerPoll timer now).2.active = true → now < (tabosTimerPoll timer now).2.deadline) ∧
        (now.toNat < timeDeadlineLatest → (tabosTimerPoll timer now).2.active = true)) := by
  obtain ⟨heq, hphase⟩ := h
  unfold tabosTimerPoll
  by_cases hidle : timer.active = false
  · rw [if_pos hidle]
    refine Or.inl ⟨rfl, fun hactive => ?_⟩
    rw [hidle] at hactive
    cases hactive
  have hactive : timer.active = true := Bool.not_eq_false _ ▸ hidle
  by_cases hfuture : now < timer.deadline
  · rw [if_neg hidle, if_pos hfuture]
    exact Or.inl ⟨rfl, fun _ => hfuture⟩
  have hpassed : timer.deadline ≤ now := UInt64.not_lt.1 hfuture
  rw [if_neg hidle, if_neg hfuture, if_neg (by rw [heq]; exact hinterval), heq]
  refine Or.inr ⟨hactive, hpassed, rfl, ?_⟩
  dsimp only
  by_cases hnow : now.toNat < timeDeadlineLatest
  · obtain ⟨hphase', hlater, hnone⟩ := advance_of_passed hinterval hpassed (hphase hactive) hnow
    rw [if_neg hnone]
    exact ⟨⟨rfl, fun _ => hphase'⟩, fun _ => hlater, fun _ => hactive⟩
  · have hnone : deadlineAdvance timer.deadline interval now = deadlineNone :=
      if_pos (Or.inr (Or.inr (UInt64.le_iff_toNat_le.2 (Nat.le_of_not_lt hnow))))
    rw [hnone, if_pos rfl]
    exact ⟨⟨rfl, fun h => (nomatch h)⟩, fun h => (nomatch h), fun h => absurd h hnow⟩

variable {interval : UInt64} {first : Nat} {timer : Timer64} {times : Nat → UInt64}

theorem polled_succ (timer : Timer64) (times : Nat → UInt64) (i : Nat) :
    polled timer times (i + 1) = (tabosTimerPoll (polled timer times i) (times i)).2 := rfl

/-- Every poll keeps the timer periodic. -/
theorem polled_periodic (hinterval : interval ≠ 0) (h : Periodic first interval timer) (i : Nat) :
    Periodic first interval (polled timer times i) := by
  induction i with
  | zero => exact h
  | succ i ih =>
    rcases tabosTimerPoll_cases hinterval ih (times i) with ⟨hidle, -⟩ | ⟨-, -, -, hkept, -⟩
    · rw [polled_succ, hidle]
      exact ih
    · exact hkept

/-- After a poll that has fired, the timer waits for a later deadline. -/
theorem later_of_fires (hinterval : interval ≠ 0) (h : Periodic first interval timer) (hmono : ∀ i j, i ≤ j → times i ≤ times j)
    {i : Nat} (hfires : fires timer times i = true) (n : Nat) :
    (polled timer times (i + 1 + n)).active = true → times i < (polled timer times (i + 1 + n)).deadline := by
  have hperiodic := @polled_periodic interval first timer times hinterval h
  induction n with
  | zero =>
    rcases tabosTimerPoll_cases hinterval (hperiodic i) (times i) with ⟨hidle, -⟩ | ⟨-, -, -, -, hlater, -⟩
    · unfold fires at hfires
      rw [hidle] at hfires
      cases hfires
    · exact hlater
  | succ n ih =>
    rcases tabosTimerPoll_cases hinterval (hperiodic (i + 1 + n)) (times (i + 1 + n)) with ⟨hidle, -⟩ | ⟨-, -, -, -, hlater, -⟩
    · rw [← Nat.add_assoc, polled_succ, hidle]
      exact ih
    · intro hactive
      exact UInt64.lt_of_le_of_lt (hmono i (i + 1 + n) (by omega)) (hlater hactive)

/-- A timer that is polled before the latest deadline stays active. -/
theorem polled_active (hinterval : interval ≠ 0) (h : Periodic first interval timer) (hactive : timer.active = true) {i : Nat}
    (hearly : ∀ j < i, (times j).toNat < timeDeadlineLatest) : (polled timer times i).active = true := by
  induction i with
  | zero => exact hactive
  | succ i ih =>
    rcases tabosTimerPoll_cases hinterval (@polled_periodic _ _ _ times hinterval h i) (times i) with ⟨hidle, -⟩ | ⟨-, -, -, -, -, hstays⟩
    · rw [polled_succ, hidle]
      exact ih fun j hj => hearly j (Nat.lt_succ_of_lt hj)
    · exact hstays (hearly i (Nat.lt_succ_self i))

/-- A poll fires exactly when the timer is active and its deadline has passed. -/
theorem fires_iff (hinterval : interval ≠ 0) (h : Periodic first interval timer) (i : Nat) :
    fires timer times i = true ↔ (polled timer times i).active = true ∧ (polled timer times i).deadline ≤ times i := by
  unfold fires
  rcases tabosTimerPoll_cases hinterval (@polled_periodic _ _ _ times hinterval h i) (times i) with
    ⟨hidle, hfuture⟩ | ⟨hactive, hpassed, hfired, -⟩
  · rw [hidle]
    refine iff_of_false Bool.false_ne_true ?_
    rintro ⟨hactive, hpassed⟩
    exact UInt64.not_le.2 (hfuture hactive) hpassed
  · exact iff_of_true hfired ⟨hactive, hpassed⟩

theorem periodic_start (now delay interval : UInt64) :
    Periodic (deadlineAfter now delay).toNat interval (tabosTimerStart now delay interval) := by
  have hlatest : (deadlineAfter now delay).toNat ≤ timeDeadlineLatest := by
    rw [deadlineAfter_toNat]
    unfold timeDeadlineAfter
    split <;> omega
  refine ⟨rfl, fun _ => ⟨0, ?_⟩⟩
  show (deadlineAfter now delay).toNat = _
  omega

/-- `time_deadline_advance` returns the first deadline of the phase that has not passed, saturated, and a periodic timer fires at its
deadlines and once for all that have passed. -/
theorem periodic_deadlines :
    (∀ deadline interval now : UInt64, interval ≠ 0 → now < deadlineLatest →
      (now < deadline → deadlineAdvance deadline interval now = deadline) ∧
        (deadline ≤ now → ∃ next, FirstAfter deadline.toNat interval.toNat now.toNat next ∧
          (deadlineAdvance deadline interval now).toNat = min next timeDeadlineLatest)) ∧
    ∀ (start delay interval : UInt64) (times : Nat → UInt64), interval ≠ 0 → (∀ i j, i ≤ j → times i ≤ times j) →
      let timer := tabosTimerStart start delay interval
      let first := (deadlineAfter start delay).toNat
      (∀ i, (polled timer times i).active = true → OnPhase first interval.toNat (polled timer times i).deadline.toNat) ∧
      (∀ i, (∀ j < i, times j < deadlineLatest) → (polled timer times i).active = true) ∧
      (∀ i, fires timer times i = true ↔ (polled timer times i).active = true ∧ (polled timer times i).deadline ≤ times i) ∧
      ∀ i j, i < j → fires timer times i = true → fires timer times j = true →
        ∃ deadline, OnPhase first interval.toNat deadline ∧ (times i).toNat < deadline ∧ deadline ≤ (times j).toNat := by
  constructor
  · intro deadline interval now hinterval hnow
    have hpositive : 0 < interval.toNat := Nat.pos_of_ne_zero fun h => hinterval (UInt64.toNat_inj.1 h)
    have hfits : deadline.toNat ≤ timeDeadlineNone := Nat.le_of_lt_succ deadline.toNat_lt
    obtain ⟨hfuture, hpast⟩ := timeDeadlineAdvance_spec hfits hpositive (UInt64.lt_iff_toNat_lt.1 hnow)
    rw [← deadlineAdvance_toNat] at hfuture
    refine ⟨fun h => UInt64.toNat_inj.1 (hfuture (UInt64.lt_iff_toNat_lt.1 h)), fun h => ?_⟩
    rw [deadlineAdvance_toNat]
    exact hpast (UInt64.le_iff_toNat_le.1 h)
  · intro start delay interval times hinterval hmono timer first
    have hstart : Periodic first interval timer := periodic_start start delay interval
    have hperiodic := @polled_periodic _ _ _ times hinterval hstart
    refine ⟨fun i => (hperiodic i).phase, fun i hearly => ?_, fires_iff hinterval hstart, fun i j hless hi hj => ?_⟩
    · exact polled_active hinterval hstart rfl fun j hj => UInt64.lt_iff_toNat_lt.1 (hearly j hj)
    · obtain ⟨n, rfl⟩ := Nat.exists_eq_add_of_le (show i + 1 ≤ j from hless)
      obtain ⟨hactive, hpassed⟩ := (fires_iff hinterval hstart (i + 1 + n)).1 hj
      have hlater := later_of_fires hinterval hstart hmono hi n hactive
      exact ⟨_, (hperiodic _).phase hactive, UInt64.lt_iff_toNat_lt.1 hlater, UInt64.le_iff_toNat_le.1 hpassed⟩

theorem periodic_deadlines_constant :
    deadlineAdvance 9 10 7 = 9 ∧ ∀ i j, i < j → fires (tabosTimerStart 0 3 10) (fun _ => 7) i = true →
      fires (tabosTimerStart 0 3 10) (fun _ => 7) j = true → ∃ deadline, OnPhase 3 10 deadline ∧ 7 < deadline ∧ deadline ≤ 7 :=
  ⟨(periodic_deadlines.1 9 10 7 (by decide) (by decide)).1 (by decide),
    (periodic_deadlines.2 0 3 10 (fun _ => 7) (by decide) fun _ _ _ => UInt64.le_refl 7).2.2.2⟩

end UInt64Time

end TabOS
