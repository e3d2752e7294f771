import TabOS.Power.Deadlines

/-!
# The clock of the inactivity

A power manager without participants, requests to suspend and an automatic suspend is a clock of the inactivity. Its operations on the
manager are then those of the clock, whatever the display does.
-/

namespace TabOS
namespace Power

/-- What a manager goes by that nobody suspends. -/
structure Idling where
  finalized : Bool
  phase : Phase
  suspendRequested : Bool
  activityRequested : Bool
  activityMs : BitVec 64
  state : State
  policy : Policy
  lastActivityMs : BitVec 64
  dimInhibitors : BitVec 32
  screenOffRequested : Bool
  panelOffRequested : Bool

def Manager.idling (m : Manager) : Idling where
  finalized := m.finalized
  phase := m.phase
  suspendRequested := m.suspendRequested
  activityRequested := m.activityRequested
  activityMs := m.activityMs
  state := m.status.state
  policy := m.status.policy
  lastActivityMs := m.status.lastActivityMs
  dimInhibitors := m.status.dimInhibitors
  screenOffRequested := m.status.screenOffRequested
  panelOffRequested := m.status.panelOffRequested

namespace Idling

/-- A clock that runs: it is active or idle, and nothing suspends. -/
structure Calm (s : Idling) : Prop where
  finalized : s.finalized = true
  phase : s.phase = .none
  suspendRequested : s.suspendRequested = false
  state : s.state = .active ∨ s.state = .idle
  automatic : s.policy.automaticSuspend = false
  idleMs : s.policy.idleMs ≠ 0

/-- The display is to be lit. -/
def lit (s : Idling) : Idling := { s with screenOffRequested := false, panelOffRequested := false }

/-- The inactivity has reached a delay, if there is one. -/
def reached (s : Idling) (nowMs delayMs : BitVec 64) : Bool :=
  decide (delayMs ≠ 0) && decide (add s.lastActivityMs delayMs ≤ nowMs)

/-- The clock becomes active, or idle. -/
def inhibit (inhibitors : BitVec 32) (nowMs : BitVec 64) (s : Idling) : Idling :=
  let next := { s with dimInhibitors := inhibitors }
  if inhibitors ≠ 0 then { next.lit with state := .active }
  else if s.dimInhibitors ≠ 0 then { next with lastActivityMs := nowMs, state := .active }
  else next

/-- The activity that was requested is noticed. -/
def notice (s : Idling) : Idling :=
  if s.activityRequested then { s.lit with lastActivityMs := s.activityMs, activityRequested := false, state := .active } else s

/-- There may have been activity. -/
def request (activity : Bool) (nowMs : BitVec 64) (s : Idling) : Idling :=
  if activity then { s with activityRequested := true, activityMs := nowMs } else s

/-- The next deadline. -/
def deadline (s : Idling) : BitVec 64 :=
  if s.dimInhibitors ≠ 0 then BitVec.allOnes 64
  else if s.state = .active then add s.lastActivityMs s.policy.idleMs
  else
    let deadline :=
      if s.screenOffRequested = false ∧ s.policy.screenOffMs ≠ 0 then add s.lastActivityMs s.policy.screenOffMs
      else BitVec.allOnes 64
    if s.panelOffRequested = false ∧ s.policy.panelOffMs ≠ 0 then earlier deadline (add s.lastActivityMs s.policy.panelOffMs)
    else deadline

/-- The clock becomes idle when its deadline is reached. -/
def tick (nowMs : BitVec 64) (s : Idling) : Idling :=
  if s.deadline ≤ nowMs then
    { s with
      state := .idle
      screenOffRequested := s.reached nowMs s.policy.screenOffMs
      panelOffRequested := s.reached nowMs s.policy.panelOffMs }
  else s

/-- What a pass over the clock makes of it. -/
def look (inhibitors : BitVec 32) (activity deadline : Bool) (nowMs : BitVec 64) (s : Idling) : Idling :=
  let next := ((s.inhibit inhibitors nowMs).request activity nowMs).notice
  if deadline then next.tick nowMs else next

variable {s : Idling}

theorem Calm.inhibit (h : s.Calm) (inhibitors : BitVec 32) (nowMs : BitVec 64) : (s.inhibit inhibitors nowMs).Calm := by
  obtain ⟨hfinalized, hphase, hsuspend, hstate, hautomatic, hidle⟩ := h
  unfold Idling.inhibit
  dsimp only
  split_ifs
  · exact ⟨hfinalized, hphase, hsuspend, Or.inl rfl, hautomatic, hidle⟩
  · exact ⟨hfinalized, hphase, hsuspend, Or.inl rfl, hautomatic, hidle⟩
  · exact ⟨hfinalized, hphase, hsuspend, hstate, hautomatic, hidle⟩

theorem Calm.request (h : s.Calm) (activity : Bool) (nowMs : BitVec 64) : (s.request activity nowMs).Calm := by
  unfold Idling.request
  split
  · exact ⟨h.finalized, h.phase, h.suspendRequested, h.state, h.automatic, h.idleMs⟩
  · exact h

theorem Calm.notice (h : s.Calm) : s.notice.Calm := by
  unfold Idling.notice
  split
  · exact ⟨h.finalized, h.phase, h.suspendRequested, Or.inl rfl, h.automatic, h.idleMs⟩
  · exact h

theorem Calm.tick (h : s.Calm) (nowMs : BitVec 64) : (s.tick nowMs).Calm := by
  unfold Idling.tick
  split
  · exact ⟨h.finalized, h.phase, h.suspendRequested, Or.inr rfl, h.automatic, h.idleMs⟩
  · exact h

theorem Calm.look (h : s.Calm) (inhibitors : BitVec 32) (activity deadline : Bool) (nowMs : BitVec 64) :
    (s.look inhibitors activity deadline nowMs).Calm := by
  have hnext := ((h.inhibit inhibitors nowMs).request activity nowMs).notice
  unfold Idling.look
  dsimp only
  split
  · exact hnext.tick nowMs
  · exact hnext

theorem inhibit_activityRequested (inhibitors : BitVec 32) (nowMs : BitVec 64) (s : Idling) :
    (s.inhibit inhibitors nowMs).activityRequested = s.activityRequested := by
  unfold inhibit
  dsimp only
  split_ifs <;> rfl

/-- A clock that has been looked at has noticed the activity. -/
theorem look_activityRequested (inhibitors : BitVec 32) (activity deadline : Bool) (nowMs : BitVec 64) (s : Idling) :
    (s.look inhibitors activity deadline nowMs).activityRequested = false := by
  have hnotice : ∀ next : Idling, next.notice.activityRequested = false := by
    intro next
    unfold notice
    split <;> simp_all
  unfold look tick
  dsimp only
  split_ifs <;> exact hnotice _

/-! ## The deadlines of the clock -/

variable {nowMs : BitVec 64} (hnow : nowMs < BitVec.allOnes 64)

include hnow

/-- A delay from now on is not over. -/
theorem not_add_le {delayMs : BitVec 64} (h : delayMs ≠ 0) : ¬add nowMs delayMs ≤ nowMs := by
  have hdelay : 0 < delayMs.toNat := Nat.pos_of_ne_zero fun hzero => h (BitVec.eq_of_toNat_eq hzero)
  unfold add
  split
  · exact not_allOnes_le hnow
  · rename_i hfits
    have hall : (BitVec.allOnes 64 - nowMs).toNat = 2 ^ 64 - 1 - nowMs.toNat := by
      rw [BitVec.toNat_sub_of_le (BitVec.le_of_lt hnow), BitVec.toNat_allOnes]
    rw [BitVec.lt_def, hall] at hfits
    rw [BitVec.le_def, BitVec.toNat_add, Nat.mod_eq_of_lt (by omega)]
    omega

/-- A clock with an inhibitor has no deadline. -/
theorem not_deadline_inhibited (h : s.dimInhibitors ≠ 0) : ¬s.deadline ≤ nowMs := by
  rw [deadline, if_pos h]
  exact not_allOnes_le hnow

/-- A clock that has been looked at has no deadline or a later one. -/
theorem not_deadline_tick (s : Idling) : ¬(s.tick nowMs).deadline ≤ nowMs := by
  unfold tick
  split
  · rename_i hreached
    have hfree : ¬s.dimInhibitors ≠ 0 := fun hinhibited => not_deadline_inhibited hnow hinhibited hreached
    have hidle : ¬State.idle = State.active := by decide
    unfold deadline
    rw [if_neg hfree, if_neg hidle]
    dsimp only
    rw [ite_earlier_le_iff, ite_le_iff hnow]
    rintro (⟨⟨hscreen, hdelay⟩, hle⟩ | ⟨⟨hpanel, hdelay⟩, hle⟩)
    · exact hdelay (by simpa [reached, hle] using hscreen)
    · exact hdelay (by simpa [reached, hle] using hpanel)
  · assumption

/-- A clock that is active with an inhibitor, or since just now, stays so. -/
theorem active_tick (h : s.Calm) (hactive : s.state = .active) (hused : s.dimInhibitors ≠ 0 ∨ s.lastActivityMs = nowMs) :
    (s.tick nowMs).state = .active := by
  have hnot : ¬s.deadline ≤ nowMs := by
    by_cases hinhibited : s.dimInhibitors ≠ 0
    · exact not_deadline_inhibited hnow hinhibited
    · rw [deadline, if_neg hinhibited, if_pos hactive, hused.resolve_left hinhibited]
      exact not_add_le hnow h.idleMs
  rw [tick, if_neg hnot]
  exact hactive

omit hnow in
/-- A clock without an inhibitor is idle after the delay. -/
theorem idle_tick (h : s.Calm) (hfree : s.dimInhibitors = 0) :
    (s.tick nowMs).state = .idle ↔ s.state = .idle ∨ add s.lastActivityMs s.policy.idleMs ≤ nowMs := by
  have hstate : (s.tick nowMs).state = if s.deadline ≤ nowMs then .idle else s.state := by
    unfold tick
    split <;> rfl
  rw [hstate]
  rcases h.state with hactive | hidle
  · rw [deadline, if_neg (not_not.2 hfree), if_pos hactive, hactive]
    simp
  · simp [hidle]

/-- A clock is idle after it has been looked at if nothing ends the inactivity and it has been idle or has become so. -/
theorem idle_look (h : s.Calm) (hnoticed : s.activityRequested = false) (inhibitors : BitVec 32) (activity deadline : Bool) :
    (s.look inhibitors activity deadline nowMs).state = .idle ↔
      inhibitors = 0 ∧ activity = false ∧ s.dimInhibitors = 0 ∧
        (s.state = .idle ∨ deadline = true ∧ add s.lastActivityMs s.policy.idleMs ≤ nowMs) := by
  have hcalm := h.inhibit inhibitors nowMs
  -- The clock is active, with an inhibitor or since just now.
  have hused : ∀ next : Idling, next.Calm → next.state = .active → next.dimInhibitors ≠ 0 ∨ next.lastActivityMs = nowMs →
      (if deadline then next.tick nowMs else next).state ≠ .idle := by
    intro next hnext hactive hnot hidle
    cases deadline with
    | false => cases hactive.symm.trans hidle
    | true => cases (active_tick hnow hnext hactive hnot).symm.trans hidle
  unfold look
  cases activity with
  | true =>
    refine iff_of_false (hused _ (hcalm.request true nowMs).notice rfl (Or.inr rfl)) fun hiff => ?_
    cases hiff.2.1
  | false =>
    have hnotice : ((s.inhibit inhibitors nowMs).request false nowMs).notice = s.inhibit inhibitors nowMs := by
      refine if_neg ?_
      rw [request, if_neg Bool.false_ne_true, inhibit_activityRequested, hnoticed]
      exact Bool.false_ne_true
    rw [hnotice]
    by_cases hinhibited : inhibitors = 0
    · by_cases hfree : s.dimInhibitors = 0
      · have hsame : s.inhibit inhibitors nowMs = s := by
          unfold inhibit
          rw [if_neg (not_not.2 hinhibited), if_neg (not_not.2 hfree), hinhibited, ← hfree]
        rw [hsame]
        cases deadline with
        | false => simp [hinhibited, hfree]
        | true => simpa [hinhibited, hfree] using idle_tick h hfree
      · have hended : s.inhibit inhibitors nowMs =
            { s with dimInhibitors := inhibitors, lastActivityMs := nowMs, state := .active } := by
          unfold inhibit
          rw [if_neg (not_not.2 hinhibited), if_pos hfree]
        refine iff_of_false (hused _ hcalm ?_ (Or.inr ?_)) fun hiff => hfree hiff.2.2.1 <;> rw [hended]
    · have hheld : s.inhibit inhibitors nowMs = { { s with dimInhibitors := inhibitors }.lit with state := .active } := if_pos hinhibited
      refine iff_of_false (hused _ hcalm ?_ (Or.inl ?_)) fun hiff => hinhibited hiff.1 <;> rw [hheld]
      exact hinhibited

end Idling

/-! ## The manager -/

variable (env : Environment)

theorem idling_setBrightness (brightness : BitVec 8) (w : World) :
    (setBrightness env brightness w).2.manager.idling = w.manager.idling := by
  unfold setBrightness
  dsimp only
  split
  · rfl
  · split <;> rfl

theorem idling_setPanel (enabled : Bool) (w : World) : (setPanel env enabled w).2.manager.idling = w.manager.idling := by
  unfold setPanel
  dsimp only
  split
  · rfl
  · split <;> rfl

@[simp] theorem idling_setDisplay (brightness : BitVec 8) (panelEnabled : Bool) (w : World) :
    (setDisplay env brightness panelEnabled w).manager.idling = w.manager.idling := by
  have hdesired : (w.modifyStatus fun s => { s with desiredBrightness := brightness }).manager.idling = w.manager.idling := rfl
  rw [← hdesired]
  unfold setDisplay
  dsimp only
  generalize (w.modifyStatus fun s => { s with desiredBrightness := brightness }) = w1
  split
  · have hset := idling_setBrightness env 0 w1
    split <;> rename_i heq <;> rw [heq] at hset
    · exact (idling_setPanel ..).trans hset
    · exact hset
  · have hset := idling_setPanel env true w1
    split <;> rename_i heq <;> rw [heq] at hset
    · exact (idling_setBrightness ..).trans hset
    · exact hset

@[simp] theorem idling_restoreDisplay (w : World) : (restoreDisplay env w).manager.idling = w.manager.idling.lit := by
  unfold restoreDisplay
  exact idling_setDisplay ..

@[simp] theorem idling_applyIdleDisplay (nowMs : BitVec 64) (w : World) :
    (applyIdleDisplay env nowMs w).manager.idling = { w.manager.idling with
      screenOffRequested := w.manager.idling.reached nowMs w.manager.status.policy.screenOffMs
      panelOffRequested := w.manager.idling.reached nowMs w.manager.status.policy.panelOffMs } := by
  unfold applyIdleDisplay
  exact idling_setDisplay ..

/-- A manager that is active or idle leaves the idleness. -/
theorem idling_leaveIdle (nowMs : BitVec 64) {w : World} (h : w.manager.status.state = .active ∨ w.manager.status.state = .idle) :
    (leaveIdle nowMs w).manager.idling = { w.manager.idling with state := .active } := by
  unfold leaveIdle
  rcases h with hactive | hidle
  · rw [if_neg (by rw [hactive]; decide), ← hactive]
    rfl
  · rw [if_pos hidle]
    rfl

theorem idling_deadline {m : Manager} (h : m.idling.Calm) : powerManagerNextDeadline m = m.idling.deadline := by
  obtain ⟨hfinalized, -, -, hstate, hautomatic⟩ := h
  have hfinalized : m.finalized = true := hfinalized
  have hautomatic : m.status.policy.automaticSuspend = false := hautomatic
  have hstate : m.status.state = .active ∨ m.status.state = .idle := hstate
  unfold powerManagerNextDeadline Idling.deadline
  rw [if_neg (by rw [hfinalized]; decide)]
  rcases hstate with hactive | hidle
  · simp [Manager.idling, hactive]
  · simp [Manager.idling, hidle, idleDeadline, hautomatic]

/-- A manager that is calm does not shut down. -/
theorem running_of_calm {m : Manager} (h : m.idling.Calm) : ¬(m.finalized = false ∨ m.status.state = .shuttingDown) := by
  have hfinalized : m.finalized = true := h.finalized
  have hstate : m.status.state = .active ∨ m.status.state = .idle := h.state
  rcases hstate with hstate | hstate <;> simp [hfinalized, hstate]

theorem idling_setDimInhibitors {w : World} (h : w.manager.idling.Calm) (inhibitors : BitVec 32) (nowMs : BitVec 64) :
    (powerManagerSetDimInhibitors env inhibitors nowMs w).manager.idling = w.manager.idling.inhibit inhibitors nowMs := by
  have hprevious : w.manager.idling.dimInhibitors = w.manager.status.dimInhibitors := rfl
  unfold powerManagerSetDimInhibitors Idling.inhibit
  rw [if_neg (running_of_calm h), hprevious]
  dsimp only
  split_ifs
  · rw [idling_restoreDisplay, idling_leaveIdle]
    · rfl
    · exact h.state
  · rw [idling_leaveIdle]
    · rfl
    · exact h.state
  · rfl

theorem idling_noticeActivity {w : World} (h : w.manager.idling.Calm) (nowMs : BitVec 64) :
    (noticeActivity env w.manager.activityRequested w.manager.activityMs nowMs
      (w.modify fun m => { m with suspendRequested := false, activityRequested := false })).manager.idling = w.manager.idling.notice := by
  have hsuspend : w.manager.suspendRequested = false := h.suspendRequested
  have hrequested : w.manager.idling.activityRequested = w.manager.activityRequested := rfl
  unfold noticeActivity Idling.notice
  rw [hrequested]
  cases hactivity : w.manager.activityRequested with
  | false => simp [Manager.idling, World.modify, hsuspend, hactivity]
  | true =>
    have hleft := idling_leaveIdle nowMs (w := (w.modify fun m => { m with suspendRequested := false, activityRequested := false }).modifyStatus
      fun s => { s with lastActivityMs := w.manager.activityMs }) h.state
    have hactive := congrArg Idling.state hleft
    have hactive : (leaveIdle nowMs ((w.modify fun m => { m with suspendRequested := false, activityRequested := false }).modifyStatus
      fun s => { s with lastActivityMs := w.manager.activityMs })).manager.status.state = .active := hactive
    rw [if_pos rfl, if_pos rfl]
    dsimp only
    rw [if_pos hactive, idling_restoreDisplay, hleft]
    simp [Manager.idling, World.modify, World.modifyStatus, Idling.lit, hsuspend]

theorem idling_noticeDeadline {w : World} (h : w.manager.idling.Calm) (nowMs : BitVec 64) :
    (noticeDeadline env true nowMs w).1 = false ∧
      (noticeDeadline env true nowMs w).2.manager.idling = w.manager.idling.tick nowMs := by
  have hstate : w.manager.status.state = .active ∨ w.manager.status.state = .idle := h.state
  have hautomatic : w.manager.idling.policy.automaticSuspend = false := h.automatic
  unfold noticeDeadline Idling.tick
  rw [idling_deadline h]
  by_cases hreached : w.manager.idling.deadline ≤ nowMs
  · have happlied : ∀ w1 : World, w1.manager.idling = { w.manager.idling with state := .idle } →
        (applyIdleDisplay env nowMs w1).manager.idling = { w.manager.idling with
          state := .idle
          screenOffRequested := w.manager.idling.reached nowMs w.manager.idling.policy.screenOffMs
          panelOffRequested := w.manager.idling.reached nowMs w.manager.idling.policy.panelOffMs } := by
      intro w1 hw1
      have hpolicy : w1.manager.status.policy = w.manager.idling.policy := congrArg Idling.policy hw1
      rw [idling_applyIdleDisplay, hw1, hpolicy]
      rfl
    have hidle : ∃ w1 : World, w1.manager.idling = { w.manager.idling with state := .idle } ∧
        (if w.manager.status.state = .active then
            applyIdleDisplay env nowMs (w.modifyStatus fun s => { s with state := .idle, reason := .inactivity, stateChangedMs := nowMs })
          else if w.manager.status.state = .idle then applyIdleDisplay env nowMs w else w) = applyIdleDisplay env nowMs w1 := by
      rcases hstate with hactive | hidle
      · exact ⟨_, rfl, if_pos hactive⟩
      · refine ⟨w, ?_, ?_⟩
        · rw [← hidle]
          rfl
        · rw [if_neg (by rw [hidle]; decide), if_pos hidle]
    obtain ⟨w1, hw1, heq⟩ := hidle
    have hpolicy := congrArg (fun s => s.policy.automaticSuspend) (happlied w1 hw1)
    rw [if_pos ⟨rfl, hreached⟩, if_pos hreached]
    dsimp only
    rw [heq, happlied w1 hw1]
    refine ⟨?_, rfl⟩
    have hnot : (applyIdleDisplay env nowMs w1).manager.status.policy.automaticSuspend = false := hpolicy.trans hautomatic
    rw [hnot, Bool.and_false, Bool.false_and]
  · rw [if_neg fun hboth => hreached hboth.2, if_neg hreached]
    exact ⟨rfl, rfl⟩

/-- A manager that is calm has nothing else to do in an update. -/
theorem idling_rest (power : Bool) (nowMs : BitVec 64) {w : World} (h : w.manager.idling.Calm) :
    drive env nowMs (serveRequest env false nowMs (noticeWake env power nowMs w)) = w := by
  have hstate : w.manager.status.state = .active ∨ w.manager.status.state = .idle := h.state
  have hwake : noticeWake env power nowMs w = w := by
    refine if_neg fun hboth => ?_
    rcases hstate with hactive | hidle
    · cases hactive.symm.trans hboth.1
    · cases hidle.symm.trans hboth.1
  have hserve : serveRequest env false nowMs w = w := if_neg Bool.false_ne_true
  rw [hwake, hserve]
  exact (drive_of_phase_none env nowMs h.phase).1

/-- An update, where nobody calls the manager meanwhile. -/
theorem idling_update (hcalls : env.calls = fun _ => []) (deadline power : Bool) (nowMs : BitVec 64) {w : World}
    (h : w.manager.idling.Calm) :
    (powerManagerUpdate env deadline power nowMs w).manager.idling =
      if deadline then w.manager.idling.notice.tick nowMs else w.manager.idling.notice := by
  have hmeanwhile : meanwhile env w = w.ask := by simp [meanwhile, hcalls]
  have hask : w.ask.manager.idling.Calm := h
  have hrequest : w.ask.manager.suspendRequested = false := h.suspendRequested
  have hnotice := idling_noticeActivity env hask nowMs
  have hcalm : (noticeActivity env w.ask.manager.activityRequested w.ask.manager.activityMs nowMs
      (w.ask.modify fun m => { m with suspendRequested := false, activityRequested := false })).manager.idling.Calm :=
    hnotice ▸ hask.notice
  unfold powerManagerUpdate
  rw [if_neg (running_of_calm h)]
  dsimp only
  rw [hmeanwhile, hrequest, Bool.false_or]
  generalize noticeActivity env w.ask.manager.activityRequested w.ask.manager.activityMs nowMs
    (w.ask.modify fun m => { m with suspendRequested := false, activityRequested := false }) = w1 at *
  have hw1 : w1.manager.idling = w.manager.idling.notice := hnotice
  cases deadline with
  | false =>
    have hdeadline : noticeDeadline env false nowMs w1 = (false, w1) := if_neg fun hboth => Bool.false_ne_true hboth.1
    rw [hdeadline, idling_rest env power nowMs hcalm]
    exact hw1
  | true =>
    obtain ⟨hsuspend, htick⟩ := idling_noticeDeadline env hcalm nowMs
    rw [hsuspend, idling_rest env power nowMs (htick ▸ hcalm.tick nowMs), htick, hw1]
    rfl

/-- The kernel looks at the clock when it passes by the manager. -/
theorem idling_look (hcalls : env.calls = fun _ => []) (inhibitors : BitVec 32) (activity deadline power : Bool) (nowMs : BitVec 64)
    {w : World} (h : w.manager.idling.Calm) :
    (powerManagerUpdate env deadline power nowMs
      (if activity then powerManagerRequestActivity nowMs (powerManagerSetDimInhibitors env inhibitors nowMs w)
        else powerManagerSetDimInhibitors env inhibitors nowMs w)).manager.idling =
      w.manager.idling.look inhibitors activity deadline nowMs := by
  have hinhibit := idling_setDimInhibitors env h inhibitors nowMs
  have hrequest : (if activity then powerManagerRequestActivity nowMs (powerManagerSetDimInhibitors env inhibitors nowMs w)
      else powerManagerSetDimInhibitors env inhibitors nowMs w).manager.idling =
      (w.manager.idling.inhibit inhibitors nowMs).request activity nowMs := by
    rw [← hinhibit]
    cases activity <;> rfl
  have hcalm := (h.inhibit inhibitors nowMs).request activity nowMs
  rw [idling_update env hcalls deadline power nowMs (hrequest ▸ hcalm), hrequest]
  rfl

end Power
end TabOS
