import TabOS.Library.Monitor
import TabOS.Library.Run
import TabOS.Net.Service

/-!
# The retry discipline

The attempts since the last explicit connect are counted by the service, and the retry timer is armed only while there are fewer than
three of them and there was no disconnect. A monitor of the log says the same of every attempt that was made.
-/

namespace TabOS
namespace Net

open Library

/-- Whether an event is a call of `platform_network_connect`. -/
def Event.isAttempt : Event → Bool
  | .attempt _ _ => true
  | _ => false

/-- The calls of `platform_network_connect`. -/
def attempts (log : List Event) : Nat := log.countP Event.isAttempt

/-- The explicit connects and the automatic one. -/
def connects (log : List Event) : Nat := log.count .explicit + log.count .automatic

/-- What happened since the last explicit connect. -/
def sinceExplicit (log : List Event) : List Event := log.takeWhile (· ≠ .explicit)

/-! ## The monitor -/

/-- The time since the last explicit connect, or since the start: the attempts made in it, and whether there was a disconnect. -/
structure Period where
  attempts : Nat
  disconnected : Bool
  deriving DecidableEq, Repr

namespace Period

def initial : Period := ⟨0, false⟩

def observe (period : Period) : Event → Period
  | .automatic => period
  | .explicit => initial
  | .disconnected => { period with disconnected := true }
  | .attempt _ _ => { period with attempts := period.attempts + 1 }

/-- An attempt is one of three, and there was no disconnect before it. -/
def Allows (period : Period) : Event → Prop
  | .attempt _ _ => period.attempts < autoconnectAttempts ∧ period.disconnected = false
  | _ => True

end Period

/-- The period in which a log ends. -/
def period (log : List Event) : Period := watch Period.observe .initial log

/-- Every attempt was allowed when it was made. -/
def Sound (log : List Event) : Prop := Always Period.observe .initial Period.Allows log

@[simp] theorem period_cons (event : Event) (log : List Event) : period (event :: log) = (period log).observe event := rfl

theorem sound_cons (event : Event) (log : List Event) : Sound (event :: log) ↔ (period log).Allows event ∧ Sound log := Iff.rfl

@[simp] theorem attempts_append (later earlier : List Event) : attempts (later ++ earlier) = attempts later + attempts earlier :=
  List.countP_append

/-- The attempts of a period are those since the last explicit connect. -/
theorem attempts_sinceExplicit (log : List Event) : attempts (sinceExplicit log) = (period log).attempts := by
  induction log with
  | nil => rfl
  | cons event log ih =>
    cases event with
    | explicit => rfl
    | automatic => exact ih
    | disconnected => exact ih
    | attempt ssid password =>
      show attempts (.attempt ssid password :: sinceExplicit log) = (period log).attempts + 1
      rw [← ih]
      exact List.countP_cons_of_pos rfl

theorem disconnected_mem_sinceExplicit (log : List Event) :
    .disconnected ∈ sinceExplicit log ↔ (period log).disconnected = true := by
  induction log with
  | nil => exact ⟨fun h => absurd h List.not_mem_nil, fun h => absurd h Bool.false_ne_true⟩
  | cons event log ih =>
    cases event with
    | explicit => exact ⟨fun h => absurd h List.not_mem_nil, fun h => absurd h Bool.false_ne_true⟩
    | automatic =>
      show .disconnected ∈ .automatic :: sinceExplicit log ↔ (period log).disconnected = true
      rw [← ih, List.mem_cons]
      exact ⟨fun h => h.resolve_left Event.noConfusion, Or.inr⟩
    | disconnected => exact ⟨fun _ => rfl, fun _ => List.mem_cons_self⟩
    | attempt ssid password =>
      show .disconnected ∈ .attempt ssid password :: sinceExplicit log ↔ (period log).disconnected = true
      rw [← ih, List.mem_cons]
      exact ⟨fun h => h.resolve_left Event.noConfusion, Or.inr⟩

/-- Without an explicit connect the period goes on. -/
theorem attempts_le_period {span : List Event} (earlier : List Event) (hspan : .explicit ∉ span) :
    attempts span ≤ (period (span ++ earlier)).attempts := by
  rw [← attempts_sinceExplicit, sinceExplicit, List.takeWhile_append_of_pos, attempts_append]
  · omega
  · intro event hmem
    exact decide_eq_true fun h => hspan (h ▸ hmem)

theorem disconnected_period {span earlier : List Event} (hspan : .explicit ∉ span) :
    (period (span ++ .disconnected :: earlier)).disconnected = true := by
  rw [← disconnected_mem_sinceExplicit, sinceExplicit, List.takeWhile_append_of_pos]
  · exact List.mem_append_right _ List.mem_cons_self
  · intro event hmem
    exact decide_eq_true fun h => hspan (h ▸ hmem)

/-- A period has at most three attempts. -/
theorem Sound.attempts_le {log : List Event} (h : Sound log) : (period log).attempts ≤ autoconnectAttempts := by
  induction log with
  | nil => exact Nat.zero_le _
  | cons event log ih =>
    obtain ⟨hevent, hlog⟩ := (sound_cons event log).1 h
    cases event with
    | explicit => exact Nat.zero_le _
    | automatic => exact ih hlog
    | disconnected => exact ih hlog
    | attempt ssid password => exact hevent.1

/-- There is no attempt between a disconnect and the next explicit connect. -/
theorem Sound.attempts_eq_zero {span earlier : List Event} (h : Sound (span ++ .disconnected :: earlier))
    (hspan : .explicit ∉ span) : attempts span = 0 := by
  induction span with
  | nil => rfl
  | cons event span ih =>
    obtain ⟨hevent, hlog⟩ := (sound_cons event _).1 h
    have hrest : .explicit ∉ span := fun hmem => hspan (List.mem_cons_of_mem _ hmem)
    cases event with
    | explicit => exact absurd List.mem_cons_self hspan
    | automatic => exact ih hlog hrest
    | disconnected => exact ih hlog hrest
    | attempt ssid password =>
      have hdisconnected : (period (span ++ .disconnected :: earlier)).disconnected = true := disconnected_period hrest
      exact absurd (hdisconnected.symm.trans hevent.2) (by decide)

/-! ## The invariant -/

/-- The service counts the attempts of its period, suppresses retries after a disconnect, and arms the timer only when an attempt would be
allowed. -/
structure Disciplined (service : Service) : Prop where
  sound : Sound service.log
  attempts : service.current.attempts = (period service.log).attempts
  suppressed : (period service.log).disconnected = true → service.retrySuppressed = true
  timer : service.retryTimer.active = true →
    service.retryTimer.interval = 0 ∧ service.retrySuppressed = false ∧ service.current.attempts < autoconnectAttempts

variable {service : Service}

/-- The invariant reads the attempts, the flag, the timer and the log. -/
theorem Disciplined.congr {service' : Service} (h : Disciplined service)
    (hattempts : service'.current.attempts = service.current.attempts)
    (hsuppressed : service'.retrySuppressed = service.retrySuppressed) (htimer : service'.retryTimer = service.retryTimer)
    (hlog : service'.log = service.log) : Disciplined service' := by
  obtain ⟨hsound, hcount, hflag, harmed⟩ := h
  refine ⟨?_, ?_, ?_, ?_⟩
  · rw [hlog]
    exact hsound
  · rw [hattempts, hlog]
    exact hcount
  · rw [hlog, hsuppressed]
    exact hflag
  · rw [htimer, hsuppressed, hattempts]
    exact harmed

theorem Disciplined.setFailure (h : Disciplined service) (failure : List UInt8) : Disciplined (setFailure failure service) :=
  h.congr rfl rfl rfl rfl

/-- An attempt is made with the timer disarmed and no disconnect before it. -/
theorem Disciplined.performAttempt (h : Disciplined service) (hdisconnected : (period service.log).disconnected = false)
    (htimer : service.retryTimer.active = false) (accepted : Bool) : Disciplined (performAttempt accepted service).2 := by
  unfold Net.performAttempt prepareAttempt
  split
  · rename_i service' hprepare
    split at hprepare
    · obtain ⟨-, rfl⟩ := Prod.mk.inj hprepare
      exact h.setFailure _
    · exact absurd (Prod.mk.inj hprepare).1 (Option.some_ne_none _)
  · rename_i ssid password service' hprepare
    split at hprepare
    · exact absurd (Prod.mk.inj hprepare).1.symm (Option.some_ne_none _)
    · rename_i hroom
      obtain ⟨hcredentials, rfl⟩ := Prod.mk.inj hprepare
      have hlt : service.current.attempts < autoconnectAttempts := by omega
      have hmade : Disciplined { service with
          current := { service.current with attempts := service.current.attempts + 1, state := .connecting, lastFailure := [] }
          log := .attempt ssid password :: service.log } := by
        refine ⟨⟨⟨h.attempts ▸ hlt, hdisconnected⟩, h.sound⟩, congrArg (· + 1) h.attempts, h.suppressed, ?_⟩
        intro hactive
        exact absurd (htimer.symm.trans hactive) (by decide)
      dsimp only
      split
      · exact hmade.setFailure _
      · exact hmade

theorem Disciplined.takeStatus (h : Disciplined service) (status : Option PlatformStatus) (now : Nat) :
    Disciplined (takeStatus status now service) := by
  unfold Net.takeStatus
  split
  · exact h.setFailure _
  · rename_i status
    split
    · refine ⟨h.sound, h.attempts, h.suppressed, ?_⟩
      intro hactive
      exact absurd hactive Bool.false_ne_true
    · split
      · exact h.congr rfl rfl rfl rfl
      · split
        · rename_i hfailed
          have hfailure := h.setFailure status.failure
          dsimp only
          split
          · rename_i harmed
            refine ⟨hfailure.sound, hfailure.attempts, hfailure.suppressed, fun _ => ⟨rfl, hfailed.2, harmed.2⟩⟩
          · exact hfailure
        · split
          · exact h.congr rfl rfl rfl rfl
          · exact h

theorem Disciplined.readStatus (h : Disciplined service) (status : Option PlatformStatus) (now : Nat) :
    Disciplined (readStatus status now service) := by
  have hread : Disciplined { service with statusPending := false } := h.congr rfl rfl rfl rfl
  unfold Net.readStatus
  dsimp only
  split
  · exact hread.takeStatus status now
  · exact hread

/-- A poll that finds the timer due disarms it before the attempt. -/
theorem Disciplined.pollRetry (h : Disciplined service) (time : Nat) (accepted : Bool) :
    Disciplined (pollRetry time accepted service) := by
  unfold Net.pollRetry
  dsimp only
  cases hfires : service.retryTimer.fires time with
  | false =>
    have hpoll : service.retryTimer.poll time = service.retryTimer := if_pos hfires
    rw [hpoll]
    exact h
  | true =>
    have hactive : service.retryTimer.active = true := (Bool.and_eq_true_iff.1 hfires).1
    obtain ⟨hinterval, hsuppressed, -⟩ := h.timer hactive
    have hpoll : service.retryTimer.poll time = { service.retryTimer with active := false } := by
      unfold Timer.poll
      rw [if_neg (by rw [hfires]; decide), if_pos hinterval]
    have hdisconnected : (period service.log).disconnected = false := by
      rw [Bool.eq_false_iff]
      intro hdisconnected
      exact absurd (hsuppressed.symm.trans (h.suppressed hdisconnected)) (by decide)
    have hdisarmed : Disciplined { service with retryTimer := { service.retryTimer with active := false } } :=
      ⟨h.sound, h.attempts, h.suppressed, fun hagain => absurd hagain Bool.false_ne_true⟩
    rw [hpoll]
    exact hdisarmed.performAttempt hdisconnected rfl accepted

/-! ## The operations -/

/-- Before the start there is no event. -/
def Quiet (service : Service) : Prop := service.initialized = false → service.log = []

theorem Disciplined.networkServiceInit (h : Disciplined service) (hquiet : Quiet service)
    (start : Start) : Disciplined (networkServiceInit start service).2 := by
  unfold Net.networkServiceInit
  split
  · exact h
  · rename_i hinitialized
    have hempty : service.log = [] := hquiet (Bool.eq_false_iff.2 hinitialized)
    split
    · exact h
    · have hfresh : ∀ (current : NetworkStatus) (password : List UInt8) (log : List Event), current.attempts = 0 → Sound log →
          period log = .initial → Disciplined { service with
            current := current, password := password, retryTimer := .cancelled, retrySuppressed := false, log := log } := by
        intro current password log hattempts hsound hperiod
        refine ⟨hsound, ?_, ?_, fun hactive => absurd hactive Bool.false_ne_true⟩
        · rw [hperiod]
          exact hattempts
        · rw [hperiod]
          exact fun hdisconnected => absurd hdisconnected Bool.false_ne_true
      have hstarted : ∀ current : NetworkStatus, ∀ password, current.attempts = 0 → Disciplined { service with
          current := current, password := password, retryTimer := .cancelled, retrySuppressed := false } := by
        intro current password hattempts
        refine hfresh current password service.log hattempts ?_ ?_
        · rw [hempty]
          trivial
        · rw [hempty]
          rfl
      dsimp only
      split
      · exact ((hstarted _ service.password rfl).setFailure _).congr rfl rfl rfl rfl
      · split
        · exact ((hstarted _ service.password rfl).setFailure _).congr rfl rfl rfl rfl
        · split
          · rename_i config _
            split
            · refine ((hfresh _ _ (.automatic :: service.log) ?_ ?_ ?_).performAttempt ?_ rfl _).congr rfl rfl rfl rfl
              · rfl
              · rw [hempty]
                exact ⟨trivial, trivial⟩
              · rw [hempty]
                rfl
              · show (period (.automatic :: service.log)).disconnected = false
                rw [hempty]
                rfl
            · exact (hstarted _ (copyText (passwordMax + 1) config.password) rfl).congr rfl rfl rfl rfl
          · exact (hstarted _ service.password rfl).congr rfl rfl rfl rfl
          · exact (hstarted _ service.password rfl).congr rfl rfl rfl rfl
          · exact (hstarted _ service.password rfl).congr rfl rfl rfl rfl

theorem Disciplined.networkServiceConnect (h : Disciplined service) (ssid password : Option (List UInt8)) (automatic accepted : Bool) :
    Disciplined (networkServiceConnect ssid password automatic accepted service).2 := by
  unfold Net.networkServiceConnect
  split
  · exact h
  · split
    · exact h
    · have htold : ∀ current password, current.attempts = 0 → Disciplined { service with
          current := current, password := password, retryTimer := .cancelled, retrySuppressed := false
          log := .explicit :: service.log } := by
        intro current password hattempts
        refine ⟨⟨trivial, h.sound⟩, hattempts, ?_, ?_⟩
        · exact fun hdisconnected => absurd hdisconnected Bool.false_ne_true
        · exact fun hactive => absurd hactive Bool.false_ne_true
      exact (htold _ _ rfl).performAttempt rfl rfl accepted

theorem Disciplined.networkServiceDisconnect (h : Disciplined service) (disconnected : Bool) :
    Disciplined (networkServiceDisconnect disconnected service).2 := by
  unfold Net.networkServiceDisconnect
  split
  · exact h
  · have htold : Disciplined { service with
        current := { service.current with state := .disconnecting }, retryTimer := .cancelled, retrySuppressed := true
        log := .disconnected :: service.log } :=
      ⟨⟨trivial, h.sound⟩, h.attempts, fun _ => rfl, fun hactive => absurd hactive Bool.false_ne_true⟩
    dsimp only
    split
    · exact htold.setFailure _
    · exact htold.congr rfl rfl rfl rfl

theorem Disciplined.networkServiceUpdate (h : Disciplined service) (reading : Reading) :
    Disciplined (networkServiceUpdate reading service) := by
  unfold Net.networkServiceUpdate
  split
  · exact h
  · exact (h.readStatus reading.status reading.now).pollRetry reading.pollTime reading.accepted

theorem performAttempt_initialized (accepted : Bool) (service : Service) :
    (performAttempt accepted service).2.initialized = service.initialized := by
  unfold performAttempt prepareAttempt
  by_cases hroom : service.current.ssid = [] ∨ service.current.attempts ≥ autoconnectAttempts
  · rw [if_pos hroom]
    rfl
  · rw [if_neg hroom]
    dsimp only
    split <;> rfl

theorem takeStatus_initialized (status : Option PlatformStatus) (now : Nat) (service : Service) :
    (takeStatus status now service).initialized = service.initialized := by
  unfold takeStatus
  dsimp only
  repeat' split
  all_goals rfl

theorem readStatus_initialized (status : Option PlatformStatus) (now : Nat) (service : Service) :
    (readStatus status now service).initialized = service.initialized := by
  unfold readStatus
  dsimp only
  split
  · exact takeStatus_initialized _ _ _
  · rfl

theorem pollRetry_initialized (time : Nat) (accepted : Bool) (service : Service) :
    (pollRetry time accepted service).initialized = service.initialized := by
  unfold pollRetry
  dsimp only
  split
  · exact performAttempt_initialized _ _
  · rfl

/-- A service that is started stays so. -/
theorem initialized_step (h : service.initialized = true) (operation : Operation) : (step service operation).initialized = true := by
  have hnot : ¬service.initialized = false := by
    rw [h]
    decide
  cases operation with
  | start start =>
    show (networkServiceInit start service).2.initialized = true
    unfold networkServiceInit
    rw [if_pos h]
    exact h
  | event => exact h
  | connect ssid password automatic accepted =>
    show (networkServiceConnect ssid password automatic accepted service).2.initialized = true
    unfold networkServiceConnect
    split
    · exact h
    · rw [if_neg hnot]
      exact (performAttempt_initialized _ _).trans h
  | disconnect disconnected =>
    show (networkServiceDisconnect disconnected service).2.initialized = true
    unfold networkServiceDisconnect
    rw [if_neg hnot]
    dsimp only
    split <;> exact h
  | update reading =>
    show (networkServiceUpdate reading service).initialized = true
    unfold networkServiceUpdate
    rw [if_neg hnot]
    exact (pollRetry_initialized _ _ _).trans ((readStatus_initialized _ _ _).trans h)

/-- Nothing happens to the connection before the start. -/
theorem log_step_of_unstarted (h : service.initialized = false) (operation : Operation) :
    (step service operation).initialized = true ∨ (step service operation).log = service.log := by
  cases operation with
  | start start =>
    show (networkServiceInit start service).2.initialized = true ∨ (networkServiceInit start service).2.log = service.log
    unfold networkServiceInit
    rw [if_neg (by rw [h]; decide)]
    by_cases hmutexes : start.mutexes = false
    · rw [if_pos hmutexes]
      exact Or.inr rfl
    · rw [if_neg hmutexes]
      left
      dsimp only
      repeat' split
      all_goals rfl
  | event => exact Or.inr rfl
  | connect ssid password automatic accepted =>
    right
    show (networkServiceConnect ssid password automatic accepted service).2.log = service.log
    unfold networkServiceConnect
    split
    · rfl
    · rw [if_pos h]
  | disconnect disconnected =>
    right
    show (networkServiceDisconnect disconnected service).2.log = service.log
    unfold networkServiceDisconnect
    rw [if_pos h]
  | update reading =>
    right
    show (networkServiceUpdate reading service).log = service.log
    unfold networkServiceUpdate
    rw [if_pos h]

theorem Quiet.step (h : Quiet service) (operation : Operation) : Quiet (step service operation) := by
  intro hafter
  cases hinitialized : service.initialized with
  | false =>
    rcases log_step_of_unstarted hinitialized operation with hstarted | hlog
    · exact absurd (hafter.symm.trans hstarted) (by decide)
    · exact hlog.trans (h hinitialized)
  | true => exact absurd (hafter.symm.trans (initialized_step hinitialized operation)) (by decide)

theorem Disciplined.step (h : Disciplined service) (hquiet : Quiet service) (operation : Operation) :
    Disciplined (step service operation) := by
  cases operation with
  | start start => exact h.networkServiceInit hquiet start
  | event => exact h.congr rfl rfl rfl rfl
  | connect ssid password automatic accepted => exact h.networkServiceConnect ssid password automatic accepted
  | disconnect disconnected => exact h.networkServiceDisconnect disconnected
  | update reading => exact h.networkServiceUpdate reading

/-- Every state that a run reaches is disciplined. -/
theorem disciplined_run (operations : List Operation) :
    Disciplined (operations.foldl step .unstarted) ∧ Quiet (operations.foldl step .unstarted) := by
  refine foldl_invariant (fun service => Disciplined service ∧ Quiet service) ?_ operations ?_
  · intro service operation h
    exact ⟨h.1.step h.2 operation, h.2.step operation⟩
  · refine ⟨⟨trivial, rfl, ?_, ?_⟩, fun _ => rfl⟩
    · exact fun hdisconnected => absurd hdisconnected Bool.false_ne_true
    · exact fun hactive => absurd hactive Bool.false_ne_true

/-! ## The number of attempts -/

/-- The platform says that it is connecting only after it was told to connect. -/
def ConnectsFirst (service : Service) : Operation → Prop
  | .update reading =>
    service.statusPending = true → reading.status.map PlatformStatus.state = some .connecting → attempts service.log ≠ 0
  | _ => True

/-- The attempts fit into three for each connect, of which the current one has some left. -/
def Counted (service : Service) : Prop := attempts service.log + autoconnectAttempts ≤
  autoconnectAttempts * connects service.log + service.current.attempts

/-- Nothing was attempted, and nothing will be by itself. -/
structure Untouched (service : Service) : Prop where
  attempts : attempts service.log = 0
  state : service.current.state ≠ .connecting
  timer : service.retryTimer.active = false

theorem Counted.performAttempt (h : Counted service) (accepted : Bool) : Counted (performAttempt accepted service).2 := by
  unfold Net.performAttempt prepareAttempt
  by_cases hroom : service.current.ssid = [] ∨ service.current.attempts ≥ autoconnectAttempts
  · rw [if_pos hroom]
    exact h
  · rw [if_neg hroom]
    have hmade : ∀ ssid password, Counted { service with
        current := { service.current with attempts := service.current.attempts + 1, state := .connecting, lastFailure := [] }
        log := .attempt ssid password :: service.log } := by
      intro ssid password
      have hcount : attempts (.attempt ssid password :: service.log) = attempts service.log + 1 := List.countP_cons_of_pos rfl
      have hconnects : connects (.attempt ssid password :: service.log) = connects service.log := by
        simp [connects]
      unfold Counted at h ⊢
      dsimp only
      rw [hcount, hconnects]
      omega
    dsimp only
    split
    · exact hmade _ _
    · exact hmade _ _

/-- A status says nothing of the attempts. -/
theorem takeStatus_log (status : Option PlatformStatus) (now : Nat) (service : Service) :
    (takeStatus status now service).log = service.log ∧
    (takeStatus status now service).current.attempts = service.current.attempts := by
  unfold takeStatus
  dsimp only
  repeat' split
  all_goals exact ⟨rfl, rfl⟩

theorem readStatus_log (status : Option PlatformStatus) (now : Nat) (service : Service) :
    (readStatus status now service).log = service.log ∧
    (readStatus status now service).current.attempts = service.current.attempts := by
  unfold readStatus
  dsimp only
  split
  · exact takeStatus_log _ _ _
  · exact ⟨rfl, rfl⟩

theorem Counted.pollRetry (h : Counted service) (time : Nat) (accepted : Bool) : Counted (pollRetry time accepted service) := by
  unfold Net.pollRetry
  dsimp only
  split
  · have hpolled : Counted { service with retryTimer := service.retryTimer.poll time } := h
    exact hpolled.performAttempt accepted
  · exact h

/-- A status other than a premature one leaves a service alone that was not told to connect. -/
theorem Untouched.readStatus (h : Untouched service) {status : Option PlatformStatus}
    (hstatus : service.statusPending = true → status.map PlatformStatus.state ≠ some .connecting) (now : Nat) :
    Untouched (readStatus status now service) := by
  obtain ⟨hattempts, hstate, htimer⟩ := h
  unfold Net.readStatus
  dsimp only
  split
  · rename_i hpending
    cases status with
    | none => exact ⟨hattempts, NetworkState.noConfusion, htimer⟩
    | some status =>
      have hnot : status.state ≠ .connecting := fun hconnecting => hstatus hpending (congrArg some hconnecting)
      show Untouched (takeStatus (some status) now _)
      unfold takeStatus
      dsimp only
      by_cases honline : status.state = .online
      · rw [if_pos honline]
        exact ⟨hattempts, NetworkState.noConfusion, rfl⟩
      · rw [if_neg honline, if_neg hnot]
        split
        · rw [if_neg fun hfailed => hstate (of_decide_eq_true hfailed.1)]
          exact ⟨hattempts, NetworkState.noConfusion, htimer⟩
        · split
          · exact ⟨hattempts, NetworkState.noConfusion, htimer⟩
          · exact ⟨hattempts, hstate, htimer⟩
  · exact ⟨hattempts, hstate, htimer⟩

theorem Untouched.pollRetry (h : Untouched service) (time : Nat) (accepted : Bool) :
    Untouched (pollRetry time accepted service) := by
  have hfires : service.retryTimer.fires time = false := by
    rw [Timer.fires, h.timer]
    rfl
  have hpoll : service.retryTimer.poll time = service.retryTimer := if_pos hfires
  unfold Net.pollRetry
  dsimp only
  rw [hfires, hpoll]
  exact h

/-- The start makes an attempt only after it took note of the automatic connect. -/
theorem counted_networkServiceInit (hlog : service.log = []) (hstart : service.initialized = false) {start : Start}
    (hmutexes : start.mutexes = true) :
    Counted (networkServiceInit start service).2 ∨ Untouched (networkServiceInit start service).2 := by
  have hnone : attempts service.log = 0 := by
    rw [hlog]
    rfl
  unfold networkServiceInit
  rw [if_neg (by rw [hstart]; decide), if_neg (by rw [hmutexes]; decide)]
  dsimp only
  split
  · exact Or.inr ⟨hnone, NetworkState.noConfusion, rfl⟩
  · split
    · exact Or.inr ⟨hnone, NetworkState.noConfusion, rfl⟩
    · split
      · split
        · left
          refine Counted.performAttempt ?_ start.accepted
          show attempts (.automatic :: service.log) + 3 ≤ 3 * connects (.automatic :: service.log) + 0
          rw [hlog]
          decide
        · exact Or.inr ⟨hnone, NetworkState.noConfusion, rfl⟩
      · exact Or.inr ⟨hnone, NetworkState.noConfusion, rfl⟩
      · exact Or.inr ⟨hnone, NetworkState.noConfusion, rfl⟩
      · exact Or.inr ⟨hnone, NetworkState.noConfusion, rfl⟩

/-- An explicit connect has three attempts more. -/
theorem counted_networkServiceConnect (h : Counted service ∨ Untouched service)
    (hattempts : service.current.attempts ≤ autoconnectAttempts)
    (ssid password : Option (List UInt8)) (automatic accepted : Bool) :
    Counted (networkServiceConnect ssid password automatic accepted service).2 ∨
    Untouched (networkServiceConnect ssid password automatic accepted service).2 := by
  have hcount : attempts service.log ≤ autoconnectAttempts * connects service.log := by
    rcases h with hcounted | huntouched
    · unfold Counted at hcounted
      omega
    · rw [huntouched.attempts]
      exact Nat.zero_le _
  have hlog : attempts (.explicit :: service.log) = attempts service.log := List.countP_cons_of_neg Bool.false_ne_true
  have hconnects : connects (.explicit :: service.log) = connects service.log + 1 := by
    simp [connects]
    omega
  unfold networkServiceConnect
  split
  · exact h
  · split
    · exact h
    · left
      refine Counted.performAttempt ?_ accepted
      show attempts (.explicit :: service.log) + autoconnectAttempts ≤ autoconnectAttempts * connects (.explicit :: service.log) + 0
      rw [hlog, hconnects, Nat.mul_add]
      omega

theorem counted_networkServiceDisconnect (h : Counted service ∨ Untouched service) (disconnected : Bool) :
    Counted (networkServiceDisconnect disconnected service).2 ∨ Untouched (networkServiceDisconnect disconnected service).2 := by
  have hlog : attempts (.disconnected :: service.log) = attempts service.log := List.countP_cons_of_neg Bool.false_ne_true
  have hconnects : connects (.disconnected :: service.log) = connects service.log := by
    simp [connects]
  unfold networkServiceDisconnect
  split
  · exact h
  · rcases h with hcounted | huntouched
    · left
      unfold Counted at hcounted ⊢
      rw [← hlog, ← hconnects] at hcounted
      dsimp only
      split <;> exact hcounted
    · right
      have hnone := hlog.trans huntouched.attempts
      dsimp only
      split <;> exact ⟨hnone, NetworkState.noConfusion, rfl⟩

theorem counted_step (h : Counted service ∨ Untouched service) (hdisciplined : Disciplined service) (hquiet : Quiet service)
    (operation : Operation) (hguard : ConnectsFirst service operation) :
    Counted (step service operation) ∨ Untouched (step service operation) := by
  have hattempts : service.current.attempts ≤ autoconnectAttempts := by
    rw [hdisciplined.attempts]
    exact hdisciplined.sound.attempts_le
  cases operation with
  | start start =>
    by_cases hinit : service.initialized = false ∧ start.mutexes = true
    · exact counted_networkServiceInit (hquiet hinit.1) hinit.1 hinit.2
    · have hsame : (networkServiceInit start service).2 = service := by
        unfold networkServiceInit
        split
        · rfl
        · rename_i hnot
          rw [if_pos]
          rw [← Bool.not_eq_true]
          exact fun hmutexes => hinit ⟨Bool.eq_false_iff.2 hnot, hmutexes⟩
      show Counted (networkServiceInit start service).2 ∨ Untouched (networkServiceInit start service).2
      rw [hsame]
      exact h
  | event =>
    rcases h with hcounted | huntouched
    · exact Or.inl hcounted
    · exact Or.inr ⟨huntouched.attempts, huntouched.state, huntouched.timer⟩
  | connect ssid password automatic accepted => exact counted_networkServiceConnect h hattempts ssid password automatic accepted
  | disconnect disconnected => exact counted_networkServiceDisconnect h disconnected
  | update reading =>
    show Counted (networkServiceUpdate reading service) ∨ Untouched (networkServiceUpdate reading service)
    unfold networkServiceUpdate
    split
    · exact h
    · rcases h with hcounted | huntouched
      · left
        obtain ⟨hlog, hcount⟩ := readStatus_log reading.status reading.now service
        refine Counted.pollRetry ?_ _ _
        unfold Counted at hcounted ⊢
        rw [hlog, hcount]
        exact hcounted
      · right
        refine (huntouched.readStatus ?_ reading.now).pollRetry _ _
        exact fun hpending hconnecting => hguard hpending hconnecting huntouched.attempts

/-- When the platform says that it is connecting only after it was told to, there are at most three attempts for each connect. -/
theorem attempts_le_connects {operations : List Operation} (h : Along step ConnectsFirst .unstarted operations) :
    attempts (operations.foldl step .unstarted).log ≤ 3 * connects (operations.foldl step .unstarted).log := by
  have hrun := h.invariant (fun service => (Counted service ∨ Untouched service) ∧ Disciplined service ∧ Quiet service)
    (fun service operation hi hguard => ⟨counted_step hi.1 hi.2.1 hi.2.2 operation hguard, hi.2.1.step hi.2.2 operation,
      hi.2.2.step operation⟩)
    ⟨Or.inr ⟨rfl, NetworkState.noConfusion, rfl⟩, disciplined_run []⟩
  obtain ⟨hcount, hdisciplined, -⟩ := hrun
  rcases hcount with hcounted | huntouched
  · have hle := hdisciplined.sound.attempts_le
    rw [← hdisciplined.attempts] at hle
    unfold Counted autoconnectAttempts at hcounted
    unfold autoconnectAttempts at hle
    omega
  · rw [huntouched.attempts]
    exact Nat.zero_le _

/-- The retry discipline: at most three attempts from one explicit connect, or from the start, to the next; none between a disconnect
and the next explicit connect; the retry timer is armed only while fewer than three were made since the last explicit connect and there
was no disconnect since; and there are at most three for each explicit connect and for the automatic one, when the platform says that it
is connecting only after it was told to connect. -/
theorem retry_discipline (operations : List Operation) :
    let service := operations.foldl step .unstarted
    (∀ later span earlier, service.log = later ++ (span ++ earlier) → .explicit ∉ span → attempts span ≤ 3) ∧
    (∀ later span earlier, service.log = later ++ (span ++ .disconnected :: earlier) → .explicit ∉ span → attempts span = 0) ∧
    (service.retryTimer.active = true → attempts (sinceExplicit service.log) < 3 ∧ .disconnected ∉ sinceExplicit service.log) ∧
    (Along step ConnectsFirst .unstarted operations → attempts service.log ≤ 3 * connects service.log) := by
  intro service
  have hdisciplined : Disciplined service := (disciplined_run operations).1
  have hsound := hdisciplined.sound
  refine ⟨?_, ?_, ?_, attempts_le_connects⟩
  · intro later span earlier hlog hspan
    rw [hlog] at hsound
    exact (attempts_le_period earlier hspan).trans (Sound.attempts_le (Always.of_append hsound))
  · intro later span earlier hlog hspan
    rw [hlog] at hsound
    exact Sound.attempts_eq_zero (Always.of_append hsound) hspan
  · intro hactive
    obtain ⟨-, hsuppressed, hroom⟩ := hdisciplined.timer hactive
    refine ⟨?_, ?_⟩
    · rw [attempts_sinceExplicit, ← hdisciplined.attempts]
      exact hroom
    · intro hmem
      have hflag := hdisciplined.suppressed ((disconnected_mem_sinceExplicit _).1 hmem)
      exact absurd (hsuppressed.symm.trans hflag) (by decide)

/-- A service that is started with credentials but without an automatic connect, and a platform that says by itself that it is connecting
and that it failed. -/
def unbidden : List Operation :=
  [.start ⟨true, .ok ⟨[0x61], [], defaultName, false⟩, true, true, true⟩,
    .event, .update ⟨some ⟨.connecting, [], 0, []⟩, 0, 0, true⟩,
    .event, .update ⟨some ⟨.failed, [], 0, []⟩, 0, 0, true⟩,
    .update ⟨none, 0, 1000, true⟩]

/-- The service then makes an attempt for which there was neither an explicit connect nor the automatic one. -/
theorem attempt_of_unbidden :
    let log := (unbidden.foldl step .unstarted).log
    attempts log = 1 ∧ connects log = 0 ∧ ¬attempts log ≤ 3 * connects log := by
  decide

end Net
end TabOS
