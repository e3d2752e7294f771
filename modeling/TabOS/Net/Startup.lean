import TabOS.Library.Run

/-!
# Starting and stopping Wi-Fi

`platform/esp32p4/runtime.c` with `wifi_startup.c` and `wifi_driver.c`: a task of its own starts the driver while the kernel connects,
disconnects or shuts down, an atomic operation, a critical section or a call of the driver at a time. The network service makes one call at a
time. `esp` is what the driver's framework holds, to be compared with what `wifi_driver` says; `connects` is what the framework was told to
connect to. The IPv4 address and the text of the failure, which no branch reads, are left out.
-/

namespace TabOS
namespace Wifi

open Library

/-! ## The driver -/

/-- `tab5_wifi_driver_t`, and what the framework holds: the event loop that the driver created, the interface, Wi-Fi, its handlers, and
whether it was started. -/
structure Driver where
  eventLoopOwned : Bool
  netif : Bool
  wifiInitialized : Bool
  wifiHandler : Bool
  ipHandler : Bool
  wifiStarted : Bool
  deriving DecidableEq, Repr

def Driver.zero : Driver := ⟨false, false, false, false, false, false⟩

/-- What `esp_event_loop_create_default` returns: there is an event loop of the driver's, there was one before, or there is none. -/
inductive LoopResult where
  | created | present | failed
  deriving DecidableEq, Repr

/-- What the framework answers to the driver. -/
structure Answers where
  netifInit : Bool
  eventLoop : LoopResult
  netif : Bool
  hostname : Bool
  wifiInit : Bool
  wifiHandler : Bool
  ipHandler : Bool
  mode : Bool
  start : Bool

/-- `tab5_wifi_driver_shutdown`: what the driver says it has is given back. -/
def driverShutdown (driver esp : Driver) : Driver × Driver :=
  (.zero, {
    wifiStarted := esp.wifiStarted && !driver.wifiStarted
    ipHandler := esp.ipHandler && !driver.ipHandler
    wifiHandler := esp.wifiHandler && !driver.wifiHandler
    wifiInitialized := esp.wifiInitialized && !driver.wifiInitialized
    netif := esp.netif && !driver.netif
    eventLoopOwned := esp.eventLoopOwned && !driver.eventLoopOwned })

/-- `tab5_wifi_driver_init`. -/
def driverInit (answers : Answers) (esp : Driver) : Bool × Driver × Driver :=
  let refuse (driver esp : Driver) := (false, driverShutdown driver esp)
  let driver := Driver.zero
  if answers.netifInit = false then (false, driver, esp)
  else if answers.eventLoop = .failed then refuse driver esp
  else
    let owned := decide (answers.eventLoop = .created)
    let (driver, esp) := ({ driver with eventLoopOwned := owned }, { esp with eventLoopOwned := owned })
    if answers.netif = false then refuse driver esp
    else
      let (driver, esp) := ({ driver with netif := true }, { esp with netif := true })
      if answers.hostname = false then refuse driver esp
      else if answers.wifiInit = false then refuse driver esp
      else
        let (driver, esp) := ({ driver with wifiInitialized := true }, { esp with wifiInitialized := true })
        if answers.wifiHandler = false then refuse driver esp
        else
          let (driver, esp) := ({ driver with wifiHandler := true }, { esp with wifiHandler := true })
          if answers.ipHandler = false then refuse driver esp
          else
            let (driver, esp) := ({ driver with ipHandler := true }, { esp with ipHandler := true })
            if answers.mode = false then refuse driver esp
            else
              let driver := { driver with wifiStarted := true }
              if answers.start = false then refuse driver esp
              else (true, driver, { esp with wifiStarted := true })

/-! ## The kernel and the startup task -/

/-- `platform_network_state_t`. -/
inductive NetworkState where
  | offline | starting | connecting | online | failed
  deriving DecidableEq, Repr

/-- `wifi_ssid` and `wifi_password`. -/
structure Credentials where
  ssid : List UInt8
  password : List UInt8
  deriving DecidableEq, Repr

def Credentials.fits (c : Credentials) : Prop := c.ssid.length ≤ 32 ∧ c.password.length ≤ 64

instance (c : Credentials) : Decidable c.fits := inferInstanceAs (Decidable (_ ∧ _))

/-- Where the kernel is: outside; in `platform_network_connect` before it loads `wifi_initialized`, before it loads `running`, before it stores
the credentials for the startup task, before it says so, or with the driver up before it stores the name, forgets a requested disconnection,
says it connects, tells the driver, or says that this failed; in `platform_network_disconnect` before it loads `wifi_initialized`, before it
drops the pending connection and says it is offline, or with the driver up before it asks and tells the driver, before it says it is offline,
before it clears the address, and before it forgets the request; in `platform_network_shutdown` before it asks the startup task to stop, waiting for it, before it deletes the semaphore, and then
before it shuts down the driver, forgets it and deletes the mutex. -/
inductive Kernel where
  | idle
  | load (c : Credentials) | running (c : Credentials) | store (c : Credentials) | announce
  | name (c : Credentials) | undisturb (c : Credentials) | connecting (c : Credentials) | connect (c : Credentials) | failed
  | unload | drop | quiet | ask | disconnect | offline (kept : Bool) | clear (kept : Bool) | forget
  | cancel | join | delete | driver | unready | release
  deriving DecidableEq, Repr

/-- Where the startup task is: there is none; before `esp_hosted_slave_reset`, before it looks whether it is cancelled, before it starts the
driver, says it is offline, forgets a requested disconnection, stores that the driver is up, looks again, takes the pending connection, says
it connects, tells the driver; before it says that it failed or is offline; before it shuts down the driver again and stores that; before it
stores that it does not run, before it gives the semaphore; or gone. -/
inductive Task where
  | none | reset | checkReset | driver | announce | undisturb | ready | checkDriver | take | connecting (c : Credentials)
  | connect (c : Credentials) | failed | offline | undo | unready | finish | give | gone
  deriving DecidableEq, Repr

/-- The variables of `runtime.c` for Wi-Fi. `up` is set while the network service has the network started. -/
structure System where
  mutex : Bool
  done : Bool
  given : Bool
  running : Bool
  cancelRequested : Bool
  wifiInitialized : Bool
  wifiState : NetworkState
  disconnectRequested : Bool
  connectPending : Bool
  credentials : Credentials
  driver : Driver
  esp : Driver
  up : Bool
  kernel : Kernel
  task : Task
  connects : List Credentials

def System.boot : System where
  mutex := false
  done := false
  given := false
  running := false
  cancelRequested := false
  wifiInitialized := false
  wifiState := .offline
  disconnectRequested := false
  connectPending := false
  credentials := ⟨[], []⟩
  driver := .zero
  esp := .zero
  up := false
  kernel := .idle
  task := .none
  connects := []

/-- `platform_network_init`: whether the name is good and the transport is there, and whether the mutex, the semaphore and the task are
created. -/
def networkInit (s : System) (accepted mutex done task : Bool) : System :=
  let s := { s with up := true }
  if accepted = false then s
  else if mutex = false ∨ s.done = true ∨ done = false then { s with mutex := false }
  else
    let s := { s with mutex := true, cancelRequested := false, connectPending := false, wifiState := .starting }
    if task then { s with done := true, given := false, running := true, task := .reset }
    else { s with cancelRequested := true, running := false, mutex := false }

/-- The kernel goes on; `ok` is what the driver answers. -/
def goKernel (s : System) (ok : Bool) : System :=
  match s.kernel with
  | .idle => s
  | .load c => { s with kernel := if s.wifiInitialized = true ∧ c.fits then .name c else .running c }
  | .running c => { s with kernel := if s.running = true ∧ c.fits then .store c else .idle }
  | .store c => { s with credentials := c, connectPending := true, kernel := .announce }
  | .announce => { s with wifiState := .connecting, kernel := .idle }
  | .name c => { s with credentials := { s.credentials with ssid := c.ssid }, kernel := .undisturb c }
  | .undisturb c => { s with disconnectRequested := false, kernel := .connecting c }
  | .connecting c => { s with wifiState := .connecting, kernel := .connect c }
  | .connect c => { s with connects := s.connects ++ [c], kernel := if ok then .idle else .failed }
  | .failed => { s with wifiState := .failed, kernel := .idle }
  | .unload => { s with kernel := if s.wifiInitialized then .ask else .drop }
  | .drop =>
    let s := if s.mutex then { s with connectPending := false, credentials := { s.credentials with password := [] } } else s
    { s with kernel := .quiet }
  | .quiet => { s with wifiState := .offline, kernel := .idle }
  | .ask => { s with disconnectRequested := true, kernel := .disconnect }
  | .disconnect => { s with kernel := .offline ok }
  | .offline kept => { s with wifiState := .offline, kernel := .clear kept }
  | .clear kept => { s with kernel := if kept then .idle else .forget }
  | .forget => { s with disconnectRequested := false, kernel := .idle }
  | .cancel => if s.done then { s with cancelRequested := true, kernel := .join } else { s with kernel := .driver }
  | .join => if s.given then { s with given := false, kernel := .delete } else s
  | .delete => { s with done := false, running := false, kernel := .driver }
  | .driver => { s with driver := (driverShutdown s.driver s.esp).1, esp := (driverShutdown s.driver s.esp).2, kernel := .unready }
  | .unready => { s with wifiInitialized := false, kernel := .release }
  | .release => { s with mutex := false, up := false, kernel := .idle }

/-- The startup task goes on; `ok` is what the transport or the driver answers, `answers` what the framework answers to the driver. -/
def goTask (s : System) (ok : Bool) (answers : Answers) : System :=
  match s.task with
  | .none | .gone => s
  | .reset => { s with task := if ok then .checkReset else .failed }
  | .checkReset => { s with task := if s.cancelRequested then .finish else .driver }
  | .driver =>
    let (ready, driver, esp) := driverInit answers s.esp
    { s with driver := driver, esp := esp, task := if ready then .announce else .failed }
  | .announce => { s with wifiState := .offline, task := .undisturb }
  | .undisturb => { s with disconnectRequested := false, task := .ready }
  | .ready => { s with wifiInitialized := true, task := .checkDriver }
  | .checkDriver => { s with task := if s.cancelRequested then .undo else .take }
  | .take => { s with task := if s.connectPending then .connecting s.credentials else .offline }
  | .connecting c => { s with wifiState := .connecting, task := .connect c }
  | .connect c => { s with connects := s.connects ++ [c], task := if ok then .finish else .failed }
  | .failed => { s with wifiState := .failed, task := .finish }
  | .offline => { s with wifiState := .offline, task := .finish }
  | .undo => { s with driver := (driverShutdown s.driver s.esp).1, esp := (driverShutdown s.driver s.esp).2, task := .unready }
  | .unready => { s with wifiInitialized := false, task := .finish }
  | .finish => { s with running := false, task := .give }
  | .give => { s with given := true, task := .gone }

/-- What happens next: the network service makes a call, the kernel or the startup task goes on, or the framework tells `network_event`, in
one step, that the station was disconnected or has an address. -/
inductive Event where
  | init (accepted mutex done task : Bool)
  | connect (c : Credentials)
  | disconnect
  | shutdown
  | kernel (ok : Bool)
  | task (ok : Bool) (answers : Answers)
  | disconnected
  | gotIp

def step (s : System) : Event → System
  | .init accepted mutex done task => if s.kernel = .idle ∧ s.up = false then networkInit s accepted mutex done task else s
  | .connect c => if s.kernel = .idle then { s with kernel := .load c } else s
  | .disconnect => if s.kernel = .idle then { s with kernel := .unload } else s
  | .shutdown => if s.kernel = .idle then { s with kernel := .cancel } else s
  | .kernel ok => goKernel s ok
  | .task ok answers => goTask s ok answers
  | .disconnected =>
    if s.esp.wifiHandler = false then s
    else if s.disconnectRequested then { s with disconnectRequested := false, wifiState := .offline }
    else { s with wifiState := .failed }
  | .gotIp => if s.esp.ipHandler then { s with wifiState := .online } else s

def run (events : List Event) : System := events.foldl step .boot

/-! ## Where they are -/

/-- There is a startup task. -/
def Task.alive : Task → Bool
  | .none | .gone => false
  | _ => true

/-- The driver is up and `wifi_initialized` does not say so yet. -/
def Task.early : Task → Bool
  | .announce | .undisturb | .ready => true
  | _ => false

/-- The driver was not started yet. -/
def Task.fresh : Task → Bool
  | .none | .reset | .checkReset | .driver => true
  | _ => false

/-- `wifi_initialized` is set by the task. -/
def Task.late : Task → Bool
  | .checkDriver | .take | .connecting _ | .connect _ | .offline | .undo => true
  | _ => false

/-- The kernel is past the semaphore. -/
def Kernel.joined : Kernel → Bool
  | .driver | .unready | .release => true
  | _ => false

/-- The kernel is outside or in a call other than `platform_network_shutdown`. -/
def Kernel.calls : Kernel → Bool
  | .cancel | .join | .delete | .driver | .unready | .release => false
  | _ => true

/-- The kernel takes the mutex before the end of the call. -/
def Kernel.locks : Kernel → Bool
  | .store _ | .name _ | .ask | .disconnect | .offline _ | .clear _ => true
  | _ => false

/-- The kernel found the driver up. -/
def Kernel.tells : Kernel → Bool
  | .name _ | .undisturb _ | .connecting _ | .connect _ | .ask | .disconnect => true
  | _ => false

/-- What holds of the semaphore, the mutex and the two parties between the steps. -/
structure Joined (s : System) : Prop where
  alive : s.task.alive = true → s.mutex = true ∧ s.done = true ∧ s.given = false ∧ s.kernel.joined = false
  given : s.given = true → s.done = true ∧ s.task = .gone
  done : s.done = true → s.mutex = true ∧ s.kernel.joined = false ∧ s.up = true ∧
    (s.task.alive = true ∨ s.given = true ∨ s.kernel = .delete)
  running : s.running = true → s.task.alive = true ∧ s.task ≠ .give
  cancelled : s.done = true → s.cancelRequested = true → s.kernel = .join ∨ s.kernel = .delete
  waits : s.kernel = .join ∨ s.kernel = .delete → s.done = true
  delete : s.kernel = .delete → s.task = .gone ∧ s.given = false
  undo : s.task = .undo ∨ s.task = .unready → s.cancelRequested = true
  locks : s.kernel.locks = true → s.mutex = true
  mutex : s.mutex = true → s.done = true ∨ s.kernel.joined = true
  initialized : s.wifiInitialized = true → s.done = true ∨ s.kernel.joined = true
  release : s.kernel = .release → s.wifiInitialized = false

@[simp] theorem Task.alive_none : Task.none.alive = false := rfl

@[simp] theorem Task.alive_gone : Task.gone.alive = false := rfl

@[simp] theorem Task.alive_reset : Task.reset.alive = true := rfl

theorem Joined.networkInit {s : System} (h : Joined s) (hidle : s.kernel = .idle) (hup : s.up = false) (accepted mutex done task : Bool) :
    Joined (networkInit s accepted mutex done task) := by
  obtain ⟨halive, hgiven, hdone, hrunning, hcancelled, hwaits, hdelete, hundo, hlocks, hmutex, hinitialized, hrelease⟩ := h
  simp only [Wifi.networkInit]
  split_ifs <;> constructor <;> simp_all [Kernel.joined, Kernel.locks]

theorem Kernel.calls_spec {kernel : Kernel} (h : kernel.calls = true) :
    kernel.joined = false ∧ kernel ≠ .join ∧ kernel ≠ .delete ∧ kernel ≠ .release := by
  cases kernel <;> simp_all [Kernel.calls, Kernel.joined]

/-- A step of a call that leaves the semaphore, the mutex and the task alone. -/
theorem Joined.call {s t : System} (h : Joined s) (hfrom : s.kernel.calls = true) (hto : t.kernel.calls = true)
    (hlocks : t.kernel.locks = true → s.mutex = true)
    (hsame : t = { s with
      kernel := t.kernel
      wifiState := t.wifiState
      disconnectRequested := t.disconnectRequested
      connectPending := t.connectPending
      credentials := t.credentials
      connects := t.connects }) : Joined t := by
  obtain ⟨hjoined, hjoin, hdelete, hrelease⟩ := Kernel.calls_spec hfrom
  obtain ⟨hjoined', hjoin', hdelete', hrelease'⟩ := Kernel.calls_spec hto
  rw [hsame]
  constructor
  · exact fun halive => ⟨(h.alive halive).1, (h.alive halive).2.1, (h.alive halive).2.2.1, hjoined'⟩
  · exact h.given
  · intro hdone
    obtain ⟨hmutex, -, hup, hparty⟩ := h.done hdone
    exact ⟨hmutex, hjoined', hup, by simpa [hdelete, hdelete'] using hparty⟩
  · exact h.running
  · exact fun hdone hcancelled => absurd (h.cancelled hdone hcancelled) (by simp [hjoin, hdelete])
  · simp [hjoin', hdelete']
  · simp [hdelete']
  · exact h.undo
  · exact hlocks
  · intro hmutex
    simpa [hjoined, hjoined'] using h.mutex hmutex
  · intro hinitialized
    simpa [hjoined, hjoined'] using h.initialized hinitialized
  · simp [hrelease']

theorem Joined.goKernel {s : System} (h : Joined s) (ok : Bool) : Joined (goKernel s ok) := by
  unfold Wifi.goKernel
  cases hkernel : s.kernel with
  | idle => exact h
  | load c | unload =>
    have hmutex : s.wifiInitialized = true → s.mutex = true := by
      intro hinitialized
      have hdone := h.initialized hinitialized
      exact (h.done (by simpa [hkernel, Kernel.joined] using hdone)).1
    dsimp only
    split_ifs with hup
    · exact h.call (by simp [hkernel, Kernel.calls]) rfl (fun _ => hmutex (by simp [hup])) rfl
    · exact h.call (by simp [hkernel, Kernel.calls]) rfl (by simp [Kernel.locks]) rfl
  | running c =>
    dsimp only
    split_ifs with hrunning
    · exact h.call (by simp [hkernel, Kernel.calls]) rfl (fun _ => (h.alive (h.running hrunning.1).1).1) rfl
    · exact h.call (by simp [hkernel, Kernel.calls]) rfl (by simp [Kernel.locks]) rfl
  | store c | announce | name c | undisturb c | connecting c | failed | quiet | forget =>
    exact h.call (by simp [hkernel, Kernel.calls]) rfl (by simp [Kernel.locks]) rfl
  | ask | disconnect | offline kept =>
    exact h.call (by simp [hkernel, Kernel.calls]) rfl (fun _ => h.locks (by simp [hkernel, Kernel.locks])) rfl
  | connect c | clear kept | drop =>
    dsimp only
    split_ifs <;> exact h.call (by simp [hkernel, Kernel.calls]) rfl (by simp [Kernel.locks]) rfl
  | cancel | join | delete | driver | unready | release =>
    obtain ⟨halive, hgiven, hdone, hrunning, hcancelled, hwaits, hdelete, hundo, hlocks, hmutex, hinitialized, hrelease⟩ := h
    (try dsimp only); (try split_ifs) <;> constructor <;> simp_all [Kernel.joined, Kernel.locks]

/-- A step of the task to another that leaves the semaphore and the mutex alone. -/
theorem Joined.lives {s t : System} (h : Joined s) (hfrom : s.task.alive = true) (hto : t.task.alive = true)
    (hundo : t.task = .undo ∨ t.task = .unready → s.cancelRequested = true) (hgive : t.running = true → t.task ≠ .give)
    (hsame : t = { s with
      task := t.task
      running := t.running
      wifiInitialized := t.wifiInitialized
      wifiState := t.wifiState
      disconnectRequested := t.disconnectRequested
      driver := t.driver
      esp := t.esp
      connects := t.connects }) : Joined t := by
  obtain ⟨hmutex, hdone, hgiven, hjoined⟩ := h.alive hfrom
  rw [hsame]
  constructor
  · exact fun _ => ⟨hmutex, hdone, hgiven, hjoined⟩
  · simp [hgiven]
  · exact fun _ => ⟨hmutex, hjoined, (h.done hdone).2.2.1, .inl hto⟩
  · exact fun hrunning => ⟨hto, hgive hrunning⟩
  · exact h.cancelled
  · exact h.waits
  · intro hdelete
    have hgone := (h.delete hdelete).1
    simp [hgone] at hfrom
  · exact hundo
  · exact h.locks
  · exact h.mutex
  · exact fun _ => .inl hdone
  · intro hrelease
    simp [show s.kernel = .release from hrelease, Kernel.joined] at hjoined

theorem Joined.goTask {s : System} (h : Joined s) (ok : Bool) (answers : Answers) : Joined (goTask s ok answers) := by
  unfold Wifi.goTask
  cases htask : s.task with
  | none | gone => exact h
  | reset | take | connect c =>
    dsimp only
    split_ifs <;> exact h.lives (by simp [htask, Task.alive]) rfl (by simp) (by simp) rfl
  | checkReset =>
    dsimp only
    split_ifs <;> exact h.lives (by simp [htask, Task.alive]) rfl (by simp) (by simp) rfl
  | checkDriver =>
    dsimp only
    split_ifs with hcancelled
    · exact h.lives (by simp [htask, Task.alive]) rfl (fun _ => hcancelled) (by simp) rfl
    · exact h.lives (by simp [htask, Task.alive]) rfl (by simp) (by simp) rfl
  | driver =>
    dsimp only
    split <;> exact h.lives (by simp [htask, Task.alive]) rfl (by simp) (by simp) rfl
  | undo => exact h.lives (by simp [htask, Task.alive]) rfl (fun _ => h.undo (.inl htask)) (by simp) rfl
  | give =>
    obtain ⟨halive, hgiven, hdone, hrunning, hcancelled, hwaits, hdelete, hundo, hlocks, hmutex, hinitialized, hrelease⟩ := h
    constructor <;> simp_all [Kernel.joined, Kernel.locks, Task.alive]
  | announce | undisturb | ready | connecting c | failed | offline | unready | finish =>
    exact h.lives (by simp [htask, Task.alive]) rfl (by simp) (by simp) rfl

theorem Joined.step {s : System} (h : Joined s) (event : Event) : Joined (step s event) := by
  cases event with
  | init accepted mutex done task =>
    simp only [Wifi.step]
    split_ifs with hidle
    · exact h.networkInit hidle.1 hidle.2 accepted mutex done task
    · exact h
  | connect c | disconnect | shutdown =>
    simp only [Wifi.step]
    split_ifs with hidle
    · obtain ⟨halive, hgiven, hdone, hrunning, hcancelled, hwaits, hdelete, hundo, hlocks, hmutex, hinitialized, hrelease⟩ := h
      constructor <;> simp_all [Kernel.joined, Kernel.locks]
    · exact h
  | kernel ok => exact h.goKernel ok
  | task ok answers => exact h.goTask ok answers
  | disconnected | gotIp =>
    obtain ⟨halive, hgiven, hdone, hrunning, hcancelled, hwaits, hdelete, hundo, hlocks, hmutex, hinitialized, hrelease⟩ := h
    simp only [Wifi.step]
    split_ifs <;> exact ⟨halive, hgiven, hdone, hrunning, hcancelled, hwaits, hdelete, hundo, hlocks, hmutex, hinitialized, hrelease⟩

/-! ## The driver between the steps -/

/-- The driver as it is when it was started. -/
def Driver.started (owned : Bool) : Driver := ⟨owned, true, true, true, true, true⟩

/-- Shutting down gives back all that the driver holds. -/
theorem driverShutdown_self (driver : Driver) : driverShutdown driver driver = (.zero, .zero) := by
  simp [driverShutdown, Driver.zero]

/-- The driver is started whole or nothing of it is kept. -/
theorem driverInit_spec (answers : Answers) :
    driverInit answers .zero = (false, .zero, .zero) ∨ ∃ owned, driverInit answers .zero = (true, .started owned, .started owned) := by
  by_cases hstart : (driverInit answers .zero).1 = true
  · right
    refine ⟨decide (answers.eventLoop = .created), ?_⟩
    revert hstart
    simp only [driverInit]
    split_ifs <;> simp [Driver.started, Driver.zero]
  · left
    revert hstart
    simp only [driverInit]
    split_ifs <;> simp [driverShutdown, Driver.zero]

/-- What holds of the driver between the steps. -/
structure Driven (s : System) : Prop where
  same : s.esp = s.driver
  fresh : s.task.fresh = true → s.driver = .zero ∧ s.wifiInitialized = false
  early : s.task.early = true → s.wifiInitialized = false
  late : s.task.late = true → s.wifiInitialized = true
  up : s.wifiInitialized = true ∨ s.task.early = true → s.task ≠ .unready → s.kernel ≠ .unready → ∃ owned, s.driver = .started owned
  down : s.wifiInitialized = false → s.task.early = false → s.driver = .zero
  unready : s.task = .unready ∨ s.kernel = .unready ∨ s.kernel = .release → s.driver = .zero
  tells : s.kernel.tells = true → s.wifiInitialized = true

/-- Nothing is held. -/
theorem Driven.of_zero {t : System} (hesp : t.esp = .zero) (hdriver : t.driver = .zero) (hinitialized : t.wifiInitialized = false)
    (hearly : t.task.early = false) (hlate : t.task.late = false) (htells : t.kernel.tells = false) : Driven t := by
  constructor <;> simp_all

theorem Task.early_of_dead {task : Task} (h : task.alive = false) : task.early = false ∧ task.late = false ∧ task ≠ .unready := by
  cases task <;> simp_all [Task.alive, Task.early, Task.late]

/-- Without a semaphore there is no startup task. -/
theorem Joined.dead {s : System} (h : Joined s) (hdone : s.done = false) : s.task.alive = false := by
  rw [← Bool.not_eq_true]
  intro halive
  simpa [hdone] using (h.alive halive).2.1

theorem Driven.networkInit {s : System} (h : Driven s) (hjoined : Joined s) (hidle : s.kernel = .idle) (hup : s.up = false)
    (accepted mutex done task : Bool) : Driven (networkInit s accepted mutex done task) := by
  have hdone : s.done = false := by
    rw [← Bool.not_eq_true]
    intro hdone
    simpa [hup] using (hjoined.done hdone).2.2.1
  have hinitialized : s.wifiInitialized = false := by
    rw [← Bool.not_eq_true]
    intro hinitialized
    simpa [hdone, hidle, Kernel.joined] using hjoined.initialized hinitialized
  obtain ⟨hearly, hlate, -⟩ := Task.early_of_dead (hjoined.dead hdone)
  have hzero := h.down hinitialized hearly
  have hesp := h.same.trans hzero
  simp only [Wifi.networkInit]
  split_ifs
  · exact .of_zero hesp hzero hinitialized hearly hlate (by simp [hidle, Kernel.tells])
  · exact .of_zero hesp hzero hinitialized hearly hlate (by simp [hidle, Kernel.tells])
  · exact .of_zero hesp hzero hinitialized rfl rfl (by simp [hidle, Kernel.tells])
  · exact .of_zero hesp hzero hinitialized hearly hlate (by simp [hidle, Kernel.tells])

/-- A step of a call leaves the driver alone. -/
theorem Driven.call {s t : System} (h : Driven s) (hfrom : s.kernel ≠ .unready) (hto : t.kernel ≠ .unready ∧ t.kernel ≠ .release)
    (htells : t.kernel.tells = true → s.wifiInitialized = true)
    (hsame : t.task = s.task ∧ t.driver = s.driver ∧ t.esp = s.esp ∧ t.wifiInitialized = s.wifiInitialized) : Driven t := by
  obtain ⟨htask, hdriver, hesp, hinitialized⟩ := hsame
  constructor
  · rw [hesp, hdriver, h.same]
  · rw [htask, hdriver, hinitialized]
    exact h.fresh
  · rw [htask, hinitialized]
    exact h.early
  · rw [htask, hinitialized]
    exact h.late
  · rw [htask, hdriver, hinitialized]
    exact fun hup hunready _ => h.up hup hunready hfrom
  · rw [htask, hdriver, hinitialized]
    exact h.down
  · rw [htask, hdriver]
    simp only [hto.1, hto.2, or_false]
    exact fun hunready => h.unready (.inl hunready)
  · rw [hinitialized]
    exact htells

theorem Driven.goKernel {s : System} (h : Driven s) (hjoined : Joined s) (ok : Bool) : Driven (goKernel s ok) := by
  have hdead : s.kernel.joined = true → s.task.alive = false := by
    intro hkernel
    rw [← Bool.not_eq_true]
    intro halive
    simpa [hkernel] using (hjoined.alive halive).2.2.2
  unfold Wifi.goKernel
  cases hkernel : s.kernel with
  | idle => exact h
  | load c | unload =>
    dsimp only
    split_ifs with hinitialized
    · exact h.call (by simp [hkernel]) (by simp) (fun _ => by simp_all) ⟨rfl, rfl, rfl, rfl⟩
    · exact h.call (by simp [hkernel]) (by simp) (by simp [Kernel.tells]) ⟨rfl, rfl, rfl, rfl⟩
  | name c | undisturb c | connecting c | ask =>
    have htells : s.wifiInitialized = true := h.tells (by simp [hkernel, Kernel.tells])
    exact h.call (by simp [hkernel]) (by simp) (fun _ => htells) ⟨rfl, rfl, rfl, rfl⟩
  | running c | connect c | clear kept | cancel | join | drop =>
    dsimp only
    split_ifs <;> exact h.call (by simp [hkernel]) (by simp_all) (by simp_all [Kernel.tells]) ⟨rfl, rfl, rfl, rfl⟩
  | store c | announce | failed | quiet | disconnect | offline kept | forget | delete =>
    exact h.call (by simp [hkernel]) (by simp) (by simp [Kernel.tells]) ⟨rfl, rfl, rfl, rfl⟩
  | driver =>
    obtain ⟨hearly, hlate, hunready⟩ := Task.early_of_dead (hdead (by simp [hkernel, Kernel.joined]))
    have hfresh := h.fresh
    dsimp only
    rw [h.same, driverShutdown_self]
    constructor <;> simp_all [Kernel.tells]
  | unready =>
    obtain ⟨hearly, hlate, -⟩ := Task.early_of_dead (hdead (by simp [hkernel, Kernel.joined]))
    have hzero := h.unready (.inr (.inl hkernel))
    exact .of_zero (h.same.trans hzero) hzero rfl hearly hlate rfl
  | release =>
    obtain ⟨hearly, hlate, -⟩ := Task.early_of_dead (hdead (by simp [hkernel, Kernel.joined]))
    have hzero := h.unready (.inr (.inr hkernel))
    exact .of_zero (h.same.trans hzero) hzero (hjoined.release hkernel) hearly hlate rfl

/-- A step of the task that leaves the driver alone. -/
theorem Driven.lives {s t : System} (h : Driven s) (hfresh : t.task.fresh = true → s.task.fresh = true)
    (hearly : t.task.early = s.task.early) (hlate : t.task.late = true → s.wifiInitialized = true)
    (hready : t.task ≠ .unready ∧ s.task ≠ .unready)
    (hsame : t.kernel = s.kernel ∧ t.driver = s.driver ∧ t.esp = s.esp ∧ t.wifiInitialized = s.wifiInitialized) : Driven t := by
  obtain ⟨hkernel, hdriver, hesp, hinitialized⟩ := hsame
  constructor
  · rw [hesp, hdriver, h.same]
  · rw [hdriver, hinitialized]
    exact fun ht => h.fresh (hfresh ht)
  · rw [hearly, hinitialized]
    exact h.early
  · rw [hinitialized]
    exact hlate
  · rw [hearly, hkernel, hdriver, hinitialized]
    exact fun hup _ hunready => h.up hup hready.2 hunready
  · rw [hearly, hdriver, hinitialized]
    exact h.down
  · rw [hkernel, hdriver]
    simp only [hready.1, false_or]
    exact fun hunready => h.unready (.inr hunready)
  · rw [hkernel, hinitialized]
    exact h.tells

theorem Driven.goTask {s : System} (h : Driven s) (hjoined : Joined s) (ok : Bool) (answers : Answers) :
    Driven (goTask s ok answers) := by
  have hkernel : s.task.alive = true → s.kernel ≠ .unready ∧ s.kernel ≠ .release := by
    intro halive
    have hnot := (hjoined.alive halive).2.2.2
    constructor <;> rintro heq <;> simp [heq, Kernel.joined] at hnot
  unfold Wifi.goTask
  cases htask : s.task with
  | none | gone => exact h
  | reset | checkReset | connect c | take =>
    have hlate := h.late
    dsimp only
    split_ifs <;> refine h.lives ?_ ?_ ?_ ?_ ⟨rfl, rfl, rfl, rfl⟩ <;> simp_all [Task.fresh, Task.early, Task.late]
  | checkDriver =>
    have hlate := h.late (by simp [htask, Task.late])
    dsimp only
    split_ifs <;> refine h.lives ?_ ?_ ?_ ?_ ⟨rfl, rfl, rfl, rfl⟩ <;> simp_all [Task.fresh, Task.early, Task.late]
  | announce | undisturb | connecting c | failed | offline | finish | give =>
    have hlate := h.late
    refine h.lives ?_ ?_ ?_ ?_ ⟨rfl, rfl, rfl, rfl⟩ <;> simp_all [Task.fresh, Task.early, Task.late]
  | driver =>
    obtain ⟨hzero, hinitialized⟩ := h.fresh (by simp [htask, Task.fresh])
    obtain ⟨hunready, hrelease⟩ := hkernel (by simp [htask, Task.alive])
    have htells := h.tells
    dsimp only
    rw [h.same, hzero]
    rcases driverInit_spec answers with hinit | ⟨owned, hinit⟩
    · rw [hinit]
      refine .of_zero rfl rfl hinitialized rfl rfl ?_
      simpa [hinitialized] using htells
    · rw [hinit]
      constructor <;> simp_all [Task.fresh, Task.early, Task.late]
  | ready =>
    obtain ⟨hunready, hrelease⟩ := hkernel (by simp [htask, Task.alive])
    have hup := h.up (.inr (by simp [htask, Task.early])) (by simp [htask]) hunready
    have hsame := h.same
    constructor <;> simp_all [Task.fresh, Task.early]
  | undo =>
    have hinitialized := h.late (by simp [htask, Task.late])
    have htells := h.tells
    dsimp only
    rw [h.same, driverShutdown_self]
    constructor <;> simp_all [Task.fresh, Task.early, Task.late]
  | unready =>
    obtain ⟨-, hdone, -, -⟩ := hjoined.alive (by simp [htask, Task.alive])
    have hzero := h.unready (.inl htask)
    refine .of_zero (h.same.trans hzero) hzero rfl rfl rfl ?_
    rcases hjoined.cancelled hdone (hjoined.undo (.inr htask)) with hwaits | hwaits <;> simp [hwaits, Kernel.tells]

theorem Driven.step {s : System} (h : Driven s) (hjoined : Joined s) (event : Event) : Driven (step s event) := by
  cases event with
  | init accepted mutex done task =>
    simp only [Wifi.step]
    split_ifs with hidle
    · exact h.networkInit hjoined hidle.1 hidle.2 accepted mutex done task
    · exact h
  | connect c | disconnect | shutdown =>
    simp only [Wifi.step]
    split_ifs with hidle
    · exact h.call (by simp [hidle]) (by simp) (by simp [Kernel.tells]) ⟨rfl, rfl, rfl, rfl⟩
    · exact h
  | kernel ok => exact h.goKernel hjoined ok
  | task ok answers => exact h.goTask hjoined ok answers
  | disconnected | gotIp =>
    simp only [Wifi.step]
    split_ifs <;> exact ⟨h.same, h.fresh, h.early, h.late, h.up, h.down, h.unready, h.tells⟩

theorem sound_run (events : List Event) : Joined (run events) ∧ Driven (run events) := by
  refine foldl_invariant (fun s => Joined s ∧ Driven s) ?_ events ⟨?_, ?_⟩
  · exact fun s event h => ⟨h.1.step event, h.2.step h.1 event⟩
  · constructor <;> simp [System.boot, Kernel.joined, Kernel.locks]
  · exact .of_zero rfl rfl rfl rfl rfl rfl

/-! ## Stopping -/

/-- The startup task is about to use the driver. -/
def Task.uses : Task → Bool
  | .connect _ | .undo => true
  | _ => false

/-- The kernel is about to use the driver. -/
def Kernel.uses : Kernel → Bool
  | .connect _ | .disconnect => true
  | _ => false

/-- How many steps of the startup task it is to the semaphore at most. -/
def Task.distance : Task → Nat
  | .reset => 13
  | .checkReset => 12
  | .driver => 11
  | .announce => 10
  | .undisturb => 9
  | .ready => 8
  | .checkDriver => 7
  | .take => 6
  | .connecting _ => 5
  | .connect _ | .undo => 4
  | .failed | .offline | .unready => 3
  | .finish => 2
  | .give => 1
  | .none | .gone => 0

/-- How many steps of the kernel it is to the end of `platform_network_shutdown`, if it is in it. -/
def Kernel.distance : Kernel → Nat
  | .cancel => 6
  | .join => 5
  | .delete => 4
  | .driver => 3
  | .unready => 2
  | .release => 1
  | _ => 0

/-- No call begins. -/
def Event.goes : Event → Bool
  | .kernel _ | .task _ _ | .disconnected | .gotIp => true
  | _ => false

def taskSteps (events : List Event) : Nat := events.countP fun event => match event with | .task _ _ => true | _ => false

def kernelSteps (events : List Event) : Nat := events.countP fun event => match event with | .kernel _ => true | _ => false

theorem distance_goTask (s : System) (ok : Bool) (answers : Answers) :
    (goTask s ok answers).task.distance ≤ s.task.distance - 1 ∧ (goTask s ok answers).kernel = s.kernel := by
  unfold Wifi.goTask
  cases htask : s.task <;> dsimp only <;> (try split_ifs) <;> simp [Task.distance, htask]

theorem task_goKernel (s : System) (ok : Bool) : (goKernel s ok).task = s.task := by
  unfold Wifi.goKernel
  cases s.kernel <;> dsimp only <;> (try split_ifs) <;> rfl

theorem Task.dead_of_distance {task : Task} (h : task.distance = 0) : task.alive = false := by
  cases task <;> simp_all [Task.distance, Task.alive]

/-- The kernel is in `platform_network_shutdown`, or was and is outside. -/
def Kernel.stopping (kernel : Kernel) : Prop := kernel = .idle ∨ 0 < kernel.distance

/-- The kernel waits for the startup task alone. -/
theorem distance_goKernel {s : System} (hjoined : Joined s) (hstopping : s.kernel.stopping) (ok : Bool) :
    (goKernel s ok).kernel.stopping ∧
      (s.task.alive = false → (goKernel s ok).kernel.distance ≤ s.kernel.distance - 1) := by
  unfold Wifi.goKernel
  cases hkernel : s.kernel with
  | join =>
    dsimp only
    split_ifs with hgiven
    · simp [Kernel.stopping, Kernel.distance]
    · refine ⟨hkernel ▸ hstopping, fun hdead => ?_⟩
      have hparty := (hjoined.done (hjoined.waits (.inl hkernel))).2.2.2
      simp [hdead, hgiven, hkernel] at hparty
  | cancel =>
    dsimp only
    split_ifs <;> simp [Kernel.stopping, Kernel.distance]
  | idle | delete | driver | unready | release => simp [Kernel.stopping, Kernel.distance, hkernel]
  | _ => simp [Kernel.stopping, Kernel.distance, hkernel] at hstopping

theorem stopping_step {s : System} (hjoined : Joined s) (hstopping : s.kernel.stopping) {event : Event} (hgoes : event.goes = true) :
    (step s event).kernel.stopping ∧ (step s event).task.distance ≤ s.task.distance - taskSteps [event] ∧
      (s.task.alive = false → (step s event).kernel.distance ≤ s.kernel.distance - kernelSteps [event]) := by
  cases event with
  | init | connect | disconnect | shutdown => simp [Event.goes] at hgoes
  | kernel ok =>
    obtain ⟨hstops, hless⟩ := distance_goKernel hjoined hstopping ok
    exact ⟨hstops, Nat.le_of_eq (congrArg Task.distance (task_goKernel s ok)), hless⟩
  | task ok answers =>
    obtain ⟨hless, hkernel⟩ := distance_goTask s ok answers
    simp only [Wifi.step, hkernel]
    exact ⟨hstopping, hless, fun _ => Nat.le_refl _⟩
  | disconnected | gotIp =>
    simp only [Wifi.step]
    split_ifs <;> exact ⟨hstopping, Nat.le_refl _, fun _ => Nat.le_refl _⟩

theorem stopping_run {s : System} (hjoined : Joined s) (hstopping : s.kernel.stopping) {events : List Event}
    (hgoes : ∀ event ∈ events, event.goes = true) :
    Joined (events.foldl step s) ∧ (events.foldl step s).kernel.stopping ∧
      (events.foldl step s).task.distance ≤ s.task.distance - taskSteps events ∧
      (s.task.distance = 0 → (events.foldl step s).kernel.distance ≤ s.kernel.distance - kernelSteps events) := by
  induction events generalizing s with
  | nil => exact ⟨hjoined, hstopping, Nat.le_refl _, fun _ => Nat.le_refl _⟩
  | cons event events ih =>
    simp only [List.mem_cons, forall_eq_or_imp] at hgoes
    obtain ⟨hstops, htask, hkernel⟩ := stopping_step hjoined hstopping hgoes.1
    obtain ⟨hjoined', hstops', htask', hkernel'⟩ := ih (hjoined.step event) hstops hgoes.2
    have htasks : taskSteps (event :: events) = taskSteps [event] + taskSteps events := by
      simp only [taskSteps, ← List.countP_append, List.singleton_append]
    have hkernels : kernelSteps (event :: events) = kernelSteps [event] + kernelSteps events := by
      simp only [kernelSteps, ← List.countP_append, List.singleton_append]
    refine ⟨hjoined', hstops', ?_, fun hdead => ?_⟩
    · simp only [List.foldl_cons]
      omega
    · have hless := hkernel (Task.dead_of_distance hdead)
      have hless' := hkernel' (by omega)
      simp only [List.foldl_cons]
      omega

theorem Task.distance_le (task : Task) : task.distance ≤ 13 := by
  cases task <;> simp [Task.distance]

theorem Kernel.distance_le (kernel : Kernel) : kernel.distance ≤ 6 := by
  cases kernel <;> simp [Kernel.distance]

/-- `platform_network_shutdown` returns: wherever it and the startup task are, after thirteen steps of the task and then six of the kernel
it is over, whatever the framework answers. -/
theorem shutdown_returns (events first second : List Event) (hshutdown : 0 < (run events).kernel.distance)
    (hgoes : ∀ event ∈ first ++ second, event.goes = true) (htask : 13 ≤ taskSteps first) (hkernel : 6 ≤ kernelSteps second) :
    (run (events ++ first ++ second)).kernel = .idle := by
  have hjoined := (sound_run events).1
  obtain ⟨hjoined', hstopping', hdead, -⟩ :=
    stopping_run hjoined (.inr hshutdown) fun event hevent => hgoes event (List.mem_append_left _ hevent)
  obtain ⟨-, hstopping'', -, hless⟩ :=
    stopping_run hjoined' hstopping' fun event hevent => hgoes event (List.mem_append_right _ hevent)
  have htasks := (run events).task.distance_le
  have hkernels := ((first.foldl step (run events)).kernel).distance_le
  have hrest := hless (by omega)
  have hrun : run (events ++ first ++ second) = second.foldl step (first.foldl step (run events)) := by
    simp [run, List.foldl_append]
  rw [hrun]
  exact hstopping''.resolve_right (by omega)

/-- Answers of a framework that does all it is asked. -/
def willing : Answers := ⟨true, .created, true, true, true, true, true, true, true⟩

/-- A shutdown right after the start. -/
theorem shutdown_returns_at_once :
    (run ([.init true true true true, .shutdown] ++ List.replicate 13 (.task true willing) ++ List.replicate 6 (.kernel true))).kernel = .idle :=
  shutdown_returns [.init true true true true, .shutdown] (List.replicate 13 (.task true willing)) (List.replicate 6 (.kernel true))
    (by decide) (by simp [Event.goes]) (by decide) (by decide)

/-! ## A connection while the driver starts -/

/-- The startup task has not yet taken the pending connection. -/
def Task.waiting : Task → Bool
  | .reset | .checkReset | .driver | .announce | .undisturb | .ready | .checkDriver | .take => true
  | _ => false

/-- The connection that the startup task took and has not yet told the driver. -/
def Task.taken : Task → List Credentials
  | .connecting c | .connect c => [c]
  | _ => []

/-- What the startup task will tell the driver when `c` is pending. -/
def Task.owed (c : Credentials) (task : Task) : List Credentials := if task.waiting then [c] else task.taken

/-- Where the kernel, the task and the pending connection are after the connection was stored. -/
structure Pending (c : Credentials) (told : List Credentials) (s : System) : Prop where
  kernel : s.kernel = .announce ∨ s.kernel = .idle
  pending : s.task.waiting = true → s.connectPending = true ∧ s.credentials = c
  told : s.connects ++ s.task.owed c = told ∨
    s.wifiInitialized = false ∧ (s.task = .failed ∨ s.task = .finish ∨ s.task = .give ∨ s.task = .gone)

theorem Pending.goTask {c : Credentials} {told : List Credentials} {s : System} (h : Pending c told s) (hjoined : Joined s)
    (hdriven : Driven s) (ok : Bool) (answers : Answers) : Pending c told (goTask s ok answers) := by
  obtain ⟨hkernel, hpending, htold⟩ := h
  have hcancelled : s.task.alive = true → s.cancelRequested = false := by
    intro halive
    rw [← Bool.not_eq_true]
    intro hcancelled
    rcases hjoined.cancelled (hjoined.alive halive).2.1 hcancelled with hwaits | hwaits <;> simp [hwaits] at hkernel
  have hfresh := hdriven.fresh
  unfold Wifi.goTask
  cases htask : s.task with
  | none | gone => exact ⟨hkernel, hpending, htold⟩
  | _ =>
    (try dsimp only); (try split_ifs) <;> refine ⟨hkernel, ?_, ?_⟩ <;>
      simp_all [Task.owed, Task.waiting, Task.taken, Task.alive, Task.fresh]

theorem Pending.step {c : Credentials} {told : List Credentials} {s : System} (h : Pending c told s) (hjoined : Joined s)
    (hdriven : Driven s) {event : Event} (hgoes : event.goes = true) : Pending c told (step s event) := by
  cases event with
  | init | connect | disconnect | shutdown => simp [Event.goes] at hgoes
  | kernel ok =>
    obtain ⟨hkernel, hpending, htold⟩ := h
    simp only [Wifi.step, goKernel]
    rcases hkernel with hkernel | hkernel
    · rw [hkernel]
      exact ⟨.inr rfl, hpending, htold⟩
    · rw [hkernel]
      exact ⟨.inr hkernel, hpending, htold⟩
  | task ok answers => exact h.goTask hjoined hdriven ok answers
  | disconnected | gotIp =>
    simp only [Wifi.step]
    split_ifs <;> exact ⟨h.kernel, h.pending, h.told⟩

theorem Pending.run {c : Credentials} {told : List Credentials} {s : System} (h : Pending c told s) (hjoined : Joined s)
    (hdriven : Driven s) {events : List Event} (hgoes : ∀ event ∈ events, event.goes = true) : Pending c told (events.foldl Wifi.step s) := by
  induction events generalizing s with
  | nil => exact h
  | cons event events ih =>
    simp only [List.mem_cons, forall_eq_or_imp] at hgoes
    exact ih (h.step hjoined hdriven hgoes.1) (hjoined.step event) (hdriven.step hjoined event) hgoes.2

/-- The driver comes up between the two loads of a connection. -/
def lateConnect (c : Credentials) : List Event :=
  [.init true true true true, .connect c, .kernel true] ++ List.replicate 8 (.task true willing) ++ [.kernel true]

end Wifi
end TabOS
