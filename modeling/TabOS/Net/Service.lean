import TabOS.Net.Config
import TabOS.Timer

/-!
# The network service

`net/network.c`: the service holds the credentials and the state of the connection, takes a status from the platform when one was
announced, and tries a failed connection again when the retry timer fires. The answers of the platform are inputs of the operations.
-/

namespace TabOS
namespace Net

/-- `NETWORK_AUTOCONNECT_ATTEMPTS`. -/
def autoconnectAttempts : Nat := 3

/-- `NETWORK_RETRY_DELAY_MS`. -/
def retryDelayMs : Nat := 1000

/-- `network_state_t`. -/
inductive NetworkState where
  | offline
  | starting
  | scanning
  | connecting
  | online
  | disconnecting
  | failed
  deriving DecidableEq, Repr

/-- `platform_network_state_t`. -/
inductive PlatformState where
  | offline
  | starting
  | connecting
  | online
  | failed
  deriving DecidableEq, Repr

/-- What the service reads of `platform_network_status_t`. -/
structure PlatformStatus where
  state : PlatformState
  ipv4 : List UInt8
  signalDbm : Int
  failure : List UInt8
  deriving DecidableEq, Repr

/-- `network_status_t`; its texts end at their first zero. -/
structure NetworkStatus where
  state : NetworkState
  hostname : List UInt8 := []
  ssid : List UInt8 := []
  ipv4 : List UInt8 := []
  signalDbm : Int := 0
  attempts : Nat := 0
  autoConnect : Bool := false
  configAvailable : Bool := false
  lastFailure : List UInt8 := []
  deriving DecidableEq, Repr

/-- The results of `network_config_load` other than `NETWORK_CONFIG_OK`. -/
inductive LoadError where
  | notFound
  | unavailable
  | invalid
  | tooLarge
  | ioError
  deriving DecidableEq, Repr

/-- `network_config_result_name`. -/
def LoadError.name : LoadError → List UInt8
  | .notFound => ascii "not found".toList
  | .unavailable => ascii "storage unavailable".toList
  | .invalid => ascii "invalid configuration".toList
  | .tooLarge => ascii "configuration too large".toList
  | .ioError => ascii "I/O error".toList

/-- What happens to the connection: the service begins to connect by itself or because it is told to, it is told to disconnect, and it
calls `platform_network_connect`. -/
inductive Event where
  | automatic
  | explicit
  | disconnected
  | attempt (ssid password : List UInt8)
  deriving DecidableEq, Repr

/-- The variables of the service, and what happened so far, the latest first. The mutexes exist while the service is initialized. -/
structure Service where
  current : NetworkStatus
  password : List UInt8
  initialized : Bool
  retrySuppressed : Bool
  retryTimer : Timer
  statusPending : Bool
  log : List Event
  deriving DecidableEq, Repr

/-- The service before its start. -/
def Service.unstarted : Service where
  current := { state := .offline }
  password := []
  initialized := false
  retrySuppressed := false
  retryTimer := .cancelled
  statusPending := false
  log := []

/-- `snprintf` of a text into a buffer of some bytes. -/
def copyText (size : Nat) (text : List UInt8) : List UInt8 := (cString text).take (size - 1)

def networkEvent (service : Service) : Service := { service with statusPending := true }

def setFailure (failure : List UInt8) (service : Service) : Service :=
  let failure := if cString failure = [] then ascii "connection failed".toList else failure
  { service with current := { service.current with state := .failed, lastFailure := copyText 64 failure } }

/-- The credentials of the attempt, unless there is none to make. -/
def prepareAttempt (service : Service) : Option (List UInt8 × List UInt8) × Service :=
  if service.current.ssid = [] ∨ service.current.attempts ≥ autoconnectAttempts then
    (none, setFailure (ascii "autoconnect attempts exhausted".toList) service)
  else
    (some (copyText (ssidMax + 1) service.current.ssid, copyText (passwordMax + 1) service.password),
      { service with current := { service.current with
          attempts := service.current.attempts + 1, state := .connecting, lastFailure := [] } })

/-- Whether the platform accepts is its answer. -/
def performAttempt (accepted : Bool) (service : Service) : Bool × Service :=
  match prepareAttempt service with
  | (none, service) => (false, service)
  | (some (ssid, password), service) =>
    let service := { service with log := .attempt ssid password :: service.log }
    if accepted = false then (false, setFailure (ascii "platform rejected connection".toList) service) else (true, service)

/-- What the start of the service meets: whether the mutexes can be made, the configuration file, whether the backend and its operations
come up, and the answer to an attempt. -/
structure Start where
  mutexes : Bool
  config : Except LoadError NetworkConfig
  backend : Bool
  operations : Bool
  accepted : Bool

/-- The hostname of a configuration; a file that cannot be used leaves the default. -/
def configName : Except LoadError NetworkConfig → List UInt8
  | .ok config => config.name
  | .error _ => defaultName

def networkServiceInit (start : Start) (service : Service) : Bool × Service :=
  if service.initialized then (true, service)
  else if start.mutexes = false then (false, service)
  else
    let service := { service with
      current := { state := .starting, hostname := copyText 33 (configName start.config) }
      retryTimer := .cancelled
      retrySuppressed := false }
    if start.backend = false then
      (true, { setFailure (ascii "network backend unavailable".toList) service with initialized := true })
    else if start.operations = false then
      (true, { setFailure (ascii "network operations unavailable".toList) service with initialized := true })
    else
      let service := { service with current := { service.current with state := .offline } }
      match start.config with
      | .ok config =>
        let service := { service with
          current := { service.current with
            configAvailable := true, autoConnect := config.autoConnect, ssid := copyText 33 config.ssid }
          password := copyText (passwordMax + 1) config.password }
        if config.autoConnect then
          let service := { service with log := .automatic :: service.log }
          (true, { (performAttempt start.accepted service).2 with initialized := true })
        else (true, { service with initialized := true })
      | .error .notFound => (true, { service with initialized := true })
      | .error .unavailable => (true, { service with initialized := true })
      | .error error =>
        let failure := copyText 64 (ascii "wifi.conf: ".toList ++ error.name)
        (true, { service with current := { service.current with lastFailure := failure }, initialized := true })

/-- What a status that was announced does; `now` is the time at which the retry timer starts. -/
def takeStatus (status : Option PlatformStatus) (now : Nat) (service : Service) : Service :=
  match status with
  | none => setFailure (ascii "network status unavailable".toList) service
  | some status =>
    if status.state = .online then
      { service with
        current := { service.current with state := .online, ipv4 := copyText 16 status.ipv4, signalDbm := status.signalDbm }
        retryTimer := .cancelled }
    else if status.state = .connecting then { service with current := { service.current with state := .connecting } }
    else if status.state = .failed ∧ service.retrySuppressed = false then
      let wasConnecting := decide (service.current.state = .connecting)
      let service := setFailure status.failure service
      if wasConnecting ∧ service.current.attempts < autoconnectAttempts then
        { service with retryTimer := .start now retryDelayMs 0 }
      else service
    else if status.state = .offline ∧ service.retrySuppressed = false then
      { service with current := { service.current with state := .offline, ipv4 := [] } }
    else service

/-- What an update reads: the status, if the platform gives one, the times at which the timer starts and is polled, and the answer to an
attempt. -/
structure Reading where
  status : Option PlatformStatus
  now : Nat
  pollTime : Nat
  accepted : Bool
  deriving DecidableEq, Repr

/-- The first half of an update, which reads the status if one was announced. -/
def readStatus (status : Option PlatformStatus) (now : Nat) (service : Service) : Service :=
  let statusRequested := service.statusPending
  let service := { service with statusPending := false }
  if statusRequested then takeStatus status now service else service

/-- The second half of an update, which makes an attempt when the retry timer fires. -/
def pollRetry (pollTime : Nat) (accepted : Bool) (service : Service) : Service :=
  let retryReady := service.retryTimer.fires pollTime
  let service := { service with retryTimer := service.retryTimer.poll pollTime }
  if retryReady then (performAttempt accepted service).2 else service

def networkServiceUpdate (reading : Reading) (service : Service) : Service :=
  if service.initialized = false then service
  else pollRetry reading.pollTime reading.accepted (readStatus reading.status reading.now service)

/-- The pair of credentials that `network_service_connect` takes; a missing one is a null pointer. -/
def validCredentials (ssid password : Option (List UInt8)) : Option (List UInt8 × List UInt8) :=
  match ssid, password with
  | some ssid, some password =>
    if cString ssid = [] ∨ (cString ssid).length > ssidMax ∨ (cString password).length > passwordMax then none
    else some (ssid, password)
  | _, _ => none

def networkServiceConnect (ssid password : Option (List UInt8)) (automatic accepted : Bool) (service : Service) : Bool × Service :=
  match validCredentials ssid password with
  | none => (false, service)
  | some (ssid, password) =>
    if service.initialized = false then (false, service)
    else
      let service := { service with
        current := { service.current with
          state := .disconnecting, ssid := copyText 33 ssid, autoConnect := automatic, attempts := 0, ipv4 := [] }
        password := copyText (passwordMax + 1) password
        retryTimer := .cancelled
        retrySuppressed := false
        log := .explicit :: service.log }
      performAttempt accepted service

/-- Whether the platform disconnects is its answer. -/
def networkServiceDisconnect (disconnected : Bool) (service : Service) : Bool × Service :=
  if service.initialized = false then (false, service)
  else
    let service := { service with
      current := { service.current with state := .disconnecting }
      retryTimer := .cancelled
      retrySuppressed := true
      log := .disconnected :: service.log }
    if disconnected = false then (false, setFailure (ascii "disconnect failed".toList) service)
    else (true, { service with current := { service.current with state := .offline, ipv4 := [] } })

/-- What happens to the service: an operation, or an announcement of the platform. -/
inductive Operation where
  | start (start : Start)
  | event
  | connect (ssid password : Option (List UInt8)) (automatic accepted : Bool)
  | disconnect (disconnected : Bool)
  | update (reading : Reading)

def step (service : Service) : Operation → Service
  | .start start => (networkServiceInit start service).2
  | .event => networkEvent service
  | .connect ssid password automatic accepted => (networkServiceConnect ssid password automatic accepted service).2
  | .disconnect disconnected => (networkServiceDisconnect disconnected service).2
  | .update reading => networkServiceUpdate reading service

end Net
end TabOS
