import TabOS.Audio.Service
import TabOS.Library.Monitor
import TabOS.Library.Tokens
import Mathlib.Data.Sum.Basic

/-!
# Hardware of the audio service

`audio_service_open`, `audio_service_close`, `audio_service_close_owner` and the errors of the platform as they interleave, a critical
section of the audio mutex or a call of the platform at a time; what a caller does alone goes with the step before it. The rings stand as
numbers, each of which is one allocation; their bytes do not matter here. The history variables are what was freed and the calls of the
platform that started and stopped it, the latest first.
-/

namespace TabOS
namespace Audio

open Library

/-- A call of the platform that succeeded. -/
inductive PlatformCall where
  | start | stop
  deriving DecidableEq, Repr

/-- Where a caller is: between operations; in `audio_service_open` before its first critical section, around the start of the platform,
where the start failed, or to set the route; in `audio_service_close` before its critical section, or around the stop of the platform. -/
inductive Pc where
  | idle
  | entered (owner : Nat) (config : Option Config) (ring : Nat)
  | starting (owner : Nat) (config : Config) (ring : Nat)
  | started (owner : Nat) (config : Config) (ring : Nat) (ok : Bool)
  | failed (ring : Nat) (started : Bool)
  | restoring (ring : Nat)
  | routing (owner : Nat) (handle : Int) (route : BitVec 32)
  | closing (owner : Nat) (handle : Int) (routed : Bool)
  | stopping (result : Int)
  | stopped (result : Int)

/-- A caller, with the owner and the index at which its `audio_service_close_owner` goes on, and what its last operation returned. -/
structure Caller where
  pc : Pc
  sweep : Option (Nat × Nat)
  result : Int

/-- What `audio_mutex` guards, the callers, the allocations, and the history. -/
structure Hardware where
  streams : Streams
  rings : Fin streamCapacity → Option Nat
  info : PlatformInfo
  detected : Bool
  platformInitialized : Bool
  ready : Bool
  error : Int
  activeSampleRate : Nat
  reconfiguring : Bool
  hardwareActive : Bool
  callers : Nat → Caller
  created : Nat
  frees : Nat → Nat
  calls : List PlatformCall

/-- `audio_service_init`, with what the platform found. -/
def Hardware.init (info : PlatformInfo) (detected platformInitialized ready : Bool) (error : Int) : Hardware where
  streams := fun _ => .closed 0
  rings := fun _ => none
  info := info
  detected := detected
  platformInitialized := platformInitialized
  ready := ready
  error := error
  activeSampleRate := info.defaultSampleRate
  reconfiguring := false
  hardwareActive := false
  callers := fun _ => ⟨.idle, none, 0⟩
  created := 0
  frees := fun _ => 0
  calls := []

/-- `streams_open`. -/
def streamsOpen (streams : Streams) : Bool := (List.finRange streamCapacity).any fun index => (streams index).isOpen

def Hardware.setCaller (s : Hardware) (caller : Nat) (value : Caller) : Hardware :=
  { s with callers := Function.update s.callers caller value }

def Hardware.setPc (s : Hardware) (caller : Nat) (pc : Pc) : Hardware := s.setCaller caller { s.callers caller with pc := pc }

/-- An operation returns. -/
def Hardware.return (s : Hardware) (caller : Nat) (result : Int) : Hardware :=
  s.setCaller caller { s.callers caller with pc := .idle, result := result }

def Hardware.free (s : Hardware) (ring : Nat) : Hardware := { s with frees := Function.update s.frees ring (s.frees ring + 1) }

def Hardware.setStream (s : Hardware) (index : Fin streamCapacity) (stream : Stream) (ring : Option Nat) : Hardware :=
  { s with streams := Function.update s.streams index stream, rings := Function.update s.rings index ring }

/-- `audio_service_open` is refused. -/
def Hardware.refuse (s : Hardware) (caller ring : Nat) (error : Int) : Hardware := (s.return caller (-error)).free ring

/-- The end of a critical section of `audio_service_open`, in which the stream is entered into the table. -/
def Hardware.enter (s : Hardware) (caller owner : Nat) (config : Config) (ring : Nat) (first : Bool) : Hardware :=
  match (List.finRange streamCapacity).find? fun index => !(s.streams index).isOpen with
  | none => s.refuse caller ring 24
  | some index =>
    let generation := nextGeneration (s.streams index).generation
    let stream := openedStream owner config (rateOf s.info config) generation fun _ => 0
    let handle : Int := pack index generation
    let s := s.setStream index stream (some ring)
    if first then s.return caller handle else s.setPc caller (.routing owner handle config.route)

/-- The first critical section of `audio_service_open`. -/
def Hardware.openSection (s : Hardware) (caller owner : Nat) (config : Option Config) (ring : Nat) : Hardware :=
  if s.platformInitialized = false ∨ s.detected = false then s.refuse caller ring 19
  else
    match config with
    | none => s.refuse caller ring 22
    | some config =>
      if configValid s.info config = false then s.refuse caller ring 22
      else
        let first := !streamsOpen s.streams
        if s.reconfiguring = true ∨ (first = false ∧ rateOf s.info config ≠ s.activeSampleRate) then s.refuse caller ring 16
        else if first = false ∧ s.ready = false then s.refuse caller ring 5
        else if first then { s.setPc caller (.starting owner config ring) with reconfiguring := true, error := 0 }
        else s.enter caller owner config ring false

/-- The critical section of `audio_service_open` after the platform was started. -/
def Hardware.startedSection (s : Hardware) (caller owner : Nat) (config : Config) (ring : Nat) (ok : Bool) : Hardware :=
  if ok = false ∨ s.error ≠ 0 then
    { s.setPc caller (.failed ring ok) with ready := false, error := if s.error = 0 then 5 else s.error }
  else
    Hardware.enter
      { s with reconfiguring := false, activeSampleRate := rateOf s.info config, hardwareActive := true, ready := true, error := 0 }
      caller owner config ring true

/-- A stream leaves the table, and its ring is freed. -/
def Hardware.closeStream (s : Hardware) (index : Fin streamCapacity) : Hardware :=
  let s' := s.setStream index (.closed (s.streams index).generation) none
  (s.rings index).elim s' s'.free

/-- The critical section of `audio_service_close`, which `audio_service_open` calls when the route cannot be set. -/
def Hardware.closeSection (s : Hardware) (caller owner : Nat) (handle : Int) (routed : Bool) : Hardware :=
  let result (value : Int) : Int := if routed then value else -5
  match ownedStream owner handle s.streams with
  | none => s.return caller (result (-9))
  | some index =>
    let s' := s.closeStream index
    if s.hardwareActive && !streamsOpen s'.streams then
      { s'.setPc caller (.stopping (result 0)) with reconfiguring := true, hardwareActive := false }
    else s'.return caller (result 0)

/-- A critical section of `audio_service_close_owner`. -/
def Hardware.sweepSection (s : Hardware) (caller owner index : Nat) : Hardware :=
  if h : index < streamCapacity then
    let stream := s.streams ⟨index, h⟩
    let next := some (owner, index + 1)
    if stream.isOpen && decide (stream.owner = owner) then
      s.setCaller caller
        { s.callers caller with pc := .closing owner (pack (⟨index, h⟩ : Fin streamCapacity) stream.generation) true, sweep := next }
    else s.setCaller caller { s.callers caller with sweep := next }
  else s.setCaller caller { s.callers caller with sweep := none }

/-- A caller goes on; the answer is what the call of the platform returns. -/
def Hardware.go (s : Hardware) (caller : Nat) (answer : Bool) : Hardware :=
  match (s.callers caller).pc with
  | .idle =>
    match (s.callers caller).sweep with
    | none => s
    | some (owner, index) => s.sweepSection caller owner index
  | .entered owner config ring => s.openSection caller owner config ring
  | .starting owner config ring =>
    { s.setPc caller (.started owner config ring answer) with calls := if answer then .start :: s.calls else s.calls }
  | .started owner config ring ok => s.startedSection caller owner config ring ok
  | .failed ring started => { s.setPc caller (.restoring ring) with calls := if started then .stop :: s.calls else s.calls }
  | .restoring ring => { s.refuse caller ring 5 with reconfiguring := false }
  | .routing owner handle _ => if answer then s.return caller handle else s.setPc caller (.closing owner handle false)
  | .closing owner handle routed => s.closeSection caller owner handle routed
  | .stopping result => { s.setPc caller (.stopped result) with calls := .stop :: s.calls }
  | .stopped result => { s.return caller result with reconfiguring := false }

/-- What happens next: a caller that is between operations begins one, a caller goes on, or the platform reports an error. -/
inductive Op where
  | open (caller owner : Nat) (config : Option Config) (memory : Bool)
  | close (caller owner : Nat) (handle : Int)
  | closeOwner (caller owner : Nat)
  | go (caller : Nat) (answer : Bool)
  | error (code : Int)

/-- A caller is between operations. -/
def Hardware.Free (s : Hardware) (caller : Nat) : Prop :=
  match (s.callers caller).pc, (s.callers caller).sweep with
  | .idle, none => True
  | _, _ => False

instance (s : Hardware) (caller : Nat) : Decidable (s.Free caller) := by
  unfold Hardware.Free
  split <;> infer_instance

/-- `audio_service_error`. -/
def Hardware.report (s : Hardware) (code : Int) : Hardware :=
  { s with ready := false, error := if code ≠ 0 then code else 5, streams := audioServiceError s.streams }

def Hardware.step (s : Hardware) : Op → Hardware
  | .open caller owner config memory =>
    if ¬s.Free caller then s
    else if owner = 0 then s.return caller (-22)
    else if memory = false then s.return caller (-12)
    else { s.setPc caller (.entered owner config s.created) with created := s.created + 1 }
  | .close caller owner handle => if ¬s.Free caller then s else s.setPc caller (.closing owner handle true)
  | .closeOwner caller owner =>
    if ¬s.Free caller ∨ owner = 0 then s else s.setCaller caller { s.callers caller with sweep := some (owner, 0) }
  | .go caller answer => s.go caller answer
  | .error code => s.report code

/-! ## The rings -/

/-- The ring that a caller has. -/
def Pc.ring : Pc → Option Nat
  | .entered _ _ ring => some ring
  | .starting _ _ ring => some ring
  | .started _ _ ring _ => some ring
  | .failed ring _ => some ring
  | .restoring ring => some ring
  | _ => none

/-- The ring that a stream or a caller has. -/
def Hardware.has (s : Hardware) : Fin streamCapacity ⊕ Nat → Option Nat := Sum.elim s.rings fun caller => (s.callers caller).pc.ring

/-- Every ring is in one hand or freed once, and the streams that are open are those with a ring. -/
structure Rings (s : Hardware) : Prop where
  accounted : Accounted s.has s.created s.frees
  slots : ∀ index, (s.rings index).isSome = (s.streams index).isOpen

theorem has_setCaller (s : Hardware) (caller : Nat) (value : Caller) :
    (s.setCaller caller value).has = Function.update s.has (Sum.inr caller) value.pc.ring := by
  funext holder
  cases holder with
  | inl index => simp [Hardware.has, Hardware.setCaller]
  | inr other =>
    by_cases hother : other = caller
    · subst hother
      simp [Hardware.has, Hardware.setCaller]
    · simp [Hardware.has, Hardware.setCaller, hother]

theorem has_setStream (s : Hardware) (index : Fin streamCapacity) (stream : Stream) (ring : Option Nat) :
    (s.setStream index stream ring).has = Function.update s.has (Sum.inl index) ring := by
  funext holder
  cases holder with
  | inr other => simp [Hardware.has, Hardware.setStream]
  | inl other =>
    by_cases hother : other = index
    · subst hother
      simp [Hardware.has, Hardware.setStream]
    · simp [Hardware.has, Hardware.setStream, hother]

/-- The rings do not look at the hardware. -/
theorem Rings.congr {s s' : Hardware} (h : Rings s) (hhas : s'.has = s.has) (hcreated : s'.created = s.created)
    (hfrees : s'.frees = s.frees)
    (hrings : s'.rings = s.rings) (hopen : ∀ index, (s'.streams index).isOpen = (s.streams index).isOpen) : Rings s' := by
  refine ⟨by rw [hhas, hcreated, hfrees]; exact h.accounted, fun index => ?_⟩
  rw [hrings, hopen]
  exact h.slots index

/-- A caller goes on with what it has. -/
theorem Rings.setCaller {s : Hardware} (h : Rings s) {caller : Nat} {value : Caller}
    (hring : value.pc.ring = (s.callers caller).pc.ring) : Rings (s.setCaller caller value) := by
  refine ⟨?_, h.slots⟩
  have hsame : Function.update s.has (Sum.inr caller) value.pc.ring = s.has := by
    rw [hring]
    exact Function.update_eq_self (Sum.inr caller) s.has
  rw [has_setCaller, hsame]
  exact h.accounted

/-- A caller allocates a ring. -/
theorem Rings.allocate {s : Hardware} (h : Rings s) {caller : Nat} {value : Caller} (hold : (s.callers caller).pc.ring = none)
    (hnew : value.pc.ring = some s.created) : Rings { s.setCaller caller value with created := s.created + 1 } := by
  refine ⟨?_, h.slots⟩
  have hhas : ({ s.setCaller caller value with created := s.created + 1 } : Hardware).has = (s.setCaller caller value).has := rfl
  rw [hhas, has_setCaller, hnew]
  exact h.accounted.create hold

/-- A caller frees its ring. -/
theorem Rings.refuse {s : Hardware} (h : Rings s) {caller ring : Nat} (hold : (s.callers caller).pc.ring = some ring) (error : Int) :
    Rings (s.refuse caller ring error) := by
  refine ⟨?_, h.slots⟩
  have hhas : (s.refuse caller ring error).has = (s.return caller (-error)).has := rfl
  rw [hhas, Hardware.return, has_setCaller]
  exact h.accounted.free hold

/-- A stream frees its ring. -/
theorem Rings.close {s : Hardware} (h : Rings s) {index : Fin streamCapacity} (hopen : (s.streams index).isOpen = true) :
    Rings (s.closeStream index) := by
  obtain ⟨ring, hold⟩ := Option.isSome_iff_exists.1 ((h.slots index).trans hopen)
  rw [Hardware.closeStream, hold]
  refine ⟨?_, fun other => ?_⟩
  · have hhas : ((s.setStream index (.closed (s.streams index).generation) none).free ring).has =
        (s.setStream index (.closed (s.streams index).generation) none).has := rfl
    dsimp only [Option.elim]
    rw [hhas, has_setStream]
    exact h.accounted.free hold
  · dsimp only [Option.elim]
    by_cases hother : other = index
    · subst hother
      simp [Hardware.free, Hardware.setStream, Stream.closed]
    · simp only [Hardware.free, Hardware.setStream, Function.update_of_ne hother]
      exact h.slots other

/-- A caller passes its ring to a stream. -/
theorem Rings.enter {s : Hardware} (h : Rings s) {caller owner ring : Nat} (hold : (s.callers caller).pc.ring = some ring)
    (config : Config)
    (first : Bool) : Rings (s.enter caller owner config ring first) := by
  rw [Hardware.enter]
  split
  · exact h.refuse hold 24
  · rename_i index hfind
    have hclosed : (s.streams index).isOpen = false := by simpa using List.find?_some hfind
    have hempty : s.rings index = none := by
      have := h.slots index
      rw [hclosed] at this
      exact Option.isNone_iff_eq_none.1 (by rw [← Option.not_isSome, this]; rfl)
    have hpass : ∀ (stream : Stream) (value : Caller), stream.isOpen = true → value.pc.ring = none →
        Rings ((s.setStream index stream (some ring)).setCaller caller value) := by
      intro stream value hopen hvalue
      refine ⟨?_, fun other => ?_⟩
      · rw [has_setCaller, has_setStream, hvalue, Function.update_comm (by simp)]
        exact h.accounted.pass hold hempty
      · by_cases hother : other = index
        · subst hother
          simp [Hardware.setCaller, Hardware.setStream, hopen]
        · simp only [Hardware.setCaller, Hardware.setStream, Function.update_of_ne hother]
          exact h.slots other
    dsimp only
    split
    · exact hpass _ _ rfl rfl
    · exact hpass _ _ rfl rfl

theorem Rings.return {s : Hardware} (h : Rings s) {caller : Nat} (hold : (s.callers caller).pc.ring = none) (result : Int) :
    Rings (s.return caller result) := h.setCaller (by rw [hold]; rfl)

theorem Rings.setPc {s : Hardware} (h : Rings s) {caller : Nat} {pc : Pc} (hring : pc.ring = (s.callers caller).pc.ring) :
    Rings (s.setPc caller pc) := h.setCaller hring

theorem openSection_rings {s : Hardware} (h : Rings s) {caller owner ring : Nat} {config : Option Config}
    (hpc : (s.callers caller).pc = .entered owner config ring) : Rings (s.openSection caller owner config ring) := by
  have hold : (s.callers caller).pc.ring = some ring := by rw [hpc]; rfl
  unfold Hardware.openSection
  split
  · exact h.refuse hold 19
  · split
    · exact h.refuse hold 22
    · rename_i config
      split
      · exact h.refuse hold 22
      · dsimp only
        split
        · exact h.refuse hold 16
        · split
          · exact h.refuse hold 5
          · split
            · have hset : Rings (s.setPc caller (.starting owner config ring)) := h.setPc (by rw [hold]; rfl)
              exact hset.congr rfl rfl rfl rfl fun _ => rfl
            · exact h.enter hold _ _

theorem startedSection_rings {s : Hardware} (h : Rings s) {caller owner ring : Nat} {config : Config} {ok : Bool}
    (hpc : (s.callers caller).pc = .started owner config ring ok) : Rings (s.startedSection caller owner config ring ok) := by
  have hold : (s.callers caller).pc.ring = some ring := by rw [hpc]; rfl
  rw [Hardware.startedSection]
  split
  · have hset : Rings (s.setPc caller (.failed ring ok)) := h.setPc (by rw [hold]; rfl)
    exact hset.congr rfl rfl rfl rfl fun _ => rfl
  · have hactive : Rings { s with
        reconfiguring := false, activeSampleRate := rateOf s.info config, hardwareActive := true, ready := true, error := 0 } :=
      h.congr rfl rfl rfl rfl fun _ => rfl
    exact hactive.enter hold _ _

theorem closeSection_rings {s : Hardware} (h : Rings s) {caller owner : Nat} {handle : Int} {routed : Bool}
    (hpc : (s.callers caller).pc = .closing owner handle routed) : Rings (s.closeSection caller owner handle routed) := by
  have hold : (s.callers caller).pc.ring = none := by rw [hpc]; rfl
  rw [Hardware.closeSection]
  dsimp only
  split
  · exact h.return hold _
  · rename_i index howned
    have hclosed := h.close (isOpen_of_ownedStream howned)
    have hsame : (s.closeStream index).callers = s.callers := by
      rw [Hardware.closeStream]
      cases s.rings index <;> rfl
    by_cases hstop : (s.hardwareActive && !streamsOpen (s.closeStream index).streams) = true
    · rw [if_pos hstop]
      have hset : Rings ((s.closeStream index).setPc caller (.stopping (if routed = true then 0 else -5))) :=
        hclosed.setPc (by rw [hsame]; exact hold.symm)
      exact hset.congr rfl rfl rfl rfl fun _ => rfl
    · rw [if_neg hstop]
      exact hclosed.return (by rw [hsame]; exact hold) _

theorem sweepSection_rings {s : Hardware} (h : Rings s) {caller owner index : Nat} (hold : (s.callers caller).pc.ring = none) :
    Rings (s.sweepSection caller owner index) := by
  rw [Hardware.sweepSection]
  split
  · dsimp only
    split
    · exact h.setCaller (by rw [hold]; rfl)
    · exact h.setCaller rfl
  · exact h.setCaller rfl

/-- A caller that goes on keeps the account of the rings. -/
theorem go_rings {s : Hardware} (h : Rings s) (caller : Nat) (answer : Bool) : Rings (s.go caller answer) := by
  cases hpc : (s.callers caller).pc with
  | idle =>
    have hold : (s.callers caller).pc.ring = none := by rw [hpc]; rfl
    simp only [Hardware.go, hpc]
    split
    · exact h
    · exact sweepSection_rings h hold
  | entered owner config ring =>
    simp only [Hardware.go, hpc]
    exact openSection_rings h hpc
  | starting owner config ring =>
    simp only [Hardware.go, hpc]
    have hset : Rings (s.setPc caller (.started owner config ring answer)) := h.setPc (by rw [hpc]; rfl)
    exact hset.congr rfl rfl rfl rfl fun _ => rfl
  | started owner config ring ok =>
    simp only [Hardware.go, hpc]
    exact startedSection_rings h hpc
  | failed ring started =>
    simp only [Hardware.go, hpc]
    have hset : Rings (s.setPc caller (.restoring ring)) := h.setPc (by rw [hpc]; rfl)
    exact hset.congr rfl rfl rfl rfl fun _ => rfl
  | restoring ring =>
    simp only [Hardware.go, hpc]
    have hset : Rings (s.refuse caller ring 5) := h.refuse (by rw [hpc]; rfl) 5
    exact hset.congr rfl rfl rfl rfl fun _ => rfl
  | routing owner handle route =>
    have hold : (s.callers caller).pc.ring = none := by rw [hpc]; rfl
    simp only [Hardware.go, hpc]
    split
    · exact h.return hold _
    · exact h.setPc hold.symm
  | closing owner handle routed =>
    simp only [Hardware.go, hpc]
    exact closeSection_rings h hpc
  | stopping result =>
    simp only [Hardware.go, hpc]
    have hset : Rings (s.setPc caller (.stopped result)) := h.setPc (by rw [hpc]; rfl)
    exact hset.congr rfl rfl rfl rfl fun _ => rfl
  | stopped result =>
    simp only [Hardware.go, hpc]
    have hset : Rings (s.return caller result) := h.return (by rw [hpc]; rfl) result
    exact hset.congr rfl rfl rfl rfl fun _ => rfl

theorem isOpen_report (streams : Streams) (index : Fin streamCapacity) :
    (audioServiceError streams index).isOpen = (streams index).isOpen := by
  rw [audioServiceError, eachStream_apply]
  dsimp only
  split <;> rfl

theorem Hardware.Free.pc {s : Hardware} {caller : Nat} (h : s.Free caller) : (s.callers caller).pc = .idle := by
  unfold Hardware.Free at h
  split at h
  · assumption
  · exact h.elim

/-- Every step keeps the account of the rings. -/
theorem step_rings (s : Hardware) (op : Op) (h : Rings s) : Rings (s.step op) := by
  cases op with
  | «open» caller owner config memory =>
    rw [Hardware.step]
    split
    · exact h
    · rename_i hfree
      have hold : (s.callers caller).pc.ring = none := by rw [(not_not.1 hfree).pc]; rfl
      split
      · exact h.return hold _
      · split
        · exact h.return hold _
        · exact h.allocate hold rfl
  | close caller owner handle =>
    rw [Hardware.step]
    split
    · exact h
    · rename_i hfree
      exact h.setPc (by rw [(not_not.1 hfree).pc]; rfl)
  | closeOwner caller owner =>
    rw [Hardware.step]
    split
    · exact h
    · exact h.setCaller rfl
  | go caller answer => exact go_rings h caller answer
  | error code => exact h.congr rfl rfl rfl rfl (isOpen_report s.streams)

/-! ## Whose turn it is at the hardware -/

/-- Whether a caller is reconfiguring the hardware. -/
def Pc.reconfigures : Pc → Bool
  | .starting .. => true
  | .started .. => true
  | .failed .. => true
  | .restoring .. => true
  | .stopping .. => true
  | .stopped .. => true
  | _ => false

/-- Whether the hardware runs while a caller is reconfiguring it. -/
def Pc.runs : Pc → Bool
  | .started _ _ _ ok => ok
  | .failed _ ran => ran
  | .stopping _ => true
  | _ => false

/-- Whether the hardware runs after the calls of the platform. -/
def running (calls : List PlatformCall) : Bool := watch (fun _ call => decide (call = .start)) false calls

/-- The hardware is started only when it does not run, and stopped only when it does. -/
def Alternate (calls : List PlatformCall) : Prop :=
  Always (fun _ call => decide (call = PlatformCall.start)) false (fun runs call => runs = decide (call = .stop)) calls

theorem alternate_cons {calls : List PlatformCall} {call : PlatformCall} :
    Alternate (call :: calls) ↔ running calls = decide (call = .stop) ∧ Alternate calls := always_cons

theorem streamsOpen_eq_false {streams : Streams} : streamsOpen streams = false ↔ ∀ index, (streams index).isOpen = false := by
  simp [streamsOpen, List.any_eq_false]

theorem streamsOpen_of_open {streams : Streams} {index : Fin streamCapacity} (h : (streams index).isOpen = true) :
    streamsOpen streams = true := by
  rw [streamsOpen, List.any_eq_true]
  exact ⟨index, List.mem_finRange index, h⟩

/-- One caller at most reconfigures the hardware, while no stream is open; otherwise the hardware runs when a stream is open. -/
structure Turn (s : Hardware) : Prop where
  rate : ∀ index, (s.streams index).isOpen = true → (s.streams index).sampleRate = s.activeSampleRate
  alternate : Alternate s.calls
  settled : s.reconfiguring = false → (∀ caller, (s.callers caller).pc.reconfigures = false) ∧
    s.hardwareActive = streamsOpen s.streams ∧ running s.calls = s.hardwareActive
  taken : s.reconfiguring = true → ∃ caller, (s.callers caller).pc.reconfigures = true ∧
    (∀ other, other ≠ caller → (s.callers other).pc.reconfigures = false) ∧ streamsOpen s.streams = false ∧ s.hardwareActive = false ∧
    running s.calls = (s.callers caller).pc.runs

theorem setCaller_same (s : Hardware) (caller : Nat) (value : Caller) : (s.setCaller caller value).callers caller = value := by
  simp only [Hardware.setCaller, Function.update_self]

theorem setCaller_other (s : Hardware) {caller other : Nat} (h : other ≠ caller) (value : Caller) :
    (s.setCaller caller value).callers other = s.callers other := by
  simp only [Hardware.setCaller, Function.update_of_ne h]

/-- The turn does not look at the rings. -/
theorem Turn.congr {s s' : Hardware} (h : Turn s) (hstreams : ∀ index, (s'.streams index).isOpen = (s.streams index).isOpen ∧
    (s'.streams index).sampleRate = (s.streams index).sampleRate) (hrate : s'.activeSampleRate = s.activeSampleRate)
    (hcalls : s'.calls = s.calls) (hreconfiguring : s'.reconfiguring = s.reconfiguring) (hactive : s'.hardwareActive = s.hardwareActive)
    (hcallers : s'.callers = s.callers) : Turn s' := by
  have hopen : streamsOpen s'.streams = streamsOpen s.streams := by
    rw [streamsOpen, streamsOpen]
    congr 1
    funext index
    exact (hstreams index).1
  refine ⟨?_, by rw [hcalls]; exact h.alternate, ?_, ?_⟩
  · intro index hindex
    rw [(hstreams index).2, hrate]
    exact h.rate index ((hstreams index).1 ▸ hindex)
  · rw [hreconfiguring, hcallers, hactive, hcalls, hopen]
    exact h.settled
  · rw [hreconfiguring, hcallers, hactive, hcalls, hopen]
    exact h.taken

/-- A caller that does not reconfigure the hardware goes on. -/
theorem Turn.setCaller {s : Hardware} (h : Turn s) {caller : Nat} {value : Caller} (hold : (s.callers caller).pc.reconfigures = false)
    (hnew : value.pc.reconfigures = false) : Turn (s.setCaller caller value) := by
  refine ⟨h.rate, h.alternate, fun hfree => ?_, fun hbusy => ?_⟩
  · obtain ⟨hcallers, hrest⟩ := h.settled hfree
    refine ⟨fun other => ?_, hrest⟩
    by_cases hother : other = caller
    · rw [hother, setCaller_same]
      exact hnew
    · rw [setCaller_other s hother]
      exact hcallers other
  · obtain ⟨holder, hholder, hothers, hrest⟩ := h.taken hbusy
    have hne : holder ≠ caller := by
      rintro rfl
      exact absurd (hold.symm.trans hholder) Bool.false_ne_true
    refine ⟨holder, by rw [setCaller_other s hne]; exact hholder, fun other hother => ?_, by rw [setCaller_other s hne]; exact hrest⟩
    by_cases hcaller : other = caller
    · rw [hcaller, setCaller_same]
      exact hnew
    · rw [setCaller_other s hcaller]
      exact hothers other hother

/-- The caller that reconfigures the hardware is the only one, and no stream is open. -/
theorem Turn.holder {s : Hardware} (h : Turn s) {caller : Nat} (hc : (s.callers caller).pc.reconfigures = true) :
    s.reconfiguring = true ∧ (∀ other, other ≠ caller → (s.callers other).pc.reconfigures = false) ∧ streamsOpen s.streams = false ∧
      s.hardwareActive = false ∧ running s.calls = (s.callers caller).pc.runs := by
  cases hr : s.reconfiguring with
  | false => exact absurd ((((h.settled hr).1 caller).symm).trans hc) Bool.false_ne_true
  | true =>
    obtain ⟨holder, hholder, hothers, hrest⟩ := h.taken hr
    obtain rfl : caller = holder := by
      by_contra hne
      exact absurd ((hothers caller hne).symm.trans hc) Bool.false_ne_true
    exact ⟨rfl, hothers, hrest⟩

/-- The caller that reconfigures the hardware goes on with it. -/
theorem Turn.advance {s : Hardware} (h : Turn s) {caller : Nat} {value : Caller} {calls : List PlatformCall}
    (hold : (s.callers caller).pc.reconfigures = true) (hnew : value.pc.reconfigures = true) (halternate : Alternate calls)
    (hruns : running calls = value.pc.runs) : Turn { s.setCaller caller value with calls := calls } := by
  obtain ⟨hr, hothers, hopen, hactive, -⟩ := h.holder hold
  have hsame : (s.setCaller caller value).callers caller = value := setCaller_same s caller value
  refine ⟨h.rate, halternate, fun hfree => absurd (hfree.symm.trans hr) Bool.false_ne_true, fun _ => ⟨caller, ?_, ?_, hopen, hactive, ?_⟩⟩
  · dsimp only
    rw [hsame]
    exact hnew
  · intro other hother
    dsimp only
    rw [setCaller_other s hother]
    exact hothers other hother
  · dsimp only
    rw [hsame]
    exact hruns

/-- The caller that reconfigures the hardware is done with it. -/
theorem Turn.finish {s : Hardware} (h : Turn s) {caller : Nat} {value : Caller} (hold : (s.callers caller).pc.reconfigures = true)
    (hruns : (s.callers caller).pc.runs = false) (hnew : value.pc.reconfigures = false) :
    Turn { s.setCaller caller value with reconfiguring := false } := by
  obtain ⟨-, hothers, hopen, hactive, hrunning⟩ := h.holder hold
  refine ⟨h.rate, h.alternate, fun _ => ⟨fun other => ?_, hactive.trans hopen.symm, ?_⟩, fun hf => absurd hf Bool.false_ne_true⟩
  · dsimp only
    by_cases hother : other = caller
    · rw [hother, setCaller_same]
      exact hnew
    · rw [setCaller_other s hother]
      exact hothers other hother
  · exact (hrunning.trans hruns).trans hactive.symm

/-- A caller takes the turn while no stream is open. -/
theorem Turn.take {s : Hardware} (h : Turn s) {caller : Nat} {value : Caller} (hfree : s.reconfiguring = false)
    (hopen : streamsOpen s.streams = false) (hnew : value.pc.reconfigures = true) (hruns : value.pc.runs = false) (error : Int) :
    Turn { s.setCaller caller value with reconfiguring := true, error := error } := by
  obtain ⟨hcallers, hactive, hrunning⟩ := h.settled hfree
  have hsame : (s.setCaller caller value).callers caller = value := setCaller_same s caller value
  refine ⟨h.rate, h.alternate, fun hf => absurd hf.symm Bool.false_ne_true, fun _ => ⟨caller, ?_, ?_, hopen, hactive.trans hopen, ?_⟩⟩
  · dsimp only
    rw [hsame]
    exact hnew
  · intro other hother
    dsimp only
    rw [setCaller_other s hother]
    exact hcallers other
  · dsimp only
    rw [hsame, hruns]
    exact hrunning.trans (hactive.trans hopen)

/-- A stream of the rate of the hardware is entered into the table while the hardware runs. -/
theorem enter_turn {s : Hardware} {caller owner ring : Nat} {config : Config} (first : Bool)
    (hrate : ∀ index, (s.streams index).isOpen = true → (s.streams index).sampleRate = s.activeSampleRate)
    (halternate : Alternate s.calls)
    (hfree : s.reconfiguring = false) (hothers : ∀ other, other ≠ caller → (s.callers other).pc.reconfigures = false)
    (hactive : s.hardwareActive = true) (hrunning : running s.calls = true) (hconfig : rateOf s.info config = s.activeSampleRate) :
    Turn (s.enter caller owner config ring first) := by
  have hcallers : ∀ value : Caller, value.pc.reconfigures = false →
      ∀ other, ((s.setCaller caller value).callers other).pc.reconfigures = false := by
    intro value hvalue other
    by_cases hother : other = caller
    · rw [hother, setCaller_same]
      exact hvalue
    · rw [setCaller_other s hother]
      exact hothers other hother
  have hbusy : ∀ P : Prop, s.reconfiguring = true → P := fun P h => absurd (hfree.symm.trans h) Bool.false_ne_true
  rw [Hardware.enter]
  split
  · rename_i hfull
    have hopen : (s.streams 0).isOpen = true := by simpa using List.find?_eq_none.1 hfull 0 (List.mem_finRange 0)
    exact ⟨hrate, halternate,
      fun _ => ⟨hcallers _ rfl, hactive.trans (streamsOpen_of_open hopen).symm, hrunning.trans hactive.symm⟩, hbusy _⟩
  · rename_i index _
    have hentered : ∀ (stream : Stream) (value : Caller), stream.isOpen = true → stream.sampleRate = s.activeSampleRate →
        value.pc.reconfigures = false → Turn ((s.setStream index stream (some ring)).setCaller caller value) := by
      intro stream value hopen hsample hvalue
      have hindex : (Function.update s.streams index stream index).isOpen = true := by rw [Function.update_self]; exact hopen
      refine ⟨?_, halternate, fun _ => ⟨hcallers value hvalue, ?_, hrunning.trans hactive.symm⟩, hbusy _⟩
      · intro other hother
        by_cases heq : other = index
        · subst heq
          simp only [Hardware.setCaller, Hardware.setStream, Function.update_self]
          exact hsample
        · simp only [Hardware.setCaller, Hardware.setStream, Function.update_of_ne heq] at hother ⊢
          exact hrate other hother
      · exact hactive.trans (streamsOpen_of_open hindex).symm
    dsimp only
    split
    · exact hentered _ _ rfl hconfig rfl
    · exact hentered _ _ rfl hconfig rfl

/-- What the rest of the service sees of a stream that leaves the table. -/
theorem closeStream_eq (s : Hardware) (index : Fin streamCapacity) :
    ∃ frees, s.closeStream index = { s with
      streams := Function.update s.streams index (.closed (s.streams index).generation), rings := Function.update s.rings index none,
      frees := frees } := by
  rw [Hardware.closeStream]
  cases s.rings index with
  | none => exact ⟨s.frees, rfl⟩
  | some ring => exact ⟨Function.update s.frees ring (s.frees ring + 1), rfl⟩

/-- The last stream takes the hardware with it. -/
theorem closeSection_turn {s : Hardware} (h : Turn s) {caller owner : Nat} {handle : Int} {routed : Bool}
    (hpc : (s.callers caller).pc = .closing owner handle routed) : Turn (s.closeSection caller owner handle routed) := by
  have hold : (s.callers caller).pc.reconfigures = false := by rw [hpc]; rfl
  rw [Hardware.closeSection]
  dsimp only
  split
  · exact h.setCaller hold rfl
  · rename_i index howned
    have hopen := streamsOpen_of_open (isOpen_of_ownedStream howned)
    have hfree : s.reconfiguring = false := by
      by_contra hbusy
      obtain ⟨_, -, -, hclosed, -⟩ := h.taken (Bool.eq_true_of_not_eq_false hbusy)
      exact absurd (hclosed.symm.trans hopen) Bool.false_ne_true
    obtain ⟨hcallers, hactive, hrunning⟩ := h.settled hfree
    obtain ⟨frees, hclose⟩ := closeStream_eq s index
    have hrate : ∀ other, (Function.update s.streams index (Stream.closed (s.streams index).generation) other).isOpen = true →
        (Function.update s.streams index (Stream.closed (s.streams index).generation) other).sampleRate = s.activeSampleRate := by
      intro other hother
      by_cases heq : other = index
      · rw [heq, Function.update_self] at hother
        exact absurd hother Bool.false_ne_true
      · rw [Function.update_of_ne heq] at hother ⊢
        exact h.rate other hother
    rw [hclose]
    by_cases hstop : (s.hardwareActive && !streamsOpen (Function.update s.streams index (.closed (s.streams index).generation))) = true
    · rw [if_pos hstop]
      rw [Bool.and_eq_true, Bool.not_eq_true'] at hstop
      refine ⟨hrate, h.alternate, fun hf => absurd hf.symm Bool.false_ne_true, fun _ => ⟨caller, ?_, ?_, hstop.2, rfl, ?_⟩⟩
      · simp [Hardware.setPc, Hardware.setCaller, Pc.reconfigures]
      · intro other hother
        simp only [Hardware.setPc, Hardware.setCaller, Function.update_of_ne hother]
        exact hcallers other
      · simp only [Hardware.setPc, Hardware.setCaller, Function.update_self]
        exact hrunning.trans hstop.1
    · rw [if_neg hstop]
      refine ⟨hrate, h.alternate, fun _ => ⟨fun other => ?_, ?_, hrunning⟩,
        fun hbusy => absurd (hfree.symm.trans hbusy) Bool.false_ne_true⟩
      · by_cases hother : other = caller
        · rw [hother]
          simp [Hardware.return, Hardware.setCaller, Pc.reconfigures]
        · simp only [Hardware.return, Hardware.setCaller, Function.update_of_ne hother]
          exact hcallers other
      · have hon : s.hardwareActive = true := hactive.trans hopen
        rw [hon, Bool.true_and, Bool.not_eq_true', Bool.not_eq_false] at hstop
        exact hon.trans hstop.symm

theorem openSection_turn {s : Hardware} (h : Turn s) {caller owner ring : Nat} {config : Option Config}
    (hpc : (s.callers caller).pc = .entered owner config ring) : Turn (s.openSection caller owner config ring) := by
  have hold : (s.callers caller).pc.reconfigures = false := by rw [hpc]; rfl
  have hrefuse : ∀ error, Turn (s.refuse caller ring error) := by
    intro error
    have hset : Turn (s.return caller (-error)) := h.setCaller hold rfl
    exact hset.congr (fun _ => ⟨rfl, rfl⟩) rfl rfl rfl rfl rfl
  unfold Hardware.openSection
  split
  · exact hrefuse 19
  · split
    · exact hrefuse 22
    · split
      · exact hrefuse 22
      · dsimp only
        split
        · exact hrefuse 16
        · rename_i hallowed
          split
          · exact hrefuse 5
          · rw [not_or] at hallowed
            obtain ⟨hbusy, hrate⟩ := hallowed
            have hfree := Bool.eq_false_of_not_eq_true hbusy
            obtain ⟨hcallers, hactive, hrunning⟩ := h.settled hfree
            split
            · rename_i hfirst
              rw [Bool.not_eq_true'] at hfirst
              exact h.take hfree hfirst rfl rfl 0
            · rename_i hfirst
              rw [Bool.not_eq_true', Bool.not_eq_false] at hfirst
              have hsame := Decidable.not_not.1 fun hne => hrate ⟨by rw [hfirst]; rfl, hne⟩
              exact enter_turn false h.rate h.alternate hfree (fun other _ => hcallers other) (hactive.trans hfirst)
                (hrunning.trans (hactive.trans hfirst)) hsame

theorem startedSection_turn {s : Hardware} (h : Turn s) {caller owner ring : Nat} {config : Config} {ok : Bool}
    (hpc : (s.callers caller).pc = .started owner config ring ok) : Turn (s.startedSection caller owner config ring ok) := by
  have hold : (s.callers caller).pc.reconfigures = true := by rw [hpc]; rfl
  obtain ⟨hbusy, hothers, hopen, hactive, hrunning⟩ := h.holder hold
  have hruns : (s.callers caller).pc.runs = ok := by rw [hpc]; rfl
  rw [Hardware.startedSection]
  split
  · have hset : Turn { s.setPc caller (.failed ring ok) with calls := s.calls } := h.advance hold rfl h.alternate (hrunning.trans hruns)
    exact hset.congr (fun _ => ⟨rfl, rfl⟩) rfl rfl rfl rfl rfl
  · rename_i hok
    rw [not_or] at hok
    have hstarted := Bool.eq_true_of_not_eq_false hok.1
    refine enter_turn true (fun index hindex => ?_) h.alternate rfl hothers rfl (hrunning.trans (hruns.trans hstarted)) rfl
    exact absurd ((streamsOpen_eq_false.1 hopen index).symm.trans hindex) Bool.false_ne_true

/-- A caller that goes on keeps the turn. -/
theorem go_turn {s : Hardware} (h : Turn s) (caller : Nat) (answer : Bool) : Turn (s.go caller answer) := by
  cases hpc : (s.callers caller).pc with
  | idle =>
    have hold : (s.callers caller).pc.reconfigures = false := by rw [hpc]; rfl
    simp only [Hardware.go, hpc]
    split
    · exact h
    · rw [Hardware.sweepSection]
      split
      · dsimp only
        split
        · exact h.setCaller hold rfl
        · exact h.setCaller hold hold
      · exact h.setCaller hold hold
  | entered owner config ring =>
    simp only [Hardware.go, hpc]
    exact openSection_turn h hpc
  | starting owner config ring =>
    have hold : (s.callers caller).pc.reconfigures = true := by rw [hpc]; rfl
    have hrunning : running s.calls = false := by
      obtain ⟨-, -, -, -, hrunning⟩ := h.holder hold
      rw [hrunning, hpc]
      rfl
    simp only [Hardware.go, hpc]
    cases answer with
    | false => exact h.advance hold rfl h.alternate hrunning
    | true => exact h.advance hold rfl (alternate_cons.2 ⟨hrunning, h.alternate⟩) rfl
  | started owner config ring ok =>
    simp only [Hardware.go, hpc]
    exact startedSection_turn h hpc
  | failed ring ran =>
    have hold : (s.callers caller).pc.reconfigures = true := by rw [hpc]; rfl
    have hrunning : running s.calls = ran := by
      obtain ⟨-, -, -, -, hrunning⟩ := h.holder hold
      rw [hrunning, hpc]
      rfl
    simp only [Hardware.go, hpc]
    cases ran with
    | false => exact h.advance hold rfl h.alternate hrunning
    | true => exact h.advance hold rfl (alternate_cons.2 ⟨hrunning, h.alternate⟩) rfl
  | restoring ring =>
    have hold : (s.callers caller).pc.reconfigures = true := by rw [hpc]; rfl
    simp only [Hardware.go, hpc]
    have hset : Turn { s.return caller (-5) with reconfiguring := false } := h.finish hold (by rw [hpc]; rfl) rfl
    exact hset.congr (fun _ => ⟨rfl, rfl⟩) rfl rfl rfl rfl rfl
  | routing owner handle route =>
    have hold : (s.callers caller).pc.reconfigures = false := by rw [hpc]; rfl
    simp only [Hardware.go, hpc]
    split
    · exact h.setCaller hold rfl
    · exact h.setCaller hold rfl
  | closing owner handle routed =>
    simp only [Hardware.go, hpc]
    exact closeSection_turn h hpc
  | stopping result =>
    have hold : (s.callers caller).pc.reconfigures = true := by rw [hpc]; rfl
    have hrunning : running s.calls = true := by
      obtain ⟨-, -, -, -, hrunning⟩ := h.holder hold
      rw [hrunning, hpc]
      rfl
    simp only [Hardware.go, hpc]
    exact h.advance hold rfl (alternate_cons.2 ⟨hrunning, h.alternate⟩) rfl
  | stopped result =>
    have hold : (s.callers caller).pc.reconfigures = true := by rw [hpc]; rfl
    simp only [Hardware.go, hpc]
    exact h.finish hold (by rw [hpc]; rfl) rfl

/-- Every step keeps the turn. -/
theorem step_turn (s : Hardware) (op : Op) (h : Turn s) : Turn (s.step op) := by
  have hidle : ∀ caller, s.Free caller → (s.callers caller).pc.reconfigures = false := by
    intro caller hfree
    rw [hfree.pc]
    rfl
  cases op with
  | «open» caller owner config memory =>
    rw [Hardware.step]
    split
    · exact h
    · rename_i hfree
      have hold := hidle caller (not_not.1 hfree)
      split
      · exact h.setCaller hold rfl
      · split
        · exact h.setCaller hold rfl
        · have hset : Turn (s.setPc caller (.entered owner config s.created)) := h.setCaller hold rfl
          exact hset.congr (fun _ => ⟨rfl, rfl⟩) rfl rfl rfl rfl rfl
  | close caller owner handle =>
    rw [Hardware.step]
    split
    · exact h
    · rename_i hfree
      exact h.setCaller (hidle caller (not_not.1 hfree)) rfl
  | closeOwner caller owner =>
    rw [Hardware.step]
    split
    · exact h
    · rename_i hfree
      have hold := hidle caller (not_not.1 fun hbusy => hfree (.inl hbusy))
      exact h.setCaller hold hold
  | go caller answer => exact go_turn h caller answer
  | error code =>
    refine h.congr (fun index => ⟨isOpen_report s.streams index, ?_⟩) rfl rfl rfl rfl rfl
    rw [Hardware.step, Hardware.report, audioServiceError, eachStream_apply]
    dsimp only
    split <;> rfl

theorem init_turn (info : PlatformInfo) (detected platformInitialized ready : Bool) (error : Int) :
    Turn (.init info detected platformInitialized ready error) := by
  have hopen : streamsOpen (fun _ => Stream.closed 0) = false := streamsOpen_eq_false.2 fun _ => rfl
  exact ⟨fun _ h => absurd h Bool.false_ne_true, trivial, fun _ => ⟨fun _ => rfl, hopen.symm, rfl⟩, fun h => absurd h Bool.false_ne_true⟩

theorem init_rings (info : PlatformInfo) (detected platformInitialized ready : Bool) (error : Int) :
    Rings (.init info detected platformInitialized ready error) := by
  have hhas : (Hardware.init info detected platformInitialized ready error).has = fun _ => none := by
    funext holder
    cases holder <;> rfl
  refine ⟨?_, fun _ => rfl⟩
  rw [hhas]
  exact .initial

/-- However the callers and the platform interleave: the platform is started and stopped in turn; the streams that are open have the rate
of the hardware, which is active exactly when there is one, unless it is being reconfigured; and every ring is in one hand, of a stream
that is open or of a caller that opens one, or was freed once. -/
theorem hardware_owned (info : PlatformInfo) (detected platformInitialized ready : Bool) (error : Int) (ops : List Op) :
    let s := ops.foldl Hardware.step (.init info detected platformInitialized ready error)
    Alternate s.calls ∧
    (∀ index, (s.streams index).isOpen = true → (s.streams index).sampleRate = s.activeSampleRate) ∧
    (s.reconfiguring = false →
      (s.hardwareActive = true ↔ ∃ index, (s.streams index).isOpen = true) ∧ running s.calls = s.hardwareActive) ∧
    (∀ ring, ring < s.created → (s.frees ring = 0 ∧ ∃! holder, s.has holder = some ring) ∨
      (s.frees ring = 1 ∧ ∀ holder, s.has holder ≠ some ring)) ∧
    (∀ index, (∃ ring, s.has (.inl index) = some ring) ↔ (s.streams index).isOpen = true) := by
  intro s
  have hrings : Rings s := foldl_invariant Rings step_rings ops (init_rings _ _ _ _ _)
  have hturn : Turn s := foldl_invariant Turn step_turn ops (init_turn _ _ _ _ _)
  refine ⟨hturn.alternate, hturn.rate, ?_, ?_, ?_⟩
  · intro hfree
    obtain ⟨-, hactive, hrunning⟩ := hturn.settled hfree
    refine ⟨?_, hrunning⟩
    rw [hactive, streamsOpen, List.any_eq_true]
    exact ⟨fun ⟨index, _, hindex⟩ => ⟨index, hindex⟩, fun ⟨index, hindex⟩ => ⟨index, List.mem_finRange index, hindex⟩⟩
  · intro ring hlt
    by_cases hheld : ∃ holder, s.has holder = some ring
    · obtain ⟨holder, hholder⟩ := hheld
      exact .inl ⟨hrings.accounted.held holder ring hholder, holder, hholder,
        fun other hother => hrings.accounted.distinct other holder ring hother hholder⟩
    · exact .inr ⟨hrings.accounted.gone ring hlt fun holder hholder => hheld ⟨holder, hholder⟩,
        fun holder hholder => hheld ⟨holder, hholder⟩⟩
  · intro index
    rw [← hrings.slots index, Option.isSome_iff_exists]
    exact Iff.rfl

end Audio
end TabOS
