import TabOS.Audio.Stream
import TabOS.Library.Handles
import TabOS.Library.Run

/-!
# The audio service

The operations of `audio/audio.c` on the table of streams, each of which is one critical section of the audio mutex. Opening and closing
is here what happens to the table of streams; the service is initialized.
-/

namespace TabOS
namespace Audio

open Library

instance : NeZero streamCapacity := ⟨by decide⟩

/-- The table of streams. -/
abbrev Streams := Fin streamCapacity → Stream

/-- The errors of the operations. -/
inductive AudioError where
  | invalid
  | badHandle
  | io
  | again
  | tooMany
  deriving DecidableEq, Repr

/-- `AUDIO_STREAM_GENERATION_MAX`. -/
def generationMax : Nat := 0x7fffffff / streamCapacity

def nextGeneration (generation : Nat) : Nat :=
  let generation := (generation + 1) % 2 ^ 32
  if generation = 0 ∨ generation > generationMax then 1 else generation

/-- The index of the stream that a handle names. -/
def ownedStream (owner : Nat) (handle : Int) (streams : Streams) : Option (Fin streamCapacity) :=
  if owner = 0 ∨ handle ≤ 0 then none
  else
    let index := slotOf streamCapacity handle.toNat
    let stream := streams index
    if stream.isOpen = false ∨ stream.owner ≠ owner ∨ stream.generation ≠ handle.toNat / streamCapacity then none else some index

theorem isOpen_of_ownedStream {owner : Nat} {handle : Int} {streams : Streams} {index : Fin streamCapacity}
    (h : ownedStream owner handle streams = some index) : (streams index).isOpen = true := by
  unfold ownedStream at h
  split at h
  · exact absurd h.symm (Option.some_ne_none _)
  · dsimp only at h
    split at h
    · exact absurd h.symm (Option.some_ne_none _)
    · rename_i hnames
      obtain rfl := Option.some.inj h
      exact Bool.eq_true_of_not_eq_false fun hclosed => hnames (Or.inl hclosed)

/-! ## Opening and closing -/

/-- The fields of `platform_audio_info_t` that a configuration is checked against. -/
structure PlatformInfo where
  features : BitVec 32
  routes : BitVec 32
  captureChannels : Nat
  sampleRates : BitVec 32
  defaultSampleRate : Nat
  deriving DecidableEq, Repr

/-- `tabos_audio_config_t`. -/
structure Config where
  direction : Direction
  channels : Nat
  route : BitVec 32
  sampleRate : Nat
  deriving DecidableEq, Repr

def routeSpeaker : BitVec 32 := 1
def routeHeadphone : BitVec 32 := 2
def routeMicrophone : BitVec 32 := 4
def featurePlayback : BitVec 32 := 1
def featureCapture : BitVec 32 := 2

def sampleRateFlag (sampleRate : Nat) : BitVec 32 :=
  match sampleRate with
  | 8000 => 0x001
  | 11025 => 0x002
  | 12000 => 0x004
  | 16000 => 0x008
  | 22050 => 0x010
  | 24000 => 0x020
  | 32000 => 0x040
  | 44100 => 0x080
  | 48000 => 0x100
  | 88200 => 0x200
  | 96000 => 0x400
  | _ => 0

/-- The rate that a configuration asks for; zero is the default. -/
def rateOf (info : PlatformInfo) (config : Config) : Nat :=
  if config.sampleRate ≠ 0 then config.sampleRate else info.defaultSampleRate

def configValid (info : PlatformInfo) (config : Config) : Bool :=
  if config.channels = 0 ∨ config.channels > ioMax / 2 ∨ config.route &&& (config.route - 1) ≠ 0 ∨
      config.route &&& info.routes = 0 ∨ sampleRateFlag (rateOf info config) &&& info.sampleRates = 0 then false
  else
    match config.direction with
    | .playback =>
      decide (config.channels ≤ 2 ∧ info.features &&& featurePlayback ≠ 0 ∧
        (config.route = routeSpeaker ∨ config.route = routeHeadphone))
    | .capture =>
      decide (info.features &&& featureCapture ≠ 0 ∧ config.route = routeMicrophone ∧ config.channels ≤ info.captureChannels)

/-- A stream as it is opened; the ring holds whatever was in its memory. -/
def openedStream (owner : Nat) (config : Config) (sampleRate generation : Nat) (memory : Nat → UInt8) : Stream where
  owner := owner
  ring := ⟨memory, 0, 0⟩
  generation := generation
  channels := config.channels
  route := config.route
  sampleRate := sampleRate
  volume := volumeMax
  underruns := 0
  overruns := 0
  direction := config.direction
  isOpen := true
  faulted := false
  log := []

/-- What opening does to the table of streams: the first one that is not open is taken. -/
def audioServiceOpen (info : PlatformInfo) (owner : Nat) (config : Config) (memory : Nat → UInt8) (streams : Streams) :
    Except AudioError Nat × Streams :=
  if owner = 0 ∨ configValid info config = false then (.error .invalid, streams)
  else
    match (List.finRange streamCapacity).find? fun index => !(streams index).isOpen with
    | none => (.error .tooMany, streams)
    | some index =>
      let generation := nextGeneration (streams index).generation
      (.ok (pack index generation),
        Function.update streams index (openedStream owner config (rateOf info config) generation memory))

/-- What closing does to the table of streams. -/
def audioServiceClose (owner : Nat) (handle : Int) (streams : Streams) : Except AudioError Unit × Streams :=
  match ownedStream owner handle streams with
  | none => (.error .badHandle, streams)
  | some index => (.ok (), Function.update streams index (.closed (streams index).generation))

/-! ## The operations of an application -/

def audioServiceFlush (owner : Nat) (handle : Int) (streams : Streams) : Except AudioError Unit × Streams :=
  match ownedStream owner handle streams with
  | none => (.error .badHandle, streams)
  | some index =>
    let stream := streams index
    if stream.direction ≠ .playback then (.error .badHandle, streams)
    else (.ok (), Function.update streams index ({ stream with ring := stream.ring.clear }.record .flushed))

/-- A missing buffer is a null pointer. -/
def audioServiceWrite (owner : Nat) (handle : Int) (pcm : Option (List UInt8)) (streams : Streams) : Except AudioError Nat × Streams :=
  match pcm with
  | none => (.error .invalid, streams)
  | some pcm =>
    if pcm.length = 0 ∨ pcm.length > ioMax then (.error .invalid, streams)
    else
      match ownedStream owner handle streams with
      | none => (.error .badHandle, streams)
      | some index =>
        let stream := streams index
        let frame := frameBytes stream
        let room := ringCapacity - stream.ring.count
        let whole := room - room % frame
        let copied := if whole > pcm.length then pcm.length else whole
        if stream.direction ≠ .playback then (.error .badHandle, streams)
        else if stream.faulted then (.error .io, streams)
        else if pcm.length % frame ≠ 0 then (.error .invalid, streams)
        else if copied = 0 then (.error .again, streams)
        else (.ok copied, Function.update streams index ((ringWrite stream (pcm.take copied)).record (.accepted (pcm.take copied))))

/-- The bytes that are read; `buffer` says that there is a buffer for them. -/
def audioServiceRead (owner : Nat) (handle : Int) (buffer : Bool) (capacity : Nat) (streams : Streams) :
    Except AudioError (List UInt8) × Streams :=
  if buffer = false ∨ capacity = 0 ∨ capacity > ioMax then (.error .invalid, streams)
  else
    match ownedStream owner handle streams with
    | none => (.error .badHandle, streams)
    | some index =>
      let stream := streams index
      let frame := frameBytes stream
      let available := if stream.ring.count < capacity then stream.ring.count else capacity
      let copied := available - available % frame
      if stream.direction ≠ .capture then (.error .badHandle, streams)
      else if stream.faulted then (.error .io, streams)
      else if capacity % frame ≠ 0 then (.error .invalid, streams)
      else if copied = 0 then (.error .again, streams)
      else
        let (bytes, stream) := ringRead stream copied
        (.ok bytes, Function.update streams index (stream.record (.returned bytes)))

def audioServiceSetVolume (owner : Nat) (handle : Int) (volume : Nat) (streams : Streams) : Except AudioError Unit × Streams :=
  if volume > volumeMax then (.error .invalid, streams)
  else
    match ownedStream owner handle streams with
    | none => (.error .badHandle, streams)
    | some index =>
      let stream := streams index
      if stream.direction ≠ .playback then (.error .badHandle, streams)
      else (.ok (), Function.update streams index { stream with volume := volume })

/-! ## The operations of the platform -/

/-- A loop over the table of streams that changes one after another. -/
def eachStream (change : Stream → Stream) (streams : Streams) : Streams :=
  (List.finRange streamCapacity).foldl (fun streams index => Function.update streams index (change (streams index))) streams

/-- What a stream adds to the left and to the right sample of a frame. -/
def renderStream (frameIndex : Nat) (stream : Stream) : (Int × Int) × Stream :=
  if stream.isOpen = false ∨ stream.direction ≠ .playback then ((0, 0), stream)
  else if stream.ring.count < frameBytes stream then
    ((0, 0), if frameIndex = 0 then { stream with underruns := stream.underruns + 1 } else stream)
  else
    let (sample, popped) := ringPopSample stream
    let first := applyVolume sample stream.volume
    if stream.channels = 2 then
      let (sample', popped) := ringPopSample popped
      let second := applyVolume sample' stream.volume
      ((first, second), popped.record (.played (sampleBytes sample ++ sampleBytes sample')))
    else ((first, first), popped.record (.played (sampleBytes sample)))

/-- The sums of a frame. -/
def renderFrame (frameIndex : Nat) (streams : Streams) : (Int × Int) × Streams :=
  (List.finRange streamCapacity).foldl
    (fun state index =>
      let ((first, second), stream) := renderStream frameIndex (state.2 index)
      ((state.1.1 + first, state.1.2 + second), Function.update state.2 index stream))
    ((0, 0), streams)

/-- The frames from one index on. -/
def renderFrames : Nat → Nat → Streams → List (Int16 × Int16) × Streams
  | _, 0, streams => ([], streams)
  | frameIndex, frames + 1, streams =>
    let ((left, right), streams) := renderFrame frameIndex streams
    let (stereo, streams) := renderFrames (frameIndex + 1) frames streams
    ((saturate left, saturate right) :: stereo, streams)

def audioServiceRender (frames : Nat) (streams : Streams) : List (Int16 × Int16) × Streams := renderFrames 0 frames streams

/-- Drops the oldest frame when there is no room for another. -/
def makeRoom (stream : Stream) : Stream :=
  let frame := frameBytes stream
  if ringCapacity - stream.ring.count < frame then
    let (bytes, stream) := ringPopBytes frame stream
    { stream with overruns := stream.overruns + 1 }.record (.dropped bytes)
  else stream

def captureFrame (samples : Nat → Int16) (channels : Nat) (stream : Stream) (frameIndex : Nat) : Stream :=
  let stream := makeRoom stream
  let converted := convertFrame samples frameIndex channels stream.channels
  (converted.foldl ringPushSample stream).record (.captured (converted.flatMap sampleBytes))

def captureStream (samples : Nat → Int16) (frames channels : Nat) (stream : Stream) : Stream :=
  if stream.isOpen = false ∨ stream.direction ≠ .capture then stream
  else (List.range frames).foldl (captureFrame samples channels) stream

/-- Missing samples are a null pointer. -/
def audioServiceCapture (samples : Option (Nat → Int16)) (frames channels : Nat) (streams : Streams) : Streams :=
  match samples with
  | none => streams
  | some samples => if channels = 0 then streams else eachStream (captureStream samples frames channels) streams

def audioServiceError (streams : Streams) : Streams :=
  eachStream (fun stream => if stream.isOpen then { stream with faulted := true } else stream) streams

/-! ## Runs -/

/-- The operations on the streams. -/
inductive Operation where
  | open (owner : Nat) (config : Config) (memory : Nat → UInt8)
  | close (owner : Nat) (handle : Int)
  | flush (owner : Nat) (handle : Int)
  | write (owner : Nat) (handle : Int) (pcm : Option (List UInt8))
  | read (owner : Nat) (handle : Int) (buffer : Bool) (capacity : Nat)
  | setVolume (owner : Nat) (handle : Int) (volume : Nat)
  | render (frames : Nat)
  | capture (samples : Option (Nat → Int16)) (frames channels : Nat)
  | error

/-- The streams after `audio_service_init`. -/
def noStreams : Streams := fun _ => .closed 0

def step (info : PlatformInfo) (streams : Streams) : Operation → Streams
  | .open owner config memory => (audioServiceOpen info owner config memory streams).2
  | .close owner handle => (audioServiceClose owner handle streams).2
  | .flush owner handle => (audioServiceFlush owner handle streams).2
  | .write owner handle pcm => (audioServiceWrite owner handle pcm streams).2
  | .read owner handle buffer capacity => (audioServiceRead owner handle buffer capacity streams).2
  | .setVolume owner handle volume => (audioServiceSetVolume owner handle volume streams).2
  | .render frames => (audioServiceRender frames streams).2
  | .capture samples frames channels => audioServiceCapture samples frames channels streams
  | .error => audioServiceError streams

/-- A loop over the table changes every stream. -/
theorem eachStream_apply (change : Stream → Stream) (streams : Streams) :
    eachStream change streams = fun index => change (streams index) := by
  have hloop : ∀ (l : List (Fin streamCapacity)) (streams : Streams), l.Nodup → ∀ index,
      l.foldl (fun streams index => Function.update streams index (change (streams index))) streams index =
        if index ∈ l then change (streams index) else streams index := by
    intro l
    induction l with
    | nil => exact fun streams _ index => (if_neg List.not_mem_nil).symm
    | cons other l ih =>
      intro streams hnodup index
      obtain ⟨hother, hrest⟩ := List.nodup_cons.1 hnodup
      rw [List.foldl_cons, ih _ hrest]
      by_cases heq : index = other
      · subst heq
        rw [if_neg hother, if_pos List.mem_cons_self, Function.update_self]
      · rw [Function.update_of_ne heq]
        simp [heq]
  funext index
  rw [eachStream, hloop _ streams (List.nodup_finRange _) index, if_pos (List.mem_finRange index)]

/-- A frame is the sum over the streams, each of which is changed by itself. -/
theorem renderFrame_eq (frameIndex : Nat) (streams : Streams) :
    renderFrame frameIndex streams =
      ((((List.finRange streamCapacity).map fun index => (renderStream frameIndex (streams index)).1.1).sum,
        ((List.finRange streamCapacity).map fun index => (renderStream frameIndex (streams index)).1.2).sum),
        fun index => (renderStream frameIndex (streams index)).2) := by
  have hloop : ∀ (l : List (Fin streamCapacity)) (mix : Int × Int) (streams : Streams), l.Nodup →
      l.foldl (fun state index =>
        let ((first, second), stream) := renderStream frameIndex (state.2 index)
        ((state.1.1 + first, state.1.2 + second), Function.update state.2 index stream)) (mix, streams) =
      ((mix.1 + (l.map fun index => (renderStream frameIndex (streams index)).1.1).sum,
        mix.2 + (l.map fun index => (renderStream frameIndex (streams index)).1.2).sum),
        fun index => if index ∈ l then (renderStream frameIndex (streams index)).2 else streams index) := by
    intro l
    induction l with
    | nil => exact fun mix streams _ => by simp
    | cons other l ih =>
      intro mix streams hnodup
      obtain ⟨hother, hrest⟩ := List.nodup_cons.1 hnodup
      have hsame : ∀ added : (Int × Int) × Stream → Int,
          (l.map fun index => added (renderStream frameIndex
            (Function.update streams other (renderStream frameIndex (streams other)).2 index))) =
          l.map fun index => added (renderStream frameIndex (streams index)) := by
        intro added
        refine List.map_congr_left fun index hmem => ?_
        rw [Function.update_of_ne]
        rintro rfl
        exact hother hmem
      rw [List.foldl_cons, ih _ _ hrest]
      refine Prod.ext (Prod.ext ?_ ?_) (funext fun index => ?_)
      · have hleft := hsame fun result => result.1.1
        dsimp only at hleft ⊢
        rw [hleft, List.map_cons, List.sum_cons, Int.add_assoc]
      · have hright := hsame fun result => result.1.2
        dsimp only at hright ⊢
        rw [hright, List.map_cons, List.sum_cons, Int.add_assoc]
      · by_cases heq : index = other
        · subst heq
          simp [hother]
        · simp [heq]
  rw [renderFrame, hloop _ _ _ (List.nodup_finRange _)]
  simp

end Audio
end TabOS
