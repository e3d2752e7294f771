import TabOS.Library.Blocks
import Mathlib.Algebra.Order.Ring.Int

/-!
# Audio streams

The ring of an audio stream holds bytes; samples are two of them, the low one first. `audio/audio.c` reads and writes the ring byte by
byte where it mixes and captures, and in blocks where an application reads and writes.
-/

namespace TabOS
namespace Audio

open Library

/-- `AUDIO_STREAM_CAPACITY`. -/
def streamCapacity : Nat := 8

/-- `AUDIO_RING_CAPACITY`. -/
def ringCapacity : Nat := 32 * 1024

/-- `TABOS_AUDIO_VOLUME_MAX`. -/
def volumeMax : Nat := 1000

/-- `TABOS_AUDIO_IO_MAX`. -/
def ioMax : Nat := 16384

/-- `tabos_audio_direction_t`. -/
inductive Direction where
  | playback
  | capture
  deriving DecidableEq, Repr

/-- What happens to the bytes of a stream: a write accepts some, a render plays some, a flush discards the rest; a capture stores some and
drops some when there is no room, and a read returns some. -/
inductive Event where
  | accepted (bytes : List UInt8)
  | played (bytes : List UInt8)
  | flushed
  | captured (bytes : List UInt8)
  | dropped (bytes : List UInt8)
  | returned (bytes : List UInt8)
  deriving DecidableEq, Repr

/-- `audio_stream_t`, and what happened since it was opened, the latest first. A null owner is zero. -/
structure Stream where
  owner : Nat
  ring : Queue UInt8 ringCapacity
  generation : Nat
  channels : Nat
  route : BitVec 32
  sampleRate : Nat
  volume : Nat
  underruns : BitVec 32
  overruns : BitVec 32
  direction : Direction
  isOpen : Bool
  faulted : Bool
  log : List Event

/-- A stream that is closed. -/
def Stream.closed (generation : Nat) : Stream where
  owner := 0
  ring := ⟨fun _ => 0, 0, 0⟩
  generation := generation
  channels := 0
  route := 0
  sampleRate := 0
  volume := 0
  underruns := 0
  overruns := 0
  direction := .playback
  isOpen := false
  faulted := false
  log := []

/-- Takes note of an event. -/
def Stream.record (event : Event) (stream : Stream) : Stream := { stream with log := event :: stream.log }

def frameBytes (stream : Stream) : Nat := stream.channels * 2

/-! ## The ring -/

def ringPopByte (stream : Stream) : UInt8 × Stream := (stream.ring.front, { stream with ring := stream.ring.popFront })

def ringPushByte (stream : Stream) (value : UInt8) : Stream := { stream with ring := stream.ring.pushBack value }

def ringWrite (stream : Stream) (source : List UInt8) : Stream := { stream with ring := stream.ring.pushBlock source }

/-- The bytes at the destination, and the stream. -/
def ringRead (stream : Stream) (bytes : Nat) : List UInt8 × Stream :=
  ((stream.ring.popBlock bytes).1, { stream with ring := (stream.ring.popBlock bytes).2 })

/-- Bytes that are popped one after another. -/
def ringPopBytes : Nat → Stream → List UInt8 × Stream
  | 0, stream => ([], stream)
  | bytes + 1, stream =>
    let (value, stream) := ringPopByte stream
    let (values, stream) := ringPopBytes bytes stream
    (value :: values, stream)

/-- The sample of a low and a high byte. -/
def sampleOf (low high : UInt8) : Int16 := (low.toUInt16 ||| (high.toUInt16 <<< 8)).toInt16

/-- The low and the high byte of a sample. -/
def sampleBytes (sample : Int16) : List UInt8 := [sample.toUInt16.toUInt8, (sample.toUInt16 >>> 8).toUInt8]

def ringPopSample (stream : Stream) : Int16 × Stream :=
  let (low, stream) := ringPopByte stream
  let (high, stream) := ringPopByte stream
  (sampleOf low high, stream)

def ringPushSample (stream : Stream) (sample : Int16) : Stream := (sampleBytes sample).foldl ringPushByte stream

/-! ## Samples -/

def saturate (sample : Int) : Int16 :=
  if sample > 32767 then 32767 else if sample < -32768 then -32768 else Int16.ofInt sample

def applyVolume (sample : Int16) (volume : Nat) : Int :=
  if volume = volumeMax then sample.toInt else (sample.toInt * volume).tdiv volumeMax

/-- The samples that a stream keeps of a captured frame: their mean when it has one channel, else one for each of its channels, where the
last captured one stands for those that are missing. -/
def convertFrame (samples : Nat → Int16) (frameIndex channels streamChannels : Nat) : List Int16 :=
  if streamChannels = 1 then
    let sum := ((List.range channels).map fun channel => (samples (frameIndex * channels + channel)).toInt).sum
    [Int16.ofInt (sum.tdiv channels)]
  else
    (List.range streamChannels).map fun channel =>
      let sourceChannel := if channel < channels then channel else channels - 1
      samples (frameIndex * channels + sourceChannel)

/-! ## The bytes of samples -/

/-- The bytes of a sample are those that it was made of. -/
theorem sampleBytes_sampleOf (low high : UInt8) : sampleBytes (sampleOf low high) = [low, high] := by
  have hlow : low.toNat < 2 ^ 8 := low.toNat_lt
  have hhigh : high.toNat < 2 ^ 8 := high.toNat_lt
  have hshift : high.toNat <<< 8 = high.toNat * 256 := by rw [Nat.shiftLeft_eq]
  have hvalue : (low.toUInt16 ||| (high.toUInt16 <<< 8)).toNat = high.toNat * 256 + low.toNat := by
    have hsum := Nat.shiftLeft_add_eq_or_of_lt hlow high.toNat
    rw [UInt16.toNat_or, UInt16.toNat_shiftLeft, UInt8.toNat_toUInt16, UInt8.toNat_toUInt16]
    have hsmall : high.toNat <<< 8 % 2 ^ 16 = high.toNat <<< 8 := Nat.mod_eq_of_lt (by omega)
    rw [show (8 : UInt16).toNat % 16 = 8 from rfl, hsmall, Nat.or_comm, ← hsum, hshift]
  unfold sampleBytes sampleOf
  rw [UInt16.toUInt16_toInt16]
  generalize low.toUInt16 ||| (high.toUInt16 <<< 8) = value at hvalue ⊢
  refine congrArg₂ (fun a b => [a, b]) (UInt8.toNat_inj.1 ?_) (UInt8.toNat_inj.1 ?_)
  · rw [UInt16.toNat_toUInt8, hvalue]
    omega
  · rw [UInt16.toNat_toUInt8, UInt16.toNat_shiftRight, hvalue, show (8 : UInt16).toNat % 16 = 8 from rfl, Nat.shiftRight_eq_div_pow]
    omega

@[simp] theorem length_sampleBytes (sample : Int16) : (sampleBytes sample).length = 2 := rfl

theorem length_flatMap_sampleBytes (samples : List Int16) : (samples.flatMap sampleBytes).length = samples.length * 2 := by
  induction samples with
  | nil => rfl
  | cons sample samples ih =>
    rw [List.flatMap_cons, List.length_append, ih, length_sampleBytes, List.length_cons]
    omega

theorem length_convertFrame (samples : Nat → Int16) (frameIndex channels streamChannels : Nat) :
    (convertFrame samples frameIndex channels streamChannels).length = streamChannels := by
  unfold convertFrame
  split
  · rename_i hone
    exact hone.symm
  · rw [List.length_map, List.length_range]

/-! ## Bytes one by one -/

variable {stream : Stream}

/-- Bytes that are pushed one by one change the ring alone. -/
theorem foldl_ringPushByte (stream : Stream) (values : List UInt8) :
    values.foldl ringPushByte stream = { stream with ring := values.foldl Queue.pushBack stream.ring } := by
  induction values generalizing stream with
  | nil => rfl
  | cons value values ih => exact ih (ringPushByte stream value)

theorem foldl_ringPushSample (stream : Stream) (samples : List Int16) :
    samples.foldl ringPushSample stream =
      { stream with ring := (samples.flatMap sampleBytes).foldl Queue.pushBack stream.ring } := by
  induction samples generalizing stream with
  | nil => rfl
  | cons sample samples ih =>
    rw [List.foldl_cons, ih, ringPushSample, foldl_ringPushByte, List.flatMap_cons, List.foldl_append]

/-- Bytes that are popped one by one are the oldest of the ring. -/
theorem ringPopBytes_eq (hfits : stream.ring.Fits) (bytes : Nat) (hbytes : bytes ≤ stream.ring.count) :
    ringPopBytes bytes stream =
      (stream.ring.contents.take bytes, { stream with ring := Queue.popFront^[bytes] stream.ring }) := by
  induction bytes generalizing stream with
  | zero => rfl
  | succ bytes ih =>
    have hcons := Queue.contents_eq_cons hfits (show 0 < stream.ring.count by omega)
    have hcount : stream.ring.popFront.count = stream.ring.count - 1 := rfl
    have hpopped : ({ stream with ring := stream.ring.popFront } : Stream).ring.Fits := hfits.popFront
    have hrest := ih hpopped (by
      show bytes ≤ stream.ring.popFront.count
      omega)
    rw [ringPopBytes, ringPopByte]
    dsimp only
    rw [hrest, hcons, List.take_succ_cons]
    rfl

/-- To write a block is to push its bytes one by one. -/
theorem ringWrite_eq_foldl (hfits : stream.ring.Fits) (source : List UInt8) (hroom : stream.ring.count + source.length ≤ ringCapacity) :
    ringWrite stream source = source.foldl ringPushByte stream := by
  rw [foldl_ringPushByte, ringWrite, Queue.pushBlock_eq_foldl hfits source hroom]

/-- To read a block is to pop its bytes one by one. -/
theorem ringRead_eq_ringPopBytes (hfits : stream.ring.Fits) (bytes : Nat) (hbytes : bytes ≤ stream.ring.count) :
    ringRead stream bytes = ringPopBytes bytes stream := by
  rw [ringPopBytes_eq hfits bytes hbytes, ringRead, Queue.popBlock_eq_take hfits bytes hbytes,
    Queue.popBlock_eq_iterate hfits bytes hbytes]

end Audio
end TabOS
