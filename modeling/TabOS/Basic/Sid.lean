import TabOS.Library.Checked
import Mathlib.Data.List.FinRange
import Mathlib.Data.UInt
import Mathlib.Logic.Function.Basic

/-!
# The virtual SID of TabBASIC

`basic_sid.c`: the registers, the three voices with their envelopes, and the synthesis of a chunk of samples. The operations of
`envelope_step`, `update_envelope`, `waveform` and `generate_chunk` on integers of 32 bits have no result when they overflow, but for the
sum of the phase, which wraps. The stream of the audio service is left out. `rounds` is a history variable: the voices after each sample.
-/

namespace TabOS
namespace Sid

open Library

def sidStart : Nat := 0xd400
def sidEnd : Nat := 0xd418
def voiceRegisters : Nat := 7
def sampleRate : Nat := 44100
def chunkSamples : Nat := 256
def clockHz : Nat := 985248
def masterRegister : Nat := 0x18
def controlGate : UInt8 := 0x01
def controlTest : UInt8 := 0x08
def controlTriangle : UInt8 := 0x10
def controlSaw : UInt8 := 0x20
def controlPulse : UInt8 := 0x40
def controlNoise : UInt8 := 0x80
def outputLevel : Int := 6000

/-- `envelope_stage_t`. -/
inductive Stage where
  | off | attack | decay | sustain | release
  deriving DecidableEq

/-- `sid_voice_t`. -/
structure Voice where
  phase : UInt32
  noise : Nat
  envelope : Nat
  stage : Stage
  gate : Bool

/-- The index of a voice. -/
abbrev Index := Fin 3

structure State where
  registers : Nat → UInt8
  voices : Index → Voice
  samples : List Int
  pendingBytes : Nat
  pendingOffset : Nat
  nextService : UInt64
  drainDeadline : UInt64
  rounds : List (Index → Voice)

def attackMs : List Nat := [2, 8, 16, 24, 38, 56, 68, 80, 100, 250, 500, 800, 1000, 3000, 5000, 8000]

def decayReleaseMs : List Nat := [6, 24, 48, 72, 114, 168, 204, 240, 300, 750, 1500, 2400, 3000, 9000, 15000, 24000]

/-- A product of 64 bits and its quotient. -/
def phaseIncrement (value : UInt16) : UInt32 := UInt32.ofNat (value.toNat * clockHz * 256 / sampleRate)

def envelopeStep (milliseconds : Nat) : Option Nat := do
  let product ← uint32 (milliseconds * sampleRate)
  let samples := product / 1000
  if samples = 0 then some 65535
  else
    let sum ← uint32 (65535 + samples)
    let sum ← uint32 (sum - 1)
    some (sum / samples)

def voiceRunning (voice : Voice) : Bool := voice.stage ≠ .off

def anyVoiceRunning (s : State) : Bool := (List.finRange 3).any fun index => voiceRunning (s.voices index)

/-! ## The registers -/

/-- The register of a voice. -/
def register (index : Index) (offset : Nat) : Nat := index.val * voiceRegisters + offset

/-- `basic_sid_close`. -/
def close (s : State) : State :=
  { s with
    voices := fun index => { s.voices index with stage := .off, gate := false, envelope := 0 }
    registers := fun i => if i < 21 ∧ i % voiceRegisters = 4 then s.registers i &&& 0xfe else s.registers i
    pendingBytes := 0, pendingOffset := 0, drainDeadline := 0 }

/-- The state after `basic_sid_reset`. -/
def State.initial : State where
  registers := fun _ => 0
  voices := fun index => ⟨0, 0x7ffff8 ^^^ (index.val * 0x15555), 0, .off, false⟩
  samples := []
  pendingBytes := 0
  pendingOffset := 0
  nextService := 0
  drainDeadline := 0
  rounds := []

/-- A voice whose control register is written. -/
def gatedVoice (control : UInt8) (voice : Voice) : Voice :=
  let gate := decide (control &&& controlGate ≠ 0)
  let stage :=
    if gate = true ∧ voice.gate = false then .attack
    else if gate = false ∧ voice.gate = true ∧ voice.stage ≠ .off then .release
    else voice.stage
  { voice with stage := stage, gate := gate, phase := if control &&& controlTest ≠ 0 then 0 else voice.phase }

def updateGate (index : Index) (control : UInt8) (s : State) : State :=
  { s with
    voices := Function.update s.voices index (gatedVoice control (s.voices index))
    drainDeadline := if control &&& controlGate ≠ 0 ∧ (s.voices index).gate = false then 0 else s.drainDeadline }

/-- What a write stores in a register. -/
def stored (register : Nat) (value : UInt8) : UInt8 := if register % voiceRegisters = 3 ∧ register < 21 then value &&& 0x0f else value

/-- A write to a register. -/
def writeRegister (index : Nat) (value : UInt8) (s : State) : State :=
  let value := stored index value
  let s := { s with registers := Function.update s.registers index value }
  let s := if index < 21 ∧ index % voiceRegisters = 4 then updateGate (Fin.ofNat 3 (index / voiceRegisters)) value s else s
  { s with nextService := 0 }

/-- `basic_sid_write`. -/
def write (address : UInt16) (value : UInt8) (s : State) : Bool × State :=
  if address.toNat < sidStart ∨ address.toNat > sidEnd then (false, s)
  else (true, writeRegister (address.toNat - sidStart) value s)

/-! ## The synthesis -/

/-- What `generate_chunk` reads from the registers of a voice. -/
structure Steps where
  increment : UInt32
  attack : Nat
  decay : Nat
  sustain : Nat
  release : Nat

def updateEnvelope (steps : Steps) (voice : Voice) : Option Voice :=
  match voice.stage with
  | .attack => do
    let left ← uint32 (65535 - voice.envelope)
    if left ≤ steps.attack then some { voice with envelope := 65535, stage := .decay }
    else
      let envelope ← uint32 (voice.envelope + steps.attack)
      some { voice with envelope := envelope }
  | .decay => do
    let limit ← uint32 (steps.sustain + steps.decay)
    if voice.envelope ≤ limit then some { voice with envelope := steps.sustain, stage := .sustain }
    else
      let envelope ← uint32 (voice.envelope - steps.decay)
      some { voice with envelope := envelope }
  | .sustain => some { voice with envelope := steps.sustain }
  | .release =>
    if voice.envelope ≤ steps.release then some { voice with envelope := 0, stage := .off }
    else do
      let envelope ← uint32 (voice.envelope - steps.release)
      some { voice with envelope := envelope }
  | .off => some voice

/-- The noise after the phase has wrapped. -/
def nextNoise (noise : Nat) : Option Nat := do
  let feedback := ((noise >>> 22) ^^^ (noise >>> 17)) &&& 1
  let shifted ← uint32 (noise * 2)
  let noise := (shifted ||| feedback) &&& 0x7fffff
  some (if noise = 0 then 0x7ffff8 else noise)

/-- The sample that `waveform` chooses by the control register, before the envelope. -/
def oscillator (registers : Nat → UInt8) (index : Index) (previous : UInt32) (voice : Voice) : Option (Voice × Int) :=
  let control := registers (register index 4)
  if control &&& controlNoise ≠ 0 then do
    let noise ← if voice.phase < previous then nextNoise voice.noise else some voice.noise
    some ({ voice with noise := noise }, if noise &&& 0x400000 ≠ 0 then 32767 else -32768)
  else if control &&& controlPulse ≠ 0 then
    let width := (registers (register index 2)).toNat ||| (registers (register index 3) &&& 15).toNat <<< 8
    some (voice, if (voice.phase >>> 20).toNat < width then 32767 else -32768)
  else if control &&& controlSaw ≠ 0 then do
    let sample ← int32 ((voice.phase >>> 16).toNat - 32768)
    some (voice, sample)
  else if control &&& controlTriangle ≠ 0 then
    let position := (voice.phase >>> 16).toNat
    if position < 32768 then do
      let double ← int32 (position * 2)
      let sample ← int32 (double - 32768)
      some (voice, sample)
    else do
      let mirrored ← uint32 (65535 - position)
      let double ← int32 (mirrored * 2)
      let sample ← int32 (double - 32768)
      some (voice, sample)
  else some (voice, 0)

def waveform (registers : Nat → UInt8) (index : Index) (increment : UInt32) (voice : Voice) : Option (Voice × Int) :=
  let previous := voice.phase
  let voice := { voice with phase := voice.phase + increment }
  if registers (register index 4) &&& controlTest ≠ 0 then some ({ voice with phase := 0 }, 0)
  else do
    let (voice, sample) ← oscillator registers index previous voice
    let product ← int32 (sample * voice.envelope)
    some (voice, product.tdiv 65535)

/-- The first loop of `generate_chunk`, for a voice. -/
def stepsOf (registers : Nat → UInt8) (index : Index) : Option Steps := do
  let frequency := (registers (register index 0)).toNat ||| (registers (register index 1)).toNat <<< 8
  let attack ← envelopeStep (attackMs.getD (registers (register index 5) >>> 4).toNat 0)
  let decay ← envelopeStep (decayReleaseMs.getD (registers (register index 5) &&& 15).toNat 0)
  let product ← uint32 ((registers (register index 6) >>> 4).toNat * 65535)
  let release ← envelopeStep (decayReleaseMs.getD (registers (register index 6) &&& 15).toNat 0)
  some ⟨phaseIncrement (UInt16.ofNat frequency), attack, decay, product / 15, release⟩

/-- A round of the loop over the voices: the voices, and what is mixed. -/
def voiceRound (registers : Nat → UInt8) (state : (Index → Voice) × Int) (control : Index × Steps) : Option ((Index → Voice) × Int) := do
  let voice ← updateEnvelope control.2 (state.1 control.1)
  let (voice, sample) ← waveform registers control.1 control.2.increment voice
  let mixed ← int32 (state.2 + sample)
  some (Function.update state.1 control.1 voice, mixed)

/-- A round of the loop over the samples. -/
def sampleRound (controls : List (Index × Steps)) (volume : Nat) (s : State) : Option State := do
  let (voices, mixed) ← controls.foldlM (voiceRound s.registers) (s.voices, 0)
  let product ← int32 (mixed * outputLevel)
  let mixed := product.tdiv (32767 * 3)
  let product ← int32 (mixed * volume)
  let mixed := product.tdiv 15
  some { s with voices := voices, samples := s.samples ++ [mixed], rounds := s.rounds ++ [voices] }

/-- The loop over the samples. -/
def sampleRounds (controls : List (Index × Steps)) (volume : Nat) : Nat → State → Option State
  | 0, s => some s
  | count + 1, s => do
    let s ← sampleRound controls volume s
    sampleRounds controls volume count s

def generateChunk (s : State) : Option State := do
  let volume := (s.registers masterRegister &&& 15).toNat
  let controls ← (List.finRange 3).mapM fun index => (stepsOf s.registers index).map (Prod.mk index)
  let s ← sampleRounds controls volume chunkSamples { s with samples := [] }
  some { s with pendingBytes := 2 * chunkSamples, pendingOffset := 0 }

/-- A write of a register, a chunk, or the end of a program. -/
inductive Operation where
  | write (address : UInt16) (value : UInt8)
  | chunk
  | close
  | reset

def step (s : State) : Operation → Option State
  | .write address value => some (write address value s).2
  | .chunk => generateChunk s
  | .close => some (close s)
  | .reset => some { State.initial with rounds := s.rounds }

/-- A run of operations; none when an operation overflows. -/
def run : State → List Operation → Option State
  | s, [] => some s
  | s, operation :: operations => do
    let s ← step s operation
    run s operations

end Sid
end TabOS
