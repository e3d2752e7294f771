import TabOS.Basic.Envelope

/-!
# The synthesis stays in range and drains

No operation of a chunk overflows while the envelopes have 16 bits and the noise 23. Writes and chunks keep this, and a voice has its gate
open just when it is in attack, decay or sustain, so a voice whose gate stays closed falls until it is off.
-/

namespace TabOS
namespace Sid

open Library

/-! ## Steps -/

theorem envelopeStep_spec {milliseconds : Nat} (h : milliseconds ≤ 65535) :
    ∃ step, envelopeStep milliseconds = some step ∧ 1 ≤ step ∧ step ≤ 65535 := by
  have hproduct : uint32 ((milliseconds : Int) * sampleRate) = some (milliseconds * 44100) :=
    uint32_eq (by unfold sampleRate; omega) (by omega)
  unfold envelopeStep
  rw [hproduct, Option.bind_eq_bind, Option.bind_some]
  generalize hsamples : milliseconds * 44100 / 1000 = samples
  have hbound : samples ≤ 2890093 := by omega
  dsimp only
  by_cases hzero : samples = 0
  · rw [if_pos hzero]
    exact ⟨65535, rfl, by omega, Nat.le_refl _⟩
  · have hsum : uint32 (65535 + (samples : Int)) = some (65535 + samples) := uint32_eq (by omega) (by omega)
    have hless : uint32 ((65535 + samples : Nat) - 1) = some (65534 + samples) := uint32_eq (by omega) (by omega)
    have hpos : 0 < samples := Nat.pos_of_ne_zero hzero
    rw [if_neg hzero, hsum, Option.bind_some, hless]
    refine ⟨_, rfl, (Nat.one_le_div_iff hpos).mpr (by omega), Nat.div_le_of_le_mul ?_⟩
    have hmul : 65535 + (samples - 1) ≤ samples * 65535 := by omega
    omega

theorem getD_le {table : List Nat} {bound : Nat} (h : ∀ entry ∈ table, entry ≤ bound) (i : Nat) : table.getD i 0 ≤ bound := by
  rw [List.getD_eq_getElem?_getD]
  rcases hentry : table[i]? with _ | entry
  · exact Nat.zero_le _
  · exact h entry (List.mem_of_getElem? hentry)

theorem attackMs_le (i : Nat) : attackMs.getD i 0 ≤ 65535 := getD_le (by decide) i

theorem decayReleaseMs_le (i : Nat) : decayReleaseMs.getD i 0 ≤ 65535 := getD_le (by decide) i

/-- The sustain level of a voice. -/
def level (registers : Nat → UInt8) (index : Index) : Nat := (registers (register index 6) >>> 4).toNat * 65535 / 15

theorem stepsOf_spec (registers : Nat → UInt8) (index : Index) :
    ∃ steps, stepsOf registers index = some steps ∧ steps.Valid ∧ steps.sustain = level registers index := by
  obtain ⟨attack, hattack, hattackBounds⟩ := envelopeStep_spec (attackMs_le (registers (register index 5) >>> 4).toNat)
  obtain ⟨decay, hdecay, hdecayBounds⟩ := envelopeStep_spec (decayReleaseMs_le (registers (register index 5) &&& 15).toNat)
  obtain ⟨release, hrelease, hreleaseBounds⟩ := envelopeStep_spec (decayReleaseMs_le (registers (register index 6) &&& 15).toNat)
  have hnibble : (registers (register index 6) >>> 4).toNat ≤ 15 := by
    have hbyte := (registers (register index 6)).toNat_lt
    rw [UInt8.toNat_shiftRight]
    change (registers (register index 6)).toNat >>> 4 ≤ 15
    rw [Nat.shiftRight_eq_div_pow]
    omega
  have hproduct : uint32 (((registers (register index 6) >>> 4).toNat : Int) * 65535) =
      some ((registers (register index 6) >>> 4).toNat * 65535) := uint32_eq (by omega) (by omega)
  unfold stepsOf
  rw [hattack, hdecay, hproduct, hrelease]
  refine ⟨_, rfl, ⟨hattackBounds, hdecayBounds, ?_, hreleaseBounds⟩, rfl⟩
  dsimp only
  omega

/-! ## A voice at a sample -/

theorem nextNoise_spec {noise : Nat} (h : noise < 8388608) : ∃ noise', nextNoise noise = some noise' ∧ noise' < 8388608 := by
  have hshifted : uint32 ((noise : Int) * 2) = some (noise * 2) := uint32_eq (by omega) (by omega)
  unfold nextNoise
  rw [hshifted]
  refine ⟨_, rfl, ?_⟩
  split
  · decide
  · exact Nat.lt_of_le_of_lt Nat.and_le_right (by decide)

theorem position_lt (phase : UInt32) : (phase >>> 16).toNat < 65536 := by
  have hphase := phase.toNat_lt
  rw [UInt32.toNat_shiftRight]
  change phase.toNat >>> 16 < 65536
  rw [Nat.shiftRight_eq_div_pow]
  omega

theorem oscillator_spec (registers : Nat → UInt8) (index : Index) (previous : UInt32) (voice : Voice) (h : voice.noise < 8388608) :
    ∃ noise sample, oscillator registers index previous voice = some ({ voice with noise := noise }, sample) ∧ noise < 8388608 ∧
      -32768 ≤ sample ∧ sample ≤ 32767 := by
  have hposition := position_lt voice.phase
  have hsign (c : Prop) [Decidable c] : -32768 ≤ (if c then 32767 else -32768 : Int) ∧ (if c then 32767 else -32768 : Int) ≤ 32767 := by
    split <;> decide
  unfold oscillator
  dsimp only
  split
  · split
    · obtain ⟨noise, hnoise, hbound⟩ := nextNoise_spec h
      rw [hnoise]
      exact ⟨noise, _, rfl, hbound, hsign _⟩
    · exact ⟨voice.noise, _, rfl, h, hsign _⟩
  split
  · exact ⟨voice.noise, _, rfl, h, hsign _⟩
  split
  · rw [int32_eq (by omega) (by omega)]
    exact ⟨voice.noise, _, rfl, h, by omega, by omega⟩
  split
  · split
    · rw [int32_eq (by omega) (by omega), Option.bind_eq_bind, Option.bind_some, int32_eq (by omega) (by omega)]
      exact ⟨voice.noise, _, rfl, h, by omega, by omega⟩
    · rw [uint32_eq (n := 65535 - (voice.phase >>> 16).toNat) (by omega) (by omega), Option.bind_eq_bind, Option.bind_some,
        int32_eq (by omega) (by omega), Option.bind_eq_bind, Option.bind_some, int32_eq (by omega) (by omega)]
      exact ⟨voice.noise, _, rfl, h, by omega, by omega⟩
  · exact ⟨voice.noise, 0, rfl, h, by decide, by decide⟩

theorem waveform_spec (registers : Nat → UInt8) (index : Index) (increment : UInt32) (voice : Voice) (hnoise : voice.noise < 8388608)
    (henvelope : voice.envelope ≤ 65535) :
    ∃ phase noise sample, waveform registers index increment voice = some ({ voice with phase := phase, noise := noise }, sample) ∧
      noise < 8388608 ∧ -32768 ≤ sample ∧ sample ≤ 32767 := by
  unfold waveform
  dsimp only
  split
  · exact ⟨0, voice.noise, 0, rfl, hnoise, by decide, by decide⟩
  · obtain ⟨noise, sample, hsample, hbound, hlow, hhigh⟩ :=
      oscillator_spec registers index voice.phase { voice with phase := voice.phase + increment } hnoise
    have hproductLow : -32768 * 65535 ≤ sample * (voice.envelope : Int) := by nlinarith
    have hproductHigh : sample * (voice.envelope : Int) ≤ 32767 * 65535 := by nlinarith
    rw [hsample, Option.bind_eq_bind, Option.bind_some]
    dsimp only
    rw [int32_eq (by omega) (by omega)]
    refine ⟨_, noise, _, rfl, hbound, tdiv_bounds (by decide) (by omega) (by omega) (by decide)⟩

/-! ## The voices at a sample -/

/-- The envelope of a voice has 16 bits and its noise 23, and its gate is open just when its stage is that of an open gate. -/
structure Voice.Good (voice : Voice) : Prop where
  envelope : voice.envelope ≤ 65535
  noise : voice.noise < 8388608
  gate : voice.gate = true ↔ voice.stage.Gated

/-- What a sample makes of a voice. -/
structure Voice.Goes (steps : Steps) (voice voice' : Voice) : Prop where
  contour : voice'.contour = advance steps voice.contour
  gate : voice'.gate = voice.gate
  good : voice'.Good

theorem voiceRound_spec (registers : Nat → UInt8) {voices : Index → Voice} {index : Index} {steps : Steps} (mixed : Int)
    (hsteps : steps.Valid) (hgood : (voices index).Good) (hlow : -1000000 ≤ mixed) (hhigh : mixed ≤ 1000000) :
    ∃ voice sample, voiceRound registers (voices, mixed) (index, steps) = some (Function.update voices index voice, mixed + sample) ∧
      (voices index).Goes steps voice ∧ -32768 ≤ sample ∧ sample ≤ 32767 := by
  have henvelope := advance_le (c := (voices index).contour) hsteps hgood.envelope
  obtain ⟨phase, noise, sample, hwave, hnoise, hsampleLow, hsampleHigh⟩ :=
    waveform_spec registers index steps.increment { voices index with
      envelope := (advance steps (voices index).contour).1, stage := (advance steps (voices index).contour).2 } hgood.noise henvelope
  unfold voiceRound
  dsimp only
  rw [updateEnvelope_eq hsteps hgood.envelope, Option.bind_eq_bind, Option.bind_some, hwave, Option.bind_eq_bind, Option.bind_some]
  dsimp only
  rw [int32_eq (by omega) (by omega)]
  refine ⟨_, sample, rfl, ⟨rfl, rfl, henvelope, hnoise, ?_⟩, hsampleLow, hsampleHigh⟩
  exact hgood.gate.trans (@advance_gated steps (voices index).contour).symm

/-- The loop over the voices takes each of them on, and mixes what fits. -/
theorem voiceRounds_spec (registers : Nat → UInt8) (steps : Index → Steps) (hsteps : ∀ index, (steps index).Valid) (l : List Index)
    (hnodup : l.Nodup) {voices : Index → Voice} (hgood : ∀ index, (voices index).Good) (mixed : Int)
    (hlow : -1000000 ≤ mixed) (hhigh : mixed + 32767 * l.length ≤ 1000000) (hlow' : -1000000 ≤ mixed - 32768 * l.length) :
    ∃ voices' mixed', (l.map fun index => (index, steps index)).foldlM (voiceRound registers) (voices, mixed) = some (voices', mixed') ∧
      (∀ index ∈ l, (voices index).Goes (steps index) (voices' index)) ∧ (∀ index ∉ l, voices' index = voices index) ∧
      mixed - 32768 * l.length ≤ mixed' ∧ mixed' ≤ mixed + 32767 * l.length := by
  induction l generalizing voices mixed with
  | nil => exact ⟨voices, mixed, rfl, fun _ h => absurd h List.not_mem_nil, fun _ _ => rfl, by simp, by simp⟩
  | cons index l ih =>
    obtain ⟨hfirst, hrest⟩ := List.nodup_cons.mp hnodup
    rw [List.length_cons] at hhigh hlow' ⊢
    obtain ⟨voice, sample, hround, hgoes, hsampleLow, hsampleHigh⟩ :=
      voiceRound_spec registers mixed (hsteps index) (hgood index) hlow (by omega)
    have hgood' : ∀ other, (Function.update voices index voice other).Good := by
      intro other
      by_cases hother : other = index
      · subst hother
        rw [Function.update_self]
        exact hgoes.good
      · rw [Function.update_of_ne hother]
        exact hgood other
    obtain ⟨voices', mixed', hfold, hall, hothers, hmixedLow, hmixedHigh⟩ :=
      ih hrest hgood' (mixed + sample) (by omega) (by omega) (by omega)
    rw [List.map_cons, List.foldlM_cons, hround]
    refine ⟨voices', mixed', hfold, fun other hother => ?_, fun other hother => ?_, by omega, by omega⟩
    · rcases List.mem_cons.mp hother with rfl | hother
      · rw [hothers other hfirst, Function.update_self]
        exact hgoes
      · have hne : other ≠ index := fun heq => hfirst (heq ▸ hother)
        have hgoesOn := hall other hother
        rwa [Function.update_of_ne hne] at hgoesOn
    · have hne : other ≠ index := fun heq => hother (heq ▸ List.mem_cons_self)
      have hout : other ∉ l := fun hin => hother (List.mem_cons_of_mem index hin)
      rw [hothers other hout, Function.update_of_ne hne]

/-! ## The samples of a chunk -/

/-- What holds between two operations. -/
structure Good (s : State) : Prop where
  voices : ∀ index, (s.voices index).Good
  gates : ∀ index, (s.voices index).gate = decide (s.registers (register index 4) &&& controlGate ≠ 0)
  samples : ∀ sample ∈ s.samples, -6000 ≤ sample ∧ sample ≤ 6000
  rounds : ∀ voices ∈ s.rounds, ∀ index, (voices index).envelope ≤ 65535

/-- The registers and the gates are as before. -/
structure Kept (s s' : State) : Prop where
  good : Good s'
  registers : s'.registers = s.registers
  gates : ∀ index, (s'.voices index).gate = (s.voices index).gate

/-- A voice has gone on by some samples. -/
structure Rounds (steps : Steps) (index : Index) (count : Nat) (s s' : State) : Prop where
  contour : (s'.voices index).contour = (advance steps)^[count] (s.voices index).contour
  rounds : ∃ l, s'.rounds = s.rounds ++ l ∧ l.length = count ∧
    (l.map fun voices => (voices index).contour) = List.iterate (advance steps) (advance steps (s.voices index).contour) count

theorem Kept.trans {s s' s'' : State} (h : Kept s s') (h' : Kept s' s'') : Kept s s'' :=
  ⟨h'.good, h'.registers.trans h.registers, fun index => (h'.gates index).trans (h.gates index)⟩

section Rounds

variable {steps : Steps} {index : Index} {count more : Nat} {s s' s'' : State}

/-- No sample. -/
theorem Rounds.none (hvoice : (s'.voices index).contour = (s.voices index).contour) (hrounds : s'.rounds = s.rounds) :
    Rounds steps index 0 s s' :=
  ⟨hvoice, [], hrounds.trans (List.append_nil _).symm, rfl, rfl⟩

/-- Some samples after others. -/
theorem Rounds.trans (h : Rounds steps index count s s') (h' : Rounds steps index more s' s'') :
    Rounds steps index (count + more) s s'' := by
  obtain ⟨l, hl, hlength, hcontours⟩ := h.rounds
  obtain ⟨l', hl', hlength', hcontours'⟩ := h'.rounds
  refine ⟨?_, l ++ l', ?_, ?_, ?_⟩
  · rw [h'.contour, h.contour, Nat.add_comm, Function.iterate_add_apply]
  · rw [hl', hl, List.append_assoc]
  · rw [List.length_append, hlength, hlength']
  · have hcommute : (advance steps)^[count] (advance steps (s.voices index).contour) =
        advance steps ((advance steps)^[count] (s.voices index).contour) := by
      rw [← Function.iterate_succ_apply, Function.iterate_succ_apply']
    rw [List.map_append, hcontours, hcontours', h.contour, List.iterate_add, hcommute]

end Rounds

/-- What is mixed is scaled into the range of a sample. -/
theorem scaled_bounds {mixed volume : Int} (hmixed : -98304 ≤ mixed ∧ mixed ≤ 98301) (hvolume : 0 ≤ volume ∧ volume ≤ 15) :
    int32 (mixed * outputLevel) = some (mixed * 6000) ∧
      int32 ((mixed * 6000).tdiv (32767 * 3) * volume) = some ((mixed * 6000).tdiv (32767 * 3) * volume) ∧
      -6000 ≤ ((mixed * 6000).tdiv (32767 * 3) * volume).tdiv 15 ∧ ((mixed * 6000).tdiv (32767 * 3) * volume).tdiv 15 ≤ 6000 := by
  obtain ⟨hlow, hhigh⟩ : -6000 ≤ (mixed * 6000).tdiv (32767 * 3) ∧ (mixed * 6000).tdiv (32767 * 3) ≤ 6000 :=
    tdiv_bounds (by decide) (by omega) (by omega) (by decide)
  generalize (mixed * 6000).tdiv (32767 * 3) = scaled at hlow hhigh ⊢
  have hproductLow : -6000 * 15 ≤ scaled * volume := by nlinarith
  have hproductHigh : scaled * volume ≤ 6000 * 15 := by nlinarith
  refine ⟨int32_eq (by unfold outputLevel; omega) (by unfold outputLevel; omega), int32_eq (by omega) (by omega), ?_⟩
  exact tdiv_bounds (by decide) (by omega) (by omega) (by decide)

/-- The controls of all voices. -/
def controlsOf (steps : Index → Steps) : List (Index × Steps) := (List.finRange 3).map fun index => (index, steps index)

section Chunk

variable {steps : Index → Steps} {volume : Nat} {s : State}

theorem sampleRound_spec (hsteps : ∀ index, (steps index).Valid) (hvolume : volume ≤ 15) (h : Good s) :
    ∃ s', sampleRound (controlsOf steps) volume s = some s' ∧ Kept s s' ∧ ∀ index, Rounds (steps index) index 1 s s' := by
  obtain ⟨voices, mixed, hfold, hall, -, hlow, hhigh⟩ :=
    voiceRounds_spec s.registers steps hsteps (List.finRange 3) (List.nodup_finRange 3) h.voices 0 (by decide) (by decide) (by decide)
  rw [List.length_finRange] at hlow hhigh
  obtain ⟨hlevel, hscaled, hsample⟩ := @scaled_bounds mixed volume ⟨by omega, by omega⟩ ⟨by omega, by omega⟩
  have hgoes : ∀ index, (s.voices index).Goes (steps index) (voices index) := fun index => hall index (List.mem_finRange index)
  unfold sampleRound controlsOf
  rw [hfold, Option.bind_eq_bind, Option.bind_some]
  dsimp only
  rw [hlevel, Option.bind_eq_bind, Option.bind_some, hscaled]
  refine ⟨_, rfl, ⟨⟨?_, ?_, ?_, ?_⟩, rfl, fun index => (hgoes index).gate⟩, fun index => ?_⟩
  · exact fun index => (hgoes index).good
  · exact fun index => (hgoes index).gate.trans (h.gates index)
  · intro sample hin
    rcases List.mem_append.mp hin with hin | hin
    · exact h.samples sample hin
    · obtain rfl := List.mem_singleton.mp hin
      exact hsample
  · intro round hin index
    rcases List.mem_append.mp hin with hin | hin
    · exact h.rounds round hin index
    · obtain rfl := List.mem_singleton.mp hin
      exact (hgoes index).good.envelope
  · exact ⟨(hgoes index).contour, [voices], rfl, rfl, congrArg (fun c => [c]) (hgoes index).contour⟩

theorem sampleRounds_spec (hsteps : ∀ index, (steps index).Valid) (hvolume : volume ≤ 15) (count : Nat) (h : Good s) :
    ∃ s', sampleRounds (controlsOf steps) volume count s = some s' ∧ Kept s s' ∧ ∀ index, Rounds (steps index) index count s s' := by
  induction count generalizing s with
  | zero => exact ⟨s, rfl, ⟨h, rfl, fun _ => rfl⟩, fun _ => Rounds.none rfl rfl⟩
  | succ count ih =>
    obtain ⟨s', hround, hkept, hfirst⟩ := sampleRound_spec hsteps hvolume h
    obtain ⟨s'', hrounds, hkept', hrest⟩ := ih hkept.good
    refine ⟨s'', ?_, hkept.trans hkept', fun index => Nat.add_comm 1 count ▸ (hfirst index).trans (hrest index)⟩
    rw [sampleRounds, hround]
    exact hrounds

/-- A chunk takes each voice on by 256 samples, with the steps of its registers. -/
theorem generateChunk_spec (h : Good s) :
    ∃ s', generateChunk s = some s' ∧ Kept s s' ∧ ∀ index, ∃ steps, stepsOf s.registers index = some steps ∧ steps.Valid ∧
      Rounds steps index chunkSamples s s' := by
  choose steps hsteps hvalid _ using stepsOf_spec s.registers
  have hvolume : (s.registers masterRegister &&& 15).toNat ≤ 15 := by
    rw [UInt8.toNat_and]
    exact Nat.and_le_right
  have hcontrols : ((List.finRange 3).mapM fun index => (stepsOf s.registers index).map (Prod.mk index)) = some (controlsOf steps) := by
    simp only [hsteps, Option.map_some]
    rfl
  have hstart : Good { s with samples := [] } := ⟨h.voices, h.gates, fun _ hin => absurd hin List.not_mem_nil, h.rounds⟩
  obtain ⟨s', hrun, hkept, hrounds⟩ := sampleRounds_spec hvalid hvolume chunkSamples hstart
  unfold generateChunk
  rw [hcontrols, Option.bind_eq_bind, Option.bind_some, hrun]
  refine ⟨_, rfl, ⟨⟨hkept.good.voices, hkept.good.gates, hkept.good.samples, hkept.good.rounds⟩, hkept.registers, hkept.gates⟩,
    fun index => ⟨steps index, hsteps index, hvalid index, (hrounds index).contour, (hrounds index).rounds⟩⟩

end Chunk

/-! ## Writes -/

theorem register_spec (index : Index) :
    register index 4 < 21 ∧ register index 4 % voiceRegisters = 4 ∧ Fin.ofNat 3 (register index 4 / voiceRegisters) = index := by
  revert index
  decide

section Write

variable {r : Nat} {value : UInt8} {s : State}

theorem writeRegister_registers (i : Nat) :
    (writeRegister r value s).registers i = if i = r then stored r value else s.registers i := by
  have hregisters : (writeRegister r value s).registers = Function.update s.registers r (stored r value) := by
    unfold writeRegister
    dsimp only
    split <;> rfl
  rw [hregisters]
  by_cases hi : i = r
  · rw [hi, Function.update_self, if_pos rfl]
  · rw [Function.update_of_ne hi, if_neg hi]

theorem writeRegister_voices (index : Index) :
    (writeRegister r value s).voices index = if r = register index 4 then gatedVoice value (s.voices index) else s.voices index := by
  obtain ⟨hregister, hmod, hindex⟩ := register_spec index
  by_cases hr : r = register index 4
  · subst hr
    have hstored : stored (register index 4) value = value := if_neg fun h => absurd h.1 (by rw [hmod]; decide)
    unfold writeRegister updateGate
    dsimp only
    rw [if_pos ⟨hregister, hmod⟩, hindex, hstored, if_pos rfl]
    exact Function.update_self _ _ _
  · unfold writeRegister updateGate
    dsimp only
    rw [if_neg hr]
    split
    · next hcontrol =>
      refine Function.update_of_ne (fun heq => hr ?_) _ _
      have hquotient : r / voiceRegisters < 3 := by
        unfold voiceRegisters
        omega
      have hval : index.val = r / voiceRegisters := (congrArg Fin.val heq).trans (Nat.mod_eq_of_lt hquotient)
      unfold register
      rw [hval]
      unfold voiceRegisters at hcontrol ⊢
      omega
    · rfl

theorem writeRegister_rounds : (writeRegister r value s).rounds = s.rounds := by
  unfold writeRegister
  dsimp only
  split <;> rfl

theorem writeRegister_samples : (writeRegister r value s).samples = s.samples := by
  unfold writeRegister
  dsimp only
  split <;> rfl

/-- A write leaves the state, or is to a register. -/
theorem write_cases (address : UInt16) :
    (write address value s).2 = s ∨ ∃ r, address.toNat = sidStart + r ∧ (write address value s).2 = writeRegister r value s := by
  unfold write
  split
  · exact Or.inl rfl
  · exact Or.inr ⟨address.toNat - sidStart, by omega, rfl⟩

end Write

theorem gatedVoice_good {voice : Voice} (h : voice.Good) (control : UInt8) : (gatedVoice control voice).Good := by
  refine ⟨h.envelope, h.noise, ?_⟩
  have hgate := h.gate
  unfold gatedVoice
  dsimp only
  generalize decide (control &&& controlGate ≠ 0) = gate
  cases gate <;> cases hvoice : voice.gate <;> cases hstage : voice.stage <;> simp_all [Stage.Gated]

/-- A voice goes on as it was when its gate does not change. -/
theorem gatedVoice_contour {voice : Voice} {control : UInt8} (h : decide (control &&& controlGate ≠ 0) = voice.gate) :
    (gatedVoice control voice).contour = voice.contour := by
  unfold gatedVoice Voice.contour
  dsimp only
  rw [h]
  cases voice.gate <;> rfl

theorem writeRegister_good {s : State} (h : Good s) (r : Nat) (value : UInt8) : Good (writeRegister r value s) := by
  refine ⟨fun index => ?_, fun index => ?_, ?_, ?_⟩
  · rw [writeRegister_voices]
    split
    · exact gatedVoice_good (h.voices index) value
    · exact h.voices index
  · obtain ⟨-, hmod, -⟩ := register_spec index
    rw [writeRegister_voices, writeRegister_registers]
    by_cases hr : r = register index 4
    · subst hr
      have hstored : stored (register index 4) value = value := if_neg fun h => absurd h.1 (by rw [hmod]; decide)
      rw [if_pos rfl, if_pos rfl, hstored]
      rfl
    · rw [if_neg hr, if_neg (Ne.symm hr)]
      exact h.gates index
  · rw [writeRegister_samples]
    exact h.samples
  · rw [writeRegister_rounds]
    exact h.rounds

theorem close_good {s : State} (h : Good s) : Good (close s) := by
  refine ⟨fun index => ?_, fun index => ?_, h.samples, h.rounds⟩
  · exact ⟨Nat.zero_le _, (h.voices index).noise, iff_of_false Bool.false_ne_true id⟩
  · obtain ⟨hregister, hmod, -⟩ := register_spec index
    have hcleared : (close s).registers (register index 4) = s.registers (register index 4) &&& 0xfe := if_pos ⟨hregister, hmod⟩
    have hgate : s.registers (register index 4) &&& 0xfe &&& controlGate = 0 := by
      rw [UInt8.and_assoc]
      exact UInt8.and_zero
    rw [hcleared, hgate]
    rfl

theorem initial_good : Good State.initial := by
  refine ⟨fun index => ⟨Nat.zero_le _, ?_, iff_of_false Bool.false_ne_true id⟩, fun index => ?_, ?_, ?_⟩
  · revert index
    decide
  · revert index
    decide
  · exact fun _ hin => absurd hin List.not_mem_nil
  · exact fun _ hin => absurd hin List.not_mem_nil

/-! ## Runs -/

/-- No operation overflows, in any run. -/
theorem step_good {s : State} (h : Good s) (operation : Operation) : ∃ s', step s operation = some s' ∧ Good s' := by
  cases operation with
  | write address value =>
    refine ⟨_, rfl, ?_⟩
    obtain hsame | ⟨r, -, hwrite⟩ := @write_cases value s address
    · rw [hsame]
      exact h
    · rw [hwrite]
      exact writeRegister_good h r value
  | chunk =>
    obtain ⟨s', hchunk, hkept, -⟩ := generateChunk_spec h
    exact ⟨s', hchunk, hkept.good⟩
  | close => exact ⟨_, rfl, close_good h⟩
  | reset => exact ⟨_, rfl, initial_good.voices, initial_good.gates, initial_good.samples, h.rounds⟩

theorem run_good {s : State} (h : Good s) (operations : List Operation) : ∃ s', run s operations = some s' ∧ Good s' := by
  induction operations generalizing s with
  | nil => exact ⟨s, rfl, h⟩
  | cons operation operations ih =>
    obtain ⟨s', hstep, hgood⟩ := step_good h operation
    obtain ⟨s'', hrun, hgood'⟩ := ih hgood
    refine ⟨s'', ?_, hgood'⟩
    rw [run, hstep]
    exact hrun

/-- The samples of an operation. -/
def Operation.count : Operation → Nat
  | .chunk => chunkSamples
  | _ => 0

/-- The samples of a run. -/
def count (operations : List Operation) : Nat := (operations.map Operation.count).sum

/-! ### Attack to sustain -/

/-- An operation leaves the registers of a voice as they are. -/
def Operation.Keeps (registers : Nat → UInt8) (index : Index) : Operation → Prop
  | .write address value => ∀ offset < voiceRegisters, address.toNat = sidStart + register index offset →
      stored (register index offset) value = registers (register index offset)
  | .chunk => True
  | .close | .reset => False

/-- Two register files agree on a voice. -/
def Agree (index : Index) (registers registers' : Nat → UInt8) : Prop :=
  ∀ offset < voiceRegisters, registers (register index offset) = registers' (register index offset)

theorem stepsOf_congr {index : Index} {registers registers' : Nat → UInt8} (h : Agree index registers registers') :
    stepsOf registers index = stepsOf registers' index := by
  unfold stepsOf
  rw [h 0 (by decide), h 1 (by decide), h 5 (by decide), h 6 (by decide)]

section Runs

variable {registers : Nat → UInt8} {index : Index} {steps : Steps} {s : State}

theorem step_keeps (hsteps : stepsOf registers index = some steps) (h : Good s) (hagree : Agree index s.registers registers)
    {operation : Operation} (hkeeps : operation.Keeps registers index) :
    ∃ s', step s operation = some s' ∧ Good s' ∧ Agree index s'.registers registers ∧ Rounds steps index operation.count s s' := by
  cases operation with
  | close | reset => exact absurd hkeeps id
  | chunk =>
    obtain ⟨s', hchunk, hkept, hrounds⟩ := generateChunk_spec h
    obtain ⟨steps', hsteps', -, hrounds⟩ := hrounds index
    obtain rfl : steps' = steps := Option.some.inj ((hsteps'.symm.trans (stepsOf_congr hagree)).trans hsteps)
    exact ⟨s', hchunk, hkept.good, fun offset hoffset => (congrFun hkept.registers _).trans (hagree offset hoffset), hrounds⟩
  | write address value =>
    refine ⟨_, rfl, ?_⟩
    obtain hsame | ⟨r, hr, hwrite⟩ := @write_cases value s address
    · rw [hsame]
      exact ⟨h, hagree, Rounds.none rfl rfl⟩
    · rw [hwrite]
      refine ⟨writeRegister_good h r value, fun offset hoffset => ?_, Rounds.none ?_ writeRegister_rounds⟩
      · rw [writeRegister_registers]
        split
        · next heq =>
          have hstored := hkeeps offset hoffset (heq ▸ hr)
          rw [← heq]
          exact hstored
        · exact hagree offset hoffset
      · rw [writeRegister_voices]
        split
        · next heq =>
          obtain ⟨-, hmod, -⟩ := register_spec index
          have hstored : stored (register index 4) value = value := if_neg fun h => absurd h.1 (by rw [hmod]; decide)
          have hvalue : value = s.registers (register index 4) :=
            hstored.symm.trans ((hkeeps 4 (by decide) (heq ▸ hr)).trans (hagree 4 (by decide)).symm)
          refine gatedVoice_contour ?_
          rw [h.gates, hvalue]
        · rfl

theorem run_keeps (hsteps : stepsOf registers index = some steps) (h : Good s) (hagree : Agree index s.registers registers)
    {operations : List Operation} (hkeeps : ∀ operation ∈ operations, operation.Keeps registers index) :
    ∃ s', run s operations = some s' ∧ Rounds steps index (count operations) s s' := by
  induction operations generalizing s with
  | nil => exact ⟨s, rfl, Rounds.none rfl rfl⟩
  | cons operation operations ih =>
    obtain ⟨hfirst, hrest⟩ := List.forall_mem_cons.mp hkeeps
    obtain ⟨s', hstep, hgood, hagree', hround⟩ := step_keeps hsteps h hagree hfirst
    obtain ⟨s'', hrun, hrounds⟩ := ih hgood hagree' hrest
    refine ⟨s'', ?_, hround.trans hrounds⟩
    rw [run, hstep]
    exact hrun

/-- A voice goes from attack to its sustain level: there are two samples such that, in every run that leaves its registers, its envelope
is full at the one, and at the sustain level from the other on. -/
def Sustains (s : State) (index : Index) : Prop :=
  ∃ i j : Nat, i < j ∧ ∀ operations : List Operation, (∀ operation ∈ operations, operation.Keeps s.registers index) →
    ∃ s' l, run s operations = some s' ∧ s'.rounds = s.rounds ++ l ∧ l.length = count operations ∧
      (∀ voices : Index → Voice, l[i]? = some voices → (voices index).envelope = 65535) ∧
      ∀ k, j ≤ k → ∀ voices : Index → Voice, l[k]? = some voices →
        (voices index).envelope = level s.registers index ∧ (voices index).stage = .sustain

theorem attack_run (h : Good s) (hattack : (s.voices index).stage = .attack) : Sustains s index := by
  obtain ⟨steps, hsteps, hvalid, hlevel⟩ := stepsOf_spec s.registers index
  obtain ⟨i, j, hij, hfull, hsustain⟩ := attack_sustains hvalid (h.voices index).envelope
  have hcontour : (s.voices index).contour = ((s.voices index).envelope, .attack) := by
    rw [← hattack]
    rfl
  refine ⟨i, j, hij, fun operations hkeeps => ?_⟩
  obtain ⟨s', hrun, -, l, hl, hlength, hcontours⟩ := run_keeps hsteps h (fun _ _ => rfl) hkeeps
  have hat : ∀ (k : Nat) (voices : Index → Voice), l[k]? = some voices →
      (voices index).contour = (advance steps)^[k + 1] ((s.voices index).envelope, .attack) := by
    intro k voices hk
    have hmapped : (l.map fun voices => (voices index).contour)[k]? = some (voices index).contour := by
      rw [List.getElem?_map, hk]
      rfl
    rw [hcontours, hcontour] at hmapped
    obtain ⟨hin, hget⟩ := List.getElem?_eq_some_iff.mp hmapped
    rw [List.getElem_iterate] at hget
    rw [← hget, Function.iterate_succ_apply]
  refine ⟨s', l, hrun, hl, hlength, fun voices hi => ?_, fun k hk voices hvoices => ?_⟩
  · exact congrArg Prod.fst ((hat i voices hi).trans hfull)
  · have hsame := (hat k voices hvoices).trans (hsustain k hk)
    exact ⟨(congrArg Prod.fst hsame).trans hlevel, congrArg Prod.snd hsame⟩

/-! ### Release -/

/-- An operation opens the gate of a voice. -/
def Operation.Opens (index : Index) : Operation → Prop
  | .write address value => address.toNat = sidStart + register index 4 ∧ value &&& controlGate ≠ 0
  | _ => False

/-- The envelope of a voice falls over some samples, and the voice is nearer to its end. -/
structure Drains (index : Index) (count : Nat) (s s' : State) : Prop where
  falls : ∃ l, s'.rounds = s.rounds ++ l ∧
    Falls (s.voices index).envelope (l.map fun voices => (voices index).envelope) (s'.voices index).envelope
  remaining : remaining (s'.voices index).contour ≤ remaining (s.voices index).contour - count

theorem Drains.none {s s' : State} (henvelope : (s'.voices index).envelope ≤ (s.voices index).envelope)
    (hremaining : Sid.remaining (s'.voices index).contour ≤ Sid.remaining (s.voices index).contour) (hrounds : s'.rounds = s.rounds) :
    Drains index 0 s s' :=
  ⟨⟨[], hrounds.trans (List.append_nil _).symm, Falls.nil henvelope⟩, hremaining⟩

theorem Drains.trans {s s' s'' : State} {count more : Nat} (h : Drains index count s s') (h' : Drains index more s' s'') :
    Drains index (count + more) s s'' := by
  obtain ⟨l, hl, hfalls⟩ := h.falls
  obtain ⟨l', hl', hfalls'⟩ := h'.falls
  have hremaining := h.remaining
  have hremaining' := h'.remaining
  refine ⟨⟨l ++ l', ?_, ?_⟩, by omega⟩
  · rw [hl', hl, List.append_assoc]
  · rw [List.map_append]
    exact hfalls.append hfalls'

/-- A voice without its gate drains with every sample. -/
theorem Rounds.drains {s s' : State} {count : Nat} (hvalid : steps.Valid) (hgated : ¬(s.voices index).stage.Gated)
    (h : Rounds steps index count s s') : Drains index count s s' := by
  obtain ⟨l, hl, -, hcontours⟩ := h.rounds
  obtain ⟨hfalls, hremaining⟩ := released_falls (c := (s.voices index).contour) hvalid hgated count
  have henvelopes : (l.map fun voices => (voices index).envelope) =
      (List.iterate (advance steps) (advance steps (s.voices index).contour) count).map Prod.fst := by
    rw [← hcontours, List.map_map]
    rfl
  have hlast : (s'.voices index).envelope = ((advance steps)^[count] (s.voices index).contour).1 := congrArg Prod.fst h.contour
  refine ⟨⟨l, hl, ?_⟩, ?_⟩
  · rw [henvelopes, hlast]
    exact hfalls
  · rw [h.contour]
    exact hremaining

theorem step_drains (h : Good s) (hgate : (s.voices index).gate = false) {operation : Operation} (hopens : ¬operation.Opens index) :
    ∃ s', step s operation = some s' ∧ Good s' ∧ (s'.voices index).gate = false ∧ Drains index operation.count s s' := by
  obtain ⟨s', hstep, hgood⟩ := step_good h operation
  refine ⟨s', hstep, hgood, ?_⟩
  cases operation with
  | chunk =>
    obtain ⟨t, hchunk, hkept, hrounds⟩ := generateChunk_spec h
    obtain rfl : t = s' := Option.some.inj (hchunk.symm.trans hstep)
    obtain ⟨steps, -, hvalid, hrounds⟩ := hrounds index
    have hgated : ¬(s.voices index).stage.Gated := fun hgated => by
      rw [(h.voices index).gate.mpr hgated] at hgate
      exact Bool.noConfusion hgate
    exact ⟨(hkept.gates index).trans hgate, hrounds.drains hvalid hgated⟩
  | close =>
    obtain rfl := Option.some.inj hstep
    exact ⟨rfl, Drains.none (Nat.zero_le _) (Nat.zero_le _) rfl⟩
  | reset =>
    obtain rfl := Option.some.inj hstep
    exact ⟨rfl, Drains.none (Nat.zero_le _) (Nat.zero_le _) rfl⟩
  | write address value =>
    obtain rfl := Option.some.inj hstep
    obtain hsame | ⟨r, hr, hwrite⟩ := @write_cases value s address
    · rw [hsame]
      exact ⟨hgate, Drains.none (Nat.le_refl _) (Nat.le_refl _) rfl⟩
    · have hvoice : ((writeRegister r value s).voices index).gate = false ∧
          ((writeRegister r value s).voices index).contour = (s.voices index).contour := by
        rw [writeRegister_voices]
        split
        · next heq =>
          have hoff : decide (value &&& controlGate ≠ 0) = false := decide_eq_false fun hon => hopens ⟨heq ▸ hr, hon⟩
          exact ⟨hoff, gatedVoice_contour (hoff.trans hgate.symm)⟩
        · exact ⟨hgate, rfl⟩
      rw [hwrite]
      refine ⟨hvoice.1, Drains.none ?_ ?_ writeRegister_rounds⟩
      · exact (congrArg Prod.fst hvoice.2).le
      · rw [hvoice.2]

theorem run_drains (h : Good s) (hgate : (s.voices index).gate = false) {operations : List Operation}
    (hopens : ∀ operation ∈ operations, ¬operation.Opens index) :
    ∃ s', run s operations = some s' ∧ Drains index (count operations) s s' := by
  induction operations generalizing s with
  | nil => exact ⟨s, rfl, Drains.none (Nat.le_refl _) (Nat.le_refl _) rfl⟩
  | cons operation operations ih =>
    obtain ⟨hfirst, hrest⟩ := List.forall_mem_cons.mp hopens
    obtain ⟨s', hstep, hgood, hgate', hdrains⟩ := step_drains h hgate hfirst
    obtain ⟨s'', hrun, hdrains'⟩ := ih hgood hgate' hrest
    refine ⟨s'', ?_, hdrains.trans hdrains'⟩
    rw [run, hstep]
    exact hrun

/-- A voice whose envelope has 16 bits is off after as many samples. -/
theorem Drains.off {s s' : State} {count : Nat} (h : Good s) (hdrains : Drains index count s s') (hcount : 65536 ≤ count) :
    (s'.voices index).stage = .off := by
  have henvelope := (h.voices index).envelope
  have hleft := hdrains.remaining
  have hbound : Sid.remaining (s.voices index).contour ≤ 65536 := by
    unfold Sid.remaining Voice.contour
    split
    · exact Nat.zero_le _
    · exact Nat.succ_le_succ henvelope
  by_contra hrunning
  have hpositive : Sid.remaining (s'.voices index).contour = (s'.voices index).envelope + 1 := if_neg hrunning
  omega

/-- A voice dies away: in every run that does not open its gate, its envelope never rises, and after some samples the voice is off. -/
def DiesAway (s : State) (index : Index) : Prop :=
  ∃ n, ∀ operations : List Operation, (∀ operation ∈ operations, ¬operation.Opens index) →
    ∃ s' l, run s operations = some s' ∧ s'.rounds = s.rounds ++ l ∧
      ((s.voices index).envelope :: l.map fun voices => (voices index).envelope).Pairwise (· ≥ ·) ∧
      (n ≤ count operations → (s'.voices index).stage = .off)

theorem release_run (h : Good s) (hgate : (s.voices index).gate = false) : DiesAway s index := by
  refine ⟨65536, fun operations hopens => ?_⟩
  obtain ⟨s', hrun, hdrains⟩ := run_drains h hgate hopens
  obtain ⟨l, hl, hfalls⟩ := hdrains.falls
  exact ⟨s', l, hrun, hl, hfalls.descending, hdrains.off h⟩

/-- No voice runs after some samples, in every run that opens no gate. -/
def FallsSilent (s : State) : Prop :=
  ∃ n, ∀ operations : List Operation, (∀ operation ∈ operations, ∀ index, ¬operation.Opens index) → n ≤ count operations →
    ∃ s', run s operations = some s' ∧ anyVoiceRunning s' = false

theorem silent_run (h : Good s) (hgates : ∀ index, (s.voices index).gate = false) : FallsSilent s := by
  refine ⟨65536, fun operations hopens hcount => ?_⟩
  obtain ⟨s', hrun, -⟩ := run_good h operations
  refine ⟨s', hrun, List.any_eq_false.mpr fun index _ => ?_⟩
  obtain ⟨t, hrun', hdrains⟩ := run_drains h (hgates index) fun operation hin => hopens operation hin index
  obtain rfl : t = s' := Option.some.inj (hrun'.symm.trans hrun)
  unfold voiceRunning
  rw [hdrains.off h hcount]
  decide

end Runs

/-- Whatever is written and played, nothing overflows, and the envelopes and the samples stay in range; a voice in attack comes to its
sustain level, a voice without its gate dies away, and without any gate all voices fall silent. -/
theorem synthesis_stays_in_range (operations : List Operation) :
    ∃ s, run State.initial operations = some s ∧
      (∀ voices ∈ s.rounds, ∀ index, (voices index).envelope ≤ 65535) ∧
      (∀ index, (s.voices index).envelope ≤ 65535) ∧
      (∀ sample ∈ s.samples, -6000 ≤ sample ∧ sample ≤ 6000) ∧
      (∀ index, (s.voices index).stage = .attack → Sustains s index) ∧
      (∀ index, (s.voices index).gate = false → DiesAway s index) ∧
      ((∀ index, (s.voices index).gate = false) → FallsSilent s) := by
  obtain ⟨s, hrun, hgood⟩ := run_good initial_good operations
  exact ⟨s, hrun, hgood.rounds, fun index => (hgood.voices index).envelope, hgood.samples, fun _ => attack_run hgood,
    fun _ => release_run hgood, silent_run hgood⟩

end Sid
end TabOS
