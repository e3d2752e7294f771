import TabOS.Audio.Service

/-!
# The bytes of the streams

The ring of a playback stream holds the bytes that were accepted since the last flush and not played yet, that of a capture stream those
that were captured and neither dropped nor returned. Both hold whole frames.
-/

namespace TabOS
namespace Audio

open Library

/-! ## What a log says -/

def Event.acceptedBytes : Event → List UInt8
  | .accepted bytes => bytes
  | _ => []

def Event.playedBytes : Event → List UInt8
  | .played bytes => bytes
  | _ => []

def Event.capturedBytes : Event → List UInt8
  | .captured bytes => bytes
  | _ => []

/-- The bytes that an event takes out of the ring of a capture stream. -/
def Event.removedBytes : Event → List UInt8
  | .dropped bytes => bytes
  | .returned bytes => bytes
  | _ => []

def Event.isDropped : Event → Bool
  | .dropped _ => true
  | _ => false

/-- The bytes of the events of a log, the oldest first. -/
def bytesOf (select : Event → List UInt8) (log : List Event) : List UInt8 := log.reverse.flatMap select

/-- What happened since the last flush. -/
def sinceFlush (log : List Event) : List Event := log.takeWhile (· ≠ .flushed)

/-- The frames that were dropped. -/
def drops (log : List Event) : Nat := log.countP Event.isDropped

@[simp] theorem bytesOf_cons (select : Event → List UInt8) (event : Event) (log : List Event) :
    bytesOf select (event :: log) = bytesOf select log ++ select event := by
  rw [bytesOf, List.reverse_cons, List.flatMap_append, List.flatMap_singleton]
  rfl

theorem sinceFlush_cons {event : Event} (h : event ≠ .flushed) (log : List Event) :
    sinceFlush (event :: log) = event :: sinceFlush log :=
  List.takeWhile_cons_of_pos (decide_eq_true h)

/-- The bytes that were accepted since the last flush are those that were played, in order, and those that are buffered. -/
def PlaysInOrder (log : List Event) (buffered : List UInt8) : Prop :=
  bytesOf Event.acceptedBytes (sinceFlush log) = bytesOf Event.playedBytes (sinceFlush log) ++ buffered

/-- The bytes that were captured are those that were dropped or returned, in order, and those that are buffered. -/
def CapturesInOrder (log : List Event) (buffered : List UInt8) : Prop :=
  bytesOf Event.capturedBytes log = bytesOf Event.removedBytes log ++ buffered

/-- At no time were bytes played that were not accepted before, since the last flush. -/
def AlwaysPrefix (log : List Event) : Prop :=
  ∀ earlier, earlier <:+ log → bytesOf Event.playedBytes (sinceFlush earlier) <+: bytesOf Event.acceptedBytes (sinceFlush earlier)

/-- At no time were bytes removed that were not captured before. -/
def AlwaysRemovable (log : List Event) : Prop :=
  ∀ earlier, earlier <:+ log → bytesOf Event.removedBytes earlier <+: bytesOf Event.capturedBytes earlier

theorem AlwaysPrefix.cons {log : List Event} (h : AlwaysPrefix log) {event : Event} {buffered : List UInt8}
    (hnow : PlaysInOrder (event :: log) buffered) : AlwaysPrefix (event :: log) := by
  intro earlier hsuffix
  rcases List.suffix_cons_iff.1 hsuffix with rfl | hsuffix
  · exact ⟨buffered, hnow.symm⟩
  · exact h earlier hsuffix

theorem AlwaysRemovable.cons {log : List Event} (h : AlwaysRemovable log) {event : Event} {buffered : List UInt8}
    (hnow : CapturesInOrder (event :: log) buffered) : AlwaysRemovable (event :: log) := by
  intro earlier hsuffix
  rcases List.suffix_cons_iff.1 hsuffix with rfl | hsuffix
  · exact ⟨buffered, hnow.symm⟩
  · exact h earlier hsuffix

/-! ## The invariant -/

/-- What is true of a playback stream. -/
structure Plays (stream : Stream) : Prop where
  channels_le : stream.channels ≤ 2
  order : PlaysInOrder stream.log stream.ring.contents
  always : AlwaysPrefix stream.log

/-- What is true of a capture stream. -/
structure Captures (stream : Stream) : Prop where
  order : CapturesInOrder stream.log stream.ring.contents
  always : AlwaysRemovable stream.log
  dropped : ∀ bytes, .dropped bytes ∈ stream.log → bytes.length = frameBytes stream
  returned : ∀ bytes, .returned bytes ∈ stream.log → frameBytes stream ∣ bytes.length
  overruns : stream.overruns = BitVec.ofNat 32 (drops stream.log)

/-- What is true of an open stream. -/
structure Sound (stream : Stream) : Prop where
  fits : stream.ring.Fits
  whole : frameBytes stream ∣ stream.ring.count
  channels_pos : 0 < stream.channels
  channels_le : stream.channels ≤ ioMax / 2
  volume_le : stream.volume ≤ volumeMax
  plays : stream.direction = .playback → Plays stream
  captures : stream.direction = .capture → Captures stream

/-- Every open stream is sound. -/
def AllSound (streams : Streams) : Prop := ∀ index, (streams index).isOpen = true → Sound (streams index)

variable {stream : Stream}

theorem Sound.frame_pos (h : Sound stream) : 0 < frameBytes stream := by
  have := h.channels_pos
  unfold frameBytes
  omega

theorem Sound.frame_le (h : Sound stream) : frameBytes stream ≤ ringCapacity := by
  have hle := h.channels_le
  unfold frameBytes ringCapacity ioMax at *
  omega

/-- The invariant reads neither the owner nor the fault nor the underruns. -/
theorem Sound.congr {stream' : Stream} (h : Sound stream) (hring : stream'.ring = stream.ring)
    (hchannels : stream'.channels = stream.channels)
    (hvolume : stream'.volume ≤ volumeMax) (hdirection : stream'.direction = stream.direction)
    (hoverruns : stream'.overruns = stream.overruns) (hlog : stream'.log = stream.log) : Sound stream' := by
  have hframe : frameBytes stream' = frameBytes stream := by rw [frameBytes, hchannels, frameBytes]
  obtain ⟨hfits, hwhole, hpos, hle, -, hplays, hcaptures⟩ := h
  refine ⟨?_, ?_, ?_, ?_, hvolume, ?_, ?_⟩
  · rw [hring]
    exact hfits
  · rw [hframe, hring]
    exact hwhole
  · rw [hchannels]
    exact hpos
  · rw [hchannels]
    exact hle
  · intro hplayback
    obtain ⟨htwo, horder, halways⟩ := hplays (hdirection.symm.trans hplayback)
    refine ⟨?_, ?_, ?_⟩
    · rw [hchannels]
      exact htwo
    · rw [hlog, hring]
      exact horder
    · rw [hlog]
      exact halways
  · intro hcapture
    obtain ⟨horder, halways, hdropped, hreturned, hcount⟩ := hcaptures (hdirection.symm.trans hcapture)
    refine ⟨?_, ?_, ?_, ?_, ?_⟩
    · rw [hlog, hring]
      exact horder
    · rw [hlog]
      exact halways
    · rw [hlog, hframe]
      exact hdropped
    · rw [hlog, hframe]
      exact hreturned
    · rw [hlog, hoverruns]
      exact hcount

theorem AlwaysPrefix.nil : AlwaysPrefix [] := by
  intro earlier hsuffix
  rw [List.suffix_nil.1 hsuffix]
  exact List.prefix_refl _

theorem AlwaysRemovable.nil : AlwaysRemovable [] := by
  intro earlier hsuffix
  rw [List.suffix_nil.1 hsuffix]
  exact List.prefix_refl _

/-- A stream that is opened with a valid configuration. -/
theorem sound_openedStream {info : PlatformInfo} {config : Config} (h : configValid info config = true)
    (owner sampleRate generation : Nat) (memory : Nat → UInt8) : Sound (openedStream owner config sampleRate generation memory) := by
  unfold configValid at h
  split at h
  · exact absurd h Bool.false_ne_true
  · rename_i hchecked
    refine ⟨⟨show 0 < ringCapacity by decide, Nat.zero_le _⟩, Nat.dvd_zero _, ?_, ?_, Nat.le_refl _, ?_, ?_⟩
    · exact Nat.pos_of_ne_zero fun hzero => hchecked (Or.inl hzero)
    · exact Nat.le_of_not_lt fun hmany => hchecked (Or.inr (Or.inl hmany))
    · intro hplayback
      have hdirection : config.direction = .playback := hplayback
      rw [hdirection] at h
      exact ⟨(of_decide_eq_true h).1, rfl, AlwaysPrefix.nil⟩
    · intro _
      exact ⟨rfl, AlwaysRemovable.nil, fun _ hmem => absurd hmem List.not_mem_nil, fun _ hmem => absurd hmem List.not_mem_nil, rfl⟩

/-! ## Playback -/

/-- A flush discards what is buffered. -/
theorem Sound.flush (h : Sound stream) (hplayback : stream.direction = .playback) :
    Sound ({ stream with ring := stream.ring.clear }.record .flushed) := by
  have hplays := h.plays hplayback
  refine ⟨h.fits.clear, Nat.dvd_zero _, h.channels_pos, h.channels_le, h.volume_le, fun _ => ?_, fun hcapture => ?_⟩
  · have horder : PlaysInOrder (.flushed :: stream.log) [] := rfl
    exact ⟨hplays.channels_le, horder, hplays.always.cons horder⟩
  · exact absurd (hplayback.symm.trans hcapture) Direction.noConfusion

/-- A write puts whole frames behind the others. -/
theorem Sound.write (h : Sound stream) (hplayback : stream.direction = .playback) {bytes : List UInt8}
    (hroom : stream.ring.count + bytes.length ≤ ringCapacity) (hframe : frameBytes stream ∣ bytes.length) :
    Sound ((ringWrite stream bytes).record (.accepted bytes)) := by
  obtain ⟨hchannels, horder, halways⟩ := h.plays hplayback
  have hring : (ringWrite stream bytes).ring = bytes.foldl Queue.pushBack stream.ring := Queue.pushBlock_eq_foldl h.fits bytes hroom
  obtain ⟨hcontents, hfits, hcount⟩ := Queue.contents_foldl_pushBack h.fits bytes hroom
  rw [← hring] at hcontents hfits hcount
  have hnow : PlaysInOrder (.accepted bytes :: stream.log) (ringWrite stream bytes).ring.contents := by
    unfold PlaysInOrder
    rw [sinceFlush_cons Event.noConfusion, bytesOf_cons, bytesOf_cons, hcontents, horder]
    simp [Event.acceptedBytes, Event.playedBytes]
  refine ⟨hfits, ?_, h.channels_pos, h.channels_le, h.volume_le, fun _ => ⟨hchannels, hnow, halways.cons hnow⟩, fun hcapture => ?_⟩
  · show frameBytes stream ∣ (ringWrite stream bytes).ring.count
    rw [hcount]
    exact Nat.dvd_add h.whole hframe
  · exact absurd (hplayback.symm.trans hcapture) Direction.noConfusion

/-- The sample at a position of some bytes. -/
def sampleAt (bytes : List UInt8) (position : Nat) : Int16 := sampleOf (bytes.getD (position * 2) 0) (bytes.getD (position * 2 + 1) 0)

theorem sampleAt_drop (bytes : List UInt8) (skipped position : Nat) :
    sampleAt (bytes.drop (skipped * 2)) position = sampleAt bytes (skipped + position) := by
  have hsum : skipped * 2 + position * 2 = (skipped + position) * 2 := by omega
  unfold sampleAt
  simp only [List.getD_eq_getElem?_getD, List.getElem?_drop, ← hsum, Nat.add_assoc]

theorem sampleBytes_sampleAt {bytes : List UInt8} (h : 2 ≤ bytes.length) : sampleBytes (sampleAt bytes 0) = bytes.take 2 := by
  obtain ⟨low, high, rest, rfl⟩ : ∃ low high rest, bytes = low :: high :: rest := by
    rcases bytes with _ | ⟨low, _ | ⟨high, rest⟩⟩
    · exact absurd h (by simp)
    · exact absurd h (by simp)
    · exact ⟨low, high, rest, rfl⟩
  exact sampleBytes_sampleOf low high

theorem ringPopSample_eq (hfits : stream.ring.Fits) (hcount : 2 ≤ stream.ring.count) :
    ringPopSample stream = (sampleAt stream.ring.contents 0, { stream with ring := Queue.popFront^[2] stream.ring }) := by
  have hnext : stream.ring.popFront.count = stream.ring.count - 1 := rfl
  have hfirst := Queue.contents_eq_cons hfits (show 0 < stream.ring.count by omega)
  have hsecond := Queue.contents_eq_cons hfits.popFront (show 0 < stream.ring.popFront.count by omega)
  rw [hfirst, hsecond]
  rfl

/-- What a frame of a stream adds to the left and to the right. -/
def mixedFrame (channels volume : Nat) (bytes : List UInt8) (position : Nat) : Int × Int :=
  let first := applyVolume (sampleAt bytes (position * channels)) volume
  (first, if channels = 2 then applyVolume (sampleAt bytes (position * channels + 1)) volume else first)

/-- A stream that has a frame plays its oldest one. -/
theorem renderStream_frame (h : Sound stream) (hopen : stream.isOpen = true) (hplayback : stream.direction = .playback)
    (hcount : frameBytes stream ≤ stream.ring.count) (frameIndex : Nat) :
    renderStream frameIndex stream =
      (mixedFrame stream.channels stream.volume stream.ring.contents 0,
        { stream with ring := Queue.popFront^[frameBytes stream] stream.ring }.record
          (.played (stream.ring.contents.take (frameBytes stream)))) := by
  obtain ⟨hle, -, -⟩ := h.plays hplayback
  have hpos := h.channels_pos
  have hlength : stream.ring.contents.length = stream.ring.count := Queue.length_contents _
  have hguard : ¬(stream.isOpen = false ∨ stream.direction ≠ .playback) := by
    rintro (hclosed | hother)
    · exact absurd (hopen.symm.trans hclosed) (by decide)
    · exact hother hplayback
  have htwo : 2 ≤ stream.ring.count := by
    unfold frameBytes at hcount
    omega
  unfold renderStream
  rw [if_neg hguard, if_neg (Nat.not_lt.2 hcount), ringPopSample_eq h.fits htwo]
  dsimp only
  rw [sampleBytes_sampleAt (by omega)]
  by_cases hchannels : stream.channels = 2
  · have hframe : frameBytes stream = 4 := by rw [frameBytes, hchannels]
    obtain ⟨hcontents, hfits, hrest⟩ := Queue.contents_popFront_iterate h.fits 2
    have hpopped : ({ stream with ring := Queue.popFront^[2] stream.ring } : Stream).ring.Fits := hfits
    rw [if_pos hchannels, ringPopSample_eq hpopped (by
      show 2 ≤ (Queue.popFront^[2] stream.ring).count
      omega)]
    dsimp only
    have hsample := sampleAt_drop stream.ring.contents 1 0
    have hlast : 2 ≤ (stream.ring.contents.drop 2).length := by
      rw [List.length_drop]
      omega
    rw [hcontents, sampleBytes_sampleAt hlast, hframe, ← List.take_add, mixedFrame, if_pos hchannels, Nat.zero_mul]
    rw [show (1 * 2 : Nat) = 2 from rfl] at hsample
    rw [hsample]
    rfl
  · have hframe : frameBytes stream = 2 := by
      unfold frameBytes
      omega
    rw [if_neg hchannels, hframe, mixedFrame, if_neg hchannels, Nat.zero_mul]

/-- A stream that has no frame plays nothing. -/
theorem renderStream_silent (h : ¬(stream.isOpen = true ∧ stream.direction = .playback ∧ frameBytes stream ≤ stream.ring.count))
    (frameIndex : Nat) :
    (renderStream frameIndex stream).1 = (0, 0) ∧
    ((renderStream frameIndex stream).2 = stream ∨
      (renderStream frameIndex stream).2 = { stream with underruns := stream.underruns + 1 }) := by
  unfold renderStream
  split
  · exact ⟨rfl, Or.inl rfl⟩
  · rename_i hguard
    split
    · refine ⟨rfl, ?_⟩
      dsimp only
      split
      · exact Or.inr rfl
      · exact Or.inl rfl
    · rename_i hcount
      refine absurd ⟨?_, ?_, Nat.le_of_not_lt hcount⟩ h
      · exact Bool.eq_true_of_not_eq_false fun hclosed => hguard (Or.inl hclosed)
      · exact not_not.1 fun hother => hguard (Or.inr hother)

theorem Sound.renderStream (h : stream.isOpen = true → Sound stream) (frameIndex : Nat) :
    ((renderStream frameIndex stream).2.isOpen = true → Sound (renderStream frameIndex stream).2) := by
  by_cases hframe : stream.isOpen = true ∧ stream.direction = .playback ∧ frameBytes stream ≤ stream.ring.count
  · obtain ⟨hopen, hplayback, hcount⟩ := hframe
    have hsound := h hopen
    obtain ⟨hchannels, horder, halways⟩ := hsound.plays hplayback
    obtain ⟨hcontents, hfits, hrest⟩ := Queue.contents_popFront_iterate hsound.fits (frameBytes stream)
    rw [renderStream_frame hsound hopen hplayback hcount]
    intro _
    have hnow : PlaysInOrder (.played (stream.ring.contents.take (frameBytes stream)) :: stream.log)
        (Queue.popFront^[frameBytes stream] stream.ring).contents := by
      unfold PlaysInOrder
      rw [sinceFlush_cons Event.noConfusion, bytesOf_cons, bytesOf_cons, hcontents, horder]
      simp [Event.acceptedBytes, Event.playedBytes]
    refine ⟨hfits, ?_, hsound.channels_pos, hsound.channels_le, hsound.volume_le,
      fun _ => ⟨hchannels, hnow, halways.cons hnow⟩, fun hcapture => ?_⟩
    · show frameBytes stream ∣ (Queue.popFront^[frameBytes stream] stream.ring).count
      rw [hrest]
      exact Nat.dvd_sub hsound.whole (Nat.dvd_refl _)
    · exact absurd (hplayback.symm.trans hcapture) Direction.noConfusion
  · obtain ⟨-, hsame | hunderrun⟩ := renderStream_silent hframe frameIndex
    · rw [hsame]
      exact h
    · rw [hunderrun]
      exact fun hopen => (h hopen).congr rfl rfl (h hopen).volume_le rfl rfl rfl

/-! ## Capture -/

/-- A frame is dropped when there is no room for another, and then there is. -/
theorem Sound.makeRoom (h : Sound stream) (hcapture : stream.direction = .capture) :
    Sound (makeRoom stream) ∧ (makeRoom stream).ring.count + frameBytes stream ≤ ringCapacity ∧
    (makeRoom stream).channels = stream.channels ∧ (makeRoom stream).direction = stream.direction := by
  obtain ⟨horder, halways, hdropped, hreturned, hoverruns⟩ := h.captures hcapture
  have hpos := h.frame_pos
  have hle := h.frame_le
  have hfull := h.fits.count_le
  unfold Audio.makeRoom
  dsimp only
  by_cases hroom : ringCapacity - stream.ring.count < frameBytes stream
  · have hcount : frameBytes stream ≤ stream.ring.count := Nat.le_of_dvd (by omega) h.whole
    obtain ⟨hcontents, hfits, hrest⟩ := Queue.contents_popFront_iterate h.fits (frameBytes stream)
    rw [if_pos hroom, ringPopBytes_eq h.fits _ hcount]
    dsimp only
    have hnow : CapturesInOrder (.dropped (stream.ring.contents.take (frameBytes stream)) :: stream.log)
        (Queue.popFront^[frameBytes stream] stream.ring).contents := by
      unfold CapturesInOrder
      rw [bytesOf_cons, bytesOf_cons, hcontents, horder]
      simp [Event.capturedBytes, Event.removedBytes]
    refine ⟨⟨hfits, ?_, h.channels_pos, h.channels_le, h.volume_le, fun hplayback => ?_,
      fun _ => ⟨hnow, halways.cons hnow, ?_, ?_, ?_⟩⟩, ?_, rfl, rfl⟩
    · show frameBytes stream ∣ (Queue.popFront^[frameBytes stream] stream.ring).count
      rw [hrest]
      exact Nat.dvd_sub h.whole (Nat.dvd_refl _)
    · exact absurd (hcapture.symm.trans hplayback) Direction.noConfusion
    · intro bytes hmem
      rcases List.mem_cons.1 hmem with heq | hmem
      · rw [Event.dropped.inj heq, List.length_take, Queue.length_contents]
        exact Nat.min_eq_left hcount
      · exact hdropped bytes hmem
    · intro bytes hmem
      exact hreturned bytes ((List.mem_cons.1 hmem).resolve_left Event.noConfusion)
    · have hmore : drops (.dropped (stream.ring.contents.take (frameBytes stream)) :: stream.log) = drops stream.log + 1 :=
        List.countP_cons_of_pos rfl
      show stream.overruns + 1 = BitVec.ofNat 32 (drops (.dropped _ :: stream.log))
      rw [hmore, hoverruns, BitVec.ofNat_add]
      rfl
    · show (Queue.popFront^[frameBytes stream] stream.ring).count + frameBytes stream ≤ ringCapacity
      omega
  · rw [if_neg hroom]
    exact ⟨h, by omega, rfl, rfl⟩

theorem Sound.captureFrame (h : Sound stream) (hcapture : stream.direction = .capture) (samples : Nat → Int16)
    (channels frameIndex : Nat) :
    Sound (captureFrame samples channels stream frameIndex) ∧
    (captureFrame samples channels stream frameIndex).direction = .capture := by
  obtain ⟨hsound, hroom, hchannels, hdirection⟩ := h.makeRoom hcapture
  unfold Audio.captureFrame
  dsimp only
  have hframe : frameBytes (Audio.makeRoom stream) = frameBytes stream := by rw [frameBytes, hchannels, frameBytes]
  have hcapture' : (Audio.makeRoom stream).direction = .capture := hdirection.trans hcapture
  generalize Audio.makeRoom stream = stream' at *
  obtain ⟨horder, halways, hdropped, hreturned, hoverruns⟩ := hsound.captures hcapture'
  have hlength : ((convertFrame samples frameIndex channels stream'.channels).flatMap sampleBytes).length = frameBytes stream' := by
    rw [length_flatMap_sampleBytes, length_convertFrame, frameBytes]
  rw [foldl_ringPushSample]
  generalize (convertFrame samples frameIndex channels stream'.channels).flatMap sampleBytes = bytes at hlength ⊢
  obtain ⟨hcontents, hfits, hcount⟩ := Queue.contents_foldl_pushBack hsound.fits bytes (by omega)
  have hnow : CapturesInOrder (.captured bytes :: stream'.log) (bytes.foldl Queue.pushBack stream'.ring).contents := by
    unfold CapturesInOrder
    rw [bytesOf_cons, bytesOf_cons, hcontents, horder]
    simp [Event.capturedBytes, Event.removedBytes]
  refine ⟨⟨hfits, ?_, hsound.channels_pos, hsound.channels_le, hsound.volume_le, fun hplayback => ?_,
    fun _ => ⟨hnow, halways.cons hnow, ?_, ?_, ?_⟩⟩, hcapture'⟩
  · show frameBytes stream' ∣ (bytes.foldl Queue.pushBack stream'.ring).count
    rw [hcount, hlength]
    exact Nat.dvd_add hsound.whole (Nat.dvd_refl _)
  · exact absurd (hcapture'.symm.trans hplayback) Direction.noConfusion
  · exact fun bytes' hmem => hdropped bytes' ((List.mem_cons.1 hmem).resolve_left Event.noConfusion)
  · exact fun bytes' hmem => hreturned bytes' ((List.mem_cons.1 hmem).resolve_left Event.noConfusion)
  · have hsame : drops (.captured bytes :: stream'.log) = drops stream'.log := List.countP_cons_of_neg Bool.false_ne_true
    show stream'.overruns = BitVec.ofNat 32 (drops (.captured bytes :: stream'.log))
    rw [hsame]
    exact hoverruns

theorem Sound.captureStream (h : stream.isOpen = true → Sound stream) (samples : Nat → Int16) (frames channels : Nat) :
    (captureStream samples frames channels stream).isOpen = true → Sound (captureStream samples frames channels stream) := by
  unfold Audio.captureStream
  split
  · exact h
  · rename_i hguard
    intro _
    have hopen : stream.isOpen = true := Bool.eq_true_of_not_eq_false fun hclosed => hguard (Or.inl hclosed)
    have hcapture : stream.direction = .capture := not_not.1 fun hother => hguard (Or.inr hother)
    have hrun := foldl_invariant (fun stream : Stream => Sound stream ∧ stream.direction = .capture)
      (fun stream frameIndex hi => hi.1.captureFrame hi.2 samples channels frameIndex) (List.range frames) ⟨h hopen, hcapture⟩
    exact hrun.1

/-- A read takes whole frames from the front. -/
theorem Sound.read (h : Sound stream) (hcapture : stream.direction = .capture) {copied : Nat} (hcopied : copied ≤ stream.ring.count)
    (hframe : frameBytes stream ∣ copied) :
    Sound ((ringRead stream copied).2.record (.returned (ringRead stream copied).1)) := by
  obtain ⟨horder, halways, hdropped, hreturned, hoverruns⟩ := h.captures hcapture
  obtain ⟨hcontents, hfits, hcount⟩ := Queue.contents_popFront_iterate h.fits copied
  rw [ringRead_eq_ringPopBytes h.fits copied hcopied, ringPopBytes_eq h.fits copied hcopied]
  dsimp only
  have hnow : CapturesInOrder (.returned (stream.ring.contents.take copied) :: stream.log)
      (Queue.popFront^[copied] stream.ring).contents := by
    unfold CapturesInOrder
    rw [bytesOf_cons, bytesOf_cons, hcontents, horder]
    simp [Event.capturedBytes, Event.removedBytes]
  refine ⟨hfits, ?_, h.channels_pos, h.channels_le, h.volume_le, fun hplayback => ?_, fun _ => ⟨hnow, halways.cons hnow, ?_, ?_, ?_⟩⟩
  · show frameBytes stream ∣ (Queue.popFront^[copied] stream.ring).count
    rw [hcount]
    exact Nat.dvd_sub h.whole hframe
  · exact absurd (hcapture.symm.trans hplayback) Direction.noConfusion
  · exact fun bytes hmem => hdropped bytes ((List.mem_cons.1 hmem).resolve_left Event.noConfusion)
  · intro bytes hmem
    rcases List.mem_cons.1 hmem with heq | hmem
    · rw [Event.returned.inj heq, List.length_take, Queue.length_contents, Nat.min_eq_left hcopied]
      exact hframe
    · exact hreturned bytes hmem
  · have hsame : drops (.returned (stream.ring.contents.take copied) :: stream.log) = drops stream.log :=
      List.countP_cons_of_neg Bool.false_ne_true
    show stream.overruns = BitVec.ofNat 32 (drops (.returned _ :: stream.log))
    rw [hsame]
    exact hoverruns

end Audio
end TabOS
