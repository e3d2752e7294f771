import TabOS.Audio.Rings

/-!
# Runs of the audio service

In every state that a run reaches, the open streams are sound, and a render gives the saturated sums of what the next frames of the open
playback streams add.
-/

namespace TabOS
namespace Audio

open Library

variable {streams : Streams} {stream : Stream}

/-! ## Rendering -/

/-- What a stream adds to a frame that is rendered: its own frame at the position, if it has one. -/
def contribution (position : Nat) (stream : Stream) : Int × Int :=
  if stream.isOpen = true ∧ stream.direction = .playback ∧ (position + 1) * frameBytes stream ≤ stream.ring.count then
    mixedFrame stream.channels stream.volume stream.ring.contents position
  else (0, 0)

theorem mixedFrame_drop (channels volume : Nat) (bytes : List UInt8) (position : Nat) :
    mixedFrame channels volume (bytes.drop (channels * 2)) position = mixedFrame channels volume bytes (position + 1) := by
  have hnext : channels + position * channels = (position + 1) * channels := by rw [Nat.add_mul, Nat.one_mul, Nat.add_comm]
  unfold mixedFrame
  dsimp only
  rw [sampleAt_drop, sampleAt_drop, ← hnext, Nat.add_assoc]

/-- The first frame is what the stream adds. -/
theorem renderStream_fst (h : stream.isOpen = true → Sound stream) (frameIndex : Nat) :
    (renderStream frameIndex stream).1 = contribution 0 stream := by
  unfold contribution
  rw [Nat.zero_add, Nat.one_mul]
  by_cases hframe : stream.isOpen = true ∧ stream.direction = .playback ∧ frameBytes stream ≤ stream.ring.count
  · rw [if_pos hframe, renderStream_frame (h hframe.1) hframe.1 hframe.2.1 hframe.2.2]
  · rw [if_neg hframe]
    exact (renderStream_silent hframe frameIndex).1

/-- What is left adds the later frames. -/
theorem contribution_renderStream (h : stream.isOpen = true → Sound stream) (frameIndex position : Nat) :
    contribution position (renderStream frameIndex stream).2 = contribution (position + 1) stream := by
  by_cases hframe : stream.isOpen = true ∧ stream.direction = .playback ∧ frameBytes stream ≤ stream.ring.count
  · obtain ⟨hopen, hplayback, hcount⟩ := hframe
    obtain ⟨hcontents, -, hrest⟩ := Queue.contents_popFront_iterate (h hopen).fits (frameBytes stream)
    have hiff : (position + 1) * frameBytes stream ≤ stream.ring.count - frameBytes stream ↔
        (position + 1 + 1) * frameBytes stream ≤ stream.ring.count := by
      rw [Nat.add_mul (position + 1) 1, Nat.one_mul]
      omega
    rw [renderStream_frame (h hopen) hopen hplayback hcount]
    show (if stream.isOpen = true ∧ stream.direction = .playback ∧
        (position + 1) * frameBytes stream ≤ (Queue.popFront^[frameBytes stream] stream.ring).count then
        mixedFrame stream.channels stream.volume (Queue.popFront^[frameBytes stream] stream.ring).contents position else (0, 0)) = _
    rw [hcontents, hrest, contribution]
    simp only [hiff]
    rw [show frameBytes stream = stream.channels * 2 from rfl, mixedFrame_drop]
  · obtain ⟨-, hafter⟩ := renderStream_silent hframe frameIndex
    have hnone : ∀ position, ¬(stream.isOpen = true ∧ stream.direction = .playback ∧
        (position + 1) * frameBytes stream ≤ stream.ring.count) := by
      rintro position ⟨hopen, hplayback, hcount⟩
      refine hframe ⟨hopen, hplayback, le_trans ?_ hcount⟩
      exact Nat.le_mul_of_pos_left _ (Nat.succ_pos position)
    have hsilent : contribution position stream = (0, 0) := if_neg (hnone position)
    rw [contribution, contribution, if_neg (hnone (position + 1))]
    rcases hafter with hsame | hunderrun
    · rw [hsame]
      exact hsilent
    · rw [hunderrun]
      exact hsilent

/-- The sum of what the streams add to one side of a frame. -/
def mixOf (side : Int × Int → Int) (position : Nat) (streams : Streams) : Int :=
  ((List.finRange streamCapacity).map fun index => side (contribution position (streams index))).sum

theorem AllSound.renderFrame (h : AllSound streams) (frameIndex : Nat) : AllSound (renderFrame frameIndex streams).2 := by
  rw [renderFrame_eq]
  exact fun index => Sound.renderStream (h index) frameIndex

theorem AllSound.renderFrames (h : AllSound streams) (frameIndex frames : Nat) : AllSound (renderFrames frameIndex frames streams).2 := by
  induction frames generalizing frameIndex streams with
  | zero => exact h
  | succ frames ih =>
    have hframe := h.renderFrame frameIndex
    rw [Audio.renderFrames]
    generalize Audio.renderFrame frameIndex streams = result at hframe ⊢
    obtain ⟨⟨left, right⟩, streams'⟩ := result
    exact ih hframe (frameIndex + 1)

/-- The frames that are rendered are the saturated sums of what the streams add. -/
theorem renderFrames_spec (h : AllSound streams) (frameIndex : Nat) {frames position : Nat} (hposition : position < frames) :
    (renderFrames frameIndex frames streams).1[position]? =
      some (saturate (mixOf Prod.fst position streams), saturate (mixOf Prod.snd position streams)) := by
  induction frames generalizing frameIndex position streams with
  | zero => exact absurd hposition (Nat.not_lt_zero _)
  | succ frames ih =>
    have hframe := renderFrame_eq frameIndex streams
    have hsound := h.renderFrame frameIndex
    rw [renderFrames]
    rw [hframe] at hsound ⊢
    cases position with
    | zero =>
      have hfirst : ∀ side : Int × Int → Int,
          ((List.finRange streamCapacity).map fun index => side (renderStream frameIndex (streams index)).1) =
            (List.finRange streamCapacity).map fun index => side (contribution 0 (streams index)) :=
        fun side => List.map_congr_left fun index _ => by rw [renderStream_fst (h index)]
      dsimp only
      rw [List.getElem?_cons_zero, hfirst Prod.fst, hfirst Prod.snd]
      rfl
    | succ position =>
      have hlater : ∀ side, mixOf side position (fun index => (renderStream frameIndex (streams index)).2) =
          mixOf side (position + 1) streams :=
        fun side => congrArg List.sum (List.map_congr_left fun index _ => by rw [contribution_renderStream (h index)])
      dsimp only at hsound ⊢
      rw [List.getElem?_cons_succ, ih hsound (frameIndex + 1) (by omega), hlater, hlater]

/-! ## The sums fit into 32 bits -/

theorem applyVolume_bounds (sample : Int16) {volume : Nat} (h : volume ≤ volumeMax) :
    -32768 ≤ applyVolume sample volume ∧ applyVolume sample volume ≤ 32767 := by
  have hlow : -32768 ≤ sample.toInt := sample.le_toInt
  have hhigh : sample.toInt ≤ 32767 := Int.le_of_lt_add_one sample.toInt_lt
  unfold applyVolume volumeMax at *
  split
  · exact ⟨hlow, hhigh⟩
  · have hvolume : (0 : Int) ≤ volume ∧ (volume : Int) ≤ 1000 := ⟨Int.natCast_nonneg _, by omega⟩
    have hbelow := Int.mul_le_mul_of_nonneg_right hlow hvolume.1
    have habove := Int.mul_le_mul_of_nonneg_right hhigh hvolume.1
    generalize sample.toInt * volume = product at hbelow habove ⊢
    show -32768 ≤ product.tdiv 1000 ∧ product.tdiv 1000 ≤ 32767
    rw [Int.tdiv_eq_ediv, show Int.sign 1000 = 1 from rfl]
    split <;> omega

theorem contribution_bounds (h : stream.isOpen = true → Sound stream) (position : Nat) :
    (-32768 ≤ (contribution position stream).1 ∧ (contribution position stream).1 ≤ 32767) ∧
    (-32768 ≤ (contribution position stream).2 ∧ (contribution position stream).2 ≤ 32767) := by
  unfold contribution
  split
  · rename_i hframe
    have hvolume := (h hframe.1).volume_le
    refine ⟨applyVolume_bounds _ hvolume, ?_⟩
    unfold mixedFrame
    dsimp only
    split
    · exact applyVolume_bounds _ hvolume
    · exact applyVolume_bounds _ hvolume
  · exact ⟨⟨by decide, by decide⟩, by decide, by decide⟩

theorem sum_bounds {values : List Int} (h : ∀ value ∈ values, -32768 ≤ value ∧ value ≤ 32767) :
    -32768 * (values.length : Int) ≤ values.sum ∧ values.sum ≤ 32767 * (values.length : Int) := by
  induction values with
  | nil => exact ⟨by decide, by decide⟩
  | cons value values ih =>
    obtain ⟨hlow, hhigh⟩ := h value List.mem_cons_self
    obtain ⟨hbelow, habove⟩ := ih fun other hmem => h other (List.mem_cons_of_mem _ hmem)
    rw [List.sum_cons, List.length_cons]
    omega

/-- No sum leaves the range of `int32_t`. -/
theorem mixOf_bounds (h : AllSound streams) (position : Nat) :
    (-262144 ≤ mixOf Prod.fst position streams ∧ mixOf Prod.fst position streams ≤ 262136) ∧
    (-262144 ≤ mixOf Prod.snd position streams ∧ mixOf Prod.snd position streams ≤ 262136) := by
  have hbounds : ∀ side : Int × Int → Int,
      (∀ index, -32768 ≤ side (contribution position (streams index)) ∧ side (contribution position (streams index)) ≤ 32767) →
      -262144 ≤ mixOf side position streams ∧ mixOf side position streams ≤ 262136 := by
    intro side hside
    have hall : ∀ value ∈ (List.finRange streamCapacity).map fun index => side (contribution position (streams index)),
        -32768 ≤ value ∧ value ≤ 32767 := by
      intro value hmem
      obtain ⟨index, -, rfl⟩ := List.mem_map.1 hmem
      exact hside index
    have hsum := sum_bounds hall
    rw [List.length_map, List.length_finRange] at hsum
    exact hsum
  exact ⟨hbounds _ fun index => (contribution_bounds (h index) position).1,
    hbounds _ fun index => (contribution_bounds (h index) position).2⟩

/-! ## Runs -/

theorem AllSound.update (h : AllSound streams) {index : Fin streamCapacity} (hstream : stream.isOpen = true → Sound stream) :
    AllSound (Function.update streams index stream) := by
  intro other hopen
  by_cases heq : other = index
  · subst heq
    rw [Function.update_self] at hopen ⊢
    exact hstream hopen
  · rw [Function.update_of_ne heq] at hopen ⊢
    exact h other hopen

theorem AllSound.eachStream (h : AllSound streams) {change : Stream → Stream}
    (hchange : ∀ stream : Stream, (stream.isOpen = true → Sound stream) → (change stream).isOpen = true → Sound (change stream)) :
    AllSound (eachStream change streams) := by
  rw [eachStream_apply]
  exact fun index => hchange _ (h index)

theorem AllSound.open (h : AllSound streams) (info : PlatformInfo) (owner : Nat) (config : Config) (memory : Nat → UInt8) :
    AllSound (audioServiceOpen info owner config memory streams).2 := by
  unfold audioServiceOpen
  split
  · exact h
  · rename_i hvalid
    have hconfig : configValid info config = true := Bool.eq_true_of_not_eq_false fun hbad => hvalid (Or.inr hbad)
    split
    · exact h
    · exact h.update fun _ => sound_openedStream hconfig _ _ _ _

theorem AllSound.close (h : AllSound streams) (owner : Nat) (handle : Int) : AllSound (audioServiceClose owner handle streams).2 := by
  unfold audioServiceClose
  split
  · exact h
  · exact h.update fun hopen => absurd hopen Bool.false_ne_true

theorem AllSound.flush (h : AllSound streams) (owner : Nat) (handle : Int) : AllSound (audioServiceFlush owner handle streams).2 := by
  unfold audioServiceFlush
  split
  · exact h
  · rename_i index howned
    dsimp only
    split
    · exact h
    · rename_i hplayback
      exact h.update fun _ => (h index (isOpen_of_ownedStream howned)).flush (not_not.1 hplayback)

theorem AllSound.write (h : AllSound streams) (owner : Nat) (handle : Int) (pcm : Option (List UInt8)) :
    AllSound (audioServiceWrite owner handle pcm streams).2 := by
  unfold audioServiceWrite
  split
  · exact h
  · split
    · exact h
    · split
      · exact h
      · rename_i pcm _ _ index howned
        have hsound := h index (isOpen_of_ownedStream howned)
        have hfull := hsound.fits.count_le
        dsimp only
        generalize hcopied : (if ringCapacity - (streams index).ring.count -
          (ringCapacity - (streams index).ring.count) % frameBytes (streams index) > pcm.length then pcm.length
          else ringCapacity - (streams index).ring.count -
            (ringCapacity - (streams index).ring.count) % frameBytes (streams index)) = copied
        have hle : copied ≤ pcm.length ∧ (streams index).ring.count + copied ≤ ringCapacity := by
          generalize (ringCapacity - (streams index).ring.count) % frameBytes (streams index) = rest at hcopied
          split at hcopied <;> omega
        have hframe : pcm.length % frameBytes (streams index) = 0 → frameBytes (streams index) ∣ copied := by
          intro hwhole
          split at hcopied
          · exact hcopied ▸ Nat.dvd_of_mod_eq_zero hwhole
          · exact hcopied ▸ Nat.dvd_sub_mod _
        have hlength : (pcm.take copied).length = copied := by
          rw [List.length_take]
          exact Nat.min_eq_left hle.1
        split
        · exact h
        · rename_i hplayback
          split
          · exact h
          · split
            · exact h
            · rename_i hwhole
              split
              · exact h
              · refine h.update fun _ => hsound.write (not_not.1 hplayback) ?_ ?_
                · rw [hlength]
                  exact hle.2
                · rw [hlength]
                  exact hframe (not_not.1 hwhole)

theorem AllSound.read (h : AllSound streams) (owner : Nat) (handle : Int) (buffer : Bool) (capacity : Nat) :
    AllSound (audioServiceRead owner handle buffer capacity streams).2 := by
  unfold audioServiceRead
  split
  · exact h
  · split
    · exact h
    · rename_i index howned
      have hsound := h index (isOpen_of_ownedStream howned)
      dsimp only
      generalize havailable : (if (streams index).ring.count < capacity then (streams index).ring.count else capacity) = available
      have hle : available ≤ (streams index).ring.count := by
        split at havailable <;> omega
      split
      · exact h
      · rename_i hcapture
        split
        · exact h
        · split
          · exact h
          · split
            · exact h
            · refine h.update fun _ => hsound.read (not_not.1 hcapture) ?_ (Nat.dvd_sub_mod _)
              exact (Nat.sub_le _ _).trans hle

theorem AllSound.setVolume (h : AllSound streams) (owner : Nat) (handle : Int) (volume : Nat) :
    AllSound (audioServiceSetVolume owner handle volume streams).2 := by
  unfold audioServiceSetVolume
  split
  · exact h
  · rename_i hvolume
    split
    · exact h
    · rename_i index howned
      dsimp only
      split
      · exact h
      · exact h.update fun _ => (h index (isOpen_of_ownedStream howned)).congr rfl rfl (Nat.le_of_not_lt hvolume) rfl rfl rfl

theorem AllSound.step (h : AllSound streams) (info : PlatformInfo) (operation : Operation) : AllSound (step info streams operation) := by
  cases operation with
  | «open» owner config memory => exact h.open info owner config memory
  | close owner handle => exact h.close owner handle
  | flush owner handle => exact h.flush owner handle
  | write owner handle pcm => exact h.write owner handle pcm
  | read owner handle buffer capacity => exact h.read owner handle buffer capacity
  | setVolume owner handle volume => exact h.setVolume owner handle volume
  | render frames => exact h.renderFrames 0 frames
  | capture samples frames channels =>
    show AllSound (audioServiceCapture samples frames channels streams)
    unfold audioServiceCapture
    split
    · exact h
    · split
      · exact h
      · exact h.eachStream fun stream hstream => Sound.captureStream hstream _ frames channels
  | error =>
    show AllSound (audioServiceError streams)
    unfold audioServiceError
    refine h.eachStream fun stream hstream => ?_
    split
    · rename_i hopen
      exact fun _ => (hstream hopen).congr rfl rfl (hstream hopen).volume_le rfl rfl rfl
    · exact hstream

/-- Every state that a run reaches has sound streams. -/
theorem allSound_run (info : PlatformInfo) (operations : List Operation) : AllSound (operations.foldl (step info) noStreams) :=
  foldl_invariant AllSound (fun _ operation h => h.step info operation) operations fun _ hopen => absurd hopen Bool.false_ne_true

end Audio
end TabOS
