import TabOS.Camera.Basic

/-!
# The account of a stream

Every operation moves a stream in one of a few ways until it faults or hangs up: a frame is stored in a slot that is free or ready, a
submission is dropped, a ready frame is leased, or a lease is returned. Each of these keeps the account of the frames.
-/

namespace TabOS
namespace Camera

open Library

/-! ## What a history says -/

/-- The sequence numbers of the frames that were acquired, the latest first. -/
def sequences : List FrameEvent → List Nat
  | [] => []
  | .acquired frame _ :: history => frame.sequence :: sequences history
  | .submitted :: history => sequences history
  | .released _ :: history => sequences history

/-- The number of submissions that matched. -/
def submissions : List FrameEvent → Nat
  | [] => 0
  | .submitted :: history => submissions history + 1
  | .acquired _ _ :: history => submissions history
  | .released _ :: history => submissions history

/-- The leases that were given out and returned, the latest first. -/
def leaseUses : List FrameEvent → List (Use Nat)
  | [] => []
  | .acquired frame _ :: history => .given frame.lease :: leaseUses history
  | .released lease :: history => .returned lease :: leaseUses history
  | .submitted :: history => leaseUses history

/-- The slots with a frame that is ready and not acquired. -/
def readyFrames (stream : CameraStream) : Finset (Fin cameraFrameCapacity) :=
  Finset.univ.filter fun index => (stream.frames index).ready = true

/-- Every submission that matched was acquired, is ready or was dropped; the drops are counted in 32 bits. -/
def Conserved (stream : CameraStream) : Prop :=
  ∃ dropped, submissions stream.history = (sequences stream.history).length + (readyFrames stream).card + dropped ∧
    stream.drops = dropped % (uint32Max + 1)

/-- Ready frames are not leased and newer than every acquired one, the acquired ones came in order, every submission is
accounted for, and the outstanding leases are those of the leased slots, whose data is what was acquired. -/
structure Owned (stream : CameraStream) : Prop where
  unleased : ∀ i, (stream.frames i).ready = true → (stream.frames i).leased = false
  sequence_le_max : stream.sequence ≤ uint32Max
  sequence_le : ∀ i, (stream.frames i).ready = true → (stream.frames i).metadata.sequence ≤ stream.sequence
  distinct : ∀ i j, (stream.frames i).ready = true → (stream.frames j).ready = true →
    (stream.frames i).metadata.sequence = (stream.frames j).metadata.sequence → i = j
  later : ∀ i, (stream.frames i).ready = true → ∀ n ∈ sequences stream.history, n < (stream.frames i).metadata.sequence
  increasing : (sequences stream.history).Pairwise (· > ·)
  acquired_le : ∀ n ∈ sequences stream.history, n ≤ stream.sequence
  conserved : Conserved stream
  generation_pos : ∀ i, (stream.frames i).leased = true → 0 < (stream.frames i).generation
  leases : ∀ lease, Outstanding lease (leaseUses stream.history) ↔
    ∃ i, (stream.frames i).leased = true ∧ lease = leaseHandle i (stream.frames i).generation
  snapshots : ∀ frame data, .acquired frame data ∈ stream.history →
    ∃ i g, frame.lease = leaseHandle i g ∧ g ≤ (stream.frames i).generation ∧
      ((stream.frames i).leased = true → g = (stream.frames i).generation → (stream.frames i).data = data)

/-- The account is one of the frames, the counters and the history. -/
theorem Owned.congr {stream t : CameraStream} (h : Owned stream) (hframes : t.frames = stream.frames)
    (hsequence : t.sequence = stream.sequence) (hdrops : t.drops = stream.drops) (hhistory : t.history = stream.history) : Owned t := by
  obtain ⟨owner, frames, config, generation, sequence, drops, isOpen, faulted, hangup, history⟩ := t
  cases hframes
  cases hsequence
  cases hdrops
  cases hhistory
  exact ⟨h.unleased, h.sequence_le_max, h.sequence_le, h.distinct, h.later, h.increasing, h.acquired_le, h.conserved, h.generation_pos,
    h.leases, h.snapshots⟩

theorem owned_opened (owner : Owner) (config : CameraConfig) (generation capacity : Nat) :
    Owned (.opened owner config generation capacity) where
  unleased := fun _ h => by cases h
  sequence_le_max := Nat.zero_le _
  sequence_le := fun _ h => by cases h
  distinct := fun _ _ h => by cases h
  later := fun _ h => by cases h
  increasing := List.Pairwise.nil
  acquired_le := fun _ hmem => absurd hmem List.not_mem_nil
  conserved := by
    have hready : readyFrames (.opened owner config generation capacity) = ∅ :=
      Finset.filter_false_of_mem fun _ _ h => by cases h
    refine ⟨0, ?_, rfl⟩
    rw [hready]
    rfl
  generation_pos := fun _ h => by cases h
  leases := fun lease => iff_of_false (outstanding_nil lease) fun ⟨_, h, _⟩ => by cases h
  snapshots := fun _ _ hmem => absurd hmem List.not_mem_nil

/-! ## Moves -/

variable {stream : CameraStream} {submission : Submission} {data : List UInt8}

theorem frames_setFrame_self (stream : CameraStream) (index : Fin cameraFrameCapacity) (slot : FrameSlot) :
    (stream.setFrame index slot).frames index = slot := Function.update_self _ _ _

theorem frames_setFrame_of_ne {index other : Fin cameraFrameCapacity} (hne : other ≠ index) (stream : CameraStream) (slot : FrameSlot) :
    (stream.setFrame index slot).frames other = stream.frames other := Function.update_of_ne hne _ _

theorem leaseHandle_inj {i j : Fin cameraFrameCapacity} {g g' : Nat} : leaseHandle i g = leaseHandle j g' ↔ i = j ∧ g = g' := by
  have hi : i.val < 3 := i.isLt
  have hj : j.val < 3 := j.isLt
  constructor
  · intro h
    simp only [leaseHandle, leaseIndexLimit] at h
    exact ⟨Fin.ext (by omega), by omega⟩
  · rintro ⟨rfl, rfl⟩
    rfl

/-- A submission that matches is seen before anything is done about it. -/
def sawSubmission (stream : CameraStream) : CameraStream := { stream with history := .submitted :: stream.history }

/-- A dropped submission. -/
theorem Owned.dropped (h : Owned stream) : Owned (dropFrame (sawSubmission stream)) where
  unleased := h.unleased
  sequence_le_max := h.sequence_le_max
  sequence_le := h.sequence_le
  distinct := h.distinct
  later := h.later
  increasing := h.increasing
  acquired_le := h.acquired_le
  conserved := by
    obtain ⟨dropped, hconserved, hdrops⟩ := h.conserved
    refine ⟨dropped + 1, ?_, ?_⟩
    · show submissions stream.history + 1 = (sequences stream.history).length + (readyFrames stream).card + (dropped + 1)
      omega
    · show (stream.drops + 1) % (uint32Max + 1) = (dropped + 1) % (uint32Max + 1)
      rw [hdrops, Nat.mod_add_mod]
  generation_pos := h.generation_pos
  leases := h.leases
  snapshots := by
    intro frame data hmem
    exact h.snapshots frame data ((List.mem_cons.1 hmem).resolve_left fun heq => by cases heq)

variable {t : CameraStream} {index : Fin cameraFrameCapacity}

/-- A frame stored in a slot that is not leased, and the other slots as they were. -/
structure Stored (stream : CameraStream) (index : Fin cameraFrameCapacity) (t : CameraStream) : Prop where
  others : ∀ other, other ≠ index → t.frames other = stream.frames other
  unleased : (stream.frames index).leased = false
  ready : (t.frames index).ready = true
  leased : (t.frames index).leased = false
  generation : (t.frames index).generation = (stream.frames index).generation
  newest : (t.frames index).metadata.sequence = stream.sequence + 1
  sequence : t.sequence = stream.sequence + 1
  history : t.history = .submitted :: stream.history

theorem Stored.readyFrames_eq (h : Stored stream index t) : readyFrames t = insert index (readyFrames stream) := by
  ext other
  simp only [readyFrames, Finset.mem_insert, Finset.mem_filter, Finset.mem_univ, true_and]
  rcases eq_or_ne other index with rfl | hother
  · exact iff_of_true h.ready (Or.inl rfl)
  · rw [h.others other hother, or_iff_right hother]

theorem Owned.stored (h : Owned stream) (ht : Stored stream index t) (hsequence : t.sequence ≤ uint32Max) (hconserved : Conserved t) :
    Owned t where
  unleased := by
    intro i hready
    rcases eq_or_ne i index with rfl | hi
    · exact ht.leased
    · rw [ht.others i hi] at hready ⊢
      exact h.unleased i hready
  sequence_le_max := hsequence
  sequence_le := by
    intro i hready
    rw [ht.sequence]
    rcases eq_or_ne i index with rfl | hi
    · exact le_of_eq ht.newest
    · rw [ht.others i hi] at hready ⊢
      exact Nat.le_succ_of_le (h.sequence_le i hready)
  distinct := by
    intro i j hready hready' heq
    rcases eq_or_ne i index with rfl | hi
    · rcases eq_or_ne j i with rfl | hj
      · rfl
      · rw [ht.others j hj] at hready' heq
        have hle := h.sequence_le j hready'
        rw [ht.newest] at heq
        omega
    · rw [ht.others i hi] at hready heq
      rcases eq_or_ne j index with rfl | hj
      · have hle := h.sequence_le i hready
        rw [ht.newest] at heq
        omega
      · rw [ht.others j hj] at hready' heq
        exact h.distinct i j hready hready' heq
  later := by
    intro i hready n hmem
    rw [ht.history] at hmem
    rcases eq_or_ne i index with rfl | hi
    · rw [ht.newest]
      exact Nat.lt_succ_of_le (h.acquired_le n hmem)
    · rw [ht.others i hi] at hready ⊢
      exact h.later i hready n hmem
  increasing := by
    rw [ht.history]
    exact h.increasing
  acquired_le := by
    intro n hmem
    rw [ht.history] at hmem
    rw [ht.sequence]
    exact Nat.le_succ_of_le (h.acquired_le n hmem)
  conserved := hconserved
  generation_pos := by
    intro i hleased
    rcases eq_or_ne i index with rfl | hi
    · rw [ht.leased] at hleased
      cases hleased
    · rw [ht.others i hi] at hleased ⊢
      exact h.generation_pos i hleased
  leases := by
    intro lease
    rw [ht.history]
    refine (h.leases lease).trans (exists_congr fun i => ?_)
    rcases eq_or_ne i index with rfl | hi
    · rw [ht.leased, ht.unleased]
      simp only [Bool.false_eq_true, false_and]
    · rw [ht.others i hi]
  snapshots := by
    intro frame data hmem
    rw [ht.history] at hmem
    obtain ⟨i, g, hlease, hle, hdata⟩ := h.snapshots frame data ((List.mem_cons.1 hmem).resolve_left fun heq => by cases heq)
    refine ⟨i, g, hlease, ?_⟩
    rcases eq_or_ne i index with rfl | hi
    · rw [ht.generation, ht.leased]
      exact ⟨hle, fun hleased => by cases hleased⟩
    · rw [ht.others i hi]
      exact ⟨hle, hdata⟩

/-- A ready frame that is the oldest one is leased. -/
theorem Owned.acquired (h : Owned stream) (hready : (stream.frames index).ready = true)
    (holdest : ∀ i, (stream.frames i).ready = true → (stream.frames index).metadata.sequence ≤ (stream.frames i).metadata.sequence)
    (hgeneration : nextGeneration (stream.frames index).generation leaseGenerationMax = (stream.frames index).generation + 1) :
    Owned (acquireFrame stream index) := by
  have hself : (acquireFrame stream index).frames index =
      { stream.frames index with
        ready := false
        leased := true
        generation := (stream.frames index).generation + 1
        metadata := acquiredFrame stream index } := by
    rw [← hgeneration]
    exact frames_setFrame_self _ _ _
  have hothers : ∀ other, other ≠ index → (acquireFrame stream index).frames other = stream.frames other :=
    fun other hother => frames_setFrame_of_ne hother _ _
  have hlease : (acquiredFrame stream index).lease = leaseHandle index ((stream.frames index).generation + 1) := by
    rw [← hgeneration]
    rfl
  have hunleased := h.unleased index hready
  have hreadyFrames : readyFrames (acquireFrame stream index) = (readyFrames stream).erase index := by
    ext other
    simp only [readyFrames, Finset.mem_erase, Finset.mem_filter, Finset.mem_univ, true_and]
    rcases eq_or_ne other index with rfl | hother
    · rw [hself]
      simp only [Bool.false_eq_true, ne_eq, not_true_eq_false, false_and]
    · rw [hothers other hother]
      exact (and_iff_right hother).symm
  have hmemReady : index ∈ readyFrames stream := Finset.mem_filter.2 ⟨Finset.mem_univ _, hready⟩
  have hsequences : sequences (acquireFrame stream index).history =
      (stream.frames index).metadata.sequence :: sequences stream.history := rfl
  have hstill : ∀ i, ((acquireFrame stream index).frames i).ready = true →
      i ≠ index ∧ (acquireFrame stream index).frames i = stream.frames i := by
    intro i hi
    rcases eq_or_ne i index with rfl | hne
    · rw [hself] at hi
      cases hi
    · exact ⟨hne, hothers i hne⟩
  refine ⟨fun i hi => ?_, h.sequence_le_max, fun i hi => ?_, fun i j hi hj heq => ?_, fun i hi n hmem => ?_, ?_,
    fun n hmem => ?_, ?_, fun i hi => ?_, fun lease => ?_, fun frame data hmem => ?_⟩
  · obtain ⟨-, hframe⟩ := hstill i hi
    rw [hframe] at hi ⊢
    exact h.unleased i hi
  · obtain ⟨-, hframe⟩ := hstill i hi
    rw [hframe] at hi ⊢
    exact h.sequence_le i hi
  · obtain ⟨-, hframe⟩ := hstill i hi
    obtain ⟨-, hframe'⟩ := hstill j hj
    rw [hframe] at hi heq
    rw [hframe'] at hj heq
    exact h.distinct i j hi hj heq
  · obtain ⟨hne, hframe⟩ := hstill i hi
    rw [hframe] at hi ⊢
    rw [hsequences] at hmem
    rcases List.mem_cons.1 hmem with rfl | hmem
    · exact lt_of_le_of_ne (holdest i hi) fun heq => hne (h.distinct index i hready hi heq).symm
    · exact h.later i hi n hmem
  · rw [hsequences, List.pairwise_cons]
    exact ⟨fun n hmem => h.later index hready n hmem, h.increasing⟩
  · rw [hsequences] at hmem
    rcases List.mem_cons.1 hmem with rfl | hmem
    · exact h.sequence_le index hready
    · exact h.acquired_le n hmem
  · have hcard := Finset.card_erase_of_mem hmemReady
    have hpos : 0 < (readyFrames stream).card := Finset.card_pos.2 ⟨index, hmemReady⟩
    obtain ⟨dropped, hconserved, hdrops⟩ := h.conserved
    refine ⟨dropped, ?_, hdrops⟩
    rw [hsequences, hreadyFrames, hcard, List.length_cons]
    show submissions stream.history = _
    omega
  · rcases eq_or_ne i index with rfl | hne
    · rw [hself]
      exact Nat.succ_pos _
    · rw [hothers i hne] at hi ⊢
      exact h.generation_pos i hi
  · show Outstanding lease (.given (acquiredFrame stream index).lease :: leaseUses stream.history) ↔ _
    rw [outstanding_given, hlease, h.leases lease]
    constructor
    · rintro (rfl | ⟨i, hleased, rfl⟩)
      · exact ⟨index, by rw [hself], by rw [hself]⟩
      · have hne : i ≠ index := by
          rintro rfl
          rw [hunleased] at hleased
          cases hleased
        exact ⟨i, by rwa [hothers i hne], by rw [hothers i hne]⟩
    · rintro ⟨i, hleased, rfl⟩
      rcases eq_or_ne i index with rfl | hne
      · rw [hself]
        exact Or.inl rfl
      · rw [hothers i hne] at hleased ⊢
        exact Or.inr ⟨i, hleased, rfl⟩
  · rcases List.mem_cons.1 hmem with heq | hmem
    · obtain ⟨rfl, rfl⟩ := FrameEvent.acquired.inj heq
      refine ⟨index, (stream.frames index).generation + 1, hlease, ?_⟩
      rw [hself]
      exact ⟨le_refl _, fun _ _ => rfl⟩
    · obtain ⟨i, g, heq, hle, hdata⟩ := h.snapshots frame data hmem
      refine ⟨i, g, heq, ?_⟩
      rcases eq_or_ne i index with rfl | hne
      · rw [hself]
        exact ⟨Nat.le_succ_of_le hle, fun _ hg => absurd hg (Nat.ne_of_lt (Nat.lt_succ_of_le hle))⟩
      · rw [hothers i hne]
        exact ⟨hle, hdata⟩

/-- A leased slot is released. -/
theorem Owned.released (h : Owned stream) (hleased : (stream.frames index).leased = true) :
    Owned (releaseFrame stream (leaseHandle index (stream.frames index).generation) index) := by
  have hself : (releaseFrame stream (leaseHandle index (stream.frames index).generation) index).frames index =
      { stream.frames index with leased := false } := frames_setFrame_self _ _ _
  have hothers : ∀ other, other ≠ index →
      (releaseFrame stream (leaseHandle index (stream.frames index).generation) index).frames other = stream.frames other :=
    fun other hother => frames_setFrame_of_ne hother _ _
  generalize htarget : releaseFrame stream (leaseHandle index (stream.frames index).generation) index = t at hself hothers ⊢
  have hhistory : t.history = .released (leaseHandle index (stream.frames index).generation) :: stream.history := htarget ▸ rfl
  have hsequence : t.sequence = stream.sequence := htarget ▸ rfl
  have hdrops : t.drops = stream.drops := htarget ▸ rfl
  have hready : ∀ i, (t.frames i).ready = (stream.frames i).ready ∧
      (t.frames i).metadata = (stream.frames i).metadata ∧ (t.frames i).generation = (stream.frames i).generation ∧
        (t.frames i).data = (stream.frames i).data := by
    intro i
    rcases eq_or_ne i index with rfl | hne
    · rw [hself]
      exact ⟨rfl, rfl, rfl, rfl⟩
    · rw [hothers i hne]
      exact ⟨rfl, rfl, rfl, rfl⟩
  have hunleased : ∀ i, (t.frames i).leased = true ↔ i ≠ index ∧ (stream.frames i).leased = true := by
    intro i
    rcases eq_or_ne i index with rfl | hne
    · rw [hself]
      simp only [Bool.false_eq_true, ne_eq, not_true_eq_false, false_and]
    · rw [hothers i hne]
      exact (and_iff_right hne).symm
  have hsequences : sequences t.history = sequences stream.history := by rw [hhistory]; rfl
  have hreadyFrames : readyFrames t = readyFrames stream := Finset.filter_congr fun i _ => by rw [(hready i).1]
  refine ⟨fun i hi => ?_, ?_, fun i hi => ?_, fun i j hi hj heq => ?_, fun i hi n hmem => ?_, ?_, fun n hmem => ?_, ?_,
    fun i hi => ?_, fun lease => ?_, fun frame data hmem => ?_⟩
  · rw [(hready i).1] at hi
    rw [Bool.eq_false_iff]
    intro hleased'
    rw [hunleased, h.unleased i hi] at hleased'
    cases hleased'.2
  · rw [hsequence]
    exact h.sequence_le_max
  · rw [(hready i).1] at hi
    rw [hsequence, (hready i).2.1]
    exact h.sequence_le i hi
  · rw [(hready i).1] at hi
    rw [(hready j).1] at hj
    rw [(hready i).2.1, (hready j).2.1] at heq
    exact h.distinct i j hi hj heq
  · rw [(hready i).1] at hi
    rw [hsequences] at hmem
    rw [(hready i).2.1]
    exact h.later i hi n hmem
  · rw [hsequences]
    exact h.increasing
  · rw [hsequences] at hmem
    rw [hsequence]
    exact h.acquired_le n hmem
  · rw [Conserved, hsequences, hreadyFrames, hdrops, hhistory]
    exact h.conserved
  · rw [(hready i).2.2.1]
    exact h.generation_pos i ((hunleased i).1 hi).2
  · rw [hhistory]
    show Outstanding lease (.returned _ :: leaseUses stream.history) ↔ _
    rw [outstanding_returned, h.leases lease]
    constructor
    · rintro ⟨hne, i, hi, rfl⟩
      have hindex : i ≠ index := fun heq => hne (by rw [heq])
      exact ⟨i, (hunleased i).2 ⟨hindex, hi⟩, by rw [(hready i).2.2.1]⟩
    · rintro ⟨i, hi, rfl⟩
      obtain ⟨hindex, hi'⟩ := (hunleased i).1 hi
      rw [(hready i).2.2.1]
      exact ⟨fun heq => hindex (leaseHandle_inj.1 heq).1, i, hi', rfl⟩
  · rw [hhistory] at hmem
    obtain ⟨i, g, heq, hle, hdata⟩ := h.snapshots frame data ((List.mem_cons.1 hmem).resolve_left fun heq => by cases heq)
    refine ⟨i, g, heq, ?_⟩
    rw [(hready i).2.2.1, (hready i).2.2.2]
    exact ⟨hle, fun hi hg => hdata ((hunleased i).1 hi).2 hg⟩

end Camera
end TabOS
