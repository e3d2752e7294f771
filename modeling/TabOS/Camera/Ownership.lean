import TabOS.Camera.Account
import Mathlib.Data.Fintype.Defs

/-!
# Who owns a frame

Every operation on an open stream is one of the moves that keep its account, as long as the stream neither faults nor hangs up and its
counters do not wrap. So the account holds in every run, and it says who owns each frame.
-/

namespace TabOS
namespace Camera

open Library

variable {stream t : CameraStream} {submission : Submission} {data : List UInt8} {index : Fin cameraFrameCapacity}

/-! ## Submissions -/

/-- A generation that has not wrapped is the next one. -/
theorem nextGeneration_eq_succ {generation : Nat} (h : generation ≤ nextGeneration generation leaseGenerationMax) :
    nextGeneration generation leaseGenerationMax = generation + 1 := by
  unfold nextGeneration at h ⊢
  split at h
  · next hwrap =>
    exfalso
    simp only [leaseGenerationMax, uint32Max, leaseIndexLimit] at hwrap
    omega
  · next hwrap => exact if_neg hwrap

/-- A sequence number that has not wrapped is the next one. -/
theorem succ_mod_eq {n : Nat} (hmax : n ≤ uint32Max) (h : n ≤ (n + 1) % (uint32Max + 1)) : (n + 1) % (uint32Max + 1) = n + 1 := by
  simp only [uint32Max] at hmax h ⊢
  omega

/-- What a submission that is stored does to the account. -/
theorem stored_storeFrame {base : CameraStream} (hframes : base.frames = stream.frames) (hsequence : base.sequence = stream.sequence)
    (hhistory : base.history = .submitted :: stream.history) (hunleased : (stream.frames index).leased = false)
    (hnext : (stream.sequence + 1) % (uint32Max + 1) = stream.sequence + 1) :
    Stored stream index (storeFrame base index submission data) where
  others := fun other hother => (frames_setFrame_of_ne hother base _).trans (congrFun hframes other)
  unleased := hunleased
  ready := congrArg FrameSlot.ready (frames_setFrame_self base index _)
  leased := by
    refine (congrArg FrameSlot.leased (frames_setFrame_self base index _)).trans ?_
    rw [hframes]
    exact hunleased
  generation := by
    refine (congrArg FrameSlot.generation (frames_setFrame_self base index _)).trans ?_
    rw [hframes]
  newest := by
    refine (congrArg (fun slot => slot.metadata.sequence) (frames_setFrame_self base index _)).trans ?_
    rw [hsequence]
    exact hnext
  sequence := by
    show (base.sequence + 1) % (uint32Max + 1) = _
    rw [hsequence]
    exact hnext
  history := hhistory

theorem freeFrame_eq_some (h : freeFrame stream = some index) :
    (stream.frames index).leased = false ∧ (stream.frames index).ready = false := by
  have hfree := List.find?_some h
  simpa using hfree

theorem of_freeFrame_eq_none (h : freeFrame stream = none) (index : Fin cameraFrameCapacity)
    (hunleased : (stream.frames index).leased = false) : (stream.frames index).ready = true := by
  have hbusy := List.find?_eq_none.1 h index (List.mem_finRange index)
  simpa [hunleased] using hbusy

theorem oldestFrame_eq_some {eligible : FrameSlot → Bool} (h : oldestFrame stream eligible = some index) :
    eligible (stream.frames index) = true ∧
      ∀ i, eligible (stream.frames i) = true → (stream.frames index).metadata.sequence ≤ (stream.frames i).metadata.sequence := by
  obtain ⟨-, heligible, -, hleast⟩ := leastBelow_eq_some h
  exact ⟨heligible, fun i hi => hleast i (List.mem_finRange i) hi⟩

/-- A frame that does not fault the stream is stored. -/
theorem fillFrame_eq (h : (fillFrame stream index submission data).faulted = false) :
    fillFrame stream index submission data = storeFrame stream index submission data := by
  unfold fillFrame at h ⊢
  split at h
  · cases h
  · next hfits => exact if_neg hfits

/-- A submission goes to the free frame. -/
theorem submitTo_of_some (hlive : ¬(stream.isOpen = false ∨ stream.faulted = true ∨ stream.hangup = true))
    (hmatches : ¬(¬Matches stream.config submission ∨ Unpacked submission)) {index : Fin cameraFrameCapacity}
    (hfree : freeFrame stream = some index) :
    submitTo submission data stream = fillFrame (sawSubmission stream) index submission data := by
  have hsaw : freeFrame (sawSubmission stream) = some index := hfree
  unfold sawSubmission at hsaw ⊢
  rw [submitTo, if_neg hlive, if_neg hmatches]
  dsimp only
  rw [hsaw]

/-- Without a free frame, a submission replaces a frame. -/
theorem submitTo_of_none (hlive : ¬(stream.isOpen = false ∨ stream.faulted = true ∨ stream.hangup = true))
    (hmatches : ¬(¬Matches stream.config submission ∨ Unpacked submission)) (hfree : freeFrame stream = none) :
    submitTo submission data stream = replaceFrame (sawSubmission stream) submission data := by
  have hsaw : freeFrame (sawSubmission stream) = none := hfree
  unfold sawSubmission at hsaw ⊢
  rw [submitTo, if_neg hlive, if_neg hmatches]
  dsimp only
  rw [hsaw]

/-- A submission keeps the account. -/
theorem Owned.submitTo (h : Owned stream) (hfaulted : (submitTo submission data stream).faulted = false)
    (hsequence : stream.sequence ≤ (submitTo submission data stream).sequence) : Owned (submitTo submission data stream) := by
  by_cases hclosed : stream.isOpen = false ∨ stream.faulted = true ∨ stream.hangup = true
  · rwa [Camera.submitTo, if_pos hclosed]
  by_cases hignored : ¬Matches stream.config submission ∨ Unpacked submission
  · rwa [Camera.submitTo, if_neg hclosed, if_pos hignored]
  obtain ⟨dropped, hconserved, hdrops⟩ := h.conserved
  cases hfree : freeFrame stream with
  | some index =>
    rw [submitTo_of_some hclosed hignored hfree] at hfaulted hsequence ⊢
    rw [fillFrame_eq hfaulted] at hsequence ⊢
    obtain ⟨hunleased, hunready⟩ := freeFrame_eq_some hfree
    have hstored : Stored stream index (storeFrame (sawSubmission stream) index submission data) :=
      stored_storeFrame rfl rfl rfl hunleased (succ_mod_eq h.sequence_le_max hsequence)
    have hmem : index ∉ readyFrames stream := by
      intro hmem
      rw [(Finset.mem_filter.1 hmem).2] at hunready
      cases hunready
    refine h.stored hstored (Nat.le_of_lt_succ (Nat.mod_lt _ (Nat.succ_pos _))) ⟨dropped, ?_, hdrops⟩
    rw [hstored.history, hstored.readyFrames_eq, Finset.card_insert_of_notMem hmem]
    show submissions stream.history + 1 = (sequences stream.history).length + _ + dropped
    omega
  | none =>
    rw [submitTo_of_none hclosed hignored hfree] at hfaulted hsequence ⊢
    unfold replaceFrame at hfaulted hsequence ⊢
    split at hfaulted
    · cases hfaulted
    next hformat =>
    rw [if_neg hformat] at hsequence ⊢
    cases holdest : oldestFrame (sawSubmission stream) fun slot => !slot.leased with
    | none => exact h.dropped
    | some index =>
      simp only [holdest] at hfaulted hsequence ⊢
      rw [fillFrame_eq hfaulted] at hsequence ⊢
      obtain ⟨heligible, -⟩ := oldestFrame_eq_some holdest
      have hunleased : (stream.frames index).leased = false := by simpa [sawSubmission] using heligible
      have hstored : Stored stream index (storeFrame (dropFrame (sawSubmission stream)) index submission data) :=
        stored_storeFrame rfl rfl rfl hunleased (succ_mod_eq h.sequence_le_max hsequence)
      have hmem : index ∈ readyFrames stream :=
        Finset.mem_filter.2 ⟨Finset.mem_univ _, of_freeFrame_eq_none hfree index hunleased⟩
      refine h.stored hstored (Nat.le_of_lt_succ (Nat.mod_lt _ (Nat.succ_pos _))) ⟨dropped + 1, ?_, ?_⟩
      · rw [hstored.history, hstored.readyFrames_eq, Finset.insert_eq_of_mem hmem]
        show submissions stream.history + 1 = (sequences stream.history).length + _ + (dropped + 1)
        omega
      · show (stream.drops + 1) % (uint32Max + 1) = (dropped + 1) % (uint32Max + 1)
        rw [hdrops, Nat.mod_add_mod]

/-! ## Steps -/

variable {s : CameraState} {k : Fin cameraStreamCapacity} {op : Operation} {owner : Option Owner} {handle : Int} {lease : Nat}

/-- A lease is accepted for a leased slot under its generation. -/
theorem leasedFrame_eq_some {frame : Fin cameraFrameCapacity} (h : leasedFrame stream lease = some frame) :
    (stream.frames frame).leased = true ∧ lease = leaseHandle frame (stream.frames frame).generation := by
  unfold leasedFrame at h
  split at h
  · cases h
  split at h
  · next hlt =>
    dsimp only at h
    split at h
    · next haccepted =>
      obtain rfl := Option.some.inj h
      refine ⟨haccepted.1, ?_⟩
      rw [haccepted.2, leaseHandle]
      exact (Nat.div_add_mod' lease leaseIndexLimit).symm
    · cases h
  · cases h

/-- A leased slot accepts its lease. -/
theorem leasedFrame_leaseHandle (hleased : (stream.frames index).leased = true) (hpos : 0 < (stream.frames index).generation) :
    leasedFrame stream (leaseHandle index (stream.frames index).generation) = some index := by
  have hindex : index.val < 3 := index.isLt
  have hmod : leaseHandle index (stream.frames index).generation % leaseIndexLimit = index := by
    simp only [leaseHandle, leaseIndexLimit]
    omega
  have hdiv : leaseHandle index (stream.frames index).generation / leaseIndexLimit = (stream.frames index).generation := by
    simp only [leaseHandle, leaseIndexLimit]
    omega
  have hne : leaseHandle index (stream.frames index).generation ≠ 0 := by
    simp only [leaseHandle, leaseIndexLimit]
    omega
  have hlt : leaseHandle index (stream.frames index).generation % leaseIndexLimit < cameraFrameCapacity := by
    rw [hmod]
    exact index.isLt
  have hfin : (⟨_, hlt⟩ : Fin cameraFrameCapacity) = index := Fin.ext hmod
  rw [leasedFrame, if_neg hne, dif_pos hlt]
  dsimp only
  rw [hfin, hdiv, if_pos ⟨hleased, rfl⟩]

/-- The stream neither faults nor hangs up, and no counter of it wraps. -/
def Steady (k : Fin cameraStreamCapacity) (s : CameraState) (op : Operation) : Prop :=
  (step s op k).faulted = false ∧ (step s op k).hangup = false ∧ (s k).sequence ≤ (step s op k).sequence ∧
    ∀ i, ((s k).frames i).generation ≤ ((step s op k).frames i).generation

instance (k : Fin cameraStreamCapacity) (s : CameraState) (op : Operation) : Decidable (Steady k s op) :=
  decidable_of_iff ((step s op k).faulted = false ∧ (step s op k).hangup = false ∧ (s k).sequence ≤ (step s op k).sequence ∧
    ∀ i, ((s k).frames i).generation ≤ ((step s op k).frames i).generation) Iff.rfl

/-- What an acquisition does to a stream. -/
theorem acquire_cases (s : CameraState) (owner : Option Owner) (handle : Int) (k : Fin cameraStreamCapacity) :
    (cameraServiceAcquire s owner handle).2.2 k = s k ∨
      ∃ frame, readyFrame (s k) = some frame ∧ (cameraServiceAcquire s owner handle).2.2 k = acquireFrame (s k) frame := by
  unfold cameraServiceAcquire
  cases howned : ownedStream s owner handle with
  | none => exact Or.inl rfl
  | some target =>
    cases hready : readyFrame (s target) with
    | none => exact Or.inl (by simp only [hready])
    | some frame =>
      simp only [hready]
      rcases eq_or_ne k target with rfl | hne
      · exact Or.inr ⟨frame, hready, Function.update_self _ _ _⟩
      · exact Or.inl (Function.update_of_ne hne _ _)

/-- What a release does to a stream. -/
theorem release_cases (s : CameraState) (owner : Option Owner) (handle : Int) (lease : Nat) (k : Fin cameraStreamCapacity) :
    (cameraServiceRelease s owner handle lease).2 k = s k ∨
      ∃ frame, leasedFrame (s k) lease = some frame ∧
        (cameraServiceRelease s owner handle lease).2 k = releaseFrame (s k) lease frame := by
  unfold cameraServiceRelease ownedFrame
  cases howned : ownedStream s owner handle with
  | none => exact Or.inl rfl
  | some target =>
    cases hleased : leasedFrame (s target) lease with
    | none => exact Or.inl (by simp only [hleased, Option.map_none])
    | some frame =>
      simp only [hleased, Option.map_some]
      rcases eq_or_ne k target with rfl | hne
      · exact Or.inr ⟨frame, hleased, Function.update_self _ _ _⟩
      · exact Or.inl (Function.update_of_ne hne _ _)

theorem submit_cases (s : CameraState) (submission : Submission) (k : Fin cameraStreamCapacity) :
    cameraServiceSubmit s submission k = s k ∨ ∃ data, cameraServiceSubmit s submission k = submitTo submission data (s k) := by
  unfold cameraServiceSubmit
  cases submission.data with
  | none => exact Or.inl rfl
  | some data =>
    by_cases hignored : data.length = 0 ∨ submission.format ≥ formatCount
    · exact Or.inl (by simp only [if_pos hignored])
    · exact Or.inr ⟨data, by simp only [if_neg hignored]⟩

/-- A steady step keeps the account. -/
theorem Owned.step (h : Owned (s k)) (hsteady : Steady k s op) : Owned (step s op k) := by
  obtain ⟨hfaulted, hhangup, hsequence, hgeneration⟩ := hsteady
  cases op with
  | submit submission =>
    change (cameraServiceSubmit s submission k).faulted = false at hfaulted
    change (s k).sequence ≤ (cameraServiceSubmit s submission k).sequence at hsequence
    show Owned (cameraServiceSubmit s submission k)
    rcases submit_cases s submission k with heq | ⟨data, heq⟩
    · rwa [heq]
    · rw [heq] at hfaulted hsequence ⊢
      exact h.submitTo hfaulted hsequence
  | acquire owner handle =>
    change ∀ i, ((s k).frames i).generation ≤ (((cameraServiceAcquire s owner handle).2.2 k).frames i).generation at hgeneration
    show Owned ((cameraServiceAcquire s owner handle).2.2 k)
    rcases acquire_cases s owner handle k with heq | ⟨frame, hready, heq⟩
    · rwa [heq]
    · rw [heq] at hgeneration ⊢
      obtain ⟨heligible, holdest⟩ := oldestFrame_eq_some hready
      rw [Bool.and_eq_true] at heligible
      refine h.acquired heligible.1 (fun i hi => holdest i ?_) (nextGeneration_eq_succ ?_)
      · rw [hi, h.unleased i hi]
        rfl
      · refine (hgeneration frame).trans_eq ?_
        exact congrArg FrameSlot.generation (frames_setFrame_self (s k) frame _)
  | copy owner handle lease offset capacity => exact h
  | release owner handle lease =>
    show Owned ((cameraServiceRelease s owner handle lease).2 k)
    rcases release_cases s owner handle lease k with heq | ⟨frame, hleased, heq⟩
    · rwa [heq]
    · rw [heq]
      obtain ⟨hslot, rfl⟩ := leasedFrame_eq_some hleased
      exact h.released hslot
  | error => exact h.congr rfl rfl rfl rfl
  | remove => exact h.congr rfl rfl rfl rfl

/-! ## Who a stream belongs to -/

/-- The stream is open under this owner, generation and configuration. -/
structure BelongsTo (owner : Owner) (generation : Nat) (config : CameraConfig) (stream : CameraStream) : Prop where
  isOpen : stream.isOpen = true
  owner_eq : stream.owner = some owner
  generation_eq : stream.generation = generation
  config_eq : stream.config = config

variable {o : Owner} {g : Nat} {c : CameraConfig}

theorem BelongsTo.congr (h : BelongsTo o g c stream) (hopen : t.isOpen = stream.isOpen) (howner : t.owner = stream.owner)
    (hgeneration : t.generation = stream.generation) (hconfig : t.config = stream.config) : BelongsTo o g c t :=
  ⟨hopen.trans h.isOpen, howner.trans h.owner_eq, hgeneration.trans h.generation_eq, hconfig.trans h.config_eq⟩

theorem BelongsTo.fillFrame (h : BelongsTo o g c stream) :
    BelongsTo o g c (fillFrame stream index submission data) := by
  unfold Camera.fillFrame
  split <;> exact h.congr rfl rfl rfl rfl

theorem BelongsTo.submitTo (h : BelongsTo o g c stream) : BelongsTo o g c (submitTo submission data stream) := by
  have hseen : BelongsTo o g c (sawSubmission stream) := h.congr rfl rfl rfl rfl
  have hdropped : BelongsTo o g c (dropFrame (sawSubmission stream)) := h.congr rfl rfl rfl rfl
  unfold Camera.submitTo
  split
  · exact h
  split
  · exact h
  dsimp only
  split
  · exact hseen.fillFrame
  unfold replaceFrame
  split
  · exact h.congr rfl rfl rfl rfl
  split
  · exact hdropped
  · exact hdropped.fillFrame

/-- No operation takes a stream from its owner. -/
theorem BelongsTo.step (h : BelongsTo o g c (s k)) (op : Operation) : BelongsTo o g c (step s op k) := by
  cases op with
  | submit submission =>
    show BelongsTo o g c (cameraServiceSubmit s submission k)
    rcases submit_cases s submission k with heq | ⟨data, heq⟩
    · rwa [heq]
    · rw [heq]
      exact h.submitTo
  | acquire owner handle =>
    show BelongsTo o g c ((cameraServiceAcquire s owner handle).2.2 k)
    rcases acquire_cases s owner handle k with heq | ⟨frame, -, heq⟩
    · rwa [heq]
    · rw [heq]
      exact h.congr rfl rfl rfl rfl
  | copy owner handle lease offset capacity => exact h
  | release owner handle lease =>
    show BelongsTo o g c ((cameraServiceRelease s owner handle lease).2 k)
    rcases release_cases s owner handle lease k with heq | ⟨frame, -, heq⟩
    · rwa [heq]
    · rw [heq]
      exact h.congr rfl rfl rfl rfl
  | error => exact h.congr rfl rfl rfl rfl
  | remove => exact h.congr rfl rfl rfl rfl

/-- The owner of a stream names it by its handle. -/
theorem ownedStream_streamHandle (h : BelongsTo o g c (s k)) (hpos : 0 < g) :
    ownedStream s (some o) (streamHandle k g) = some k := by
  have hk : k.val < 4 := k.isLt
  have hnat : (streamHandle k g).toNat = g * cameraStreamCapacity + k := by
    simp only [streamHandle, cameraStreamCapacity]
    omega
  have hne : ¬(some o = none ∨ streamHandle k g ≤ 0) := by
    rintro (hnone | hle)
    · cases hnone
    · simp only [streamHandle, cameraStreamCapacity] at hle
      omega
  have hindex : handleIndex (streamHandle k g) = k := by
    refine Fin.ext ?_
    show (streamHandle k g).toNat % cameraStreamCapacity = k
    rw [hnat]
    simp only [cameraStreamCapacity]
    omega
  have hdiv : (streamHandle k g).toNat / cameraStreamCapacity = g := by
    rw [hnat]
    simp only [cameraStreamCapacity]
    omega
  rw [ownedStream, if_neg hne]
  dsimp only
  rw [hindex, hdiv, if_pos ⟨h.isOpen, h.owner_eq, h.generation_eq⟩]

theorem nextGeneration_pos (generation maximum : Nat) : 0 < nextGeneration generation maximum := by
  unfold nextGeneration
  split
  · exact Nat.one_pos
  · exact Nat.succ_pos _

/-! ## Counting submissions -/

/-- The submission has data and, where its format is packed, a stride. -/
def wellFormed (submission : Submission) : Bool :=
  match submission.data with
  | none => false
  | some data => data.length ≠ 0 && decide (submission.format < formatCount) && !decide (Unpacked submission)

/-- The operation is a submission for a configuration. -/
def submitsTo (config : CameraConfig) (counts : Submission → Bool) : Operation → Bool
  | .submit submission => decide (Matches config submission) && counts submission
  | _ => false

@[simp] theorem submissions_fillFrame (stream : CameraStream) (index : Fin cameraFrameCapacity) (submission : Submission)
    (data : List UInt8) : submissions (fillFrame stream index submission data).history = submissions stream.history := by
  unfold fillFrame
  split <;> rfl

@[simp] theorem submissions_replaceFrame (stream : CameraStream) (submission : Submission) (data : List UInt8) :
    submissions (replaceFrame stream submission data).history = submissions stream.history := by
  unfold replaceFrame
  split
  · rfl
  split
  · rfl
  · exact submissions_fillFrame _ _ _ _

/-- A stream that is open sees the submissions that match it. -/
theorem submissions_submitTo (hlive : ¬(stream.isOpen = false ∨ stream.faulted = true ∨ stream.hangup = true)) :
    submissions (submitTo submission data stream).history =
      submissions stream.history + if ¬Matches stream.config submission ∨ Unpacked submission then 0 else 1 := by
  unfold submitTo
  rw [if_neg hlive]
  split
  · rfl
  · dsimp only
    split
    · exact submissions_fillFrame _ _ _ _
    · exact submissions_replaceFrame _ _ _

/-- The history of a stream counts the submissions. -/
theorem submissions_step (h : BelongsTo o g c (s k)) (hfaulted : (s k).faulted = false) (hhangup : (s k).hangup = false)
    (op : Operation) :
    submissions (step s op k).history = submissions (s k).history + if submitsTo c wellFormed op = true then 1 else 0 := by
  cases op with
  | submit submission =>
    have hlive : ¬((s k).isOpen = false ∨ (s k).faulted = true ∨ (s k).hangup = true) := by
      rw [h.isOpen, hfaulted, hhangup]
      decide
    show submissions (cameraServiceSubmit s submission k).history = _
    rw [cameraServiceSubmit, submitsTo, wellFormed]
    cases submission.data with
    | none => simp
    | some data =>
      by_cases hignored : data.length = 0 ∨ submission.format ≥ formatCount
      · have hcount : (decide (data.length ≠ 0) && decide (submission.format < formatCount)) = false := by
          rcases hignored with hempty | hformat
          · simp [hempty]
          · simp [Nat.not_lt_of_le hformat]
        simp only [if_pos hignored, hcount, Bool.false_and, Bool.and_false, Bool.false_eq_true, if_false, Nat.add_zero]
      · have hcount : (decide (data.length ≠ 0) && decide (submission.format < formatCount)) = true := by
          have hsize : data.length ≠ 0 := fun hempty => hignored (Or.inl hempty)
          have hformat : submission.format < formatCount := Nat.lt_of_not_le fun hle => hignored (Or.inr hle)
          simp [hsize, hformat]
        simp only [if_neg hignored, hcount, Bool.true_and]
        rw [submissions_submitTo hlive, h.config_eq]
        by_cases hmatches : Matches c submission <;> by_cases hpacked : Unpacked submission <;> simp [hmatches, hpacked]
  | acquire owner handle =>
    show submissions ((cameraServiceAcquire s owner handle).2.2 k).history = _
    rcases acquire_cases s owner handle k with heq | ⟨frame, -, heq⟩ <;> rw [heq] <;> rfl
  | copy owner handle lease offset capacity => rfl
  | release owner handle lease =>
    show submissions ((cameraServiceRelease s owner handle lease).2 k).history = _
    rcases release_cases s owner handle lease k with heq | ⟨frame, -, heq⟩ <;> rw [heq] <;> rfl
  | error => rfl
  | remove => rfl

/-- So along a run. -/
theorem submissions_run {operations : List Operation} (h : BelongsTo o g c (s k)) (hfaulted : (s k).faulted = false)
    (hhangup : (s k).hangup = false) (hsteady : Along step (Steady k) s operations) :
    submissions (run s operations k).history = submissions (s k).history + operations.countP (submitsTo c wellFormed) := by
  induction operations generalizing s with
  | nil => rfl
  | cons op operations ih =>
    obtain ⟨⟨hfaulted', hhangup', -⟩, hrest⟩ := hsteady
    have hrun := ih (h.step op) hfaulted' hhangup' hrest
    rw [submissions_step h hfaulted hhangup op] at hrun
    show submissions (run (step s op) operations k).history = _
    rw [hrun, List.countP_cons]
    omega

/-! ## Every run -/

/-- A lease that is outstanding is accepted, and no other. -/
theorem Owned.leasedFrame_isSome (h : Owned stream) :
    (leasedFrame stream lease).isSome = true ↔ Outstanding lease (leaseUses stream.history) := by
  rw [h.leases, Option.isSome_iff_exists]
  constructor
  · rintro ⟨frame, hframe⟩
    exact ⟨frame, leasedFrame_eq_some hframe⟩
  · rintro ⟨frame, hleased, rfl⟩
    exact ⟨frame, leasedFrame_leaseHandle hleased (h.generation_pos frame hleased)⟩

/-- While its lease is outstanding, an acquired frame is in the slot of the lease. -/
theorem Owned.leasedFrame_data (h : Owned stream) {frame : CameraFrame} (hmem : .acquired frame data ∈ stream.history)
    (houtstanding : Outstanding frame.lease (leaseUses stream.history)) :
    ∃ index, leasedFrame stream frame.lease = some index ∧ (stream.frames index).data = data := by
  obtain ⟨index, hleased, hlease⟩ := (h.leases _).1 houtstanding
  obtain ⟨i, g, hlease', -, hdata⟩ := h.snapshots frame data hmem
  rw [hlease', leaseHandle_inj] at hlease
  obtain ⟨rfl, rfl⟩ := hlease
  refine ⟨i, ?_, hdata hleased rfl⟩
  rw [hlease']
  exact leasedFrame_leaseHandle hleased (h.generation_pos i hleased)

theorem owned_run {operations : List Operation} (h : Owned (s k)) (hsteady : Along step (Steady k) s operations) :
    Owned (run s operations k) := by
  have hrun := hsteady.invariant (fun t : CameraState => Owned (t k)) (fun _ _ howned hguard => howned.step hguard) h
  exact hrun

theorem belongsTo_run (h : BelongsTo o g c (s k)) (operations : List Operation) :
    BelongsTo o g c (run s operations k) := by
  have hstep : ∀ (t : CameraState) (op : Operation), BelongsTo o g c (t k) → BelongsTo o g c (step t op k) :=
    fun _ op hbelongs => hbelongs.step op
  exact foldl_invariant (fun t : CameraState => BelongsTo o g c (t k)) hstep operations h

/-- Whatever is submitted, acquired, copied and released while a stream that was just opened neither faults nor hangs up and its counters
do not wrap: the frames are acquired in order and none twice, a lease is accepted while it is outstanding and then only, a frame whose
lease is outstanding is copied as it was acquired, and every well-formed submission that matched was acquired, is ready or was dropped. -/
theorem frames_owned (s : CameraState) (k : Fin cameraStreamCapacity) (owner : Owner) (config : CameraConfig) (generation capacity : Nat)
    (operations : List Operation)
    (hsteady : Along step (Steady k)
      (Function.update s k (.opened owner config (nextGeneration generation streamGenerationMax) capacity)) operations) :
    let t := run (Function.update s k (.opened owner config (nextGeneration generation streamGenerationMax) capacity)) operations
    let handle := streamHandle k (nextGeneration generation streamGenerationMax)
    (sequences (t k).history).Pairwise (· > ·) ∧
      (∀ lease, (cameraServiceRelease t (some owner) handle lease).1 = 0 ↔ Outstanding lease (leaseUses (t k).history)) ∧
        (∀ lease offset size, 0 < size →
          ((cameraServiceCopy t (some owner) handle lease offset size).1 = -ebadf ↔ ¬Outstanding lease (leaseUses (t k).history))) ∧
          (∀ frame data, .acquired frame data ∈ (t k).history → Outstanding frame.lease (leaseUses (t k).history) →
            ∀ offset size, 0 < size →
              (cameraServiceCopy t (some owner) handle frame.lease offset size).2 = (data.drop offset).take size) ∧
            ∃ dropped, operations.countP (submitsTo config wellFormed) =
              (sequences (t k).history).length + (readyFrames (t k)).card + dropped ∧ (t k).drops = dropped % (uint32Max + 1) := by
  intro t handle
  have hself : Function.update s k (.opened owner config (nextGeneration generation streamGenerationMax) capacity) k =
      .opened owner config (nextGeneration generation streamGenerationMax) capacity := Function.update_self _ _ _
  have howned : Owned (t k) := by
    refine owned_run ?_ hsteady
    rw [hself]
    exact owned_opened owner config _ capacity
  have hopened : BelongsTo owner (nextGeneration generation streamGenerationMax) config
      (Function.update s k (.opened owner config (nextGeneration generation streamGenerationMax) capacity) k) := by
    rw [hself]
    exact ⟨rfl, rfl, rfl, rfl⟩
  have hbelongs : BelongsTo owner (nextGeneration generation streamGenerationMax) config (t k) := belongsTo_run hopened operations
  have hstream : ownedStream t (some owner) handle = some k := ownedStream_streamHandle hbelongs (nextGeneration_pos _ _)
  have hframe : ∀ lease, ownedFrame t (some owner) handle lease = (leasedFrame (t k) lease).map fun frame => (k, frame) := by
    intro lease
    rw [ownedFrame, hstream]
  refine ⟨howned.increasing, fun lease => ?_, fun lease offset size hsize => ?_, fun frame data hmem houtstanding offset size hsize => ?_,
    ?_⟩
  · rw [← howned.leasedFrame_isSome, cameraServiceRelease, hframe]
    cases leasedFrame (t k) lease with
    | none => simp [ebadf]
    | some frame => simp
  · rw [← howned.leasedFrame_isSome, cameraServiceCopy, if_neg (Nat.ne_of_gt hsize), hframe]
    cases leasedFrame (t k) lease with
    | none => simp
    | some frame =>
      simp only [Option.map_some, Option.isSome_some, not_true_eq_false, iff_false, ebadf]
      omega
  · obtain ⟨index, hindex, rfl⟩ := howned.leasedFrame_data hmem houtstanding
    rw [cameraServiceCopy, if_neg (Nat.ne_of_gt hsize), hframe, hindex]
    rfl
  · have hcount := submissions_run hopened (by rw [hself]; rfl) (by rw [hself]; rfl) hsteady
    obtain ⟨dropped, hconserved, hdrops⟩ := howned.conserved
    refine ⟨dropped, ?_, hdrops⟩
    rw [← hconserved, hcount, hself]
    exact (Nat.zero_add _).symm

/-- A submission of two pixels. -/
def twoPixels (strideBytes : Nat) : Submission where
  data := some [7, 8]
  width := 2
  height := 1
  strideBytes := strideBytes
  format := formatRaw8
  timestampMs := 0

def twoPixelConfig : CameraConfig where
  format := formatRaw8
  width := 2
  height := 1

/-- Four streams that were just opened. -/
def openedStreams : CameraState := fun _ => .opened 1 twoPixelConfig 1 4

def firstStream : Fin cameraStreamCapacity := handleIndex 0

def justOpened : CameraState :=
  Function.update openedStreams firstStream (.opened 1 twoPixelConfig (nextGeneration 0 streamGenerationMax) 4)

/-- Two submissions with an acquisition in between. -/
def threeOperations : List Operation := [.submit (twoPixels 2), .acquire (some 1) 4, .submit (twoPixels 2)]

theorem steady_threeOperations :
    Along step (Steady firstStream) justOpened
      threeOperations := by
  decide +kernel

theorem frames_owned_three :
    Along step (Steady firstStream) justOpened
        threeOperations ∧
      (sequences (run justOpened
        threeOperations firstStream).history).Pairwise (· > ·) :=
  ⟨steady_threeOperations, (frames_owned openedStreams firstStream 1 twoPixelConfig 0 4 threeOperations steady_threeOperations).1⟩

/-! ## Submissions that are not accounted for -/

/-- Every slot of the stream is leased, and a submission cannot be stored. -/
structure Starved (stream : CameraStream) : Prop where
  isOpen : stream.isOpen = true
  faulted : stream.faulted = false
  hangup : stream.hangup = false
  config : stream.config = twoPixelConfig
  leased : ∀ i, (stream.frames i).leased = true
  drops_le_max : stream.drops ≤ uint32Max

theorem Starved.submitTo_eq (h : Starved stream) : submitTo (twoPixels 2) data stream = dropFrame (sawSubmission stream) := by
  have hlive : ¬(stream.isOpen = false ∨ stream.faulted = true ∨ stream.hangup = true) := by
    rw [h.isOpen, h.faulted, h.hangup]
    decide
  have hmatches : ¬(¬Matches stream.config (twoPixels 2) ∨ Unpacked (twoPixels 2)) := by
    rw [h.config]
    decide
  have hfree : freeFrame stream = none := by
    refine List.find?_eq_none.2 fun i _ => ?_
    simp [h.leased i]
  have holdest : oldestFrame (sawSubmission stream) (fun slot => !slot.leased) = none := by
    cases holdest : oldestFrame (sawSubmission stream) (fun slot => !slot.leased) with
    | none => rfl
    | some index =>
      have heligible := (oldestFrame_eq_some holdest).1
      rw [show ((sawSubmission stream).frames index).leased = true from h.leased index] at heligible
      cases heligible
  rw [submitTo_of_none hlive hmatches hfree, replaceFrame, if_neg (by decide), holdest]

theorem Starved.dropped (h : Starved stream) : Starved (dropFrame (sawSubmission stream)) :=
  ⟨h.isOpen, h.faulted, h.hangup, h.config, h.leased, Nat.le_of_lt_succ (Nat.mod_lt _ (Nat.succ_pos _))⟩

/-- Submissions that are all dropped run the drop counter around. -/
theorem Starved.run_replicate (n : Nat) (h : Starved (s k)) :
    Along step (Steady k) s (List.replicate n (.submit (twoPixels 2))) ∧
      (run s (List.replicate n (.submit (twoPixels 2))) k).frames = (s k).frames ∧
        sequences (run s (List.replicate n (.submit (twoPixels 2))) k).history = sequences (s k).history ∧
          (run s (List.replicate n (.submit (twoPixels 2))) k).drops = ((s k).drops + n) % (uint32Max + 1) := by
  induction n generalizing s with
  | zero => exact ⟨trivial, rfl, rfl, (Nat.mod_eq_of_lt (Nat.lt_succ_of_le h.drops_le_max)).symm⟩
  | succ n ih =>
    have hstep : step s (.submit (twoPixels 2)) k = dropFrame (sawSubmission (s k)) := h.submitTo_eq
    have hdropped : Starved (step s (.submit (twoPixels 2)) k) := by
      rw [hstep]
      exact h.dropped
    obtain ⟨hsteady, hframes, hsequences, hdrops⟩ := ih hdropped
    rw [List.replicate_succ]
    refine ⟨⟨⟨hdropped.faulted, hdropped.hangup, ?_, fun i => ?_⟩, hsteady⟩, hframes.trans ?_, hsequences.trans ?_, hdrops.trans ?_⟩
    · rw [hstep]
      exact le_refl _
    · rw [hstep]
      exact le_refl _
    · rw [hstep]
      rfl
    · rw [hstep]
      rfl
    · rw [hstep]
      show (((s k).drops + 1) % (uint32Max + 1) + n) % (uint32Max + 1) = _
      rw [Nat.mod_add_mod, Nat.add_assoc, Nat.add_comm 1 n]

/-- Three frames that are acquired and kept. -/
def keepThree : List Operation :=
  [.submit (twoPixels 2), .acquire (some 1) 4, .submit (twoPixels 2), .acquire (some 1) 4, .submit (twoPixels 2), .acquire (some 1) 4]

theorem starved_keepThree : Starved (run justOpened keepThree firstStream) :=
  ⟨by decide +kernel, by decide +kernel, by decide +kernel, by decide +kernel, by decide +kernel, by decide +kernel⟩

/-- Drops that run the counter around are not accounted for. -/
theorem not_conserved_of_drops {n : Nat} (hn : n % (uint32Max + 1) ≠ n) :
    ∃ operations : List Operation, Along step (Steady firstStream) justOpened operations ∧
      let t := run justOpened operations firstStream
      operations.countP (submitsTo twoPixelConfig wellFormed) ≠ (sequences t.history).length + (readyFrames t).card + t.drops := by
  have hsteady : Along step (Steady firstStream) justOpened keepThree := by decide +kernel
  obtain ⟨hsteady', hframes, hsequences, hdrops⟩ := starved_keepThree.run_replicate n
  refine ⟨keepThree ++ List.replicate n (.submit (twoPixels 2)),
    (along_append justOpened keepThree (List.replicate n (.submit (twoPixels 2)))).2 ⟨hsteady, hsteady'⟩, ?_⟩
  intro t heq
  have hcount : (keepThree ++ List.replicate n (Operation.submit (twoPixels 2))).countP (submitsTo twoPixelConfig wellFormed)
      = 3 + n := by
    rw [List.countP_append, List.countP_replicate, if_pos (by decide +kernel)]
    rfl
  have hrun : t = run (run justOpened keepThree) (List.replicate n (.submit (twoPixels 2))) firstStream := by
    show run justOpened (keepThree ++ _) firstStream = _
    rw [run, List.foldl_append]
    rfl
  have hready : (readyFrames t).card = 0 := by
    rw [readyFrames, hrun, hframes]
    decide +kernel
  have hlength : (sequences (run justOpened keepThree firstStream).history).length = 3 := by decide +kernel
  have hkept : (run justOpened keepThree firstStream).drops = 0 := by decide +kernel
  rw [hcount, hready, hrun, hsequences, hdrops, hlength, hkept, Nat.zero_add] at heq
  exact hn (Nat.add_left_cancel heq).symm

/-- A submission without a stride matches the format and the size and is not accounted for, and neither are `2 ^ 32` drops. -/
theorem frames_not_conserved :
    (∃ operations : List Operation, Along step (Steady firstStream) justOpened operations ∧
      let t := run justOpened operations firstStream
      operations.countP (submitsTo twoPixelConfig fun _ => true) ≠ (sequences t.history).length + (readyFrames t).card + t.drops) ∧
      ∃ operations : List Operation, Along step (Steady firstStream) justOpened operations ∧
        let t := run justOpened operations firstStream
        operations.countP (submitsTo twoPixelConfig wellFormed) ≠ (sequences t.history).length + (readyFrames t).card + t.drops :=
  ⟨⟨[.submit (twoPixels 0)], by decide +kernel, by decide +kernel⟩, not_conserved_of_drops (n := uint32Max + 1) (by decide)⟩

end Camera
end TabOS
