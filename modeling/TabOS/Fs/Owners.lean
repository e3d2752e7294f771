import TabOS.Fs.Descriptor

/-!
# Owners of descriptors

Several users hold descriptors of one table. `Owned` says that each open slot has exactly one owner, who holds the descriptor of the
slot, and that nothing else is held.
-/

namespace TabOS
namespace Fs

open Library

variable {α ω : Type} {slots : List (Slot (BitVec 16) α)} {holds holds' : ω → Descriptor → Prop} {owner : ω} {descriptor : Descriptor}
  {index : Nat} {generation : BitVec 16}

/-- What is held is the descriptors of the open slots, each by one owner. -/
structure Owned (slots : List (Slot (BitVec 16) α)) (holds : ω → Descriptor → Prop) : Prop where
  length_le : slots.length ≤ 255
  named : ∀ owner descriptor, holds owner descriptor →
    ∃ index generation, Names slots index generation ∧ descriptor = encode index generation
  unique : ∀ owner owner' descriptor, holds owner descriptor → holds owner' descriptor → owner = owner'
  covered : ∀ index generation, Names slots index generation → ∃ owner, holds owner (encode index generation)

/-- A descriptor that is held is accepted. -/
theorem Owned.accepted (h : Owned slots holds) (hholds : holds owner descriptor) :
    ∃ index generation, Names slots index generation ∧ descriptor = encode index generation ∧
      slotForDescriptor slots descriptor = some index := by
  obtain ⟨index, generation, hnames, rfl⟩ := h.named owner descriptor hholds
  exact ⟨index, generation, hnames, rfl, slotForDescriptor_encode h.length_le hnames⟩

/-- The descriptor that a slot gets is not held yet. -/
theorem Owned.not_holds_nextDescriptor (h : Owned slots holds) (hindex : firstClosed slots = some index) (owner : ω) :
    ¬holds owner (nextDescriptor slots index) := by
  intro hholds
  obtain ⟨index', generation, hnames, heq⟩ := h.named owner _ hholds
  obtain ⟨slot, hslot, hclosed⟩ := firstClosed_spec hindex
  have hlt : index < slots.length := (List.getElem?_eq_some_iff.1 hslot).1
  have hlt' := hnames.lt
  have hlength := h.length_le
  obtain ⟨rfl, -⟩ := encode_injective (by omega) (by omega) heq
  obtain ⟨slot', hslot', hopen, -⟩ := hnames
  rw [hslot] at hslot'
  rw [← Option.some.inj hslot', hclosed] at hopen
  cases hopen

/-- A slot that is opened gets the owner that it was opened for. -/
theorem Owned.openSlot (h : Owned slots holds) (hindex : firstClosed slots = some index) (content : α)
    (hholds : ∀ other descriptor, holds' other descriptor ↔
      (other = owner ∧ descriptor = nextDescriptor slots index) ∨ holds other descriptor) :
    Owned (openSlot slots index content) holds' where
  length_le := (length_acquire _ _ _).trans_le h.length_le
  named other descriptor hother := by
    unfold Fs.openSlot
    rcases (hholds other descriptor).1 hother with ⟨-, rfl⟩ | hother
    · exact ⟨index, _, (names_acquire _ hindex).2 (Or.inl ⟨rfl, rfl⟩), rfl⟩
    · obtain ⟨index', generation, hnames, heq⟩ := h.named other descriptor hother
      exact ⟨index', generation, (names_acquire _ hindex).2 (Or.inr hnames), heq⟩
  unique other other' descriptor hother hother' := by
    rcases (hholds other descriptor).1 hother with ⟨rfl, rfl⟩ | hother
    · rcases (hholds other' _).1 hother' with ⟨rfl, -⟩ | hother'
      · rfl
      · exact absurd hother' (h.not_holds_nextDescriptor hindex other')
    · rcases (hholds other' descriptor).1 hother' with ⟨rfl, rfl⟩ | hother'
      · exact absurd hother (h.not_holds_nextDescriptor hindex other)
      · exact h.unique other other' descriptor hother hother'
  covered index' generation hnames := by
    unfold Fs.openSlot at hnames
    rcases (names_acquire _ hindex).1 hnames with ⟨rfl, rfl⟩ | hnames
    · exact ⟨owner, (hholds owner _).2 (Or.inl ⟨rfl, rfl⟩)⟩
    · obtain ⟨other, hother⟩ := h.covered index' generation hnames
      exact ⟨other, (hholds other _).2 (Or.inr hother)⟩

/-- A slot that is closed through its descriptor has no owner. -/
theorem Owned.release (h : Owned slots holds) (howner : holds owner descriptor) (hindex : slotForDescriptor slots descriptor = some index)
    (hholds : ∀ other descriptor', holds' other descriptor' ↔ descriptor' ≠ descriptor ∧ holds other descriptor') :
    Owned (release slots index) holds' := by
  obtain ⟨index₀, generation₀, hnames₀, hself, hindex₀⟩ := h.accepted howner
  obtain rfl : index₀ = index := Option.some.inj (hindex₀.symm.trans hindex)
  have hlt := hnames₀.lt
  have hlength := h.length_le
  refine ⟨(length_release _ _).trans_le hlength, ?_, ?_, ?_⟩
  · intro other descriptor' hother
    obtain ⟨hne, hother⟩ := (hholds other descriptor').1 hother
    obtain ⟨index', generation, hnames, rfl⟩ := h.named other descriptor' hother
    refine ⟨index', generation, (names_release _ _ _ _).2 ⟨?_, hnames⟩, rfl⟩
    rintro rfl
    rw [hnames.unique hnames₀, ← hself] at hne
    exact hne rfl
  · intro other other' descriptor' hother hother'
    exact h.unique other other' descriptor' ((hholds other descriptor').1 hother).2 ((hholds other' descriptor').1 hother').2
  · intro index' generation hnames
    obtain ⟨hne, hnames⟩ := (names_release _ _ _ _).1 hnames
    have hlt' := hnames.lt
    obtain ⟨other, hother⟩ := h.covered index' generation hnames
    refine ⟨other, (hholds other _).2 ⟨fun heq => hne ?_, hother⟩⟩
    exact (encode_injective (by omega) (by omega) (heq.trans hself)).1

/-- A descriptor is not accepted once its slot was closed. -/
theorem Owned.not_accepted (h : Owned slots holds) (howner : holds owner descriptor)
    (hindex : slotForDescriptor slots descriptor = some index) :
    slotForDescriptor (Library.release slots index) descriptor = none := by
  obtain ⟨index₀, generation₀, hnames₀, hself, hindex₀⟩ := h.accepted howner
  obtain rfl : index₀ = index := Option.some.inj (hindex₀.symm.trans hindex)
  have hlength : (Library.release slots index₀).length ≤ 255 := (length_release _ _).trans_le h.length_le
  cases haccepted : slotForDescriptor (Library.release slots index₀) descriptor with
  | none => rfl
  | some index' =>
    obtain ⟨-, generation, hnames, hlow⟩ := (slotForDescriptor_eq_some_iff hlength).1 haccepted
    have hbound := h.length_le
    have hlt := hnames₀.lt
    have hlt' := hnames.lt
    obtain ⟨hne, -⟩ := (names_release _ _ _ _).1 hnames
    rw [hself, lowBits_encode (by omega)] at hlow
    exact absurd (encode_injective (by omega) (by omega) hlow).1.symm hne

/-! ## The calls -/

variable {s : Filesystem} {hasDrive : UInt8 → Bool} {path : Option CString} {opened : Except Int (BitVec 64)} {closed : Int}

/-- A call that opens no file leaves the filesystem, and one that does opens the first slot that is closed. -/
theorem fsOpen_cases (s : Filesystem) (hasDrive : UInt8 → Bool) (path : Option CString) (opened : Except Int (BitVec 64)) :
    (∃ error, fsOpen s hasDrive path opened = (.error error, s)) ∨ ∃ index content, firstClosed s.files = some index ∧
      fsOpen s hasDrive path opened =
        (.ok (nextDescriptor s.files index), { s with files := openSlot s.files index content }) := by
  unfold fsOpen
  cases resolvePath s hasDrive path with
  | error error => exact Or.inl ⟨error, rfl⟩
  | ok resolved =>
    cases hindex : firstClosed s.files with
    | none => exact Or.inl ⟨emfile, rfl⟩
    | some index =>
      cases opened with
      | error error => exact Or.inl ⟨error, rfl⟩
      | ok platformFile => exact Or.inr ⟨index, _, rfl, rfl⟩

/-- A file is closed whatever the storage answers. -/
theorem fsClose_of_some (hindex : fileForDescriptor s descriptor = some index) (closed : Int) :
    fsClose s descriptor closed =
      (if closed = 0 then .ok () else .error closed, { s with files := Library.release s.files index }) := by
  rw [fsClose, hindex]

end Fs
end TabOS
