import TabOS.Loader.Load
import Mathlib.Tactic.IntervalCases

/-!
# Rebasing

What the fields of relocation entries encode, before and after `apply_relocations`. The fields of the absolute kinds are stored for the
moved image. Those of the PC-relative kinds are left, which is right when the symbol moves with the field: when it is defined in a
section.
-/

namespace TabOS
namespace Loader

open Library Library.Program

variable {target : Target} {data : List (BitVec 8)} {info : ElfInfo} {loadBias : BitVec 32}

/-! ## Relocation entries -/

/-- A relocation entry with its symbol. -/
structure Relocation where
  address : BitVec 32
  type : BitVec 32
  symbolValue : BitVec 32
  symbolSection : BitVec 16
  addend : BitVec 32
  deriving DecidableEq, Repr

namespace Relocation

/-- The kinds whose value is relative to the field: `BRANCH`, `JAL`, `CALL`, `CALL_PLT` and `PCREL_HI20`. -/
def PcRelative (type : BitVec 32) : Prop := type ∈ ([16, 17, 18, 19, 23] : List (BitVec 32))

instance (type : BitVec 32) : Decidable (PcRelative type) :=
  decidable_of_iff (type = 16 ∨ type = 17 ∨ type = 18 ∨ type = 19 ∨ type = 23) (by simp [PcRelative])

/-- The kinds that hold the low part of the value of a `PCREL_HI20` entry: `PCREL_LO12_I` and `PCREL_LO12_S`. -/
def Partner (type : BitVec 32) : Prop := type = 24 ∨ type = 25

instance (type : BitVec 32) : Decidable (Partner type) := by
  unfold Partner
  infer_instance

/-- The symbol is defined in a section: it is neither undefined nor absolute. -/
def SymbolDefined (r : Relocation) : Prop := r.symbolSection ≠ 0 ∧ r.symbolSection ≠ 0xfff1

instance (r : Relocation) : Decidable r.SymbolDefined := by
  unfold SymbolDefined
  infer_instance

/-- The entry in the moved image: its address moves, and its symbol if it is defined in a section. -/
def moved (loadBias : BitVec 32) (r : Relocation) : Relocation :=
  { r with
    address := r.address + loadBias
    symbolValue := if r.SymbolDefined then r.symbolValue + loadBias else r.symbolValue }

/-- The value of an entry: `S + A - P` for the PC-relative kinds and `S + A` for the others. -/
def value (r : Relocation) : BitVec 32 :=
  if PcRelative r.type then r.symbolValue + r.addend - r.address else r.symbolValue + r.addend

/-- The entry whose value a field encodes: its own, or, for a low part of a PC-relative value, that of the `PCREL_HI20` entry at its
symbol. -/
def Source (relocations : List Relocation) (r source : Relocation) : Prop :=
  if Partner r.type then source ∈ relocations ∧ source.type = 23 ∧ source.address = r.symbolValue else source = r

/-- The number of bytes of a field: none for `NONE` and `RELAX`, two instructions for `CALL` and `CALL_PLT`, a word for the others. -/
def width (type : BitVec 32) : Nat := if type = 0 ∨ type = 51 then 0 else if type = 18 ∨ type = 19 then 8 else 4

end Relocation

/-- The immediate of a `B` instruction. -/
def branchImmediate (word : BitVec 32) : BitVec 32 :=
  (word.extractLsb' 31 1 ++ word.extractLsb' 7 1 ++ word.extractLsb' 25 6 ++ word.extractLsb' 8 4 ++ 0#1).signExtend 32

/-- The immediate of a `J` instruction. -/
def jalImmediate (word : BitVec 32) : BitVec 32 :=
  (word.extractLsb' 31 1 ++ word.extractLsb' 12 8 ++ word.extractLsb' 20 1 ++ word.extractLsb' 21 10 ++ 0#1).signExtend 32

/-- The sum of the immediates of `auipc` and `jalr`. -/
def callImmediate (upper lower : BitVec 32) : BitVec 32 :=
  (upper &&& 0xfffff000) + (lower.extractLsb' 20 12).signExtend 32

/-- The immediate of an `S` instruction, twelve bits. -/
def storeImmediate (word : BitVec 32) : BitVec 32 := ((word >>> 20) &&& 0xfe0) ||| ((word >>> 7) &&& 0x1f)

/-- The bits that a field of a kind holds in a word and, for the kinds of two instructions, the next one. -/
def fieldBits (type word next : BitVec 32) : BitVec 32 :=
  if type = 1 then word
  else if type = 26 ∨ type = 23 then word &&& 0xfffff000
  else if type = 27 ∨ type = 24 then word >>> 20
  else if type = 28 ∨ type = 25 then storeImmediate word
  else if type = 16 then branchImmediate word
  else if type = 17 then jalImmediate word
  else if type = 18 ∨ type = 19 then callImmediate word next
  else 0

/-- The bits that a field of a kind holds for a value: the value, its upper part, rounded, or its lower part. -/
def valueBits (type value : BitVec 32) : BitVec 32 :=
  if type = 26 ∨ type = 23 then (value + 0x800) &&& 0xfffff000
  else if type = 27 ∨ type = 24 ∨ type = 28 ∨ type = 25 then value &&& 0xfff
  else if type = 0 ∨ type = 51 then 0
  else value

/-- The distance of a field from the start of the image. -/
def fieldOffset (info : ElfInfo) (r : Relocation) : Nat := (r.address - info.minimumAddress).toNat

/-- The field of an entry encodes a value in the image. -/
def Encodes (info : ElfInfo) (image : Image) (r : Relocation) (value : BitVec 32) : Prop :=
  fieldBits r.type (image.readU32 (fieldOffset info r)) (image.readU32 (fieldOffset info r + 4)) = valueBits r.type value

instance (info : ElfInfo) (image : Image) (r : Relocation) (value : BitVec 32) : Decidable (Encodes info image r value) := by
  unfold Encodes
  infer_instance

theorem fieldBits_of_empty {type : BitVec 32} (htype : type = 0 ∨ type = 51) (word next : BitVec 32) :
    fieldBits type word next = 0 := by
  rcases htype with rfl | rfl <;> rfl

theorem valueBits_of_empty {type : BitVec 32} (htype : type = 0 ∨ type = 51) (value : BitVec 32) : valueBits type value = 0 := by
  rcases htype with rfl | rfl <;> rfl

/-! ## Storing a field -/

theorem word32_setWidth (n : BitVec 32) :
    word32 (n.setWidth 8) ((n >>> 8).setWidth 8) ((n >>> 16).setWidth 8) ((n >>> 24).setWidth 8) = n := by
  unfold word32
  ext i hi
  interval_cases i <;> simp

/-- A word that is written is read back. -/
theorem readU32_writeU32 (image : Image) (offset : Nat) (number : BitVec 32) :
    (image.writeU32 offset number).readU32 offset = number := by
  have hbyte : ∀ k < 4, (image.writeU32 offset number).bytes (offset + k) =
      [number.setWidth 8, (number >>> 8).setWidth 8, (number >>> 16).setWidth 8, (number >>> 24).setWidth 8].getD k 0 := by
    intro k hk
    unfold Image.writeU32 Image.copy
    dsimp only
    rw [if_pos ⟨Nat.le_add_right _ _, Nat.add_lt_add_left hk _⟩, Nat.add_sub_cancel_left]
  have h0 := hbyte 0 (by decide)
  rw [Nat.add_zero] at h0
  unfold Image.readU32
  rw [h0, hbyte 1 (by decide), hbyte 2 (by decide), hbyte 3 (by decide)]
  exact word32_setWidth number

/-- A store leaves the bytes before and after its word. -/
theorem Store.apply_bytes {store : Store} {image : Image} {a : Nat} (h : a < store.offset ∨ store.offset + 4 ≤ a) :
    (store.apply image).bytes a = image.bytes a := by
  unfold Store.apply Image.writeU32 Image.copy
  dsimp only
  refine if_neg fun hin => ?_
  simp only [List.length_cons, List.length_nil] at hin
  omega

/-- A store reaches into a field. -/
def Overlaps (offset width : Nat) (store : Store) : Prop := max offset store.offset < min (offset + width) (store.offset + 4)

instance (offset width : Nat) (store : Store) : Decidable (Overlaps offset width store) := by
  unfold Overlaps
  infer_instance

/-- A store beside a field leaves what it encodes. -/
theorem encodes_apply_of_not_overlaps {image : Image} {store : Store} {r : Relocation} {value : BitVec 32}
    (h : ¬Overlaps (fieldOffset info r) (Relocation.width r.type) store) :
    Encodes info (store.apply image) r value ↔ Encodes info image r value := by
  unfold Overlaps at h
  by_cases hnone : r.type = 0 ∨ r.type = 51
  · unfold Encodes
    rw [fieldBits_of_empty hnone, fieldBits_of_empty hnone]
  unfold Relocation.width at h
  rw [if_neg hnone] at h
  have hword : (store.apply image).readU32 (fieldOffset info r) = image.readU32 (fieldOffset info r) := by
    have hwidth : 4 ≤ if r.type = 18 ∨ r.type = 19 then 8 else 4 := by split <;> decide
    unfold Image.readU32
    rw [Store.apply_bytes (by omega), Store.apply_bytes (by omega), Store.apply_bytes (by omega), Store.apply_bytes (by omega)]
  unfold Encodes
  rw [hword]
  by_cases hcall : r.type = 18 ∨ r.type = 19
  · rw [if_pos hcall] at h
    have hnext : (store.apply image).readU32 (fieldOffset info r + 4) = image.readU32 (fieldOffset info r + 4) := by
      unfold Image.readU32
      rw [Store.apply_bytes (by omega), Store.apply_bytes (by omega), Store.apply_bytes (by omega), Store.apply_bytes (by omega)]
    rw [hnext]
  · unfold fieldBits
    rw [if_neg hcall, if_neg hcall]

theorem width_of_stored {type : BitVec 32} (hstored : relocationStored type = true) : Relocation.width type = 4 := by
  unfold relocationStored at hstored
  simp only [List.mem_cons, List.not_mem_nil, or_false, decide_eq_true_eq] at hstored
  rcases hstored with rfl | rfl | rfl | rfl <;> rfl

/-- The word that a store writes holds the value in the field of its kind. -/
theorem fieldBits_relocatedWord {type : BitVec 32} (hstored : relocationStored type = true) (value word next : BitVec 32) :
    fieldBits type (relocatedWord type value word) next = valueBits type value := by
  unfold relocationStored at hstored
  simp only [List.mem_cons, List.not_mem_nil, or_false, decide_eq_true_eq] at hstored
  rcases hstored with rfl | rfl | rfl | rfl
  · rfl
  · show ((word &&& 0x00000fff) ||| ((value + 0x800) &&& 0xfffff000)) &&& 0xfffff000 = (value + 0x800) &&& 0xfffff000
    generalize value + 0x800 = rounded
    ext i hi
    interval_cases i <;> simp
  · show ((word &&& 0x000fffff) ||| ((value &&& 0x00000fff) <<< 20)) >>> 20 = value &&& 0xfff
    ext i hi
    interval_cases i <;> simp
  · show storeImmediate ((word &&& ~~~(0xfe000f80 : BitVec 32)) ||| ((value &&& 0x00000fe0) <<< 20) |||
      ((value &&& 0x0000001f) <<< 7)) = value &&& 0xfff
    unfold storeImmediate
    ext i hi
    interval_cases i <;> simp

/-- A store makes its field encode its value. -/
theorem encodes_apply_self {image : Image} {r : Relocation} (hstored : relocationStored r.type = true) (value : BitVec 32) :
    Encodes info (Store.apply ⟨fieldOffset info r, r.type, value⟩ image) r value := by
  unfold Encodes Store.apply
  rw [readU32_writeU32]
  exact fieldBits_relocatedWord hstored value _ _

/-- After stores none of which reaches into a field, it encodes what it did. -/
theorem encodes_storeAll_of_not_overlaps {stores : List Store} {image : Image} {r : Relocation} {value : BitVec 32}
    (h : ∀ store ∈ stores, ¬Overlaps (fieldOffset info r) (Relocation.width r.type) store) :
    Encodes info (storeAll stores image) r value ↔ Encodes info image r value := by
  induction stores generalizing image with
  | nil => exact Iff.rfl
  | cons store stores ih =>
    obtain ⟨hstore, hrest⟩ := List.forall_mem_cons.1 h
    exact (ih hrest).trans (encodes_apply_of_not_overlaps hstore)

/-- After stores that make a field encode a value and no others that reach into it, it encodes the value. -/
theorem encodes_storeAll_self {stores : List Store} {image : Image} {r : Relocation} {value : BitVec 32}
    (hstored : relocationStored r.type = true) (hmem : ⟨fieldOffset info r, r.type, value⟩ ∈ stores)
    (h : ∀ store ∈ stores, Overlaps (fieldOffset info r) (Relocation.width r.type) store →
      store = ⟨fieldOffset info r, r.type, value⟩) :
    Encodes info (storeAll stores image) r value := by
  induction stores using List.reverseRecOn generalizing image with
  | nil => nomatch hmem
  | append_singleton stores store ih =>
    have hlast : storeAll (stores ++ [store]) image = store.apply (storeAll stores image) := by
      rw [storeAll, List.foldl_append]
      rfl
    rw [hlast]
    by_cases hoverlaps : Overlaps (fieldOffset info r) (Relocation.width r.type) store
    · rw [h store (List.mem_append_right _ List.mem_cons_self) hoverlaps]
      exact encodes_apply_self hstored value
    · have hne : (⟨fieldOffset info r, r.type, value⟩ : Store) ≠ store := by
        rintro rfl
        have hwidth := width_of_stored hstored
        unfold Overlaps at hoverlaps
        dsimp only at hoverlaps
        omega
      have hmem' : ⟨fieldOffset info r, r.type, value⟩ ∈ stores :=
        (List.mem_append.1 hmem).resolve_right fun hsingle => hne (List.mem_singleton.1 hsingle)
      exact (encodes_apply_of_not_overlaps hoverlaps).2
        (ih hmem' fun other hother => h other (List.mem_append_left _ hother))

/-! ## The entries of a file -/

/-- The relocation entry at an offset of the input, with its symbol. -/
def relocationAt (data : List (BitVec 8)) (symbolOffset : BitVec 32) (relocation : Nat) : Relocation :=
  let symbol := symbolOffset.toNat + (u32At data (relocation + 4) >>> 8).toNat * 16
  { address := u32At data relocation
    type := u32At data (relocation + 4) &&& 0xff
    symbolValue := u32At data (symbol + 4)
    symbolSection := u16At data (symbol + 14)
    addend := u32At data (relocation + 8) }

/-- The relocation entries of the loaded sections. -/
def relocations (data : List (BitVec 8)) : List Relocation :=
  (List.range (sectionCount data).toNat).flatMap fun index =>
    if RelocatesLoaded data (sectionAt data index) then
      (List.range ((u32At data (sectionAt data index + 20)).toNat / 12)).map fun entry =>
        relocationAt data (u32At data (symbolHeader data (sectionAt data index) + 16))
          ((u32At data (sectionAt data index + 16)).toNat + entry * 12)
    else []

/-- The store that an entry prescribes. -/
def Relocation.store (info : ElfInfo) (loadBias : BitVec 32) (r : Relocation) : Store :=
  ⟨fieldOffset info r, r.type, (r.moved loadBias).value⟩

theorem not_pcRelative_of_stored {type : BitVec 32} (hstored : relocationStored type = true) :
    ¬Relocation.PcRelative type ∧ ¬Relocation.Partner type := by
  unfold relocationStored at hstored
  simp only [List.mem_cons, List.not_mem_nil, or_false, decide_eq_true_eq] at hstored
  rcases hstored with rfl | rfl | rfl | rfl <;> decide

/-- An entry that is not refused is skipped or makes its store. -/
theorem entryStep_of_not_refused {symbolOffset symbolSize : BitVec 32} {relocation : Nat}
    (h : ∀ result, entryStep target data info loadBias symbolOffset symbolSize relocation ≠ .refuse result) :
    relocationSkipped (relocationAt data symbolOffset relocation).type = true ∨
      relocationStored (relocationAt data symbolOffset relocation).type = true ∧
        entryStep target data info loadBias symbolOffset symbolSize relocation =
          .change ((relocationAt data symbolOffset relocation).store info loadBias) := by
  by_cases hskip : relocationSkipped (u32At data (relocation + 4) &&& 0xff) = true
  · exact Or.inl hskip
  refine Or.inr ?_
  unfold entryStep at h ⊢
  dsimp only at h ⊢
  rw [if_neg hskip] at h ⊢
  by_cases hstored : relocationStored (u32At data (relocation + 4) &&& 0xff) = false
  · rw [if_pos hstored] at h
    exact absurd rfl (h _)
  rw [if_neg hstored] at h ⊢
  rw [Bool.not_eq_false] at hstored
  refine ⟨hstored, ?_⟩
  split_ifs at h ⊢ with _ _ hundefined _ habsolute
  all_goals try exact absurd rfl (h _)
  all_goals
    refine congrArg Step.change ?_
    unfold Relocation.store Relocation.value Relocation.moved relocationAt
    rw [if_neg (not_pcRelative_of_stored hstored).1]
    refine congrArg (Store.mk _ _) ?_
    dsimp only
  · rw [if_neg fun hdefined => hdefined.2 habsolute]
    bv_omega
  · rw [if_pos ⟨hundefined, habsolute⟩]
    bv_omega

theorem sectionSteps_of_not_refused {header : Nat} (hloaded : RelocatesLoaded data header)
    (h : ∀ result, Step.refuse result ∉ sectionSteps target data info loadBias header) :
    sectionSteps target data info loadBias header = entrySteps target data info loadBias header := by
  obtain ⟨⟨htype, htarget⟩, hallocated⟩ := hloaded
  unfold sectionSteps at h ⊢
  rw [if_neg (not_not.2 htype), if_neg (Nat.not_le_of_lt htarget), if_neg hallocated] at h ⊢
  split_ifs at h ⊢
  · exact absurd List.mem_cons_self (h _)
  · exact absurd List.mem_cons_self (h _)
  · exact absurd List.mem_cons_self (h _)
  · rfl

/-- Where no round is a refusal, every entry is skipped or makes its store. -/
theorem relocation_skipped_or_stored (h : ∀ result, Step.refuse result ∉ relocationSteps target data info loadBias) {r : Relocation}
    (hr : r ∈ relocations data) :
    relocationSkipped r.type = true ∨ relocationStored r.type = true ∧
      Step.change (r.store info loadBias) ∈ relocationSteps target data info loadBias := by
  obtain ⟨index, hindex, hr⟩ := List.mem_flatMap.1 hr
  split at hr
  · rename_i hloaded
    obtain ⟨entry, hentry, rfl⟩ := List.mem_map.1 hr
    have hsection : ∀ result, Step.refuse result ∉ sectionSteps target data info loadBias (sectionAt data index) :=
      fun result hmem => h result (List.mem_flatMap.2 ⟨index, hindex, hmem⟩)
    have hsteps := sectionSteps_of_not_refused hloaded hsection
    have hmem := List.mem_map_of_mem (f := fun entry => entryStep target data info loadBias
      (u32At data (symbolHeader data (sectionAt data index) + 16)) (u32At data (symbolHeader data (sectionAt data index) + 20))
      ((u32At data (sectionAt data index + 16)).toNat + entry * 12)) hentry
    rcases entryStep_of_not_refused fun result heq => hsection result (by rw [hsteps, entrySteps, ← heq]; exact hmem) with
      hskip | ⟨hstored, hstep⟩
    · exact Or.inl hskip
    · refine Or.inr ⟨hstored, List.mem_flatMap.2 ⟨index, hindex, ?_⟩⟩
      rw [hsteps, entrySteps, ← hstep]
      exact hmem
  · cases hr

/-- The stores that are made have the kinds that are stored. -/
theorem type_of_mem_steps {store : Store} (h : Step.change store ∈ relocationSteps target data info loadBias) :
    relocationStored store.type = true := by
  obtain ⟨symbolOffset, symbolSize, relocation, hentry⟩ := exists_entry_of_mem_steps h
  unfold entryStep at hentry
  dsimp only at hentry
  split_ifs at hentry with _ hstored
  all_goals
    rw [← Step.change.inj hentry]
    exact (Bool.not_eq_false _).mp hstored

/-! ## Rebasing the fields -/

/-- No store but its own reaches into the field of an entry. -/
def Separate (target : Target) (data : List (BitVec 8)) (info : ElfInfo) (loadBias : BitVec 32) : Prop :=
  ∀ r ∈ relocations data, ∀ store ∈ relocationStores target data info loadBias,
    Overlaps (fieldOffset info r) (Relocation.width r.type) store → store = r.store info loadBias

instance : Decidable (Separate target data info loadBias) := by
  unfold Separate
  infer_instance

/-- Every field that encoded its value encodes the value for the moved image. -/
def Rebased (data : List (BitVec 8)) (info : ElfInfo) (loadBias : BitVec 32) (image image' : Image) : Prop :=
  ∀ r ∈ relocations data, ∀ source, Relocation.Source (relocations data) r source →
    Encodes info image r source.value → Encodes info image' r (source.moved loadBias).value

/-- The symbol of every PC-relative value that a field encoded is defined in a section, or the field holds the same bits for the value
less the bias. -/
def SymbolsMove (data : List (BitVec 8)) (info : ElfInfo) (loadBias : BitVec 32) (image : Image) : Prop :=
  ∀ r ∈ relocations data, ∀ source, Relocation.Source (relocations data) r source →
    Relocation.PcRelative r.type ∨ Relocation.Partner r.type → Encodes info image r source.value →
      source.SymbolDefined ∨ valueBits r.type (source.moved loadBias).value = valueBits r.type source.value

/-- The value of a PC-relative entry whose symbol is defined in a section does not change. -/
theorem value_moved {source : Relocation} (hrelative : Relocation.PcRelative source.type) (hdefined : source.SymbolDefined) :
    (source.moved loadBias).value = source.value := by
  unfold Relocation.value Relocation.moved
  dsimp only
  rw [if_pos hrelative, if_pos hrelative, if_pos hdefined]
  bv_omega

/-- After relocations that succeed, where no store but its own reaches into a field, the fields are rebased exactly when the symbols
of the PC-relative values move. -/
theorem relocations_rebased_iff (hinspect : loaderElfInspect target data Image.blank = .done info .blank) (hbias : loadBias ≠ 0)
    {image image' : Image} (happly : applyRelocations target data info loadBias image = .done () image')
    (hseparate : Separate target data info loadBias) :
    Rebased data info loadBias image image' ↔ SymbolsMove data info loadBias image := by
  have haccepted := ((loaderElfInspect_meets target data Image.blank).of_done hinspect).2
  obtain ⟨rfl, hnone⟩ := (applyRelocations_meets haccepted.header_le haccepted.sections loadBias image).of_done happly
  have hnone := hnone hbias
  have hstores : relocationStores target data info loadBias = changes (relocationSteps target data info loadBias) := by
    rw [relocationStores, if_neg hbias]
  -- A field that no store may write is left.
  have hleft : ∀ r ∈ relocations data, relocationStored r.type = false → ∀ value,
      Encodes info (storeAll (relocationStores target data info loadBias) image) r value ↔ Encodes info image r value := by
    intro r hr hskipped value
    refine encodes_storeAll_of_not_overlaps fun store hstore hoverlaps => ?_
    have htype := type_of_mem_steps (mem_of_mem_changes (hstores ▸ hstore))
    rw [hseparate r hr store hstore hoverlaps] at htype
    exact absurd (hskipped.symm.trans htype) (by decide)
  constructor
  · intro hrebased r hr source hsource hkind hbefore
    refine Or.inr ?_
    have hstored : relocationStored r.type = false := by
      cases hstored : relocationStored r.type with
      | false => rfl
      | true =>
        obtain ⟨hrelative, hpartner⟩ := not_pcRelative_of_stored hstored
        exact (hkind.elim hrelative hpartner).elim
    have hafter := (hleft r hr hstored _).1 (hrebased r hr source hsource hbefore)
    exact hafter.symm.trans hbefore
  · intro hmove r hr source hsource hbefore
    rcases relocation_skipped_or_stored hnone hr with hskipped | ⟨hstored, hmem⟩
    · have hstored : relocationStored r.type = false := by
        unfold relocationSkipped at hskipped
        simp only [List.mem_cons, List.not_mem_nil, or_false, decide_eq_true_eq] at hskipped
        rcases hskipped with htype | htype | htype | htype | htype | htype | htype | htype | htype <;> rw [htype] <;> decide
      refine (hleft r hr hstored _).2 ?_
      by_cases hkind : Relocation.PcRelative r.type ∨ Relocation.Partner r.type
      · rcases hmove r hr source hsource hkind hbefore with hdefined | hsame
        · have hrelative : Relocation.PcRelative source.type := by
            unfold Relocation.Source at hsource
            split at hsource
            · rw [hsource.2.1]
              decide
            · rename_i hpartner
              rw [hsource]
              exact hkind.resolve_right hpartner
          rwa [value_moved hrelative hdefined]
        · exact hbefore.trans hsame.symm
      · unfold relocationSkipped at hskipped
        simp only [List.mem_cons, List.not_mem_nil, or_false, decide_eq_true_eq] at hskipped
        have hempty : r.type = 0 ∨ r.type = 51 := by
          rcases hskipped with htype | htype | htype | htype | htype | htype | htype | htype | htype <;> rw [htype] at hkind ⊢
          all_goals revert hkind; decide
        unfold Encodes
        rw [fieldBits_of_empty hempty, valueBits_of_empty hempty]
    · have hsource : source = r := by
        unfold Relocation.Source at hsource
        rwa [if_neg (not_pcRelative_of_stored hstored).2] at hsource
      subst hsource
      refine encodes_storeAll_self hstored ?_ (hseparate source hr)
      rw [hstores]
      exact mem_changes_of_no_refuse hnone hmem

/-- A word of eight bytes at address 16 with an absolute relocation of the first four to section 2, loaded at another address. -/
theorem relocations_rebased_small :
    ∃ image', applyRelocations .bits32 (smallElf 16 8 [] 16 2 16 1) (smallInfo 16 8) 0x1000 .blank = .done () image' ∧
      Rebased (smallElf 16 8 [] 16 2 16 1) (smallInfo 16 8) 0x1000 .blank image' := by
  have hdone : (applyRelocations .bits32 (smallElf 16 8 [] 16 2 16 1) (smallInfo 16 8) 0x1000 Image.blank).value? = some () := by
    decide +kernel
  obtain ⟨image', hdone⟩ := Ending.eq_done_of_value? hdone
  refine ⟨image', hdone, ?_⟩
  rw [relocations_rebased_iff (inspect_done (by decide +kernel)) (by decide) hdone (by decide +kernel)]
  have hrelocations : relocations (smallElf 16 8 [] 16 2 16 1) = [⟨16, 1, 16, 2, 0⟩] := by decide +kernel
  intro r hr source _ hkind
  rw [hrelocations, List.mem_singleton] at hr
  subst hr
  exact absurd hkind (by decide)

/-- The instruction `jal x0, -16` at address 16 jumps to an absolute symbol of value 0. It is left, and jumps elsewhere once it has
moved. -/
theorem relocations_not_rebased :
    loaderElfInspect .bits32 (smallElf 16 8 (bytes32 0xff1ff06f) 0 0xfff1 16 17) Image.blank = .done (smallInfo 16 8) .blank ∧
      ∃ image', applyRelocations .bits32 (smallElf 16 8 (bytes32 0xff1ff06f) 0 0xfff1 16 17) (smallInfo 16 8) 0x1000
          (Image.blank.copy 0 (bytes32 0xff1ff06f)) = .done () image' ∧
        ¬Rebased (smallElf 16 8 (bytes32 0xff1ff06f) 0 0xfff1 16 17) (smallInfo 16 8) 0x1000
          (Image.blank.copy 0 (bytes32 0xff1ff06f)) image' := by
  refine ⟨inspect_done (by decide +kernel), ?_⟩
  have hrelocations : relocations (smallElf 16 8 (bytes32 0xff1ff06f) 0 0xfff1 16 17) = [⟨16, 17, 0, 0xfff1, 0⟩] := by
    decide +kernel
  have hword : ((applyRelocations .bits32 (smallElf 16 8 (bytes32 0xff1ff06f) 0 0xfff1 16 17) (smallInfo 16 8) 0x1000
      (Image.blank.copy 0 (bytes32 0xff1ff06f))).state?.map fun image => image.readU32 0) = some 0xff1ff06f := by
    decide +kernel
  have hdone : (applyRelocations .bits32 (smallElf 16 8 (bytes32 0xff1ff06f) 0 0xfff1 16 17) (smallInfo 16 8) 0x1000
      (Image.blank.copy 0 (bytes32 0xff1ff06f))).value? = some () := by
    decide +kernel
  obtain ⟨image', hdone⟩ := Ending.eq_done_of_value? hdone
  refine ⟨image', hdone, fun hrebased => ?_⟩
  rw [hdone] at hword
  have hword : image'.readU32 0 = 0xff1ff06f := Option.some.inj hword
  have hmem : (⟨16, 17, 0, 0xfff1, 0⟩ : Relocation) ∈
      relocations (smallElf 16 8 (bytes32 0xff1ff06f) 0 0xfff1 16 17) := by
    rw [hrelocations]
    exact List.mem_singleton_self _
  have hafter : jalImmediate (image'.readU32 0) = 0 - 0x1010 := hrebased _ hmem _ rfl (by decide +kernel)
  rw [hword] at hafter
  exact absurd hafter (by decide)

end Loader
end TabOS
