import TabOS.Loader.Rebase

/-!
# What the stored fields encode

The fields that `apply_relocations` stores, read the way a processor reads them: `lui` takes the upper twenty bits of a word, and the
instructions of the `I` and `S` formats add a sign-extended immediate of twelve.
-/

namespace TabOS
namespace Loader

open Library Library.Program

/-! ## The immediates -/

/-- What `lui` loads. -/
def luiValue (word : BitVec 32) : BitVec 32 := word.extractLsb' 12 20 ++ 0#12

/-- The sign-extended immediate of an `I` instruction. -/
def immediateI (word : BitVec 32) : BitVec 32 := (word.extractLsb' 20 12).signExtend 32

/-- The sign-extended immediate of an `S` instruction. -/
def immediateS (word : BitVec 32) : BitVec 32 := (word.extractLsb' 25 7 ++ word.extractLsb' 7 5).signExtend 32

/-- The sign-extended immediate of the field of a low part: `LO12_I` is of an `I` instruction and `LO12_S` of an `S` instruction. -/
def lowImmediate (type word : BitVec 32) : BitVec 32 := if type = 27 then immediateI word else immediateS word

/-- The bits of a word that are the field of a kind. -/
def fieldMask (type : BitVec 32) : BitVec 32 :=
  if type = 1 then 0xffffffff else if type = 26 then 0xfffff000 else if type = 27 then 0xfff00000 else 0xfe000f80

theorem luiValue_toNat (word : BitVec 32) : (luiValue word).toNat = word.toNat / 4096 * 4096 := by
  have hlt := word.isLt
  unfold luiValue
  rw [BitVec.toNat_append, BitVec.extractLsb'_toNat, BitVec.toNat_ofNat, Nat.zero_mod, Nat.or_zero, Nat.shiftRight_eq_div_pow,
    Nat.shiftLeft_eq, Nat.mod_eq_of_lt (by omega)]

theorem signExtend_low_toNat (value : BitVec 32) : ((value.extractLsb' 0 12).signExtend 32).toNat =
    value.toNat % 4096 + if 2048 ≤ value.toNat % 4096 then 4294963200 else 0 := by
  have hlow : (value.extractLsb' 0 12).toNat = value.toNat % 4096 := by
    rw [BitVec.extractLsb'_toNat, Nat.shiftRight_zero]
  have hmsb : (value.extractLsb' 0 12).msb = decide (2048 ≤ value.toNat % 4096) := by
    rw [BitVec.msb_eq_decide, hlow]
  rw [BitVec.toNat_signExtend, BitVec.toNat_setWidth, hmsb, hlow, Nat.mod_eq_of_lt (by omega)]
  simp only [decide_eq_true_eq]

/-- The upper part of a value, rounded, and the sign extension of its lower part add up to the value. -/
theorem rounded_add_signExtend (value : BitVec 32) :
    luiValue (value + 0x800) + (value.extractLsb' 0 12).signExtend 32 = value := by
  have hlt := value.isLt
  apply BitVec.eq_of_toNat_eq
  rw [BitVec.toNat_add, luiValue_toNat, signExtend_low_toNat, BitVec.toNat_add]
  show ((value.toNat + 2048) % 4294967296 / 4096 * 4096 + _) % 4294967296 = value.toNat
  split <;> omega

/-! ## The words that are stored -/

theorem luiValue_relocatedWord (value word : BitVec 32) : luiValue (relocatedWord 26 value word) = luiValue (value + 0x800) := by
  show luiValue ((word &&& 0x00000fff) ||| ((value + 0x800) &&& 0xfffff000)) = _
  generalize value + 0x800 = rounded
  refine congrArg (fun upper : BitVec 20 => upper ++ 0#12) ?_
  ext i hi
  interval_cases i <;> simp

/-- A relocated low part is that of the value. -/
theorem lowImmediate_relocatedWord {type : BitVec 32} (htype : type = 27 ∨ type = 28) (value word : BitVec 32) :
    lowImmediate type (relocatedWord type value word) = (value.extractLsb' 0 12).signExtend 32 := by
  rcases htype with rfl | rfl
  · refine congrArg (BitVec.signExtend 32) ?_
    show ((word &&& 0x000fffff) ||| ((value &&& 0x00000fff) <<< 20)).extractLsb' 20 12 = _
    ext i hi
    interval_cases i <;> simp
  · have hhigh : ((word &&& ~~~(0xfe000f80 : BitVec 32)) ||| ((value &&& 0x00000fe0) <<< 20) |||
        ((value &&& 0x0000001f) <<< 7)).extractLsb' 25 7 = value.extractLsb' 5 7 := by
      ext i hi
      interval_cases i <;> simp
    have hlow : ((word &&& ~~~(0xfe000f80 : BitVec 32)) ||| ((value &&& 0x00000fe0) <<< 20) |||
        ((value &&& 0x0000001f) <<< 7)).extractLsb' 7 5 = value.extractLsb' 0 5 := by
      ext i hi
      interval_cases i <;> simp
    have hwhole : value.extractLsb' 5 7 ++ value.extractLsb' 0 5 = value.extractLsb' 0 12 :=
      BitVec.extractLsb'_append_extractLsb'_eq_extractLsb' rfl
    refine congrArg (BitVec.signExtend 32) (Eq.trans ?_ hwhole)
    exact congrArg₂ (· ++ ·) hhigh hlow

/-- The bits outside a field are left. -/
theorem relocatedWord_outside {type : BitVec 32} (hstored : relocationStored type = true) (value word : BitVec 32) :
    relocatedWord type value word &&& ~~~fieldMask type = word &&& ~~~fieldMask type := by
  unfold relocationStored at hstored
  simp only [List.mem_cons, List.not_mem_nil, or_false, decide_eq_true_eq] at hstored
  rcases hstored with rfl | rfl | rfl | rfl
  · show value &&& 0#32 = word &&& 0#32
    rw [BitVec.and_zero, BitVec.and_zero]
  · show ((word &&& 0x00000fff) ||| ((value + 0x800) &&& 0xfffff000)) &&& ~~~(0xfffff000 : BitVec 32) =
      word &&& ~~~(0xfffff000 : BitVec 32)
    generalize value + 0x800 = rounded
    ext i hi
    interval_cases i <;> simp
  · show ((word &&& 0x000fffff) ||| ((value &&& 0x00000fff) <<< 20)) &&& ~~~(0xfff00000 : BitVec 32) =
      word &&& ~~~(0xfff00000 : BitVec 32)
    ext i hi
    interval_cases i <;> simp
  · show ((word &&& ~~~(0xfe000f80 : BitVec 32)) ||| ((value &&& 0x00000fe0) <<< 20) ||| ((value &&& 0x0000001f) <<< 7)) &&&
      ~~~(0xfe000f80 : BitVec 32) = word &&& ~~~(0xfe000f80 : BitVec 32)
    ext i hi
    interval_cases i <;> simp

/-! ## The image after the relocations -/

/-- A store after some of the stores, into whose word none of the later ones reaches. -/
def LastAt (stores before : List Store) (store : Store) : Prop :=
  ∃ after, stores = before ++ store :: after ∧ ∀ later ∈ after, ¬Overlaps store.offset 4 later

/-- What the fields of an image hold after some stores: an absolute word holds its value, an upper part and a low part of one value add
up to it, the bits outside a field are left, and so are the bytes outside the words. -/
structure Encoded (stores : List Store) (image image' : Image) : Prop where
  word : ∀ before store, LastAt stores before store → store.type = 1 → image'.readU32 store.offset = store.value
  pair : ∀ before upper before' lower, LastAt stores before upper → LastAt stores before' lower → upper.type = 26 →
    (lower.type = 27 ∨ lower.type = 28) → lower.value = upper.value →
    luiValue (image'.readU32 upper.offset) + lowImmediate lower.type (image'.readU32 lower.offset) = upper.value
  outside : ∀ before store, LastAt stores before store → image'.readU32 store.offset &&& ~~~fieldMask store.type =
    (storeAll before image).readU32 store.offset &&& ~~~fieldMask store.type
  others : ∀ a, (∀ store ∈ stores, a < store.offset ∨ store.offset + 4 ≤ a) → image'.bytes a = image.bytes a

variable {target : Target} {data : List (BitVec 8)} {info : ElfInfo} {loadBias : BitVec 32} {stores before : List Store}
  {store : Store} {image : Image}

theorem readU32_apply_of_not_overlaps {offset : Nat} (h : ¬Overlaps offset 4 store) :
    (store.apply image).readU32 offset = image.readU32 offset := by
  unfold Overlaps at h
  unfold Image.readU32
  rw [Store.apply_bytes (by omega), Store.apply_bytes (by omega), Store.apply_bytes (by omega), Store.apply_bytes (by omega)]

theorem readU32_storeAll_of_not_overlaps {offset : Nat} (h : ∀ store ∈ stores, ¬Overlaps offset 4 store) :
    (storeAll stores image).readU32 offset = image.readU32 offset := by
  induction stores generalizing image with
  | nil => rfl
  | cons store stores ih =>
    obtain ⟨hstore, hrest⟩ := List.forall_mem_cons.1 h
    exact (ih hrest).trans (readU32_apply_of_not_overlaps hstore)

/-- The word of a store after which no other reaches into it. -/
theorem LastAt.readU32 (h : LastAt stores before store) (image : Image) : (storeAll stores image).readU32 store.offset =
    relocatedWord store.type store.value ((storeAll before image).readU32 store.offset) := by
  obtain ⟨after, rfl, hafter⟩ := h
  have hsplit : storeAll (before ++ store :: after) image = storeAll after (store.apply (storeAll before image)) := by
    rw [storeAll, List.foldl_append]
    rfl
  rw [hsplit, readU32_storeAll_of_not_overlaps hafter, Store.apply, readU32_writeU32]

theorem storeAll_bytes {a : Nat} (h : ∀ store ∈ stores, a < store.offset ∨ store.offset + 4 ≤ a) :
    (storeAll stores image).bytes a = image.bytes a := by
  induction stores generalizing image with
  | nil => rfl
  | cons store stores ih =>
    obtain ⟨hstore, hrest⟩ := List.forall_mem_cons.1 h
    exact (ih hrest).trans (Store.apply_bytes hstore)

/-- Stores of the kinds that are stored encode their values. -/
theorem encoded_storeAll (hstored : ∀ store ∈ stores, relocationStored store.type = true) (image : Image) :
    Encoded stores image (storeAll stores image) := by
  have hmem : ∀ {before store}, LastAt stores before store → store ∈ stores := by
    rintro before store ⟨after, rfl, -⟩
    exact List.mem_append_right _ List.mem_cons_self
  refine ⟨fun before store h htype => ?_, fun before upper before' lower h h' htype htype' hvalue => ?_, fun before store h => ?_,
    fun a h => storeAll_bytes h⟩
  · rw [h.readU32, htype]
    rfl
  · rw [h.readU32, h'.readU32, htype, luiValue_relocatedWord, lowImmediate_relocatedWord htype', hvalue]
    exact rounded_add_signExtend upper.value
  · rw [h.readU32]
    exact relocatedWord_outside (hstored store (hmem h)) _ _

/-- For an accepted file and any bias, the image that `apply_relocations` leaves encodes the values of its stores. -/
theorem applyRelocations_encodes (target : Target) (data : List (BitVec 8)) (info : ElfInfo) (loadBias : BitVec 32)
    (hinspect : loaderElfInspect target data Image.blank = .done info .blank) (image : Image) :
    (applyRelocations target data info loadBias).Meets image
      (fun _ image' => Encoded (relocationStores target data info loadBias) image image')
      fun _ image' => Encoded (relocationStores target data info loadBias) image image' := by
  have haccepted := ((loaderElfInspect_meets target data Image.blank).of_done hinspect).2
  have hstored : ∀ store ∈ relocationStores target data info loadBias, relocationStored store.type = true := by
    intro store hmem
    unfold relocationStores at hmem
    split_ifs at hmem
    · exact absurd hmem List.not_mem_nil
    · exact type_of_mem_steps (mem_of_mem_changes hmem)
  refine (applyRelocations_meets haccepted.header_le haccepted.sections loadBias image).mono ?_ ?_
  · rintro _ image' ⟨rfl, -⟩
    exact encoded_storeAll hstored image
  · rintro _ image' rfl
    exact encoded_storeAll hstored image

/-- A word of eight bytes at address 16, with an absolute relocation of the first four to section 2, moved to another address. -/
theorem applyRelocations_encodes_small :
    (applyRelocations .bits32 (smallElf 16 8 [] 16 2 16 1) (smallInfo 16 8) 0x1000).Meets Image.blank
      (fun _ image' => Encoded (relocationStores .bits32 (smallElf 16 8 [] 16 2 16 1) (smallInfo 16 8) 0x1000) .blank image')
      fun _ image' => Encoded (relocationStores .bits32 (smallElf 16 8 [] 16 2 16 1) (smallInfo 16 8) 0x1000) .blank image' := by
  have hinspect : loaderElfInspect .bits32 (smallElf 16 8 [] 16 2 16 1) Image.blank = .done (smallInfo 16 8) .blank :=
    inspect_done (by decide +kernel)
  generalize smallElf 16 8 [] 16 2 16 1 = data at hinspect ⊢
  exact applyRelocations_encodes .bits32 data (smallInfo 16 8) 0x1000 hinspect .blank

end Loader
end TabOS
