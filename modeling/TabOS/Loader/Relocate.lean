import TabOS.Loader.Inspect

/-!
# What relocating an accepted file does

For an accepted file, `apply_relocations` goes through a list of rounds that is a function of the file: for each entry of each
relocation section of a loaded section, nothing, a refusal or a store; and for each section whose tables are not in order, a refusal.
-/

namespace TabOS
namespace Loader

open Library Library.Program

variable {target : Target} {data : List (BitVec 8)} {info : ElfInfo} {loadBias : BitVec 32}

/-! ## The rounds as data -/

/-- The round of `apply_relocations` at a relocation entry. -/
def entryStep (target : Target) (data : List (BitVec 8)) (info : ElfInfo) (loadBias : BitVec 32)
    (symbolOffset symbolSize : BitVec 32) (relocation : Nat) : Step ElfResult Store :=
  let type := u32At data (relocation + 4) &&& 0xff
  let symbolIndex := u32At data (relocation + 4) >>> 8
  let symbol := symbolOffset.toNat + symbolIndex.toNat * 16
  let symbolSection := u16At data (symbol + 14)
  if relocationSkipped type then .skip
  else if relocationStored type = false then .refuse .unsupportedRelocation
  else if targetRefused target info (u32At data relocation) then .refuse .unsupportedRelocation
  else if symbolSize / 16 ≤ symbolIndex then .refuse .unsupportedRelocation
  else if symbolSection = 0 then .refuse .unsupportedRelocation
  else if sectionCount data ≤ symbolSection ∧ symbolSection ≠ 0xfff1 then .refuse .unsupportedRelocation
  else .change {
    offset := (u32At data relocation - info.minimumAddress).toNat
    type := type
    value := (if symbolSection = 0xfff1 then 0 else loadBias) + u32At data (symbol + 4) + u32At data (relocation + 8) }

/-- The header of the section that a section's relocations are for. -/
def targetHeader (data : List (BitVec 8)) (header : Nat) : Nat := sectionAt data (u32At data (header + 28)).toNat

/-- The header of the symbol table of a section's relocations. -/
def symbolHeader (data : List (BitVec 8)) (header : Nat) : Nat := sectionAt data (u32At data (header + 24)).toNat

theorem targetHeader_eq (data : List (BitVec 8)) (header : Nat) :
    sectionAt data (u32At data (header + 28)).toNat = targetHeader data header := rfl

theorem symbolHeader_eq (data : List (BitVec 8)) (header : Nat) :
    sectionAt data (u32At data (header + 24)).toNat = symbolHeader data header := rfl

/-- The section holds relocations for a section there is. -/
def RelocatesSection (data : List (BitVec 8)) (header : Nat) : Prop :=
  u32At data (header + 4) = 4 ∧ (u32At data (header + 28)).toNat < (sectionCount data).toNat

/-- The section holds relocations for a loaded section. -/
def RelocatesLoaded (data : List (BitVec 8)) (header : Nat) : Prop :=
  RelocatesSection data header ∧ u32At data (targetHeader data header + 8) &&& 2 ≠ 0

instance (data : List (BitVec 8)) (header : Nat) : Decidable (RelocatesSection data header) := by
  unfold RelocatesSection
  infer_instance

instance (data : List (BitVec 8)) (header : Nat) : Decidable (RelocatesLoaded data header) := by
  unfold RelocatesLoaded
  infer_instance

/-- The symbol table of a section's relocations is one, and lies inside the input. -/
structure SymbolsValid (data : List (BitVec 8)) (header : Nat) : Prop where
  index_lt : (u32At data (header + 24)).toNat < (sectionCount data).toNat
  type : u32At data (symbolHeader data header + 4) = 2
  entrySize : u32At data (symbolHeader data header + 36) = 16
  size_ne : u32At data (symbolHeader data header + 20) ≠ 0
  aligned : u32At data (symbolHeader data header + 20) % 16 = 0
  inside : (u32At data (symbolHeader data header + 16)).toNat + (u32At data (symbolHeader data header + 20)).toNat ≤ data.length

/-- The rounds of `apply_relocations` at the entries of a section. -/
def entrySteps (target : Target) (data : List (BitVec 8)) (info : ElfInfo) (loadBias : BitVec 32) (header : Nat) :
    List (Step ElfResult Store) :=
  (List.range ((u32At data (header + 20)).toNat / 12)).map fun entry =>
    entryStep target data info loadBias (u32At data (symbolHeader data header + 16)) (u32At data (symbolHeader data header + 20))
      ((u32At data (header + 16)).toNat + entry * 12)

/-- The rounds of `apply_relocations` at a section. -/
def sectionSteps (target : Target) (data : List (BitVec 8)) (info : ElfInfo) (loadBias : BitVec 32) (header : Nat) :
    List (Step ElfResult Store) :=
  if u32At data (header + 4) ≠ 4 then []
  else if (sectionCount data).toNat ≤ (u32At data (header + 28)).toNat then [.refuse .unsupportedRelocation]
  else if u32At data (targetHeader data header + 8) &&& 2 = 0 then []
  else if (sectionCount data).toNat ≤ (u32At data (header + 24)).toNat then [.refuse .unsupportedRelocation]
  else if u32At data (symbolHeader data header + 4) ≠ 2 ∨ u32At data (symbolHeader data header + 36) ≠ 16 then
    [.refuse .unsupportedRelocation]
  else if u32At data (symbolHeader data header + 20) = 0 ∨ u32At data (symbolHeader data header + 20) % 16 ≠ 0 ∨
      rangeValid (u32At data (symbolHeader data header + 16)).toNat (u32At data (symbolHeader data header + 20)).toNat
        data.length = false then [.refuse .truncated]
  else entrySteps target data info loadBias header

/-- The rounds of `apply_relocations`. -/
def relocationSteps (target : Target) (data : List (BitVec 8)) (info : ElfInfo) (loadBias : BitVec 32) :
    List (Step ElfResult Store) :=
  (List.range (sectionCount data).toNat).flatMap fun index => sectionSteps target data info loadBias (sectionAt data index)

/-- `found_relocations` after the sections: some section holds relocations for a loaded section. -/
def relocationsFound (data : List (BitVec 8)) : Bool :=
  (List.range (sectionCount data).toNat).any fun index => decide (RelocatesLoaded data (sectionAt data index))

/-! ## The program makes the rounds -/

/-- Make a list of rounds. -/
def makeSteps (steps : List (Step ElfResult Store)) : Program ElfResult Image Unit :=
  steps.foldlM (fun _ (step : Step ElfResult Store) => step.run Store.apply) ()

theorem makeSteps_append (xs ys : List (Step ElfResult Store)) :
    makeSteps (xs ++ ys) = makeSteps xs >>= fun _ => makeSteps ys := by
  rw [makeSteps, List.foldlM_append]
  rfl

theorem makeSteps_refuse (result : ElfResult) : makeSteps [.refuse result] = refuse result := rfl

theorem applyRelocation_eq {symbolOffset symbolSize : BitVec 32} {relocation : Nat} (h : relocation + 12 ≤ data.length)
    (hinside : symbolOffset.toNat + symbolSize.toNat ≤ data.length) :
    applyRelocation target data info loadBias (sectionCount data) symbolOffset symbolSize relocation =
      (entryStep target data info loadBias symbolOffset symbolSize relocation).run Store.apply := by
  unfold applyRelocation entryStep
  simp (disch := omega) only [readU32_eq, pure_bind]
  by_cases hskip : relocationSkipped (u32At data (relocation + 4) &&& 0xff) = true
  · rw [if_pos hskip, if_pos hskip]
    rfl
  rw [if_neg hskip, if_neg hskip]
  by_cases hstored : relocationStored (u32At data (relocation + 4) &&& 0xff) = false
  · rw [if_pos hstored, if_pos hstored]
    rfl
  rw [if_neg hstored, if_neg hstored]
  by_cases htarget : targetRefused target info (u32At data relocation) = true
  · rw [if_pos htarget, if_pos htarget]
    rfl
  rw [if_neg htarget, if_neg htarget]
  by_cases hsymbol : symbolSize / (16 : BitVec 32) ≤ u32At data (relocation + 4) >>> 8
  · rw [if_pos hsymbol, if_pos hsymbol]
    rfl
  rw [if_neg hsymbol, if_neg hsymbol]
  have hlt : (u32At data (relocation + 4) >>> 8).toNat < symbolSize.toNat / 16 := by
    have hlt := BitVec.lt_def.1 (BitVec.not_le.1 hsymbol)
    rwa [BitVec.toNat_udiv] at hlt
  have hread : symbolOffset.toNat + (u32At data (relocation + 4) >>> 8).toNat * 16 + 16 ≤ data.length := by omega
  simp (disch := omega) only [readU32_eq, readU16_eq, pure_bind]
  split
  · rfl
  · split <;> rfl

/-- The loop over the entries ends, and makes a round at each entry. -/
theorem applyRelocationEntries_eq (round : BitVec 32 → Program ElfResult Image Unit) {size : BitVec 32} {fuel entry rest : Nat}
    (hsize : size.toNat = (entry + rest) * 12) (hfuel : rest < fuel) :
    applyRelocationEntries round size fuel (BitVec.ofNat 32 (entry * 12)) =
      (List.range' entry rest).foldlM (fun _ e => round (BitVec.ofNat 32 (e * 12))) () := by
  have hlt := size.isLt
  induction rest generalizing fuel entry with
  | zero =>
    obtain ⟨fuel, rfl⟩ := Nat.exists_eq_succ_of_ne_zero (Nat.ne_of_gt hfuel)
    have hend : ¬BitVec.ofNat 32 (entry * 12) < size := by bv_omega
    rw [applyRelocationEntries, if_neg hend]
    rfl
  | succ rest ih =>
    obtain ⟨fuel, rfl⟩ := Nat.exists_eq_succ_of_ne_zero (Nat.ne_of_gt (Nat.zero_lt_of_lt hfuel))
    have hmore : BitVec.ofNat 32 (entry * 12) < size := by bv_omega
    have hnext : BitVec.ofNat 32 (entry * 12) + 12 = BitVec.ofNat 32 ((entry + 1) * 12) := by bv_omega
    rw [applyRelocationEntries, if_pos hmore, hnext, ih (by omega) (Nat.lt_of_succ_lt_succ hfuel), List.range'_succ,
      List.foldlM_cons]

/-- The entries of a section lie inside it. -/
theorem SectionValid.entry_le {header entry : Nat} (h : SectionValid data header) (htype : u32At data (header + 4) = 4)
    (hentry : entry < (u32At data (header + 20)).toNat / 12) :
    (u32At data (header + 16)).toNat + entry * 12 + 12 ≤ data.length := by
  have hrange := (h.relocations htype).2.2
  omega

theorem applyEntries_eq {header : Nat} (h : SectionValid data header) (htype : u32At data (header + 4) = 4)
    (hsymbols : SymbolsValid data header) :
    applyRelocationEntries (fun used => applyRelocation target data info loadBias (sectionCount data)
        (u32At data (symbolHeader data header + 16)) (u32At data (symbolHeader data header + 20))
        ((u32At data (header + 16)).toNat + used.toNat))
        (u32At data (header + 20)) ((u32At data (header + 20)).toNat + 1) 0 =
      makeSteps (entrySteps target data info loadBias header) := by
  obtain ⟨_, haligned, _⟩ := h.relocations htype
  have hlt := (u32At data (header + 20)).isLt
  have hsize : (u32At data (header + 20)).toNat = (0 + (u32At data (header + 20)).toNat / 12) * 12 := by omega
  have hfuel : (u32At data (header + 20)).toNat / 12 < (u32At data (header + 20)).toNat + 1 := by omega
  have hloop := applyRelocationEntries_eq (fun used => applyRelocation target data info loadBias (sectionCount data)
    (u32At data (symbolHeader data header + 16)) (u32At data (symbolHeader data header + 20))
    ((u32At data (header + 16)).toNat + used.toNat)) hsize hfuel
  refine hloop.trans ?_
  rw [← List.range_eq_range', makeSteps, entrySteps, List.foldlM_map]
  refine foldlM_congr (fun _ entry hmem => ?_) _
  have hentry := List.mem_range.1 hmem
  have hused : (BitVec.ofNat 32 (entry * 12)).toNat = entry * 12 := by
    rw [BitVec.toNat_ofNat]
    exact Nat.mod_eq_of_lt (by omega)
  rw [hused]
  exact applyRelocation_eq (h.entry_le htype hentry) hsymbols.inside

/-- A round of the loop over the sections makes the rounds of the section. -/
theorem applyRelocationSection_eq (hsections : SectionsValid data) {index : Nat}
    (hindex : index < (sectionCount data).toNat) (found : Bool) :
    applyRelocationSection target data info loadBias (u32At data 32) (u16At data 46) (sectionCount data) found index =
      makeSteps (sectionSteps target data info loadBias (sectionAt data index)) >>= fun _ =>
        pure (found || decide (RelocatesLoaded data (sectionAt data index))) := by
  have hvalid := hsections index hindex
  have hheader := hvalid.header_le
  unfold applyRelocationSection sectionSteps
  simp only [sectionAt_eq]
  simp (disch := omega) only [readU32_eq, pure_bind]
  by_cases htype : u32At data (sectionAt data index + 4) ≠ 4
  · have hnone : ¬RelocatesLoaded data (sectionAt data index) := fun h => htype h.1.1
    rw [if_pos htype, if_pos htype, decide_eq_false hnone, Bool.or_false]
    rfl
  rw [if_neg htype, if_neg htype]
  by_cases htarget : (sectionCount data).toNat ≤ (u32At data (sectionAt data index + 28)).toNat
  · rw [if_pos htarget, if_pos htarget]
    rfl
  have htargetHeader := (hsections _ (Nat.lt_of_not_le htarget)).header_le
  rw [if_neg htarget, if_neg htarget]
  simp only [targetHeader_eq] at htargetHeader ⊢
  simp (disch := omega) only [readU32_eq, pure_bind]
  by_cases hloaded : u32At data (targetHeader data (sectionAt data index) + 8) &&& 2 = 0
  · have hnone : ¬RelocatesLoaded data (sectionAt data index) := fun h => h.2 hloaded
    rw [if_pos hloaded, if_pos hloaded, decide_eq_false hnone, Bool.or_false]
    rfl
  have hfound : RelocatesLoaded data (sectionAt data index) := ⟨⟨not_not.1 htype, Nat.lt_of_not_le htarget⟩, hloaded⟩
  rw [if_neg hloaded, if_neg hloaded, decide_eq_true hfound, Bool.or_true]
  by_cases hsymbol : (sectionCount data).toNat ≤ (u32At data (sectionAt data index + 24)).toNat
  · rw [if_pos hsymbol, if_pos hsymbol]
    rfl
  have hsymbolHeader := (hsections _ (Nat.lt_of_not_le hsymbol)).header_le
  rw [if_neg hsymbol, if_neg hsymbol]
  simp only [symbolHeader_eq] at hsymbolHeader ⊢
  simp (disch := omega) only [readU32_eq, pure_bind]
  split
  · rfl
  · rename_i htable
    split
    · rfl
    · rename_i hsize
      simp only [not_or, not_not, ne_eq, Bool.not_eq_false] at htable hsize
      have hsymbols : SymbolsValid data (sectionAt data index) :=
        ⟨Nat.lt_of_not_le hsymbol, htable.1, htable.2, hsize.1, hsize.2.1, rangeValid_iff.1 hsize.2.2⟩
      rw [applyEntries_eq hvalid (not_not.1 htype) hsymbols]

/-- `apply_relocations` makes the rounds of the file and is refused when no section holds relocations for a loaded one. -/
theorem applyRelocations_eq (hlength : 52 ≤ data.length) (hsections : SectionsValid data) (hbias : loadBias ≠ 0) :
    applyRelocations target data info loadBias =
      makeSteps (relocationSteps target data info loadBias) >>= fun _ =>
        if relocationsFound data then pure () else refuse .unsupportedRelocation := by
  have hloop : ∀ n ≤ (sectionCount data).toNat, (List.range n).foldlM
      (applyRelocationSection target data info loadBias (u32At data 32) (u16At data 46) (sectionCount data)) false =
        makeSteps ((List.range n).flatMap fun index => sectionSteps target data info loadBias (sectionAt data index)) >>=
          fun _ => pure ((List.range n).any fun index => decide (RelocatesLoaded data (sectionAt data index))) := by
    intro n hn
    induction n with
    | zero => rfl
    | succ n ih =>
      rw [List.range_succ, List.foldlM_append, ih (Nat.le_of_succ_le hn), List.flatMap_append, makeSteps_append, bind_assoc,
        bind_assoc]
      refine bind_congr fun _ => ?_
      rw [pure_bind, List.foldlM_cons, applyRelocationSection_eq hsections hn, List.flatMap_singleton, List.any_append,
        bind_assoc]
      refine bind_congr fun _ => ?_
      simp only [List.any_cons, List.any_nil, Bool.or_false, List.foldlM_nil, pure_bind]
  unfold applyRelocations
  simp (disch := omega) only [readU32_eq, readU16_eq, pure_bind]
  rw [if_neg hbias]
  simp only [sectionCount_eq]
  rw [hloop _ (Nat.le_refl _), bind_assoc]
  simp only [pure_bind]
  rfl

theorem applyRelocations_zero (hlength : 52 ≤ data.length) : applyRelocations target data info 0 = pure () := by
  unfold applyRelocations
  simp (disch := omega) only [readU32_eq, readU16_eq, pure_bind]
  rw [if_pos trivial]

/-- The stores that `apply_relocations` makes, in order. -/
def relocationStores (target : Target) (data : List (BitVec 8)) (info : ElfInfo) (loadBias : BitVec 32) : List Store :=
  if loadBias = 0 then [] else changes (relocationSteps target data info loadBias)

/-- The image after some stores. -/
def storeAll (stores : List Store) (image : Image) : Image := stores.foldl (fun image store => store.apply image) image

/-- `apply_relocations` makes its stores, and where it returns with a bias no round is a refusal. -/
theorem applyRelocations_meets (hlength : 52 ≤ data.length) (hsections : SectionsValid data) (loadBias : BitVec 32)
    (image : Image) :
    (applyRelocations target data info loadBias).Meets image
      (fun _ image' => image' = storeAll (relocationStores target data info loadBias) image ∧
        (loadBias ≠ 0 → ∀ result, Step.refuse result ∉ relocationSteps target data info loadBias))
      fun _ image' => image' = storeAll (relocationStores target data info loadBias) image := by
  unfold relocationStores
  by_cases hbias : loadBias = 0
  · subst hbias
    rw [applyRelocations_zero hlength, if_pos rfl]
    exact ⟨rfl, fun h => absurd rfl h⟩
  · rw [applyRelocations_eq hlength hsections hbias, if_neg hbias, meets_bind]
    refine (meets_steps Store.apply image (relocationSteps target data info loadBias)).mono ?_ ?_
    · rintro _ image' ⟨himage, hnone⟩
      exact meets_ite (fun _ => ⟨himage, fun _ => hnone⟩) fun _ => himage
    · rintro _ image' ⟨himage, _⟩
      exact himage

end Loader
end TabOS
