import TabOS.Fs.Path

/-!
# What path normalisation computes

Each operation on the buffer takes the spelling of some components to the spelling of others; consuming a path resolves its names
one after another, and stops exactly where a step does not fit.
-/

namespace TabOS
namespace Fs

open Library

/-! ## Names and their resolution -/

@[simp] theorem names_nil : names [] = [] := rfl

/-- The names on both sides of a separator. -/
theorem names_append_separator (before after : List UInt8) : names (before ++ separator :: after) = names before ++ names after := by
  rw [names, List.splitOn_append_cons_self, List.filter_append]
  rfl

@[simp] theorem names_separator (path : List UInt8) : names (separator :: path) = names path :=
  names_append_separator [] path

/-- Leading separators do not matter. -/
theorem names_dropWhile (path : List UInt8) : names (path.dropWhile (· = separator)) = names path := by
  induction path with
  | nil => rfl
  | cons byte path ih =>
    by_cases hbyte : byte = separator
    · rw [List.dropWhile_cons_of_pos (by simpa using hbyte), ih, hbyte, names_separator]
    · rw [List.dropWhile_cons_of_neg (by simpa using hbyte)]

/-- A text without separators is one name. -/
theorem names_single {name : List UInt8} (hne : name ≠ []) (hname : separator ∉ name) : names name = [name] := by
  rw [names, List.splitOn_eq_singleton hname, List.filter_cons_of_pos (by simpa using hne), List.filter_nil]

/-- The name that a path starts with, and the names of what follows it. -/
theorem names_component {name rest : List UInt8} (hne : name ≠ []) (hname : separator ∉ name)
    (hrest : rest = [] ∨ rest.head? = some separator) : names (name ++ rest) = name :: names rest := by
  cases rest with
  | nil => rw [List.append_nil, names_single hne hname, names_nil]
  | cons byte rest =>
    rcases hrest with hnil | hhead
    · exact absurd hnil (List.cons_ne_nil _ _)
    · obtain rfl := Option.some.inj hhead
      rw [names_append_separator, names_single hne hname, names_separator]
      rfl

/-- The names of the components of a canonical path are the components. -/
theorem names_intercalate {components : List (List UInt8)} (h : ∀ name ∈ components, ValidName name) :
    names ([separator].intercalate components) = components := by
  by_cases hne : components = []
  · subst hne
    rfl
  · rw [names, List.splitOn_intercalate separator (fun name hmem => (h name hmem).unseparated) hne, List.filter_eq_self]
    exact fun name hmem => by simpa using (h name hmem).nonempty

theorem resolve_append (components before after : List (List UInt8)) :
    resolve components (before ++ after) = resolve (resolve components before) after := List.foldl_append

/-- A valid name is one more component. -/
theorem resolveName_valid {name : List UInt8} (h : ValidName name) (components : List (List UInt8)) :
    resolveName components name = components ++ [name] := by
  rw [resolveName, if_neg h.not_dot, if_neg h.not_dots]

/-- Valid names are components. -/
theorem resolve_valid {new : List (List UInt8)} (h : ∀ name ∈ new, ValidName name) (components : List (List UInt8)) :
    resolve components new = components ++ new := by
  induction new generalizing components with
  | nil => exact (List.append_nil _).symm
  | cons name new ih =>
    show resolve (resolveName components name) new = _
    rw [resolveName_valid (h name List.mem_cons_self), ih fun name hmem => h name (List.mem_cons_of_mem _ hmem), List.append_assoc]
    rfl

/-! ## Spelling -/

theorem length_spell (drive : UInt8) (components : List (List UInt8)) :
    (spell drive components).length = ([separator].intercalate components).length + 3 := rfl

/-- What stands between the spelling of some components and one more. -/
def gapBytes (components : List (List UInt8)) : List UInt8 := if components = [] then [] else [separator]

theorem spell_snoc (drive : UInt8) (components : List (List UInt8)) (name : List UInt8) :
    spell drive (components ++ [name]) = spell drive components ++ gapBytes components ++ name := by
  suffices h : [separator].intercalate (components ++ [name]) = [separator].intercalate components ++ gapBytes components ++ name by
    rw [spell, spell, h]
    rfl
  induction components with
  | nil =>
    rw [List.nil_append, List.intercalate_singleton]
    rfl
  | cons first components ih =>
    cases components with
    | nil =>
      rw [List.cons_append, List.nil_append, List.intercalate_cons_cons, List.intercalate_singleton, List.intercalate_singleton]
      rfl
    | cons second components =>
      rw [List.cons_append, List.cons_append, List.intercalate_cons_cons, List.intercalate_cons_cons, ← List.cons_append, ih]
      simp only [gapBytes, List.cons_ne_nil, if_false, List.append_assoc]

theorem length_spell_gt {components : List (List UInt8)} (h : ∀ name ∈ components, ValidName name) (drive : UInt8) :
    (spell drive components).length > 3 ↔ components ≠ [] := by
  rw [length_spell]
  cases components with
  | nil => exact ⟨fun h => absurd h (by decide), fun h => absurd rfl h⟩
  | cons name components =>
    have hlen := List.length_pos_of_ne_nil (h name List.mem_cons_self).nonempty
    refine ⟨fun _ => List.cons_ne_nil _ _, fun _ => ?_⟩
    have hle : name.length ≤ ([separator].intercalate (name :: components)).length := by
      cases components with
      | nil => exact Nat.le_of_eq (by rw [List.intercalate_singleton])
      | cons second components =>
        rw [List.intercalate_cons_cons, List.length_append, List.length_append]
        omega
    omega

/-- A spelling is longer than the spelling of the first of its components. -/
theorem length_spell_le (drive : UInt8) (components more : List (List UInt8)) :
    (spell drive components).length ≤ (spell drive (components ++ more)).length := by
  induction more using List.reverseRecOn with
  | nil => exact Nat.le_of_eq (by rw [List.append_nil])
  | append_singleton more name ih =>
    rw [← List.append_assoc, spell_snoc, List.length_append, List.length_append]
    omega

theorem fits_iff {size : Nat} {components : List (List UInt8)} (h : ∀ name ∈ components, ValidName name) (drive : UInt8) :
    Fits size components ↔ (spell drive components).length < size :=
  ⟨fun hfits => hfits.2, fun hlt => ⟨fun name hmem => (h name hmem).length_le, hlt⟩⟩

/-- What fits, fits without its last components. -/
theorem Fits.prefix {size : Nat} {components before : List (List UInt8)} (h : Fits size components) (hbefore : before <+: components) :
    Fits size before := by
  obtain ⟨more, rfl⟩ := hbefore
  exact ⟨fun name hmem => h.1 name (List.mem_append_left _ hmem), Nat.lt_of_le_of_lt (length_spell_le 0 before more) h.2⟩

@[simp] theorem allFit_nil (size : Nat) (components : List (List UInt8)) : AllFit size components [] ↔ Fits size components := by
  refine ⟨fun h => h [] List.prefix_rfl, fun h before hbefore => ?_⟩
  rw [List.prefix_nil.1 hbefore]
  exact h

theorem allFit_cons (size : Nat) (components : List (List UInt8)) (name : List UInt8) (rest : List (List UInt8)) :
    AllFit size components (name :: rest) ↔ Fits size components ∧ AllFit size (resolveName components name) rest := by
  refine ⟨fun h => ⟨h [] (List.nil_prefix), fun before hbefore => ?_⟩, fun h before hbefore => ?_⟩
  · exact h (name :: before) ((List.prefix_cons_inj name).2 hbefore)
  · cases before with
    | nil => exact h.1
    | cons first before =>
      obtain ⟨rfl, htail⟩ := List.cons_prefix_cons.1 hbefore
      exact h.2 before htail

/-- A resolution of which each step fits starts from what fits. -/
theorem AllFit.fits {size : Nat} {components rest : List (List UInt8)} (h : AllFit size components rest) : Fits size components :=
  h [] List.nil_prefix

/-- The components of a canonical path are resolved step by step if they fit. -/
theorem allFit_valid {size : Nat} {new : List (List UInt8)} (h : ∀ name ∈ new, ValidName name) (rest : List (List UInt8)) :
    AllFit size [] (new ++ rest) ↔ AllFit size new rest := by
  refine ⟨fun hall before hbefore => ?_, fun hall before hbefore => ?_⟩
  · have hfits := hall (new ++ before) ((List.prefix_append_right_inj new).2 hbefore)
    rwa [resolve_append, resolve_valid h, List.nil_append] at hfits
  · rcases List.prefix_or_prefix_of_prefix hbefore (List.prefix_append new rest) with hshorter | hshorter
    · rw [resolve_valid fun name hmem => h name (hshorter.subset hmem), List.nil_append]
      exact hall.fits.prefix hshorter
    · obtain ⟨more, rfl⟩ := hshorter
      rw [resolve_append, resolve_valid h, List.nil_append]
      exact hall more ((List.prefix_append_right_inj new).1 hbefore)

/-! ## The buffer -/

theorem store_at (before after : List UInt8) (old byte : UInt8) (length : Nat) :
    store before.length byte ⟨before ++ old :: after, length⟩ = .done () ⟨before ++ byte :: after, length⟩ := by
  unfold store
  rw [if_pos (by simp), List.set_append_right _ _ (Nat.le_refl _), Nat.sub_self, List.set_cons_zero]

theorem load_at (before after : List UInt8) (byte : UInt8) (length : Nat) :
    load before.length ⟨before ++ byte :: after, length⟩ = .done byte ⟨before ++ byte :: after, length⟩ := by
  unfold load
  rw [List.getElem?_append_right (Nat.le_refl _), Nat.sub_self, List.getElem?_cons_zero]

theorem copy_at (before after : List UInt8) {bytes old : List UInt8} {index : Nat} (length : Nat) (hindex : index = before.length)
    (hold : old.length = bytes.length) :
    copy index bytes ⟨before ++ old ++ after, length⟩ = .done () ⟨before ++ bytes ++ after, length⟩ := by
  subst hindex
  induction bytes generalizing before old with
  | nil =>
    rw [List.length_eq_zero_iff.1 hold]
    rfl
  | cons byte bytes ih =>
    cases old with
    | nil => cases hold
    | cons first old =>
      have hrest := ih (before ++ [byte]) (Nat.succ.inj hold)
      rw [List.length_append, List.append_assoc, List.append_assoc, List.append_assoc, List.append_assoc] at hrest
      show Program.next (store before.length byte) (fun _ => copy (before.length + 1) bytes) _ = _
      rw [List.append_assoc, List.cons_append, Program.next, store_at, List.append_assoc]
      exact hrest

/-- The buffer holds the spelling of these components, and its length. -/
structure Holds (drive : UInt8) (components : List (List UInt8)) (s : Normalization) : Prop where
  valid : ∀ name ∈ components, ValidName name
  length : s.length = (spell drive components).length
  output : ∃ rest, s.output = spell drive components ++ 0 :: rest

theorem Holds.fits {drive : UInt8} {components : List (List UInt8)} {s : Normalization} (h : Holds drive components s) :
    Fits s.output.length components := by
  obtain ⟨rest, hrest⟩ := h.output
  refine (fits_iff h.valid drive).2 ?_
  rw [hrest, List.length_append, List.length_cons]
  omega

/-- The bytes that an appended component and its separator replace. -/
theorem exists_room (bytes : List UInt8) (gap size : Nat) (h : gap + size < bytes.length) :
    ∃ first old last after, bytes = first ++ (old ++ last :: after) ∧ first.length = gap ∧ old.length = size := by
  have hdrop : (bytes.drop gap).drop size ≠ [] := by
    rw [List.drop_drop]
    exact List.ne_nil_of_length_pos (by rw [List.length_drop]; omega)
  obtain ⟨last, after, hlast⟩ := List.exists_cons_of_ne_nil hdrop
  refine ⟨bytes.take gap, (bytes.drop gap).take size, last, after, ?_, ?_, ?_⟩
  · rw [← hlast, List.take_append_drop, List.take_append_drop]
  · rw [List.length_take]
    omega
  · rw [List.length_take, List.length_drop]
    omega

theorem storeSeparator_at {components : List (List UInt8)} {before first after : List UInt8} {index length : Nat}
    (hindex : index = before.length)
    (hfirst : first.length = (gapBytes components).length) :
    storeSeparator (gapBytes components).length index ⟨before ++ (first ++ after), length⟩ =
      .done () ⟨before ++ gapBytes components ++ after, length⟩ := by
  unfold gapBytes at hfirst ⊢
  unfold storeSeparator
  by_cases hne : components = []
  · rw [if_pos hne] at hfirst ⊢
    rw [if_neg (fun hnot => hnot rfl), List.length_eq_zero_iff.1 hfirst, List.append_nil]
    rfl
  · rw [if_neg hne] at hfirst ⊢
    obtain ⟨byte, rfl⟩ := List.length_eq_one_iff.1 hfirst
    rw [if_pos (by decide), hindex, List.singleton_append, store_at, List.append_assoc]
    rfl

/-- A valid component is appended exactly if the path with it fits. -/
theorem appendComponent_spec {drive : UInt8} {components : List (List UInt8)} {s : Normalization} (h : Holds drive components s)
    {name : List UInt8} (hname : name.length ≤ nameMax → ValidName name) :
    (appendComponent name).Meets s
      (fun _ t => Holds drive (components ++ [name]) t ∧ t.output.length = s.output.length)
      (fun _ _ => ¬Fits s.output.length (components ++ [name])) := by
  unfold appendComponent
  rw [Program.meets_bind, Program.meets_observe, Program.meets_bind, Program.meets_observe]
  refine Program.meets_ite (fun hlong => ?_) (fun hshort => ?_)
  · exact fun hfits => absurd (hfits.1 name (List.mem_append_right _ List.mem_cons_self)) (Nat.not_le_of_lt hlong)
  have hvalid := hname (Nat.le_of_not_lt hshort)
  have hall : ∀ other ∈ components ++ [name], ValidName other := by
    intro other hmem
    rcases List.mem_append.1 hmem with hmem | hmem
    · exact h.valid other hmem
    · exact List.mem_singleton.1 hmem ▸ hvalid
  have hgap : (if s.length > 3 then 1 else 0) = (gapBytes components).length := by
    unfold gapBytes
    rw [h.length]
    by_cases hne : components = []
    · rw [if_neg fun hlt => (length_spell_gt h.valid drive).1 hlt hne, if_pos hne]
      rfl
    · rw [if_pos ((length_spell_gt h.valid drive).2 hne), if_neg hne]
      rfl
  have hlength : (spell drive (components ++ [name])).length = s.length + (gapBytes components).length + name.length := by
    rw [spell_snoc, List.length_append, List.length_append, h.length]
  dsimp only
  rw [hgap]
  refine Program.meets_ite (fun hfull => ?_) (fun hroom => ?_)
  · rw [Program.meets_refuse, fits_iff hall drive, hlength]
    omega
  obtain ⟨rest, hrest⟩ := h.output
  obtain ⟨first, old, last, after, hroom', hfirst, hold⟩ := exists_room (0 :: rest) (gapBytes components).length
    name.length (by rw [hrest, List.length_append] at hroom; rw [h.length] at hroom; omega)
  obtain ⟨output, length⟩ := s
  obtain rfl : length = (spell drive components).length := h.length
  obtain rfl : output = spell drive components ++ (first ++ (old ++ last :: after)) := by rw [← hroom']; exact hrest
  dsimp only at hlength ⊢
  have hcopy := copy_at (spell drive components ++ gapBytes components) (last :: after) (spell drive components).length
    (List.length_append).symm hold
  rw [← spell_snoc drive components name, List.append_assoc _ old] at hcopy
  rw [Program.meets_bind, Program.meets_of_done (storeSeparator_at rfl hfirst), Program.meets_bind, Program.meets_of_done hcopy,
    ← hlength, Program.meets_bind]
  unfold setLength
  rw [Program.meets_modify, Program.meets_of_done (store_at _ _ _ _ _)]
  refine ⟨⟨hall, rfl, after, rfl⟩, ?_⟩
  show (spell drive (components ++ [name]) ++ 0 :: after).length = _
  simp only [spell_snoc, List.length_append, List.length_cons, hfirst, hold]
  omega

/-- The walk back stops behind the separator before the last component, or at the root. -/
theorem lastSeparator_at {before name : List UInt8} (after : List UInt8) (length : Nat) (hname : separator ∉ name)
    (hroot : 3 ≤ before.length)
    (hbefore : before.length = 3 ∨ ∃ init, before = init ++ [separator]) :
    lastSeparator (before.length + name.length) ⟨before ++ name ++ after, length⟩ =
      .done before.length ⟨before ++ name ++ after, length⟩ := by
  induction name using List.reverseRecOn generalizing after with
  | nil =>
    rcases hbefore with hthree | ⟨init, hinit⟩
    · rw [List.length_nil, Nat.add_zero, hthree]
      rfl
    · rw [hinit, List.length_nil, Nat.add_zero, List.length_append, List.length_singleton, lastSeparator]
      rw [hinit, List.length_append, List.length_singleton] at hroot
      split
      · show Program.next (load init.length) _ _ = _
        rw [List.append_nil, List.append_assoc, List.singleton_append, Program.next, load_at]
        rfl
      · rfl
  | append_singleton name byte ih =>
    have hbyte : byte ≠ separator := fun heq => hname (List.mem_append_right _ (heq ▸ List.mem_singleton_self _))
    have hrest := ih (byte :: after) fun hmem => hname (List.mem_append_left _ hmem)
    rw [List.length_append, List.length_singleton, ← Nat.add_assoc, lastSeparator, if_pos (by omega)]
    show Program.next (load (before.length + name.length)) _ _ = _
    rw [← List.length_append, ← List.append_assoc, List.append_assoc _ [byte], List.singleton_append, Program.next, load_at]
    dsimp only
    rw [if_pos hbyte, List.length_append]
    exact hrest

/-- The last component is removed, if there is one. -/
theorem removeComponent_spec {drive : UInt8} {components : List (List UInt8)} {s : Normalization} (h : Holds drive components s)
    (E : Unit → Normalization → Prop) :
    removeComponent.Meets s (fun _ t => Holds drive components.dropLast t ∧ t.output.length = s.output.length) E := by
  unfold removeComponent
  rw [Program.meets_bind, Program.meets_observe]
  refine Program.meets_ite (fun hshort => ?_) (fun hlong => ?_)
  · have hnil : components = [] := by
      by_contra hne
      have hlt := (length_spell_gt h.valid drive).2 hne
      rw [← h.length] at hlt
      omega
    subst hnil
    exact ⟨h, rfl⟩
  rcases List.eq_nil_or_concat' components with rfl | ⟨init, name, rfl⟩
  · exact absurd (Nat.le_of_eq h.length) hlong
  have hinit : ∀ other ∈ init, ValidName other := fun other hmem => h.valid other (List.mem_append_left _ hmem)
  have hname := h.valid name (List.mem_append_right _ (List.mem_singleton_self _))
  obtain ⟨rest, hrest⟩ := h.output
  obtain ⟨output, length⟩ := s
  obtain rfl : length = (spell drive (init ++ [name])).length := h.length
  obtain rfl : output = spell drive (init ++ [name]) ++ 0 :: rest := hrest
  dsimp only
  have hbefore : (spell drive init ++ gapBytes init).length = 3 ∨ ∃ front, spell drive init ++ gapBytes init = front ++ [separator] := by
    unfold gapBytes
    by_cases hne : init = []
    · subst hne
      exact Or.inl rfl
    · rw [if_neg hne]
      exact Or.inr ⟨_, rfl⟩
  have hroot : 3 ≤ (spell drive init ++ gapBytes init).length := by
    rw [List.length_append, length_spell]
    omega
  have hwalk := lastSeparator_at (0 :: rest) (spell drive (init ++ [name])).length hname.unseparated hroot hbefore
  rw [← List.length_append, ← spell_snoc] at hwalk
  rw [Program.meets_bind, Program.meets_of_done hwalk]
  have hback : (if (spell drive init ++ gapBytes init).length > 3 then (spell drive init ++ gapBytes init).length - 1
      else (spell drive init ++ gapBytes init).length) = (spell drive init).length := by
    unfold gapBytes
    by_cases hne : init = []
    · subst hne
      rfl
    · rw [if_neg hne, List.length_append, List.length_singleton, length_spell]
      exact if_pos (by omega)
  obtain ⟨last, after, hafter⟩ : ∃ last after, gapBytes init ++ name ++ 0 :: rest = last :: after :=
    List.exists_cons_of_ne_nil fun hnil => absurd (List.append_eq_nil_iff.1 hnil).2 (List.cons_ne_nil _ _)
  have houtput : spell drive (init ++ [name]) ++ 0 :: rest = spell drive init ++ last :: after := by
    rw [spell_snoc, ← hafter]
    simp only [List.append_assoc]
  rw [hback, Program.meets_bind]
  unfold setLength
  rw [Program.meets_modify, houtput, Program.meets_of_done (store_at _ _ _ _ _), List.dropLast_concat]
  refine ⟨⟨hinit, rfl, after, rfl⟩, ?_⟩
  show (spell drive init ++ 0 :: after).length = (spell drive init ++ last :: after).length
  rw [List.length_append, List.length_append]
  rfl

/-- A component that is consumed is resolved, if the result fits. -/
theorem consumeComponent_spec {drive : UInt8} {components : List (List UInt8)} {s : Normalization} (h : Holds drive components s)
    {name : List UInt8} (hne : name ≠ []) (hterminated : 0 ∉ name) (hname : separator ∉ name) :
    (consumeComponent name).Meets s
      (fun _ t => Holds drive (resolveName components name) t ∧ t.output.length = s.output.length)
      (fun _ _ => ¬Fits s.output.length (resolveName components name)) := by
  unfold consumeComponent resolveName
  by_cases hdot : name = [dot]
  · rw [if_pos hdot, if_pos hdot]
    exact ⟨h, rfl⟩
  rw [if_neg hdot, if_neg hdot]
  by_cases hdots : name = [dot, dot]
  · rw [if_pos hdots, if_pos hdots]
    exact removeComponent_spec h _
  rw [if_neg hdots, if_neg hdots]
  exact appendComponent_spec h fun hlength => ⟨hne, hterminated, hname, hdot, hdots, hlength⟩

/-- Consuming a path resolves its names, and is refused exactly if a step does not fit. -/
theorem consumePath_spec {drive : UInt8} {cursor : List UInt8} (hcursor : 0 ∉ cursor) {components : List (List UInt8)}
    {s : Normalization} (h : Holds drive components s) :
    (consumePath cursor).Meets s
      (fun _ t => (Holds drive (resolve components (names cursor)) t ∧ t.output.length = s.output.length) ∧
        AllFit s.output.length components (names cursor))
      (fun _ _ => ¬AllFit s.output.length components (names cursor)) := by
  induction cursor using consumePath.induct generalizing components s with
  | case1 cursor hnil =>
    rw [consumePath, hnil, ← names_dropWhile, hnil, names_nil, allFit_nil]
    exact ⟨⟨h, rfl⟩, h.fits⟩
  | case2 cursor byte rest hcons ih =>
    have hsuffix : (byte :: rest) <:+ cursor := hcons ▸ List.dropWhile_suffix _
    have hterminated : 0 ∉ byte :: rest := fun hmem => hcursor (hsuffix.subset hmem)
    have hbyte : byte ≠ separator := by
      have hhead := List.head_dropWhile_not (p := (· = separator)) (l := cursor) (by rw [hcons]; exact List.cons_ne_nil _ _)
      simpa [hcons] using hhead
    have hne : (byte :: rest).takeWhile (· ≠ separator) ≠ [] := by
      rw [List.takeWhile_cons_of_pos (by simpa using hbyte)]
      exact List.cons_ne_nil _ _
    have hname : separator ∉ (byte :: rest).takeWhile (· ≠ separator) := fun hmem => by
      simpa using List.all_eq_true.1 List.all_takeWhile _ hmem
    have hnext : (byte :: rest).dropWhile (· ≠ separator) = [] ∨
        ((byte :: rest).dropWhile (· ≠ separator)).head? = some separator := by
      cases hdrop : (byte :: rest).dropWhile (· ≠ separator) with
      | nil => exact Or.inl rfl
      | cons first after =>
        have hhead := List.head_dropWhile_not (p := (· ≠ separator)) (l := byte :: rest) (by rw [hdrop]; exact List.cons_ne_nil _ _)
        simp only [hdrop, List.head_cons] at hhead
        exact Or.inr (congrArg some (by simpa using hhead))
    have hnames : names cursor = (byte :: rest).takeWhile (· ≠ separator) :: names ((byte :: rest).dropWhile (· ≠ separator)) := by
      rw [← names_dropWhile, hcons, ← names_component hne hname hnext, List.takeWhile_append_dropWhile]
    have hcomponent := consumeComponent_spec h hne (fun hmem => hterminated ((List.takeWhile_prefix _).subset hmem)) hname
    rw [consumePath, hcons, hnames]
    dsimp only
    rw [Program.meets_bind]
    refine hcomponent.mono (fun _ t ht => ?_) fun _ _ hnot hall => hnot ((allFit_cons _ _ _ _).1 hall).2.fits
    have hrest := ih (fun hmem => hterminated ((List.dropWhile_suffix _).subset hmem)) ht.1
    rw [ht.2] at hrest
    refine hrest.mono (fun _ u hu => ⟨hu.1, (allFit_cons _ _ _ _).2 ⟨h.fits, hu.2⟩⟩) fun _ _ hnot hall =>
      hnot ((allFit_cons _ _ _ _).1 hall).2

/-! ## The function -/

theorem CString.at_zero (path : CString) : path.at 0 = 0 ↔ path.bytes = [] := by
  obtain ⟨bytes, hterminated⟩ := path
  cases bytes with
  | nil => exact ⟨fun _ => rfl, fun _ => rfl⟩
  | cons byte bytes =>
    refine ⟨fun hzero => absurd (List.mem_cons.2 (Or.inl ?_)) hterminated, fun hnil => absurd hnil (List.cons_ne_nil _ _)⟩
    exact hzero.symm

theorem CString.source_terminated (path : CString) : 0 ∉ path.source := by
  unfold CString.source
  split
  · exact fun hmem => path.terminated ((List.drop_suffix _ _).subset hmem)
  · exact path.terminated

theorem separated_iff {source : List UInt8} (hterminated : 0 ∉ source) :
    (source.getD 0 0 ≠ 0 ∧ source.getD 0 0 ≠ separator) ↔ ¬(source = [] ∨ source.head? = some separator) := by
  cases source with
  | nil => simp
  | cons byte source =>
    have hbyte : byte ≠ 0 := fun heq => hterminated (heq ▸ List.mem_cons_self)
    simp [hbyte]

theorem isUpper_sub {byte : UInt8} (h : isLower byte = true) : isUpper (byte - 0x20) = true := by
  simp only [isLower, isUpper, Bool.and_eq_true, decide_eq_true_eq, UInt8.le_iff_toNat_le, UInt8.toNat_sub, UInt8.reduceToNat] at h ⊢
  omega

/-- The drive of a resolution is spelled in upper case. -/
theorem CString.drive_upper (path : CString) (workingDirectory : CanonicalPath) :
    isUpper (path.drive workingDirectory) = true := by
  unfold CString.drive
  split
  · rename_i hqualified
    split
    · rename_i hlower
      exact isUpper_sub hlower
    · rename_i hlower
      unfold CString.qualified at hqualified
      rw [Bool.and_eq_true, Bool.or_eq_true] at hqualified
      exact hqualified.1.resolve_right hlower
  · exact workingDirectory.upper

/-- The letter that the code takes for the drive. -/
theorem CString.drive_eq (path : CString) (workingDirectory : CanonicalPath) :
    (if path.qualified then (if 0x61 ≤ path.at 0 then path.at 0 - 0x20 else path.at 0) else workingDirectory.toCString.at 0) =
      path.drive workingDirectory := by
  unfold CString.drive
  by_cases hqualified : path.qualified = true
  · rw [if_pos hqualified, if_pos hqualified]
    by_cases hlower : isLower (path.at 0) = true
    · rw [if_pos hlower, if_pos]
      unfold isLower at hlower
      exact of_decide_eq_true (Bool.and_eq_true _ _ ▸ hlower).1
    · rw [if_neg hlower, if_neg]
      intro hle
      unfold CString.qualified at hqualified
      rw [Bool.and_eq_true, Bool.or_eq_true] at hqualified
      have hupper := hqualified.1.resolve_right hlower
      simp only [isUpper, Bool.and_eq_true, decide_eq_true_eq, UInt8.le_iff_toNat_le, UInt8.reduceToNat] at hupper hle
      omega
  · rw [if_neg hqualified, if_neg hqualified]
    rfl

/-- Nothing is resolved into a buffer without room for the root. -/
theorem not_resolvable_of_lt {path : CString} {workingDirectory : CanonicalPath} {size : Nat} (hsize : size < 4) :
    ¬Resolvable path workingDirectory size := by
  intro h
  have hlt := h.fits.fits.2
  rw [length_spell] at hlt
  omega

/-- The names of the working directory as the code reads them. -/
theorem CanonicalPath.names_drop (p : CanonicalPath) : names (p.toCString.bytes.drop 2) = p.components := by
  show names (separator :: [separator].intercalate p.components) = _
  rw [names_separator, names_intercalate p.valid]

/-- The paths that the code resolves after the working directory. -/
theorem CString.rooted_eq_false_iff (path : CString) :
    path.rooted = false ↔ path.qualified = false ∧ path.source.getD 0 0 ≠ separator := by
  unfold CString.rooted CString.source
  cases hqualified : path.qualified with
  | true => simp
  | false =>
    cases path.bytes with
    | nil => decide
    | cons byte bytes => simp

theorem CString.base_of_rooted {path : CString} (h : path.rooted = true) (workingDirectory : CanonicalPath) :
    path.base workingDirectory = [] := if_pos h

theorem CString.base_of_relative {path : CString} (h : path.rooted = false) (workingDirectory : CanonicalPath) :
    path.base workingDirectory = workingDirectory.components := if_neg fun htrue => absurd (htrue.symm.trans h) (by decide)

theorem exists_four {bytes : List UInt8} (h : 4 ≤ bytes.length) : ∃ a b c d rest, bytes = a :: b :: c :: d :: rest := by
  obtain ⟨first, old, last, after, rfl, hfirst, hold⟩ := exists_room bytes 3 0 h
  obtain ⟨a, b, c, rfl⟩ := List.length_eq_three.1 hfirst
  obtain rfl := List.length_eq_zero_iff.1 hold
  exact ⟨a, b, c, last, after, rfl⟩

/-- The function leaves the resolution of the path in the buffer, and fails exactly if there is none that fits. -/
theorem filesystemNormalizePath_spec (path : CString) (workingDirectory : CanonicalPath) (s : Normalization) :
    (filesystemNormalizePath path workingDirectory.toCString).Meets s
      (fun _ t => Holds (path.drive workingDirectory) (resolve (path.base workingDirectory) (names path.source)) t ∧
        Resolvable path workingDirectory s.output.length)
      (fun _ _ => ¬Resolvable path workingDirectory s.output.length) := by
  unfold filesystemNormalizePath
  rw [Program.meets_bind, Program.meets_observe]
  refine Program.meets_ite (fun hrefused => ?_) (fun haccepted => ?_)
  · rw [Program.meets_refuse]
    rcases hrefused with hsize | hempty | hupper | hcolon | hseparator
    · exact not_resolvable_of_lt hsize
    · exact fun h => h.nonempty (path.at_zero.1 hempty)
    · exact absurd (workingDirectory.upper.symm.trans hupper) (by decide)
    · exact absurd rfl hcolon
    · exact absurd rfl hseparator
  have hsize : 4 ≤ s.output.length := Nat.le_of_not_lt fun hlt => haccepted (Or.inl hlt)
  have hne : path.bytes ≠ [] := fun hnil => haccepted (Or.inr (Or.inl (path.at_zero.2 hnil)))
  dsimp only
  rw [path.drive_eq workingDirectory]
  change Program.Meets (if path.qualified = true ∧ path.source.getD 0 0 ≠ 0 ∧ path.source.getD 0 0 ≠ separator then _ else _) _ _ _
  refine Program.meets_ite (fun hglued => ?_) (fun hseparated => ?_)
  · exact fun h => (separated_iff path.source_terminated).1 hglued.2 (h.separated hglued.1)
  have hroots : path.qualified = true → path.source = [] ∨ path.source.head? = some separator := by
    intro hqualified
    by_contra hnot
    exact hseparated ⟨hqualified, (separated_iff path.source_terminated).2 hnot⟩
  have hresolvable : Resolvable path workingDirectory s.output.length ↔
      AllFit s.output.length (path.base workingDirectory) (names path.source) :=
    ⟨fun h => h.fits, fun h => ⟨hne, hroots, h⟩⟩
  rw [hresolvable]
  obtain ⟨output, length⟩ := s
  obtain ⟨a, b, c, d, rest, rfl⟩ := exists_four hsize
  rw [Program.meets_bind]
  unfold setLength
  rw [Program.meets_modify, Program.meets_bind]
  refine (Program.meets_of_done (store_at [] (b :: c :: d :: rest) a (path.drive workingDirectory) 3)).2 ?_
  rw [Program.meets_bind]
  refine (Program.meets_of_done (store_at [path.drive workingDirectory] (c :: d :: rest) b colon 3)).2 ?_
  rw [Program.meets_bind]
  refine (Program.meets_of_done (store_at [path.drive workingDirectory, colon] (d :: rest) c separator 3)).2 ?_
  rw [Program.meets_bind]
  refine (Program.meets_of_done (store_at [path.drive workingDirectory, colon, separator] rest d 0 3)).2 ?_
  have hroot : Holds (path.drive workingDirectory) [] ⟨path.drive workingDirectory :: colon :: separator :: 0 :: rest, 3⟩ :=
    ⟨fun _ hmem => absurd hmem List.not_mem_nil, rfl, rest, rfl⟩
  refine Program.meets_ite (fun hrelative => ?_) (fun habsolute => ?_)
  · have hrooted := path.rooted_eq_false_iff.2 hrelative
    have hterminated : 0 ∉ workingDirectory.toCString.bytes.drop 2 := fun hmem =>
      workingDirectory.toCString.terminated ((List.drop_suffix _ _).subset hmem)
    have hbase := consumePath_spec hterminated hroot
    rw [workingDirectory.names_drop, resolve_valid workingDirectory.valid, List.nil_append] at hbase
    rw [Program.meets_bind, CString.base_of_relative hrooted]
    refine hbase.mono (fun _ t ht => ?_) fun _ _ hnot hall => hnot ?_
    · have hsource := consumePath_spec path.source_terminated ht.1.1
      rw [ht.1.2] at hsource
      exact hsource.mono (fun _ u hu => ⟨hu.1.1, hu.2⟩) fun _ _ hnot => hnot
    · have hfits := (allFit_valid workingDirectory.valid []).2 ((allFit_nil _ _).2 hall.fits)
      rwa [List.append_nil] at hfits
  · have hrooted : path.rooted = true := by
      cases hr : path.rooted with
      | true => rfl
      | false => exact absurd (path.rooted_eq_false_iff.1 hr) habsolute
    rw [CString.base_of_rooted hrooted]
    exact (consumePath_spec path.source_terminated hroot).mono (fun _ u hu => ⟨hu.1.1, hu.2⟩) fun _ _ hnot => hnot

/-! ## The text that is left -/

theorem text_spell (canonical : CanonicalPath) (rest : List UInt8) :
    text (spell canonical.drive canonical.components ++ 0 :: rest) = canonical.toCString := by
  have hall : ∀ byte ∈ canonical.toCString.bytes, decide (byte ≠ 0) = true := fun byte hmem =>
    decide_eq_true fun hzero => canonical.toCString.terminated (hzero ▸ hmem)
  refine CString.ext ?_
  show (canonical.toCString.bytes ++ 0 :: rest).takeWhile (fun byte => decide (byte ≠ 0)) = _
  rw [List.takeWhile_append_of_pos hall, List.takeWhile_cons_of_neg (by decide), List.append_nil]

/-- A canonical path is known by its drive and its components. -/
theorem CanonicalPath.toCString_congr {p q : CanonicalPath} (hdrive : p.drive = q.drive) (hcomponents : p.components = q.components) :
    p.toCString = q.toCString := by
  refine CString.ext ?_
  show spell p.drive p.components = spell q.drive q.components
  rw [hdrive, hcomponents]

/-- The resolution of a path as a canonical path, and its text. -/
theorem normalized_of_resolvable {path : CString} {workingDirectory : CanonicalPath} {output : List UInt8}
    (h : Resolvable path workingDirectory output.length) :
    ∃ canonical : CanonicalPath, canonical.drive = path.drive workingDirectory ∧
      canonical.components = resolve (path.base workingDirectory) (names path.source) ∧
      canonical.toCString.bytes.length < output.length ∧
      normalized path workingDirectory.toCString output = some canonical.toCString := by
  have hspec := filesystemNormalizePath_spec path workingDirectory { output := output, length := 0 }
  unfold Program.Meets at hspec
  unfold normalized
  cases hending : filesystemNormalizePath path workingDirectory.toCString { output := output, length := 0 } with
  | wrong =>
    rw [hending] at hspec
    exact hspec.elim
  | refused error t =>
    rw [hending] at hspec
    exact absurd h hspec
  | done value t =>
    rw [hending] at hspec
    obtain ⟨rest, hrest⟩ := hspec.1.output
    refine ⟨⟨_, _, path.drive_upper workingDirectory, hspec.1.valid⟩, rfl, rfl, ?_, ?_⟩
    · exact (fits_iff hspec.1.valid _).1 (h.fits _ List.prefix_rfl)
    · dsimp only
      rw [hrest]
      exact congrArg some (text_spell ⟨_, _, path.drive_upper workingDirectory, hspec.1.valid⟩ rest)

theorem normalized_of_not_resolvable {path : CString} {workingDirectory : CanonicalPath} {output : List UInt8}
    (h : ¬Resolvable path workingDirectory output.length) : normalized path workingDirectory.toCString output = none := by
  have hspec := filesystemNormalizePath_spec path workingDirectory { output := output, length := 0 }
  unfold Program.Meets at hspec
  unfold normalized
  cases hending : filesystemNormalizePath path workingDirectory.toCString { output := output, length := 0 } with
  | wrong => rfl
  | refused error t => rfl
  | done value t =>
    rw [hending] at hspec
    exact absurd hspec.2 h

/-- The drive of a text that starts with an upper-case prefix. -/
theorem CString.drive_of_prefix (path : CString) {drive : UInt8} (hdrive : isUpper drive = true) (h0 : path.at 0 = drive)
    (h1 : path.at 1 = colon) (workingDirectory : CanonicalPath) :
    path.qualified = true ∧ path.drive workingDirectory = drive := by
  have hqualified : path.qualified = true := by
    rw [CString.qualified, h0, h1, hdrive]
    rfl
  have hlower : ¬isLower drive = true := by
    simp only [isUpper, isLower, Bool.and_eq_true, decide_eq_true_eq, UInt8.le_iff_toNat_le, UInt8.reduceToNat] at hdrive ⊢
    omega
  rw [CString.drive, if_pos hqualified, h0, if_neg hlower]
  exact ⟨hqualified, rfl⟩

/-- A canonical path that fits the buffer resolves to itself. -/
theorem normalized_canonical (canonical workingDirectory : CanonicalPath) {output : List UInt8}
    (hlength : canonical.toCString.bytes.length < output.length) :
    normalized canonical.toCString workingDirectory.toCString output = some canonical.toCString := by
  obtain ⟨hqualified, hdrive⟩ := CString.drive_of_prefix canonical.toCString canonical.upper rfl rfl workingDirectory
  have hsource : canonical.toCString.source = separator :: [separator].intercalate canonical.components := if_pos hqualified
  have hnames : names canonical.toCString.source = canonical.components := by
    rw [hsource, names_separator, names_intercalate canonical.valid]
  have hrooted : canonical.toCString.rooted = true := by
    rw [CString.rooted, hqualified, Bool.true_or]
  have hfits :=
    (allFit_valid canonical.valid []).2 ((allFit_nil output.length _).2 ((fits_iff canonical.valid canonical.drive).2 hlength))
  rw [List.append_nil] at hfits
  have hresolvable : Resolvable canonical.toCString workingDirectory output.length :=
    ⟨List.cons_ne_nil _ _, fun _ => Or.inr (by rw [hsource]; rfl), by rwa [CString.base_of_rooted hrooted, hnames]⟩
  obtain ⟨result, hsame, hcomponents, _, hresult⟩ := normalized_of_resolvable hresolvable
  rw [CString.base_of_rooted hrooted, hnames, resolve_valid canonical.valid, List.nil_append] at hcomponents
  rw [hresult, CanonicalPath.toCString_congr (hsame.trans hdrive) hcomponents]

/-- What the path below a working directory resolves to is what the relative path does. -/
theorem normalized_join {path : CString} (hne : path.bytes ≠ []) (hqualified : path.qualified = false)
    (habsolute : path.bytes.head? ≠ some separator) (workingDirectory other : CanonicalPath) (output : List UInt8) :
    normalized (workingDirectory.toCString.join path) other.toCString output =
      normalized path workingDirectory.toCString output := by
  obtain ⟨hroot, hdrive⟩ := CString.drive_of_prefix (workingDirectory.toCString.join path) workingDirectory.upper rfl rfl other
  have hrooted : (workingDirectory.toCString.join path).rooted = true := by
    rw [CString.rooted, hroot, Bool.true_or]
  have hrelative : path.rooted = false := by
    rw [CString.rooted, hqualified, Bool.false_or]
    exact beq_eq_false_iff_ne.2 habsolute
  have hsource : (workingDirectory.toCString.join path).source =
      separator :: ([separator].intercalate workingDirectory.components ++ separator :: path.bytes) := if_pos hroot
  have hbytes : path.source = path.bytes := if_neg fun h => absurd (h.symm.trans hqualified) (by decide)
  have hnames : names (workingDirectory.toCString.join path).source = workingDirectory.components ++ names path.source := by
    rw [hsource, hbytes, names_separator, names_append_separator, names_intercalate workingDirectory.valid]
  have hresolvable : Resolvable (workingDirectory.toCString.join path) other output.length ↔
      Resolvable path workingDirectory output.length := by
    constructor
    · intro h
      refine ⟨hne, fun h' => absurd (h'.symm.trans hqualified) (by decide), ?_⟩
      have hfits := h.fits
      rw [CString.base_of_rooted hrooted, hnames] at hfits
      rw [CString.base_of_relative hrelative]
      exact (allFit_valid workingDirectory.valid _).1 hfits
    · intro h
      refine ⟨fun hnil => absurd (List.append_eq_nil_iff.1 hnil).2 (List.cons_ne_nil _ _), fun _ => Or.inr (by rw [hsource]; rfl), ?_⟩
      have hfits := h.fits
      rw [CString.base_of_relative hrelative] at hfits
      rw [CString.base_of_rooted hrooted, hnames]
      exact (allFit_valid workingDirectory.valid _).2 hfits
  by_cases h : Resolvable path workingDirectory output.length
  · obtain ⟨first, hdrive1, hcomponents1, _, hfirst⟩ := normalized_of_resolvable h
    obtain ⟨second, hdrive2, hcomponents2, _, hsecond⟩ := normalized_of_resolvable (hresolvable.2 h)
    rw [CString.base_of_relative hrelative] at hcomponents1
    rw [CString.base_of_rooted hrooted, hnames, resolve_append, resolve_valid workingDirectory.valid, List.nil_append] at hcomponents2
    have hsame : path.drive workingDirectory = workingDirectory.drive :=
      if_neg fun h' => absurd (h'.symm.trans hqualified) (by decide)
    rw [hfirst, hsecond, CanonicalPath.toCString_congr (p := second) (q := first)]
    · rw [hdrive1, hdrive2, hdrive, hsame]
    · rw [hcomponents1, hcomponents2]
  · rw [normalized_of_not_resolvable h, normalized_of_not_resolvable fun h' => h (hresolvable.1 h')]

/-- What normalising a path into a buffer does. -/
structure Normalizes (path : CString) (workingDirectory : CanonicalPath) (output : List UInt8) : Prop where
  safe : filesystemNormalizePath path workingDirectory.toCString ⟨output, 0⟩ ≠ .wrong
  succeeds : (normalized path workingDirectory.toCString output).isSome = true ↔ Resolvable path workingDirectory output.length
  lexical : ∀ result, normalized path workingDirectory.toCString output = some result →
    ∃ canonical : CanonicalPath, canonical.drive = path.drive workingDirectory ∧
      canonical.components = resolve (path.base workingDirectory) (names path.source) ∧
      result = canonical.toCString ∧ result.bytes.length < output.length
  again : ∀ result, normalized path workingDirectory.toCString output = some result →
    ∀ (other : CanonicalPath) (output' : List UInt8), result.bytes.length < output'.length →
      normalized result other.toCString output' = some result
  relative : path.bytes ≠ [] → path.qualified = false → path.bytes.head? ≠ some separator → ∀ other : CanonicalPath,
    normalized path workingDirectory.toCString output = normalized (workingDirectory.toCString.join path) other.toCString output

/-- A path is normalised to its lexical resolution or refused; a result is normalised to itself, and a relative path to what the path
below the working directory is normalised to. -/
theorem filesystemNormalizePath_lexical (path : CString) (workingDirectory : CanonicalPath) (output : List UInt8) :
    Normalizes path workingDirectory output where
  safe := by
    have hspec := filesystemNormalizePath_spec path workingDirectory { output := output, length := 0 }
    intro hwrong
    unfold Program.Meets at hspec
    rw [hwrong] at hspec
    exact hspec
  succeeds := by
    constructor
    · intro hsome
      by_contra hnot
      rw [normalized_of_not_resolvable hnot] at hsome
      cases hsome
    · intro h
      obtain ⟨canonical, _, _, _, hresult⟩ := normalized_of_resolvable h
      rw [hresult]
      rfl
  lexical := by
    intro result hresult
    by_cases h : Resolvable path workingDirectory output.length
    · obtain ⟨canonical, hdrive, hcomponents, hlength, hcanonical⟩ := normalized_of_resolvable h
      obtain rfl := Option.some.inj (hcanonical.symm.trans hresult)
      exact ⟨canonical, hdrive, hcomponents, rfl, hlength⟩
    · rw [normalized_of_not_resolvable h] at hresult
      cases hresult
  again := by
    intro result hresult other output' hlength
    by_cases h : Resolvable path workingDirectory output.length
    · obtain ⟨canonical, _, _, _, hcanonical⟩ := normalized_of_resolvable h
      obtain rfl := Option.some.inj (hcanonical.symm.trans hresult)
      exact normalized_canonical canonical other hlength
    · rw [normalized_of_not_resolvable h] at hresult
      cases hresult
  relative hne hqualified habsolute other := (normalized_join hne hqualified habsolute workingDirectory other output).symm

/-- The empty path is refused, although the path below the working directory that it spells is not. -/
theorem empty_path_refused :
    ¬∀ (path : CString) (workingDirectory : CanonicalPath) (output : List UInt8), path.qualified = false →
      path.bytes.head? ≠ some separator →
      normalized path workingDirectory.toCString output =
        normalized (workingDirectory.toCString.join path) workingDirectory.toCString output := by
  intro h
  have hsame := h CString.empty CanonicalPath.root [0, 0, 0, 0] (by decide) (by decide)
  have hresolvable : Resolvable (CanonicalPath.root.toCString.join CString.empty) CanonicalPath.root ([0, 0, 0, 0] : List UInt8).length :=
    ⟨by decide, fun _ => Or.inr (by decide), (allFit_nil _ _).2 ⟨fun _ hmem => absurd hmem List.not_mem_nil, by decide⟩⟩
  obtain ⟨canonical, _, _, _, hresult⟩ := normalized_of_resolvable hresolvable
  rw [hresult] at hsame
  cases hsame

end Fs
end TabOS
