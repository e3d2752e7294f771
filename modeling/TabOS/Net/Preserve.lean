import Mathlib.Data.List.Count
import TabOS.Net.Update

/-!
# What an update preserves

Every line of a text stands in a section: in none before the first header, and then in the one that the last header names. The writer owns
a few keys, each in its own section. An update keeps the foreign lines as they stand, except that it takes a version line of any other
section for its own, and a newline in a string begins lines that nobody has checked.
-/

namespace TabOS
namespace Net

/-! ## Lines in their sections -/

/-- The section that a line leaves the text in. -/
def placeAfter (place : Option (List UInt8)) (line : List UInt8) : Option (List UInt8) :=
  let text := trim (cString line)
  if IsSection text then some (trim text.dropLast.tail) else place

/-- A line and the section that it stands in. -/
structure Placed where
  place : Option (List UInt8)
  line : List UInt8
  deriving DecidableEq, Repr

/-- The lines of a text in their sections. -/
def placed (place : Option (List UInt8)) : List (List UInt8) → List Placed
  | [] => []
  | line :: later =>
    let place := placeAfter place (content line)
    ⟨place, content line⟩ :: placed place later

/-- The section after some lines. -/
def placeAt (place : Option (List UInt8)) (text : List (List UInt8)) : Option (List UInt8) :=
  text.foldl (fun place line => placeAfter place (content line)) place

/-- A line that gives a value to a key. -/
def Placed.Assigns (line : Placed) (key : List UInt8) : Prop :=
  equals ∈ trim (cString line.line) ∧ keyOf (trim (cString line.line)) = key

instance (line : Placed) (key : List UInt8) : Decidable (line.Assigns key) := inferInstanceAs (Decidable (_ ∧ _))

/-- The keys that the writer owns. -/
def ownedKeys : List (List UInt8) := [versionKey, ssidKey, passwordKey, nameKey, autoConnectKey]

/-- The section of an owned key: the version stands before any header. -/
def home (key : List UInt8) : Option (List UInt8) := if key = versionKey then none else some wifiName

/-- A line that gives a value to an owned key in its section. -/
def Placed.Gives (line : Placed) (key : List UInt8) : Prop := line.place = home key ∧ line.Assigns key

instance (line : Placed) (key : List UInt8) : Decidable (line.Gives key) := inferInstanceAs (Decidable (_ ∧ _))

def Placed.Owned (line : Placed) : Prop := ∃ key ∈ ownedKeys, line.Gives key

instance (line : Placed) : Decidable line.Owned := inferInstanceAs (Decidable (∃ key ∈ ownedKeys, line.Gives key))

/-- The lines of a text that are not the writer's. -/
def foreignLines (existing : List UInt8) : List Placed := (placed none (lines existing)).filter fun line => decide ¬line.Owned

/-- The foreign lines appear unchanged, in their order and in their sections, and every owned key appears once. -/
def Preserved (existing output : List UInt8) : Prop :=
  (foreignLines existing).Sublist (placed none (lines output)) ∧
    ∀ key ∈ ownedKeys, (placed none (lines output)).countP (fun line => decide (line.Gives key)) = 1

/-! ## What disturbs an update -/

/-- A version line of another section than the writer's. -/
def Placed.Stray (line : Placed) : Prop := line.place ≠ none ∧ line.place ≠ some wifiName ∧ line.Assigns versionKey

instance (line : Placed) : Decidable line.Stray := inferInstanceAs (Decidable (_ ∧ _))

/-- The lines that the newlines in a string begin, to the quote at its end. -/
def continuation (value : List UInt8) : List (List UInt8) := (lines (quoted (cString value) ++ [newline])).tail

/-- The section after the name of the network. -/
def afterSsid (config : NetworkConfig) : Option (List UInt8) := placeAt (some wifiName) (continuation config.ssid)

/-- The section after the password. -/
def afterPassword (config : NetworkConfig) : Option (List UInt8) := placeAt (afterSsid config) (continuation config.password)

/-- The lines that the newlines in the strings begin, in their sections. -/
def continued (config : NetworkConfig) : List Placed :=
  placed (some wifiName) (continuation config.ssid) ++ placed (afterSsid config) (continuation config.password)

/-- The section in which the writer gives a key its value. -/
def givenIn (config : NetworkConfig) (key : List UInt8) : Option (List UInt8) :=
  if key = ssidKey then some wifiName else if key = passwordKey then afterSsid config else afterPassword config

/-- From the first version line of another section on, the foreign lines are spelled by the lines of the writer's section, and each
of its keys is given once in it, by the writer or by a line within the strings. -/
structure Undisturbed (existing : List UInt8) (config : NetworkConfig) : Prop where
  spelled : ((foreignLines existing).dropWhile fun line => decide ¬line.Stray).Sublist
    (placed (some wifiName) (lines (assignments config)))
  once : ∀ key ∈ ownedKeys.tail, (continued config).countP (fun line => decide (line.Gives key)) +
    (if givenIn config key = some wifiName then 1 else 0) = 1

/-! ## Lists -/

/-- A list of which the elements with a property are kept, before another list, is in the whole if and only if its rest from the first
other element on is in the other list. -/
theorem sublist_append_iff_dropWhile {α : Type*} {p : α → Bool} {l kept later : List α} (hkept : (l.filter p).Sublist kept)
    (hall : ∀ a ∈ kept, p a = true) : l.Sublist (kept ++ later) ↔ (l.dropWhile p).Sublist later := by
  constructor
  · intro h
    obtain ⟨before, after, rfl, hbefore, hafter⟩ := List.sublist_append_iff.1 h
    rw [List.dropWhile_append_of_pos fun a hmem => hall a (hbefore.subset hmem)]
    exact (List.dropWhile_sublist p).trans hafter
  · intro h
    have htake : (l.takeWhile p).Sublist kept := by
      have hself : (l.takeWhile p).filter p = l.takeWhile p := List.filter_eq_self.2 fun _ hmem => List.mem_takeWhile_imp hmem
      rw [← hself]
      exact ((List.takeWhile_sublist p).filter p).trans hkept
    rw [← @List.takeWhile_append_dropWhile _ p l]
    exact htake.append h

/-! ## The lines that are kept -/

variable {place : Option (List UInt8)} {line key : List UInt8}

theorem sectionAfter_place (place : Option (List UInt8)) (line : List UInt8) :
    sectionAfter (decide (place = some wifiName)) line = decide (placeAfter place line = some wifiName) := by
  unfold sectionAfter placeAfter namesWifi
  dsimp only
  split_ifs
  · exact decide_eq_decide.2 Option.some_inj.symm
  · rfl

theorem placed_append (place : Option (List UInt8)) (text later : List (List UInt8)) :
    placed place (text ++ later) = placed place text ++ placed (placeAt place text) later := by
  induction text generalizing place with
  | nil => rfl
  | cons line text ih =>
    rw [List.cons_append, placed, placed, ih]
    rfl

theorem placed_completed (place : Option (List UInt8)) (text : List (List UInt8)) :
    placed place (text.map completed) = placed place text := by
  induction text generalizing place with
  | nil => rfl
  | cons line text ih =>
    rw [List.map_cons, placed, placed, content_completed, ih]

/-- The writer takes a line for its own if it owns it, or if it is a version line of another section. -/
theorem isOwnedLine_place (hlength : line.length ≤ fileMax) :
    isOwnedLine line (decide (place = some wifiName)) ↔ (Placed.mk place line).Owned ∨ (Placed.mk place line).Stray := by
  have hhome : ∀ key ∈ ownedKeys.tail, home key = some wifiName := by decide
  rw [isOwnedLine_iff]
  unfold Placed.Owned Placed.Stray Placed.Gives Placed.Assigns
  simp only [ownedKeys, List.mem_cons, List.not_mem_nil, or_false, exists_eq_or_imp, exists_eq_left,
    hhome ssidKey (by decide), hhome passwordKey (by decide), hhome nameKey (by decide), hhome autoConnectKey (by decide)]
  rw [home, if_pos rfl]
  by_cases hwifi : place = some wifiName
  · simp [hwifi, hlength, and_or_left]
  · by_cases hnone : place = none
    · simp [hnone, hlength]
    · simp [hwifi, hnone, hlength]

/-- The kept lines are the lines that are neither the writer's nor version lines of another section, in their sections. -/
theorem placed_keptLines {existing : List (List UInt8)} (hlength : ∀ line ∈ existing, (content line).length ≤ fileMax)
    (place : Option (List UInt8)) :
    placed place (keptLines (decide (place = some wifiName)) existing) =
      (placed place existing).filter fun line => decide ¬(line.Owned ∨ line.Stray) := by
  induction existing generalizing place with
  | nil => rfl
  | cons line later ih =>
    obtain ⟨hline, hlater⟩ := List.forall_mem_cons.1 hlength
    have hiff := @isOwnedLine_place (placeAfter place (content line)) (content line) hline
    rw [← sectionAfter_place] at hiff
    rw [placed]
    by_cases howned : isOwnedLine (content line) (sectionAfter (decide (place = some wifiName)) (content line))
    · have hplace : placeAfter place (content line) = place := if_neg (not_isSection_of_owned howned)
      rw [keptLines_owned howned, ih hlater place,
        List.filter_cons_of_neg (by simpa only [decide_eq_true_eq, not_not] using hiff.1 howned), hplace]
    · rw [keptLines_kept howned, List.filter_cons_of_pos (by simpa only [decide_eq_true_eq] using mt hiff.2 howned), placed,
        sectionAfter_place, ih hlater]

/-! ## The lines of the writer -/

theorem IsKey.zero_notMem (h : IsKey key) : 0 ∉ key := fun hmem => h.ne hmem (by decide) rfl

/-- What the writer finds in a line that starts with a key. -/
theorem IsKey.trim_cString (h : IsKey key) (value : List UInt8) :
    trim (cString (key ++ equals :: value)) = key ++ equals :: (cString value).rdropWhile isSpace := by
  have hcString : cString (key ++ equals :: value) = key ++ equals :: cString value := by
    rw [cString_append h.zero_notMem]
    rfl
  rw [hcString, h.trim_line]

theorem IsKey.placeAfter_line (h : IsKey key) (value : List UInt8) : placeAfter place (key ++ equals :: value) = place := by
  unfold placeAfter
  rw [h.trim_cString]
  exact if_neg fun hsection => h.head_line _ (by decide) hsection.2.1

theorem IsKey.assigns_line (h : IsKey key) (value key' : List UInt8) :
    (Placed.mk place (key ++ equals :: value)).Assigns key' ↔ key = key' := by
  unfold Placed.Assigns
  rw [h.trim_cString, h.keyOf_line]
  exact and_iff_right (List.mem_append_right _ List.mem_cons_self)

theorem content_append (h : newline ∉ line) (rest : List UInt8) : content (line ++ rest) = line ++ content rest :=
  List.takeWhile_append_of_pos fun byte hmem => by simpa using fun heq : byte = newline => h (heq ▸ hmem)

/-- Text before the first line of a text. -/
theorem lines_append_first (h : newline ∉ line) {text first : List UInt8} {later : List (List UInt8)}
    (htext : lines text = first :: later) :
    lines (line ++ text) = (line ++ first) :: later := by
  induction line with
  | nil => exact htext
  | cons byte line ih =>
    obtain ⟨hbyte, hline⟩ := not_or.1 (mt List.mem_cons.2 h)
    rw [List.cons_append, lines, if_neg (Ne.symm hbyte), ih hline]
    rfl

/-- The lines of two texts of which the first ends with a newline. -/
theorem lines_append_newline (text rest : List UInt8) :
    lines (text ++ newline :: rest) = lines (text ++ [newline]) ++ lines rest := by
  induction text with
  | nil =>
    have hcons : ∀ rest, lines (newline :: rest) = [newline] :: lines rest := fun _ => if_pos rfl
    rw [List.nil_append, List.nil_append, hcons, hcons]
    rfl
  | cons byte text ih =>
    rw [List.cons_append, List.cons_append, lines, lines, ih]
    split_ifs
    · rfl
    · cases hlines : lines (text ++ [newline]) with
      | nil =>
        have hflatten := flatten_lines (text ++ [newline])
        rw [hlines] at hflatten
        exact absurd hflatten.symm (by simp)
      | cons line later => rfl

/-- A quoted string gives its key a value, and goes on over the lines that its newlines begin. -/
theorem lines_quoted (hkey : IsKey key) (value rest : List UInt8) :
    ∃ first, lines (key ++ equals :: quoted (cString value) ++ newline :: rest) =
      (key ++ equals :: first) :: (continuation value ++ lines rest) := by
  have hline : newline ∉ key ++ [equals] := by
    intro hmem
    rcases List.mem_append.1 hmem with hmem | hmem
    · exact hkey.ne hmem (by decide) rfl
    · exact absurd hmem (by decide)
  cases hlines : lines (quoted (cString value) ++ [newline]) with
  | nil =>
    have hflatten := flatten_lines (quoted (cString value) ++ [newline])
    rw [hlines] at hflatten
    exact absurd hflatten.symm (by simp)
  | cons first later =>
    refine ⟨first, ?_⟩
    have hall : lines (quoted (cString value) ++ newline :: rest) = first :: (later ++ lines rest) := by
      rw [lines_append_newline, hlines]
      rfl
    have htext : key ++ equals :: quoted (cString value) ++ newline :: rest =
        key ++ [equals] ++ (quoted (cString value) ++ newline :: rest) := by
      simp only [List.append_assoc, List.cons_append, List.nil_append]
    rw [htext, lines_append_first hline hall, continuation, hlines, List.append_assoc]
    rfl

theorem placed_line (hkey : IsKey key) (place : Option (List UInt8)) (first : List UInt8) (later : List (List UInt8)) :
    placed place ((key ++ equals :: first) :: later) = ⟨place, key ++ equals :: content first⟩ :: placed place later := by
  have hline : newline ∉ key ++ [equals] := by
    intro hmem
    rcases List.mem_append.1 hmem with hmem | hmem
    · exact hkey.ne hmem (by decide) rfl
    · exact absurd hmem (by decide)
  have hcontent : content (key ++ equals :: first) = key ++ equals :: content first := by
    have happend := content_append hline first
    simpa only [List.append_assoc, List.cons_append, List.nil_append] using happend
  rw [placed, hcontent, hkey.placeAfter_line]

/-- The lines of the writer's section in their sections: those that it writes, and those that the strings go on over. -/
theorem placed_assignments {config : NetworkConfig} (h : Writable config) : ∃ ssid password name autoConnect,
    placed (some wifiName) (lines (assignments config)) = ⟨some wifiName, ssidKey ++ equals :: ssid⟩ ::
      (placed (some wifiName) (continuation config.ssid) ++ ⟨afterSsid config, passwordKey ++ equals :: password⟩ ::
        (placed (afterSsid config) (continuation config.password) ++
          [⟨afterPassword config, nameKey ++ equals :: name⟩, ⟨afterPassword config, autoConnectKey ++ equals :: autoConnect⟩])) := by
  have hname : newline ∉ nameKey ++ equals :: quoted (cString (writtenName config)) :=
    isKey_nameKey.notMem_line (by decide) (by decide)
      (notMem_quoted (validHostname_notMem (writtenName_valid h) (by decide) (by decide)) (by decide) (by decide))
  have hautoConnect : newline ∉ autoConnectKey ++ equals :: booleanText config.autoConnect := by
    cases config.autoConnect <;> decide
  obtain ⟨ssid, hssid⟩ := lines_quoted isKey_ssidKey config.ssid
    (passwordKey ++ equals :: quoted (cString config.password) ++ newline ::
      (nameKey ++ equals :: quoted (cString (writtenName config)) ++ newline ::
        (autoConnectKey ++ equals :: booleanText config.autoConnect ++ newline :: [])))
  obtain ⟨password, hpassword⟩ := lines_quoted isKey_passwordKey config.password
    (nameKey ++ equals :: quoted (cString (writtenName config)) ++ newline ::
      (autoConnectKey ++ equals :: booleanText config.autoConnect ++ newline :: []))
  have hnameLine : nameKey ++ equals :: quoted (cString (writtenName config)) ++ [newline] =
      nameKey ++ equals :: (quoted (cString (writtenName config)) ++ [newline]) := by
    simp only [List.append_assoc, List.cons_append]
  have hautoLine : autoConnectKey ++ equals :: booleanText config.autoConnect ++ [newline] =
      autoConnectKey ++ equals :: (booleanText config.autoConnect ++ [newline]) := by
    simp only [List.append_assoc, List.cons_append]
  refine ⟨content ssid, content password, content (quoted (cString (writtenName config)) ++ [newline]),
    content (booleanText config.autoConnect ++ [newline]), ?_⟩
  rw [assignments, hssid, hpassword, lines_line hname, lines_line hautoConnect, hnameLine, hautoLine, placed_line isKey_ssidKey,
    placed_append, ← afterSsid, placed_line isKey_passwordKey, placed_append, ← afterPassword, placed_line isKey_nameKey,
    placed_line isKey_autoConnectKey]
  rfl

/-! ## The output in its sections -/

/-- The line of the version. -/
def versionLine : List UInt8 := versionKey ++ equals :: versionOne

/-- The lines of the output before those that give the keys of the writer's section their values. -/
def before (existing : List UInt8) : List Placed :=
  ⟨none, versionLine⟩ :: ((foreignLines existing).filter fun line => decide ¬line.Stray) ++
    [⟨placeAt none (keptLines false (lines existing)), []⟩, ⟨some wifiName, headerLine⟩]

theorem placed_written {existing : List UInt8} (hlength : ∀ line ∈ lines existing, (content line).length ≤ fileMax)
    (config : NetworkConfig) :
    placed none (lines (versionKey ++ equals :: versionOne ++ newline ::
      ((keptLines false (lines existing)).flatMap completed ++ sectionText config))) =
      before existing ++ placed (some wifiName) (lines (assignments config)) := by
  have hversion : placeAfter none (content (versionKey ++ equals :: versionOne ++ [newline])) = none := by decide
  have hcontent : content (versionKey ++ equals :: versionOne ++ [newline]) = versionLine := by decide
  have hheader : content (headerLine ++ [newline]) = headerLine := by decide
  have hwifi : ∀ place, placeAfter place headerLine = some wifiName := by
    intro place
    have hsection : IsSection (trim (cString headerLine)) := by decide
    have hnamed : trim (trim (cString headerLine)).dropLast.tail = wifiName := by decide
    unfold placeAfter
    rw [if_pos hsection, hnamed]
  have hempty : ¬IsSection (trim (cString (content [newline]))) := by decide
  have hblank : ∀ place, placeAfter place (content [newline]) = place := by
    intro place
    unfold placeAfter
    exact if_neg hempty
  have hkept := placed_keptLines hlength none
  have hsame : (placed none (lines existing)).filter (fun line => decide ¬(line.Owned ∨ line.Stray)) =
      (foreignLines existing).filter fun line => decide ¬line.Stray := by
    rw [foreignLines, List.filter_filter]
    refine List.filter_congr fun line _ => ?_
    simp only [not_or, Bool.decide_and]
    exact Bool.and_comm _ _
  have hplace : ∀ text : List (List UInt8), placeAt none (text.map completed) = placeAt none text := by
    intro text
    unfold placeAt
    rw [List.foldl_map]
    exact congrArg (fun f => text.foldl f none) (funext fun place => funext fun line => by rw [content_completed])
  rw [lines_written, placed, hversion, hcontent, placed_append, placed_completed, hplace, lines_sectionText, placed, placed, hblank,
    hheader, hwifi, before, ← hsame, ← hkept]
  simp only [List.cons_append, List.append_assoc, List.nil_append]
  rfl

/-! ## The owned keys of the output -/

theorem place_ne_none {name : List UInt8} {text : List (List UInt8)} : ∀ line ∈ placed (some name) text, line.place ≠ none := by
  induction text generalizing name with
  | nil => exact fun _ hmem => absurd hmem List.not_mem_nil
  | cons line text ih =>
    have hplace : ∃ name', placeAfter (some name) (content line) = some name' := by
      unfold placeAfter
      dsimp only
      split_ifs
      · exact ⟨_, rfl⟩
      · exact ⟨name, rfl⟩
    obtain ⟨name', hname'⟩ := hplace
    rw [placed, hname']
    exact List.forall_mem_cons.2 ⟨Option.some_ne_none name', ih⟩

/-- No version line stands after a header of the writer's section. -/
theorem countP_version (config : NetworkConfig) :
    (placed (some wifiName) (lines (assignments config))).countP (fun line => decide (line.Gives versionKey)) = 0 := by
  refine List.countP_eq_zero.2 fun line hmem hgives => ?_
  exact place_ne_none line hmem (of_decide_eq_true hgives).1

/-- The lines before the writer's values give the version once, and no other owned key. -/
theorem countP_before (existing : List UInt8) (hkey : key ∈ ownedKeys) :
    (before existing).countP (fun line => decide (line.Gives key)) = if key = versionKey then 1 else 0 := by
  have hversion : ∀ key ∈ ownedKeys, decide ((Placed.mk none versionLine).Gives key) = decide (key = versionKey) := by decide
  have hheader : ∀ key ∈ ownedKeys, decide ((Placed.mk (some wifiName) headerLine).Gives key) = false := by decide
  have hblank : ∀ place, decide ((Placed.mk place []).Gives key) = false := by
    intro place
    exact decide_eq_false fun hgives => absurd hgives.2.1 List.not_mem_nil
  have hforeign : ((foreignLines existing).filter fun line => decide ¬line.Stray).countP (fun line => decide (line.Gives key)) = 0 := by
    refine List.countP_eq_zero.2 fun line hmem hgives => ?_
    have howned := (List.mem_filter.1 (List.mem_filter.1 hmem).1).2
    exact of_decide_eq_true howned ⟨key, hkey, of_decide_eq_true hgives⟩
  rw [before, List.countP_append, List.countP_cons, hforeign, List.countP_cons, List.countP_cons, List.countP_nil, hversion key hkey,
    hheader key hkey, hblank]
  simp only [decide_eq_true_eq, Bool.false_eq_true, if_false, Nat.zero_add, Nat.add_zero]

/-- The lines of the writer's section give a key its value once for every line within the strings that does, and once more where the
writer does so in its section. -/
theorem countP_assignments {config : NetworkConfig} (h : Writable config) (hkey : key ∈ ownedKeys.tail) :
    (placed (some wifiName) (lines (assignments config))).countP (fun line => decide (line.Gives key)) =
      (continued config).countP (fun line => decide (line.Gives key)) + if givenIn config key = some wifiName then 1 else 0 := by
  have hhome : ∀ key ∈ ownedKeys.tail, home key = some wifiName := by decide
  have hgives : ∀ {key'}, IsKey key' → ∀ place value,
      (Placed.mk place (key' ++ equals :: value)).Gives key ↔ place = some wifiName ∧ key' = key := by
    intro key' hkey' place value
    unfold Placed.Gives
    rw [hkey'.assigns_line, hhome key hkey]
  obtain ⟨ssid, password, name, autoConnect, hplaced⟩ := placed_assignments h
  rw [hplaced, continued]
  simp only [List.countP_append, List.countP_cons, List.countP_nil, hgives isKey_ssidKey, hgives isKey_passwordKey, hgives isKey_nameKey,
    hgives isKey_autoConnectKey, decide_eq_true_eq]
  have hdistinct : ssidKey ≠ passwordKey ∧ ssidKey ≠ nameKey ∧ ssidKey ≠ autoConnectKey ∧ passwordKey ≠ nameKey ∧
      passwordKey ≠ autoConnectKey ∧ nameKey ≠ autoConnectKey := by decide
  obtain ⟨h₁, h₂, h₃, h₄, h₅, h₆⟩ := hdistinct
  simp only [ownedKeys, List.tail_cons, List.mem_cons, List.not_mem_nil, or_false] at hkey
  rcases hkey with rfl | rfl | rfl | rfl
  · simp [givenIn, h₁.symm, h₂.symm, h₃.symm]
  · simp [givenIn, h₁, h₁.symm, h₄.symm, h₅.symm]
    omega
  · simp [givenIn, h₂, h₂.symm, h₄, h₄.symm, h₆.symm]
    omega
  · simp [givenIn, h₃, h₃.symm, h₅, h₅.symm, h₆]
    omega

/-- An update preserves the foreign lines and gives every owned key once exactly when the existing text and the strings of the
configuration do not disturb it. -/
theorem preserved_iff {existing : List UInt8} {config : NetworkConfig} {capacity : Nat} {output : List UInt8}
    (h : networkConfigFormatUpdate existing config capacity = .ok output) :
    Preserved existing output ↔ Undisturbed existing config := by
  obtain ⟨hwritable, hlength, rfl⟩ := eq_of_networkConfigFormatUpdate h
  have hkept : ((foreignLines existing).filter fun line => decide ¬line.Stray).Sublist (before existing) := by
    rw [before, List.cons_append]
    exact ((List.sublist_append_left _ _).trans (List.sublist_cons_self _ _))
  have hall : ∀ line ∈ before existing, decide (¬line.Stray) = true := by
    intro line hmem
    rw [decide_eq_true_eq]
    rcases List.mem_append.1 hmem with hmem | hmem
    · rcases List.mem_cons.1 hmem with rfl | hmem
      · exact fun hstray => hstray.1 rfl
      · exact of_decide_eq_true (List.mem_filter.1 hmem).2
    · rcases List.mem_cons.1 hmem with rfl | hmem
      · exact fun hstray => absurd hstray.2.2.1 List.not_mem_nil
      · obtain rfl := List.mem_singleton.1 hmem
        exact fun hstray => hstray.2.1 rfl
  unfold Preserved
  rw [placed_written hlength, sublist_append_iff_dropWhile hkept hall]
  have hother : ∀ key ∈ ownedKeys.tail, key ≠ versionKey := by decide
  constructor
  · rintro ⟨hspelled, honce⟩
    refine ⟨hspelled, fun key hkey => ?_⟩
    have hmem : key ∈ ownedKeys := List.mem_of_mem_tail hkey
    have hone := honce key hmem
    rw [List.countP_append, countP_before existing hmem, if_neg (hother key hkey), Nat.zero_add,
      countP_assignments hwritable hkey] at hone
    exact hone
  · rintro ⟨hspelled, honce⟩
    refine ⟨hspelled, fun key hmem => ?_⟩
    rw [List.countP_append, countP_before existing hmem]
    rcases List.mem_cons.1 hmem with rfl | hkey
    · rw [if_pos rfl, countP_version]
    · rw [if_neg (hother key hkey), Nat.zero_add, countP_assignments hwritable hkey]
      exact honce key hkey

instance (existing output : List UInt8) : Decidable (Preserved existing output) := inferInstanceAs (Decidable (_ ∧ _))

instance (existing : List UInt8) (config : NetworkConfig) : Decidable (Undisturbed existing config) :=
  decidable_of_iff (((foreignLines existing).dropWhile fun line => decide ¬line.Stray).Sublist
      (placed (some wifiName) (lines (assignments config))) ∧
    ∀ key ∈ ownedKeys.tail, (continued config).countP (fun line => decide (line.Gives key)) +
      (if givenIn config key = some wifiName then 1 else 0) = 1) ⟨fun h => ⟨h.1, h.2⟩, fun h => ⟨h.spelled, h.once⟩⟩

theorem continuation_eq_nil {value : List UInt8} (h : newline ∉ cString value) : continuation value = [] := by
  rw [continuation, lines_line (notMem_quoted h (by decide) (by decide))]
  rfl

/-- When the strings have no newline, an update preserves the foreign lines exactly when no version line stands in another section. -/
theorem preserved_iff_of_singleLine {existing : List UInt8} {config : NetworkConfig} {capacity : Nat} {output : List UInt8}
    (h : networkConfigFormatUpdate existing config capacity = .ok output) (hline : SingleLine config) :
    Preserved existing output ↔ ∀ line ∈ foreignLines existing, ¬line.Stray := by
  have hssid := continuation_eq_nil hline.1
  have hpassword := continuation_eq_nil hline.2
  have hafterSsid : afterSsid config = some wifiName := by
    rw [afterSsid, hssid]
    rfl
  have hafterPassword : afterPassword config = some wifiName := by
    rw [afterPassword, hpassword, hafterSsid]
    rfl
  obtain ⟨hwritable, -⟩ := eq_of_networkConfigFormatUpdate h
  obtain ⟨ssid, password, name, autoConnect, hplaced⟩ := placed_assignments hwritable
  rw [hssid, hpassword, hafterSsid, hafterPassword] at hplaced
  have hstray : ∀ line ∈ placed (some wifiName) (lines (assignments config)), decide (¬line.Stray) = true := by
    intro line hmem
    rw [hplaced] at hmem
    have hplace : line.place = some wifiName := by
      simp only [placed, List.nil_append, List.mem_cons, List.not_mem_nil, or_false] at hmem
      rcases hmem with rfl | rfl | rfl | rfl <;> rfl
    exact decide_eq_true fun hstray => hstray.2.1 hplace
  rw [preserved_iff h]
  constructor
  · intro hundisturbed line hmem
    have hnil : ((foreignLines existing).dropWhile fun line => decide ¬line.Stray) = [] := by
      by_contra hne
      have hhead := List.head_dropWhile_not (fun line : Placed => decide ¬line.Stray) hne
      rw [hstray _ (hundisturbed.spelled.subset (List.head_mem hne))] at hhead
      cases hhead
    exact of_decide_eq_true (List.dropWhile_eq_nil_iff.1 hnil line hmem)
  · intro hnone
    refine ⟨?_, fun key _ => ?_⟩
    · rw [List.dropWhile_eq_nil_iff.2 fun line hmem => decide_eq_true (hnone line hmem)]
      exact List.nil_sublist _
    · have hgiven : givenIn config key = some wifiName := by
        unfold givenIn
        rw [hafterSsid, hafterPassword, ite_self, ite_self]
      rw [continued, hssid, hpassword, if_pos hgiven]
      rfl

/-- The text of a section for something else, with a line of its own. -/
def otherSection (line : List UInt8) : List UInt8 := openBracket :: ascii ['d', 'n', 's'] ++ closeBracket :: newline :: line ++ [newline]

theorem preserved_other :
    let existing := otherSection (nameKey ++ equals :: versionOne)
    let output := versionLine ++ newline :: (existing ++ sectionText plainConfig)
    networkConfigFormatUpdate existing plainConfig (fileMax + 1) = .ok output ∧ Preserved existing output := by
  intro existing output
  have hformat : networkConfigFormatUpdate existing plainConfig (fileMax + 1) = .ok output := by decide
  exact ⟨hformat, (preserved_iff hformat).2 (by decide)⟩

/-- A version line of another section is lost, and a newline in the name of a network gives the name twice. -/
theorem update_disturbs :
    let split : NetworkConfig := { plainConfig with ssid := 0x61 :: newline :: ssidKey ++ [equals] }
    let existing := otherSection (versionKey ++ equals :: versionOne)
    let output := versionLine ++ newline :: (openBracket :: ascii ['d', 'n', 's'] ++ closeBracket :: newline :: sectionText plainConfig)
    (networkConfigFormatUpdate existing plainConfig (fileMax + 1) = .ok output ∧ ¬Preserved existing output) ∧
      networkConfigFormatUpdate [] split (fileMax + 1) = .ok (versionLine ++ newline :: sectionText split) ∧
        ¬Preserved [] (versionLine ++ newline :: sectionText split) := by
  decide

end Net
end TabOS
