import TabOS.Net.Config

/-!
# Reading back what was written

The text of the writer is a list of lines: the version, the kept lines of the existing file, and its own section. The parser reads
a kept line without an effect other than on the section, exactly when it is readable and has no zero; it reads the section of the
writer back, exactly when no string has a newline.
-/

namespace TabOS
namespace Net

/-! ## Lines -/

theorem lines_line {text : List UInt8} (h : newline ∉ text) (rest : List UInt8) :
    lines (text ++ newline :: rest) = (text ++ [newline]) :: lines rest := by
  induction text with
  | nil => exact if_pos rfl
  | cons byte text ih =>
    obtain ⟨hbyte, htext⟩ := not_or.1 (mt List.mem_cons.2 h)
    rw [List.cons_append, lines, if_neg (Ne.symm hbyte), ih htext]
    rfl

theorem lines_last {text : List UInt8} (h : newline ∉ text) (hne : text ≠ []) : lines text = [text] := by
  induction text with
  | nil => exact absurd rfl hne
  | cons byte text ih =>
    obtain ⟨hbyte, htext⟩ := not_or.1 (mt List.mem_cons.2 h)
    rw [lines, if_neg (Ne.symm hbyte)]
    by_cases hnil : text = []
    · rw [hnil]
      rfl
    · rw [ih htext hnil]

theorem newline_notMem_content (line : List UInt8) : newline ∉ content line := by
  intro hmem
  simpa using List.mem_takeWhile_imp hmem

theorem content_line {text : List UInt8} (h : newline ∉ text) (rest : List UInt8) : content (text ++ newline :: rest) = text := by
  rw [content, List.takeWhile_append_of_pos fun byte hmem => by simpa using fun heq : byte = newline => h (heq ▸ hmem),
    List.takeWhile_cons_of_neg (by simp), List.append_nil]

theorem content_eq {text : List UInt8} (h : newline ∉ text) : content text = text := by
  rw [content, List.takeWhile_eq_self_iff]
  exact fun byte hmem => by simpa using fun heq : byte = newline => h (heq ▸ hmem)

theorem zero_notMem_cString (bytes : List UInt8) : 0 ∉ cString bytes := by
  intro hmem
  simpa using List.mem_takeWhile_imp hmem

theorem cString_eq {bytes : List UInt8} (h : 0 ∉ bytes) : cString bytes = bytes := by
  rw [cString, List.takeWhile_eq_self_iff]
  exact fun byte hmem => by simpa using fun heq : byte = 0 => h (heq ▸ hmem)

theorem cString_append {before : List UInt8} (h : 0 ∉ before) (after : List UInt8) :
    cString (before ++ after) = before ++ cString after :=
  List.takeWhile_append_of_pos fun byte hmem => by simpa using fun heq : byte = 0 => h (heq ▸ hmem)

theorem cString_append_of_mem {before : List UInt8} (h : 0 ∈ before) (after : List UInt8) :
    cString (before ++ after) = cString before := by
  induction before with
  | nil => cases h
  | cons byte before ih =>
    by_cases hbyte : byte = 0
    · rw [hbyte]
      rfl
    · have hmem : 0 ∈ before := (List.mem_cons.1 h).resolve_left (Ne.symm hbyte)
      rw [cString, cString, List.cons_append, List.takeWhile_cons_of_pos (by simpa using hbyte),
        List.takeWhile_cons_of_pos (by simpa using hbyte)]
      exact congrArg _ (ih hmem)

/-- A text whose lines end in newlines, except the last one. -/
inductive AreLines : List (List UInt8) → Prop
  | nil : AreLines []
  | last {text : List UInt8} (hline : newline ∉ text) (hne : text ≠ []) : AreLines [text]
  | cons {text : List UInt8} {later : List (List UInt8)} (hline : newline ∉ text) (hlater : AreLines later) :
    AreLines ((text ++ [newline]) :: later)

theorem areLines_lines (text : List UInt8) : AreLines (lines text) := by
  induction text with
  | nil => exact .nil
  | cons byte text ih =>
    rw [lines]
    split_ifs with hbyte
    · rw [hbyte]
      exact .cons (show newline ∉ ([] : List UInt8) from List.not_mem_nil) ih
    · have hcons {line : List UInt8} (h : newline ∉ line) : newline ∉ byte :: line :=
        fun hmem => (List.mem_cons.1 hmem).elim (fun heq => hbyte heq.symm) h
      cases hlines : lines text with
      | nil => exact .last (hcons List.not_mem_nil) (List.cons_ne_nil _ _)
      | cons line later =>
        rw [hlines] at ih
        cases ih with
        | last hline hne => exact .last (hcons hline) (List.cons_ne_nil _ _)
        | cons hline hlater => exact .cons (hcons hline) hlater

theorem flatten_lines (text : List UInt8) : (lines text).flatten = text := by
  induction text with
  | nil => rfl
  | cons byte text ih =>
    rw [lines]
    split_ifs with hbyte
    · rw [List.flatten_cons, ih]
      rfl
    · cases hlines : lines text with
      | nil =>
        rw [hlines] at ih
        rw [← ih]
        rfl
      | cons line later =>
        rw [hlines] at ih
        rw [← ih]
        rfl

theorem AreLines.of_cons {line : List UInt8} {later : List (List UInt8)} (h : AreLines (line :: later)) : AreLines later := by
  cases h with
  | last hline hne => exact .nil
  | cons hline hlater => exact hlater

/-! ## Trimming -/

theorem trim_append_space {text : List UInt8} {byte : UInt8} (h : isSpace byte) : trim (text ++ [byte]) = trim text := by
  rw [trim, trim, List.dropWhile_append]
  split_ifs with hnil
  · have hempty : text.dropWhile isSpace = [] := by simpa using hnil
    rw [hempty, List.dropWhile_cons_of_pos h]
    rfl
  · rw [List.rdropWhile_concat_pos _ _ _ h]

theorem trim_dropReturn (line : List UInt8) : trim (dropReturn line) = trim line := by
  rw [dropReturn]
  split_ifs with hlast
  · obtain ⟨front, rfl⟩ := List.getLast?_eq_some_iff.1 hlast
    rw [List.dropLast_concat, trim_append_space (by decide)]
  · rfl

/-- A text that starts and ends with bytes other than spaces. -/
theorem trim_eq {text : List UInt8} (hhead : ∀ byte ∈ text.head?, isSpace byte = false)
    (hlast : ∀ byte ∈ text.getLast?, isSpace byte = false) : trim text = text := by
  have hfront : text.dropWhile isSpace = text := by
    cases text with
    | nil => rfl
    | cons byte text => exact List.dropWhile_cons_of_neg (by rw [hhead byte rfl]; exact Bool.false_ne_true)
  rw [trim, hfront, List.rdropWhile_eq_self_iff]
  intro hne
  rw [hlast _ (List.getLast?_eq_some_getLast hne)]
  exact Bool.false_ne_true

theorem rdropWhile_append_cons {byte : UInt8} (h : isSpace byte = false) (before after : List UInt8) :
    (before ++ byte :: after).rdropWhile isSpace = before ++ byte :: after.rdropWhile isSpace := by
  induction after using List.reverseRecOn with
  | nil => exact List.rdropWhile_concat_neg _ _ _ (by rw [h]; exact Bool.false_ne_true)
  | append_singleton after last ih =>
    rw [← List.cons_append, ← List.append_assoc]
    by_cases hlast : isSpace last
    · rw [List.rdropWhile_concat_pos _ _ _ hlast, List.rdropWhile_concat_pos _ _ _ hlast, ih]
    · rw [List.rdropWhile_concat_neg _ _ _ hlast, List.rdropWhile_concat_neg _ _ _ hlast, List.append_assoc]
      rfl

/-- Trimming a text that starts with a byte other than a space. -/
theorem trim_cons {byte : UInt8} (h : isSpace byte = false) (text : List UInt8) :
    trim (byte :: text) = byte :: text.rdropWhile isSpace := by
  rw [trim, List.dropWhile_cons_of_neg (by rw [h]; exact Bool.false_ne_true)]
  exact rdropWhile_append_cons h [] text

theorem trim_rdropWhile (text : List UInt8) : trim (text.rdropWhile isSpace) = trim text := by
  induction text using List.reverseRecOn with
  | nil => rfl
  | append_singleton text last ih =>
    by_cases hlast : isSpace last
    · rw [List.rdropWhile_concat_pos _ _ _ hlast, ih, trim_append_space hlast]
    · rw [List.rdropWhile_concat_neg _ _ _ hlast]

/-! ## Quoting -/

/-- A byte that is written after a backslash. -/
def Escaped (byte : UInt8) : Prop := byte = backslash ∨ byte = quote

instance (byte : UInt8) : Decidable (Escaped byte) := decidable_of_iff (byte = backslash ∨ byte = quote) Iff.rfl

def escapeByte (byte : UInt8) : List UInt8 := if Escaped byte then [backslash, byte] else [byte]

/-- What stands between the quotes of a string. -/
def escape (value : List UInt8) : List UInt8 := value.flatMap escapeByte

@[simp] theorem escape_nil : escape [] = [] := rfl

theorem escape_append (before after : List UInt8) : escape (before ++ after) = escape before ++ escape after := List.flatMap_append

theorem escape_cons_escaped {byte : UInt8} (h : Escaped byte) (value : List UInt8) :
    escape (byte :: value) = backslash :: byte :: escape value := by
  rw [escape, List.flatMap_cons, escapeByte, if_pos h]
  rfl

theorem escape_cons_plain {byte : UInt8} (h : ¬Escaped byte) (value : List UInt8) :
    escape (byte :: value) = byte :: escape value := by
  rw [escape, List.flatMap_cons, escapeByte, if_neg h]
  rfl

theorem mem_escape {value : List UInt8} {byte : UInt8} (h : byte ∈ escape value) : byte = backslash ∨ byte ∈ value := by
  obtain ⟨byte', hmem, hbyte⟩ := List.mem_flatMap.1 h
  rw [escapeByte] at hbyte
  split_ifs at hbyte
  · rcases List.mem_cons.1 hbyte with heq | hbyte
    · exact Or.inl heq
    · exact Or.inr (List.mem_singleton.1 hbyte ▸ hmem)
  · exact Or.inr (List.mem_singleton.1 hbyte ▸ hmem)

/-- A quoted string is read back where there is room for it. -/
theorem parseQuotedRest_escape {capacity : Nat} (value : List UInt8) {destination : List UInt8}
    (h : destination.length + value.length < capacity) :
    parseQuotedRest capacity (escape value ++ [quote]) destination = some (destination ++ value) := by
  induction value generalizing destination with
  | nil =>
    rw [escape_nil, List.nil_append, parseQuotedRest, if_pos rfl, if_neg (not_not.2 rfl), List.append_nil]
  | cons byte value ih =>
    have hroom : ¬destination.length + 1 ≥ capacity := by
      rw [List.length_cons] at h
      omega
    have hrest : parseQuotedRest capacity (escape value ++ [quote]) (destination ++ [byte]) =
        some ((destination ++ [byte]) ++ value) := by
      refine ih ?_
      simp only [List.length_append, List.length_cons, List.length_nil] at h ⊢
      omega
    rw [List.append_assoc] at hrest
    by_cases hbyte : Escaped byte
    · have hnot : ¬(byte ≠ backslash ∧ byte ≠ quote) := fun hne => hbyte.elim hne.1 hne.2
      rw [escape_cons_escaped hbyte, List.cons_append, List.cons_append, parseQuotedRest, if_neg (by decide), if_pos rfl]
      simp only [if_neg hnot, if_neg hroom]
      exact hrest
    · rw [escape_cons_plain hbyte, List.cons_append, parseQuotedRest.eq_def]
      simp only [if_neg (show byte ≠ quote from fun heq => hbyte (Or.inr heq)),
        if_neg (show byte ≠ backslash from fun heq => hbyte (Or.inl heq)), if_neg hroom]
      exact hrest

/-- Only quoted strings are read. -/
theorem eq_escape_of_parseQuotedRest {capacity : Nat} {source destination result : List UInt8}
    (h : parseQuotedRest capacity source destination = some result) : ∃ value, source = escape value ++ [quote] := by
  induction source, destination using parseQuotedRest.induct capacity with
  | case1 destination =>
    rw [parseQuotedRest] at h
    cases h
  | case2 source destination hmore =>
    rw [parseQuotedRest.eq_def] at h
    simp only [if_true, if_pos hmore] at h
    cases h
  | case3 source destination hmore =>
    exact ⟨[], by rw [not_not.1 hmore]; rfl⟩
  | case4 destination hne =>
    simp only [parseQuotedRest, if_neg hne, if_true] at h
    cases h
  | case5 destination byte rest hbad hne =>
    simp only [parseQuotedRest, if_neg hne, if_true, if_pos hbad] at h
    cases h
  | case6 destination byte rest hgood hfull hne =>
    simp only [parseQuotedRest, if_neg hne, if_true, if_neg hgood, if_pos hfull] at h
    cases h
  | case7 destination byte rest hgood hroom hne ih =>
    simp only [parseQuotedRest, if_neg hne, if_true, if_neg hgood, if_neg hroom] at h
    obtain ⟨value, hvalue⟩ := ih h
    have hbyte : Escaped byte := (not_and_or.1 hgood).imp not_not.1 not_not.1
    exact ⟨byte :: value, by rw [escape_cons_escaped hbyte, hvalue]; rfl⟩
  | case8 byte source destination hquote hbackslash hfull =>
    rw [parseQuotedRest.eq_def] at h
    simp only [if_neg hquote, if_neg hbackslash, if_pos hfull] at h
    cases h
  | case9 byte source destination hquote hbackslash hroom ih =>
    rw [parseQuotedRest.eq_def] at h
    simp only [if_neg hquote, if_neg hbackslash, if_neg hroom] at h
    obtain ⟨value, hvalue⟩ := ih h
    exact ⟨byte :: value, by rw [escape_cons_plain (not_or.2 ⟨hbackslash, hquote⟩), hvalue]; rfl⟩

/-- No part of what stands between quotes ends the string. -/
theorem escape_ne {value value' : List UInt8} (rest : List UInt8) : escape value ≠ escape value' ++ quote :: rest := by
  induction value' generalizing value with
  | nil =>
    cases value with
    | nil => exact (List.cons_ne_nil _ _).symm
    | cons byte value =>
      by_cases hbyte : Escaped byte
      · rw [escape_cons_escaped hbyte]
        exact fun h => absurd (List.cons.inj h).1 (by decide)
      · rw [escape_cons_plain hbyte]
        exact fun h => hbyte (Or.inr (List.cons.inj h).1)
  | cons byte' value' ih =>
    cases value with
    | nil => exact fun h => absurd (List.append_eq_nil_iff.1 h.symm).2 (List.cons_ne_nil _ _)
    | cons byte value =>
      by_cases hbyte : Escaped byte
      · rw [escape_cons_escaped hbyte]
        by_cases hbyte' : Escaped byte'
        · rw [escape_cons_escaped hbyte']
          exact fun h => ih (List.cons.inj (List.cons.inj h).2).2
        · rw [escape_cons_plain hbyte']
          exact fun h => hbyte' (Or.inl (List.cons.inj h).1.symm)
      · rw [escape_cons_plain hbyte]
        by_cases hbyte' : Escaped byte'
        · rw [escape_cons_escaped hbyte']
          exact fun h => hbyte (Or.inl (List.cons.inj h).1)
        · rw [escape_cons_plain hbyte']
          exact fun h => ih (List.cons.inj h).2

def quoted (value : List UInt8) : List UInt8 := quote :: (escape value ++ [quote])

theorem trim_quoted (value : List UInt8) : trim (quoted value) = quoted value := by
  refine trim_eq (fun byte hbyte => ?_) fun byte hbyte => ?_
  · obtain rfl := Option.some.inj hbyte
    decide
  · rw [quoted, ← List.cons_append, List.getLast?_concat] at hbyte
    obtain rfl := Option.some.inj hbyte
    decide

theorem parseQuoted_quoted {capacity : Nat} {value : List UInt8} (h : value.length < capacity) :
    parseQuoted capacity (quoted value) = some value := by
  rw [quoted, parseQuoted, if_neg (by simp only [ne_eq, not_true_eq_false, false_or]; omega)]
  exact parseQuotedRest_escape value (by rwa [List.length_nil, Nat.zero_add])

/-- A string whose closing quote is missing is not read. -/
theorem parseQuoted_unterminated (capacity : Nat) (value : List UInt8) :
    parseQuoted capacity (trim (quote :: escape value)) = none := by
  rw [trim_cons (by decide), parseQuoted]
  split_ifs
  · rfl
  · by_contra hread
    obtain ⟨result, hresult⟩ := Option.ne_none_iff_exists'.1 hread
    obtain ⟨value', hvalue'⟩ := eq_escape_of_parseQuotedRest hresult
    obtain ⟨rest, hrest⟩ := List.rdropWhile_prefix isSpace (escape value)
    rw [hvalue', List.append_assoc] at hrest
    exact escape_ne rest hrest.symm

/-! ## Reading a line -/

/-- A text of letters and underscores, which come after the other bytes that the parser looks at. -/
def IsKey (key : List UInt8) : Prop := key ≠ [] ∧ ∀ byte ∈ key, 0x5f ≤ byte

theorem IsKey.ne {key : List UInt8} (h : IsKey key) {byte other : UInt8} (hmem : byte ∈ key) (hother : ¬0x5f ≤ other) :
    byte ≠ other := fun heq => hother (heq ▸ h.2 byte hmem)

theorem IsKey.not_space {key : List UInt8} (h : IsKey key) {byte : UInt8} (hmem : byte ∈ key) : isSpace byte = false := by
  have hge : (0x5f : UInt8).toNat ≤ byte.toNat := UInt8.le_iff_toNat_le.1 (h.2 byte hmem)
  have hgt : ¬byte ≤ 0x0d := fun hle => by
    have hle' : byte.toNat ≤ (0x0d : UInt8).toNat := UInt8.le_iff_toNat_le.1 hle
    exact absurd (le_trans hge hle') (by decide)
  rw [isSpace, decide_eq_false (h.ne hmem (by decide)), decide_eq_false hgt, Bool.and_false, Bool.or_false]

theorem IsKey.trim_eq {key : List UInt8} (h : IsKey key) : trim key = key :=
  Net.trim_eq (fun _ hbyte => h.not_space (List.mem_of_head? hbyte)) fun _ hbyte => h.not_space (List.mem_of_getLast? hbyte)

theorem isKey_of_all {key : List UInt8} (hne : key ≠ []) (h : key.all (fun byte => decide (0x5f ≤ byte.toNat)) = true) : IsKey key :=
  ⟨hne, fun byte hmem => UInt8.le_iff_toNat_le.2 (of_decide_eq_true (List.all_eq_true.1 h byte hmem))⟩

theorem isKey_versionKey : IsKey versionKey := isKey_of_all (by decide) (by decide)

theorem isKey_ssidKey : IsKey ssidKey := isKey_of_all (by decide) (by decide)

theorem isKey_passwordKey : IsKey passwordKey := isKey_of_all (by decide) (by decide)

theorem isKey_nameKey : IsKey nameKey := isKey_of_all (by decide) (by decide)

theorem isKey_autoConnectKey : IsKey autoConnectKey := isKey_of_all (by decide) (by decide)

/-- A line that starts with a key. -/
theorem IsKey.trim_line {key : List UInt8} (h : IsKey key) (value : List UInt8) :
    trim (key ++ equals :: value) = key ++ equals :: value.rdropWhile isSpace := by
  obtain ⟨first, key', hcons⟩ := List.exists_cons_of_ne_nil h.1
  have hfirst : first ∈ key := hcons ▸ List.mem_cons_self
  rw [hcons, List.cons_append, trim_cons (h.not_space hfirst), rdropWhile_append_cons (by decide)]
  rfl

theorem IsKey.decide_ne {key : List UInt8} (h : IsKey key) : ∀ byte ∈ key, decide (byte ≠ equals) = true :=
  fun _ hmem => decide_eq_true (h.ne hmem (by decide))

theorem IsKey.keyOf_line {key : List UInt8} (h : IsKey key) (value : List UInt8) : keyOf (key ++ equals :: value) = key := by
  rw [keyOf, List.takeWhile_append_of_pos h.decide_ne, List.takeWhile_cons_of_neg (by decide), List.append_nil, h.trim_eq]

theorem IsKey.head_line {key : List UInt8} (h : IsKey key) (value : List UInt8) {byte : UInt8} (hbyte : ¬0x5f ≤ byte) :
    (key ++ equals :: value).head? ≠ some byte := by
  obtain ⟨first, key', hcons⟩ := List.exists_cons_of_ne_nil h.1
  have hfirst : first ∈ key := hcons ▸ List.mem_cons_self
  rw [hcons]
  exact fun heq => h.ne hfirst hbyte (Option.some.inj heq)

/-- A line with a key of the writer assigns to it. -/
theorem parseText_assignment (state : ParseState) {key : List UInt8} (h : IsKey key) (value : List UInt8) :
    parseText state (trim (key ++ equals :: value)) = assign state key (trim value) := by
  have hvalueOf : valueOf (key ++ equals :: value.rdropWhile isSpace) = trim value := by
    rw [valueOf, List.dropWhile_append_of_pos h.decide_ne, List.dropWhile_cons_of_neg (by decide), List.tail_cons, trim_rdropWhile]
  have hhead {byte : UInt8} (hbyte : ¬0x5f ≤ byte) : ¬(key ++ equals :: value.rdropWhile isSpace).head? = some byte :=
    h.head_line _ hbyte
  have hne : key ++ equals :: value.rdropWhile isSpace ≠ [] := List.append_ne_nil_of_left_ne_nil h.1 _
  rw [h.trim_line, parseText, if_neg (not_or.2 ⟨hne, not_or.2 ⟨hhead (by decide), hhead (by decide)⟩⟩), if_neg (hhead (by decide)),
    if_neg (not_not.2 (List.mem_append_right _ List.mem_cons_self)), h.keyOf_line, hvalueOf]

theorem parseLine_eq (state : ParseState) (line : List UInt8) : parseLine state line = parseText state (trim (content line)) := by
  rw [parseLine, trim_dropReturn]

@[simp] theorem parseLines_nil (state : ParseState) : parseLines state [] = .ok state := rfl

theorem parseLines_line (state : ParseState) {text : List UInt8} (hline : newline ∉ text) (hzero : 0 ∉ text) (rest : List UInt8) :
    parseLines state (text ++ newline :: rest) = parseText state (trim text) >>= fun state => parseLines state rest := by
  have hcString : cString (text ++ newline :: rest) = text ++ newline :: cString rest := by
    rw [cString_append hzero]
    rfl
  rw [parseLines, hcString, lines_line hline, List.foldlM_cons, parseLine_eq, content_line hline]
  rfl

/-- A zero ends the text in the middle of a line. -/
theorem parseLines_stop (state : ParseState) {text : List UInt8} (hline : newline ∉ text) (hzero : 0 ∈ text) (rest : List UInt8) :
    parseLines state (text ++ newline :: rest) = parseText state (trim (cString text)) := by
  have hmem : newline ∉ cString text := fun hmem => hline ((List.takeWhile_prefix _).subset hmem)
  rw [parseLines, cString_append_of_mem hzero]
  by_cases hnil : cString text = []
  · rw [hnil]
    rfl
  · rw [lines_last hmem hnil, List.foldlM_cons, parseLine_eq, content_eq hmem]
    cases parseText state (trim (cString text)) <;> rfl

/-! ## Kept lines -/

/-- The lines that the parser has no complaint about, whatever their key. -/
def Readable (text : List UInt8) : Prop :=
  (text = [] ∨ text.head? = some hash ∨ text.head? = some semicolon) ∨
    if text.head? = some openBracket then IsSection text else equals ∈ text

instance (text : List UInt8) : Decidable (Readable text) :=
  decidable_of_iff ((text = [] ∨ text.head? = some hash ∨ text.head? = some semicolon) ∨
    if text.head? = some openBracket then IsSection text else equals ∈ text) Iff.rfl

theorem keyOf_bracket (text : List UInt8) : (keyOf (openBracket :: text)).head? = some openBracket := by
  rw [keyOf, List.takeWhile_cons_of_pos (by decide), trim_cons (by decide)]
  rfl

theorem isOwnedLine_iff (line : List UInt8) (wifiSection : Bool) :
    isOwnedLine line wifiSection ↔ line.length ≤ fileMax ∧ equals ∈ trim (cString line) ∧
      if wifiSection = false then keyOf (trim (cString line)) = versionKey
      else keyOf (trim (cString line)) = ssidKey ∨ keyOf (trim (cString line)) = passwordKey ∨
        keyOf (trim (cString line)) = nameKey ∨ keyOf (trim (cString line)) = autoConnectKey := by
  rw [isOwnedLine]
  by_cases hlength : line.length > fileMax
  · simp only [if_pos hlength, Nat.not_le.2 hlength, false_and, Bool.false_eq_true]
  · by_cases hequals : equals ∈ trim (cString line)
    · cases wifiSection <;> simp [hequals, Nat.not_lt.1 hlength, or_assoc]
    · simp only [hequals, not_false_eq_true, if_true, ite_self, false_and, and_false, Bool.false_eq_true]

/-- The writer owns no line that starts a section. -/
theorem not_isSection_of_owned {line : List UInt8} {wifiSection : Bool} (h : isOwnedLine line wifiSection) :
    ¬IsSection (trim (cString line)) := by
  intro hsection
  obtain ⟨text, htext⟩ : ∃ text, trim (cString line) = openBracket :: text := List.head?_eq_some_iff.1 hsection.2.1
  have hhead := keyOf_bracket text
  rw [← htext] at hhead
  obtain ⟨-, -, hkey⟩ := (isOwnedLine_iff _ _).1 h
  split_ifs at hkey
  · rw [hkey] at hhead
    exact absurd hhead (by decide)
  · rcases hkey with hkey | hkey | hkey | hkey <;> rw [hkey] at hhead <;> exact absurd hhead (by decide)

theorem sectionAfter_of_owned {line : List UInt8} {wifiSection wifiSection' : Bool} (h : isOwnedLine line wifiSection') :
    sectionAfter wifiSection line = wifiSection :=
  if_neg (not_isSection_of_owned h)

/-- A key that the writer does not own sets nothing. -/
theorem assign_unowned {state : ParseState} {key : List UInt8}
    (h : ¬if state.wifiSection = false then key = versionKey
      else key = ssidKey ∨ key = passwordKey ∨ key = nameKey ∨ key = autoConnectKey) (value : List UInt8) :
    assign state key value = .ok state := by
  cases hwifi : state.wifiSection with
  | false =>
    rw [hwifi, if_pos rfl] at h
    simp [assign, hwifi, h]
  | true =>
    rw [hwifi, if_neg (by decide), not_or, not_or, not_or] at h
    simp [assign, hwifi, h.1, h.2.1, h.2.2.1, h.2.2.2]

/-- What the parser makes of a line that the writer does not own. -/
theorem parseText_kept {state : ParseState} {line : List UInt8} (hlength : line.length ≤ fileMax)
    (h : ¬isOwnedLine line (sectionAfter state.wifiSection line)) :
    parseText state (trim (cString line)) =
      if Readable (trim (cString line)) then .ok { state with wifiSection := sectionAfter state.wifiSection line }
      else .error .invalid := by
  rw [isOwnedLine_iff, sectionAfter] at h
  rw [sectionAfter]
  generalize trim (cString line) = text at h ⊢
  by_cases hblank : text = [] ∨ text.head? = some hash ∨ text.head? = some semicolon
  · have hsection : ¬IsSection text := by
      rintro ⟨hthree, hbracket, -⟩
      rw [hbracket] at hblank
      rcases hblank with rfl | hhead | hhead
      · exact absurd hthree (by decide)
      · exact absurd (Option.some.inj hhead) (by decide)
      · exact absurd (Option.some.inj hhead) (by decide)
    rw [parseText, if_pos hblank, if_pos (show Readable text from Or.inl hblank), if_neg hsection]
  · rw [parseText, if_neg hblank]
    by_cases hbracket : text.head? = some openBracket
    · rw [if_pos hbracket]
      by_cases hsection : IsSection text
      · have hread : Readable text := Or.inr (by rwa [if_pos hbracket])
        rw [if_pos hsection, if_pos hsection, if_pos hread]
      · have hread : ¬Readable text := fun hread => hread.elim hblank (by rwa [if_pos hbracket])
        rw [if_neg hsection, if_neg hread]
    · have hsection : ¬IsSection text := fun hsection => hbracket hsection.2.1
      rw [if_neg hbracket, if_neg hsection]
      rw [if_neg hsection] at h
      by_cases hequals : equals ∈ text
      · have hread : Readable text := Or.inr (by rwa [if_neg hbracket])
        rw [if_neg (not_not.2 hequals), if_pos hread]
        have hkey : ¬if state.wifiSection = false then keyOf text = versionKey
            else keyOf text = ssidKey ∨ keyOf text = passwordKey ∨ keyOf text = nameKey ∨ keyOf text = autoConnectKey :=
          fun hkey => h ⟨hlength, hequals, hkey⟩
        exact assign_unowned hkey _
      · have hread : ¬Readable text := fun hread => hread.elim hblank (by rwa [if_neg hbracket])
        rw [if_pos hequals, if_neg hread]

/-- The lines of an existing text that the writer does not own. -/
def keptLines (wifiSection : Bool) : List (List UInt8) → List (List UInt8)
  | [] => []
  | line :: later =>
    let wifiSection := sectionAfter wifiSection (content line)
    if isOwnedLine (content line) wifiSection then keptLines wifiSection later else line :: keptLines wifiSection later

theorem keptLines_owned {wifiSection : Bool} {line : List UInt8}
    (h : isOwnedLine (content line) (sectionAfter wifiSection (content line))) (later : List (List UInt8)) :
    keptLines wifiSection (line :: later) = keptLines wifiSection later := by
  rw [keptLines]
  simp only [if_pos h]
  rw [sectionAfter_of_owned h]

theorem keptLines_kept {wifiSection : Bool} {line : List UInt8}
    (h : ¬isOwnedLine (content line) (sectionAfter wifiSection (content line))) (later : List (List UInt8)) :
    keptLines wifiSection (line :: later) = line :: keptLines (sectionAfter wifiSection (content line)) later := by
  rw [keptLines]
  simp only [if_neg h]

/-- A line that the parser reads to its end, and accepts. -/
def ReadsThrough (line : List UInt8) : Prop := 0 ∉ content line ∧ Readable (trim (content line))

instance (line : List UInt8) : Decidable (ReadsThrough line) :=
  decidable_of_iff (0 ∉ content line ∧ Readable (trim (content line))) Iff.rfl

theorem keptLines_areLines {wifiSection : Bool} {existing : List (List UInt8)} (h : AreLines existing) :
    AreLines (keptLines wifiSection existing) := by
  induction h generalizing wifiSection with
  | nil => exact .nil
  | last hline hne =>
    rw [keptLines]
    split_ifs
    · exact .nil
    · exact .last hline hne
  | cons hline hlater ih =>
    rw [keptLines]
    split_ifs
    · exact ih
    · exact .cons hline ih

/-- A line with the newline that it may lack. -/
def completed (line : List UInt8) : List UInt8 := content line ++ [newline]

theorem parseLines_completed (state : ParseState) {line : List UInt8} (h : 0 ∉ content line) (rest : List UInt8) :
    parseLines state (completed line ++ rest) = parseText state (trim (content line)) >>= fun state => parseLines state rest := by
  rw [completed, List.append_assoc]
  exact parseLines_line state (newline_notMem_content line) h rest

/-- Kept lines that read through change nothing but the section. -/
theorem parseLines_kept {existing : List (List UInt8)} (state : ParseState)
    (hlength : ∀ line ∈ existing, (content line).length ≤ fileMax)
    (h : ∀ line ∈ keptLines state.wifiSection existing, ReadsThrough line) (rest : List UInt8) :
    ∃ wifiSection, parseLines state ((keptLines state.wifiSection existing).flatMap completed ++ rest) =
      parseLines { state with wifiSection := wifiSection } rest := by
  induction existing generalizing state with
  | nil => exact ⟨state.wifiSection, rfl⟩
  | cons line later ih =>
    have hlater : ∀ line ∈ later, (content line).length ≤ fileMax := fun line hmem => hlength line (List.mem_cons_of_mem _ hmem)
    by_cases howned : isOwnedLine (content line) (sectionAfter state.wifiSection (content line))
    · rw [keptLines_owned howned] at h ⊢
      exact ih state hlater h
    · rw [keptLines_kept howned] at h ⊢
      obtain ⟨hzero, hread⟩ := h line List.mem_cons_self
      have hkept := parseText_kept (hlength line List.mem_cons_self) howned
      rw [cString_eq hzero, if_pos hread] at hkept
      rw [List.flatMap_cons, List.append_assoc, parseLines_completed state hzero, hkept]
      exact ih { state with wifiSection := sectionAfter state.wifiSection (content line) } hlater
        fun line hmem => h line (List.mem_cons_of_mem _ hmem)

/-- After a kept line that does not read through, no network is read. -/
theorem ssidSeen_of_parseLines_kept {existing : List (List UInt8)} (state : ParseState) {state' : ParseState}
    (hlength : ∀ line ∈ existing, (content line).length ≤ fileMax)
    (h : ¬∀ line ∈ keptLines state.wifiSection existing, ReadsThrough line) {rest : List UInt8}
    (hparse : parseLines state ((keptLines state.wifiSection existing).flatMap completed ++ rest) = .ok state') :
    state'.ssidSeen = state.ssidSeen := by
  induction existing generalizing state with
  | nil => exact absurd (fun line hmem => absurd hmem List.not_mem_nil) h
  | cons line later ih =>
    have hlater : ∀ line ∈ later, (content line).length ≤ fileMax := fun line hmem => hlength line (List.mem_cons_of_mem _ hmem)
    by_cases howned : isOwnedLine (content line) (sectionAfter state.wifiSection (content line))
    · rw [keptLines_owned howned] at h hparse
      exact ih state hlater h hparse
    · rw [keptLines_kept howned] at h hparse
      have hkept := parseText_kept (hlength line List.mem_cons_self) howned
      rw [List.flatMap_cons, List.append_assoc] at hparse
      by_cases hzero : 0 ∈ content line
      · rw [completed, List.append_assoc] at hparse
        rw [← List.singleton_append.symm, parseLines_stop state (newline_notMem_content line) hzero, hkept] at hparse
        split_ifs at hparse
        cases hparse
        rfl
      · rw [parseLines_completed state hzero, ← cString_eq hzero, hkept, cString_eq hzero] at hparse
        by_cases hread : Readable (trim (content line))
        swap
        · rw [if_neg hread] at hparse
          cases hparse
        rw [if_pos hread] at hparse
        refine ih { state with wifiSection := sectionAfter state.wifiSection (content line) } hlater (fun hall => ?_) hparse
        refine h fun line' hmem => ?_
        rcases List.mem_cons.1 hmem with rfl | hmem
        · exact ⟨hzero, hread⟩
        · exact hall line' hmem

/-! ## The text of the writer -/

theorem bind_eq_ok {ε α β : Type} {x : Except ε α} {f : α → Except ε β} {result : β} (h : x >>= f = .ok result) :
    ∃ value, x = .ok value ∧ f value = .ok result := by
  cases x with
  | error error => cases h
  | ok value => exact ⟨value, rfl, h⟩

theorem eq_of_appendBytes {capacity : Nat} {output bytes output' : List UInt8} (h : appendBytes capacity output bytes = .ok output') :
    output' = output ++ bytes := by
  rw [appendBytes] at h
  split_ifs at h
  exact (Except.ok.inj h).symm

theorem eq_of_appendCharacter {capacity : Nat} {output output' : List UInt8} {byte : UInt8}
    (h : appendCharacter capacity output byte = .ok output') : output' = output ++ escapeByte byte := by
  obtain ⟨escaped, hescape, happend⟩ := bind_eq_ok h
  rw [eq_of_appendBytes happend, escapeByte]
  rw [appendEscape] at hescape
  by_cases hbyte : byte = backslash ∨ byte = quote
  · rw [if_pos hbyte] at hescape
    rw [eq_of_appendBytes hescape, if_pos (show Escaped byte from hbyte), List.append_assoc]
    rfl
  · rw [if_neg hbyte] at hescape
    rw [← Except.ok.inj hescape, if_neg (show ¬Escaped byte from hbyte)]

theorem eq_of_foldlM_appendCharacter {capacity : Nat} {output output' value : List UInt8}
    (h : value.foldlM (appendCharacter capacity) output = .ok output') : output' = output ++ escape value := by
  induction value generalizing output with
  | nil =>
    rw [escape_nil, List.append_nil]
    exact (Except.ok.inj h).symm
  | cons byte value ih =>
    rw [List.foldlM_cons] at h
    obtain ⟨next, hnext, hrest⟩ := bind_eq_ok h
    rw [ih hrest, eq_of_appendCharacter hnext, List.append_assoc]
    rfl

theorem eq_of_appendQuoted {capacity : Nat} {output output' value : List UInt8}
    (h : appendQuoted capacity output value = .ok output') : output' = output ++ (quoted (cString value) ++ [newline]) := by
  obtain ⟨opened, hopened, h⟩ := bind_eq_ok h
  obtain ⟨written, hwritten, h⟩ := bind_eq_ok h
  rw [eq_of_appendBytes h, eq_of_foldlM_appendCharacter hwritten, eq_of_appendBytes hopened]
  simp only [quoted, List.append_assoc, List.cons_append, List.nil_append]

/-- The section of the writer, line by line. -/
def sectionText (config : NetworkConfig) : List UInt8 :=
  newline :: (openBracket :: wifiName ++ [closeBracket] ++ newline ::
    (ssidKey ++ equals :: quoted (cString config.ssid) ++ newline ::
      (passwordKey ++ equals :: quoted (cString config.password) ++ newline ::
        (nameKey ++ equals :: quoted (cString (writtenName config)) ++ newline ::
          (autoConnectKey ++ equals :: booleanText config.autoConnect ++ newline :: [])))))

theorem eq_of_appendSection {capacity : Nat} {output output' : List UInt8} {config : NetworkConfig}
    (h : appendSection capacity output config = .ok output') : output' = output ++ sectionText config := by
  obtain ⟨output₁, h₁, h⟩ := bind_eq_ok h
  obtain ⟨output₂, h₂, h⟩ := bind_eq_ok h
  obtain ⟨output₃, h₃, h⟩ := bind_eq_ok h
  obtain ⟨output₄, h₄, h⟩ := bind_eq_ok h
  obtain ⟨output₅, h₅, h⟩ := bind_eq_ok h
  obtain ⟨output₆, h₆, h⟩ := bind_eq_ok h
  rw [eq_of_appendBytes h, eq_of_appendQuoted h₆, eq_of_appendBytes h₅, eq_of_appendQuoted h₄, eq_of_appendBytes h₃,
    eq_of_appendQuoted h₂, eq_of_appendBytes h₁]
  simp only [sectionText, wifiHeader, List.append_assoc, List.cons_append, List.nil_append]

/-- The loop of the writer appends the lines that it does not own. -/
theorem eq_of_foldlM_appendLine {capacity : Nat} {existing : List (List UInt8)} {update update' : Update}
    (h : existing.foldlM (appendLine capacity) update = .ok update') :
    update'.output = update.output ++ (keptLines update.wifiSection existing).flatten ∧
      ∀ line ∈ existing, (content line).length ≤ fileMax := by
  induction existing generalizing update with
  | nil =>
    obtain rfl := Except.ok.inj h
    exact ⟨(List.append_nil _).symm, fun line hmem => absurd hmem List.not_mem_nil⟩
  | cons line later ih =>
    rw [List.foldlM_cons] at h
    obtain ⟨next, hnext, hrest⟩ := bind_eq_ok h
    obtain ⟨houtput, hlater⟩ := ih hrest
    rw [appendLine] at hnext
    by_cases hlength : (content line).length > fileMax
    · simp only [if_pos hlength] at hnext
      cases hnext
    · simp only [if_neg hlength] at hnext
      refine ⟨?_, List.forall_mem_cons.2 ⟨Nat.not_lt.1 hlength, hlater⟩⟩
      by_cases howned : isOwnedLine (content line) (sectionAfter update.wifiSection (content line))
      · simp only [if_pos howned] at hnext
        obtain rfl := Except.ok.inj hnext
        rw [houtput, keptLines_owned howned, sectionAfter_of_owned howned]
      · simp only [if_neg howned] at hnext
        obtain ⟨output, houtput', hnext⟩ := bind_eq_ok hnext
        obtain rfl := Except.ok.inj hnext
        rw [houtput, keptLines_kept howned, eq_of_appendBytes houtput', List.append_assoc]
        rfl

/-- Completing the last line completes every line. -/
theorem flatMap_completed {text : List (List UInt8)} (h : AreLines text) (before : List UInt8) :
    (before ++ [newline] ++ text.flatten).getLast? = some newline ∧ text.flatMap completed = text.flatten ∨
      (before ++ [newline] ++ text.flatten).getLast? ≠ some newline ∧ text.flatMap completed = text.flatten ++ [newline] := by
  induction h generalizing before with
  | nil => exact Or.inl ⟨by rw [List.flatten_nil, List.append_nil, List.getLast?_concat], rfl⟩
  | @last text hline hne =>
    refine Or.inr ⟨?_, ?_⟩
    · rw [List.flatten_singleton, List.getLast?_append_of_ne_nil _ hne]
      exact fun hlast => hline (List.mem_of_getLast? hlast)
    · rw [List.flatMap_singleton, List.flatten_singleton, completed, content_eq hline]
  | @cons text later hline hlater ih =>
    have hcompleted : completed (text ++ [newline]) = text ++ [newline] := by rw [completed, content_line hline]
    rw [List.flatten_cons, List.flatMap_cons, hcompleted, List.append_assoc, ← List.append_assoc, ← List.append_assoc]
    rcases ih (before ++ [newline] ++ text) with ⟨hlast, heq⟩ | ⟨hlast, heq⟩
    · exact Or.inl ⟨by simpa only [List.append_assoc] using hlast, by rw [heq]⟩
    · exact Or.inr ⟨by simpa only [List.append_assoc] using hlast, by rw [heq]; simp only [List.append_assoc]⟩

theorem eq_of_endLine {capacity : Nat} {text : List (List UInt8)} (h : AreLines text) {before output : List UInt8}
    (hend : endLine capacity (before ++ [newline] ++ text.flatten) = .ok output) :
    output = before ++ [newline] ++ text.flatMap completed := by
  rw [endLine] at hend
  have hlength : (before ++ [newline] ++ text.flatten).length > 0 := by
    simp only [List.length_append, List.length_singleton]
    omega
  rcases flatMap_completed h before with ⟨hlast, heq⟩ | ⟨hlast, heq⟩
  · rw [if_neg fun hcond => hcond.2 hlast] at hend
    rw [heq, Except.ok.inj hend]
  · rw [if_pos ⟨hlength, hlast⟩] at hend
    rw [heq, eq_of_appendBytes hend, List.append_assoc]

/-- What the writer writes. -/
theorem eq_of_networkConfigFormatUpdate {existing : List UInt8} {config : NetworkConfig} {capacity : Nat} {output : List UInt8}
    (h : networkConfigFormatUpdate existing config capacity = .ok output) :
    Writable config ∧ (∀ line ∈ lines existing, (content line).length ≤ fileMax) ∧
      output = versionKey ++ equals :: versionOne ++ newline ::
        ((keptLines false (lines existing)).flatMap completed ++ sectionText config) := by
  rw [networkConfigFormatUpdate] at h
  split_ifs at h with hrefused
  obtain ⟨hwritable, -⟩ := not_or.1 hrefused
  obtain ⟨version, hversion, h⟩ := bind_eq_ok h
  obtain ⟨update, hupdate, h⟩ := bind_eq_ok h
  obtain ⟨ended, hended, h⟩ := bind_eq_ok h
  obtain ⟨sectioned, hsectioned, h⟩ := bind_eq_ok h
  obtain ⟨houtput, hlength⟩ := eq_of_foldlM_appendLine hupdate
  rw [terminate] at h
  split_ifs at h
  obtain rfl := Except.ok.inj h
  rw [houtput, eq_of_appendBytes hversion, List.nil_append] at hended
  refine ⟨not_not.1 hwritable, hlength, ?_⟩
  rw [eq_of_appendSection hsectioned, eq_of_endLine (keptLines_areLines (areLines_lines existing)) hended]
  simp only [List.append_assoc, List.cons_append, List.nil_append]

/-! ## The round trip -/

theorem notMem_quoted {value : List UInt8} {byte : UInt8} (h : byte ∉ value) (hbackslash : byte ≠ backslash) (hquote : byte ≠ quote) :
    byte ∉ quoted value := by
  intro hmem
  rcases List.mem_cons.1 hmem with heq | hmem
  · exact hquote heq
  · rcases List.mem_append.1 hmem with hmem | hmem
    · exact (mem_escape hmem).elim hbackslash h
    · exact hquote (List.mem_singleton.1 hmem)

theorem IsKey.notMem_line {key value : List UInt8} (hkey : IsKey key) {byte : UInt8} (hbyte : ¬0x5f ≤ byte)
    (hequals : byte ≠ equals) (h : byte ∉ value) : byte ∉ key ++ equals :: value := by
  intro hmem
  rcases List.mem_append.1 hmem with hmem | hmem
  · exact hkey.ne hmem hbyte rfl
  · exact (List.mem_cons.1 hmem).elim hequals h

/-- A line of the writer assigns its value. -/
theorem parseLines_assignment (state : ParseState) {key value : List UInt8} (hkey : IsKey key) (hline : newline ∉ value)
    (hzero : 0 ∉ value) (rest : List UInt8) :
    parseLines state (key ++ equals :: value ++ newline :: rest) =
      assign state key (trim value) >>= fun state => parseLines state rest := by
  rw [parseLines_line state (hkey.notMem_line (by decide) (by decide) hline) (hkey.notMem_line (by decide) (by decide) hzero),
    parseText_assignment state hkey]

theorem parseLines_quoted (state : ParseState) {key value : List UInt8} (hkey : IsKey key) (hline : newline ∉ value)
    (hzero : 0 ∉ value) (rest : List UInt8) :
    parseLines state (key ++ equals :: quoted value ++ newline :: rest) =
      assign state key (quoted value) >>= fun state => parseLines state rest := by
  rw [parseLines_assignment state hkey (notMem_quoted hline (by decide) (by decide)) (notMem_quoted hzero (by decide) (by decide)),
    trim_quoted]

/-- A newline in a string cuts the string short. -/
theorem parseLines_cut (state : ParseState) {key value : List UInt8} (hkey : IsKey key) (hline : newline ∈ value) (hzero : 0 ∉ value)
    (rest : List UInt8) :
    ∃ start rest', (∀ capacity, parseQuoted capacity start = none) ∧
      parseLines state (key ++ equals :: quoted value ++ newline :: rest) =
        assign state key start >>= fun state => parseLines state rest' := by
  obtain ⟨before, after, rfl, hbefore⟩ := List.eq_append_cons_of_mem hline
  refine ⟨trim (quote :: escape before), escape after ++ quote :: newline :: rest,
    fun capacity => parseQuoted_unterminated capacity before, ?_⟩
  have hnotMem {byte : UInt8} (h : byte ∉ before) (hbackslash : byte ≠ backslash) (hquote : byte ≠ quote) :
      byte ∉ quote :: escape before := fun hmem =>
    (List.mem_cons.1 hmem).elim hquote fun hmem => (mem_escape hmem).elim hbackslash h
  have hsplit : quoted (before ++ newline :: after) ++ newline :: rest =
      quote :: escape before ++ newline :: (escape after ++ quote :: newline :: rest) := by
    rw [quoted, escape_append, escape_cons_plain (by decide)]
    simp only [List.append_assoc, List.cons_append, List.nil_append]
  rw [List.append_assoc, List.cons_append, hsplit, ← List.cons_append, ← List.append_assoc]
  exact parseLines_assignment state hkey (hnotMem hbefore (by decide) (by decide))
    (hnotMem (fun hmem => hzero (List.mem_append_left _ hmem)) (by decide) (by decide)) _

theorem assign_ssid {state : ParseState} (hwifi : state.wifiSection = true) {value ssid : List UInt8}
    (hread : parseQuoted (ssidMax + 1) value = some ssid) (hne : ssid ≠ []) :
    assign state ssidKey value = .ok { state with parsed := { state.parsed with ssid := ssid }, ssidSeen := true } := by
  simp [assign, hwifi, hread, hne]

theorem assign_ssid_none {state : ParseState} (hwifi : state.wifiSection = true) {value : List UInt8}
    (hread : parseQuoted (ssidMax + 1) value = none) : assign state ssidKey value = .error .invalid := by
  simp [assign, hwifi, hread]

theorem assign_password {state : ParseState} (hwifi : state.wifiSection = true) {value password : List UInt8}
    (hread : parseQuoted (passwordMax + 1) value = some password) :
    assign state passwordKey value = .ok { state with parsed := { state.parsed with password := password } } := by
  simp [assign, hwifi, hread, show passwordKey ≠ ssidKey by decide]

theorem assign_password_none {state : ParseState} (hwifi : state.wifiSection = true) {value : List UInt8}
    (hread : parseQuoted (passwordMax + 1) value = none) : assign state passwordKey value = .error .invalid := by
  simp [assign, hwifi, hread, show passwordKey ≠ ssidKey by decide]

theorem assign_name {state : ParseState} (hwifi : state.wifiSection = true) {value name : List UInt8}
    (hread : parseQuoted (nameMax + 1) value = some name) (hname : validHostname name) :
    assign state nameKey value = .ok { state with parsed := { state.parsed with name := name } } := by
  simp [assign, hwifi, hread, hname, show nameKey ≠ ssidKey by decide, show nameKey ≠ passwordKey by decide]

theorem assign_autoConnect {state : ParseState} (hwifi : state.wifiSection = true) (value : Bool) :
    assign state autoConnectKey (booleanText value) = .ok { state with parsed := { state.parsed with autoConnect := value } } := by
  have hread : parseBoolean (booleanText value) = some value := by cases value <;> rfl
  simp [assign, hwifi, hread, show autoConnectKey ≠ ssidKey by decide, show autoConnectKey ≠ passwordKey by decide,
    show autoConnectKey ≠ nameKey by decide]

/-- The configuration that a written one should read back as. -/
def readBack (config : NetworkConfig) : NetworkConfig where
  ssid := cString config.ssid
  password := cString config.password
  name := if cString config.name = [] then defaultName else cString config.name
  autoConnect := config.autoConnect

/-- No string of the configuration has a newline. -/
def SingleLine (config : NetworkConfig) : Prop := newline ∉ cString config.ssid ∧ newline ∉ cString config.password

instance (config : NetworkConfig) : Decidable (SingleLine config) :=
  decidable_of_iff (newline ∉ cString config.ssid ∧ newline ∉ cString config.password) Iff.rfl

/-- The lines of an existing text that stay read through. -/
def KeepsReadable (existing : List UInt8) : Prop := ∀ line ∈ keptLines false (lines existing), ReadsThrough line

instance (existing : List UInt8) : Decidable (KeepsReadable existing) :=
  decidable_of_iff (∀ line ∈ keptLines false (lines existing), ReadsThrough line) Iff.rfl

theorem validHostname_length {hostname : List UInt8} (h : validHostname hostname) : hostname.length ≤ nameMax := by
  by_contra hlength
  rw [validHostname, if_pos (Or.inr (Or.inl (Nat.not_le.1 hlength)))] at h
  cases h

/-- A valid host name has only printable bytes. -/
theorem validHostname_notMem {hostname : List UInt8} (h : validHostname hostname) {byte : UInt8} (halnum : isAlnum byte = false)
    (hhyphen : byte ≠ hyphen) : byte ∉ hostname := by
  intro hmem
  rw [validHostname] at h
  split_ifs at h
  have hbyte := List.all_eq_true.1 h byte hmem
  rw [halnum, decide_eq_false hhyphen] at hbyte
  cases hbyte

theorem writtenName_valid {config : NetworkConfig} (h : Writable config) : validHostname (cString (writtenName config)) := by
  rw [writtenName]
  by_cases hname : cString config.name = []
  · rw [if_neg (not_not.2 hname)]
    decide
  · rw [if_pos hname]
    exact h.2.2.2.resolve_left hname

theorem cString_writtenName (config : NetworkConfig) : cString (writtenName config) = (readBack config).name := by
  rw [writtenName, readBack]
  by_cases hname : cString config.name = []
  · simp only [if_neg (not_not.2 hname), if_pos hname]
    decide
  · simp only [if_pos hname, if_neg hname]

/-- The section of the writer up to its strings. -/
theorem parseLines_sectionText (state : ParseState) (config : NetworkConfig) :
    parseLines state (sectionText config) = parseLines { state with wifiSection := true }
      (ssidKey ++ equals :: quoted (cString config.ssid) ++ newline ::
        (passwordKey ++ equals :: quoted (cString config.password) ++ newline ::
          (nameKey ++ equals :: quoted (cString (writtenName config)) ++ newline ::
            (autoConnectKey ++ equals :: booleanText config.autoConnect ++ newline :: [])))) := by
  rw [sectionText, ← List.nil_append (newline :: _), parseLines_line state List.not_mem_nil List.not_mem_nil]
  exact parseLines_line state (by decide) (by decide) _

/-- The section of the writer reads back where no string has a newline. -/
theorem parseLines_sectionText_ok (state : ParseState) {config : NetworkConfig} (h : Writable config) (hline : SingleLine config) :
    parseLines state (sectionText config) =
      .ok { parsed := readBack config, versionSeen := state.versionSeen, wifiSection := true, ssidSeen := true } := by
  have hname := writtenName_valid h
  obtain ⟨hne, hssid, hpassword, -⟩ := h
  rw [parseLines_sectionText, parseLines_quoted _ isKey_ssidKey hline.1 (zero_notMem_cString _),
    assign_ssid rfl (parseQuoted_quoted (Nat.lt_succ_of_le hssid)) hne]
  show parseLines _ _ = _
  rw [parseLines_quoted _ isKey_passwordKey hline.2 (zero_notMem_cString _),
    assign_password rfl (parseQuoted_quoted (Nat.lt_succ_of_le hpassword))]
  show parseLines _ _ = _
  rw [parseLines_quoted _ isKey_nameKey (validHostname_notMem hname (by decide) (by decide)) (zero_notMem_cString _),
    assign_name rfl (parseQuoted_quoted (Nat.lt_succ_of_le (validHostname_length hname))) hname]
  show parseLines _ _ = _
  have hboolean : ∀ value, newline ∉ booleanText value ∧ 0 ∉ booleanText value ∧ trim (booleanText value) = booleanText value := by
    decide
  obtain ⟨hnewline, hzero, htrim⟩ := hboolean config.autoConnect
  rw [parseLines_assignment _ isKey_autoConnectKey hnewline hzero, htrim, assign_autoConnect rfl, cString_writtenName]
  rfl

/-- A newline in a string makes the section of the writer invalid. -/
theorem parseLines_sectionText_error (state : ParseState) {config : NetworkConfig} (h : Writable config) (hline : ¬SingleLine config) :
    parseLines state (sectionText config) = .error .invalid := by
  rw [parseLines_sectionText]
  by_cases hssid : newline ∈ cString config.ssid
  · obtain ⟨start, rest, hnone, heq⟩ := parseLines_cut { state with wifiSection := true } isKey_ssidKey hssid
      (zero_notMem_cString _) _
    rw [heq, assign_ssid_none rfl (hnone _)]
    rfl
  · have hpassword : newline ∈ cString config.password := not_not.1 fun hpassword => hline ⟨hssid, hpassword⟩
    rw [parseLines_quoted _ isKey_ssidKey hssid (zero_notMem_cString _),
      assign_ssid rfl (parseQuoted_quoted (Nat.lt_succ_of_le h.2.1)) h.1]
    show parseLines _ _ = _
    obtain ⟨start, rest, hnone, heq⟩ := parseLines_cut _ isKey_passwordKey hpassword (zero_notMem_cString _) _
    rw [heq, assign_password_none rfl (hnone _)]
    rfl

/-- A line that the parser accepts is readable. -/
theorem readable_of_parseText {state state' : ParseState} {text : List UInt8} (h : parseText state text = .ok state') :
    Readable text := by
  rw [parseText] at h
  by_cases hblank : text = [] ∨ text.head? = some hash ∨ text.head? = some semicolon
  · exact Or.inl hblank
  · rw [if_neg hblank] at h
    refine Or.inr ?_
    split_ifs at h ⊢ with hbracket hsection hequals
    · exact hsection
    · exact hequals

theorem readable_of_foldlM_parseLine {text : List (List UInt8)} {state state' : ParseState}
    (h : text.foldlM parseLine state = .ok state') : ∀ line ∈ text, Readable (trim (content line)) := by
  induction text generalizing state with
  | nil => exact fun line hmem => absurd hmem List.not_mem_nil
  | cons line text ih =>
    rw [List.foldlM_cons] at h
    obtain ⟨next, hnext, hrest⟩ := bind_eq_ok h
    rw [parseLine_eq] at hnext
    exact List.forall_mem_cons.2 ⟨readable_of_parseText hnext, ih hrest⟩

theorem mem_of_mem_keptLines {wifiSection : Bool} {existing : List (List UInt8)} {line : List UInt8}
    (h : line ∈ keptLines wifiSection existing) : line ∈ existing := by
  induction existing generalizing wifiSection with
  | nil => exact h
  | cons first later ih =>
    by_cases howned : isOwnedLine (content first) (sectionAfter wifiSection (content first))
    · rw [keptLines_owned howned] at h
      exact List.mem_cons_of_mem _ (ih h)
    · rw [keptLines_kept howned] at h
      rcases List.mem_cons.1 h with rfl | hmem
      · exact List.mem_cons_self
      · exact List.mem_cons_of_mem _ (ih hmem)

/-- Every line of an accepted text without zeros reads through. -/
theorem keepsReadable_of_accepted {existing : List UInt8} {config : NetworkConfig} (h : networkConfigParse existing = .ok config)
    (hzero : 0 ∉ existing) : KeepsReadable existing := by
  rw [networkConfigParse] at h
  split_ifs at h
  obtain ⟨state, hstate, -⟩ := bind_eq_ok h
  rw [parseLines, cString_eq hzero] at hstate
  intro line hmem
  have hline := mem_of_mem_keptLines hmem
  refine ⟨fun hzero' => hzero ?_, readable_of_foldlM_parseLine hstate line hline⟩
  rw [← flatten_lines existing]
  exact List.mem_flatten.2 ⟨line, hline, (List.takeWhile_prefix _).subset hzero'⟩

theorem keepsReadable_nil : KeepsReadable [] := fun _ hmem => absurd hmem List.not_mem_nil

/-- The state of the parser after the version. -/
def ParseState.versioned : ParseState := { ParseState.initial with versionSeen := true }

theorem parseLines_version (rest : List UInt8) :
    parseLines .initial (versionKey ++ equals :: versionOne ++ newline :: rest) = parseLines .versioned rest :=
  parseLines_assignment .initial isKey_versionKey (by decide) (by decide) rest

/-- What is written reads back exactly when no string has a newline and the kept lines read through. -/
theorem networkConfigParse_formatUpdate {existing : List UInt8} {config : NetworkConfig} {capacity : Nat} {output : List UInt8}
    (h : networkConfigFormatUpdate existing config capacity = .ok output) (hlength : output.length ≤ fileMax) :
    networkConfigParse output = .ok (readBack config) ↔ SingleLine config ∧ KeepsReadable existing := by
  obtain ⟨hwritable, hlines, rfl⟩ := eq_of_networkConfigFormatUpdate h
  rw [networkConfigParse, if_neg (Nat.not_lt.2 hlength), parseLines_version]
  by_cases hkept : KeepsReadable existing
  · obtain ⟨wifiSection, hread⟩ := parseLines_kept .versioned hlines hkept (sectionText config)
    replace hread : parseLines .versioned ((keptLines false (lines existing)).flatMap completed ++ sectionText config) = _ := hread
    rw [hread]
    by_cases hline : SingleLine config
    · rw [parseLines_sectionText_ok _ hwritable hline]
      exact iff_of_true rfl ⟨hline, hkept⟩
    · rw [parseLines_sectionText_error _ hwritable hline]
      exact iff_of_false (fun hread => by cases hread) fun hcond => hline hcond.1
  · refine iff_of_false (fun hread => ?_) fun hcond => hkept hcond.2
    obtain ⟨state, hstate, hfinish⟩ := bind_eq_ok hread
    have hssid : state.ssidSeen = false := ssidSeen_of_parseLines_kept .versioned hlines hkept hstate
    rw [finish, if_pos (Or.inr hssid)] at hfinish
    cases hfinish

/-- An update of the file of another network. -/
theorem networkConfigParse_formatUpdate_other :
    let existing := versionKey ++ equals :: versionOne ++ newline :: (openBracket :: wifiName ++ [closeBracket, newline] ++
      (ssidKey ++ equals :: quoted (ascii ['c', 'a', 'v', 'e'])))
    let config : NetworkConfig := { ssid := [0x61, 0x22, 0x5c], password := [], name := [], autoConnect := false }
    let output := versionKey ++ equals :: versionOne ++ newline ::
      ((keptLines false (lines existing)).flatMap completed ++ sectionText config)
    networkConfigFormatUpdate existing config (fileMax + 1) = .ok output ∧ networkConfigParse output = .ok (readBack config) := by
  intro existing config output
  have hformat : networkConfigFormatUpdate existing config (fileMax + 1) = .ok output := by decide
  exact ⟨hformat, (networkConfigParse_formatUpdate hformat (by decide)).2 (by decide +kernel)⟩

/-- The name of a network with a newline in it is written and not read back, and a kept line with a zero in it hides the section
of the writer. -/
theorem written_not_read_back :
    let plain : NetworkConfig := { ssid := [0x61], password := [], name := [], autoConnect := true }
    let split : NetworkConfig := { plain with ssid := [0x61, 0x0a, 0x62] }
    let existing := versionKey ++ equals :: versionOne ++ newline :: (openBracket :: wifiName ++ [closeBracket, newline] ++
      (ssidKey ++ equals :: quoted (ascii ['c', 'a', 'v', 'e']) ++ newline :: hash :: 0 :: [newline]))
    let output := versionKey ++ equals :: versionOne ++ newline :: sectionText split
    (networkConfigFormatUpdate [] split (fileMax + 1) = .ok output ∧ output.length ≤ fileMax ∧
        networkConfigParse output = .error .invalid) ∧
      (networkConfigParse existing).isOk ∧
        (networkConfigFormatUpdate existing plain (fileMax + 1) >>= networkConfigParse) = .error .invalid := by
  decide

end Net
end TabOS
