import Mathlib.Data.Fintype.Basic
import Mathlib.Tactic.FinCases
import TabOS.Net.Config
import TabOS.Power.Manager

/-!
# The policy file

`power_config_parse` on bytes, and what it is for: the entries of a text, each with the section that it is in. The parser goes over the
lines and keeps, for every key that it knows, whether it has been given a value.
-/

namespace TabOS
namespace Power

open Net (ascii content equals hash isSpace lines openBracket closeBracket semicolon)

/-- `POWER_CONFIG_FILE_MAX`. -/
def configFileMax : Nat := 4096

/-- The results of `power_config_parse`. -/
inductive ConfigResult where
  | ok
  | invalid
  | tooLarge
  deriving DecidableEq, Repr

/-- A text and its length, where the pointer to the text may be null. -/
inductive ConfigText where
  | null (length : Nat)
  | bytes (content : List UInt8)

def ConfigText.length : ConfigText → Nat
  | .null length => length
  | .bytes content => content.length

/-- `power_config_defaults`. -/
def powerConfigDefaults : Policy := ⟨60000, 180000, 300000, 600000, 75, 20, false⟩

/-- `trim`. -/
def trim (text : List UInt8) : List UInt8 := (text.dropWhile isSpace).rdropWhile isSpace

/-- A decimal digit. -/
def IsDigit (byte : UInt8) : Prop := 48 ≤ byte.toNat ∧ byte.toNat ≤ 57

instance (byte : UInt8) : Decidable (IsDigit byte) := inferInstanceAs (Decidable (_ ∧ _))

/-- The loop of `parse_number`, which refuses a digit that would make the value wrap. -/
def parseDigits (value : BitVec 32) : List UInt8 → Option (BitVec 32)
  | [] => some value
  | byte :: text =>
    if ¬IsDigit byte then none
    else
      let digit := BitVec.ofNat 32 (byte.toNat - 48)
      if (4294967295 - digit) / 10 < value then none else parseDigits (value * 10 + digit) text

/-- `parse_number`. -/
def parseNumber (text : List UInt8) : Option (BitVec 32) := if text = [] then none else parseDigits 0 text

/-- The section of a line. -/
inductive Section where
  | root
  | display
  | unknown
  deriving DecidableEq, Repr

def versionKey : List UInt8 := ascii ['v', 'e', 'r', 's', 'i', 'o', 'n']
def versionOne : List UInt8 := ascii ['1']
def displayName : List UInt8 := ascii ['d', 'i', 's', 'p', 'l', 'a', 'y']

/-- The keys of the display section. -/
def keys : Fin 5 → List UInt8
  | 0 => ascii ['d', 'i', 'm', '_', 's', 'e', 'c', 'o', 'n', 'd', 's']
  | 1 => ascii ['b', 'a', 'c', 'k', 'l', 'i', 'g', 'h', 't', '_', 'o', 'f', 'f', '_', 's', 'e', 'c', 'o', 'n', 'd', 's']
  | 2 => ascii ['p', 'a', 'n', 'e', 'l', '_', 'o', 'f', 'f', '_', 's', 'e', 'c', 'o', 'n', 'd', 's']
  | 3 => ascii ['n', 'o', 'r', 'm', 'a', 'l', '_', 'b', 'r', 'i', 'g', 'h', 't', 'n', 'e', 's', 's']
  | 4 => ascii ['d', 'i', 'm', '_', 'b', 'r', 'i', 'g', 'h', 't', 'n', 'e', 's', 's']

/-- The variables of `power_config_parse`. -/
structure ParseState where
  parsed : Policy
  current : Section
  versionSeen : Bool
  seen : BitVec 32

/-- The variables before the first line. -/
def ParseState.initial : ParseState := ⟨powerConfigDefaults, .root, false, 0⟩

/-- The bit of a key. -/
def bit (index : Fin 5) : BitVec 32 := BitVec.twoPow 32 index

/-- The field of a key takes a number. -/
def store (index : Fin 5) (number : BitVec 32) (parsed : Policy) : Policy :=
  match index with
  | 0 => { parsed with idleMs := number.setWidth 64 * 1000 }
  | 1 => { parsed with screenOffMs := number.setWidth 64 * 1000 }
  | 2 => { parsed with panelOffMs := number.setWidth 64 * 1000 }
  | 3 => { parsed with activeBrightness := number.setWidth 8 }
  | 4 => { parsed with idleBrightness := number.setWidth 8 }

/-- A known key of the display section takes a value. -/
def parseSetting (state : ParseState) (index : Fin 5) (value : List UInt8) : Option ParseState :=
  if state.seen &&& bit index ≠ 0 then none
  else
    match parseNumber value with
    | none => none
    | some number =>
      if 3 ≤ index.val ∧ (100 < number ∨ index.val = 3 ∧ number = 0) then none
      else some { state with seen := state.seen ||| bit index, parsed := store index number state.parsed }

/-- A key takes a value. -/
def parseEntry (state : ParseState) (key value : List UInt8) : Option ParseState :=
  if key = [] then none
  else if state.current = .root ∧ key = versionKey then
    if state.versionSeen = true ∨ value ≠ versionOne then none else some { state with versionSeen := true }
  else if state.current = .display then
    match (List.finRange 5).find? fun index => decide (key = keys index) with
    | none => some state
    | some index => parseSetting state index value
  else some state

/-- The name between the brackets of a line. -/
def sectionNamed (line : List UInt8) : Section := if trim line.dropLast.tail = displayName then .display else .unknown

/-- A line without text or with a comment. -/
def Blank (line : List UInt8) : Prop := line = [] ∨ line.head? = some hash ∨ line.head? = some semicolon

instance (line : List UInt8) : Decidable (Blank line) := inferInstanceAs (Decidable (_ ∨ _))

/-- The text before the first equals sign. -/
def keyOf (line : List UInt8) : List UInt8 := trim (line.takeWhile (· ≠ equals))

/-- The text after the first equals sign. -/
def valueOf (line : List UInt8) : List UInt8 := trim (line.dropWhile (· ≠ equals)).tail

/-- A round of the loop of `power_config_parse`, once the line is trimmed. -/
def parseTrimmed (state : ParseState) (line : List UInt8) : Option ParseState :=
  if Blank line then some state
  else if line.head? = some openBracket then
    if line.length < 3 ∨ line.getLast? ≠ some closeBracket then none else some { state with current := sectionNamed line }
  else if equals ∉ line then none
  else parseEntry state (keyOf line) (valueOf line)

/-- A round of the loop of `power_config_parse`. -/
def parseLine (state : ParseState) (line : List UInt8) : Option ParseState := parseTrimmed state (trim (content line))

/-- The checks after the loop. -/
def Refused (state : ParseState) : Prop :=
  state.versionSeen = false ∨ state.parsed.idleMs = 0 ∨
    (state.parsed.screenOffMs ≠ 0 ∧ state.parsed.screenOffMs < state.parsed.idleMs) ∨
    (state.parsed.panelOffMs ≠ 0 ∧ (state.parsed.screenOffMs = 0 ∨ state.parsed.panelOffMs < state.parsed.screenOffMs))

instance (state : ParseState) : Decidable (Refused state) := inferInstanceAs (Decidable (_ ∨ _))

/-- What `power_config_parse` publishes for a text, if anything. -/
def parseContent (content : List UInt8) : Option Policy := do
  let state ← (lines content).foldlM parseLine .initial
  if Refused state then none else some state.parsed

/-- `power_config_parse`: the result, and the policy of the caller after the call. -/
def powerConfigParse (text : ConfigText) (policy : Option Policy) : ConfigResult × Option Policy :=
  if configFileMax < text.length then (.tooLarge, policy)
  else
    match text, policy with
    | .null _, policy => (.invalid, policy)
    | .bytes _, none => (.invalid, none)
    | .bytes content, some policy =>
      if 0 ∈ content then (.invalid, some policy)
      else
        match parseContent content with
        | none => (.invalid, some policy)
        | some parsed => (.ok, some parsed)

/-! ## Decimal numbers -/

/-- A plain decimal number. -/
def IsDecimal (text : List UInt8) : Prop := text ≠ [] ∧ ∀ byte ∈ text, IsDigit byte

/-- The number that decimal digits write after a number. -/
def decimalFrom (value : Nat) (text : List UInt8) : Nat := text.foldl (fun value byte => value * 10 + (byte.toNat - 48)) value

/-- The number that decimal digits write. -/
def decimal (text : List UInt8) : Nat := decimalFrom 0 text

/-- A digit that passes the check does not make the value wrap. -/
theorem toNat_digit {value : BitVec 32} {byte : UInt8} (hdigit : IsDigit byte)
    (hcheck : ¬(4294967295 - BitVec.ofNat 32 (byte.toNat - 48)) / 10 < value) :
    (value * 10 + BitVec.ofNat 32 (byte.toNat - 48)).toNat = value.toNat * 10 + (byte.toNat - 48) := by
  obtain ⟨hlow, hhigh⟩ := hdigit
  have hsmall : (BitVec.ofNat 32 (byte.toNat - 48)).toNat = byte.toNat - 48 := by
    rw [BitVec.toNat_ofNat, Nat.mod_eq_of_lt (by omega)]
  have hmaximum : (4294967295 : BitVec 32).toNat = 4294967295 := rfl
  have hten : (10 : BitVec 32).toNat = 10 := rfl
  have hle : BitVec.ofNat 32 (byte.toNat - 48) ≤ 4294967295 := by
    rw [BitVec.le_def, hsmall, hmaximum]
    omega
  rw [BitVec.lt_def, BitVec.toNat_udiv, BitVec.toNat_sub_of_le hle, hsmall, hmaximum, hten] at hcheck
  rw [BitVec.toNat_add, BitVec.toNat_mul, hsmall, hten]
  omega

theorem parseDigits_eq_some {value number : BitVec 32} {text : List UInt8} (h : parseDigits value text = some number) :
    (∀ byte ∈ text, IsDigit byte) ∧ decimalFrom value.toNat text = number.toNat := by
  induction text generalizing value with
  | nil => exact ⟨fun _ hmem => absurd hmem List.not_mem_nil, congrArg BitVec.toNat (Option.some.inj h)⟩
  | cons byte text ih =>
    unfold parseDigits at h
    dsimp only at h
    split_ifs at h with hdigit hcheck
    obtain ⟨hdigits, hvalue⟩ := ih h
    rw [toNat_digit hdigit hcheck] at hvalue
    exact ⟨List.forall_mem_cons.2 ⟨hdigit, hdigits⟩, hvalue⟩

theorem parseNumber_eq_some {number : BitVec 32} {text : List UInt8} (h : parseNumber text = some number) :
    IsDecimal text ∧ decimal text = number.toNat := by
  unfold parseNumber at h
  split_ifs at h with hempty
  obtain ⟨hdigits, hvalue⟩ := parseDigits_eq_some h
  exact ⟨⟨hempty, hdigits⟩, hvalue⟩

/-! ## The entries of a text -/

/-- A key with its value, and the section that they are in. -/
structure Entry where
  place : Section
  key : List UInt8
  value : List UInt8
  deriving DecidableEq

/-- The section that a text has come to, and the entries so far. -/
structure Reading where
  place : Section
  entries : List Entry

/-- A line between brackets begins a section, and a line with an equals sign is an entry. -/
def Reading.line (reading : Reading) (line : List UInt8) : Reading :=
  let text := trim (content line)
  if Blank text then reading
  else if text.head? = some openBracket then { reading with place := sectionNamed text }
  else if equals ∉ text then reading
  else { reading with entries := reading.entries ++ [⟨reading.place, keyOf text, valueOf text⟩] }

/-- The entries of a text. -/
def entries (content : List UInt8) : List Entry := ((lines content).foldl Reading.line ⟨.root, []⟩).entries

/-- The values that a key is given in a section. -/
def values (place : Section) (key : List UInt8) (entries : List Entry) : List (List UInt8) :=
  (entries.filter fun entry => decide (entry.place = place ∧ entry.key = key)).map Entry.value

theorem values_append (place : Section) (key : List UInt8) (before : List Entry) (entry : Entry) :
    values place key (before ++ [entry]) =
      values place key before ++ if entry.place = place ∧ entry.key = key then [entry.value] else [] := by
  unfold values
  rw [List.filter_append, List.map_append]
  split_ifs with hmatches
  · rw [List.filter_cons_of_pos (by simpa using hmatches)]
    rfl
  · rw [List.filter_cons_of_neg (by simpa using hmatches)]
    rfl

/-! ## What a policy says -/

/-- What a key is set to. -/
def setting (policy : Policy) : Fin 5 → Nat
  | 0 => policy.idleMs.toNat
  | 1 => policy.screenOffMs.toNat
  | 2 => policy.panelOffMs.toNat
  | 3 => policy.activeBrightness.toNat
  | 4 => policy.idleBrightness.toNat

/-- The first three keys are given in seconds. -/
def scale (index : Fin 5) : Nat := if index.val < 3 then 1000 else 1

/-- The numbers that a key can be given: 32 bits for seconds, a percentage for a brightness, and not zero for the first of each. -/
def InRange (index : Fin 5) (number : Nat) : Prop :=
  number ≤ 4294967295 ∧ (3 ≤ index.val → number ≤ 100) ∧ (index.val = 0 ∨ index.val = 3 → number ≠ 0)

/-- A key has been given no value and has its default, or one value, a decimal number in its range, and has that. -/
def Given (policy : Policy) (found : List Entry) (index : Fin 5) : Prop :=
  (values .display (keys index) found = [] ∧ setting policy index = setting powerConfigDefaults index) ∨
    ∃ value, values .display (keys index) found = [value] ∧ IsDecimal value ∧ InRange index (decimal value) ∧
      setting policy index = decimal value * scale index

/-- A policy is what the entries of a text say: the version before any section, and every other field at its default. -/
structure Describes (found : List Entry) (policy : Policy) : Prop where
  version : values .root versionKey found = [versionOne]
  given : ∀ index, Given policy found index
  suspendMs : policy.suspendMs = powerConfigDefaults.suspendMs
  automaticSuspend : policy.automaticSuspend = powerConfigDefaults.automaticSuspend

/-- A text that is not to be accepted: a zero in it, no version before the first section, a known key twice, or a value of one that is no
decimal number in its range. -/
def Faulty (content : List UInt8) : Prop :=
  0 ∈ content ∨ values .root versionKey (entries content) = [] ∨ 2 ≤ (values .root versionKey (entries content)).length ∨
    ∃ index, 2 ≤ (values .display (keys index) (entries content)).length ∨
      ∃ value ∈ values .display (keys index) (entries content), ¬(IsDecimal value ∧ InRange index (decimal value))

/-! ## The fields and the bits of the keys -/

theorem setting_store_self {index : Fin 5} {number : BitVec 32} (hsmall : 3 ≤ index.val → number.toNat ≤ 100) (parsed : Policy) :
    setting (store index number parsed) index = number.toNat * scale index := by
  have hseconds : (number.setWidth 64 * 1000).toNat = number.toNat * 1000 := by
    have hlt := number.isLt
    have hthousand : (1000 : BitVec 64).toNat = 1000 := rfl
    rw [BitVec.toNat_mul, BitVec.toNat_setWidth, hthousand]
    omega
  have hpercent : number.toNat ≤ 100 → (number.setWidth 8).toNat = number.toNat * 1 := by
    intro hle
    rw [BitVec.toNat_setWidth]
    omega
  match index with
  | 0 => exact hseconds
  | 1 => exact hseconds
  | 2 => exact hseconds
  | 3 => exact hpercent (hsmall (Nat.le_refl 3))
  | 4 => exact hpercent (hsmall (Nat.le_succ 3))

theorem setting_store_of_ne {index other : Fin 5} (h : other ≠ index) (number : BitVec 32) (parsed : Policy) :
    setting (store index number parsed) other = setting parsed other := by
  fin_cases index <;> fin_cases other <;> first | rfl | exact absurd rfl h

theorem and_bit (seen : BitVec 32) (index : Fin 5) : seen &&& bit index = 0 ↔ seen.getLsbD index = false := by
  have hnonzero : ∀ index, bit index ≠ 0 := by decide
  unfold bit at hnonzero ⊢
  rw [BitVec.and_twoPow]
  cases seen.getLsbD index with
  | false => exact ⟨fun _ => rfl, fun _ => rfl⟩
  | true => exact ⟨fun h => absurd h (hnonzero index), fun h => absurd h (by decide)⟩

theorem getLsbD_or_bit (seen : BitVec 32) (index other : Fin 5) :
    (seen ||| bit index).getLsbD other = (seen.getLsbD other || decide (other = index)) := by
  have hbit : ∀ index other : Fin 5, (bit index).getLsbD other = decide (other = index) := by decide
  rw [BitVec.getLsbD_or, hbit]

theorem keys_injective : Function.Injective keys := by
  unfold Function.Injective
  decide

/-! ## The parser reads the entries -/

theorem values_append_of_not {place : Section} {key : List UInt8} {before : List Entry} {entry : Entry}
    (h : ¬(entry.place = place ∧ entry.key = key)) : values place key (before ++ [entry]) = values place key before := by
  rw [values_append, if_neg h, List.append_nil]

theorem values_append_of {place : Section} {key : List UInt8} {before : List Entry} {entry : Entry}
    (h : entry.place = place ∧ entry.key = key) (hnone : values place key before = []) :
    values place key (before ++ [entry]) = [entry.value] := by
  rw [values_append, if_pos h, hnone, List.nil_append]

/-- A key has one value, which the policy has taken. -/
def Taken (policy : Policy) (found : List Entry) (index : Fin 5) : Prop :=
  ∃ value, values .display (keys index) found = [value] ∧ IsDecimal value ∧ decimal value ≤ 4294967295 ∧
    (3 ≤ index.val → decimal value ≤ 100) ∧ (index.val = 3 → decimal value ≠ 0) ∧ setting policy index = decimal value * scale index

/-- The variables of the parser are what the entries so far say. -/
structure Follows (reading : Reading) (state : ParseState) : Prop where
  place : state.current = reading.place
  version : values .root versionKey reading.entries = if state.versionSeen = true then [versionOne] else []
  unseen : ∀ index : Fin 5, state.seen.getLsbD index = false →
    values .display (keys index) reading.entries = [] ∧ setting state.parsed index = setting powerConfigDefaults index
  seen : ∀ index : Fin 5, state.seen.getLsbD index = true → Taken state.parsed reading.entries index
  suspendMs : state.parsed.suspendMs = powerConfigDefaults.suspendMs
  automaticSuspend : state.parsed.automaticSuspend = powerConfigDefaults.automaticSuspend

theorem follows_initial : Follows ⟨.root, []⟩ .initial where
  place := rfl
  version := rfl
  unseen := fun _ _ => ⟨rfl, rfl⟩
  seen := by
    have hbits : ∀ index : Fin 5, (0 : BitVec 32).getLsbD index ≠ true := by decide
    exact fun index hindex => absurd hindex (hbits index)
  suspendMs := rfl
  automaticSuspend := rfl

variable {reading : Reading} {state state' : ParseState} {key value : List UInt8}

/-- The reading with an entry of the section that it has come to. -/
def Reading.entry (reading : Reading) (key value : List UInt8) : Reading :=
  { reading with entries := reading.entries ++ [⟨reading.place, key, value⟩] }

/-- An entry that no key of the parser matches says nothing. -/
theorem Follows.ignored (h : Follows reading state) (hversion : ¬(reading.place = .root ∧ key = versionKey))
    (hkeys : ∀ index, ¬(reading.place = .display ∧ key = keys index)) : Follows (reading.entry key value) state where
  place := h.place
  version := (values_append_of_not hversion).trans h.version
  unseen := by
    intro index hindex
    obtain ⟨hnone, hdefault⟩ := h.unseen index hindex
    exact ⟨(values_append_of_not (hkeys index)).trans hnone, hdefault⟩
  seen := by
    intro index hindex
    obtain ⟨value', hvalues, hrest⟩ := h.seen index hindex
    exact ⟨value', (values_append_of_not (hkeys index)).trans hvalues, hrest⟩
  suspendMs := h.suspendMs
  automaticSuspend := h.automaticSuspend

/-- The version is taken once. -/
theorem Follows.versioned (h : Follows reading state) (hplace : reading.place = .root) (hunseen : state.versionSeen = false) :
    Follows (reading.entry versionKey versionOne) { state with versionSeen := true } where
  place := h.place
  version := by
    have hnone := h.version
    rw [hunseen, if_neg Bool.false_ne_true] at hnone
    exact values_append_of ⟨hplace, rfl⟩ hnone
  unseen := by
    intro index hindex
    obtain ⟨hnone, hdefault⟩ := h.unseen index hindex
    exact ⟨(values_append_of_not fun hmatches => by simp [hplace] at hmatches).trans hnone, hdefault⟩
  seen := by
    intro index hindex
    obtain ⟨value', hvalues, hrest⟩ := h.seen index hindex
    exact ⟨value', (values_append_of_not fun hmatches => by simp [hplace] at hmatches).trans hvalues, hrest⟩
  suspendMs := h.suspendMs
  automaticSuspend := h.automaticSuspend

theorem store_kept (index : Fin 5) (number : BitVec 32) (parsed : Policy) :
    (store index number parsed).suspendMs = parsed.suspendMs ∧
      (store index number parsed).automaticSuspend = parsed.automaticSuspend := by
  fin_cases index <;> exact ⟨rfl, rfl⟩

/-- A known key of the display section is taken once. -/
theorem parseSetting_follows {index : Fin 5} (h : Follows reading state) (hplace : reading.place = .display)
    (hparse : parseSetting state index value = some state') : Follows (reading.entry (keys index) value) state' := by
  unfold parseSetting at hparse
  split_ifs at hparse with hbit
  cases hnumber : parseNumber value with
  | none =>
    rw [hnumber] at hparse
    exact absurd hparse (by simp)
  | some number =>
    simp only [hnumber] at hparse
    split_ifs at hparse with hrange
    obtain rfl := Option.some.inj hparse
    obtain ⟨hdecimal, hvalue⟩ := parseNumber_eq_some hnumber
    obtain ⟨hnone, -⟩ := h.unseen index ((and_bit _ _).1 (not_not.1 hbit))
    have hlt := number.isLt
    have hsmall : 3 ≤ index.val → number.toNat ≤ 100 := by
      intro hindex
      by_contra hlarge
      exact hrange ⟨hindex, .inl (BitVec.lt_def.2 (Nat.lt_of_not_le hlarge))⟩
    have hnonzero : index.val = 3 → number.toNat ≠ 0 := by
      intro hindex hzero
      exact hrange ⟨hindex.ge, .inr ⟨hindex, BitVec.eq_of_toNat_eq hzero⟩⟩
    have hother : ∀ other, other ≠ index → ¬(reading.place = .display ∧ keys index = keys other) :=
      fun other hne hmatches => hne (keys_injective hmatches.2).symm
    obtain ⟨hsuspend, hautomatic⟩ := store_kept index number state.parsed
    refine ⟨h.place, ?_, fun other hunseen => ?_, fun other hseen => ?_, hsuspend.trans h.suspendMs, hautomatic.trans h.automaticSuspend⟩
    · exact (values_append_of_not fun hmatches => by simp [hplace] at hmatches).trans h.version
    · rw [getLsbD_or_bit, Bool.or_eq_false_iff, decide_eq_false_iff_not] at hunseen
      obtain ⟨hempty, hdefault⟩ := h.unseen other hunseen.1
      exact ⟨(values_append_of_not (hother other hunseen.2)).trans hempty, (setting_store_of_ne hunseen.2 _ _).trans hdefault⟩
    · rw [getLsbD_or_bit, Bool.or_eq_true, decide_eq_true_iff] at hseen
      by_cases hself : other = index
      · subst hself
        refine ⟨value, values_append_of ⟨hplace, rfl⟩ hnone, hdecimal, ?_⟩
        rw [hvalue]
        exact ⟨by omega, hsmall, hnonzero, setting_store_self hsmall _⟩
      · obtain ⟨value', hvalues, hdecimal', hword, hpercent, hzero, hset⟩ := h.seen other (hseen.resolve_right hself)
        exact ⟨value', (values_append_of_not (hother other hself)).trans hvalues, hdecimal', hword, hpercent, hzero,
          (setting_store_of_ne hself _ _).trans hset⟩

theorem parseEntry_follows (h : Follows reading state) (hparse : parseEntry state key value = some state') :
    Follows (reading.entry key value) state' := by
  have hplace := h.place
  unfold parseEntry at hparse
  split_ifs at hparse with hempty hroot hrefused hdisplay
  · obtain rfl := Option.some.inj hparse
    obtain ⟨hunseen, hone⟩ := not_or.1 hrefused
    obtain ⟨hroot, rfl⟩ := hroot
    rw [not_not.1 hone]
    exact h.versioned (hplace.symm.trans hroot) (by simpa using hunseen)
  · rw [hplace] at hroot hdisplay
    cases hfind : (List.finRange 5).find? fun index => decide (key = keys index) with
    | none =>
      simp only [hfind] at hparse
      obtain rfl := Option.some.inj hparse
      refine h.ignored hroot fun index hmatches => ?_
      exact List.find?_eq_none.1 hfind index (List.mem_finRange index) (by simpa using hmatches.2)
    | some index =>
      simp only [hfind] at hparse
      have hkey : key = keys index := by simpa using List.find?_some hfind
      subst hkey
      exact parseSetting_follows h hdisplay hparse
  · obtain rfl := Option.some.inj hparse
    rw [hplace] at hroot hdisplay
    exact h.ignored hroot fun _ hmatches => hdisplay hmatches.1

/-- A line that is parsed says to the parser what it says to the reading. -/
theorem parseLine_follows {line : List UInt8} (h : Follows reading state) (hparse : parseLine state line = some state') :
    Follows (reading.line line) state' := by
  unfold parseLine parseTrimmed at hparse
  unfold Reading.line
  dsimp only
  split_ifs at hparse with hblank hheader hsection hequals
  · obtain rfl := Option.some.inj hparse
    rwa [if_pos hblank]
  · obtain rfl := Option.some.inj hparse
    rw [if_neg hblank, if_pos hheader]
    exact ⟨rfl, h.version, h.unseen, h.seen, h.suspendMs, h.automaticSuspend⟩
  · rw [if_neg hblank, if_neg hheader, if_neg (not_not.2 hequals)]
    exact parseEntry_follows h hparse

theorem parseLines_follows {text : List (List UInt8)} (h : Follows reading state) (hparse : text.foldlM parseLine state = some state') :
    Follows (text.foldl Reading.line reading) state' := by
  induction text generalizing reading state with
  | nil =>
    obtain rfl := Option.some.inj hparse
    exact h
  | cons line text ih =>
    rw [List.foldlM_cons] at hparse
    obtain ⟨middle, hline, hrest⟩ := Option.bind_eq_some_iff.1 hparse
    exact ih (parseLine_follows h hline) hrest

/-! ## What is published -/

/-- The variables that pass the checks describe the text, and the validator accepts their policy. -/
theorem Follows.describes (h : Follows reading state) (hchecks : ¬Refused state) :
    Describes reading.entries state.parsed ∧ policyOk state.parsed = true := by
  unfold Refused at hchecks
  simp only [not_or, not_and] at hchecks
  obtain ⟨hversion, hidle, hscreen, hpanel⟩ := hchecks
  have hgiven : ∀ index, Given state.parsed reading.entries index := by
    intro index
    cases hindex : state.seen.getLsbD index with
    | false => exact .inl (h.unseen index hindex)
    | true =>
      obtain ⟨value, hvalues, hdecimal, hword, hpercent, hzero, hset⟩ := h.seen index hindex
      refine .inr ⟨value, hvalues, hdecimal, ⟨hword, hpercent, fun hfirst hnone => ?_⟩, hset⟩
      rcases hfirst with hfirst | hfirst
      · obtain rfl : index = 0 := Fin.ext hfirst
        rw [hnone, Nat.zero_mul] at hset
        exact hidle (BitVec.eq_of_toNat_eq hset)
      · exact hzero hfirst hnone
  have hbrightness : ∀ index : Fin 5, 3 ≤ index.val → setting state.parsed index ≤ 100 := by
    intro index hindex
    rcases hgiven index with ⟨-, hdefault⟩ | ⟨value, -, -, hrange, hset⟩
    · have hdefaults : ∀ index : Fin 5, 3 ≤ index.val → setting powerConfigDefaults index ≤ 100 := by decide
      rw [hdefault]
      exact hdefaults index hindex
    · rw [hset, scale, if_neg (Nat.not_lt.2 hindex), Nat.mul_one]
      exact hrange.2.1 hindex
  refine ⟨⟨?_, hgiven, h.suspendMs, h.automaticSuspend⟩, ?_⟩
  · rw [h.version, if_pos (by simpa using hversion)]
  · have hactive : state.parsed.activeBrightness ≤ 100 := BitVec.le_def.2 (hbrightness 3 (Nat.le_refl 3))
    have hidleBrightness : state.parsed.idleBrightness ≤ 100 := BitVec.le_def.2 (hbrightness 4 (Nat.le_succ 3))
    have hscreen' : state.parsed.screenOffMs = 0 ∨ state.parsed.idleMs ≤ state.parsed.screenOffMs :=
      or_iff_not_imp_left.2 fun hon => BitVec.not_lt.1 (hscreen hon)
    have hpanel' : state.parsed.panelOffMs = 0 ∨ state.parsed.screenOffMs ≠ 0 ∧ state.parsed.screenOffMs ≤ state.parsed.panelOffMs :=
      or_iff_not_imp_left.2 fun hon => ⟨(hpanel hon).1, BitVec.not_lt.1 (hpanel hon).2⟩
    unfold policyOk
    simp only [Bool.and_eq_true, Bool.or_eq_true, decide_eq_true_eq]
    exact ⟨⟨⟨hactive, hidleBrightness⟩, hscreen'⟩, hpanel'⟩

theorem parseContent_describes {content : List UInt8} {parsed : Policy} (h : parseContent content = some parsed) :
    Describes (entries content) parsed ∧ policyOk parsed = true := by
  unfold parseContent at h
  obtain ⟨state, hlines, hchecks⟩ := Option.bind_eq_some_iff.1 h
  split_ifs at hchecks with hrefused
  obtain rfl := Option.some.inj hchecks
  exact (parseLines_follows follows_initial hlines).describes hrefused

/-- A text that is described by a policy is not faulty, but for a zero in it. -/
theorem Describes.not_faulty {content : List UInt8} {parsed : Policy} (h : Describes (entries content) parsed) (hzero : 0 ∉ content) :
    ¬Faulty content := by
  rintro (hmem | hmissing | hrepeated | ⟨index, hindex⟩)
  · exact hzero hmem
  · rw [h.version] at hmissing
    exact absurd hmissing (List.cons_ne_nil _ _)
  · rw [h.version] at hrepeated
    exact absurd hrepeated (by decide)
  · rcases h.given index with ⟨hnone, -⟩ | ⟨value, hone, hdecimal, hrange, -⟩
    · rw [hnone] at hindex
      rcases hindex with hrepeated | ⟨_, hmem, -⟩
      · exact absurd hrepeated (by decide)
      · exact absurd hmem List.not_mem_nil
    · rw [hone] at hindex
      rcases hindex with hrepeated | ⟨value', hmem, hbad⟩
      · exact absurd hrepeated (by simp)
      · obtain rfl := List.mem_singleton.1 hmem
        exact hbad ⟨hdecimal, hrange⟩

/-- A parse that succeeds has published what it has parsed. -/
theorem powerConfigParse_ok {text : ConfigText} {policy : Option Policy} (h : (powerConfigParse text policy).1 = .ok) :
    ∃ content parsed, text = .bytes content ∧ 0 ∉ content ∧ parseContent content = some parsed ∧
      (powerConfigParse text policy).2 = some parsed := by
  unfold powerConfigParse at h ⊢
  split_ifs at h ⊢ with hlarge
  cases text with
  | null length => exact absurd h (by simp)
  | bytes content =>
    cases policy with
    | none => exact absurd h (by simp)
    | some policy =>
      dsimp only at h ⊢
      split_ifs at h ⊢ with hzero
      cases hparsed : parseContent content with
      | none => exact absurd h (by simp [hparsed])
      | some parsed => exact ⟨content, parsed, rfl, hzero, hparsed, rfl⟩

/-- A parse that fails publishes nothing. -/
theorem powerConfigParse_failed {text : ConfigText} {policy : Option Policy} (h : (powerConfigParse text policy).1 ≠ .ok) :
    (powerConfigParse text policy).2 = policy := by
  unfold powerConfigParse at h ⊢
  split_ifs at h ⊢ with hlarge
  · rfl
  · cases text with
    | null length => rfl
    | bytes content =>
      cases policy with
      | none => rfl
      | some policy =>
        dsimp only at h ⊢
        split_ifs at h ⊢ with hzero
        · rfl
        · cases hparsed : parseContent content with
          | none => rfl
          | some parsed => exact absurd (by simp [hparsed]) h

/-- A parse that succeeds publishes a policy that describes the text and that the power manager starts with, a parse that fails leaves
the policy of the caller, and a faulty text is not parsed. -/
theorem power_config_parses (text : ConfigText) (policy : Option Policy) :
    ((powerConfigParse text policy).1 = .ok → ∃ content parsed, text = .bytes content ∧
      (powerConfigParse text policy).2 = some parsed ∧ Describes (entries content) parsed ∧
      ∀ env nowMs, (powerManagerInit env parsed nowMs).isSome) ∧
    ((powerConfigParse text policy).1 ≠ .ok → (powerConfigParse text policy).2 = policy) ∧
    ∀ content, text = .bytes content → Faulty content → (powerConfigParse text policy).1 ≠ .ok := by
  refine ⟨fun hok => ?_, powerConfigParse_failed, fun content htext hfaulty hok => ?_⟩
  · obtain ⟨content, parsed, htext, -, hparsed, hpublished⟩ := powerConfigParse_ok hok
    obtain ⟨hdescribes, haccepted⟩ := parseContent_describes hparsed
    refine ⟨content, parsed, htext, hpublished, hdescribes, fun env nowMs => ?_⟩
    unfold powerManagerInit
    rw [if_neg (by rw [haccepted]; exact Bool.noConfusion)]
    rfl
  · obtain ⟨content', parsed, htext', hzero, hparsed, -⟩ := powerConfigParse_ok hok
    obtain rfl : content = content' := ConfigText.bytes.inj (htext.symm.trans htext')
    exact (parseContent_describes hparsed).1.not_faulty hzero hfaulty

example : powerConfigParse (.bytes (versionKey ++ equals :: versionOne)) (some (store 0 7 powerConfigDefaults)) =
    (.ok, some powerConfigDefaults) := by decide

end Power
end TabOS
