import Mathlib.Data.UInt
import Mathlib.Data.List.Basic

/-!
# Arguments of a command line

`shell_parse_arguments` of `apps/shell/parser.c` cuts a line into arguments in place: what it writes goes to the start of the bytes it has
read. A line is compared with the ways an argument may be written in it: bare, behind a backslash or within quotes.
-/

namespace TabOS
namespace Shell

/-- The space. -/
def space : UInt8 := 0x20

def backslash : UInt8 := 0x5C

def singleQuote : UInt8 := 0x27

def doubleQuote : UInt8 := 0x22

def IsQuote (byte : UInt8) : Prop := byte = singleQuote ∨ byte = doubleQuote

instance (byte : UInt8) : Decidable (IsQuote byte) := inferInstanceAs (Decidable (_ ∨ _))

/-- The negative results of `shell_parse_arguments`. -/
inductive ParseError where
  | tooManyArguments
  | unterminatedQuote
  deriving DecidableEq

/-- The bytes of the line up to its terminator, and the places that are read and written next. -/
structure Parsing where
  line : List UInt8
  read : Nat
  write : Nat
  deriving DecidableEq

/-- `*write++ = byte`; it goes wrong past the place that is read and past the terminator. -/
def Parsing.store (p : Parsing) (byte : UInt8) : Option Parsing :=
  if p.write ≤ p.read ∧ p.write < p.line.length then some { p with line := p.line.set p.write byte, write := p.write + 1 } else none

/-- `read += count`. -/
def Parsing.skip (p : Parsing) (count : Nat) : Parsing := { p with read := p.read + count }

/-- The loops over the spaces of a line. -/
def skipSpaces : Nat → Parsing → Option Parsing
  | 0, _ => none
  | fuel + 1, p => do
    let byte ← p.line[p.read]?
    if byte = space then skipSpaces fuel (p.skip 1) else pure p

/-- The loop over the bytes of an argument, with the quote that is open or zero. -/
def parseArgument : Nat → UInt8 → Parsing → Option (UInt8 × Parsing)
  | 0, _, _ => none
  | fuel + 1, quote, p => do
    let byte ← p.line[p.read]?
    if byte = 0 then pure (quote, p)
    else
      let next ← if byte = backslash then p.line[p.read + 1]? else pure 0
      if byte = backslash ∧ next ≠ 0 then
        let p ← p.store next
        parseArgument fuel quote (p.skip 2)
      else if quote ≠ 0 then
        if byte = quote then parseArgument fuel 0 (p.skip 1)
        else
          let p ← p.store byte
          parseArgument fuel quote (p.skip 1)
      else if IsQuote byte then parseArgument fuel byte (p.skip 1)
      else if byte = space then pure (quote, p)
      else
        let p ← p.store byte
        parseArgument fuel quote (p.skip 1)

/-- The loop over the arguments of a line: the places where they begin, and the line as it is left. -/
def parseArguments : Nat → Nat → Parsing → List Nat → Option (Except ParseError (List Nat) × List UInt8)
  | 0, _, _, _ => none
  | fuel + 1, capacity, p, argv => do
    let byte ← p.line[p.read]?
    if byte = 0 then pure (.ok argv, p.line)
    else
      let p ← skipSpaces p.line.length p
      let byte ← p.line[p.read]?
      if byte = 0 then pure (.ok argv, p.line)
      else if argv.length ≥ capacity then pure (.error .tooManyArguments, p.line)
      else
        let (quote, q) ← parseArgument p.line.length 0 p
        if quote ≠ 0 then pure (.error .unterminatedQuote, q.line)
        else
          let q ← skipSpaces q.line.length q
          let q ← q.store 0
          parseArguments fuel capacity q (argv ++ [p.write])

def shellParseArguments (line : List UInt8) (capacity : Nat) : Option (Except ParseError (List Nat) × List UInt8) :=
  parseArguments line.length capacity ⟨line, 0, 0⟩ []

/-- The string at a place of a line. -/
def textAt (line : List UInt8) (start : Nat) : List UInt8 := (line.drop start).takeWhile (· ≠ 0)

/-! ## The ways to write arguments -/

section Writing

-- the bytes that may stand as they are within a quote
variable (Plain : UInt8 → UInt8 → Prop)

/-- Bytes within a quote. -/
inductive Quoted (quote : UInt8) : List UInt8 → List UInt8 → Prop
  | nil : Quoted quote [] []
  | plain {byte : UInt8} {bytes text : List UInt8} (h : Plain quote byte) (hrest : Quoted quote bytes text) :
    Quoted quote (byte :: bytes) (byte :: text)
  | escaped {byte : UInt8} {bytes text : List UInt8} (hrest : Quoted quote bytes text) :
    Quoted quote (byte :: bytes) (backslash :: byte :: text)

/-- An argument of bare bytes, bytes behind a backslash and quotes. -/
inductive Written : List UInt8 → List UInt8 → Prop
  | nil : Written [] []
  | bare {byte : UInt8} {bytes text : List UInt8} (hspace : byte ≠ space) (hquote : ¬IsQuote byte) (hbackslash : byte ≠ backslash)
      (hrest : Written bytes text) : Written (byte :: bytes) (byte :: text)
  | escaped {byte : UInt8} {bytes text : List UInt8} (hrest : Written bytes text) : Written (byte :: bytes) (backslash :: byte :: text)
  | quoted {quote : UInt8} {inner body bytes text : List UInt8} (hquote : IsQuote quote) (hinner : Quoted Plain quote inner body)
      (hrest : Written bytes text) : Written (inner ++ bytes) (quote :: (body ++ quote :: text))

/-- Arguments with spaces between them and around. -/
inductive Rendering : List (List UInt8) → List UInt8 → Prop
  | nil (spaces : Nat) : Rendering [] (List.replicate spaces space)
  | cons (spaces : Nat) {argument text rest : List UInt8} {arguments : List (List UInt8)} (hargument : Written Plain argument text)
      (htext : text ≠ []) (hrest : Rendering arguments rest) (hbetween : rest = [] ∨ rest.head? = some space) :
    Rendering (argument :: arguments) (List.replicate spaces space ++ (text ++ rest))

end Writing

/-- Within a quote neither the quote nor a backslash stands as it is. -/
def Inside (quote byte : UInt8) : Prop := byte ≠ quote ∧ byte ≠ backslash

/-! ## What the loop over an argument takes -/

/-- A round of the loop: what it puts out, and the quote that is open and the bytes that are left. -/
inductive Consumes : UInt8 → List UInt8 → List UInt8 → UInt8 → List UInt8 → Prop
  | escaped (quote : UInt8) {next : UInt8} {rest : List UInt8} (hnext : next ≠ 0) :
    Consumes quote (backslash :: next :: rest) [next] quote rest
  | closed {quote : UInt8} {rest : List UInt8} (hquote : quote ≠ 0) (hbackslash : quote ≠ backslash) :
      Consumes quote (quote :: rest) [] 0 rest
  | inside {quote byte : UInt8} {rest : List UInt8} (hquote : quote ≠ 0) (hbyte : byte ≠ quote)
      (hbackslash : byte = backslash → rest = []) :
    Consumes quote (byte :: rest) [byte] quote rest
  | opened {byte : UInt8} {rest : List UInt8} (hbyte : IsQuote byte) : Consumes 0 (byte :: rest) [] byte rest
  | bare {byte : UInt8} {rest : List UInt8} (hspace : byte ≠ space) (hquote : ¬IsQuote byte) (hbackslash : byte = backslash → rest = []) :
    Consumes 0 (byte :: rest) [byte] 0 rest

/-- What the loop takes, and the quote and the bytes at its end. -/
inductive Takes : UInt8 → List UInt8 → List UInt8 → UInt8 → List UInt8 → Prop
  | terminator (quote : UInt8) : Takes quote [] [] quote []
  | separator (rest : List UInt8) : Takes 0 (space :: rest) [] 0 (space :: rest)
  | round {quote quote' quote'' : UInt8} {rest rest' rest'' out bytes : List UInt8} (h : Consumes quote rest out quote' rest')
      (hrest : Takes quote' rest' bytes quote'' rest'') : Takes quote rest (out ++ bytes) quote'' rest''

/-- The rest of a line without the spaces in front. -/
def trimmed (rest : List UInt8) : List UInt8 := rest.dropWhile (· = space)

/-- What the loop over the arguments makes of the rest of a line, after some number of them. -/
inductive Parses (capacity : Nat) : Nat → List UInt8 → Except ParseError (List (List UInt8)) → Prop
  | ended {count : Nat} {rest : List UInt8} (h : trimmed rest = []) : Parses capacity count rest (.ok [])
  | full {count : Nat} {rest : List UInt8} (h : trimmed rest ≠ []) (hcount : capacity ≤ count) :
    Parses capacity count rest (.error .tooManyArguments)
  | unterminated {count : Nat} {rest bytes left : List UInt8} {quote : UInt8} (h : trimmed rest ≠ []) (hcount : count < capacity)
      (htakes : Takes 0 (trimmed rest) bytes quote left) (hquote : quote ≠ 0) : Parses capacity count rest (.error .unterminatedQuote)
  | argument {count : Nat} {rest bytes left : List UInt8} {outcome : Except ParseError (List (List UInt8))} (h : trimmed rest ≠ [])
      (hcount : count < capacity) (htakes : Takes 0 (trimmed rest) bytes 0 left)
      (hrest : Parses capacity (count + 1) (trimmed left) outcome) :
    Parses capacity count rest (outcome.map (bytes :: ·))

/-! ## The line while it is parsed -/

/-- A line between two arguments, with the bytes that were put out and the bytes that are left. -/
structure Between (p : Parsing) (out rest : List UInt8) : Prop where
  unread : p.line.drop p.read = rest ++ [0]
  written : p.line.take p.write = out
  length : out.length = p.write
  behind : rest ≠ [] → p.write ≤ p.read

/-- A line within an argument. -/
structure Reading (p : Parsing) (out rest : List UInt8) : Prop extends Between p out rest where
  before : p.write ≤ p.read

theorem Between.reading {p : Parsing} {out rest : List UInt8} (h : Between p out rest) (hrest : rest ≠ []) : Reading p out rest :=
  { h with before := h.behind hrest }

theorem Between.ahead {p : Parsing} {out rest : List UInt8} (h : Between p out rest) (count : Nat) :
    p.line[p.read + count]? = (rest ++ [0])[count]? := by
  rw [← h.unread, List.getElem?_drop]

theorem Between.first {p : Parsing} {out rest : List UInt8} {byte : UInt8} (h : Between p out (byte :: rest)) :
    p.line[p.read]? = some byte := by
  have hahead := h.ahead 0
  rwa [Nat.add_zero] at hahead

theorem Between.terminator {p : Parsing} {out : List UInt8} (h : Between p out []) : p.line[p.read]? = some 0 := by
  have hahead := h.ahead 0
  rwa [Nat.add_zero] at hahead

theorem Between.line_length {p : Parsing} {out rest : List UInt8} (h : Between p out rest) :
    p.line.length = p.read + rest.length + 1 := by
  have hlength := congrArg List.length h.unread
  rw [List.length_drop, List.length_append, List.length_singleton] at hlength
  omega

theorem Between.line_prefix {p : Parsing} {out rest : List UInt8} (h : Between p out rest) : out <+: p.line :=
  h.written ▸ List.take_prefix p.write p.line

/-- A byte is read. -/
theorem Reading.skip {p : Parsing} {out rest : List UInt8} {byte : UInt8} (h : Reading p out (byte :: rest)) :
    Reading (p.skip 1) out rest := by
  have hunread : p.line.drop (p.read + 1) = rest ++ [0] := by
    rw [← List.drop_drop, h.unread]
    rfl
  exact ⟨⟨hunread, h.written, h.length, fun _ => Nat.le_succ_of_le h.before⟩, Nat.le_succ_of_le h.before⟩

theorem take_set_succ (line : List UInt8) (place : Nat) (byte : UInt8) (h : place < line.length) :
    (line.set place byte).take (place + 1) = line.take place ++ [byte] := by
  rw [List.set_eq_take_append_cons_drop, if_pos h]
  have hlength : (line.take place).length = place := List.length_take_of_le h.le
  rw [List.take_append, hlength, List.take_of_length_le (hlength.trans_le (Nat.le_succ place)), Nat.add_sub_cancel_left]
  rfl

/-- A byte is put out while a byte is read. -/
theorem Reading.store {p : Parsing} {out rest : List UInt8} {byte : UInt8} (h : Reading p out (byte :: rest)) (value : UInt8) :
    ∃ q, p.store value = some q ∧ Reading (q.skip 1) (out ++ [value]) rest := by
  have hlength := h.line_length
  have hbefore := h.before
  rw [List.length_cons] at hlength
  have hwrite : p.write < p.line.length := by omega
  refine ⟨_, if_pos ⟨h.before, hwrite⟩, ⟨?_, ?_, ?_, fun _ => Nat.succ_le_succ h.before⟩, Nat.succ_le_succ h.before⟩
  · have hdrop : (p.line.set p.write value).drop (p.read + 1) = p.line.drop (p.read + 1) :=
      List.drop_set_of_lt (Nat.lt_succ_of_le h.before)
    exact hdrop.trans h.skip.unread
  · exact (take_set_succ p.line p.write value hwrite).trans (congrArg (· ++ [value]) h.written)
  · rw [List.length_append, h.length]
    rfl

theorem Consumes.isSuffix {quote quote' : UInt8} {rest out rest' : List UInt8} (h : Consumes quote rest out quote' rest') :
    rest' <:+ rest ∧ rest'.length < rest.length := by
  cases h with
  | escaped => exact ⟨⟨[_, _], rfl⟩, by simp only [List.length_cons]; omega⟩
  | closed | inside | opened | bare => exact ⟨⟨[_], rfl⟩, Nat.lt_succ_self _⟩

theorem Takes.isSuffix {quote quote' : UInt8} {rest bytes rest' : List UInt8} (h : Takes quote rest bytes quote' rest') :
    rest' <:+ rest := by
  induction h with
  | terminator => exact List.suffix_rfl
  | separator => exact List.suffix_rfl
  | round hround _ ih => exact ih.trans hround.isSuffix.1

/-- A round at a byte that is not behind a backslash. -/
theorem parseArgument_of_plain {p : Parsing} {out rest : List UInt8} {byte : UInt8} (hp : Reading p out (byte :: rest)) (hnul : byte ≠ 0)
    (hbackslash : byte = backslash → rest = []) (fuel : Nat) (quote : UInt8) :
    parseArgument (fuel + 1) quote p =
      if quote ≠ 0 then
        if byte = quote then parseArgument fuel 0 (p.skip 1) else (p.store byte).bind fun q => parseArgument fuel quote (q.skip 1)
      else if IsQuote byte then parseArgument fuel byte (p.skip 1)
      else if byte = space then some (quote, p)
      else (p.store byte).bind fun q => parseArgument fuel quote (q.skip 1) := by
  rw [parseArgument, hp.first]
  by_cases h : byte = backslash
  · have hahead := hp.ahead 1
    rw [hbackslash h] at hahead
    simp [hnul, hahead]
  · simp [hnul, h]

/-- A round of the loop takes what it consumes. -/
theorem Consumes.parse {quote quote' : UInt8} {rest bytes rest' : List UInt8} (h : Consumes quote rest bytes quote' rest') {p : Parsing}
    {out : List UInt8} (hp : Reading p out rest) (hnul : 0 ∉ rest) (fuel : Nat) :
    ∃ q, parseArgument (fuel + 1) quote p = parseArgument fuel quote' q ∧ Reading q (out ++ bytes) rest' := by
  cases h with
  | escaped _ hnext =>
    obtain ⟨q, hstore, hq⟩ := hp.store _
    refine ⟨q.skip 2, ?_, hq.skip⟩
    rw [parseArgument, hp.first, hp.ahead 1]
    simp [hnext, hstore, backslash]
  | closed hquote hbackslash =>
    refine ⟨p.skip 1, ?_, (List.append_nil out).symm ▸ hp.skip⟩
    rw [parseArgument_of_plain hp hquote fun h => absurd h hbackslash, if_pos hquote, if_pos rfl]
  | inside hquote hbyte hbackslash =>
    obtain ⟨q, hstore, hq⟩ := hp.store _
    refine ⟨q.skip 1, ?_, hq⟩
    rw [parseArgument_of_plain hp (fun h => hnul (h ▸ List.mem_cons_self)) hbackslash, if_pos hquote, if_neg hbyte, hstore]
    rfl
  | opened hbyte =>
    refine ⟨p.skip 1, ?_, (List.append_nil out).symm ▸ hp.skip⟩
    have hbackslash : quote' ≠ backslash := by
      rintro rfl
      revert hbyte
      decide
    rw [parseArgument_of_plain hp (fun h => hnul (h ▸ List.mem_cons_self)) fun h => absurd h hbackslash, if_neg (not_not.2 rfl),
      if_pos hbyte]
  | bare hspace hquote hbackslash =>
    obtain ⟨q, hstore, hq⟩ := hp.store _
    refine ⟨q.skip 1, ?_, hq⟩
    rw [parseArgument_of_plain hp (fun h => hnul (h ▸ List.mem_cons_self)) hbackslash, if_neg (not_not.2 rfl), if_neg hquote,
      if_neg hspace, hstore]
    rfl

/-- The loop over an argument takes what it takes of the rest of the line. -/
theorem Takes.parse {quote quote' : UInt8} {rest bytes rest' : List UInt8} (h : Takes quote rest bytes quote' rest') {p : Parsing}
    {out : List UInt8} (hp : Reading p out rest) (hnul : 0 ∉ rest) {fuel : Nat} (hfuel : rest.length < fuel) :
    ∃ q, parseArgument fuel quote p = some (quote', q) ∧ Reading q (out ++ bytes) rest' := by
  induction h generalizing p out fuel with
  | terminator quote =>
    obtain ⟨fuel, rfl⟩ := Nat.exists_eq_add_one_of_ne_zero (Nat.ne_zero_of_lt hfuel)
    refine ⟨p, ?_, (List.append_nil out).symm ▸ hp⟩
    rw [parseArgument, hp.terminator]
    rfl
  | separator rest =>
    obtain ⟨fuel, rfl⟩ := Nat.exists_eq_add_one_of_ne_zero (Nat.ne_zero_of_lt hfuel)
    refine ⟨p, ?_, (List.append_nil out).symm ▸ hp⟩
    rw [parseArgument_of_plain hp (by decide) fun h => absurd h (by decide)]
    rfl
  | @round quote quote' quote'' rest rest' rest'' out' bytes hround _ ih =>
    obtain ⟨fuel, rfl⟩ := Nat.exists_eq_add_one_of_ne_zero (Nat.ne_zero_of_lt hfuel)
    obtain ⟨q, hparse, hq⟩ := hround.parse hp hnul fuel
    obtain ⟨hsuffix, hlength⟩ := hround.isSuffix
    obtain ⟨q', hrest, hq'⟩ := ih hq (fun h => hnul (hsuffix.mem h)) (hlength.trans_le (Nat.le_of_lt_succ hfuel))
    exact ⟨q', hparse.trans hrest, List.append_assoc out out' bytes ▸ hq'⟩

theorem trimmed_of_space {byte : UInt8} (h : byte = space) (rest : List UInt8) : trimmed (byte :: rest) = trimmed rest :=
  @List.dropWhile_cons_of_pos UInt8 (fun byte => decide (byte = space)) byte rest (decide_eq_true h)

theorem trimmed_of_ne {byte : UInt8} (h : byte ≠ space) (rest : List UInt8) : trimmed (byte :: rest) = byte :: rest :=
  @List.dropWhile_cons_of_neg UInt8 (fun byte => decide (byte = space)) byte rest fun heq => h (of_decide_eq_true heq)

theorem trimmed_of_eq_nil {rest : List UInt8} (h : rest = []) : trimmed rest = [] := by
  rw [h]
  rfl

theorem trimmed_suffix (rest : List UInt8) : trimmed rest <:+ rest := List.dropWhile_suffix _

/-- The loops over the spaces. -/
theorem Reading.skipSpaces {p : Parsing} {out rest : List UInt8} (hp : Reading p out rest) (fuel : Nat) (hfuel : rest.length < fuel) :
    ∃ count, Shell.skipSpaces fuel p = some (p.skip count) ∧ Reading (p.skip count) out (trimmed rest) ∧
      (rest.head? = some space → 0 < count) := by
  induction rest generalizing p fuel with
  | nil =>
    obtain ⟨fuel, rfl⟩ := Nat.exists_eq_add_one_of_ne_zero (Nat.ne_zero_of_lt hfuel)
    refine ⟨0, ?_, hp, fun h => nomatch h⟩
    rw [Shell.skipSpaces, hp.terminator]
    rfl
  | cons byte rest ih =>
    obtain ⟨fuel, rfl⟩ := Nat.exists_eq_add_one_of_ne_zero (Nat.ne_zero_of_lt hfuel)
    rw [Shell.skipSpaces, hp.first]
    by_cases hspace : byte = space
    · obtain ⟨count, hskip, hcount, -⟩ := ih hp.skip fuel (Nat.lt_of_succ_lt_succ hfuel)
      have hadd : (p.skip 1).skip count = p.skip (count + 1) := by
        unfold Parsing.skip
        dsimp only
        rw [Nat.add_assoc, Nat.add_comm 1]
      rw [hadd] at hskip hcount
      refine ⟨count + 1, ?_, ?_, fun _ => Nat.succ_pos count⟩
      · rw [← hskip]
        exact if_pos hspace
      · rwa [trimmed_of_space hspace]
    · refine ⟨0, if_neg hspace, ?_, fun h => absurd (Option.some.inj h) hspace⟩
      rwa [trimmed_of_ne hspace]

/-! ## Every line is taken -/

theorem Takes.left {quote quote' : UInt8} {rest bytes left : List UInt8} (h : Takes quote rest bytes quote' left) :
    left = [] ∨ left.head? = some space := by
  induction h with
  | terminator => exact .inl rfl
  | separator => exact .inr rfl
  | round _ _ ih => exact ih

/-- At every byte but a space between arguments the loop makes a round. -/
theorem exists_consumes {quote byte : UInt8} {rest : List UInt8} (hquote : quote = 0 ∨ IsQuote quote) (hnul : 0 ∉ byte :: rest)
    (hspace : ¬(quote = 0 ∧ byte = space)) :
    ∃ out quote' left, Consumes quote (byte :: rest) out quote' left ∧ (quote' = 0 ∨ IsQuote quote') := by
  by_cases hescaped : byte = backslash ∧ rest ≠ []
  · obtain ⟨rfl, hrest⟩ := hescaped
    obtain ⟨next, rest, rfl⟩ := List.exists_cons_of_ne_nil hrest
    have hnext : next ≠ 0 := fun h => hnul (h ▸ List.mem_cons_of_mem _ List.mem_cons_self)
    exact ⟨_, _, _, .escaped quote hnext, hquote⟩
  have hbackslash (h : byte = backslash) : rest = [] := not_not.1 fun hrest => hescaped ⟨h, hrest⟩
  by_cases hopen : quote = 0
  · subst hopen
    by_cases hbyte : IsQuote byte
    · exact ⟨_, _, _, .opened hbyte, .inr hbyte⟩
    · exact ⟨_, _, _, .bare (fun h => hspace ⟨rfl, h⟩) hbyte hbackslash, hquote⟩
  · by_cases hbyte : byte = quote
    · subst hbyte
      have hne : byte ≠ backslash := by
        rintro rfl
        rcases hquote with h | h
        · exact hopen h
        · revert h
          decide
      exact ⟨_, _, _, .closed hopen hne, .inl rfl⟩
    · exact ⟨_, _, _, .inside hopen hbyte hbackslash, hquote⟩

theorem exists_takes {quote : UInt8} (hquote : quote = 0 ∨ IsQuote quote) (rest : List UInt8) (hnul : 0 ∉ rest) :
    ∃ bytes quote' left, Takes quote rest bytes quote' left := by
  induction hlength : rest.length using Nat.strong_induction_on generalizing quote rest with
  | _ length ih =>
    rcases rest with - | ⟨byte, rest⟩
    · exact ⟨_, _, _, .terminator quote⟩
    by_cases hspace : quote = 0 ∧ byte = space
    · obtain ⟨rfl, rfl⟩ := hspace
      exact ⟨_, _, _, .separator rest⟩
    · obtain ⟨out, quote', left, hround, hquote'⟩ := exists_consumes hquote hnul hspace
      obtain ⟨hsuffix, hlt⟩ := hround.isSuffix
      obtain ⟨bytes, quote'', left', htakes⟩ := ih _ (hlength ▸ hlt) hquote' left (fun h => hnul (hsuffix.mem h)) rfl
      exact ⟨_, _, _, .round hround htakes⟩

theorem trimmed_head {rest left : List UInt8} {byte : UInt8} (h : trimmed rest = byte :: left) : byte ≠ space := by
  induction rest with
  | nil => cases h
  | cons first rest ih =>
    by_cases hspace : first = space
    · rw [trimmed_of_space hspace] at h
      exact ih h
    · rw [trimmed_of_ne hspace] at h
      exact (List.cons.inj h).1 ▸ hspace

theorem trimmed_trimmed (rest : List UInt8) : trimmed (trimmed rest) = trimmed rest := by
  rcases h : trimmed rest with - | ⟨byte, left⟩
  · rfl
  · exact trimmed_of_ne (trimmed_head h) left

/-- An argument is made of one byte or more. -/
theorem Takes.length_lt {rest bytes left : List UInt8} {quote : UInt8} (hrest : trimmed rest ≠ [])
    (h : Takes 0 (trimmed rest) bytes quote left) : left.length < rest.length := by
  obtain ⟨byte, rest', heq⟩ := List.exists_cons_of_ne_nil hrest
  have hne := trimmed_head heq
  have hle := (trimmed_suffix rest).length_le
  rw [heq] at h hle
  cases h with
  | separator => exact absurd rfl hne
  | round hround htakes => exact (htakes.isSuffix.length_le.trans_lt hround.isSuffix.2).trans_le hle

theorem exists_parses (capacity count : Nat) (rest : List UInt8) (hnul : 0 ∉ rest) : ∃ outcome, Parses capacity count rest outcome := by
  induction hlength : rest.length using Nat.strong_induction_on generalizing count rest with
  | _ length ih =>
    by_cases hrest : trimmed rest = []
    · exact ⟨_, .ended hrest⟩
    by_cases hcount : capacity ≤ count
    · exact ⟨_, .full hrest hcount⟩
    have htrimmed : 0 ∉ trimmed rest := fun h => hnul ((trimmed_suffix rest).mem h)
    obtain ⟨bytes, quote, left, htakes⟩ := exists_takes (.inl rfl) (trimmed rest) htrimmed
    by_cases hquote : quote = 0
    · subst hquote
      have hlt : (trimmed left).length < rest.length := (trimmed_suffix left).length_le.trans_lt (htakes.length_lt hrest)
      have hleft : 0 ∉ trimmed left := fun h => htrimmed (htakes.isSuffix.mem ((trimmed_suffix left).mem h))
      obtain ⟨outcome, hparses⟩ := ih _ (hlength ▸ hlt) (count + 1) (trimmed left) hleft rfl
      exact ⟨_, .argument hrest (Nat.not_le.1 hcount) htakes hparses⟩
    · exact ⟨_, .unterminated hrest (Nat.not_le.1 hcount) htakes hquote⟩

/-! ## The loop over the arguments -/

/-- What the line holds of arguments that were put out. -/
def stored (arguments : List (List UInt8)) : List UInt8 := arguments.flatMap (· ++ [0])

/-- Where arguments begin that are put out from a place on. -/
def starts (place : Nat) : List (List UInt8) → List Nat
  | [] => []
  | argument :: arguments => place :: starts (place + argument.length + 1) arguments

theorem textAt_stored {out argument : List UInt8} {line : List UInt8} (hnul : 0 ∉ argument) (h : out ++ (argument ++ [0]) <+: line) :
    textAt line out.length = argument := by
  obtain ⟨rest, rfl⟩ := h
  have hne : ∀ byte ∈ argument, decide (byte ≠ 0) = true := fun byte hbyte => decide_eq_true fun h => hnul (h ▸ hbyte)
  rw [textAt, List.append_assoc, List.drop_left, List.append_assoc, List.takeWhile_append_of_pos hne]
  exact List.append_nil argument

theorem starts_strings {arguments : List (List UInt8)} (hnul : ∀ argument ∈ arguments, 0 ∉ argument) {out line : List UInt8}
    (h : out ++ stored arguments <+: line) : (starts out.length arguments).map (textAt line) = arguments := by
  induction arguments generalizing out with
  | nil => rfl
  | cons argument arguments ih =>
    have hassoc : out ++ stored (argument :: arguments) = out ++ (argument ++ [0]) ++ stored arguments := by
      rw [stored, List.flatMap_cons, ← List.append_assoc]
      rfl
    rw [hassoc] at h
    have hlength : (out ++ (argument ++ [0])).length = out.length + argument.length + 1 := by
      rw [List.length_append, List.length_append, List.length_singleton]
      omega
    have hrest := ih (fun other hother => hnul other (List.mem_cons_of_mem argument hother)) h
    rw [hlength] at hrest
    rw [starts, List.map_cons, hrest, textAt_stored (hnul argument List.mem_cons_self) ((List.prefix_append _ _).trans h)]

/-- An argument is closed. -/
theorem Reading.close {p : Parsing} {out rest : List UInt8} (h : Reading p out rest) (hbehind : rest ≠ [] → p.write < p.read) :
    ∃ q, p.store 0 = some q ∧ Between q (out ++ [0]) rest := by
  have hlength := h.line_length
  have hbefore := h.before
  have hwrite : p.write < p.line.length := by omega
  refine ⟨_, if_pos ⟨h.before, hwrite⟩, ?_, ?_, ?_, hbehind⟩
  · by_cases hlt : p.write < p.read
    · exact (List.drop_set_of_lt hlt).trans h.unread
    · have hrest : rest = [] := not_not.1 fun hne => hlt (hbehind hne)
      have hread : p.read = p.write := by omega
      subst hrest
      have hline := h.unread
      rw [hread] at hline
      have hset : (p.line.set p.write 0).drop p.write = [0] := by
        rw [List.drop_set, if_neg (lt_irrefl _), hline, Nat.sub_self]
        rfl
      exact hread ▸ hset
  · exact (take_set_succ p.line p.write 0 hwrite).trans (congrArg (· ++ [0]) h.written)
  · rw [List.length_append, h.length]
    rfl

/-- The round of the loop at an argument. -/
theorem parseArguments_of_trimmed {p : Parsing} {out rest : List UInt8} (hp : Between p out rest) (hnul : 0 ∉ rest)
    (hrest : trimmed rest ≠ []) (fuel capacity : Nat) (argv : List Nat) :
    ∃ q, Reading q out (trimmed rest) ∧ parseArguments (fuel + 1) capacity p argv =
      if argv.length ≥ capacity then some (.error .tooManyArguments, q.line)
      else (parseArgument q.line.length 0 q).bind fun r =>
        if r.1 ≠ 0 then some (.error .unterminatedQuote, r.2.line)
        else (skipSpaces r.2.line.length r.2).bind fun r => (r.store 0).bind fun r =>
          parseArguments fuel capacity r (argv ++ [q.write]) := by
  have hne : rest ≠ [] := fun h => hrest (trimmed_of_eq_nil h)
  obtain ⟨byte, left, heq⟩ := List.exists_cons_of_ne_nil hne
  obtain ⟨byte', left', heq'⟩ := List.exists_cons_of_ne_nil hrest
  have hlength := hp.line_length
  obtain ⟨count, hskip, hq, -⟩ := (hp.reading hne).skipSpaces p.line.length (by omega)
  refine ⟨p.skip count, hq, ?_⟩
  have hbyte : byte ≠ 0 := fun h => hnul (heq ▸ h ▸ List.mem_cons_self)
  have hbyte' : byte' ≠ 0 := fun h => hnul ((trimmed_suffix rest).mem (heq' ▸ h ▸ List.mem_cons_self))
  rw [heq] at hp
  rw [heq'] at hq
  rw [parseArguments, hp.first]
  simp [hbyte, hskip, hq.first, hbyte']
theorem parseArguments_of_empty {p : Parsing} {out rest : List UInt8} (hp : Between p out rest) (hnul : 0 ∉ rest)
    (hrest : trimmed rest = [])
    (fuel capacity : Nat) (argv : List Nat) : parseArguments (fuel + 1) capacity p argv = some (.ok argv, p.line) := by
  rcases rest with - | ⟨byte, left⟩
  · rw [parseArguments, hp.terminator]
    rfl
  · have hlength := hp.line_length
    obtain ⟨count, hskip, hq, -⟩ := (hp.reading (List.cons_ne_nil byte left)).skipSpaces p.line.length (by omega)
    have hbyte : byte ≠ 0 := fun h => hnul (h ▸ List.mem_cons_self)
    rw [hrest] at hq
    rw [parseArguments, hp.first]
    simp [hbyte, hskip, hq.terminator]
    rfl

/-- The loop over the arguments takes what it takes of the rest of the line. -/
theorem Parses.parse {capacity count : Nat} {rest : List UInt8} {outcome : Except ParseError (List (List UInt8))}
    (h : Parses capacity count rest outcome) {p : Parsing} {out : List UInt8} (hp : Between p out rest) (hnul : 0 ∉ rest)
    {argv : List Nat}
    (hargv : argv.length = count) {fuel : Nat} (hfuel : rest.length < fuel) :
    ∃ line, parseArguments fuel capacity p argv = some (outcome.map fun arguments => argv ++ starts out.length arguments, line) ∧
      ∀ arguments, outcome = .ok arguments → out ++ stored arguments <+: line := by
  obtain ⟨fuel, rfl⟩ := Nat.exists_eq_add_one_of_ne_zero (Nat.ne_zero_of_lt hfuel)
  induction h generalizing p out argv fuel with
  | ended hrest =>
    refine ⟨p.line, ?_, fun arguments heq => ?_⟩
    · rw [parseArguments_of_empty hp hnul hrest]
      exact congrArg (fun places => some (Except.ok places, p.line)) (List.append_nil argv).symm
    · obtain rfl := Except.ok.inj heq
      exact (List.append_nil out).symm ▸ hp.line_prefix
  | full hrest hcount =>
    obtain ⟨q, -, hparse⟩ := parseArguments_of_trimmed hp hnul hrest fuel capacity argv
    rw [hparse, if_pos (hargv ▸ hcount)]
    exact ⟨q.line, rfl, fun arguments heq => nomatch heq⟩
  | unterminated hrest hcount htakes hquote =>
    obtain ⟨q, hq, hparse⟩ := parseArguments_of_trimmed hp hnul hrest fuel capacity argv
    have htrimmed := fun h => hnul ((trimmed_suffix _).mem h)
    have hlength := hq.line_length
    obtain ⟨r, hr, -⟩ := @Takes.parse _ _ _ _ _ htakes _ _ hq htrimmed q.line.length (by omega)
    rw [hparse, if_neg (by omega), hr]
    exact ⟨r.line, if_pos hquote, fun arguments heq => nomatch heq⟩
  | @argument count rest bytes left outcome hrest hcount htakes _ ih =>
    obtain ⟨q, hq, hparse⟩ := parseArguments_of_trimmed hp hnul hrest fuel capacity argv
    have htrimmed : 0 ∉ trimmed rest := fun h => hnul ((trimmed_suffix rest).mem h)
    have hlength := hq.line_length
    obtain ⟨r, hr, hreading⟩ := @Takes.parse _ _ _ _ _ htakes _ _ hq htrimmed q.line.length (by omega)
    have hlength' := hreading.line_length
    obtain ⟨skipped, hskip, hskipped, hpositive⟩ := hreading.skipSpaces r.line.length (by omega)
    have hbehind : trimmed left ≠ [] → (r.skip skipped).write < (r.skip skipped).read := by
      intro hne
      have hspace : left.head? = some space := htakes.left.resolve_left fun h => hne (trimmed_of_eq_nil h)
      have hbefore := hreading.before
      have hskipped := hpositive hspace
      unfold Parsing.skip
      dsimp only
      omega
    obtain ⟨s, hstore, hs⟩ := hskipped.close hbehind
    have hlt := htakes.length_lt hrest
    have hle := (trimmed_suffix left).length_le
    obtain ⟨fuel, rfl⟩ := Nat.exists_eq_add_one_of_ne_zero (n := fuel) (by omega)
    have hleft : 0 ∉ trimmed left := fun h => htrimmed (htakes.isSuffix.mem ((trimmed_suffix left).mem h))
    have hargv' : (argv ++ [q.write]).length = count + 1 := by rw [List.length_append, hargv]; rfl
    obtain ⟨line, hloop, hline⟩ := ih hs hleft hargv' fuel (by omega)
    refine ⟨line, ?_, fun arguments heq => ?_⟩
    · rw [hparse, if_neg (by omega), hr, Option.bind_some]
      dsimp only
      rw [if_neg (not_not.2 rfl), hskip, Option.bind_some, hstore, Option.bind_some, hloop]
      refine congrArg (fun outcome => some (outcome, line)) ?_
      cases outcome with
      | error => rfl
      | ok arguments =>
        have hplace : (out ++ bytes ++ [0]).length = q.write + bytes.length + 1 := by
          rw [List.length_append, List.length_append, hq.length]
          rfl
        refine congrArg Except.ok ?_
        dsimp only
        rw [hplace, List.append_assoc, ← hq.length]
        rfl
    · cases outcome with
      | error => cases heq
      | ok rest' =>
        obtain rfl := Except.ok.inj heq
        have hstored : out ++ stored (bytes :: rest') = out ++ bytes ++ [0] ++ stored rest' := by
          rw [stored, List.flatMap_cons, ← List.append_assoc, ← List.append_assoc]
          rfl
        exact hstored ▸ hline rest' rfl

/-! ## What is written is parsed -/

theorem Quoted.noNul {quote : UInt8} {inner body : List UInt8} (h : Quoted Inside quote inner body) (hnul : 0 ∉ inner) :
    0 ∉ body := by
  induction h with
  | nil => exact hnul
  | plain _ _ ih =>
    obtain ⟨hbyte, hrest⟩ := List.ne_and_not_mem_of_not_mem_cons hnul
    exact List.not_mem_cons_of_ne_of_not_mem hbyte (ih hrest)
  | escaped _ ih =>
    obtain ⟨hbyte, hrest⟩ := List.ne_and_not_mem_of_not_mem_cons hnul
    exact List.not_mem_cons_of_ne_of_not_mem (by decide) (List.not_mem_cons_of_ne_of_not_mem hbyte (ih hrest))

theorem zero_ne_quote {quote : UInt8} (hquote : IsQuote quote) : 0 ≠ quote := by
  rintro rfl
  revert hquote
  decide

theorem Written.noNul {argument text : List UInt8} (h : Written Inside argument text) (hnul : 0 ∉ argument) : 0 ∉ text := by
  induction h with
  | nil => exact hnul
  | bare _ _ _ _ ih =>
    obtain ⟨hbyte, hrest⟩ := List.ne_and_not_mem_of_not_mem_cons hnul
    exact List.not_mem_cons_of_ne_of_not_mem hbyte (ih hrest)
  | escaped _ ih =>
    obtain ⟨hbyte, hrest⟩ := List.ne_and_not_mem_of_not_mem_cons hnul
    exact List.not_mem_cons_of_ne_of_not_mem (by decide) (List.not_mem_cons_of_ne_of_not_mem hbyte (ih hrest))
  | quoted hquote hinner _ ih =>
    obtain ⟨hinside, hrest⟩ := not_or.1 (List.mem_append.not.1 hnul)
    have hne := zero_ne_quote hquote
    exact List.not_mem_cons_of_ne_of_not_mem hne
      (List.not_mem_append (hinner.noNul hinside) (List.not_mem_cons_of_ne_of_not_mem hne (ih hrest)))

theorem Rendering.noNul {arguments : List (List UInt8)} {text : List UInt8} (h : Rendering Inside arguments text)
    (hnul : ∀ argument ∈ arguments, 0 ∉ argument) : 0 ∉ text := by
  have hspaces (spaces : Nat) : (0 : UInt8) ∉ List.replicate spaces space := fun h => absurd (List.eq_of_mem_replicate h) (by decide)
  induction h with
  | nil spaces => exact hspaces spaces
  | cons spaces hargument _ _ _ ih =>
    have hrest := ih fun other hother => hnul other (List.mem_cons_of_mem _ hother)
    exact List.not_mem_append (hspaces spaces) (List.not_mem_append (hargument.noNul (hnul _ List.mem_cons_self)) hrest)

theorem Takes.put {quote quote' quote'' byte : UInt8} {rest rest' left bytes : List UInt8} (h : Consumes quote rest [byte] quote' rest')
    (hrest : Takes quote' rest' bytes quote'' left) : Takes quote rest (byte :: bytes) quote'' left := .round h hrest

theorem Takes.silent {quote quote' quote'' : UInt8} {rest rest' left bytes : List UInt8} (h : Consumes quote rest [] quote' rest')
    (hrest : Takes quote' rest' bytes quote'' left) : Takes quote rest bytes quote'' left := .round h hrest

theorem Quoted.takes {quote : UInt8} (hquote : IsQuote quote) {inner body : List UInt8} (h : Quoted Inside quote inner body)
    (hnul : 0 ∉ inner)
    {rest bytes left : List UInt8} (hrest : Takes 0 rest bytes 0 left) : Takes quote (body ++ quote :: rest) (inner ++ bytes) 0 left := by
  have hopen : quote ≠ 0 := (zero_ne_quote hquote).symm
  induction h with
  | nil =>
    have hbackslash : quote ≠ backslash := by
      rintro rfl
      revert hquote
      decide
    exact .silent (.closed hopen hbackslash) hrest
  | plain hplain _ ih =>
    obtain ⟨-, hinner⟩ := List.ne_and_not_mem_of_not_mem_cons hnul
    exact .put (.inside hopen hplain.1 fun h => absurd h hplain.2) (ih hinner)
  | escaped _ ih =>
    obtain ⟨hbyte, hinner⟩ := List.ne_and_not_mem_of_not_mem_cons hnul
    exact .put (.escaped quote (Ne.symm hbyte)) (ih hinner)

theorem Written.takes {argument text : List UInt8} (h : Written Inside argument text) (hnul : 0 ∉ argument) {rest : List UInt8}
    (hrest : rest = [] ∨ rest.head? = some space) : Takes 0 (text ++ rest) argument 0 rest := by
  induction h with
  | nil =>
    rcases rest with - | ⟨byte, rest⟩
    · exact .terminator 0
    · obtain rfl := Option.some.inj (hrest.resolve_left (List.cons_ne_nil byte rest))
      exact .separator rest
  | bare hspace hquote hbackslash _ ih =>
    obtain ⟨-, hnul⟩ := List.ne_and_not_mem_of_not_mem_cons hnul
    exact .put (.bare hspace hquote fun h => absurd h hbackslash) (ih hnul)
  | escaped _ ih =>
    obtain ⟨hbyte, hnul⟩ := List.ne_and_not_mem_of_not_mem_cons hnul
    exact .put (.escaped 0 (Ne.symm hbyte)) (ih hnul)
  | @quoted quote inner body bytes text hquote hinner _ ih =>
    obtain ⟨hinside, hnul⟩ := not_or.1 (List.mem_append.not.1 hnul)
    rw [List.cons_append, List.append_assoc]
    exact .silent (.opened hquote) (hinner.takes hquote hinside (ih hnul))

theorem trimmed_replicate (spaces : Nat) (rest : List UInt8) : trimmed (List.replicate spaces space ++ rest) = trimmed rest := by
  induction spaces with
  | zero => rfl
  | succ spaces ih => exact (trimmed_of_space rfl _).trans ih

/-- What is written of an argument does not begin with a space. -/
theorem Written.trimmed {argument text : List UInt8} (h : Written Inside argument text) (htext : text ≠ []) (rest : List UInt8) :
    Shell.trimmed (text ++ rest) = text ++ rest := by
  cases h with
  | nil => exact absurd rfl htext
  | bare hspace => exact trimmed_of_ne hspace _
  | escaped => exact trimmed_of_ne (by decide) _
  | quoted hquote =>
    refine trimmed_of_ne ?_ _
    rintro rfl
    revert hquote
    decide

theorem Parses.trimmed {capacity count : Nat} {rest : List UInt8} {outcome : Except ParseError (List (List UInt8))}
    (h : Parses capacity count rest outcome) : Parses capacity count (Shell.trimmed rest) outcome := by
  have heq := trimmed_trimmed rest
  cases h with
  | ended h => exact .ended (heq.trans h)
  | full h hcount =>
    refine .full ?_ hcount
    rwa [heq]
  | unterminated h hcount htakes hquote =>
    rw [← heq] at h htakes
    exact .unterminated h hcount htakes hquote
  | argument h hcount htakes hrest =>
    rw [← heq] at h htakes
    exact .argument h hcount htakes hrest

theorem Rendering.parses {arguments : List (List UInt8)} {text : List UInt8} (h : Rendering Inside arguments text)
    (hnul : ∀ argument ∈ arguments, 0 ∉ argument) {capacity count : Nat} (hcount : count + arguments.length ≤ capacity) :
    Parses capacity count text (.ok arguments) := by
  induction h generalizing count with
  | nil spaces =>
    have hempty : Shell.trimmed (List.replicate spaces space ++ []) = [] := trimmed_replicate spaces []
    rw [List.append_nil] at hempty
    exact .ended hempty
  | @cons spaces argument text rest arguments hargument htext _ hbetween ih =>
    rw [List.length_cons] at hcount
    have htrimmed := (trimmed_replicate spaces (text ++ rest)).trans (hargument.trimmed htext rest)
    have hne : text ++ rest ≠ [] := fun h => htext (List.append_eq_nil_iff.1 h).1
    have htakes := hargument.takes (hnul argument List.mem_cons_self) hbetween
    rw [← htrimmed] at hne htakes
    have hargs (other : List UInt8) (hother : other ∈ arguments) := hnul other (List.mem_cons_of_mem argument hother)
    have hrest : Parses capacity (count + 1) rest (.ok arguments) := ih hargs (by omega)
    exact .argument hne (by omega) htakes hrest.trimmed

/-- The parser takes what it takes of the line. -/
theorem Parses.shellParseArguments {capacity : Nat} {text : List UInt8} {outcome : Except ParseError (List (List UInt8))}
    (h : Parses capacity 0 text outcome) (hnul : 0 ∉ text) :
    ∃ line, Shell.shellParseArguments (text ++ [0]) capacity = some (outcome.map (starts 0), line) ∧
      ∀ arguments, outcome = .ok arguments → stored arguments <+: line := by
  have hstart : Between ⟨text ++ [0], 0, 0⟩ [] text := ⟨rfl, rfl, rfl, fun _ => Nat.le_refl 0⟩
  have hfuel : text.length < (text ++ [0]).length := by
    rw [List.length_append]
    exact Nat.lt_succ_self text.length
  exact h.parse hstart hnul rfl hfuel

end Shell
end TabOS
