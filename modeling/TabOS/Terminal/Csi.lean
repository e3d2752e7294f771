import TabOS.Terminal.Chunking
import Mathlib.Data.List.GetD
import Mathlib.Data.List.Induction

/-!
# CSI sequences

What follows `ESC [` up to the final byte: an optional `?` and at most eight decimal parameters between semicolons. The state machine of
`terminal_write_bytes` takes a sequence byte by byte. It takes the `?` as long as the parameters read so far are one that is 0, so after
some zeros too, and there only does it differ.
-/

namespace TabOS
namespace Terminal

open Library

/-! ## The sequence as a text -/

/-- A decimal digit. -/
def isDigit (text : UInt8) : Bool := decide (48 ≤ text) && decide (text ≤ 57)

/-- The value of a digit. -/
def digitValue (digit : UInt8) : Nat := digit.toNat - 48

/-- A value followed by a digit. -/
def pushDigit (value : Nat) (digit : UInt8) : Nat := value * 10 + digitValue digit

/-- The number that some digits write; that of no digits is 0. -/
def decimal (digits : List UInt8) : Nat := digits.foldl pushDigit 0

/-- The sequence begins with `?`. -/
def csiMarked (text : List UInt8) : Bool := decide (text.head? = some 63)

/-- The parameters of a sequence, as text. -/
def csiFields (text : List UInt8) : List (List UInt8) := (if csiMarked text then text.tail else text).splitOn 59

/-- The parameters are at most eight, and each is a decimal number of at most 65535 or empty. -/
def CsiWellFormed (text : List UInt8) : Prop :=
  (csiFields text).length ≤ 8 ∧ ∀ field ∈ csiFields text, field.all isDigit = true ∧ decimal field ≤ 65535

instance (text : List UInt8) : Decidable (CsiWellFormed text) := by
  unfold CsiWellFormed
  infer_instance

/-- What the parser of a sequence holds: the parameters so far, whether `?` came, and whether the sequence is given up. -/
structure CsiParser where
  values : List Nat
  marked : Bool
  invalid : Bool
  deriving DecidableEq, Repr

/-- The terminal with a sequence read so far. -/
def withCsi (t : Terminal) (p : CsiParser) : Terminal :=
  { t with
    ansiState := .csi
    ansiValues := fun index => p.values.getD index 0
    ansiCount := p.values.length
    ansiPrivate := p.marked
    ansiInvalid := p.invalid }

/-- The terminal after the command of a final byte with the parameters of a text. -/
def executeCsi (t : Terminal) (text : List UInt8) (final : UInt8) : Terminal :=
  { (t.withCsi ⟨(csiFields text).map decimal, csiMarked text, false⟩).ansiCommand final with ansiState := .ground }

/-- The logical state without the parser's: cells, lines, cursor, colours and cursor visibility. -/
def onScreen (t : Terminal) : Logical :=
  { t.logical with
    ansiState := .ground
    ansiValues := fun _ => 0
    ansiCount := 0
    ansiPrivate := false
    ansiInvalid := false }

/-- A sequence of a text and a final byte has led from one terminal to another as it should: a well-formed one to the state after its
command, any other one to the same screen, and both out of the sequence. -/
def CsiObeyed (t u : Terminal) (text : List UInt8) (final : UInt8) : Prop :=
  u.ansiState = .ground ∧
    if CsiWellFormed text then u.logical = (t.executeCsi text final).logical else u.onScreen = t.onScreen

/-- A sequence that shows or hides the cursor with a `?` after zeros. -/
def LateMarker (t : Terminal) (text : List UInt8) (final : UInt8) : Prop :=
  ∃ zeros digits, text = List.replicate (zeros + 1) 48 ++ 63 :: digits ∧ digits.all isDigit = true ∧ decimal digits = 25 ∧
    (final = 104 ∨ final = 108) ∧ t.cursorVisible ≠ decide (final = 104)

/-! ## The parser -/

namespace CsiParser

/-- The parser after `ESC [`. -/
def start : CsiParser := ⟨[0], false, false⟩

/-- The parser after another byte that does not end the sequence. -/
def step (p : CsiParser) (text : UInt8) : CsiParser :=
  if isDigit text then
    if (65535 - digitValue text) / 10 < p.values.getLastD 0 then { p with invalid := true }
    else { p with values := p.values.dropLast ++ [pushDigit (p.values.getLastD 0) text] }
  else if text = 59 then
    if p.values.length = 8 then { p with invalid := true } else { p with values := p.values ++ [0] }
  else if text = 63 ∧ p.values = [0] ∧ p.marked = false then { p with marked := true }
  else { p with invalid := true }

/-- The parser after some bytes. -/
def run (p : CsiParser) (text : List UInt8) : CsiParser := text.foldl step p

theorem run_append (p : CsiParser) (xs ys : List UInt8) : p.run (xs ++ ys) = (p.run xs).run ys := List.foldl_append

theorem run_cons (p : CsiParser) (x : UInt8) (xs : List UInt8) : p.run (x :: xs) = (p.step x).run xs := rfl

theorem run_snoc (p : CsiParser) (xs : List UInt8) (x : UInt8) : p.run (xs ++ [x]) = (p.run xs).step x := run_append p xs [x]

/-- A sequence that is given up stays so. -/
theorem step_invalid {p : CsiParser} (h : p.invalid = true) (text : UInt8) : (p.step text).invalid = true := by
  unfold step
  split_ifs <;> first | rfl | exact h

/-- There are one to eight parameters. -/
theorem step_length {p : CsiParser} (h : 1 ≤ p.values.length ∧ p.values.length ≤ 8) (text : UInt8) :
    1 ≤ (p.step text).values.length ∧ (p.step text).values.length ≤ 8 := by
  unfold step
  split_ifs <;> simp only [List.length_append, List.length_dropLast, List.length_singleton] <;> omega

theorem step_digit {values : List Nat} {value : Nat} {marked : Bool} {digit : UInt8} (hdigit : isDigit digit = true)
    (hle : pushDigit value digit ≤ 65535) :
    step ⟨values ++ [value], marked, false⟩ digit = ⟨values ++ [pushDigit value digit], marked, false⟩ := by
  unfold pushDigit at hle
  have hroom : ¬(65535 - digitValue digit) / 10 < value := by omega
  unfold step
  rw [if_pos hdigit]
  simp only [List.getLastD_concat, List.dropLast_concat]
  rw [if_neg hroom]

/-- Digits are read into the last parameter. -/
theorem run_digits {values : List Nat} {marked : Bool} {digits : List UInt8} (hdigits : digits.all isDigit = true) {value : Nat}
    (hle : digits.foldl pushDigit value ≤ 65535) :
    run ⟨values ++ [value], marked, false⟩ digits = ⟨values ++ [digits.foldl pushDigit value], marked, false⟩ := by
  induction digits generalizing value with
  | nil => rfl
  | cons digit digits ih =>
    obtain ⟨hdigit, hrest⟩ := Bool.and_eq_true_iff.1 hdigits
    have hgrow : ∀ (ds : List UInt8) (v : Nat), v ≤ ds.foldl pushDigit v := by
      intro ds
      induction ds with
      | nil => exact fun v => Nat.le_refl v
      | cons d ds ih =>
        intro v
        have hv : v ≤ pushDigit v d := by
          unfold pushDigit
          omega
        exact hv.trans (ih _)
    rw [run_cons, step_digit hdigit ((hgrow digits _).trans hle), ih hrest hle, List.foldl_cons]

theorem step_separator {values : List Nat} {marked : Bool} (h : values.length < 8) :
    step ⟨values, marked, false⟩ 59 = ⟨values ++ [0], marked, false⟩ := by
  have hne : ¬values.length = 8 := by omega
  unfold step
  rw [if_neg (by decide), if_pos rfl, if_neg hne]

/-- Parameters between semicolons are read into a value each. -/
theorem run_fields {marked : Bool} (fields : List (List UInt8)) (hne : fields ≠ [])
    (hfields : ∀ field ∈ fields, field.all isDigit = true ∧ decimal field ≤ 65535) {values : List Nat}
    (hlength : values.length + fields.length ≤ 8) :
    run ⟨values ++ [0], marked, false⟩ ([59].intercalate fields) = ⟨values ++ fields.map decimal, marked, false⟩ := by
  induction fields generalizing values with
  | nil => exact absurd rfl hne
  | cons field fields ih =>
    obtain ⟨hfield, hrest⟩ := List.forall_mem_cons.1 hfields
    cases fields with
    | nil =>
      rw [List.intercalate_singleton, run_digits hfield.1 hfield.2]
      rfl
    | cons next rest =>
      rw [List.length_cons] at hlength
      have hroom : (values ++ [decimal field]).length < 8 := by
        simp only [List.length_append, List.length_cons, List.length_nil] at hlength ⊢
        omega
      have hlast : (values ++ [decimal field]).length + (next :: rest).length ≤ 8 := by
        simp only [List.length_append, List.length_cons, List.length_nil] at hlength ⊢
        omega
      rw [List.intercalate_cons_cons, run_append, run_append, run_digits hfield.1 hfield.2]
      show run (step ⟨values ++ [decimal field], marked, false⟩ 59) _ = _
      rw [step_separator hroom, ih (List.cons_ne_nil _ _) hrest hlast, List.map_cons, List.append_assoc]
      rfl

/-- A well-formed sequence is read into its parameters. -/
theorem run_wellFormed {text : List UInt8} (h : CsiWellFormed text) :
    start.run text = ⟨(csiFields text).map decimal, csiMarked text, false⟩ := by
  have hfields : ∀ (marked : Bool) (rest : List UInt8), (rest.splitOn 59).length ≤ 8 →
      (∀ field ∈ rest.splitOn 59, field.all isDigit = true ∧ decimal field ≤ 65535) →
      run ⟨[0], marked, false⟩ rest = ⟨(rest.splitOn 59).map decimal, marked, false⟩ := by
    intro marked rest hlength hall
    have hrun : run ⟨[] ++ [0], marked, false⟩ ([59].intercalate (rest.splitOn 59)) =
        ⟨[] ++ (rest.splitOn 59).map decimal, marked, false⟩ :=
      run_fields _ (List.splitOn_ne_nil _ _) hall ((Nat.zero_add _).le.trans hlength)
    rw [List.intercalate_splitOn] at hrun
    exact hrun
  obtain ⟨hlength, hall⟩ := h
  unfold csiFields at hlength hall ⊢
  by_cases hmark : csiMarked text = true
  · rw [if_pos hmark] at hlength hall ⊢
    cases text with
    | nil => exact absurd hmark (by decide)
    | cons mark rest =>
      obtain rfl : mark = 63 := Option.some.inj (of_decide_eq_true hmark)
      rw [hmark]
      exact hfields true rest hlength hall
  · rw [if_neg hmark] at hlength hall ⊢
    rw [Bool.eq_false_iff.2 hmark]
    exact hfields false text hlength hall

/-! ## What is accepted -/

theorem intercalate_extend (xs : List (List UInt8)) (y z : List UInt8) :
    [59].intercalate (xs ++ [y ++ z]) = [59].intercalate (xs ++ [y]) ++ z := by
  induction xs with
  | nil => rw [List.nil_append, List.nil_append, List.intercalate_singleton, List.intercalate_singleton]
  | cons x xs ih =>
    have hne : ∀ w : List UInt8, xs ++ [w] ≠ [] := fun w => List.append_ne_nil_of_right_ne_nil _ (List.cons_ne_nil _ _)
    rw [List.cons_append, List.cons_append, List.intercalate_cons_of_ne_nil (hne _), List.intercalate_cons_of_ne_nil (hne _), ih]
    simp only [List.append_assoc]

theorem intercalate_open (xs : List (List UInt8)) (h : xs ≠ []) : [59].intercalate (xs ++ [[]]) = [59].intercalate xs ++ [59] := by
  induction xs with
  | nil => exact absurd rfl h
  | cons x xs ih =>
    cases xs with
    | nil =>
      rw [List.singleton_append, List.intercalate_cons_cons, List.intercalate_singleton, List.intercalate_singleton,
        List.append_nil]
    | cons y ys =>
      have hys := ih (List.cons_ne_nil _ _)
      rw [List.cons_append] at hys
      rw [List.cons_append, List.cons_append, List.intercalate_cons_cons, List.intercalate_cons_cons, hys]
      simp only [List.append_assoc]

theorem mem_intercalate {fields : List (List UInt8)} {byte : UInt8} (h : byte ∈ [59].intercalate fields) :
    byte = 59 ∨ ∃ field ∈ fields, byte ∈ field := by
  induction fields with
  | nil => exact absurd h List.not_mem_nil
  | cons field fields ih =>
    cases fields with
    | nil => exact Or.inr ⟨field, List.mem_singleton_self _, by rwa [List.intercalate_singleton] at h⟩
    | cons next rest =>
      rw [List.intercalate_cons_cons, List.mem_append, List.mem_append, List.mem_singleton] at h
      rcases h with (hfield | hsemicolon) | hrest
      · exact Or.inr ⟨field, List.mem_cons_self, hfield⟩
      · exact Or.inl hsemicolon
      · rcases ih hrest with hsemicolon | ⟨other, hother, hmem⟩
        · exact Or.inl hsemicolon
        · exact Or.inr ⟨other, List.mem_cons_of_mem _ hother, hmem⟩

theorem digitValue_le {digit : UInt8} (h : isDigit digit = true) : 48 ≤ digit.toNat ∧ digitValue digit ≤ 9 := by
  have hlow : (48 : UInt8).toNat = 48 := rfl
  have hhigh : (57 : UInt8).toNat = 57 := rfl
  unfold isDigit at h
  unfold digitValue
  simp only [Bool.and_eq_true, decide_eq_true_eq, UInt8.le_iff_toNat_le] at h
  omega

theorem decimal_snoc (digits : List UInt8) (digit : UInt8) : decimal (digits ++ [digit]) = decimal digits * 10 + digitValue digit := by
  rw [decimal, List.foldl_append]
  rfl

/-- Digits that write 0 are zeros. -/
theorem eq_zeros_of_decimal {digits : List UInt8} (hdigits : digits.all isDigit = true) (h : decimal digits = 0) :
    digits = List.replicate digits.length 48 := by
  induction digits using List.reverseRecOn with
  | nil => rfl
  | append_singleton digits digit ih =>
    rw [List.all_append, Bool.and_eq_true] at hdigits
    rw [decimal_snoc] at h
    have hdigit : isDigit digit = true := by simpa using hdigits.2
    have hlow := (digitValue_le hdigit).1
    have hzero : digit = 48 := by
      unfold digitValue at h
      exact UInt8.toNat_inj.1 (show digit.toNat = 48 by omega)
    rw [List.length_append, List.length_singleton, List.replicate_succ', ← ih hdigits.1 (by omega), hzero]

/-- What has been read of a sequence that is not given up: parameters between semicolons, after an optional `?`, which may stand after
zeros. -/
structure Accepts (text : List UInt8) (p : CsiParser) (zeros : Nat) (fields : List (List UInt8)) : Prop where
  ne_nil : fields ≠ []
  length_le : fields.length ≤ 8
  number : ∀ field ∈ fields, field.all isDigit = true ∧ decimal field ≤ 65535
  values : p.values = fields.map decimal
  text_eq : text = (if p.marked then List.replicate zeros 48 ++ [63] else []) ++ [59].intercalate fields

theorem accepts_start : Accepts [] start 0 [[]] :=
  ⟨List.cons_ne_nil _ _, by decide, by decide, rfl, rfl⟩

/-- A byte that does not give a sequence up is a digit of the last parameter, a semicolon, or a `?` after zeros. -/
theorem Accepts.step {text : List UInt8} {p : CsiParser} {zeros : Nat} {fields : List (List UInt8)} (h : Accepts text p zeros fields)
    (byte : UInt8) (hvalid : (p.step byte).invalid = false) :
    ∃ zeros' fields', Accepts (text ++ [byte]) (p.step byte) zeros' fields' := by
  have hvalues := h.values
  have htext := h.text_eq
  unfold CsiParser.step at hvalid ⊢
  split_ifs at hvalid with hdigit hlarge hseparator hmany hmark
  · rw [if_pos hdigit, if_neg hlarge]
    obtain ⟨before, last, rfl⟩ := (List.eq_nil_or_concat' fields).resolve_left h.ne_nil
    rw [List.map_append, List.map_singleton] at hvalues
    simp only [hvalues, List.getLastD_concat, List.dropLast_concat] at hlarge ⊢
    obtain ⟨hbefore, hlast⟩ := List.forall_mem_append.1 h.number
    have hfield := hlast last (List.mem_singleton_self _)
    refine ⟨zeros, before ++ [last ++ [byte]], List.append_ne_nil_of_right_ne_nil _ (List.cons_ne_nil _ _), ?_, ?_, ?_, ?_⟩
    · simpa using h.length_le
    · have hvalue := digitValue_le hdigit
      refine List.forall_mem_append.2 ⟨hbefore, List.forall_mem_singleton.2 ⟨?_, ?_⟩⟩
      · rw [List.all_append, hfield.1]
        simpa using hdigit
      · rw [decimal_snoc]
        omega
    · rw [List.map_append, List.map_singleton, decimal_snoc]
      rfl
    · rw [intercalate_extend, ← List.append_assoc, ← htext]
  · rw [if_neg hdigit, if_pos hseparator, if_neg hmany]
    rw [hvalues, List.length_map] at hmany
    have hle := h.length_le
    refine ⟨zeros, fields ++ [[]], List.append_ne_nil_of_right_ne_nil _ (List.cons_ne_nil _ _), ?_, ?_, ?_, ?_⟩
    · rw [List.length_append, List.length_singleton]
      omega
    · exact List.forall_mem_append.2 ⟨h.number, List.forall_mem_singleton.2 ⟨rfl, by decide⟩⟩
    · rw [List.map_append, ← hvalues]
      rfl
    · rw [intercalate_open _ h.ne_nil, ← List.append_assoc, ← htext, hseparator]
  · rw [if_neg hdigit, if_neg hseparator, if_pos hmark]
    obtain ⟨rfl, hzero, hunmarked⟩ := hmark
    obtain ⟨field, rfl, hfield⟩ := List.map_eq_singleton_iff.1 (hvalues.symm.trans hzero)
    have hzeros := eq_zeros_of_decimal (h.number field (List.mem_singleton_self _)).1 hfield
    rw [hunmarked, List.intercalate_singleton] at htext
    refine ⟨field.length, [[]], List.cons_ne_nil _ _, by decide, by decide, hzero, ?_⟩
    rw [if_neg Bool.false_ne_true, List.nil_append] at htext
    rw [htext, ← hzeros, List.intercalate_singleton, List.append_nil]
    rfl

/-- What has been read of a sequence that is not given up is accepted. -/
theorem accepts_run {text : List UInt8} (hvalid : (start.run text).invalid = false) :
    ∃ zeros fields, Accepts text (start.run text) zeros fields := by
  induction text using List.reverseRecOn with
  | nil => exact ⟨0, [[]], accepts_start⟩
  | append_singleton text byte ih =>
    rw [run_snoc] at hvalid ⊢
    have hbefore : (start.run text).invalid = false :=
      Bool.eq_false_iff.2 fun h => Bool.eq_false_iff.1 hvalid (step_invalid h byte)
    obtain ⟨zeros, fields, h⟩ := ih hbefore
    exact h.step byte hvalid

/-- What is accepted without zeros before the `?` is well formed. -/
theorem Accepts.wellFormed {text : List UInt8} {p : CsiParser} {zeros : Nat} {fields : List (List UInt8)}
    (h : Accepts text p zeros fields) (hfirst : p.marked = true → zeros = 0) : CsiWellFormed text := by
  have hdigit : ∀ field ∈ fields, ∀ byte ∈ field, isDigit byte = true := fun field hmem =>
    List.all_eq_true.1 (h.number field hmem).1
  have hsplit : ([59].intercalate fields).splitOn 59 = fields :=
    List.splitOn_intercalate 59 (fun field hmem hsemicolon => absurd (hdigit field hmem 59 hsemicolon) (by decide)) h.ne_nil
  have hfields : csiFields text = fields := by
    have htext := h.text_eq
    unfold csiFields
    by_cases hmarked : p.marked = true
    · rw [hfirst hmarked, hmarked] at htext
      rw [htext]
      exact hsplit
    · rw [if_neg hmarked, List.nil_append] at htext
      have hmark : csiMarked text = false := by
        unfold csiMarked
        rw [decide_eq_false_iff_not, htext]
        intro hhead
        rcases mem_intercalate (List.mem_of_mem_head? hhead) with hsemicolon | ⟨field, hmem, hbyte⟩
        · exact absurd hsemicolon (by decide)
        · exact absurd (hdigit field hmem 63 hbyte) (by decide)
      rw [hmark, htext]
      exact hsplit
  rw [CsiWellFormed, hfields]
  exact ⟨h.length_le, h.number⟩

/-- A `?` after zeros is taken, and the digits after it are the parameter. -/
theorem run_late (zeros : Nat) {digits : List UInt8} (hdigits : digits.all isDigit = true) (hle : decimal digits ≤ 65535) :
    start.run (List.replicate (zeros + 1) 48 ++ 63 :: digits) = ⟨[decimal digits], true, false⟩ := by
  have hzeros : ∀ n, (List.replicate n (48 : UInt8)).all isDigit = true ∧ decimal (List.replicate n 48) = 0 := by
    intro n
    induction n with
    | zero => exact ⟨rfl, rfl⟩
    | succ n ih => exact ⟨ih.1, ih.2⟩
  obtain ⟨hall, hvalue⟩ := hzeros (zeros + 1)
  have hrun : start.run (List.replicate (zeros + 1) 48) = ⟨[] ++ [decimal (List.replicate (zeros + 1) 48)], false, false⟩ :=
    @run_digits [] false _ hall 0 (hvalue.le.trans (Nat.zero_le _))
  rw [run_append, hrun, hvalue, run_cons]
  exact @run_digits [] true _ hdigits 0 hle

/-- A sequence with a `?` after zeros is not well formed. -/
theorem not_wellFormed_late (zeros : Nat) {digits : List UInt8} (hdigits : digits.all isDigit = true) :
    ¬CsiWellFormed (List.replicate (zeros + 1) 48 ++ 63 :: digits) := by
  rintro ⟨-, hfields⟩
  have hnone : (59 : UInt8) ∉ List.replicate (zeros + 1) 48 ++ 63 :: digits := by
    rw [List.mem_append, List.mem_cons]
    rintro (hmem | hmark | hmem)
    · exact absurd (List.eq_of_mem_replicate hmem) (by decide)
    · exact absurd hmark (by decide)
    · exact absurd (List.all_eq_true.1 hdigits 59 hmem) (by decide)
  have hunmarked : csiMarked (List.replicate (zeros + 1) 48 ++ 63 :: digits) = false := rfl
  rw [csiFields, hunmarked, if_neg Bool.false_ne_true, List.splitOn_eq_singleton hnone] at hfields
  have hall := List.all_eq_true.1 (hfields _ (List.mem_singleton_self _)).1 63
    (List.mem_append_right _ List.mem_cons_self)
  exact absurd hall (by decide)

end CsiParser

/-! ## The terminal's parser -/

open CsiParser

variable {t : Terminal} {p : CsiParser} {text : List UInt8} {final : UInt8}

theorem writeEscape_csi (t : Terminal) : t.writeEscape 91 = t.withCsi start := by
  have hvalues : (fun _ => 0 : Nat → Nat) = fun index => start.values.getD index 0 := by
    funext index
    cases index <;> rfl
  unfold writeEscape
  rw [if_pos rfl, hvalues]
  rfl

/-- Storing the last parameter. -/
theorem update_last (before : List Nat) (last value : Nat) :
    Function.update (fun index => (before ++ [last]).getD index 0) before.length value =
      fun index => (before ++ [value]).getD index 0 := by
  funext index
  rcases Nat.lt_trichotomy index before.length with hlt | heq | hgt
  · rw [Function.update_of_ne (Nat.ne_of_lt hlt), List.getD_append _ _ _ _ hlt, List.getD_append _ _ _ _ hlt]
  · rw [heq, Function.update_self, List.getD_append_right _ _ _ _ (Nat.le_refl _), Nat.sub_self]
    rfl
  · have hpast : ∀ number, (before ++ [number]).length ≤ index := by
      intro number
      rwa [List.length_append, List.length_singleton]
    rw [Function.update_of_ne (Nat.ne_of_gt hgt), List.getD_eq_default _ _ (hpast _), List.getD_eq_default _ _ (hpast _)]

/-- Opening a parameter. -/
theorem getD_open (values : List Nat) :
    (fun index => values.getD index 0) = fun index => (values ++ [0]).getD index 0 := by
  funext index
  rcases Nat.lt_or_ge index values.length with hlt | hge
  · rw [List.getD_append _ _ _ _ hlt]
  · rw [List.getD_eq_default _ _ hge, List.getD_append_right _ _ _ _ hge]
    cases index - values.length <;> rfl

theorem writeDigit_step (t : Terminal) (before : List Nat) (last : Nat) (marked invalid : Bool) (digit : UInt8) :
    (t.withCsi ⟨before ++ [last], marked, invalid⟩).writeDigit (digitValue digit) =
      t.withCsi (if (65535 - digitValue digit) / 10 < last then ⟨before ++ [last], marked, true⟩
        else ⟨before ++ [pushDigit last digit], marked, invalid⟩) := by
  have hindex : (before ++ [last]).length - 1 = before.length := by simp
  have hlast : (before ++ [last]).getD ((before ++ [last]).length - 1) 0 = last := by simp
  by_cases hlarge : (65535 - digitValue digit) / 10 < last
  · rw [if_pos hlarge]
    exact if_pos (hlarge.trans_eq hlast.symm)
  · rw [if_neg hlarge]
    refine (if_neg fun h => hlarge (h.trans_eq hlast)).trans ?_
    show ({ t.withCsi ⟨before ++ [last], marked, invalid⟩ with
      ansiValues := Function.update (fun index => (before ++ [last]).getD index 0) ((before ++ [last]).length - 1)
        ((before ++ [last]).getD ((before ++ [last]).length - 1) 0 * 10 + digitValue digit) } : Terminal) = _
    rw [hlast, hindex, update_last]
    simp only [withCsi, List.length_append, List.length_singleton]
    rfl

/-- A byte that does not end a sequence changes the parser alone. -/
theorem writeCsi_step (t : Terminal) (hlength : 1 ≤ p.values.length ∧ p.values.length ≤ 8) {byte : UInt8}
    (hbyte : byte < 0x40 ∨ 0x7e < byte) : (t.withCsi p).writeCsi byte = t.withCsi (p.step byte) := by
  obtain ⟨values, marked, invalid⟩ := p
  obtain ⟨before, last, rfl⟩ := (List.eq_nil_or_concat' values).resolve_left fun h => by simp [h] at hlength
  have hdigit : (48 ≤ byte ∧ byte ≤ 57) ↔ isDigit byte = true := by
    rw [isDigit, Bool.and_eq_true, decide_eq_true_iff, decide_eq_true_iff]
  have hfirst : ((t.withCsi ⟨before ++ [last], marked, invalid⟩).ansiCount = 1 ∧
      (t.withCsi ⟨before ++ [last], marked, invalid⟩).ansiValues 0 = 0) ↔ before ++ [last] = [0] := by
    cases before with
    | nil => simp [withCsi]
    | cons value before => simp [withCsi]
  unfold writeCsi CsiParser.step
  simp only [hdigit, List.getLastD_concat, List.dropLast_concat]
  by_cases h : isDigit byte = true
  · rw [if_pos h, if_pos h]
    exact writeDigit_step t before last marked invalid byte
  rw [if_neg h, if_neg h]
  by_cases hseparator : byte = 59
  · rw [if_pos hseparator, if_pos hseparator]
    show (if (before ++ [last]).length = 8 then _ else _) = _
    split_ifs
    · rfl
    · have hopened : (before ++ [last] ++ [0]).length = (before ++ [last]).length + 1 := List.length_append
      unfold withCsi
      dsimp only
      rw [getD_open (before ++ [last]), hopened]
  rw [if_neg hseparator, if_neg hseparator]
  by_cases hmark : byte = 63 ∧ before ++ [last] = [0] ∧ marked = false
  · have hmark' := hfirst.2 hmark.2.1
    rw [if_pos hmark, if_pos ⟨hmark.1, hmark'.1, hmark'.2, hmark.2.2⟩]
    rfl
  · have hmark' : ¬(byte = 63 ∧ (t.withCsi ⟨before ++ [last], marked, invalid⟩).ansiCount = 1 ∧
        (t.withCsi ⟨before ++ [last], marked, invalid⟩).ansiValues 0 = 0 ∧
        (t.withCsi ⟨before ++ [last], marked, invalid⟩).ansiPrivate = false) :=
      fun h => hmark ⟨h.1, hfirst.1 ⟨h.2.1, h.2.2.1⟩, h.2.2.2⟩
    rw [if_neg hmark, if_neg hmark', if_pos hbyte]
    rfl

/-- The bytes before the final one change the parser alone. -/
theorem foldl_writeByte_csi (t : Terminal) (hlength : 1 ≤ p.values.length ∧ p.values.length ≤ 8)
    (htext : ∀ byte ∈ text, byte ≠ 0 ∧ (byte < 0x40 ∨ 0x7e < byte)) :
    text.foldl writeByte (t.withCsi p) = t.withCsi (p.run text) := by
  induction text generalizing p with
  | nil => rfl
  | cons byte text ih =>
    obtain ⟨⟨hne, hbyte⟩, hrest⟩ := List.forall_mem_cons.1 htext
    have hstep : (t.withCsi p).writeByte byte = t.withCsi (p.step byte) := by
      rw [← writeCsi_step t hlength hbyte, writeByte, if_neg hne]
      rfl
    rw [List.foldl_cons, hstep, ih (step_length hlength byte) hrest, run_cons]

/-- The terminal after a final byte. -/
def endCsi (t : Terminal) (p : CsiParser) (final : UInt8) : Terminal :=
  { (if p.invalid then t.withCsi p else (t.withCsi p).ansiCommand final) with ansiState := .ground }

theorem final_ne (hfinal : 0x40 ≤ final) {byte : UInt8} (h : byte < 0x40) : final ≠ byte := by
  rintro rfl
  exact UInt8.lt_irrefl _ (UInt8.lt_of_lt_of_le h hfinal)

theorem writeCsi_final (t : Terminal) (p : CsiParser) (hfinal : 0x40 ≤ final ∧ final ≤ 0x7e) :
    (t.withCsi p).writeCsi final = t.endCsi p final := by
  have hlow : ¬(48 ≤ final ∧ final ≤ 57) := fun h => absurd (UInt8.le_trans hfinal.1 h.2) (by decide)
  have hmark : ¬(final = 63 ∧ (t.withCsi p).ansiCount = 1 ∧ (t.withCsi p).ansiValues 0 = 0 ∧ (t.withCsi p).ansiPrivate = false) :=
    fun h => final_ne hfinal.1 (by decide) h.1
  have hends : ¬(final < 0x40 ∨ 0x7e < final) := not_or.2 ⟨UInt8.not_lt.2 hfinal.1, UInt8.not_lt.2 hfinal.2⟩
  unfold writeCsi
  rw [if_neg hlow, if_neg (final_ne hfinal.1 (by decide)), if_neg hmark, if_neg hends]
  rfl

/-- NULs do nothing. -/
theorem foldl_writeByte_filter (t : Terminal) (data : List UInt8) :
    (data.filter (· ≠ 0)).foldl writeByte t = data.foldl writeByte t := by
  rw [List.foldl_filter]
  congr 1
  funext u byte
  by_cases hzero : byte = 0
  · rw [hzero]
    rfl
  · rw [if_pos (decide_eq_true hzero)]

/-- The bytes of a sequence lead to the state after its final byte. -/
theorem foldl_writeByte_sequence (hground : t.ansiState = .ground) (htext : ∀ byte ∈ text, byte ≠ 0 ∧ (byte < 0x40 ∨ 0x7e < byte))
    (hfinal : 0x40 ≤ final ∧ final ≤ 0x7e) :
    (27 :: 91 :: (text ++ [final])).foldl writeByte t = t.endCsi (start.run text) final := by
  have hescape : t.writeByte 27 = { t with ansiState := .escape } := by
    rw [writeByte, if_neg (by decide), hground]
    rfl
  have hopen : ({ t with ansiState := .escape } : Terminal).writeByte 91 = t.withCsi start := by
    rw [writeByte, if_neg (by decide)]
    exact writeEscape_csi _
  have hne : final ≠ 0 := final_ne hfinal.1 (by decide)
  rw [List.foldl_cons, hescape, List.foldl_cons, hopen, List.foldl_append, foldl_writeByte_csi t (by decide) htext,
    List.foldl_cons, List.foldl_nil, writeByte, if_neg hne]
  exact writeCsi_final t _ hfinal

/-- Writes change the logical state as their bytes do, wherever one ends and the next begins. -/
theorem foldl_writeBytes_same {t u : Terminal} (h : SameLogic t u) (chunks : List (List UInt8)) :
    SameLogic (chunks.foldl writeBytes t) (chunks.flatten.foldl writeByte u) := by
  induction chunks generalizing t u with
  | nil => exact h
  | cons chunk chunks ih =>
    rw [List.foldl_cons, List.flatten_cons, List.foldl_append]
    exact ih (writeBytes_same h chunk)

/-- The command of a sequence with `?`: 25 shows or hides the cursor, and anything else does nothing. -/
theorem ansiCommand_marked (t : Terminal) (hmarked : p.marked = true) (final : UInt8) :
    (t.withCsi p).ansiCommand final =
      if p.values = [25] ∧ (final = 104 ∨ final = 108) then { t.withCsi p with cursorVisible := decide (final = 104) }
      else t.withCsi p := by
  have hvalues : (p.values.length = 1 ∧ p.values.getD 0 0 = 25) ↔ p.values = [25] := by
    constructor
    · rintro ⟨hlength, hvalue⟩
      obtain ⟨value, hone⟩ := List.length_eq_one_iff.1 hlength
      rw [hone] at hvalue ⊢
      exact congrArg (fun number => [number]) hvalue
    · intro hone
      rw [hone]
      exact ⟨rfl, rfl⟩
  have hcommand : ((t.withCsi p).ansiCount = 1 ∧ (t.withCsi p).ansiValues 0 = 25 ∧ (final = 104 ∨ final = 108)) ↔
      p.values = [25] ∧ (final = 104 ∨ final = 108) := by
    rw [← and_assoc]
    exact and_congr_left fun _ => hvalues
  have hprivate : (t.withCsi p).ansiPrivate = true := hmarked
  unfold ansiCommand
  rw [if_pos hprivate]
  simp only [hcommand]

/-- A sequence of any text leads where it should, unless it shows or hides the cursor with a `?` after zeros. -/
theorem endCsi_obeyed_iff {u : Terminal} (hu : u.logical = (t.endCsi (start.run text) final).logical) :
    CsiObeyed t u text final ↔ ¬LateMarker t text final := by
  have hground : u.ansiState = .ground := congrArg Logical.ansiState hu
  have hscreen : u.onScreen = (t.endCsi (start.run text) final).onScreen := by
    unfold onScreen
    rw [hu]
  by_cases hwell : CsiWellFormed text
  · have hlate : ¬LateMarker t text final := by
      rintro ⟨zeros, digits, rfl, hdigits, -⟩
      exact not_wellFormed_late zeros hdigits hwell
    rw [CsiObeyed, if_pos hwell, hu, run_wellFormed hwell]
    exact iff_of_true ⟨hground, rfl⟩ hlate
  rw [CsiObeyed, if_neg hwell, hscreen, and_iff_right hground]
  -- what a late marker leaves in the parser
  have hlate : LateMarker t text final → (start.run text).invalid = false ∧ (start.run text).values = [25] ∧
      (final = 104 ∨ final = 108) := by
    rintro ⟨zeros, digits, rfl, hdigits, hvalue, hfinal, -⟩
    rw [run_late zeros hdigits (by omega), hvalue]
    exact ⟨rfl, rfl, hfinal⟩
  by_cases hinvalid : (start.run text).invalid = true
  · rw [endCsi, if_pos hinvalid]
    exact iff_of_true rfl fun h => absurd hinvalid (Bool.eq_false_iff.1 (hlate h).1)
  obtain ⟨zeros, fields, haccepts⟩ := accepts_run (Bool.eq_false_iff.2 hinvalid)
  have hmarked : (start.run text).marked = true ∧ zeros ≠ 0 := by
    by_contra hnot
    exact hwell (haccepts.wellFormed fun hmarked => not_not.1 fun hzeros => hnot ⟨hmarked, hzeros⟩)
  rw [endCsi, if_neg hinvalid, ansiCommand_marked t hmarked.1]
  by_cases hcursor : (start.run text).values = [25] ∧ (final = 104 ∨ final = 108)
  · rw [if_pos hcursor]
    have hiff : LateMarker t text final ↔ t.cursorVisible ≠ decide (final = 104) := by
      refine ⟨fun ⟨_, _, _, _, _, _, hne⟩ => hne, fun hne => ?_⟩
      obtain ⟨digits, hdigits, hvalue⟩ := List.map_eq_singleton_iff.1 (haccepts.values.symm.trans hcursor.1)
      obtain ⟨before, hbefore⟩ := Nat.exists_eq_succ_of_ne_zero hmarked.2
      have htext := haccepts.text_eq
      rw [if_pos hmarked.1, hdigits, List.intercalate_singleton, List.append_assoc, hbefore] at htext
      have hnumber := haccepts.number digits (hdigits ▸ List.mem_singleton_self _)
      exact ⟨before, digits, htext, hnumber.1, hvalue, hcursor.2, hne⟩
    rw [hiff, not_not]
    constructor
    · exact fun h => (congrArg Logical.cursorVisible h).symm
    · intro h
      unfold onScreen logical withCsi
      rw [h]
  · rw [if_neg hcursor]
    exact iff_of_true rfl fun h => hcursor (hlate h).2

/-- From any terminal outside an escape sequence, a CSI sequence that comes in any writes, with NULs anywhere, leads where it should
exactly when it does not show or hide the cursor with a `?` after zeros. -/
theorem csi_obeyed_iff (t : Terminal) (hground : t.ansiState = .ground) (text : List UInt8) (final : UInt8)
    (htext : ∀ byte ∈ text, byte < 0x40 ∨ 0x7e < byte) (hfinal : 0x40 ≤ final ∧ final ≤ 0x7e) (chunks : List (List UInt8))
    (hchunks : chunks.flatten.filter (· ≠ 0) = 27 :: 91 :: (text ++ [final])) :
    CsiObeyed t (chunks.foldl writeBytes t) text final ↔ ¬LateMarker t text final := by
  have hbytes : ∀ byte ∈ text, byte ≠ 0 ∧ (byte < 0x40 ∨ 0x7e < byte) := by
    intro byte hmem
    have hkept : byte ∈ chunks.flatten.filter (· ≠ 0) := by
      rw [hchunks]
      exact List.mem_cons_of_mem _ (List.mem_cons_of_mem _ (List.mem_append_left _ hmem))
    exact ⟨of_decide_eq_true (List.mem_filter.1 hkept).2, htext byte hmem⟩
  have hsame := foldl_writeBytes_same (SameLogic.refl t) chunks
  rw [← foldl_writeByte_filter, hchunks, foldl_writeByte_sequence hground hbytes hfinal] at hsame
  exact endCsi_obeyed_iff hsame.logical_eq

/-- `ESC [ ? 2 5 h`, in two writes. -/
theorem csi_obeyed_shown : CsiObeyed .threeByThree ([[27, 91, 63], [50, 53, 104]].foldl writeBytes .threeByThree) [63, 50, 53] 104 :=
  (csi_obeyed_iff .threeByThree rfl [63, 50, 53] 104 (by simp) (by decide) [[27, 91, 63], [50, 53, 104]] rfl).2 (by
    rintro ⟨zeros, digits, htext, -⟩
    exact absurd (List.cons.inj htext).1 (by decide))

/-- `ESC [ 0 ? 2 5 h` shows the cursor. -/
theorem csi_disobeyed :
    ¬CsiObeyed .threeByThree (Terminal.writeBytes .threeByThree [27, 91, 48, 63, 50, 53, 104]) [48, 63, 50, 53] 104 := by
  rintro ⟨-, hscreen⟩
  rw [if_neg (by decide)] at hscreen
  exact absurd (congrArg Logical.cursorVisible hscreen) (by decide)

end Terminal
end TabOS
