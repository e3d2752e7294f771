import TabOS.Library.Run
import Mathlib.Data.List.Pairwise
import Mathlib.Data.List.TakeWhile
import Mathlib.Data.UInt
import Mathlib.Logic.Function.Basic

/-!
# Lines typed to BASIC

The input of `apps/basic/src/tabos_runtime.c`: `consume` puts what is typed into a queue, and `basic_runtime_read_byte` makes a line of it
and delivers that a byte at a time. A call of it goes on a turn of its loop at a time, with any events consumed in between. What it writes
to the terminal is left out. The history variables, which no branch reads, are the lines as they are typed, the line that each entry of
the queue belongs to, and the lines that were delivered.
-/

namespace TabOS
namespace Typeahead

open Library

def inputCapacity : Nat := 256
def lineCapacity : Nat := 80

/-- `TABOS_INPUT_TEXT_MAX_BYTES`. -/
def inputTextMaxBytes : Nat := 9

def keyC : Nat := 6
def keyQ : Nat := 20
def keyBackspace : Nat := 42

/-- `tabos_input_event_type_t`. -/
inductive EventType where
  | keyDown | keyUp | text
  deriving DecidableEq, Repr

/-- `tabos_input_event_t`, with whether Control is held. -/
structure InputEvent where
  type : EventType
  key : Nat
  control : Bool
  repeated : Bool
  text : List UInt8
  deriving DecidableEq, Repr

/-- A carriage return or a line feed. -/
def Enter (byte : UInt8) : Prop := byte = 13 ∨ byte = 10

instance (byte : UInt8) : Decidable (Enter byte) := inferInstanceAs (Decidable (_ ∨ _))

/-- Printable ASCII. -/
def Printable (byte : UInt8) : Prop := 32 ≤ byte ∧ byte ≤ 126

instance (byte : UInt8) : Decidable (Printable byte) := inferInstanceAs (Decidable (_ ∧ _))

/-! ## What is typed -/

/-- A line as it is typed: what is left of it, whether it was too long at some moment, whether it had another byte than printable ASCII,
and whether it was queued or being typed when the queue overran. -/
structure Typed where
  text : List UInt8
  long : Bool
  foreign : Bool
  overran : Bool
  deriving DecidableEq, Repr

/-- A byte is typed, or the Backspace key. -/
def Typed.type (t : Typed) (byte : UInt8) : Typed :=
  if byte = 8 then { t with text := t.text.dropLast }
  else
    { t with
      text := t.text ++ [byte]
      long := t.long || decide (lineCapacity < (t.text ++ [byte]).length)
      foreign := t.foreign || !decide (Printable byte) }

/-- Why a line may be missing. -/
def Typed.Lost (t : Typed) : Prop := t.long = true ∨ t.foreign = true ∨ t.overran = true

/-! ## The runtime -/

/-- An entry of the queue, which is a byte or `INPUT_OVERRUN`, and the line it belongs to. -/
structure Entry where
  value : Option UInt8
  line : Nat
  deriving DecidableEq, Repr

/-- A call of `basic_runtime_read_byte` in its loop. -/
structure Call where
  command : Bool
  rejected : Bool
  deriving DecidableEq, Repr

/-- The input of the runtime, with its history. -/
structure Runtime where
  pending : List Entry
  queueDiscard : Bool
  breakPending : Bool
  exited : Bool
  heldKeys : Nat → Bool
  line : List UInt8
  linePosition : Nat
  lineReady : Bool
  call : Option Call
  returned : List UInt8
  typed : Nat → Typed
  typing : Nat
  reading : Nat
  ready : Nat × Bool
  delivered : List (Nat × Bool)

/-- `basic_runtime_init`. -/
def Runtime.init : Runtime where
  pending := []
  queueDiscard := false
  breakPending := false
  exited := false
  heldKeys := fun _ => false
  line := []
  linePosition := 0
  lineReady := false
  call := none
  returned := []
  typed := fun _ => ⟨[], false, false, false⟩
  typing := 0
  reading := 0
  ready := (0, false)
  delivered := []

/-- The lines that are queued or being typed when the queue overruns. -/
def Runtime.overrun (s : Runtime) (line : Nat) : Typed :=
  if line = s.typing ∨ s.pending.any (·.line == line) = true then { s.typed line with overran := true } else s.typed line

/-- A byte of a line goes to the queue. -/
def Runtime.queue (s : Runtime) (byte : UInt8) : Runtime :=
  if s.queueDiscard = true ∧ ¬Enter byte then s
  else
    if s.pending.length = inputCapacity then
      if Enter byte then
        { s with pending := [⟨none, s.typing⟩, ⟨some byte, s.typing⟩], queueDiscard := false, typed := s.overrun }
      else { s with pending := [⟨none, s.typing⟩], queueDiscard := true, typed := s.overrun }
    else { s with pending := s.pending ++ [⟨some byte, s.typing⟩], queueDiscard := false }

/-- A byte is typed on the line being typed, or ends it. -/
def Runtime.type (s : Runtime) (byte : UInt8) : Runtime :=
  if Enter byte then { s with typing := s.typing + 1 }
  else { s with typed := Function.update s.typed s.typing ((s.typed s.typing).type byte) }

/-- A byte of `consume`. -/
def consumeByte (backspace : Bool) (s : Runtime) (byte : UInt8) : Runtime :=
  if backspace = false ∧ (byte = 8 ∨ byte = 127) then s else (s.queue byte).type byte

/-- `held_keys`. -/
def Runtime.hold (s : Runtime) (e : InputEvent) : Runtime :=
  if e.key < 128 ∧ e.type ≠ .text then
    { s with heldKeys := Function.update s.heldKeys e.key (decide (e.type = .keyDown) && !e.control) }
  else s

def consume (s : Runtime) (e : InputEvent) : Runtime :=
  let s := s.hold e
  if e.type = .keyDown ∧ e.control = true ∧ e.key = keyQ then { s with exited := true }
  else
    let s :=
      if e.type = .keyDown ∧ e.control = true ∧ e.key = keyC ∧ e.repeated = false then
        { s with breakPending := true, pending := [], queueDiscard := false }
      else s
    let backspace := decide (e.type = .keyDown) && decide (e.key = keyBackspace)
    if e.type ≠ .text ∧ backspace = false then s
    else (if backspace then [8] else (e.text.take inputTextMaxBytes).takeWhile (· ≠ 0)).foldl (consumeByte backspace) s

def upperAscii (byte : UInt8) : UInt8 := if 97 ≤ byte ∧ byte ≤ 122 then byte - 32 else byte

/-- `keyword_at`. -/
def keywordAt (keyword text : List UInt8) : Bool := (text.take keyword.length).map upperAscii == keyword

def keywordRem : List UInt8 := [82, 69, 77]
def keywordData : List UInt8 := [68, 65, 84, 65]

/-- `normalize_command`, with whether a string and `DATA` go on. -/
def normalizeCommand (quoted data : Bool) : List UInt8 → List UInt8
  | [] => []
  | byte :: rest =>
    if byte = 34 then byte :: normalizeCommand (!quoted) data rest
    else if quoted then byte :: normalizeCommand quoted data rest
    else if data then byte :: normalizeCommand quoted (decide (byte ≠ 58)) rest
    else if keywordAt keywordRem (byte :: rest) then keywordRem ++ rest.drop 2
    else if keywordAt keywordData (byte :: rest) then keywordData ++ normalizeCommand quoted true (rest.drop 3)
    else upperAscii byte :: normalizeCommand quoted data rest
termination_by text => text.length
decreasing_by all_goals simp only [List.length_cons, List.length_drop]; omega

/-- What the reader has of a line, and whether the line is rejected. -/
structure Reader where
  line : List UInt8
  rejected : Bool
  deriving DecidableEq, Repr

/-- The loop reads a byte that does not end the line. -/
def Reader.read (r : Reader) (byte : UInt8) : Reader :=
  if r.rejected then r
  else if byte = 8 ∨ byte = 127 then { r with line := r.line.dropLast }
  else if Printable byte then if r.line.length < lineCapacity then { r with line := r.line ++ [byte] } else ⟨[], true⟩
  else if byte ≠ 0 then ⟨[], true⟩
  else r

/-- The line in its delivered form. -/
def submitted (command : Bool) (text : List UInt8) : List UInt8 := if command then normalizeCommand false false text else text

/-- A turn of the loop of `basic_runtime_read_byte`, after `poll_input`. -/
def Runtime.turn (s : Runtime) : Runtime :=
  match s.call with
  | none => s
  | some call =>
    if s.breakPending then { s with breakPending := false, line := [], linePosition := 0, lineReady := false, call := none }
    else if s.lineReady then
      match s.line[s.linePosition]? with
      | some byte => { s with returned := s.returned ++ [byte], linePosition := s.linePosition + 1, call := none }
      | none =>
        { s with
          lineReady := false
          line := []
          linePosition := 0
          returned := s.returned ++ [13]
          call := none
          delivered := s.delivered ++ [s.ready] }
    else
      match s.pending with
      | [] => s
      | ⟨none, line⟩ :: rest => { s with pending := rest, line := [], call := some { call with rejected := true }, reading := line }
      | ⟨some byte, line⟩ :: rest =>
        if Enter byte then
          if call.rejected then { s with pending := rest, call := some { call with rejected := false }, reading := line + 1 }
          else
            { s with
              pending := rest
              line := submitted call.command s.line
              lineReady := true
              ready := (line, call.command)
              reading := line + 1 }
        else
          let r := (Reader.mk s.line call.rejected).read byte
          { s with pending := rest, line := r.line, call := some { call with rejected := r.rejected } }

/-- What happens next: an event is consumed, a byte is asked for, or the loop of the call goes on. -/
inductive Op where
  | event (e : InputEvent)
  | readByte (command : Bool)
  | turn

def Runtime.step (s : Runtime) : Op → Runtime
  | .event e => consume s e
  | .readByte command => if s.call = none then { s with call := some ⟨command, false⟩ } else s
  | .turn => s.turn

/-- The event is not one of Ctrl+C or Ctrl+Q. -/
def Op.Plain : Op → Prop
  | .event e => ¬(e.type = .keyDown ∧ e.control = true ∧ (e.key = keyC ∨ e.key = keyQ))
  | _ => True

/-! ## Reading what was typed -/

/-- The reader has the line as it was typed, or has rejected it for a reason for which it may be missing. -/
def Reader.Agrees (r : Reader) (t : Typed) : Prop :=
  (r.rejected = false → r.line = t.text ∧ t.text.length ≤ lineCapacity) ∧ (r.rejected = true → t.Lost)

theorem Typed.Lost.type {t : Typed} (h : t.Lost) (byte : UInt8) : (t.type byte).Lost := by
  rw [Typed.type]
  split
  · exact h
  · rcases h with h | h | h
    · exact .inl (by simp [h])
    · exact .inr (.inl (by simp [h]))
    · exact .inr (.inr h)

theorem Reader.read_rejected {r : Reader} (h : r.rejected = true) (byte : UInt8) : r.read byte = r := by
  rw [Reader.read, if_pos h]

/-- What is rejected is cleared. -/
theorem Reader.read_cleared {r : Reader} (h : r.rejected = true → r.line = []) (byte : UInt8) :
    (r.read byte).rejected = true → (r.read byte).line = [] := by
  cases hr : r.rejected with
  | true =>
    rw [r.read_rejected hr]
    exact fun _ => h hr
  | false =>
    have hnot : ∀ line : List UInt8, (⟨line, r.rejected⟩ : Reader).rejected = true → line = [] :=
      fun line hf => absurd (hr.symm.trans hf) Bool.false_ne_true
    rw [Reader.read, if_neg (by simp [hr])]
    split
    · exact hnot _
    · split
      · split
        · exact hnot _
        · exact fun _ => rfl
      · split
        · exact fun _ => rfl
        · exact hnot _

/-- The reader follows what is typed. -/
theorem Reader.Agrees.read {r : Reader} {t : Typed} (h : r.Agrees t) {byte : UInt8} (hzero : byte ≠ 0) (hdelete : byte ≠ 127) :
    (r.read byte).Agrees (t.type byte) := by
  cases hr : r.rejected with
  | true =>
    rw [r.read_rejected hr]
    exact ⟨fun hf => absurd (hr.symm.trans hf).symm Bool.false_ne_true, fun _ => (h.2 hr).type byte⟩
  | false =>
    obtain ⟨hline, hlength⟩ := h.1 hr
    rw [Reader.read, if_neg (by simp [hr])]
    by_cases hback : byte = 8
    · rw [if_pos (.inl hback), Typed.type, if_pos hback]
      refine ⟨fun _ => ⟨by rw [hline], ?_⟩, fun hf => absurd (hr.symm.trans hf) Bool.false_ne_true⟩
      simp only [List.length_dropLast]
      omega
    · rw [if_neg (by simp [hback, hdelete]), Typed.type, if_neg hback]
      by_cases hprint : Printable byte
      · rw [if_pos hprint]
        by_cases hshort : r.line.length < lineCapacity
        · rw [if_pos hshort]
          refine ⟨fun _ => ⟨by rw [hline], ?_⟩, fun hf => absurd (hr.symm.trans hf) Bool.false_ne_true⟩
          rw [hline] at hshort
          simp only [List.length_append, List.length_singleton]
          omega
        · rw [if_neg hshort]
          rw [hline] at hshort
          refine ⟨fun hf => absurd hf.symm Bool.false_ne_true, fun _ => .inl ?_⟩
          simp only [List.length_append, List.length_singleton, Bool.or_eq_true, decide_eq_true_eq]
          exact .inr (by omega)
      · rw [if_neg hprint, if_pos hzero]
        exact ⟨fun hf => absurd hf.symm Bool.false_ne_true, fun _ => .inr (.inl (by simp [hprint]))⟩

/-- The queue goes on with a line that a reader has a part of, and brings it to the line being typed: each line of it is read to its end
as it was typed, and the lines that an overrun stands for were there when the queue overran. -/
inductive Follows (typed : Nat → Typed) (typing : Nat) : Nat → Reader → List Entry → Reader → Prop
  | nil (r : Reader) : Follows typed typing typing r [] r
  | key {line : Nat} {r final : Reader} {byte : UInt8} {rest : List Entry} (henter : ¬Enter byte) (hzero : byte ≠ 0)
      (hdelete : byte ≠ 127)
      (hrest : Follows typed typing line (r.read byte) rest final) : Follows typed typing line r (⟨some byte, line⟩ :: rest) final
  | enter {line : Nat} {r final : Reader} {byte : UInt8} {rest : List Entry} (henter : Enter byte) (hlt : line < typing)
      (hagrees : r.Agrees (typed line)) (hrest : Follows typed typing (line + 1) ⟨[], false⟩ rest final) :
      Follows typed typing line r (⟨some byte, line⟩ :: rest) final
  | overrun {line next : Nat} {r final : Reader} {rest : List Entry} (hle : line ≤ next)
      (hover : ∀ other, line ≤ other → other ≤ next → (typed other).overran = true)
      (hrest : Follows typed typing next ⟨[], true⟩ rest final) : Follows typed typing line r (⟨none, next⟩ :: rest) final

theorem Follows.le {typed : Nat → Typed} {typing line : Nat} {r final : Reader} {q : List Entry}
    (h : Follows typed typing line r q final) :
    line ≤ typing := by
  induction h with
  | nil => exact Nat.le_refl _
  | key _ _ _ _ ih => exact ih
  | enter _ hlt _ _ _ => omega
  | overrun hle _ _ ih => omega

/-- A line before the one being typed has its end in the queue, unless the queue overran. -/
theorem Follows.entered {typed : Nat → Typed} {typing line : Nat} {r final : Reader} {q : List Entry}
    (h : Follows typed typing line r q final) : ∀ other, line ≤ other → other < typing →
      (∃ byte, Enter byte ∧ ⟨some byte, other⟩ ∈ q) ∨ (typed other).overran = true := by
  induction h with
  | nil =>
    intro other hge hlt
    omega
  | key _ _ _ _ ih =>
    intro other hge hlt
    rcases ih other hge hlt with ⟨byte, hbyte, hmem⟩ | hover
    · exact .inl ⟨byte, hbyte, List.mem_cons_of_mem _ hmem⟩
    · exact .inr hover
  | @enter line _ _ byte _ henter _ _ _ ih =>
    intro other hge hlt
    by_cases heq : other = line
    · exact .inl ⟨byte, henter, by rw [heq]; exact List.mem_cons_self⟩
    · rcases ih other (by omega) hlt with ⟨byte', hbyte, hmem⟩ | hover
      · exact .inl ⟨byte', hbyte, List.mem_cons_of_mem _ hmem⟩
      · exact .inr hover
  | @overrun line next _ _ _ _ hover _ ih =>
    intro other hge hlt
    by_cases hnext : other ≤ next
    · exact .inr (hover other hge hnext)
    · rcases ih other (by omega) hlt with ⟨byte', hbyte, hmem⟩ | hover'
      · exact .inl ⟨byte', hbyte, List.mem_cons_of_mem _ hmem⟩
      · exact .inr hover'

/-- Typing on the line being typed changes nothing of the lines before it. -/
theorem Follows.mono {typed typed' : Nat → Typed} {typing line : Nat} {r final : Reader} {q : List Entry}
    (h : Follows typed typing line r q final) (hkeep : ∀ other, other < typing → typed' other = typed other)
    (hover : (typed typing).overran = true → (typed' typing).overran = true) : Follows typed' typing line r q final := by
  induction h with
  | nil r => exact .nil r
  | key henter hzero hdelete _ ih => exact .key henter hzero hdelete ih
  | enter henter hlt hagrees _ ih => exact .enter henter hlt (by rw [hkeep _ hlt]; exact hagrees) ih
  | overrun hle hover' hrest ih =>
    refine .overrun hle (fun other hge hle' => ?_) ih
    have hother := hover' other hge hle'
    have hnext := hrest.le
    by_cases heq : other = typing
    · rw [heq] at hother ⊢
      exact hover hother
    · rw [hkeep other (by omega)]
      exact hother

/-- A byte of the line being typed is appended. -/
theorem Follows.append_key {typed : Nat → Typed} {typing line : Nat} {r final : Reader} {q : List Entry}
    (h : Follows typed typing line r q final) {byte : UInt8} (henter : ¬Enter byte) (hzero : byte ≠ 0) (hdelete : byte ≠ 127) :
    Follows typed typing line r (q ++ [⟨some byte, typing⟩]) (final.read byte) := by
  induction h with
  | nil r => exact .key henter hzero hdelete (.nil _)
  | key henter' hzero' hdelete' _ ih => exact .key henter' hzero' hdelete' ih
  | enter henter' hlt hagrees _ ih => exact .enter henter' hlt hagrees ih
  | overrun hle hover _ ih => exact .overrun hle hover ih

/-- The end of the line being typed is appended. -/
theorem Follows.append_enter {typed : Nat → Typed} {typing line : Nat} {r final : Reader} {q : List Entry}
    (h : Follows typed typing line r q final) {byte : UInt8} (henter : Enter byte) (hagrees : final.Agrees (typed typing)) :
    Follows typed (typing + 1) line r (q ++ [⟨some byte, typing⟩]) ⟨[], false⟩ := by
  induction h with
  | nil r => exact .enter henter (Nat.lt_succ_self _) hagrees (.nil _)
  | key henter' hzero' hdelete' _ ih => exact .key henter' hzero' hdelete' (ih hagrees)
  | enter henter' hlt hagrees' _ ih => exact .enter henter' (by omega) hagrees' (ih hagrees)
  | overrun hle hover _ ih => exact .overrun hle hover (ih hagrees)

/-! ## The lines that are delivered -/

/-- Whether the line that is read is rejected. -/
def Runtime.rejecting (s : Runtime) : Bool :=
  match s.call with
  | none => false
  | some call => call.rejected

/-- What the runtime has of the line that it reads. -/
def Runtime.reader (s : Runtime) : Reader := if s.lineReady then ⟨[], false⟩ else ⟨s.line, s.rejecting⟩

/-- The lines that were delivered, each with the end of the line, and what was delivered of the next one. -/
def Runtime.output (s : Runtime) : List UInt8 :=
  (s.delivered.flatMap fun d => submitted d.2 (s.typed d.1).text ++ [13]) ++ s.line.take s.linePosition

/-- No line is spliced: the queue goes on with the line that is read, and the lines before it were delivered in order, are being delivered
or are missing for a reason. -/
structure Intact (s : Runtime) : Prop where
  awake : s.breakPending = false
  capacity : s.pending.length ≤ inputCapacity
  fresh : ∀ line, s.typing < line → (s.typed line).text = []
  follows : ∃ final, Follows s.typed s.typing s.reading s.reader s.pending final ∧ final.Agrees (s.typed s.typing) ∧
    (s.queueDiscard = true → (s.typed s.typing).overran = true ∧ final.rejected = true)
  resolved : ∀ line, line < s.reading → (∃ command, (line, command) ∈ s.delivered) ∨ (s.lineReady = true ∧ s.ready.1 = line) ∨
    (s.typed line).Lost
  order : s.delivered.Pairwise (·.1 < ·.1) ∧ ∀ d ∈ s.delivered, d.1 < s.reading
  returned : s.returned = s.output
  waiting : s.lineReady = false → s.linePosition = 0
  cleared : s.rejecting = true → s.line = []
  ready : s.lineReady = true → s.line = submitted s.ready.2 (s.typed s.ready.1).text ∧ s.rejecting = false ∧ s.ready.1 < s.reading ∧
    ∀ d ∈ s.delivered, d.1 < s.ready.1

theorem Intact.reading_le {s : Runtime} (hi : Intact s) : s.reading ≤ s.typing := by
  obtain ⟨_, hf, -⟩ := hi.follows
  exact hf.le

/-- What is typed changes nothing of the lines that were read. -/
theorem Intact.consumed {s : Runtime} (hi : Intact s) {pending : List Entry} {discard : Bool} {typed : Nat → Typed} {typing : Nat}
    (hcapacity : pending.length ≤ inputCapacity) (hfresh : ∀ line, typing < line → (typed line).text = [])
    (hfollows : ∃ final, Follows typed typing s.reading s.reader pending final ∧ final.Agrees (typed typing) ∧
      (discard = true → (typed typing).overran = true ∧ final.rejected = true))
    (hkeep : ∀ line, line < s.reading → (typed line).text = (s.typed line).text ∧ ((s.typed line).Lost → (typed line).Lost)) :
    Intact { s with pending := pending, queueDiscard := discard, typed := typed, typing := typing } where
  awake := hi.awake
  capacity := hcapacity
  fresh := hfresh
  follows := hfollows
  resolved := by
    intro line hlt
    rcases hi.resolved line hlt with h | h | h
    · exact .inl h
    · exact .inr (.inl h)
    · exact .inr (.inr ((hkeep line hlt).2 h))
  order := hi.order
  returned := by
    refine hi.returned.trans ?_
    rw [Runtime.output, Runtime.output]
    dsimp only
    congr 1
    refine List.flatMap_congr fun d hd => ?_
    rw [(hkeep d.1 (hi.order.2 d hd)).1]
  waiting := hi.waiting
  cleared := hi.cleared
  ready := by
    intro hready
    obtain ⟨hline, hrej, hlt, hd⟩ := hi.ready hready
    refine ⟨?_, hrej, hlt, hd⟩
    dsimp only
    rw [(hkeep _ hlt).1]
    exact hline

theorem overrun_text (s : Runtime) (line : Nat) : (s.overrun line).text = (s.typed line).text := by
  rw [Runtime.overrun]
  split <;> rfl

theorem overrun_lost {s : Runtime} {line : Nat} (h : (s.typed line).Lost) : (s.overrun line).Lost := by
  rw [Runtime.overrun]
  split
  · exact .inr (.inr rfl)
  · exact h

/-- The lines from the one that is read on are all queued or being typed. -/
theorem Intact.overran {s : Runtime} (hi : Intact s) : ∀ line, s.reading ≤ line → line ≤ s.typing → (s.overrun line).overran = true := by
  obtain ⟨final, hf, -⟩ := hi.follows
  intro line hge hle
  rw [Runtime.overrun]
  by_cases heq : line = s.typing
  · rw [if_pos (.inl heq)]
  · rcases hf.entered line hge (by omega) with ⟨byte, -, hmem⟩ | hover
    · have hqueued : s.pending.any (·.line == line) = true := List.any_eq_true.2 ⟨_, hmem, by simp⟩
      rw [if_pos (.inr hqueued)]
    · split
      · rfl
      · exact hover

/-- The queue that an overrun leaves. -/
theorem Intact.marker {s : Runtime} (hi : Intact s) : Follows s.overrun s.typing s.reading s.reader [⟨none, s.typing⟩] ⟨[], true⟩ :=
  .overrun hi.reading_le hi.overran (.nil _)

theorem Typed.type_overran {t : Typed} (h : t.overran = true) (byte : UInt8) : (t.type byte).overran = true := by
  rw [Typed.type]
  split <;> exact h

/-- A byte is typed on a line that goes on. -/
theorem Intact.typed_key {s : Runtime} (hi : Intact s) {pending : List Entry} {discard : Bool} {typed : Nat → Typed} {final : Reader}
    {byte : UInt8}
    (hcapacity : pending.length ≤ inputCapacity) (htyped : ∀ line, (typed line).text = (s.typed line).text ∧
      ((s.typed line).Lost → (typed line).Lost))
    (hfollows : Follows typed s.typing s.reading s.reader pending final) (hagrees : final.Agrees ((typed s.typing).type byte))
    (hdiscard : discard = true → (typed s.typing).overran = true ∧ final.rejected = true) :
    Intact { s with pending := pending, queueDiscard := discard,
                    typed := Function.update typed s.typing ((typed s.typing).type byte) } := by
  have hle := hi.reading_le
  refine hi.consumed hcapacity ?_ ⟨final, hfollows.mono ?_ ?_, ?_, ?_⟩ ?_
  · intro line hlt
    rw [Function.update_of_ne (by omega), (htyped line).1]
    exact hi.fresh line hlt
  · intro other hlt
    rw [Function.update_of_ne (by omega)]
  · intro hover
    rw [Function.update_self]
    exact Typed.type_overran hover byte
  · rw [Function.update_self]
    exact hagrees
  · intro hd
    rw [Function.update_self]
    exact ⟨Typed.type_overran (hdiscard hd).1 byte, (hdiscard hd).2⟩
  · intro line hlt
    rw [Function.update_of_ne (by omega)]
    exact htyped line

/-- The line being typed ends. -/
theorem Intact.typed_enter {s : Runtime} (hi : Intact s) {pending : List Entry} {typed : Nat → Typed} {final : Reader} {byte : UInt8}
    (henter : Enter byte) (hcapacity : (pending ++ [Entry.mk (some byte) s.typing]).length ≤ inputCapacity)
    (htyped : ∀ line, (typed line).text = (s.typed line).text ∧ ((s.typed line).Lost → (typed line).Lost))
    (hfollows : Follows typed s.typing s.reading s.reader pending final) (hagrees : final.Agrees (typed s.typing)) :
    Intact { s with pending := pending ++ [⟨some byte, s.typing⟩], queueDiscard := false, typed := typed, typing := s.typing + 1 } := by
  have htext : (typed (s.typing + 1)).text = [] := by
    rw [(htyped _).1]
    exact hi.fresh _ (Nat.lt_succ_self _)
  have hempty : (Reader.mk [] false).Agrees (typed (s.typing + 1)) :=
    ⟨fun _ => ⟨htext.symm, by rw [htext]; exact Nat.zero_le _⟩, fun h => absurd h Bool.false_ne_true⟩
  have happend := hfollows.append_enter henter hagrees
  refine hi.consumed hcapacity ?_ ⟨Reader.mk [] false, happend, hempty, fun h => absurd h Bool.false_ne_true⟩ fun line _ => htyped line
  intro line hlt
  rw [(htyped line).1]
  exact hi.fresh line (by omega)

/-- A byte that is typed leaves the lines whole. -/
theorem queue_type_intact {s : Runtime} (hi : Intact s) {byte : UInt8} (hzero : byte ≠ 0) (hdelete : byte ≠ 127) :
    Intact ((s.queue byte).type byte) := by
  have hsame : ∀ line, (s.typed line).text = (s.typed line).text ∧ ((s.typed line).Lost → (s.typed line).Lost) := fun _ => ⟨rfl, id⟩
  have hover : ∀ line, (s.overrun line).text = (s.typed line).text ∧ ((s.typed line).Lost → (s.overrun line).Lost) :=
    fun line => ⟨overrun_text s line, overrun_lost⟩
  have hlast : (s.overrun s.typing).overran = true := hi.overran _ hi.reading_le (Nat.le_refl _)
  obtain ⟨final, hf, hagrees, hdiscard⟩ := hi.follows
  have hcapacity := hi.capacity
  by_cases henter : Enter byte
  · rw [Runtime.queue, if_neg (fun h => h.2 henter)]
    by_cases hfull : s.pending.length = inputCapacity
    · rw [if_pos hfull, if_pos henter, Runtime.type, if_pos henter]
      have hfinal : (Reader.mk [] true).Agrees (s.overrun s.typing) :=
        ⟨fun h => absurd h.symm Bool.false_ne_true, fun _ => .inr (.inr hlast)⟩
      have hshort : ([⟨none, s.typing⟩] ++ [⟨some byte, s.typing⟩] : List Entry).length ≤ inputCapacity := by simp [inputCapacity]
      exact hi.typed_enter henter hshort hover hi.marker hfinal
    · rw [if_neg hfull, Runtime.type, if_pos henter]
      exact hi.typed_enter henter (by simp only [List.length_append, List.length_singleton]; omega) hsame hf hagrees
  · by_cases hd : s.queueDiscard = true
    · rw [Runtime.queue, if_pos ⟨hd, henter⟩, Runtime.type, if_neg henter]
      obtain ⟨hlost, hrej⟩ := hdiscard hd
      exact hi.typed_key hcapacity hsame hf
        ⟨fun h => absurd (h.symm.trans hrej) Bool.false_ne_true, fun _ => .inr (.inr (Typed.type_overran hlost byte))⟩ hdiscard
    · rw [Runtime.queue, if_neg (fun h => hd h.1)]
      by_cases hfull : s.pending.length = inputCapacity
      · rw [if_pos hfull, if_neg henter, Runtime.type, if_neg henter]
        exact hi.typed_key (by simp [inputCapacity]) hover hi.marker
          ⟨fun h => absurd h.symm Bool.false_ne_true, fun _ => .inr (.inr (Typed.type_overran hlast byte))⟩ fun _ => ⟨hlast, rfl⟩
      · rw [if_neg hfull, Runtime.type, if_neg henter]
        exact hi.typed_key (by simp only [List.length_append, List.length_singleton]; omega) hsame (hf.append_key henter hzero hdelete)
          (hagrees.read hzero hdelete) fun h => absurd h Bool.false_ne_true

theorem consumeByte_intact {s : Runtime} (hi : Intact s) {backspace : Bool} {byte : UInt8} (hzero : byte ≠ 0)
    (hback : backspace = true → byte = 8) : Intact (consumeByte backspace s byte) := by
  rw [consumeByte]
  split
  · exact hi
  · rename_i hnot
    refine queue_type_intact hi hzero ?_
    rintro rfl
    cases backspace with
    | false => exact hnot ⟨rfl, .inr rfl⟩
    | true => exact absurd (hback rfl) (by decide)

theorem hold_intact {s : Runtime} (hi : Intact s) (e : InputEvent) : Intact (s.hold e) := by
  rw [Runtime.hold]
  split
  · exact ⟨hi.awake, hi.capacity, hi.fresh, hi.follows, hi.resolved, hi.order, hi.returned, hi.waiting, hi.cleared, hi.ready⟩
  · exact hi

/-- An event that is consumed leaves the lines whole. -/
theorem consume_intact {s : Runtime} (hi : Intact s) {e : InputEvent} (hplain : (Op.event e).Plain) : Intact (consume s e) := by
  have hhold := hold_intact hi e
  rw [consume]
  dsimp only
  have hquit : ¬(e.type = .keyDown ∧ e.control = true ∧ e.key = keyQ) := fun h => hplain ⟨h.1, h.2.1, .inr h.2.2⟩
  have hbreak : ¬(e.type = .keyDown ∧ e.control = true ∧ e.key = keyC ∧ e.repeated = false) := fun h => hplain ⟨h.1, h.2.1, .inl h.2.2.1⟩
  rw [if_neg hquit, if_neg hbreak]
  split
  · exact hhold
  · have hfold : ∀ (backspace : Bool) (bytes : List UInt8), (∀ byte ∈ bytes, byte ≠ 0 ∧ (backspace = true → byte = 8)) →
        ∀ s', Intact s' → Intact (bytes.foldl (consumeByte backspace) s') := by
      intro backspace bytes hbytes
      induction bytes with
      | nil => exact fun s' h => h
      | cons byte rest ih =>
        intro s' hs'
        obtain ⟨hzero, hback⟩ := hbytes byte List.mem_cons_self
        exact ih (fun b hb => hbytes b (List.mem_cons_of_mem _ hb)) _ (consumeByte_intact hs' hzero hback)
    refine hfold _ _ ?_ _ hhold
    intro byte hbyte
    split at hbyte
    · obtain rfl := List.mem_singleton.1 hbyte
      exact ⟨by decide, fun _ => rfl⟩
    · rename_i hb
      refine ⟨?_, fun h => absurd h hb⟩
      have := List.mem_takeWhile_imp hbyte
      simpa using this

/-- A byte of the line that is ready, or its end, is delivered. -/
theorem ready_intact {s : Runtime} (hi : Intact s) (hready : s.lineReady = true) :
    (∀ byte, s.line[s.linePosition]? = some byte →
      Intact { s with returned := s.returned ++ [byte], linePosition := s.linePosition + 1, call := none }) ∧
    (s.line[s.linePosition]? = none → Intact { s with
      lineReady := false, line := [], linePosition := 0, returned := s.returned ++ [13], call := none,
      delivered := s.delivered ++ [s.ready] }) := by
  obtain ⟨hline, hrej, hlt, hbefore⟩ := hi.ready hready
  have hreader : s.reader = ⟨[], false⟩ := by rw [Runtime.reader, if_pos hready]
  refine ⟨?_, ?_⟩
  · intro byte hbyte
    refine ⟨hi.awake, hi.capacity, hi.fresh, ?_, hi.resolved, hi.order, ?_, ?_, ?_, ?_⟩
    · obtain ⟨final, hf, hrest⟩ := hi.follows
      rw [hreader] at hf
      refine ⟨final, ?_, hrest⟩
      rw [Runtime.reader, if_pos hready]
      exact hf
    · dsimp only
      rw [hi.returned, Runtime.output, Runtime.output, List.take_add_one, hbyte, List.append_assoc]
      rfl
    · intro h
      exact absurd (h.symm.trans hready) Bool.false_ne_true
    · intro h
      exact absurd h Bool.false_ne_true
    · intro _
      exact ⟨hline, rfl, hlt, hbefore⟩
  · intro hnone
    have hlength := List.getElem?_eq_none_iff.1 hnone
    refine ⟨hi.awake, hi.capacity, hi.fresh, ?_, ?_, ?_, ?_, fun _ => rfl, fun _ => rfl, fun h => absurd h Bool.false_ne_true⟩
    · obtain ⟨final, hf, hrest⟩ := hi.follows
      rw [hreader] at hf
      exact ⟨final, hf, hrest⟩
    · intro line hline'
      rcases hi.resolved line hline' with ⟨command, h⟩ | ⟨-, h⟩ | h
      · exact .inl ⟨command, List.mem_append_left _ h⟩
      · exact .inl ⟨s.ready.2, List.mem_append_right _ (by simp [← h])⟩
      · exact .inr (.inr h)
    · refine ⟨List.pairwise_append.2 ⟨hi.order.1, List.pairwise_singleton _ _, ?_⟩, ?_⟩
      · intro d hd d' hd'
        obtain rfl := List.mem_singleton.1 hd'
        exact hbefore d hd
      · intro d hd
        rcases List.mem_append.1 hd with hd | hd
        · exact hi.order.2 d hd
        · obtain rfl := List.mem_singleton.1 hd
          exact hlt
    · dsimp only
      rw [hi.returned, Runtime.output, Runtime.output, List.take_of_length_le hlength, List.flatMap_append, hline]
      simp

theorem Follows.of_none {typed : Nat → Typed} {typing line next : Nat} {r final : Reader} {rest : List Entry}
    (h : Follows typed typing line r (⟨none, next⟩ :: rest) final) : line ≤ next ∧
      (∀ other, line ≤ other → other ≤ next → (typed other).overran = true) ∧ Follows typed typing next ⟨[], true⟩ rest final := by
  cases h with
  | overrun hle hover hrest => exact ⟨hle, hover, hrest⟩

theorem Follows.of_some {typed : Nat → Typed} {typing line next : Nat} {r final : Reader} {byte : UInt8} {rest : List Entry}
    (h : Follows typed typing line r (⟨some byte, next⟩ :: rest) final) : next = line ∧
      ((¬Enter byte ∧ Follows typed typing line (r.read byte) rest final) ∨
        (Enter byte ∧ r.Agrees (typed line) ∧ Follows typed typing (line + 1) ⟨[], false⟩ rest final)) := by
  cases h with
  | key henter hzero hdelete hrest => exact ⟨rfl, .inl ⟨henter, hrest⟩⟩
  | enter henter hlt hagrees hrest => exact ⟨rfl, .inr ⟨henter, hagrees, hrest⟩⟩

/-- An entry of the queue is read. -/
theorem entry_intact {s : Runtime} (hi : Intact s) {call : Call} (hcall : s.call = some call) (hready : s.lineReady = false) :
    Intact s.turn := by
  have hrej : s.rejecting = call.rejected := by rw [Runtime.rejecting, hcall]
  have hreader : s.reader = ⟨s.line, call.rejected⟩ := by rw [Runtime.reader, hrej, if_neg (by simp [hready])]
  obtain ⟨final, hf, hagrees, hdiscard⟩ := hi.follows
  have hpos := hi.waiting hready
  have hcapacity := hi.capacity
  have hresolved : ∀ line, line < s.reading → (∃ command, (line, command) ∈ s.delivered) ∨ (s.typed line).Lost := by
    intro line hlt
    rcases hi.resolved line hlt with h | ⟨h, -⟩ | h
    · exact .inl h
    · exact absurd (hready.symm.trans h) Bool.false_ne_true
    · exact .inr h
  have hout : ∀ line : List UInt8, s.returned =
      (s.delivered.flatMap fun d => submitted d.2 (s.typed d.1).text ++ [13]) ++ line.take s.linePosition := by
    intro line
    rw [hi.returned, Runtime.output, hpos, List.take_zero, List.take_zero]
  have hnotready : ∀ P : Prop, s.lineReady = true → P := fun P h => absurd (hready.symm.trans h) Bool.false_ne_true
  rw [Runtime.turn, hcall]
  dsimp only
  rw [if_neg (by simp [hi.awake]), if_neg (by simp [hready])]
  rw [hreader] at hf
  cases hq : s.pending with
  | nil => exact hi
  | cons e rest =>
    obtain ⟨value, line⟩ := e
    rw [hq] at hf hcapacity
    have hshort : rest.length ≤ inputCapacity := Nat.le_of_succ_le hcapacity
    cases value with
    | none =>
      obtain ⟨hle, hover, hrest⟩ := hf.of_none
      dsimp only
      refine ⟨hi.awake, hshort, hi.fresh, ⟨final, ?_, hagrees, hdiscard⟩, ?_, ⟨hi.order.1, ?_⟩, hout _, hi.waiting,
        fun _ => rfl, hnotready _⟩
      · rw [Runtime.reader, if_neg (by simp [hready])]
        exact hrest
      · intro other hlt
        by_cases hold : other < s.reading
        · rcases hresolved other hold with h | h
          · exact .inl h
          · exact .inr (.inr h)
        · exact .inr (.inr (.inr (.inr (hover other (by omega) (Nat.le_of_lt hlt)))))
      · intro d hd
        have := hi.order.2 d hd
        exact Nat.lt_of_lt_of_le this hle
    | some byte =>
      obtain ⟨rfl, ⟨henter, hrest⟩ | ⟨henter, hagrees', hrest⟩⟩ := hf.of_some
      · dsimp only
        rw [if_neg henter]
        refine ⟨hi.awake, hshort, hi.fresh, ⟨final, ?_, hagrees, hdiscard⟩, hi.resolved, hi.order, hout _, hi.waiting, ?_, hnotready _⟩
        · rw [Runtime.reader, if_neg (by simp [hready])]
          exact hrest
        · exact Reader.read_cleared (fun h => hi.cleared (hrej.trans h)) byte
      · have horder : ∀ d ∈ s.delivered, d.1 < s.reading + 1 := fun d hd => Nat.lt_succ_of_lt (hi.order.2 d hd)
        dsimp only
        rw [if_pos henter]
        by_cases hr : call.rejected = true
        · rw [if_pos hr]
          refine ⟨hi.awake, hshort, hi.fresh, ⟨final, ?_, hagrees, hdiscard⟩, ?_, ⟨hi.order.1, horder⟩, hout _, hi.waiting,
            fun _ => hi.cleared (hrej.trans hr), hnotready _⟩
          · rw [Runtime.reader, if_neg (by simp [hready])]
            dsimp only
            rw [hi.cleared (hrej.trans hr)]
            exact hrest
          · intro other hlt
            by_cases hold : other < s.reading
            · rcases hresolved other hold with h | h
              · exact .inl h
              · exact .inr (.inr h)
            · obtain rfl : other = s.reading := by have : other < s.reading + 1 := hlt; omega
              exact .inr (.inr (hagrees'.2 hr))
        · rw [if_neg hr]
          have hr' := Bool.eq_false_of_not_eq_true hr
          obtain ⟨hline, -⟩ := hagrees'.1 hr'
          refine ⟨hi.awake, hshort, hi.fresh, ⟨final, ?_, hagrees, hdiscard⟩, ?_, ⟨hi.order.1, horder⟩, hout _, ?_, ?_, ?_⟩
          · rw [Runtime.reader, if_pos rfl]
            exact hrest
          · intro other hlt
            by_cases hold : other < s.reading
            · rcases hresolved other hold with h | h
              · exact .inl h
              · exact .inr (.inr h)
            · obtain rfl : other = s.reading := by have : other < s.reading + 1 := hlt; omega
              exact .inr (.inl ⟨rfl, rfl⟩)
          · exact fun h => absurd h.symm Bool.false_ne_true
          · exact fun h => absurd h hr
          · intro _
            refine ⟨?_, ?_, Nat.lt_succ_self _, fun d hd => hi.order.2 d hd⟩
            · exact congrArg (submitted call.command) hline
            · exact hr'

theorem turn_intact {s : Runtime} (hi : Intact s) : Intact s.turn := by
  cases hcall : s.call with
  | none =>
    rw [Runtime.turn, hcall]
    exact hi
  | some call =>
    cases hready : s.lineReady with
    | false => exact entry_intact hi hcall hready
    | true =>
      obtain ⟨hsome, hnone⟩ := ready_intact hi hready
      rw [Runtime.turn, hcall]
      dsimp only
      rw [if_neg (by simp [hi.awake]), if_pos hready]
      cases hbyte : s.line[s.linePosition]? with
      | none => exact hnone hbyte
      | some byte => exact hsome byte hbyte

/-- A call that begins reads on from where the last one ended. -/
theorem readByte_intact {s : Runtime} (hi : Intact s) (hcall : s.call = none) (command : Bool) :
    Intact { s with call := some ⟨command, false⟩ } := by
  have hrej : s.rejecting = false := by rw [Runtime.rejecting, hcall]
  refine ⟨hi.awake, hi.capacity, hi.fresh, ?_, hi.resolved, hi.order, hi.returned, hi.waiting, fun h => absurd h Bool.false_ne_true, ?_⟩
  · obtain ⟨final, hf, hrest⟩ := hi.follows
    refine ⟨final, ?_, hrest⟩
    rw [Runtime.reader, hrej] at hf
    rw [Runtime.reader]
    exact hf
  · intro hready
    obtain ⟨hline, -, hlt, hbefore⟩ := hi.ready hready
    exact ⟨hline, rfl, hlt, hbefore⟩

theorem init_intact : Intact Runtime.init where
  awake := rfl
  capacity := Nat.zero_le _
  fresh := fun _ _ => rfl
  follows := ⟨⟨[], false⟩, .nil _, ⟨fun _ => ⟨rfl, Nat.zero_le _⟩, fun h => absurd h Bool.false_ne_true⟩,
    fun h => absurd h Bool.false_ne_true⟩
  resolved := fun _ h => absurd h (Nat.not_lt_zero _)
  order := ⟨List.Pairwise.nil, fun _ h => absurd h List.not_mem_nil⟩
  returned := rfl
  waiting := fun _ => rfl
  cleared := fun _ => rfl
  ready := fun h => absurd h Bool.false_ne_true

/-- Everything but a break leaves the lines whole. -/
theorem step_intact {s : Runtime} (hi : Intact s) {op : Op} (hplain : op.Plain) : Intact (s.step op) := by
  cases op with
  | event e => exact consume_intact hi hplain
  | turn => exact turn_intact hi
  | readByte command =>
    rw [Runtime.step]
    split
    · rename_i hcall
      exact readByte_intact hi hcall command
    · exact hi

/-- Along every run without a break the lines are whole. -/
theorem run_intact {ops : List Op} (hops : ∀ op ∈ ops, op.Plain) : Intact (ops.foldl Runtime.step .init) := by
  have hrun : ∀ s : Runtime, Intact s → Intact (ops.foldl Runtime.step s) := by
    induction ops with
    | nil => exact fun s hi => hi
    | cons op ops ih =>
      intro s hi
      exact ih (fun o ho => hops o (List.mem_cons_of_mem _ ho)) _ (step_intact hi (hops op List.mem_cons_self))
  exact hrun _ init_intact

/-! ## The case of a command -/

theorem upperAscii_upperAscii (byte : UInt8) : upperAscii (upperAscii byte) = upperAscii byte := by
  by_cases hlower : 97 ≤ byte ∧ byte ≤ 122
  · have hupper : ¬(97 ≤ byte - 32 ∧ byte - 32 ≤ 122) := by
      obtain ⟨hlow, hhigh⟩ := hlower
      have hsub : (byte - 32).toNat = byte.toNat - 32 := UInt8.toNat_sub_of_le _ _ (UInt8.le_trans (by decide) hlow)
      rw [UInt8.le_iff_toNat_le] at hlow hhigh
      rw [UInt8.le_iff_toNat_le, UInt8.le_iff_toNat_le, hsub]
      have h97 : (97 : UInt8).toNat = 97 := rfl
      have h122 : (122 : UInt8).toNat = 122 := rfl
      omega
    rw [upperAscii, upperAscii, if_pos hlower, if_neg hupper]
  · rw [upperAscii, upperAscii, if_neg hlower, if_neg hlower]

/-- A keyword stands for the bytes it was found at. -/
theorem keywordAt_upper {keyword text : List UInt8} (h : keywordAt keyword text = true) (hupper : keyword.map upperAscii = keyword) :
    text.map upperAscii = keyword.map upperAscii ++ (text.drop keyword.length).map upperAscii := by
  have htake : (text.take keyword.length).map upperAscii = keyword := eq_of_beq h
  rw [hupper]
  conv => lhs; rw [← List.take_append_drop keyword.length text, List.map_append, htake]

/-- A command keeps its bytes but for their case. -/
theorem normalizeCommand_upper (quoted data : Bool) (text : List UInt8) :
    (normalizeCommand quoted data text).map upperAscii = text.map upperAscii := by
  fun_induction normalizeCommand quoted data text with
  | case1 => rfl
  | case2 data rest hquote ih => rw [List.map_cons, List.map_cons, ih]
  | case3 data byte rest _ ih => rw [List.map_cons, List.map_cons, ih]
  | case4 quoted byte rest _ _ ih => rw [List.map_cons, List.map_cons, ih]
  | case5 quoted data byte rest _ _ _ hrem => rw [keywordAt_upper hrem (by decide), List.map_append]; rfl
  | case6 quoted data byte rest _ _ _ _ hdata ih => rw [keywordAt_upper hdata (by decide), List.map_append, ih]; rfl
  | case7 quoted data byte rest _ _ _ _ _ ih => rw [List.map_cons, List.map_cons, ih, upperAscii_upperAscii]

/-! ## The lines typed -/

/-- A byte ends the draft, takes its last byte away or is put behind it. -/
def typeLine (l : List (List UInt8) × List UInt8) (byte : UInt8) : List (List UInt8) × List UInt8 :=
  if Enter byte then (l.1 ++ [l.2], []) else if byte = 8 then (l.1, l.2.dropLast) else (l.1, l.2 ++ [byte])

/-- What an event types: the Backspace key is one byte, and a text is its bytes but for backspace and delete. -/
def InputEvent.bytes (e : InputEvent) : List UInt8 :=
  if e.type = .keyDown ∧ e.key = keyBackspace then [8]
  else if e.type = .text then ((e.text.take inputTextMaxBytes).takeWhile (· ≠ 0)).filter fun byte => !decide (byte = 8 ∨ byte = 127)
  else []

def Op.bytes : Op → List UInt8
  | .event e => e.bytes
  | _ => []

/-- The lines that the events of a run type, and what is typed of the next one. -/
def typedLines (ops : List Op) : List (List UInt8) × List UInt8 := (ops.flatMap Op.bytes).foldl typeLine ([], [])

/-- The history of the runtime has the lines as they are typed. -/
structure Records (s : Runtime) (l : List (List UInt8) × List UInt8) : Prop where
  typing : l.1.length = s.typing
  lines : ∀ line, line < s.typing → l.1[line]? = some (s.typed line).text
  draft : l.2 = (s.typed s.typing).text
  fresh : ∀ line, s.typing < line → (s.typed line).text = []

theorem Records.congr {s s' : Runtime} {l : List (List UInt8) × List UInt8} (h : Records s l) (htyping : s'.typing = s.typing)
    (htyped : ∀ line, (s'.typed line).text = (s.typed line).text) : Records s' l := by
  refine ⟨by rw [htyping]; exact h.typing, ?_, by rw [htyping, htyped]; exact h.draft, ?_⟩
  · intro line hlt
    rw [htyped]
    exact h.lines line (htyping ▸ hlt)
  · intro line hlt
    rw [htyped]
    exact h.fresh line (htyping ▸ hlt)

theorem queue_text (s : Runtime) (byte : UInt8) :
    (s.queue byte).typing = s.typing ∧ ∀ line, ((s.queue byte).typed line).text = (s.typed line).text := by
  rw [Runtime.queue]
  split
  · exact ⟨rfl, fun _ => rfl⟩
  · split
    · split
      · exact ⟨rfl, overrun_text s⟩
      · exact ⟨rfl, overrun_text s⟩
    · exact ⟨rfl, fun _ => rfl⟩

theorem type_records {s : Runtime} {l : List (List UInt8) × List UInt8} (h : Records s l) (byte : UInt8) :
    Records (s.type byte) (typeLine l byte) := by
  rw [Runtime.type, typeLine]
  by_cases henter : Enter byte
  · rw [if_pos henter, if_pos henter]
    refine ⟨?_, ?_, ?_, fun line hlt => h.fresh line (Nat.lt_of_succ_lt hlt)⟩
    · simp only [List.length_append, List.length_singleton, h.typing]
    · intro line hlt
      by_cases heq : line = s.typing
      · rw [heq, List.getElem?_append_right (by rw [h.typing]), h.typing, Nat.sub_self, h.draft]
        rfl
      · have hlt' : line < s.typing := by have : line < s.typing + 1 := hlt; omega
        rw [List.getElem?_append_left (by rw [h.typing]; exact hlt')]
        exact h.lines line hlt'
    · exact (h.fresh _ (Nat.lt_succ_self _)).symm
  · rw [if_neg henter, if_neg henter]
    have htext : ((s.typed s.typing).type byte).text =
        if byte = 8 then (s.typed s.typing).text.dropLast else (s.typed s.typing).text ++ [byte] := by
      rw [Typed.type]
      split <;> rfl
    refine ⟨?_, ?_, ?_, ?_⟩
    · split <;> exact h.typing
    · intro line hlt
      have hne : line ≠ s.typing := Nat.ne_of_lt hlt
      dsimp only
      rw [Function.update_of_ne hne]
      split <;> exact h.lines line hlt
    · dsimp only
      rw [Function.update_self, htext, ← h.draft]
      split <;> rfl
    · intro line hlt
      have hne : line ≠ s.typing := Nat.ne_of_gt hlt
      dsimp only
      rw [Function.update_of_ne hne]
      exact h.fresh line hlt

/-- The bytes of an event that are not passed over. -/
theorem foldl_consumeByte_records (backspace : Bool) (bytes : List UInt8) {s : Runtime} {l : List (List UInt8) × List UInt8}
    (h : Records s l) : Records (bytes.foldl (consumeByte backspace) s)
      ((bytes.filter fun byte => backspace || !decide (byte = 8 ∨ byte = 127)).foldl typeLine l) := by
  induction bytes generalizing s l with
  | nil => exact h
  | cons byte rest ih =>
    rw [List.foldl_cons, consumeByte]
    by_cases hskip : backspace = false ∧ (byte = 8 ∨ byte = 127)
    · rw [if_pos hskip, List.filter_cons_of_neg (by simp [hskip.1, hskip.2])]
      exact ih h
    · have hkeep : (backspace || !decide (byte = 8 ∨ byte = 127)) = true := by
        cases backspace with
        | true => rfl
        | false =>
          have : ¬(byte = 8 ∨ byte = 127) := fun hb => hskip ⟨rfl, hb⟩
          simp [this]
      rw [if_neg hskip, List.filter_cons, if_pos hkeep, List.foldl_cons]
      obtain ⟨htyping, htext⟩ := queue_text s byte
      exact ih (type_records (h.congr htyping htext) byte)

/-- What an event types is what the history records of it. -/
theorem consume_records {s : Runtime} {l : List (List UInt8) × List UInt8} (h : Records s l) {e : InputEvent}
    (hplain : (Op.event e).Plain) : Records (consume s e) (e.bytes.foldl typeLine l) := by
  have hhold : Records (s.hold e) l := by
    refine h.congr ?_ fun _ => ?_
    all_goals
      rw [Runtime.hold]
      split <;> rfl
  have hquit : ¬(e.type = .keyDown ∧ e.control = true ∧ e.key = keyQ) := fun h => hplain ⟨h.1, h.2.1, .inr h.2.2⟩
  have hbreak : ¬(e.type = .keyDown ∧ e.control = true ∧ e.key = keyC ∧ e.repeated = false) := fun h => hplain ⟨h.1, h.2.1, .inl h.2.2.1⟩
  rw [consume]
  dsimp only
  rw [if_neg hquit, if_neg hbreak, InputEvent.bytes]
  by_cases hback : e.type = .keyDown ∧ e.key = keyBackspace
  · have hb : (decide (e.type = .keyDown) && decide (e.key = keyBackspace)) = true := by simp [hback.1, hback.2]
    rw [hb, if_neg (fun h => absurd h.2.symm Bool.false_ne_true), if_pos rfl, if_pos hback]
    exact foldl_consumeByte_records true [8] hhold
  · have hb : (decide (e.type = .keyDown) && decide (e.key = keyBackspace)) = false := by
      rw [Bool.and_eq_false_iff, decide_eq_false_iff_not, decide_eq_false_iff_not]
      exact Decidable.not_and_iff_or_not.1 hback
    rw [hb, if_neg hback, if_neg Bool.false_ne_true]
    by_cases htext : e.type = .text
    · rw [if_neg (fun h => h.1 htext), if_pos htext]
      exact foldl_consumeByte_records false _ hhold
    · rw [if_pos ⟨htext, rfl⟩, if_neg htext]
      exact hhold

theorem turn_typed (s : Runtime) : s.turn.typing = s.typing ∧ s.turn.typed = s.typed := by
  rw [Runtime.turn]
  split
  · exact ⟨rfl, rfl⟩
  · split
    · exact ⟨rfl, rfl⟩
    · split
      · split <;> exact ⟨rfl, rfl⟩
      · split
        · exact ⟨rfl, rfl⟩
        · exact ⟨rfl, rfl⟩
        · split
          · split <;> exact ⟨rfl, rfl⟩
          · exact ⟨rfl, rfl⟩

/-- Along every run without a break the history has the lines as they are typed. -/
theorem run_records {ops : List Op} (hops : ∀ op ∈ ops, op.Plain) : Records (ops.foldl Runtime.step .init) (typedLines ops) := by
  have hrun : ∀ (s : Runtime) l, Records s l → Records (ops.foldl Runtime.step s) ((ops.flatMap Op.bytes).foldl typeLine l) := by
    induction ops with
    | nil => exact fun _ _ h => h
    | cons op ops ih =>
      intro s l h
      rw [List.flatMap_cons, List.foldl_append, List.foldl_cons]
      refine ih (fun o ho => hops o (List.mem_cons_of_mem _ ho)) _ _ ?_
      cases op with
      | event e => exact consume_records h (hops _ List.mem_cons_self)
      | turn => exact h.congr (turn_typed s).1 fun _ => by rw [Runtime.step, (turn_typed s).2]
      | readByte command =>
        refine h.congr ?_ fun _ => ?_
        all_goals
          rw [Runtime.step]
          split <;> rfl
  exact hrun _ _ ⟨rfl, fun _ hlt => absurd hlt (Nat.not_lt_zero _), rfl, fun _ _ => rfl⟩

/-! ## No line is partial -/

/-- A line that is still to be delivered: it is being delivered, or its end is in the queue. -/
def Runtime.Awaited (s : Runtime) (line : Nat) : Prop :=
  (s.lineReady = true ∧ s.ready.1 = line) ∨ ∃ byte, Enter byte ∧ ⟨some byte, line⟩ ∈ s.pending

/-- What is delivered of the lines typed along a run without a break: whole lines in their order, and a part of the next one; a line that
is neither delivered nor awaited was too long, had a byte that is not printable, or was queued or being typed when the queue overran. -/
theorem lines_whole (ops : List Op) (hops : ∀ op ∈ ops, op.Plain) :
    let s := ops.foldl Runtime.step .init
    let lines := (typedLines ops).1
    s.pending.length ≤ inputCapacity ∧
    (∃ part, s.returned = (s.delivered.flatMap fun d => submitted d.2 (lines[d.1]?.getD []) ++ [13]) ++ part ∧
      (s.lineReady = false → part = []) ∧
      (s.lineReady = true → part <+: submitted s.ready.2 (lines[s.ready.1]?.getD []) ∧ s.ready.1 < lines.length ∧
        ∀ d ∈ s.delivered, d.1 < s.ready.1)) ∧
    s.delivered.Pairwise (·.1 < ·.1) ∧ (∀ d ∈ s.delivered, d.1 < lines.length) ∧
    (∀ line, line < lines.length → (∃ command, (line, command) ∈ s.delivered) ∨ s.Awaited line ∨ (s.typed line).Lost) ∧
    (∀ command text, (submitted command text).map upperAscii = text.map upperAscii) := by
  intro s lines
  have hi : Intact s := run_intact hops
  have hr : Records s (typedLines ops) := run_records hops
  have hlength : lines.length = s.typing := hr.typing
  have hle := hi.reading_le
  have htext : ∀ line, line < s.reading → lines[line]?.getD [] = (s.typed line).text := by
    intro line hlt
    have hline : lines[line]? = some (s.typed line).text := hr.lines line (by omega)
    rw [hline]
    rfl
  refine ⟨hi.capacity, ⟨s.line.take s.linePosition, ?_, ?_, ?_⟩, hi.order.1, ?_, ?_, ?_⟩
  · rw [hi.returned, Runtime.output]
    congr 1
    refine List.flatMap_congr fun d hd => ?_
    rw [htext _ (hi.order.2 d hd)]
  · intro hready
    rw [hi.waiting hready, List.take_zero]
  · intro hready
    obtain ⟨hline, -, hlt, hbefore⟩ := hi.ready hready
    refine ⟨?_, by omega, hbefore⟩
    rw [htext _ hlt, ← hline]
    exact List.take_prefix _ _
  · intro d hd
    have := hi.order.2 d hd
    omega
  · intro line hlt
    by_cases hread : line < s.reading
    · rcases hi.resolved line hread with h | h | h
      · exact .inl h
      · exact .inr (.inl (.inl h))
      · exact .inr (.inr h)
    · obtain ⟨final, hf, -⟩ := hi.follows
      rcases hf.entered line (by omega) (by omega) with h | h
      · exact .inr (.inl (.inr h))
      · exact .inr (.inr (.inr (.inr h)))
  · intro command text
    rw [submitted]
    split
    · exact normalizeCommand_upper false false text
    · rfl

/-- A line is typed and read. -/
def typedAndRead : List Op :=
  [.event ⟨.text, 0, false, false, [72, 79, 0]⟩, .event ⟨.keyDown, keyBackspace, false, false, []⟩, .readByte false, .turn, .turn, .turn,
    .event ⟨.text, 0, false, false, [73, 10, 0]⟩, .turn, .turn, .turn, .readByte false, .turn, .readByte false, .turn]

theorem lines_whole_read : (typedAndRead.foldl Runtime.step .init).returned = [72, 73, 13] ∧ (typedLines typedAndRead).1 = [[72, 73]] ∧
    (typedAndRead.foldl Runtime.step .init).pending.length ≤ inputCapacity := by
  have hplain : ∀ op ∈ typedAndRead, op.Plain := by
    simp [typedAndRead, Op.Plain]
  exact ⟨by decide, by decide, (lines_whole typedAndRead hplain).1⟩

end Typeahead
end TabOS
