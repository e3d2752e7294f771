import Mathlib.Data.UInt
import Mathlib.Data.List.Basic
import Mathlib.Data.List.DropRight
import Mathlib.Data.List.Infix

/-!
# Fetched files

How `apps/netutils/fetch/main.c` receives a response: the header until its blank line, then the body up to the length that the header
gives or to the end of the stream. The body is checked against its length one chunk at a time, so a body that is longer than its length is
refused when a chunk crosses the length and saved when a chunk ends there.
-/

namespace TabOS
namespace Fetch

def bufferSize : Nat := 1024

def headerSize : Nat := 4096

/-- `SIZE_MAX` of the applications. -/
def sizeMax : Nat := 2 ^ 32 - 1

/-! ## The header -/

/-- `"\r\n"`. -/
def lineBreak : List UInt8 := [0x0D, 0x0A]

/-- Where a text is first found in bytes. -/
def find (text : List UInt8) : List UInt8 → Option Nat
  | [] => none
  | byte :: bytes => if text <+: byte :: bytes then some 0 else (find text bytes).map (· + 1)

/-- `body_offset`: the place behind the first blank line, or zero. -/
def bodyOffset (buffer : List UInt8) : Nat :=
  match find (lineBreak ++ lineBreak) buffer with
  | some index => index + 4
  | none => 0

/-- A byte of a name for `ascii_equal_ignore_case`. -/
def lowercase (byte : UInt8) : UInt8 := if byte ≥ 0x41 ∧ byte ≤ 0x5A then byte + 0x20 else byte

def asciiEqualIgnoreCase (value expected : List UInt8) : Prop := value.map lowercase = expected

instance (value expected : List UInt8) : Decidable (asciiEqualIgnoreCase value expected) := inferInstanceAs (Decidable (_ = _))

def isBlank (byte : UInt8) : Bool := byte = 0x20 ∨ byte = 0x09

def isDigit (byte : UInt8) : Prop := byte ≥ 0x30 ∧ byte ≤ 0x39

instance (byte : UInt8) : Decidable (isDigit byte) := inferInstanceAs (Decidable (_ ∧ _))

/-- The loop over the digits of a length. -/
def parseDigits : Nat → List UInt8 → Option Nat
  | result, [] => some result
  | result, byte :: bytes =>
    if isDigit byte then
      let digit := byte.toNat - 0x30
      if result > (sizeMax - digit) / 10 then none else parseDigits (result * 10 + digit) bytes
    else none

def parseContentLength (value : List UInt8) : Option Nat :=
  let trimmed := (value.dropWhile isBlank).rdropWhile isBlank
  if trimmed = [] then none else parseDigits 0 trimmed

/-- `"transfer-encoding"`. -/
def transferEncoding : List UInt8 :=
  [0x74, 0x72, 0x61, 0x6E, 0x73, 0x66, 0x65, 0x72, 0x2D, 0x65, 0x6E, 0x63, 0x6F, 0x64, 0x69, 0x6E, 0x67]

/-- `"content-length"`. -/
def contentLength : List UInt8 := [0x63, 0x6F, 0x6E, 0x74, 0x65, 0x6E, 0x74, 0x2D, 0x6C, 0x65, 0x6E, 0x67, 0x74, 0x68]

/-- The loop over the fields of a header, each of which takes two bytes or more: the length of the response, if it has one. -/
def parseFields : Nat → List UInt8 → Option Nat → Option (Option Nat)
  | 0, _, _ => none
  | fuel + 1, header, response => do
    let lineEnd ← find lineBreak header
    if lineEnd = 0 then pure response
    else
      let line := header.take lineEnd
      let colon ← find [0x3A] line
      let name := line.take colon
      let value := line.drop (colon + 1)
      if asciiEqualIgnoreCase name transferEncoding then none
      else if asciiEqualIgnoreCase name contentLength then
        let parsed ← parseContentLength value
        if response ≠ none ∧ response ≠ some parsed then none else parseFields fuel (header.drop (lineEnd + 2)) (some parsed)
      else parseFields fuel (header.drop (lineEnd + 2)) response

/-- `"HTTP/1."`. -/
def http : List UInt8 := [0x48, 0x54, 0x54, 0x50, 0x2F, 0x31, 0x2E]

/-- The status of a response whose first line is well formed. -/
def parseStatus (line : List UInt8) : Option Nat :=
  match line.drop 7 with
  | minor :: blank :: hundreds :: tens :: ones :: rest =>
    if http <+: line ∧ (minor = 0x30 ∨ minor = 0x31) ∧ blank = 0x20 ∧ isDigit hundreds ∧ isDigit tens ∧ isDigit ones ∧
        (rest = [] ∨ rest.head? = some 0x20) then
      some ((hundreds.toNat - 0x30) * 100 + (tens.toNat - 0x30) * 10 + (ones.toNat - 0x30))
    else none
  | _ => none

/-- `parse_response_header`: the length of the response, if it has one. -/
def parseResponseHeader (header : List UInt8) : Option (Option Nat) := do
  let lineEnd ← find lineBreak header
  let status ← parseStatus (header.take lineEnd)
  if status < 200 ∨ status ≥ 300 then none else parseFields header.length (header.drop (lineEnd + 2)) none

/-! ## The connection -/

/-- What a server has yet to send before it closes, and how many bytes the next calls of `tabos_tls_receive` give. -/
structure Connection where
  stream : List UInt8
  sizes : Nat → Nat

/-- How many bytes a call gives: one or more, and no more than are asked for. -/
def Connection.size (c : Connection) (capacity : Nat) : Nat := max 1 (min (c.sizes 0) capacity)

/-- `tabos_tls_receive`; it gives no bytes when and only when the server has closed. -/
def Connection.receive (c : Connection) (capacity : Nat) : List UInt8 × Connection :=
  (c.stream.take (c.size capacity), ⟨c.stream.drop (c.size capacity), fun round => c.sizes (round + 1)⟩)

theorem Connection.size_pos (c : Connection) (capacity : Nat) : 0 < c.size capacity := Nat.le_max_left 1 _

theorem Connection.receive_length {c : Connection} (h : c.stream ≠ []) (capacity : Nat) :
    (c.receive capacity).2.stream.length < c.stream.length := by
  have hpos := c.size_pos capacity
  have hlength := List.length_pos_iff.2 h
  unfold receive
  rw [List.length_drop]
  omega

/-- The loop over the header: the offset of the body, and what was received. -/
def receiveHeader (c : Connection) (header : List UInt8) : Option (Nat × List UInt8 × Connection) :=
  if header.length < headerSize then
    if _h : c.stream = [] then none
    else
      let capacity := min (headerSize - header.length) bufferSize
      let received := (c.receive capacity).1
      let offset := bodyOffset (header ++ received)
      if offset = 0 then receiveHeader (c.receive capacity).2 (header ++ received)
      else some (offset, header ++ received, (c.receive capacity).2)
  else none
termination_by c.stream.length
decreasing_by exact Connection.receive_length _h _

/-- What keeps a response from being saved. -/
inductive FetchError where
  | header
  | exceedsContentLength
  | truncated
  deriving DecidableEq

/-- `write_body`, with what was saved before. -/
def writeBody (response : Option Nat) (saved data : List UInt8) : Option (List UInt8) :=
  if ∃ length ∈ response, saved.length > length ∨ data.length > length - saved.length then none else some (saved ++ data)

/-- The loop over the body and the checks behind it. -/
def receiveBody (response : Option Nat) (c : Connection) (saved : List UInt8) : Except FetchError (List UInt8) :=
  if _h : (∀ length ∈ response, saved.length < length) ∧ c.stream ≠ [] then
    match writeBody response saved (c.receive bufferSize).1 with
    | some saved => receiveBody response (c.receive bufferSize).2 saved
    | none => .error .exceedsContentLength
  else if ∃ length ∈ response, saved.length ≠ length then .error .truncated
  else .ok saved
termination_by c.stream.length
decreasing_by exact Connection.receive_length _h.2 _

/-- What `main` makes of a response: what it saves. -/
def fetch (c : Connection) : Except FetchError (List UInt8) :=
  match receiveHeader c [] with
  | none => .error .header
  | some (offset, header, c) =>
    match parseResponseHeader (header.take offset) with
    | none => .error .header
    | some response =>
      match writeBody response [] (header.drop offset) with
      | none => .error .exceedsContentLength
      | some saved => receiveBody response c saved

/-! ## Where texts are found -/

theorem find_le {text bytes : List UInt8} {index : Nat} (h : find text bytes = some index) : index + text.length ≤ bytes.length := by
  induction bytes generalizing index with
  | nil => cases h
  | cons byte bytes ih =>
    unfold find at h
    split at h
    · rename_i htext
      obtain rfl := Option.some.inj h
      have hle := htext.length_le
      omega
    · obtain ⟨place, hplace, rfl⟩ := Option.map_eq_some_iff.1 h
      have hle := ih hplace
      rw [List.length_cons]
      omega

theorem find_of_start {text part bytes : List UInt8} (hpart : part <+: bytes) {index : Nat} (h : find text part = some index) :
    find text bytes = some index := by
  induction part generalizing bytes index with
  | nil => cases h
  | cons byte part ih =>
    have hle := find_le h
    obtain ⟨rest, rfl⟩ := hpart
    rw [List.cons_append]
    unfold find at h ⊢
    by_cases htext : text <+: byte :: part
    · rw [if_pos htext] at h
      have hlonger : text <+: byte :: (part ++ rest) := htext.trans (List.prefix_append (byte :: part) rest)
      rw [if_pos hlonger]
      exact h
    · rw [if_neg htext] at h
      obtain ⟨place, hplace, rfl⟩ := Option.map_eq_some_iff.1 h
      have hlonger : ¬text <+: byte :: (part ++ rest) := fun hlong =>
        htext (List.prefix_of_prefix_length_le hlong (List.prefix_append (byte :: part) rest) (by omega))
      rw [if_neg hlonger, ih (List.prefix_append part rest) hplace]
      rfl

/-- What is found in bytes is found in every part of them that holds it. -/
theorem find_in_start {text part bytes : List UInt8} (htext : text ≠ []) (hpart : part <+: bytes) {index : Nat}
    (h : find text bytes = some index) (hle : index + text.length ≤ part.length) : find text part = some index := by
  have hlength := List.length_pos_iff.2 htext
  induction part generalizing bytes index with
  | nil =>
    rw [List.length_nil] at hle
    omega
  | cons byte part ih =>
    obtain ⟨rest, rfl⟩ := hpart
    rw [List.cons_append] at h
    unfold find at h ⊢
    by_cases hhere : text <+: byte :: (part ++ rest)
    · rw [if_pos hhere] at h
      rw [if_pos (List.prefix_of_prefix_length_le hhere (List.prefix_append (byte :: part) rest) (by omega))]
      exact h
    · rw [if_neg hhere] at h
      obtain ⟨place, hplace, rfl⟩ := Option.map_eq_some_iff.1 h
      rw [List.length_cons] at hle
      have hrest := ih (List.prefix_append part rest) hplace (by omega)
      rw [if_neg fun hpart => hhere (hpart.trans (List.prefix_append (byte :: part) rest)), hrest]
      rfl

theorem bodyOffset_eq_zero {buffer : List UInt8} : bodyOffset buffer = 0 ↔ find (lineBreak ++ lineBreak) buffer = none := by
  unfold bodyOffset
  split
  · rename_i h
    exact iff_of_false (Nat.succ_ne_zero _) fun hnone => nomatch h.symm.trans hnone
  · rename_i h
    exact iff_of_true rfl h

theorem bodyOffset_of_find {buffer : List UInt8} {index : Nat} (h : find (lineBreak ++ lineBreak) buffer = some index) :
    bodyOffset buffer = index + 4 := by
  unfold bodyOffset
  rw [h]

theorem exists_find {buffer : List UInt8} (h : bodyOffset buffer ≠ 0) : ∃ index, find (lineBreak ++ lineBreak) buffer = some index :=
  Option.ne_none_iff_exists'.1 fun hnone => h (bodyOffset_eq_zero.2 hnone)

theorem bodyOffset_le (buffer : List UInt8) : bodyOffset buffer ≤ buffer.length := by
  by_cases h : bodyOffset buffer = 0
  · rw [h]
    exact Nat.zero_le _
  · obtain ⟨index, hfind⟩ := exists_find h
    rw [bodyOffset_of_find hfind]
    exact find_le hfind

/-- The blank line that ends a part of a header ends the header. -/
theorem bodyOffset_of_start {part buffer : List UInt8} (hpart : part <+: buffer) (h : bodyOffset part ≠ 0) :
    bodyOffset buffer = bodyOffset part := by
  obtain ⟨index, hfind⟩ := exists_find h
  rw [bodyOffset_of_find hfind, bodyOffset_of_find (find_of_start hpart hfind)]

theorem bodyOffset_in_prefix {part buffer : List UInt8} (hpart : part <+: buffer) (h : bodyOffset buffer ≠ 0)
    (hle : bodyOffset buffer ≤ part.length) : bodyOffset part = bodyOffset buffer := by
  obtain ⟨index, hfind⟩ := exists_find h
  rw [bodyOffset_of_find hfind] at hle ⊢
  exact bodyOffset_of_find (find_in_start (List.cons_ne_nil _ _) hpart hfind hle)

/-! ## The header of a stream -/

/-- The offset of the body of a stream. -/
def streamOffset (stream : List UInt8) : Nat := bodyOffset (stream.take headerSize)

theorem Connection.size_le (c : Connection) {capacity : Nat} (h : 0 < capacity) : c.size capacity ≤ capacity := by
  unfold size
  omega

/-- A connection that has given the first bytes of a stream. -/
def Gave (stream : List UInt8) (c : Connection) (given : List UInt8) : Prop := given ++ c.stream = stream

theorem Gave.take {stream : List UInt8} {c : Connection} {given : List UInt8} (h : Gave stream c given) :
    given = stream.take given.length := by
  rw [← show given ++ c.stream = stream from h, List.take_left]

theorem Gave.drop {stream : List UInt8} {c : Connection} {given : List UInt8} (h : Gave stream c given) :
    c.stream = stream.drop given.length := by
  rw [← show given ++ c.stream = stream from h, List.drop_left]

theorem Gave.receive {stream : List UInt8} {c : Connection} {given : List UInt8} (h : Gave stream c given) (capacity : Nat) :
    Gave stream (c.receive capacity).2 (given ++ (c.receive capacity).1) := by
  unfold Gave Connection.receive
  rw [List.append_assoc, List.take_append_drop]
  exact h

theorem Gave.prefix_of_le {stream : List UInt8} {c : Connection} {given : List UInt8} (h : Gave stream c given)
    (hle : given.length ≤ headerSize) : given <+: stream.take headerSize := by
  have hgiven : given <+: stream := ⟨c.stream, h⟩
  rw [List.prefix_take_iff]
  exact ⟨hgiven, hle⟩

theorem receive_length_le (c : Connection) {capacity : Nat} (h : 0 < capacity) : (c.receive capacity).1.length ≤ capacity := by
  have hsize := c.size_le h
  unfold Connection.receive
  rw [List.length_take]
  omega

/-- A round of the loop over the header. -/
theorem receiveHeader_round {stream : List UInt8} {c : Connection} {given : List UInt8} (h : Gave stream c given)
    (hlt : given.length < headerSize) (hstream : c.stream ≠ []) :
    ∃ received c', Gave stream c' (given ++ received) ∧ (given ++ received).length ≤ headerSize ∧ c'.stream.length < c.stream.length ∧
      receiveHeader c given = if bodyOffset (given ++ received) = 0 then receiveHeader c' (given ++ received)
        else some (bodyOffset (given ++ received), given ++ received, c') := by
  have hcapacity : 0 < min (headerSize - given.length) bufferSize := by
    unfold bufferSize
    omega
  have hreceived := receive_length_le c hcapacity
  refine ⟨(c.receive (min (headerSize - given.length) bufferSize)).1, (c.receive (min (headerSize - given.length) bufferSize)).2,
    h.receive _, ?_, Connection.receive_length hstream _, ?_⟩
  · rw [List.length_append]
    omega
  · rw [receiveHeader, if_pos hlt, dif_neg hstream]

/-- The loop over the header finds the offset of the stream, however it arrives. -/
theorem receiveHeader_spec {stream : List UInt8} {c : Connection} {given : List UInt8} (h : Gave stream c given)
    (hle : given.length ≤ headerSize) (hzero : bodyOffset given = 0) :
    (streamOffset stream = 0 → receiveHeader c given = none) ∧
      (streamOffset stream ≠ 0 → ∃ count sizes, streamOffset stream ≤ count ∧ count ≤ headerSize ∧
        receiveHeader c given = some (streamOffset stream, stream.take count, ⟨stream.drop count, sizes⟩)) := by
  induction hlength : c.stream.length using Nat.strong_induction_on generalizing c given with
  | _ length ih =>
    have hended (heq : given = stream.take headerSize) : streamOffset stream = 0 := (congrArg bodyOffset heq).symm.trans hzero
    by_cases hlt : given.length < headerSize
    · by_cases hstream : c.stream = []
      · have heq : given = stream.take headerSize := by
          rw [← show given ++ c.stream = stream from h, hstream, List.append_nil, List.take_of_length_le hle]
        rw [receiveHeader, if_pos hlt, dif_pos hstream]
        exact ⟨fun _ => rfl, fun hne => absurd (hended heq) hne⟩
      · obtain ⟨received, c', hreceive, hle', hshorter, hround⟩ := receiveHeader_round h hlt hstream
        rw [hround]
        by_cases hoffset : bodyOffset (given ++ received) = 0
        · rw [if_pos hoffset]
          exact ih _ (hlength ▸ hshorter) hreceive hle' hoffset rfl
        · rw [if_neg hoffset]
          have heq : streamOffset stream = bodyOffset (given ++ received) := bodyOffset_of_start (hreceive.prefix_of_le hle') hoffset
          refine ⟨fun hnone => absurd (heq.symm.trans hnone) hoffset, fun _ => ?_⟩
          refine ⟨(given ++ received).length, c'.sizes, heq.trans_le (bodyOffset_le _), hle', ?_⟩
          rw [← hreceive.take, ← hreceive.drop, heq]
    · have hfull : given.length = headerSize := by omega
      rw [receiveHeader, if_neg hlt]
      exact ⟨fun _ => rfl, fun hne => absurd (hended (hfull ▸ h.take)) hne⟩

/-! ## The body of a stream -/

theorem writeBody_of_le {response : Option Nat} {saved data : List UInt8} (h : ∀ length ∈ response, saved.length + data.length ≤ length) :
    writeBody response saved data = some (saved ++ data) := by
  refine if_neg ?_
  rintro ⟨length, hlength, hmore⟩
  have hle := h length hlength
  omega

/-- A body that is no longer than its length is saved when it is all there. -/
theorem receiveBody_of_le {response : Option Nat} {c : Connection} {saved : List UInt8}
    (h : ∀ length ∈ response, saved.length + c.stream.length ≤ length) :
    receiveBody response c saved =
      if ∃ length ∈ response, saved.length + c.stream.length ≠ length then .error .truncated else .ok (saved ++ c.stream) := by
  induction hlength : c.stream.length using Nat.strong_induction_on generalizing c saved with
  | _ length ih =>
    rw [receiveBody]
    by_cases hmore : (∀ length ∈ response, saved.length < length) ∧ c.stream ≠ []
    · have hshorter := Connection.receive_length hmore.2 bufferSize
      have hstream : (c.receive bufferSize).1 ++ (c.receive bufferSize).2.stream = c.stream := List.take_append_drop _ c.stream
      have hlengths := congrArg List.length hstream
      rw [List.length_append] at hlengths
      have hwrite : writeBody response saved (c.receive bufferSize).1 = some (saved ++ (c.receive bufferSize).1) :=
        writeBody_of_le fun length hmem => by
          have hle := h length hmem
          omega
      have hsum : (saved ++ (c.receive bufferSize).1).length + (c.receive bufferSize).2.stream.length =
          saved.length + c.stream.length := by
        rw [List.length_append]
        omega
      have hrest := @ih _ (hlength ▸ hshorter) (c.receive bufferSize).2 (saved ++ (c.receive bufferSize).1)
        (fun length hmem => hsum.trans_le (h length hmem)) rfl
      rw [dif_pos hmore, hwrite]
      dsimp only
      rw [hrest, hsum, List.append_assoc, hstream, hlength]
    · have hstream : c.stream = [] := by
        by_contra hstream
        refine hmore ⟨fun length hmem => ?_, hstream⟩
        have hle := h length hmem
        have hpos := List.length_pos_iff.2 hstream
        omega
      rw [dif_neg hmore, ← hlength, hstream, List.append_nil]
      rfl

/-- A stream whose body is longer than its length, where a chunk may both end there and cross it. -/
def Exceeds (stream : List UInt8) : Prop :=
  ∃ length, parseResponseHeader (stream.take (streamOffset stream)) = some (some length) ∧
    length < (stream.drop (streamOffset stream)).length ∧ ¬(length = 0 ∧ streamOffset stream = headerSize)

theorem streamOffset_le (stream : List UInt8) : streamOffset stream ≤ headerSize ∧ streamOffset stream ≤ stream.length := by
  have hle := bodyOffset_le (stream.take headerSize)
  rw [List.length_take] at hle
  exact ⟨hle.trans (Nat.min_le_left _ _), hle.trans (Nat.min_le_right _ _)⟩

theorem take_take_of_le {stream : List UInt8} {offset count : Nat} (h : offset ≤ count) :
    (stream.take count).take offset = stream.take offset := by
  rw [List.take_take, Nat.min_eq_left h]

theorem drop_take_append (stream : List UInt8) {offset count : Nat} (h : offset ≤ count) :
    (stream.take count).drop offset ++ stream.drop count = stream.drop offset := by
  rw [List.drop_take, ← Nat.add_sub_cancel' h, ← List.drop_drop, Nat.add_sub_cancel_left, List.take_append_drop]

/-- What `fetch` does with a stream that has a header. -/
theorem fetch_of_header {stream : List UInt8} (hoffset : streamOffset stream ≠ 0) {response : Option Nat}
    (hparse : parseResponseHeader (stream.take (streamOffset stream)) = some response) (sizes : Nat → Nat) :
    ∃ count sizes', streamOffset stream ≤ count ∧ count ≤ headerSize ∧ fetch ⟨stream, sizes⟩ =
      match writeBody response [] ((stream.take count).drop (streamOffset stream)) with
      | none => .error .exceedsContentLength
      | some saved => receiveBody response ⟨stream.drop count, sizes'⟩ saved := by
  obtain ⟨-, hspec⟩ := @receiveHeader_spec stream ⟨stream, sizes⟩ [] rfl (Nat.zero_le _) rfl
  obtain ⟨count, sizes', hle, hcount, hreceive⟩ := hspec hoffset
  refine ⟨count, sizes', hle, hcount, ?_⟩
  unfold fetch
  rw [hreceive]
  dsimp only
  rw [take_take_of_le hle, hparse]

/-- A stream whose body is no longer than its length. -/
theorem fetch_of_le {stream : List UInt8} (hoffset : streamOffset stream ≠ 0) {response : Option Nat}
    (hparse : parseResponseHeader (stream.take (streamOffset stream)) = some response)
    (h : ∀ length ∈ response, (stream.drop (streamOffset stream)).length ≤ length) (sizes : Nat → Nat) :
    fetch ⟨stream, sizes⟩ =
      if ∃ length ∈ response, (stream.drop (streamOffset stream)).length ≠ length then .error .truncated
      else .ok (stream.drop (streamOffset stream)) := by
  obtain ⟨count, sizes', hle, -, hfetch⟩ := fetch_of_header hoffset hparse sizes
  have hbody := drop_take_append stream hle
  have hlengths := congrArg List.length hbody
  rw [List.length_append] at hlengths
  have hwrite : writeBody response [] ((stream.take count).drop (streamOffset stream)) =
      some ((stream.take count).drop (streamOffset stream)) :=
    writeBody_of_le fun length hmem => by
      have hbound := h length hmem
      rw [List.length_nil]
      omega
  rw [hfetch, hwrite]
  dsimp only
  rw [receiveBody_of_le fun length hmem => hlengths.trans_le (h length hmem)]
  dsimp only
  rw [hlengths, hbody]

/-- A header that fills its array and a response without bytes. -/
theorem fetch_of_full {stream : List UInt8} (hfull : streamOffset stream = headerSize)
    (hparse : parseResponseHeader (stream.take (streamOffset stream)) = some (some 0)) (sizes : Nat → Nat) :
    fetch ⟨stream, sizes⟩ = .ok [] := by
  have hoffset : streamOffset stream ≠ 0 := by
    rw [hfull]
    decide
  obtain ⟨count, sizes', hle, hcount, hfetch⟩ := fetch_of_header hoffset hparse sizes
  have hnone : (stream.take count).drop (streamOffset stream) = [] := by
    refine List.drop_of_length_le ?_
    rw [List.length_take, hfull]
    exact (Nat.min_le_left _ _).trans hcount
  have hwrite : writeBody (some 0) [] [] = some [] := rfl
  rw [hfetch, hnone, hwrite]
  dsimp only
  rw [receiveBody, dif_neg fun h => Nat.lt_irrefl 0 (h.1 0 rfl)]
  exact if_neg fun ⟨length, hmem, hne⟩ => hne (Option.some.inj hmem)

/-- A stream that does not exceed its length comes to the same however it arrives. -/
theorem exists_fetch_of_not_exceeds {stream : List UInt8} (h : ¬Exceeds stream) : ∃ result, ∀ sizes, fetch ⟨stream, sizes⟩ = result := by
  by_cases hoffset : streamOffset stream = 0
  · refine ⟨.error .header, fun sizes => ?_⟩
    obtain ⟨hnone, -⟩ := @receiveHeader_spec stream ⟨stream, sizes⟩ [] rfl (Nat.zero_le _) rfl
    unfold fetch
    rw [hnone hoffset]
  rcases hparse : parseResponseHeader (stream.take (streamOffset stream)) with - | response
  · refine ⟨.error .header, fun sizes => ?_⟩
    obtain ⟨-, hspec⟩ := @receiveHeader_spec stream ⟨stream, sizes⟩ [] rfl (Nat.zero_le _) rfl
    obtain ⟨count, sizes', hle, -, hreceive⟩ := hspec hoffset
    unfold fetch
    rw [hreceive]
    dsimp only
    rw [take_take_of_le hle, hparse]
  by_cases hle : ∀ length ∈ response, (stream.drop (streamOffset stream)).length ≤ length
  · exact ⟨_, fetch_of_le hoffset hparse hle⟩
  · obtain ⟨length, hmem, hlt⟩ : ∃ length ∈ response, length < (stream.drop (streamOffset stream)).length := by
      by_contra hnone
      exact hle fun length hmem => Nat.not_lt.1 fun hlt => hnone ⟨length, hmem, hlt⟩
    obtain rfl : response = some length := hmem
    obtain ⟨rfl, hfull⟩ : length = 0 ∧ streamOffset stream = headerSize := by
      by_contra hnot
      exact h ⟨length, hparse, hlt, hnot⟩
    exact ⟨_, fetch_of_full hfull hparse⟩

/-! ## Chunks of one byte -/

/-- Some chunks of one byte and then chunks of two. -/
def onesThenTwos (ones : Nat) : Nat → Nat := fun round => if round < ones then 1 else 2

theorem onesThenTwos_next (ones : Nat) : (fun round => onesThenTwos (ones + 1) (round + 1)) = onesThenTwos ones := by
  funext round
  unfold onesThenTwos
  by_cases h : round < ones
  · rw [if_pos h, if_pos (Nat.succ_lt_succ h)]
  · rw [if_neg h, if_neg fun hlt => h (Nat.lt_of_succ_lt_succ hlt)]

theorem receive_one (stream : List UInt8) (ones : Nat) {capacity : Nat} (hcapacity : 0 < capacity) :
    Connection.receive ⟨stream, onesThenTwos (ones + 1)⟩ capacity = (stream.take 1, ⟨stream.drop 1, onesThenTwos ones⟩) := by
  have hsize : Connection.size ⟨stream, onesThenTwos (ones + 1)⟩ capacity = 1 := by
    have hone : onesThenTwos (ones + 1) 0 = 1 := if_pos (Nat.succ_pos ones)
    unfold Connection.size
    dsimp only
    rw [hone]
    omega
  unfold Connection.receive
  rw [hsize]
  dsimp only
  rw [onesThenTwos_next]

theorem receive_two (stream : List UInt8) {capacity : Nat} (hcapacity : 2 ≤ capacity) :
    ∃ sizes, Connection.receive ⟨stream, onesThenTwos 0⟩ capacity = (stream.take 2, ⟨stream.drop 2, sizes⟩) := by
  have hsize : Connection.size ⟨stream, onesThenTwos 0⟩ capacity = 2 := by
    have htwo : onesThenTwos 0 0 = 2 := rfl
    unfold Connection.size
    dsimp only
    rw [htwo]
    omega
  unfold Connection.receive
  rw [hsize]
  exact ⟨_, rfl⟩

theorem bodyOffset_take (stream : List UInt8) {count : Nat} (hcount : count ≤ headerSize) :
    bodyOffset (stream.take count) = if count < streamOffset stream then 0 else streamOffset stream := by
  have hprefix : stream.take count <+: stream.take headerSize := List.take_prefix_take_left hcount
  by_cases hlt : count < streamOffset stream
  · rw [if_pos hlt]
    by_contra hne
    have heq : streamOffset stream = bodyOffset (stream.take count) := bodyOffset_of_start hprefix hne
    have hle := (bodyOffset_le (stream.take count)).trans (List.length_take_le count stream)
    omega
  · rw [if_neg hlt]
    by_cases hzero : streamOffset stream = 0
    · rw [hzero]
      by_contra hne
      exact hne ((bodyOffset_of_start hprefix hne).symm.trans hzero)
    · refine bodyOffset_in_prefix hprefix hzero ?_
      have hle := (streamOffset_le stream).2
      rw [List.length_take]
      exact Nat.le_min.2 ⟨Nat.not_lt.1 hlt, hle⟩

/-- A round of the loop over the header that receives some bytes. -/
theorem receiveHeader_chunk {stream : List UInt8} {place count : Nat} (hplace : place < streamOffset stream)
    (hcount : place + count ≤ headerSize) {sizes sizes' : Nat → Nat}
    (hreceive : Connection.receive ⟨stream.drop place, sizes⟩ (min (headerSize - place) bufferSize) =
      ((stream.drop place).take count, ⟨(stream.drop place).drop count, sizes'⟩)) :
    receiveHeader ⟨stream.drop place, sizes⟩ (stream.take place) =
      if place + count < streamOffset stream then
        receiveHeader ⟨stream.drop (place + count), sizes'⟩ (stream.take (place + count))
      else some (streamOffset stream, stream.take (place + count), ⟨stream.drop (place + count), sizes'⟩) := by
  obtain ⟨hheader, hlength⟩ := streamOffset_le stream
  have htake : (stream.take place).length = place := List.length_take_of_le (by omega)
  have hdrop : stream.drop place ≠ [] := fun h => absurd (List.drop_eq_nil_iff.1 h) (by omega)
  have happend : stream.take place ++ (stream.drop place).take count = stream.take (place + count) := List.take_add.symm
  rw [receiveHeader, htake, if_pos (by omega), dif_neg hdrop]
  dsimp only
  rw [hreceive]
  dsimp only
  rw [happend, List.drop_drop, bodyOffset_take stream hcount]
  by_cases hlt : place + count < streamOffset stream
  · rw [if_pos hlt, if_pos hlt, if_pos rfl]
  · rw [if_neg hlt, if_neg hlt, if_neg (by omega)]

/-- The header up to some place inside it, one byte at a time. -/
theorem receiveHeader_ones {stream : List UInt8} {place : Nat} (hplace : place < streamOffset stream) (ones : Nat) :
    receiveHeader ⟨stream, onesThenTwos (ones + place)⟩ [] =
      receiveHeader ⟨stream.drop place, onesThenTwos ones⟩ (stream.take place) := by
  induction place generalizing ones with
  | zero => rfl
  | succ place ih =>
    obtain ⟨hheader, -⟩ := streamOffset_le stream
    have hcapacity : 0 < min (headerSize - place) bufferSize := by
      unfold bufferSize
      omega
    have hone := receive_one (stream.drop place) ones hcapacity
    have hprevious := ih (Nat.lt_of_succ_lt hplace) (ones + 1)
    rw [show ones + (place + 1) = ones + 1 + place from by omega, hprevious,
      receiveHeader_chunk (Nat.lt_of_succ_lt hplace) (by omega) hone, if_pos hplace]

/-- The header with a last chunk of one byte. -/
theorem receiveHeader_exact {stream : List UInt8} (hoffset : streamOffset stream ≠ 0) (ones : Nat) :
    receiveHeader ⟨stream, onesThenTwos (ones + streamOffset stream)⟩ [] =
      some (streamOffset stream, stream.take (streamOffset stream), ⟨stream.drop (streamOffset stream), onesThenTwos ones⟩) := by
  obtain ⟨place, hplace⟩ := Nat.exists_eq_add_one_of_ne_zero hoffset
  obtain ⟨hheader, -⟩ := streamOffset_le stream
  have hcapacity : 0 < min (headerSize - place) bufferSize := by
    unfold bufferSize
    omega
  have hlt : place < streamOffset stream := by omega
  have hones := receiveHeader_ones hlt (ones + 1)
  have hchunk := receiveHeader_chunk hlt (by omega) (receive_one (stream.drop place) ones hcapacity)
  rw [if_neg (by omega), ← hplace] at hchunk
  rw [show ones + streamOffset stream = ones + 1 + place from by omega, hones, hchunk]

/-- The header with a last chunk of two bytes, the second of them of the body. -/
theorem receiveHeader_over {stream : List UInt8} (hoffset : streamOffset stream ≠ 0) (hlt : streamOffset stream < headerSize) :
    ∃ sizes, receiveHeader ⟨stream, onesThenTwos (streamOffset stream - 1)⟩ [] =
      some (streamOffset stream, stream.take (streamOffset stream + 1), ⟨stream.drop (streamOffset stream + 1), sizes⟩) := by
  obtain ⟨place, hplace⟩ := Nat.exists_eq_add_one_of_ne_zero hoffset
  have hcapacity : 2 ≤ min (headerSize - place) bufferSize := by
    unfold bufferSize
    omega
  have hinside : place < streamOffset stream := by omega
  have hones := receiveHeader_ones hinside 0
  obtain ⟨sizes, htwo⟩ := receive_two (stream.drop place) hcapacity
  have hchunk := receiveHeader_chunk hinside (by omega) htwo
  rw [if_neg (by omega), show place + 2 = streamOffset stream + 1 from by omega] at hchunk
  refine ⟨sizes, ?_⟩
  rw [show streamOffset stream - 1 = 0 + place from by omega, hones, hchunk]

/-- A body of which one byte at a time is received up to its length. -/
theorem receiveBody_exact {length ones : Nat} {body saved : List UInt8} (hones : saved.length + ones = length)
    (hbody : ones ≤ body.length) :
    receiveBody (some length) ⟨body, onesThenTwos ones⟩ saved = .ok (saved ++ body.take ones) := by
  induction ones generalizing body saved with
  | zero =>
    rw [receiveBody, dif_neg fun h => absurd (h.1 length rfl) (by omega), List.take_zero, List.append_nil]
    exact if_neg fun ⟨other, hmem, hne⟩ => hne (by obtain rfl := Option.some.inj hmem; omega)
  | succ ones ih =>
    have hne : body ≠ [] := List.ne_nil_of_length_pos (by omega)
    have hreceive := receive_one body ones (show 0 < bufferSize from by decide)
    have hlength : (body.take 1).length = 1 := List.length_take_of_le (by omega)
    have hmore : (∀ other ∈ some length, saved.length < other) ∧ body ≠ [] :=
      ⟨fun other hmem => by obtain rfl := Option.some.inj hmem; omega, hne⟩
    have hwrite : writeBody (some length) saved (body.take 1) = some (saved ++ body.take 1) :=
      writeBody_of_le fun other hmem => by obtain rfl := Option.some.inj hmem; omega
    rw [receiveBody, dif_pos hmore, hreceive]
    dsimp only
    rw [hwrite]
    dsimp only
    rw [ih (by rw [List.length_append]; omega) (by rw [List.length_drop]; omega), List.append_assoc, Nat.add_comm ones 1, List.take_add]

/-- A body of which a chunk of two bytes crosses its length. -/
theorem receiveBody_over {length ones : Nat} {body saved : List UInt8} (hones : saved.length + ones + 1 = length)
    (hbody : ones + 2 ≤ body.length) :
    receiveBody (some length) ⟨body, onesThenTwos ones⟩ saved = .error .exceedsContentLength := by
  have hne : body ≠ [] := List.ne_nil_of_length_pos (by omega)
  have hmore : (∀ other ∈ some length, saved.length < other) ∧ body ≠ [] :=
    ⟨fun other hmem => by obtain rfl := Option.some.inj hmem; omega, hne⟩
  induction ones generalizing body saved with
  | zero =>
    obtain ⟨sizes, hreceive⟩ := receive_two body (show 2 ≤ bufferSize from by decide)
    have hlength : (body.take 2).length = 2 := List.length_take_of_le (by omega)
    have hwrite : writeBody (some length) saved (body.take 2) = none := if_pos ⟨length, rfl, .inr (by omega)⟩
    rw [receiveBody, dif_pos hmore, hreceive]
    dsimp only
    rw [hwrite]
  | succ ones ih =>
    have hreceive := receive_one body ones (show 0 < bufferSize from by decide)
    have hlength : (body.take 1).length = 1 := List.length_take_of_le (by omega)
    have hwrite : writeBody (some length) saved (body.take 1) = some (saved ++ body.take 1) :=
      writeBody_of_le fun other hmem => by obtain rfl := Option.some.inj hmem; omega
    have hnext : (body.drop 1).length = body.length - 1 := List.length_drop
    have hne' : body.drop 1 ≠ [] := List.ne_nil_of_length_pos (by omega)
    have happend : (saved ++ body.take 1).length = saved.length + 1 := by rw [List.length_append, hlength]
    rw [receiveBody, dif_pos hmore, hreceive]
    dsimp only
    rw [hwrite]
    dsimp only
    exact ih (by omega) (by omega) hne' ⟨fun other hmem => by obtain rfl := Option.some.inj hmem; omega, hne'⟩

/-- A stream that exceeds its length comes to different things. -/
theorem exists_fetch_of_exceeds {stream : List UInt8} (h : Exceeds stream) :
    ∃ sizes sizes' saved, fetch ⟨stream, sizes⟩ = .ok saved ∧ fetch ⟨stream, sizes'⟩ = .error .exceedsContentLength := by
  obtain ⟨length, hparse, hlt, hnot⟩ := h
  have hoffset : streamOffset stream ≠ 0 := by
    intro hzero
    rw [hzero] at hparse
    cases hparse
  have hdrop : (stream.drop (streamOffset stream)).length = stream.length - streamOffset stream := List.length_drop
  have hexact (ones : Nat) : fetch ⟨stream, onesThenTwos (ones + streamOffset stream)⟩ =
      receiveBody (some length) ⟨stream.drop (streamOffset stream), onesThenTwos ones⟩ [] := by
    have hnone : (stream.take (streamOffset stream)).drop (streamOffset stream) = [] :=
      List.drop_of_length_le (List.length_take_le _ _)
    have hwrite : writeBody (some length) [] [] = some [] := writeBody_of_le fun other _ => Nat.zero_le other
    unfold fetch
    rw [receiveHeader_exact hoffset ones]
    dsimp only
    rw [take_take_of_le (Nat.le_refl _), hparse]
    dsimp only
    rw [hnone, hwrite]
  have hsaved := (hexact length).trans (@receiveBody_exact length length _ [] (Nat.zero_add length) hlt.le)
  rcases length with - | length
  · obtain ⟨hheader, -⟩ := streamOffset_le stream
    have hinside : streamOffset stream < headerSize := lt_of_le_of_ne hheader fun hfull => hnot ⟨rfl, hfull⟩
    obtain ⟨sizes, hover⟩ := receiveHeader_over hoffset hinside
    refine ⟨_, onesThenTwos (streamOffset stream - 1), _, hsaved, ?_⟩
    have hone : ((stream.take (streamOffset stream + 1)).drop (streamOffset stream)).length = 1 := by
      rw [List.length_drop, List.length_take]
      omega
    have hwrite : writeBody (some 0) [] ((stream.take (streamOffset stream + 1)).drop (streamOffset stream)) = none :=
      if_pos ⟨0, rfl, .inr (by omega)⟩
    unfold fetch
    rw [hover]
    dsimp only
    rw [take_take_of_le (Nat.le_succ _), hparse]
    dsimp only
    rw [hwrite]
  · exact ⟨_, _, _, hsaved, (hexact length).trans (@receiveBody_over _ length _ [] (by rw [List.length_nil]; omega) (by omega))⟩

theorem depends_of_exceeds {stream : List UInt8} (h : Exceeds stream) :
    ¬∀ sizes sizes', (fetch ⟨stream, sizes⟩).toOption = (fetch ⟨stream, sizes'⟩).toOption := by
  intro heq
  obtain ⟨sizes, sizes', saved, hsaved, hrefused⟩ := exists_fetch_of_exceeds h
  have hsame := heq sizes sizes'
  rw [hsaved, hrefused] at hsame
  cases hsame

/-- The outcome does not depend on how the stream arrives when and only when the stream does not exceed its length. -/
theorem fetch_ignores_chunking (stream : List UInt8) :
    (∀ sizes sizes', (fetch ⟨stream, sizes⟩).toOption = (fetch ⟨stream, sizes'⟩).toOption) ↔ ¬Exceeds stream := by
  refine ⟨fun heq h => depends_of_exceeds h heq, fun h sizes sizes' => ?_⟩
  obtain ⟨result, hfetch⟩ := exists_fetch_of_not_exceeds h
  rw [hfetch sizes, hfetch sizes']

/-- `"HTTP/1.0 200 OK\r\nContent-Length: 1\r\n\r\nab"`. -/
def longResponse : List UInt8 :=
  [0x48, 0x54, 0x54, 0x50, 0x2F, 0x31, 0x2E, 0x30, 0x20, 0x32, 0x30, 0x30, 0x20, 0x4F, 0x4B, 0x0D, 0x0A,
    0x43, 0x6F, 0x6E, 0x74, 0x65, 0x6E, 0x74, 0x2D, 0x4C, 0x65, 0x6E, 0x67, 0x74, 0x68, 0x3A, 0x20, 0x31, 0x0D, 0x0A, 0x0D, 0x0A,
    0x61, 0x62]

/-- A response of two bytes whose length is one is saved or refused. -/
theorem long_response_depends_on_chunks :
    ¬∀ sizes sizes', (fetch ⟨longResponse, sizes⟩).toOption = (fetch ⟨longResponse, sizes'⟩).toOption :=
  depends_of_exceeds ⟨1, by rfl, by decide, by decide⟩

end Fetch
end TabOS
