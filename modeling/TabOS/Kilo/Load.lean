import TabOS.Kilo.Edits
import TabOS.Library.Folder

/-!
# Loading

`kilo_load`: the file is read in blocks, a newline ends a row and takes a carriage return before it along, and every other byte is kept
for the row that comes next. The rows hold what was read, however it was cut into blocks.
-/

namespace TabOS
namespace Kilo

open Library

/-- What a `read` returns: some bytes, none of them at the end of the file, or an error. -/
inductive Reading where
  | block (bytes : List UInt8)
  | failed (error : Nat)

/-- What the calls of a load return: whether `stat` finds a directory, the error of `open`, the blocks, the error of `close`. -/
structure LoadCalls where
  metadata : Except Nat Bool
  opened : Option Nat
  readings : List Reading
  closed : Option Nat

/-- The texts of the errors. -/
abbrev Strerror := Nat → List UInt8

def errorMessage (strerror : Strerror) (action : List UInt8) (error : Nat) (e : Editor) : Editor :=
  kiloStatus (action ++ ascii ": " ++ strerror error) e

def binaryFile : List UInt8 := ascii "Binary file contains NUL; not opened"
def fileTooLong : List UInt8 := ascii "File exceeds 256 KiB"
def lineTooLong : List UInt8 := ascii "Line exceeds 16 KiB"
def invalidRead : List UInt8 := ascii "Invalid read result"
def noMemory : List UInt8 := ascii "Out of memory"

/-- What is kept while a file is read: the rows so far, the line that is not yet ended, and the number of bytes. -/
structure Loading where
  loaded : Editor
  line : List UInt8
  total : Nat
  styleSeen : Bool

/-- The first two allocations are those of the rows and of the line. -/
def Memory.grantsRow (memory : Memory) (loaded : Editor) : Bool := memory.grants (2 + 2 * loaded.rows.length)

/-- A byte that was read, or the message of what is wrong with it. -/
def takeByte (memory : Memory) (c : UInt8) (s : Loading) : Except (List UInt8) Loading :=
  if s.total + 1 > bytesMax ∨ c = 0 then .error (if c = 0 then binaryFile else fileTooLong)
  else if c = newlineByte then
    let returned := s.line.getLast? = some returnByte
    let line := if returned then s.line.dropLast else s.line
    let ending := if returned then 2 else 1
    let loaded := { s.loaded with newline := if s.styleSeen then s.loaded.newline else ending }
    match kiloAppendRow (memory.grantsRow loaded) line ending loaded with
    | (false, loaded) => .error loaded.message
    | (true, loaded) => .ok { loaded := loaded, line := [], total := s.total + 1, styleSeen := true }
  else if s.line.length = lineMax + 1 ∨ (s.line.length = lineMax ∧ c ≠ returnByte) then .error lineTooLong
  else .ok { s with line := s.line ++ [c], total := s.total + 1 }

def takeBytes (memory : Memory) : List UInt8 → Loading → Except (List UInt8) Loading
  | [], s => .ok s
  | c :: rest, s =>
    match takeByte memory c s with
    | .error message => .error message
    | .ok s => takeBytes memory rest s

/-- The loop over the blocks; the list of the readings ends where the file does. -/
def takeReadings (strerror : Strerror) (memory : Memory) : List Reading → Loading → Except (List UInt8) Loading
  | [], s => .ok s
  | .failed error :: _, _ => .error (ascii "Read failed: " ++ strerror error)
  | .block bytes :: rest, s =>
    if bytes.length = 0 then .ok s
    else if bytes.length > 512 then .error invalidRead
    else
      match takeBytes memory bytes s with
      | .error message => .error message
      | .ok s => takeReadings strerror memory rest s

def Loading.start (filename : List UInt8) : Loading :=
  { loaded := kiloInit filename, line := [], total := 0, styleSeen := false }

/-- A load from `open` on. -/
def openAndRead (strerror : Strerror) (calls : LoadCalls) (memory : Memory) (e : Editor) : Bool × Editor :=
  match calls.opened with
  | some error =>
    if error = noEntry then
      match kiloAppendRow (memory.grantsRow (kiloInit e.filename)) [] 0 (kiloInit e.filename) with
      | (false, _) => (false, e)
      | (true, loaded) => (true, loaded)
    else (false, errorMessage strerror (ascii "Open failed") error e)
  | none =>
    match takeReadings strerror memory calls.readings (Loading.start e.filename), calls.closed with
    | _, some error => (false, errorMessage strerror (ascii "Close failed") error e)
    | .error message, none => (false, kiloStatus message e)
    | .ok s, none =>
      match kiloAppendRow (memory.grantsRow s.loaded) s.line 0 s.loaded with
      | (false, loaded) => (false, kiloStatus loaded.message e)
      | (true, loaded) => (true, loaded)

def kiloLoad (strerror : Strerror) (calls : LoadCalls) (memory : Memory) (e : Editor) : Bool × Editor :=
  if memory 0 = false then (false, kiloStatus noMemory e)
  else if memory 1 = false then (false, kiloStatus noMemory e)
  else
    match calls.metadata with
    | .ok true => (false, errorMessage strerror (ascii "Open failed") isDirectory e)
    | .ok false => openAndRead strerror calls memory e
    | .error error =>
      if error = noEntry then openAndRead strerror calls memory e
      else (false, errorMessage strerror (ascii "Open failed") error e)

/-- The bytes of the blocks up to the end of the file. -/
def delivered : List Reading → List UInt8
  | .block bytes :: rest => if bytes.length = 0 then [] else bytes ++ delivered rest
  | _ => []

/-- The bytes that the file holds; none where there is no file. -/
def LoadCalls.content (calls : LoadCalls) : List UInt8 :=
  match calls.opened with
  | some _ => []
  | none => delivered calls.readings

/-! ## Appending a row -/

variable {e : Editor} {memory : Memory}

/-- Appending a row fails with a message, or puts the row behind the others. -/
theorem kiloAppendRow_ok {granted : Bool} {text : List UInt8} {ending : Nat} {loaded : Editor}
    (h : kiloAppendRow granted text ending e = (true, loaded)) (hmax : e.bytes ≤ bytesMax) :
    e.rows.length < rowsMax ∧ e.bytes + (text.length + ending) ≤ bytesMax ∧ text.length ≤ lineMax ∧
    ∃ row, row.Holds text ∧ row.ending = ending ∧
      loaded = { e with rows := e.rows ++ [row], bytes := e.bytes + (text.length + ending) } := by
  unfold kiloAppendRow at h
  split at h
  · exact absurd (congrArg Prod.fst h) Bool.false_ne_true
  · rename_i hroom
    split at h
    · exact absurd (congrArg Prod.fst h) Bool.false_ne_true
    · rename_i row hmade
      obtain ⟨hholds, hending, hlength⟩ := makeRow_ok hmade
      refine ⟨by omega, by omega, hlength, row, hholds, hending, ?_⟩
      exact (congrArg Prod.snd h).symm

/-! ## Reading bytes -/

/-- The text of the rows that were read, and of the line that is not yet ended. -/
def Loading.text (s : Loading) : List UInt8 := textOf s.loaded.rows ++ s.line

/-- The invariant of a file that is being read: every row is ended. -/
structure Loading.Valid (s : Loading) : Prop where
  rows_le : s.loaded.rows.length ≤ rowsMax
  bytes_eq : s.loaded.bytes = sizeOf s.loaded.rows
  bytes_le : s.loaded.bytes ≤ bytesMax
  rows : ∀ row ∈ s.loaded.rows, row.Valid
  ended : ∀ row ∈ s.loaded.rows, row.ending ≠ 0
  nonzero : ∀ character ∈ s.line, character ≠ 0
  newline : s.loaded.newline = 1 ∨ s.loaded.newline = 2
  cursor : s.loaded.cx = 0 ∧ s.loaded.cy = 0
  dirty : s.loaded.dirty = false

theorem Loading.Valid.start (filename : List UInt8) : (Loading.start filename).Valid :=
  ⟨Nat.zero_le _, rfl, Nat.zero_le _, fun _ h => absurd h List.not_mem_nil, fun _ h => absurd h List.not_mem_nil,
    fun _ h => absurd h List.not_mem_nil, Or.inl rfl, ⟨rfl, rfl⟩, rfl⟩

/-- The line without the carriage return that belongs to its ending. -/
theorem line_split (line : List UInt8) :
    (if line.getLast? = some returnByte then line.dropLast else line) ++
      endingBytes (if line.getLast? = some returnByte then 2 else 1) = line ++ [newlineByte] := by
  by_cases hreturn : line.getLast? = some returnByte
  · rw [if_pos hreturn, if_pos hreturn]
    obtain ⟨before, rfl⟩ := List.getLast?_eq_some_iff.1 hreturn
    rw [List.dropLast_concat, List.append_assoc]
    rfl
  · rw [if_neg hreturn, if_neg hreturn]
    rfl

/-- A row that is put behind the ended rows. -/
theorem Row.Holds.valid_of_line {row : Row} {line : List UInt8} {ending : Nat} (h : row.Holds line) (hending : row.ending = ending)
    (hlength : line.length ≤ lineMax) (hnonzero : ∀ character ∈ line, character ≠ 0) (hle : ending ≤ 2) :
    row.Valid ∧ row.text = line ++ endingBytes ending ∧ row.size + row.ending = line.length + ending := by
  refine ⟨h.valid hlength hnonzero (hending ▸ hle), ?_, ?_⟩
  · rw [Row.text, h.content_eq, hending]
  · rw [h.1, hending]

/-- A byte that is accepted is put behind the text. -/
theorem takeByte_spec {c : UInt8} {s s' : Loading} (h : takeByte memory c s = .ok s') (hs : s.Valid) :
    s'.Valid ∧ s'.text = s.text ++ [c] := by
  unfold takeByte at h
  split at h
  · exact nomatch h
  · rename_i hbyte
    have hne : c ≠ 0 := fun hzero => hbyte (Or.inr hzero)
    split at h
    · rename_i hnewline
      dsimp only at h
      have hsplit := line_split s.line
      have hsub : ∀ character ∈ (if s.line.getLast? = some returnByte then s.line.dropLast else s.line), character ≠ 0 := by
        intro character hmem
        split at hmem
        · exact hs.nonzero character (List.dropLast_subset _ hmem)
        · exact hs.nonzero character hmem
      have hending : (if s.line.getLast? = some returnByte then 2 else 1) = 1 ∨
          (if s.line.getLast? = some returnByte then 2 else 1) = 2 := by
        split
        · exact Or.inr rfl
        · exact Or.inl rfl
      generalize (if s.line.getLast? = some returnByte then s.line.dropLast else s.line) = line at h hsplit hsub
      generalize (if s.line.getLast? = some returnByte then 2 else 1) = ending at h hsplit hending
      split at h
      · exact nomatch h
      · rename_i loaded happend
        obtain rfl := Except.ok.inj h
        obtain ⟨hrows, hbytes, hlength, row, hholds, hrow, rfl⟩ := kiloAppendRow_ok happend hs.bytes_le
        obtain ⟨hvalid, htext, hsize⟩ := hholds.valid_of_line hrow hlength hsub (by omega)
        refine ⟨⟨?_, ?_, hbytes, ?_, ?_, fun _ hmem => absurd hmem List.not_mem_nil, ?_, hs.cursor, hs.dirty⟩, ?_⟩
        · rw [List.length_append]
          exact hrows
        · rw [sizeOf_append, sizeOf_cons, hsize, ← hs.bytes_eq]
          rfl
        · intro other hmem
          rcases List.mem_append.1 hmem with hmem | hmem
          · exact hs.rows other hmem
          · rw [List.mem_singleton.1 hmem]
            exact hvalid
        · intro other hmem
          rcases List.mem_append.1 hmem with hmem | hmem
          · exact hs.ended other hmem
          · rw [List.mem_singleton.1 hmem, hrow]
            omega
        · show (if s.styleSeen then s.loaded.newline else ending) = 1 ∨ (if s.styleSeen then s.loaded.newline else ending) = 2
          split
          · exact hs.newline
          · exact hending
        · show textOf (s.loaded.rows ++ [row]) ++ [] = textOf s.loaded.rows ++ s.line ++ [c]
          rw [textOf_append, textOf_cons, htext, hsplit, hnewline, show textOf [] = [] from rfl, List.append_nil, List.append_nil,
            List.append_assoc]
    · split at h
      · exact nomatch h
      · obtain rfl := Except.ok.inj h
        refine ⟨⟨hs.rows_le, hs.bytes_eq, hs.bytes_le, hs.rows, hs.ended, ?_, hs.newline, hs.cursor, hs.dirty⟩, ?_⟩
        · intro character hmem
          rcases List.mem_append.1 hmem with hmem | hmem
          · exact hs.nonzero character hmem
          · rw [List.mem_singleton.1 hmem]
            exact hne
        · exact (List.append_assoc _ _ _).symm

theorem takeBytes_spec {bytes : List UInt8} {s s' : Loading} (h : takeBytes memory bytes s = .ok s') (hs : s.Valid) :
    s'.Valid ∧ s'.text = s.text ++ bytes := by
  induction bytes generalizing s with
  | nil =>
    obtain rfl := Except.ok.inj h
    exact ⟨hs, (List.append_nil _).symm⟩
  | cons c rest ih =>
    rw [takeBytes] at h
    split at h
    · exact nomatch h
    · rename_i s₁ hbyte
      obtain ⟨hs₁, htext⟩ := takeByte_spec hbyte hs
      obtain ⟨hs', htext'⟩ := ih h hs₁
      refine ⟨hs', ?_⟩
      rw [htext', htext, List.append_assoc]
      rfl

theorem takeBytes_append (first rest : List UInt8) (s : Loading) :
    takeBytes memory (first ++ rest) s =
      match takeBytes memory first s with
      | .error message => .error message
      | .ok s => takeBytes memory rest s := by
  induction first generalizing s with
  | nil => rfl
  | cons c first ih =>
    rw [List.cons_append, takeBytes, takeBytes]
    split
    · rfl
    · exact ih _

/-- However the file is cut into blocks, its bytes are taken one after the other. -/
theorem takeReadings_eq {strerror : Strerror} {readings : List Reading} {s s' : Loading}
    (h : takeReadings strerror memory readings s = .ok s') : takeBytes memory (delivered readings) s = .ok s' := by
  induction readings generalizing s with
  | nil => exact h
  | cons reading rest ih =>
    cases reading with
    | failed error => exact nomatch h
    | block bytes =>
      rw [takeReadings] at h
      rw [delivered]
      split at h
      · rename_i hend
        rw [if_pos hend]
        exact h
      · rename_i hend
        rw [if_neg hend]
        split at h
        · exact nomatch h
        · split at h
          · exact nomatch h
          · rename_i s₁ htaken
            rw [takeBytes_append, htaken]
            exact ih h

/-! ## Loading -/

/-- The last line has no line ending. -/
theorem Loading.Valid.finish {s : Loading} (hs : s.Valid) {granted : Bool} {loaded : Editor}
    (h : kiloAppendRow granted s.line 0 s.loaded = (true, loaded)) :
    loaded.Valid ∧ loaded.text = s.text ∧ loaded.cx = 0 ∧ loaded.cy = 0 ∧ loaded.dirty = false := by
  obtain ⟨hrows, hbytes, hlength, row, hholds, hrow, rfl⟩ := kiloAppendRow_ok h hs.bytes_le
  obtain ⟨hvalid, htext, hsize⟩ := hholds.valid_of_line hrow hlength hs.nonzero (Nat.zero_le 2)
  obtain ⟨hcx, hcy⟩ := hs.cursor
  have hcount : (s.loaded.rows ++ [row]).length = s.loaded.rows.length + 1 := List.length_append
  refine ⟨⟨?_, ?_, ?_, hbytes, ?_, ?_, ?_, ?_, hs.newline⟩, ?_, hcx, hcy, hs.dirty⟩
  · show 1 ≤ (s.loaded.rows ++ [row]).length
    omega
  · show (s.loaded.rows ++ [row]).length ≤ rowsMax
    omega
  · show s.loaded.bytes + _ = sizeOf (s.loaded.rows ++ [row])
    rw [sizeOf_append, sizeOf_cons, hsize, ← hs.bytes_eq]
    rfl
  · intro other hmem
    rcases List.mem_append.1 hmem with hmem | hmem
    · exact hs.rows other hmem
    · rw [List.mem_singleton.1 hmem]
      exact hvalid
  · exact (ended_append s.loaded.rows row []).2 ⟨hs.ended, hrow⟩
  · show s.loaded.cy < (s.loaded.rows ++ [row]).length
    omega
  · show s.loaded.cx ≤ _
    rw [hcx]
    exact Nat.zero_le _
  · show textOf (s.loaded.rows ++ [row]) = textOf s.loaded.rows ++ s.line
    rw [textOf_append, textOf_cons, htext, show textOf [] = [] from rfl, List.append_nil]
    exact congrArg (textOf s.loaded.rows ++ ·) (List.append_nil _)

/-- A load that fails changes nothing but the message; one that succeeds gives a valid document that holds the content of the file. -/
def Loaded (calls : LoadCalls) (e : Editor) (result : Bool × Editor) : Prop :=
  (result.1 = false ∧ Unchanged e result.2) ∨
  (result.1 = true ∧ result.2.Valid ∧ result.2.text = calls.content ∧ result.2.cx = 0 ∧ result.2.cy = 0 ∧ result.2.dirty = false)

theorem Loaded.refused (calls : LoadCalls) (text : List UInt8) (e : Editor) : Loaded calls e (false, kiloStatus text e) :=
  Or.inl ⟨rfl, unchanged_kiloStatus text e⟩

theorem openAndRead_spec (strerror : Strerror) (calls : LoadCalls) (memory : Memory) (e : Editor) :
    Loaded calls e (openAndRead strerror calls memory e) := by
  have hstart := Loading.Valid.start e.filename
  unfold openAndRead
  split
  · rename_i error hopened
    split
    · split
      · exact Or.inl ⟨rfl, Unchanged.refl e⟩
      · rename_i loaded happend
        obtain ⟨hvalid, htext, hclean⟩ := hstart.finish happend
        refine Or.inr ⟨rfl, hvalid, ?_, hclean⟩
        rw [LoadCalls.content, hopened]
        exact htext
    · exact Loaded.refused calls _ e
  · rename_i hopened
    split
    · exact Loaded.refused calls _ e
    · exact Loaded.refused calls _ e
    · rename_i s htaken hclosed
      obtain ⟨hs, htext⟩ := takeBytes_spec (takeReadings_eq htaken) hstart
      split
      · exact Loaded.refused calls _ e
      · rename_i loaded happend
        obtain ⟨hvalid, htext', hclean⟩ := hs.finish happend
        refine Or.inr ⟨rfl, hvalid, ?_, hclean⟩
        rw [LoadCalls.content, hopened]
        exact htext'.trans htext

theorem kiloLoad_spec (strerror : Strerror) (calls : LoadCalls) (memory : Memory) (e : Editor) :
    Loaded calls e (kiloLoad strerror calls memory e) := by
  unfold kiloLoad
  split
  · exact Loaded.refused calls _ e
  · split
    · exact Loaded.refused calls _ e
    · split
      · exact Loaded.refused calls _ e
      · exact openAndRead_spec strerror calls memory e
      · split
        · exact openAndRead_spec strerror calls memory e
        · exact Loaded.refused calls _ e

end Kilo
end TabOS
