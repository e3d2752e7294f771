import Mathlib.Algebra.Order.BigOperators.Group.List
import Mathlib.Algebra.Order.Group.Nat
import Mathlib.Data.List.Basic
import Mathlib.Data.UInt

/-!
# The rows of a screenshot

The command `SHOT` of `targets/tab5/main/msc_control.c` prints each row of the display as hexadecimal digits, of runs when there are few
and of pixels otherwise, and `decode_row` of `tools/device_test.py` reads it back.
-/

namespace TabOS
namespace Screenshot

/-- The pixels of a row. -/
def rowWidth : Nat := 640

/-- The most runs that are printed as such. -/
def runsMax : Nat := 320

/-- The size of the array `hex`. -/
def bufferSize : Nat := 2561

abbrev Pixel := UInt16

/-! ## The device -/

def digits : List Char := "0123456789abcdef".toList

def digit (n : Nat) : Char := digits.getD n '0'

/-- The loop over the nibbles of a value. -/
def nibbles (value : Nat) : List Char := (List.range 4).map fun nibble => digit ((value >>> (12 - nibble * 4)) &&& 15)

/-- How often a pixel differs from the one before it. -/
def changes : List Pixel → Nat
  | [] => 0
  | [_] => 0
  | pixel :: next :: rest => (if next ≠ pixel then 1 else 0) + changes (next :: rest)

/-- The `runs` of a row. -/
def countRuns (source : List Pixel) : Nat := 1 + changes source

/-- The loop that counts how often a pixel stands in the rest of the row at once. -/
def runLength (pixel : Pixel) (rest : List Pixel) : Nat := 1 + (rest.takeWhile (· = pixel)).length

/-- The loop over a row: what is written to `hex`. -/
def encode (compressed : Bool) : List Pixel → List Char
  | [] => []
  | pixel :: rest =>
    let count := if compressed then runLength pixel rest else 1
    (if compressed then nibbles count else []) ++ nibbles pixel.toNat ++ encode compressed (rest.drop (count - 1))
termination_by source => source.length
decreasing_by
  rw [List.length_drop, List.length_cons]
  omega

/-- The line that is printed for a row. -/
def shotLine (source : List Pixel) : List Char :=
  if countRuns source ≤ runsMax then "TABOS TEST RLE ".toList ++ encode true source else "TABOS TEST ROW ".toList ++ encode false source

/-- What is written to `hex` for a row, with its terminator. -/
def shotBuffer (source : List Pixel) : List Char := encode (decide (countRuns source ≤ runsMax)) source ++ [Char.ofNat 0]

/-! ## The tool -/

/-- The exceptions of `decode_row`. -/
inductive DecodeError where
  | invalidHex
  | invalidRun
  | invalidRunLength
  | missingRow
  | invalidWidth
  deriving DecidableEq

def hexValue (c : Char) : Option Nat :=
  if '0' ≤ c ∧ c ≤ '9' then some (c.toNat - 48)
  else if 'a' ≤ c ∧ c ≤ 'f' then some (c.toNat - 87)
  else if 'A' ≤ c ∧ c ≤ 'F' then some (c.toNat - 55)
  else none

/-- The white space that `bytes.fromhex` skips. -/
def isSpace (c : Char) : Bool := c.toNat = 32 || (9 ≤ c.toNat && c.toNat ≤ 13)

/-- `bytes.fromhex`. -/
def fromHex : List Char → Option (List UInt8)
  | [] => some []
  | [c] => if isSpace c then some [] else none
  | c :: d :: rest =>
    if isSpace c then fromHex (d :: rest)
    else
      match hexValue c, hexValue d, fromHex rest with
      | some high, some low, some bytes => some (UInt8.ofNat (high * 16 + low) :: bytes)
      | _, _, _ => none

/-- `struct.pack` of an unsigned short, the high byte first. -/
def pack (value : Nat) : List UInt8 := [UInt8.ofNat (value / 256), UInt8.ofNat (value % 256)]

/-- What `struct.iter_unpack` reads as an unsigned short. -/
def unpack (high low : UInt8) : Nat := high.toNat * 256 + low.toNat

/-- The loop over the runs. -/
def decodeRuns : List UInt8 → List UInt8 → Except DecodeError (List UInt8)
  | a :: b :: c :: d :: encoded, pixels =>
    if unpack a b = 0 ∨ pixels.length + unpack a b * 2 > 1280 then .error .invalidRunLength
    else decodeRuns encoded (pixels ++ (List.replicate (unpack a b) (pack (unpack c d))).flatten)
  | _, pixels => .ok pixels

/-- The check of the width that ends `decode_row`. -/
def checkWidth (pixels : List UInt8) : Except DecodeError (List UInt8) :=
  if pixels.length ≠ 1280 then .error .invalidWidth else .ok pixels

def decodeRow (line : List Char) : Except DecodeError (List UInt8) :=
  if "TABOS TEST ROW ".toList <+: line then
    match fromHex (line.drop 15) with
    | none => .error .invalidHex
    | some pixels => checkWidth pixels
  else if "TABOS TEST RLE ".toList <+: line then
    match fromHex (line.drop 15) with
    | none => .error .invalidHex
    | some encoded =>
      if encoded.length % 4 ≠ 0 then .error .invalidRun
      else
        match decodeRuns encoded [] with
        | .error e => .error e
        | .ok pixels => checkWidth pixels
  else .error .missingRow

/-! ## Digits -/

theorem hexValue_digit {n : Nat} (h : n < 16) : hexValue (digit n) = some n ∧ isSpace (digit n) = false := by
  have hall : ∀ n : Fin 16, hexValue (digit n) = some n.val ∧ isSpace (digit n) = false := by decide
  exact hall ⟨n, h⟩

theorem length_nibbles (value : Nat) : (nibbles value).length = 4 := rfl

theorem fromHex_pair {high low : Nat} (hhigh : high < 16) (hlow : low < 16) (rest : List Char) :
    fromHex (digit high :: digit low :: rest) = (fromHex rest).map (UInt8.ofNat (high * 16 + low) :: ·) := by
  obtain ⟨hvalue, hspace⟩ := hexValue_digit hhigh
  rw [fromHex, hspace, hvalue, (hexValue_digit hlow).1]
  rcases fromHex rest with _ | bytes <;> rfl

/-- The digits of a value are read as its two bytes. -/
theorem fromHex_nibbles {value : Nat} (h : value < 65536) (rest : List Char) :
    fromHex (nibbles value ++ rest) = (fromHex rest).map (pack value ++ ·) := by
  have hnibble (shift : Nat) : (value >>> shift) &&& 15 = value / 2 ^ shift % 16 := by
    rw [Nat.shiftRight_eq_div_pow]
    exact Nat.and_two_pow_sub_one_eq_mod (value / 2 ^ shift) 4
  have hdigits : nibbles value ++ rest =
      digit (value / 2 ^ 12 % 16) :: digit (value / 2 ^ 8 % 16) :: digit (value / 2 ^ 4 % 16) :: digit (value / 2 ^ 0 % 16) :: rest := by
    rw [← hnibble 12, ← hnibble 8, ← hnibble 4, ← hnibble 0]
    rfl
  have hhigh : value / 2 ^ 12 % 16 * 16 + value / 2 ^ 8 % 16 = value / 256 := by omega
  have hlow : value / 2 ^ 4 % 16 * 16 + value / 2 ^ 0 % 16 = value % 256 := by omega
  rw [hdigits, fromHex_pair (Nat.mod_lt _ (by omega)) (Nat.mod_lt _ (by omega)),
    fromHex_pair (Nat.mod_lt _ (by omega)) (Nat.mod_lt _ (by omega)), hhigh, hlow, Option.map_map]
  rfl

theorem unpack_pack {value : Nat} (h : value < 65536) : unpack (UInt8.ofNat (value / 256)) (UInt8.ofNat (value % 256)) = value := by
  unfold unpack
  rw [UInt8.toNat_ofNat', UInt8.toNat_ofNat']
  omega

/-! ## The runs of a row -/

abbrev Run := Nat × Pixel

/-- The runs that the loop over a row finds. -/
def runsOf : List Pixel → List Run
  | [] => []
  | pixel :: rest => (runLength pixel rest, pixel) :: runsOf (rest.drop (runLength pixel rest - 1))
termination_by source => source.length
decreasing_by
  rw [List.length_drop, List.length_cons]
  omega

theorem drop_runLength (pixel : Pixel) (rest : List Pixel) :
    rest.drop (runLength pixel rest - 1) = rest.dropWhile (· = pixel) := by
  have hsplit := List.takeWhile_append_dropWhile (p := (· = pixel)) (l := rest)
  have hcount : runLength pixel rest - 1 = (rest.takeWhile (· = pixel)).length := Nat.add_sub_cancel_left 1 _
  have hdrop := @List.drop_left _ (rest.takeWhile (· = pixel)) (rest.dropWhile (· = pixel))
  rw [hcount]
  rwa [hsplit] at hdrop

/-- The first run and what is left of the row after it. -/
theorem replicate_append_drop (pixel : Pixel) (rest : List Pixel) :
    List.replicate (runLength pixel rest) pixel ++ rest.drop (runLength pixel rest - 1) = pixel :: rest := by
  rw [drop_runLength]
  induction rest with
  | nil => rfl
  | cons next rest ih =>
    by_cases hnext : next = pixel
    · subst hnext
      have hcount : runLength next (next :: rest) = runLength next rest + 1 := by
        simp only [runLength, decide_true, List.takeWhile_cons_of_pos, List.length_cons]
        omega
      rw [hcount, List.replicate_succ, List.dropWhile_cons_of_pos (by simp), List.cons_append, ih]
    · have hcount : runLength pixel (next :: rest) = 1 := by
        unfold runLength
        rw [List.takeWhile_cons_of_neg (by simpa using hnext)]
        rfl
      rw [hcount, List.dropWhile_cons_of_neg (by simpa using hnext)]
      rfl

/-- A pixel is followed by as many changes as there are runs after its own. -/
theorem changes_cons (pixel : Pixel) (rest : List Pixel) :
    changes (pixel :: rest) = if rest.dropWhile (· = pixel) = [] then 0 else countRuns (rest.dropWhile (· = pixel)) := by
  induction rest with
  | nil => rfl
  | cons next rest ih =>
    by_cases hnext : next = pixel
    · subst hnext
      rw [changes, ih, List.dropWhile_cons_of_pos (by simp), if_neg (not_not_intro rfl), Nat.zero_add]
    · rw [changes, List.dropWhile_cons_of_neg (by simpa using hnext), if_pos hnext, if_neg (List.cons_ne_nil _ _)]
      rfl

/-- The runs that are counted are the runs that are printed. -/
theorem length_runsOf (source : List Pixel) (h : source ≠ []) : (runsOf source).length = countRuns source := by
  fun_induction runsOf source with
  | case1 => exact absurd rfl h
  | case2 pixel rest ih =>
    rw [List.length_cons, countRuns, changes_cons, ← drop_runLength]
    split
    · next hdone =>
      rw [hdone, runsOf]
      rfl
    · next hmore =>
      rw [ih hmore]
      exact Nat.add_comm _ _

theorem flatMap_runsOf (source : List Pixel) : ((runsOf source).flatMap fun run => List.replicate run.1 run.2) = source := by
  fun_induction runsOf source with
  | case1 => rfl
  | case2 pixel rest ih => rw [List.flatMap_cons, ih, replicate_append_drop]

theorem runsOf_pos (source : List Pixel) : ∀ run ∈ runsOf source, 0 < run.1 := by
  fun_induction runsOf source with
  | case1 => exact fun run hrun => absurd hrun List.not_mem_nil
  | case2 pixel rest ih =>
    intro run hrun
    rcases List.mem_cons.mp hrun with rfl | hrun
    · exact Nat.lt_of_lt_of_le Nat.one_pos (Nat.le_add_right 1 _)
    · exact ih run hrun

/-- The runs cover the row. -/
theorem sum_runsOf (source : List Pixel) : ((runsOf source).map Prod.fst).sum = source.length := by
  conv_rhs => rw [← flatMap_runsOf source, List.length_flatMap]
  simp only [List.length_replicate]

/-! ## What is printed -/

theorem encode_true (source : List Pixel) :
    encode true source = (runsOf source).flatMap fun run => nibbles run.1 ++ nibbles run.2.toNat := by
  fun_induction runsOf source with
  | case1 => rw [encode, List.flatMap_nil]
  | case2 pixel rest ih =>
    rw [encode, List.flatMap_cons, ← ih]
    rfl

theorem encode_false (source : List Pixel) : encode false source = source.flatMap fun pixel => nibbles pixel.toNat := by
  induction source with
  | nil => rw [encode, List.flatMap_nil]
  | cons pixel rest ih =>
    rw [encode, List.flatMap_cons, ← ih]
    rfl

theorem length_encode_true (source : List Pixel) : (encode true source).length = 8 * (runsOf source).length := by
  rw [encode_true]
  induction runsOf source with
  | nil => rfl
  | cons run runs ih =>
    rw [List.flatMap_cons, List.length_append, ih, List.length_append, length_nibbles, length_nibbles, List.length_cons]
    omega

theorem length_encode_false (source : List Pixel) : (encode false source).length = 4 * source.length := by
  rw [encode_false]
  induction source with
  | nil => rfl
  | cons pixel rest ih =>
    rw [List.flatMap_cons, List.length_append, ih, length_nibbles, List.length_cons]
    omega

/-- The digits of a row fit into the buffer, whichever form is chosen. -/
theorem length_shotBuffer (source : List Pixel) (h : source.length = rowWidth) : (shotBuffer source).length ≤ bufferSize := by
  have hsome : source ≠ [] := by
    rintro rfl
    cases h
  unfold shotBuffer
  rw [List.length_append]
  by_cases hruns : countRuns source ≤ runsMax
  · rw [decide_eq_true hruns, length_encode_true, length_runsOf source hsome]
    unfold runsMax at hruns
    unfold bufferSize
    change 8 * countRuns source + 1 ≤ 2561
    omega
  · rw [decide_eq_false hruns, length_encode_false, h]
    decide

/-! ## What is read -/

/-- The bytes of a row. -/
def bytesOf (source : List Pixel) : List UInt8 := source.flatMap fun pixel => pack pixel.toNat

theorem fromHex_encode_false (source : List Pixel) : fromHex (encode false source) = some (bytesOf source) := by
  rw [encode_false]
  induction source with
  | nil => rfl
  | cons pixel rest ih =>
    rw [List.flatMap_cons, fromHex_nibbles pixel.toNat_lt, ih]
    rfl

/-- The bytes that stand for runs. -/
def bytesOfRuns (runs : List Run) : List UInt8 := runs.flatMap fun run => pack run.1 ++ pack run.2.toNat

theorem fromHex_runs {runs : List Run} (h : ∀ run ∈ runs, run.1 < 65536) :
    fromHex (runs.flatMap fun run => nibbles run.1 ++ nibbles run.2.toNat) = some (bytesOfRuns runs) := by
  induction runs with
  | nil => rfl
  | cons run runs ih =>
    have hrest := ih fun r hr => h r (List.mem_cons_of_mem run hr)
    rw [List.flatMap_cons, List.append_assoc, fromHex_nibbles (h run List.mem_cons_self), fromHex_nibbles run.2.toNat_lt, hrest]
    rfl

theorem length_bytesOf (source : List Pixel) : (bytesOf source).length = 2 * source.length := by
  induction source with
  | nil => rfl
  | cons pixel rest ih =>
    change (pack pixel.toNat ++ bytesOf rest).length = _
    rw [List.length_append, ih, List.length_cons]
    change 2 + 2 * rest.length = _
    omega

theorem length_bytesOfRuns (runs : List Run) : (bytesOfRuns runs).length = 4 * runs.length := by
  induction runs with
  | nil => rfl
  | cons run runs ih =>
    change ((pack run.1 ++ pack run.2.toNat) ++ bytesOfRuns runs).length = _
    rw [List.length_append, ih, List.length_cons]
    change 4 + 4 * runs.length = _
    omega

theorem bytesOf_append (source rest : List Pixel) : bytesOf (source ++ rest) = bytesOf source ++ bytesOf rest :=
  List.flatMap_append

theorem bytesOf_replicate (n : Nat) (pixel : Pixel) :
    bytesOf (List.replicate n pixel) = (List.replicate n (pack pixel.toNat)).flatten := by
  rw [bytesOf, List.flatMap_replicate]

/-- The loop over the runs of a row repeats their pixels, when the rest of them fits behind what it has. -/
theorem decodeRuns_bytesOfRuns (runs : List Run) (pixels : List UInt8) (hpos : ∀ run ∈ runs, 0 < run.1)
    (hfit : pixels.length + 2 * (runs.map Prod.fst).sum ≤ 1280) :
    decodeRuns (bytesOfRuns runs) pixels = .ok (pixels ++ bytesOf (runs.flatMap fun run => List.replicate run.1 run.2)) := by
  induction runs generalizing pixels with
  | nil =>
    rw [List.flatMap_nil]
    exact congrArg Except.ok (List.append_nil pixels).symm
  | cons run runs ih =>
    rw [List.map_cons, List.sum_cons] at hfit
    have hcount : unpack (UInt8.ofNat (run.1 / 256)) (UInt8.ofNat (run.1 % 256)) = run.1 := unpack_pack (by omega)
    have hpixel : unpack (UInt8.ofNat (run.2.toNat / 256)) (UInt8.ofNat (run.2.toNat % 256)) = run.2.toNat :=
      unpack_pack run.2.toNat_lt
    have hbytes : bytesOfRuns (run :: runs) = UInt8.ofNat (run.1 / 256) :: UInt8.ofNat (run.1 % 256) ::
        UInt8.ofNat (run.2.toNat / 256) :: UInt8.ofNat (run.2.toNat % 256) :: bytesOfRuns runs := rfl
    have hrun := hpos run List.mem_cons_self
    have hlength : (bytesOf (List.replicate run.1 run.2)).length = 2 * run.1 := by
      rw [length_bytesOf, List.length_replicate]
    rw [hbytes, decodeRuns, hcount, hpixel, if_neg (by omega), ← bytesOf_replicate]
    rw [ih _ (fun r hr => hpos r (List.mem_cons_of_mem run hr)) (by rw [List.length_append]; omega)]
    rw [List.flatMap_cons, bytesOf_append, List.append_assoc]

theorem checkWidth_bytesOf {source : List Pixel} (h : source.length = rowWidth) : checkWidth (bytesOf source) = .ok (bytesOf source) := by
  unfold checkWidth
  rw [length_bytesOf, h, if_neg (by decide)]

theorem decodeRow_runs {source : List Pixel} (h : source.length = rowWidth) :
    decodeRow ("TABOS TEST RLE ".toList ++ encode true source) = .ok (bytesOf source) := by
  have hother : ¬"TABOS TEST ROW ".toList <+: "TABOS TEST RLE ".toList ++ encode true source := fun hline => by
    have hsame := List.prefix_of_prefix_length_le hline (List.prefix_append "TABOS TEST RLE ".toList _) (by decide)
    revert hsame
    decide
  have hsum := sum_runsOf source
  have hcounts : ∀ run ∈ runsOf source, run.1 < 65536 := by
    intro run hrun
    have hle := List.single_le_sum (fun n _ => Nat.zero_le n) run.1 (List.mem_map_of_mem hrun)
    rw [hsum, h] at hle
    exact Nat.lt_of_le_of_lt hle (by decide)
  have hread : fromHex (encode true source) = some (bytesOfRuns (runsOf source)) := by
    rw [encode_true]
    exact fromHex_runs hcounts
  have hdecoded := decodeRuns_bytesOfRuns (runsOf source) [] (runsOf_pos source) (by rw [hsum, h]; decide)
  rw [flatMap_runsOf] at hdecoded
  unfold decodeRow
  rw [if_neg hother, if_pos (List.prefix_append _ _), List.drop_left' (by decide), hread]
  dsimp only
  rw [length_bytesOfRuns, if_neg (not_not_intro (Nat.mul_mod_right 4 _)), hdecoded]
  exact checkWidth_bytesOf h

theorem decodeRow_pixels {source : List Pixel} (h : source.length = rowWidth) :
    decodeRow ("TABOS TEST ROW ".toList ++ encode false source) = .ok (bytesOf source) := by
  unfold decodeRow
  rw [if_pos (List.prefix_append _ _), List.drop_left' (by decide), fromHex_encode_false]
  exact checkWidth_bytesOf h

/-- A row fits into the buffer in the form that is chosen for it, and the tool reads its pixels back from the line. -/
theorem row_is_read_back (row : Vector Pixel rowWidth) :
    (shotBuffer row.toList).length ≤ bufferSize ∧
      decodeRow (shotLine row.toList) = .ok (row.toList.flatMap fun pixel => pack pixel.toNat) := by
  have hlength : row.toList.length = rowWidth := row.length_toList
  refine ⟨length_shotBuffer _ hlength, ?_⟩
  unfold shotLine
  split
  · exact decodeRow_runs hlength
  · exact decodeRow_pixels hlength

end Screenshot
end TabOS
