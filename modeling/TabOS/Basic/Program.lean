import Mathlib.Data.UInt
import Mathlib.Data.Nat.Bitwise

/-!
# Tokenized programs

The memory and the registers of the interpreter, and `valid_program` of `apps/basic/src/basic_storage.c`. A program is a chain of lines,
each of which begins with the address of the next one; a read outside the bytes that are checked is no value.
-/

namespace TabOS
namespace Basic

def programStart : Nat := 0x0801
def programEnd : Nat := 0xa000

/-- `BASIC_TOKEN_LAST`. -/
def basicTokenLast : UInt8 := 0xdd

/-- `sizeof(RAM)`. -/
def ramSize : Nat := 65536

/-- `RAM` and the registers that the storage reads. -/
structure Machine where
  ram : Nat → UInt8
  a : UInt8
  x : UInt8
  y : UInt8

/-- Two bytes, the low one first. -/
def wordOf (low high : UInt8) : Nat := low.toNat ||| high.toNat <<< 8

/-- `word`; the bytes are those that may be read. -/
def word (bytes : Nat → Option UInt8) (offset : Nat) : Option Nat :=
  match bytes offset, bytes (offset + 1) with
  | some low, some high => some (wordOf low high)
  | _, _ => none

/-- A character or a token that a line may hold. -/
def BadByte (byte : UInt8) : Prop := byte < 32 ∨ byte = 127 ∨ byte > basicTokenLast

instance (byte : UInt8) : Decidable (BadByte byte) := inferInstanceAs (Decidable (byte < 32 ∨ byte = 127 ∨ byte > basicTokenLast))

/-- How many characters stand between a place in a line's text and its end, or that the line is refused. -/
def lineText (bytes : Nat → Option UInt8) (length offset : Nat) (count : Nat) : Option (Option Nat) :=
  if _hlt : offset + 4 + count < length then
    match bytes (offset + 4 + count) with
    | none => none
    | some byte =>
      if byte = 0 then some (some count)
      else if count ≥ 80 ∨ BadByte byte then some none
      else lineText bytes length offset (count + 1)
  else some (some count)
termination_by length - (offset + 4 + count)

/-- `valid_program` from a line on; the number before is that of the line before, if there is one. -/
def validFrom (bytes : Nat → Option UInt8) (length offset : Nat) (previous : Option Nat) : Option Bool :=
  if _hroom : offset + 2 ≤ length then
    match word bytes offset with
    | none => none
    | some next =>
      if next = 0 then some (offset + 2 = length)
      else if offset + 5 > length ∨ next < programStart ∨ next ≥ programEnd then some false
      else
        match word bytes (offset + 2) with
        | none => none
        | some number =>
          if number > 63999 ∨ previous.any (number ≤ ·) then some false
          else
            match lineText bytes length offset 0 with
            | none => none
            | some none => some false
            | some (some count) =>
              let finish := offset + 4 + count
              if finish = length ∨ next ≠ programStart + finish + 1 then some false
              else validFrom bytes length (finish + 1) (some number)
  else some false
termination_by length - offset

def validProgram (bytes : Nat → Option UInt8) (length : Nat) : Option Bool := validFrom bytes length 0 none

/-! ## Chains of lines -/

/-- The lines from an address on, behind a line with a number: each links just behind the zero that ends its text, the numbers increase,
and the last link is zero and ends the program. -/
inductive Linked (ram : Nat → UInt8) (finish : Nat) : Nat → Option Nat → Prop
  | last {address : Nat} {previous : Option Nat} (link : wordOf (ram address) (ram (address + 1)) = 0) (ends : address + 2 = finish) :
      Linked ram finish address previous
  | line {address terminator : Nat} {previous : Option Nat} {number : Nat}
      (link : wordOf (ram address) (ram (address + 1)) = terminator + 1)
      (numbered : wordOf (ram (address + 2)) (ram (address + 3)) = number) (bounded : number ≤ 63999)
      (increases : ∀ before ∈ previous, before < number)
      (behind : address + 4 ≤ terminator) (ended : ram terminator = 0)
      (text : ∀ place, address + 4 ≤ place → place < terminator → ram place ≠ 0)
      (rest : Linked ram finish (terminator + 1) (some number)) : Linked ram finish address previous

/-- The bytes that stand from an address on, as many as may be read. -/
def window (ram : Nat → UInt8) (start length : Nat) (place : Nat) : Option UInt8 :=
  if place < length then some (ram (start + place)) else none

theorem word_window {ram : Nat → UInt8} {start length place : Nat} (h : place + 2 ≤ length) :
    word (window ram start length) place = some (wordOf (ram (start + place)) (ram (start + place + 1))) := by
  unfold word window
  rw [if_pos (by omega), if_pos (by omega)]
  rfl

/-- The text of a line is searched inside the bytes; where its end is found, there is a zero behind no other. -/
theorem lineText_window (ram : Nat → UInt8) (start length offset : Nat) {count : Nat}
    (hbefore : ∀ place, offset + 4 ≤ place → place < offset + 4 + count → ram (start + place) ≠ 0) :
    ∃ found, lineText (window ram start length) length offset count = some found ∧
      ∀ last ∈ found, (∀ place, offset + 4 ≤ place → place < offset + 4 + last → ram (start + place) ≠ 0) ∧
        (offset + 4 + last < length → ram (start + (offset + 4 + last)) = 0) ∧
        (offset + 4 + count ≤ length → offset + 4 + last ≤ length) := by
  induction hleft : length - (offset + 4 + count) generalizing count with
  | zero =>
    have hend : ¬offset + 4 + count < length := by omega
    rw [lineText, dif_neg hend]
    refine ⟨_, rfl, fun last hlast => ?_⟩
    obtain rfl := Option.mem_some.1 hlast
    exact ⟨hbefore, fun hlt => absurd hlt hend, id⟩
  | succ left ih =>
    have hlt : offset + 4 + count < length := by omega
    have hbyte : window ram start length (offset + 4 + count) = some (ram (start + (offset + 4 + count))) := if_pos hlt
    rw [lineText, dif_pos hlt, hbyte]
    dsimp only
    by_cases hzero : ram (start + (offset + 4 + count)) = 0
    · rw [if_pos hzero]
      refine ⟨_, rfl, fun last hlast => ?_⟩
      obtain rfl := Option.mem_some.1 hlast
      exact ⟨hbefore, fun _ => hzero, id⟩
    · rw [if_neg hzero]
      by_cases hbad : count ≥ 80 ∨ BadByte (ram (start + (offset + 4 + count)))
      · rw [if_pos hbad]
        exact ⟨_, rfl, fun last hlast => absurd hlast (Option.not_mem_none _)⟩
      · rw [if_neg hbad]
        have hnext : ∀ place, offset + 4 ≤ place → place < offset + 4 + (count + 1) → ram (start + place) ≠ 0 := by
          intro place hlow hhigh
          by_cases hlast : place = offset + 4 + count
          · rw [hlast]
            exact hzero
          · exact hbefore place hlow (by omega)
        obtain ⟨found, hfound, hlast⟩ := ih hnext (by omega)
        exact ⟨found, hfound, fun last hmem => ⟨(hlast last hmem).1, (hlast last hmem).2.1, fun _ => (hlast last hmem).2.2 (by omega)⟩⟩

/-- The check of a program reads only the bytes it is given, and what it accepts at the start of the programs is a chain of lines. -/
theorem validFrom_window (ram : Nat → UInt8) (length offset : Nat) (previous : Option Nat) :
    ∃ valid, validFrom (window ram programStart length) length offset previous = some valid ∧
      (valid = true → Linked ram (programStart + length) (programStart + offset) previous) := by
  induction hleft : length - offset using Nat.strongRecOn generalizing offset previous with
  | ind left ih =>
    rw [validFrom]
    by_cases hroom : offset + 2 ≤ length
    · rw [dif_pos hroom, word_window hroom]
      dsimp only
      by_cases hlast : wordOf (ram (programStart + offset)) (ram (programStart + offset + 1)) = 0
      · rw [if_pos hlast]
        refine ⟨_, rfl, fun hends => .last hlast ?_⟩
        have := of_decide_eq_true hends
        omega
      · rw [if_neg hlast]
        by_cases hlink : offset + 5 > length ∨ wordOf (ram (programStart + offset)) (ram (programStart + offset + 1)) < programStart ∨
            wordOf (ram (programStart + offset)) (ram (programStart + offset + 1)) ≥ programEnd
        · rw [if_pos hlink]
          exact ⟨false, rfl, fun h => absurd h Bool.false_ne_true⟩
        · rw [if_neg hlink, word_window (by omega)]
          dsimp only
          split
          · exact ⟨false, rfl, fun h => absurd h Bool.false_ne_true⟩
          · rename_i hnumber
            obtain ⟨hbounded, hincreases⟩ := not_or.1 hnumber
            have hnone : ∀ place, offset + 4 ≤ place → place < offset + 4 + 0 → ram (programStart + place) ≠ 0 := by omega
            obtain ⟨found, hfound, hends⟩ := lineText_window ram programStart length offset hnone
            rw [hfound]
            cases found with
            | none => exact ⟨false, rfl, fun h => absurd h Bool.false_ne_true⟩
            | some count =>
              obtain ⟨htext, hzero, hle⟩ := hends count rfl
              dsimp only
              split
              · exact ⟨false, rfl, fun h => absurd h Bool.false_ne_true⟩
              · rename_i hnext
                obtain ⟨hinside, hnext⟩ := not_or.1 hnext
                have hterminator := hle (by omega)
                obtain ⟨valid, hvalid, hrest⟩ := ih _ (by omega) (offset + 4 + count + 1)
                  (some (wordOf (ram (programStart + (offset + 2))) (ram (programStart + (offset + 2) + 1)))) rfl
                refine ⟨valid, hvalid, fun h => ?_⟩
                have hfollowing : wordOf (ram (programStart + offset)) (ram (programStart + offset + 1)) =
                    programStart + (offset + 4 + count) + 1 := of_not_not hnext
                refine .line hfollowing rfl (Nat.le_of_not_lt hbounded) ?_ (by omega) (hzero (by omega)) ?_ (hrest h)
                · rintro before hbefore
                  obtain rfl := Option.mem_def.1 hbefore
                  rw [Option.any_some, decide_eq_true_iff] at hincreases
                  exact Nat.lt_of_not_le hincreases
                · intro place hlow hhigh
                  have := htext (place - programStart) (by omega) (by omega)
                  rwa [Nat.add_sub_cancel' (by omega)] at this
    · rw [dif_neg hroom]
      exact ⟨false, rfl, fun h => absurd h Bool.false_ne_true⟩

end Basic
end TabOS
