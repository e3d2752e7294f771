import TabOS.Basic.Saved

/-!
# What a load installs

Whatever the calls of a load come to, it leaves the machine or installs a chain of lines; a load of a file that a save left installs the
bytes that were saved.
-/

namespace TabOS
namespace Basic

open Library
open Kilo (ascii Storage)

/-! ## Words -/

theorem wordOf_eq (low high : UInt8) : wordOf low high = low.toNat + 256 * high.toNat := by
  have hlow : low.toNat < 2 ^ 8 := low.toNat_lt
  rw [wordOf, Nat.lor_comm, ← Nat.shiftLeft_add_eq_or_of_lt hlow, Nat.shiftLeft_eq]
  omega

/-- The two bytes of an address. -/
theorem wordOf_ofNat {address : Nat} (h : address < 65536) : wordOf (UInt8.ofNat address) (UInt8.ofNat (address >>> 8)) = address := by
  rw [wordOf_eq, UInt8.toNat_ofNat', UInt8.toNat_ofNat', Nat.shiftRight_eq_div_pow]
  omega

/-! ## Chains in two memories -/

theorem Linked.lt {ram : Nat → UInt8} {finish address : Nat} {previous : Option Nat} (h : Linked ram finish address previous) :
    address + 2 ≤ finish := by
  induction h with
  | last link ends => omega
  | line link numbered bounded increases behind ended text rest ih => omega

/-- A chain is one in every memory that holds the same program. -/
theorem Linked.congr {ram ram' : Nat → UInt8} {start finish address : Nat} {previous : Option Nat}
    (h : Linked ram finish address previous) (hstart : start ≤ address)
    (heq : ∀ place, start ≤ place → place < finish → ram' place = ram place) : Linked ram' finish address previous := by
  induction h with
  | last link ends => exact .last (by rw [heq _ (by omega) (by omega), heq _ (by omega) (by omega), link]) ends
  | line link numbered bounded increases behind ended text rest ih =>
    have hfinish := rest.lt
    refine .line ?_ ?_ bounded increases behind ?_ ?_ (ih (by omega))
    · rw [heq _ (by omega) (by omega), heq _ (by omega) (by omega), link]
    · rw [heq _ (by omega) (by omega), heq _ (by omega) (by omega), numbered]
    · rw [heq _ (by omega) (by omega), ended]
    · intro place hlow hhigh
      rw [heq _ (by omega) (by omega)]
      exact text place hlow hhigh

/-! ## The commit -/

/-- The memory a staged buffer stands for. -/
def stagedRam (staged : List UInt8) (address : Nat) : UInt8 := staged.getD (2 + (address - programStart)) 0

theorem window_stagedRam (staged : List UInt8) :
    (fun place => staged[2 + place]?) = window (stagedRam staged) programStart (staged.length - 2) := by
  funext place
  unfold window stagedRam
  split
  · rw [Nat.add_sub_cancel_left, List.getElem?_eq_getElem (by omega), List.getD_eq_getElem _ _ (by omega)]
  · exact List.getElem?_eq_none (by omega)

/-- A machine that holds another program, up to the end that is in two of its registers. -/
structure Installed (machine machine' : Machine) : Prop where
  linked : Linked machine'.ram (wordOf machine'.x machine'.y) programStart none
  finish_le : wordOf machine'.x machine'.y ≤ programEnd
  before : ∀ address, address < programStart → machine'.ram address = machine.ram address
  behind : ∀ address, wordOf machine'.x machine'.y ≤ address → machine'.ram address = machine.ram address
  a : machine'.a = machine.a

/-- The commit of a buffer of a size that fits reads only the buffer, and installs nothing but a chain of its bytes. -/
theorem commit_spec (machine : Machine) {staged : List UInt8} (hlow : 4 ≤ staged.length)
    (hhigh : staged.length ≤ programEnd - programStart + 2) :
    ∃ error machine', commit machine staged = .ok (error, machine') ∧ (error ≠ none → machine' = machine) ∧
      (error = none → Installed machine machine' ∧ wordOf machine'.x machine'.y = programStart + (staged.length - 2) ∧
        ∀ place, place < staged.length - 2 → machine'.ram (programStart + place) = staged.getD (2 + place) 0) := by
  obtain ⟨valid, hvalid, hlinked⟩ := validFrom_window (stagedRam staged) (staged.length - 2) 0 none
  have hcheck : validProgram (fun place => staged[2 + place]?) (staged.length - 2) = some valid := by
    rw [window_stagedRam]
    exact hvalid
  have hword : word (staged[·]?) 0 = some (wordOf (staged.get ⟨0, by omega⟩) (staged.get ⟨1, by omega⟩)) := by
    rw [word, List.getElem?_eq_getElem (by omega), List.getElem?_eq_getElem (by omega)]
    rfl
  unfold commit
  rw [hword, hcheck]
  dsimp only
  split
  · exact ⟨_, _, rfl, fun _ => rfl, fun h => absurd h (by simp)⟩
  · cases valid with
    | false => exact ⟨_, _, rfl, fun _ => rfl, fun h => absurd h (by simp)⟩
    | true =>
      refine ⟨none, _, rfl, fun h => absurd rfl h, fun _ => ?_⟩
      have hend : programStart + staged.length - 2 = programStart + (staged.length - 2) := by omega
      have hfits : programStart + (staged.length - 2) ≤ programEnd := by
        have : programStart ≤ programEnd := by decide
        omega
      have hprogram : programEnd < 65536 := by decide
      have hfinish : wordOf (UInt8.ofNat (programStart + staged.length - 2)) (UInt8.ofNat ((programStart + staged.length - 2) >>> 8)) =
          programStart + (staged.length - 2) := by
        rw [hend]
        exact wordOf_ofNat (by omega)
      have hinside : ∀ place, programStart ≤ place → place < programStart + (staged.length - 2) →
          (if programStart ≤ place ∧ place < programStart + staged.length - 2 then staged.getD (2 + (place - programStart)) 0
            else machine.ram place) = stagedRam staged place := fun place hplace hlt => if_pos ⟨hplace, by omega⟩
      refine ⟨⟨?_, ?_, ?_, ?_, rfl⟩, hfinish, ?_⟩
      · dsimp only
        rw [hfinish]
        exact (hlinked rfl).congr (Nat.le_refl _) hinside
      · dsimp only
        rw [hfinish]
        exact hfits
      · intro address hlt
        exact if_neg fun h => absurd h.1 (Nat.not_le.2 hlt)
      · intro address hle
        dsimp only at hle
        rw [hfinish] at hle
        exact if_neg fun h => by omega
      · intro place hlt
        dsimp only
        rw [if_pos ⟨Nat.le_add_right _ _, by omega⟩, Nat.add_sub_cancel_left]

/-! ## The staged buffer -/

/-- A read to the end fills the buffer, and reads outside nothing. -/
theorem readAll_spec (device : Device) (path : List UInt8) (size patience calls : Nat) {staged : List UInt8} (h : staged.length ≤ size) :
    readAll device path size patience calls staged ≠ .error .outside ∧
    ∀ full calls', readAll device path size patience calls staged = .ok (.ok full, calls') → full.length = size := by
  induction patience generalizing calls staged with
  | zero =>
    unfold readAll
    split
    · exact ⟨by simp, fun full calls' h => absurd h (by simp)⟩
    · refine ⟨by simp, fun full calls' hfull => ?_⟩
      obtain rfl := Except.ok.inj (Prod.mk.inj (Except.ok.inj hfull)).1
      omega
  | succ patience ih =>
    unfold readAll
    split
    · dsimp only
      split
      · exact ih (calls + 1) h
      · exact ⟨by simp, fun full calls' h => absurd h (by simp)⟩
      · split
        · exact ⟨by simp, fun full calls' h => absurd h (by simp)⟩
        · refine ih (calls + 1) ?_
          rw [List.length_append]
          omega
    · refine ⟨by simp, fun full calls' hfull => ?_⟩
      obtain rfl := Except.ok.inj (Prod.mk.inj (Except.ok.inj hfull)).1
      omega

theorem readExtra_ne (device : Device) (path : List UInt8) (size patience calls : Nat) :
    readExtra device path size patience calls ≠ .error .outside := by
  induction patience generalizing calls with
  | zero => simp [readExtra]
  | succ patience ih =>
    unfold readExtra
    split
    · exact ih (calls + 1)
    · simp
    · simp

/-- A buffer that is staged has a size that fits. -/
theorem stage_spec (device : Device) (path : List UInt8) (patience : Nat) :
    stage device path patience ≠ .error .outside ∧
    ∀ staged, stage device path patience = .ok (.ok staged) →
      4 ≤ staged.length ∧ staged.length ≤ programEnd - programStart + 2 := by
  have hrefused : ∀ error : String, (Except.ok (.error error) : Except Fault (Except String (List UInt8))) ≠ .error .outside ∧
      ∀ staged, (Except.ok (.error error) : Except Fault (Except String (List UInt8))) = .ok (.ok staged) →
        4 ≤ staged.length ∧ staged.length ≤ programEnd - programStart + 2 :=
    fun error => ⟨by simp, fun staged h => absurd h (by simp)⟩
  unfold stage
  dsimp only
  split
  · exact hrefused _
  · rename_i regular size _
    split
    · exact hrefused _
    · rename_i hsize
      split
      · exact hrefused _
      · have hempty : ([] : List UInt8).length ≤ size.toNat := Nat.zero_le _
        obtain ⟨hread, hfull⟩ := readAll_spec device path size.toNat patience 0 hempty
        split
        · rename_i fault hfault
          refine ⟨?_, fun staged h => absurd h (by simp)⟩
          rw [hfault] at hread
          exact fun h => hread (congrArg Except.error (Except.error.inj h))
        · exact hrefused _
        · rename_i full calls hok
          have hlength := hfull full calls hok
          split
          · rename_i fault hfault
            have hextra := readExtra_ne device path size.toNat patience calls
            refine ⟨?_, fun staged h => absurd h (by simp)⟩
            rw [hfault] at hextra
            exact fun h => hextra (congrArg Except.error (Except.error.inj h))
          · refine ⟨by simp, fun staged h => ?_⟩
            obtain rfl := Except.ok.inj (Except.ok.inj h)
            rw [hlength]
            omega
          · exact hrefused _

/-- A load reads nothing outside its buffer, and a load that fails leaves the machine; another one installs a program. -/
theorem basicStorageLoad_spec (device : Device) (patience : Nat) (settings : Settings) (machine : Machine) :
    basicStorageLoad device patience settings machine ≠ .error .outside ∧
    ∀ error machine', basicStorageLoad device patience settings machine = .ok (error, machine') →
      (error ≠ none → machine' = machine) ∧ (error = none → Installed machine machine') := by
  have hrefused : ∀ text : String, (Except.ok (some text, machine) : Except Fault (Option String × Machine)) ≠ .error .outside ∧
      ∀ error machine', (Except.ok (some text, machine) : Except Fault (Option String × Machine)) = .ok (error, machine') →
        (error ≠ none → machine' = machine) ∧ (error = none → Installed machine machine') := by
    refine fun text => ⟨by simp, fun error machine' h => ?_⟩
    obtain ⟨rfl, rfl⟩ := Prod.mk.inj (Except.ok.inj h)
    exact ⟨fun _ => rfl, fun h => absurd h (by simp)⟩
  unfold basicStorageLoad
  split
  · exact hrefused _
  · split
    · exact hrefused _
    · split
      · exact hrefused _
      · rename_i path _
        obtain ⟨hstage, hsize⟩ := stage_spec device path patience
        split
        · rename_i fault hfault
          refine ⟨?_, fun error machine' h => absurd h (by simp)⟩
          rw [hfault] at hstage
          exact fun h => hstage (congrArg Except.error (Except.error.inj h))
        · exact hrefused _
        · rename_i staged hstaged
          split
          · exact hrefused _
          · obtain ⟨hlow, hhigh⟩ := hsize staged hstaged
            obtain ⟨error, machine', hcommit, hkept, hinstalled⟩ := commit_spec machine hlow hhigh
            rw [hcommit]
            refine ⟨by simp, fun error' machine'' h => ?_⟩
            obtain ⟨rfl, rfl⟩ := Prod.mk.inj (Except.ok.inj h)
            exact ⟨hkept, fun hnone => (hinstalled hnone).1⟩

/-! ## Loads that return -/

/-- The reads of a device are not interrupted for ever. -/
def Device.Answers (device : Device) : Prop :=
  ∀ calls, ∃ later, calls ≤ later ∧ ∀ path place size, device.read path later place size ≠ .interrupted

/-- A loop that returned is not changed by more patience. -/
theorem readAll_mono {device : Device} {path : List UInt8} {size patience calls : Nat} {staged : List UInt8}
    {result : Except String (List UInt8) × Nat} (h : readAll device path size patience calls staged = .ok result) {patience' : Nat}
    (hle : patience ≤ patience') : readAll device path size patience' calls staged = .ok result := by
  induction patience generalizing calls staged patience' with
  | zero =>
    unfold readAll at h ⊢
    split at h
    · exact absurd h (by simp)
    · rename_i hfull
      rw [if_neg hfull]
      exact h
  | succ patience ih =>
    obtain ⟨patience', rfl⟩ : ∃ less, patience' = less + 1 := ⟨patience' - 1, by omega⟩
    unfold readAll at h ⊢
    by_cases hroom : staged.length < size
    · rw [if_pos hroom] at h ⊢
      dsimp only at h ⊢
      cases hread : device.read path calls staged.length (size - staged.length) with
      | interrupted =>
        rw [hread] at h
        exact ih h (by omega)
      | failed =>
        rw [hread] at h
        exact h
      | bytes data =>
        rw [hread] at h
        dsimp only at h ⊢
        split at h
        · rename_i hbad
          rw [if_pos hbad]
          exact h
        · rename_i hbad
          rw [if_neg hbad]
          exact ih h (by omega)
    · rw [if_neg hroom] at h ⊢
      exact h

theorem readExtra_mono {device : Device} {path : List UInt8} {size patience calls : Nat} {result : Bool}
    (h : readExtra device path size patience calls = .ok result) {patience' : Nat} (hle : patience ≤ patience') :
    readExtra device path size patience' calls = .ok result := by
  induction patience generalizing calls patience' with
  | zero => exact absurd h (by simp [readExtra])
  | succ patience ih =>
    obtain ⟨patience', rfl⟩ : ∃ less, patience' = less + 1 := ⟨patience' - 1, by omega⟩
    unfold readExtra at h ⊢
    cases hread : device.read path calls size 1 with
    | interrupted =>
      rw [hread] at h
      exact ih h (by omega)
    | failed =>
      rw [hread] at h
      exact h
    | bytes data =>
      rw [hread] at h
      exact h

/-- A read returns if it would where it was interrupted, and where it added to the buffer. -/
theorem readAll_step {device : Device} {path : List UInt8} {size calls : Nat} {staged : List UInt8}
    (hagain : device.read path calls staged.length (size - staged.length) = .interrupted →
      ∃ patience result, readAll device path size patience (calls + 1) staged = .ok result)
    (hmore : ∀ staged', size - staged'.length < size - staged.length →
      ∃ patience result, readAll device path size patience (calls + 1) staged' = .ok result) :
    ∃ patience result, readAll device path size patience calls staged = .ok result := by
  by_cases hroom : staged.length < size
  · -- one more round than the call that is made next
    cases hread : device.read path calls staged.length (size - staged.length) with
    | interrupted =>
      obtain ⟨patience, result, hresult⟩ := hagain hread
      refine ⟨patience + 1, result, ?_⟩
      rw [readAll, if_pos hroom, hread]
      exact hresult
    | failed => exact ⟨1, (.error "LOAD READ FAILED OR TRUNCATED", calls + 1), by rw [readAll, if_pos hroom, hread]⟩
    | bytes data =>
      by_cases hbad : data = [] ∨ data.length > size - staged.length
      · refine ⟨1, (.error "LOAD READ FAILED OR TRUNCATED", calls + 1), ?_⟩
        rw [readAll, if_pos hroom, hread]
        exact if_pos hbad
      · have hdata : 0 < data.length := List.length_pos_iff.2 fun hnil => hbad (Or.inl hnil)
        obtain ⟨patience, result, hresult⟩ := hmore (staged ++ data) (by rw [List.length_append]; omega)
        refine ⟨patience + 1, result, ?_⟩
        rw [readAll, if_pos hroom, hread]
        exact (if_neg hbad).trans hresult
  · exact ⟨0, (.ok staged, calls), by rw [readAll, if_neg hroom]⟩

/-- The buffer is full or the read failed after finitely many calls: each that is answered ends the loop or adds to the buffer. -/
theorem readAll_returns {device : Device} (hanswers : device.Answers) (path : List UInt8) (size calls : Nat) (staged : List UInt8) :
    ∃ patience result, readAll device path size patience calls staged = .ok result := by
  induction hroom : size - staged.length using Nat.strongRecOn generalizing calls staged with
  | ind room ih =>
    obtain ⟨later, hlater, hanswer⟩ := hanswers calls
    -- the calls up to the one that is answered
    induction hwait : later - calls generalizing calls with
    | zero =>
      obtain rfl : calls = later := by omega
      exact readAll_step (fun hread => absurd hread (hanswer _ _ _)) fun staged' hlt => ih _ (by omega) _ staged' rfl
    | succ wait ihwait =>
      exact readAll_step (fun _ => ihwait (calls + 1) (by omega) (by omega)) fun staged' hlt => ih _ (by omega) _ staged' rfl

theorem readExtra_returns {device : Device} (hanswers : device.Answers) (path : List UInt8) (size calls : Nat) :
    ∃ patience result, readExtra device path size patience calls = .ok result := by
  obtain ⟨later, hlater, hanswer⟩ := hanswers calls
  induction hwait : later - calls generalizing calls with
  | zero =>
    obtain rfl : calls = later := by omega
    cases hread : device.read path calls size 1 with
    | interrupted => exact absurd hread (hanswer _ _ _)
    | failed => exact ⟨1, false, by rw [readExtra, hread]⟩
    | bytes data => exact ⟨1, decide (data = []), by rw [readExtra, hread]⟩
  | succ wait ih =>
    cases hread : device.read path calls size 1 with
    | interrupted =>
      obtain ⟨patience, result, hresult⟩ := ih (calls + 1) (by omega) (by omega)
      refine ⟨patience + 1, result, ?_⟩
      rw [readExtra, hread]
      exact hresult
    | failed => exact ⟨1, false, by rw [readExtra, hread]⟩
    | bytes data => exact ⟨1, decide (data = []), by rw [readExtra, hread]⟩

theorem stage_returns {device : Device} (hanswers : device.Answers) (path : List UInt8) :
    ∃ patience result, stage device path patience = .ok result := by
  unfold stage
  dsimp only
  cases device.fstat path with
  | none => exact ⟨0, _, rfl⟩
  | some answer =>
    obtain ⟨regular, size⟩ := answer
    dsimp only
    split
    · exact ⟨0, _, rfl⟩
    · split
      · exact ⟨0, _, rfl⟩
      · obtain ⟨first, ⟨read, calls⟩, hread⟩ := readAll_returns hanswers path size.toNat 0 []
        cases read with
        | error error => exact ⟨first, .error error, by rw [hread]⟩
        | ok staged =>
          obtain ⟨second, extra, hextra⟩ := readExtra_returns hanswers path size.toNat calls
          refine ⟨first + second, if extra then .ok staged else .error "LOAD FILE CHANGED OR READ FAILED", ?_⟩
          rw [readAll_mono hread (Nat.le_add_right _ _)]
          dsimp only
          rw [readExtra_mono hextra (Nat.le_add_left _ _)]
          cases extra <;> rfl

/-- A load whose calls are answered returns. -/
theorem basicStorageLoad_returns {device : Device} (hanswers : device.Answers) (settings : Settings) (machine : Machine) :
    ∃ patience error machine', basicStorageLoad device patience settings machine = .ok (error, machine') := by
  have hreturns : ∀ patience, basicStorageLoad device patience settings machine ≠ .error .waiting →
      ∃ patience error machine', basicStorageLoad device patience settings machine = .ok (error, machine') := by
    intro patience hwaits
    have houtside := (basicStorageLoad_spec device patience settings machine).1
    cases hload : basicStorageLoad device patience settings machine with
    | error fault =>
      rw [hload] at hwaits houtside
      cases fault with
      | waiting => exact absurd rfl hwaits
      | outside => exact absurd rfl houtside
    | ok result => exact ⟨patience, result.1, result.2, hload⟩
  have hcommit : ∀ staged, commit machine staged ≠ .error .waiting := by
    intro staged
    unfold commit
    repeat' split
    all_goals simp
  cases hpath : pathFor settings with
  | error error => exact ⟨0, _, _, by rw [basicStorageLoad, hpath]⟩
  | ok result =>
    cases hopen : openLoad device settings result.1 result.2 with
    | error error =>
      refine hreturns 0 ?_
      rw [basicStorageLoad, hpath]
      dsimp only
      rw [hopen]
      split <;> simp
    | ok path =>
      obtain ⟨patience, staged, hstage⟩ := stage_returns hanswers path
      refine hreturns patience ?_
      rw [basicStorageLoad, hpath]
      dsimp only
      rw [hopen]
      dsimp only
      rw [hstage]
      split
      · simp
      · cases staged with
        | error error => simp
        | ok staged =>
          dsimp only
          split
          · simp
          · exact hcommit staged

/-! ## Loads of saved programs -/

/-- The calls of a load tell the truth about the files of a storage, when they do not fail. -/
structure Device.Honest (device : Device) (m : Medium) (w : Storage) : Prop where
  opens : ∀ path values, w.entries (m.name path) = some (.file values) → device.opens path ≠ some noEntry
  fstat : ∀ path values, w.entries (m.name path) = some (.file values) →
    ∀ answer ∈ device.fstat path, answer = (true, (values.length : Int))
  read : ∀ path values, w.entries (m.name path) = some (.file values) → ∀ calls place size data,
    device.read path calls place size = .bytes data → ∃ count, data = (values.drop place).take (min count size)

/-- The calls of a load do not fail, and a read of a file returns something up to its end. -/
structure Device.Works (device : Device) (m : Medium) (w : Storage) : Prop where
  opens : ∀ path values, w.entries (m.name path) = some (.file values) → device.opens path = none
  fstat : ∀ path values, w.entries (m.name path) = some (.file values) → device.fstat path ≠ none
  malloc : ∀ size, device.malloc size = true
  read : ∀ path values, w.entries (m.name path) = some (.file values) → ∀ calls place size,
    device.read path calls place size ≠ .failed ∧ (place < values.length → 0 < size → device.read path calls place size ≠ .bytes [])
  close : device.close = true
  answers : device.Answers

section
variable {device : Device} {m : Medium} {w : Storage} {path values : List UInt8}

/-- What is staged is the start of the file. -/
theorem readAll_prefix (hhonest : device.Honest m w) (hfile : w.entries (m.name path) = some (.file values)) {patience calls : Nat}
    {staged full : List UInt8} {calls' : Nat} (hstaged : staged <+: values)
    (h : readAll device path values.length patience calls staged = .ok (.ok full, calls')) : full = values := by
  induction patience generalizing calls staged with
  | zero =>
    unfold readAll at h
    split at h
    · exact absurd h (by simp)
    · rename_i hfull
      obtain rfl := Except.ok.inj (Prod.mk.inj (Except.ok.inj h)).1
      exact hstaged.eq_of_length_le (Nat.le_of_not_lt hfull)
  | succ patience ih =>
    unfold readAll at h
    split at h
    · dsimp only at h
      split at h
      · exact ih hstaged h
      · exact absurd h (by simp)
      · rename_i data hread
        split at h
        · exact absurd h (by simp)
        · obtain ⟨count, rfl⟩ := hhonest.read path values hfile _ _ _ _ hread
          refine ih ?_ h
          obtain ⟨rest, rfl⟩ := hstaged
          rw [List.drop_left]
          exact (List.prefix_append_right_inj _).2 (List.take_prefix _ _)
    · rename_i hfull
      obtain rfl := Except.ok.inj (Prod.mk.inj (Except.ok.inj h)).1
      exact hstaged.eq_of_length_le (Nat.le_of_not_lt hfull)

theorem readAll_works (hhonest : device.Honest m w) (hworks : device.Works m w) (hfile : w.entries (m.name path) = some (.file values))
    {patience calls : Nat} {staged : List UInt8} {error : String} {calls' : Nat} :
    readAll device path values.length patience calls staged ≠ .ok (.error error, calls') := by
  intro h
  induction patience generalizing calls staged with
  | zero =>
    unfold readAll at h
    split at h <;> exact absurd h (by simp)
  | succ patience ih =>
    unfold readAll at h
    split at h
    · rename_i hroom
      obtain ⟨hnever, hsome⟩ := hworks.read path values hfile calls staged.length (values.length - staged.length)
      dsimp only at h
      split at h
      · exact ih h
      · rename_i hread
        exact absurd hread hnever
      · rename_i data hread
        split at h
        · rename_i hbad
          rcases hbad with rfl | hlong
          · exact absurd hread (hsome hroom (by omega))
          · obtain ⟨count, rfl⟩ := hhonest.read path values hfile _ _ _ _ hread
            rw [List.length_take, List.length_drop] at hlong
            omega
        · exact ih h
    · exact absurd h (by simp)

/-- Behind the end of the file there is no byte. -/
theorem readExtra_works (hhonest : device.Honest m w) (hworks : device.Works m w) (hfile : w.entries (m.name path) = some (.file values))
    {patience calls : Nat} : readExtra device path values.length patience calls ≠ .ok false := by
  intro h
  induction patience generalizing calls with
  | zero => exact absurd h (by simp [readExtra])
  | succ patience ih =>
    obtain ⟨hnever, -⟩ := hworks.read path values hfile calls values.length 1
    unfold readExtra at h
    split at h
    · exact ih h
    · rename_i hread
      exact absurd hread hnever
    · rename_i data hread
      obtain ⟨count, rfl⟩ := hhonest.read path values hfile _ _ _ _ hread
      rw [List.drop_length, List.take_nil] at h
      exact absurd h (by simp)

/-- A buffer that is staged is the file. -/
theorem stage_honest (hhonest : device.Honest m w) (hfile : w.entries (m.name path) = some (.file values)) {patience : Nat}
    {staged : List UInt8} (h : stage device path patience = .ok (.ok staged)) : staged = values := by
  unfold stage at h
  dsimp only at h
  split at h
  · exact absurd h (by simp)
  · rename_i regular size hstat
    obtain ⟨rfl, rfl⟩ := Prod.mk.inj (hhonest.fstat path values hfile _ hstat)
    rw [Int.toNat_natCast] at h
    split at h
    · exact absurd h (by simp)
    · split at h
      · exact absurd h (by simp)
      · split at h
        · exact absurd h (by simp)
        · exact absurd h (by simp)
        · rename_i full calls hread
          split at h
          · exact absurd h (by simp)
          · obtain rfl := Except.ok.inj (Except.ok.inj h)
            exact readAll_prefix hhonest hfile (List.nil_prefix) hread
          · exact absurd h (by simp)

theorem stage_works (hhonest : device.Honest m w) (hworks : device.Works m w) (hfile : w.entries (m.name path) = some (.file values))
    (hlow : 4 ≤ values.length) (hhigh : values.length ≤ programEnd - programStart + 2) {patience : Nat} {error : String} :
    stage device path patience ≠ .ok (.error error) := by
  intro h
  unfold stage at h
  dsimp only at h
  split at h
  · rename_i hstat
    exact absurd hstat (hworks.fstat path values hfile)
  · rename_i regular size hstat
    obtain ⟨rfl, rfl⟩ := Prod.mk.inj (hhonest.fstat path values hfile _ hstat)
    have hfits : ¬(true = false ∨ (values.length : Int) < 4 ∨ (values.length : Int) > (programEnd - programStart + 2 : Nat)) := by
      rintro (hregular | hsmall | hlarge)
      · exact absurd hregular (by decide)
      · omega
      · omega
    rw [Int.toNat_natCast, if_neg hfits, if_neg (by rw [hworks.malloc]; simp)] at h
    split at h
    · exact absurd h (by simp)
    · rename_i hread
      exact absurd hread (readAll_works hhonest hworks hfile)
    · split at h
      · exact absurd h (by simp)
      · exact absurd h (by simp)
      · rename_i hextra
        exact absurd hextra (readExtra_works hhonest hworks hfile)

end

/-- A machine that holds the program of another one, up to the same end. -/
def Restored (saved machine machine' : Machine) : Prop :=
  Installed machine machine' ∧ wordOf machine'.x machine'.y = wordOf saved.x saved.y ∧
    ∀ address, programStart ≤ address → address < wordOf saved.x saved.y → machine'.ram address = saved.ram address

/-- The start of the programs and the bytes of a program that a check accepts are committed. -/
theorem commit_saved {saved : Machine} (machine : Machine) {length : Nat} (hend : wordOf saved.x saved.y = programStart + length)
    (hlow : 2 ≤ length) (hhigh : programStart + length ≤ programEnd)
    (hvalid : validProgram (window saved.ram programStart length) length = some true) :
    ∃ machine', commit machine ([1, 8] ++ slice saved.ram programStart length) = .ok (none, machine') ∧
      Restored saved machine machine' := by
  have hlength : ([1, 8] ++ slice saved.ram programStart length).length = length + 2 := by
    rw [List.length_append, length_slice]
    exact Nat.add_comm 2 length
  have hbyte : ∀ place, place < length → ([1, 8] ++ slice saved.ram programStart length).getD (2 + place) 0 =
      saved.ram (programStart + place) := by
    intro place hlt
    rw [List.getD_append_right _ _ _ _ (Nat.le_add_right 2 place)]
    show (slice saved.ram programStart length).getD (2 + place - 2) 0 = _
    rw [Nat.add_sub_cancel_left, List.getD_eq_getElem _ _ (by rwa [length_slice])]
    simp only [slice, List.getElem_map, List.getElem_range]
  have hbytes : (fun place => ([1, 8] ++ slice saved.ram programStart length)[2 + place]?) = window saved.ram programStart length := by
    rw [window_stagedRam, hlength, Nat.add_sub_cancel]
    funext place
    unfold window stagedRam
    split
    · rename_i hlt
      rw [Nat.add_sub_cancel_left, hbyte place hlt]
    · rfl
  have hsmall : 4 ≤ ([1, 8] ++ slice saved.ram programStart length).length := by
    rw [hlength]
    omega
  have hlarge : ([1, 8] ++ slice saved.ram programStart length).length ≤ programEnd - programStart + 2 := by
    rw [hlength]
    omega
  obtain ⟨error, machine', hcommit, -, hinstalled⟩ := commit_spec machine hsmall hlarge
  have haccepted : error = none := by
    have hstart : word (([1, 8] ++ slice saved.ram programStart length)[·]?) 0 = some programStart := rfl
    have hwhole := hcommit
    unfold commit at hwhole
    rw [hstart, hbytes, hlength, Nat.add_sub_cancel, hvalid] at hwhole
    dsimp only at hwhole
    rw [if_neg (fun h => h rfl)] at hwhole
    exact (Prod.mk.inj (Except.ok.inj hwhole)).1.symm
  subst haccepted
  obtain ⟨hinstalled, hfinish, hbytes'⟩ := hinstalled rfl
  rw [hlength, Nat.add_sub_cancel] at hfinish hbytes'
  refine ⟨machine', hcommit, hinstalled, hfinish.trans hend.symm, fun address hlow' hlt => ?_⟩
  have hplace := hbytes' (address - programStart) (by omega)
  rw [hbyte _ (by omega), Nat.add_sub_cancel' hlow'] at hplace
  exact hplace

/-- The path of a name does not depend on which of the two devices is meant. -/
theorem pathFor_of_filename {settings settings' : Settings} {result : List UInt8 × Bool} (h : pathFor settings = .ok result)
    (hname : settings'.filename = settings.filename) (hdevice : settings'.device = 1 ∨ settings'.device = 8)
    (hsecondary : settings'.secondary = 0) : pathFor settings' = .ok result := by
  have haccepted : ¬((settings'.device ≠ 1 ∧ settings'.device ≠ 8) ∨ settings'.secondary ≠ 0) := by
    rintro (⟨hone, height⟩ | hother)
    · rcases hdevice with hdevice | hdevice
      · exact hone hdevice
      · exact height hdevice
    · exact hother hsecondary
  unfold pathFor at h ⊢
  rw [hname]
  cases hfilename : settings.filename with
  | none =>
    rw [hfilename] at h
    exact absurd h (by simp)
  | some filename =>
    rw [hfilename] at h
    dsimp only at h ⊢
    by_cases hrefused : (settings.device ≠ 1 ∧ settings.device ≠ 8) ∨ settings.secondary ≠ 0
    · rw [if_pos hrefused] at h
      exact absurd h (by simp)
    · rw [if_neg hrefused] at h
      rw [if_neg haccepted]
      exact h

/-- The device that reads a storage and whose calls never fail. -/
def Device.ofStorage (m : Medium) (w : Storage) : Device where
  opens path :=
    match w.entries (m.name path) with
    | none => some noEntry
    | some .directory => some isDirectory
    | some (.file _) => none
  fstat path :=
    match w.entries (m.name path) with
    | some (.file values) => some (true, values.length)
    | some .directory => some (false, 0)
    | none => none
  malloc _ := true
  read path _ place size :=
    match w.entries (m.name path) with
    | some (.file values) => .bytes ((values.drop place).take size)
    | _ => .failed
  close := true

/-- What the calls come to for a file. -/
theorem Device.ofStorage_file {m : Medium} {w : Storage} {path values : List UInt8} (h : w.entries (m.name path) = some (.file values)) :
    (Device.ofStorage m w).opens path = none ∧ (Device.ofStorage m w).fstat path = some (true, (values.length : Int)) ∧
      ∀ calls place size, (Device.ofStorage m w).read path calls place size = .bytes ((values.drop place).take size) := by
  unfold Device.ofStorage
  dsimp only
  rw [h]
  exact ⟨rfl, rfl, fun _ _ _ => rfl⟩

theorem Device.honest_ofStorage (m : Medium) (w : Storage) : (Device.ofStorage m w).Honest m w := by
  refine ⟨fun path values hfile => ?_, fun path values hfile answer hanswer => ?_,
    fun path values hfile calls place size data hdata => ?_⟩
  · rw [(Device.ofStorage_file hfile).1]
    exact (Option.some_ne_none _).symm
  · rw [(Device.ofStorage_file hfile).2.1] at hanswer
    exact (Option.some.inj hanswer).symm
  · rw [(Device.ofStorage_file hfile).2.2] at hdata
    refine ⟨size, ?_⟩
    rw [Nat.min_self]
    exact (Answer.bytes.inj hdata).symm

theorem Device.works_ofStorage (m : Medium) (w : Storage) : (Device.ofStorage m w).Works m w := by
  refine ⟨fun path values hfile => (Device.ofStorage_file hfile).1, fun path values hfile => ?_, fun _ => rfl,
    fun path values hfile calls place size => ?_, rfl, fun calls => ⟨calls, Nat.le_refl _, fun path place size => ?_⟩⟩
  · rw [(Device.ofStorage_file hfile).2.1]
    exact Option.some_ne_none _
  · rw [(Device.ofStorage_file hfile).2.2]
    refine ⟨by simp, fun hplace hsize hempty => ?_⟩
    have hlength := congrArg List.length (Answer.bytes.inj hempty)
    rw [List.length_take, List.length_drop, List.length_nil] at hlength
    omega
  · unfold Device.ofStorage
    dsimp only
    split <;> simp

/-- A load of a file that a save left: it fails and leaves the machine, or restores the program; and it restores it when its calls
work. -/
theorem basicStorageLoad_saved {m : Medium} {patience : Nat} {settings settings' : Settings} {saved machine : Machine} {w w' : Storage}
    (hsave : basicStorageSave m patience settings saved w = .ok (none, w')) {device : Device} (hhonest : device.Honest m w')
    (hname : settings'.filename = settings.filename) (hdevice : settings'.device = 1 ∨ settings'.device = 8)
    (hsecondary : settings'.secondary = 0) (ha : machine.a = 0)
    (hpointer : wordOf (machine.ram 0x2b) (machine.ram 0x2c) = programStart) (haddress : wordOf machine.x machine.y = programStart) :
    (∀ patience' machine', basicStorageLoad device patience' settings' machine = .ok (none, machine') → Restored saved machine machine') ∧
    (device.Works m w' →
      ∃ patience' machine', basicStorageLoad device patience' settings' machine = .ok (none, machine') ∧
        Restored saved machine machine') := by
  obtain ⟨path, defaultDirectory, hpath, length, hend, hlow, hhigh, hvalid, hfile⟩ := basicStorageSave_none hsave
  have hpath' := pathFor_of_filename hpath hname hdevice hsecondary
  obtain ⟨machine', hcommit, hrestored⟩ := commit_saved machine hend hlow hhigh hvalid
  have hmode : ¬(machine.a ≠ 0 ∨ wordOf (machine.ram 0x2b) (machine.ram 0x2c) ≠ programStart ∨
      wordOf machine.x machine.y ≠ programStart) := by
    rintro (hmode | hmode | hmode)
    · exact hmode ha
    · exact hmode hpointer
    · exact hmode haddress
  constructor
  · intro patience' machine'' hload
    unfold basicStorageLoad at hload
    rw [hpath'] at hload
    dsimp only at hload
    rw [if_neg hmode] at hload
    split at hload
    · exact absurd hload (by simp)
    · rename_i opened hopen
      have hopened : opened = path := by
        unfold openLoad at hopen
        dsimp only at hopen
        split at hopen
        · exact (Except.ok.inj hopen).symm
        · rename_i error herror
          have hne : error ≠ noEntry := fun heq => hhonest.opens path _ hfile (heq ▸ herror)
          rw [if_neg fun h => hne h.1] at hopen
          exact absurd hopen (by simp)
      rw [hopened] at hload
      split at hload
      · exact absurd hload (by simp)
      · exact absurd hload (by simp)
      · rename_i staged hstaged
        rw [stage_honest hhonest hfile hstaged, hcommit] at hload
        split at hload
        · exact absurd hload (by simp)
        · obtain rfl := (Prod.mk.inj (Except.ok.inj hload)).2
          exact hrestored
  · intro hworks
    obtain ⟨patience', staged, hstaged⟩ := stage_returns hworks.answers path
    have hlength : ([1, 8] ++ slice saved.ram programStart length).length = length + 2 := by
      rw [List.length_append, length_slice]
      exact Nat.add_comm 2 length
    refine ⟨patience', machine', ?_, hrestored⟩
    have hopen : openLoad device settings' path defaultDirectory = .ok path := by
      rw [openLoad, hworks.opens path _ hfile]
    cases staged with
    | error error => exact absurd hstaged (stage_works hhonest hworks hfile (by rw [hlength]; omega) (by rw [hlength]; omega))
    | ok staged =>
      have hsame := stage_honest hhonest hfile hstaged
      rw [hsame] at hstaged
      unfold basicStorageLoad
      rw [hpath']
      dsimp only
      rw [if_neg hmode, hopen]
      dsimp only
      rw [hstaged]
      dsimp only
      rw [if_neg (by rw [hworks.close]; decide), hcommit]

/-- A load of a saved name restores the program that was saved, whatever way its reads go, and fails only when a call does; any load reads
nothing outside its buffer, returns when its calls are answered, and leaves the machine or installs a chain of lines. -/
theorem program_store :
    (∀ (m : Medium) (patience : Nat) (settings : Settings) (saved : Machine) (w w' : Storage),
      basicStorageSave m patience settings saved w = .ok (none, w') →
      ∀ (device : Device) (settings' : Settings) (machine : Machine), device.Honest m w' →
        settings'.filename = settings.filename → settings'.device = 1 ∨ settings'.device = 8 → settings'.secondary = 0 →
        machine.a = 0 → wordOf (machine.ram 0x2b) (machine.ram 0x2c) = programStart → wordOf machine.x machine.y = programStart →
        (∀ patience' machine', basicStorageLoad device patience' settings' machine = .ok (none, machine') →
          Restored saved machine machine') ∧
        (device.Works m w' → ∃ patience' machine',
          basicStorageLoad device patience' settings' machine = .ok (none, machine') ∧ Restored saved machine machine')) ∧
    (∀ (device : Device) (settings : Settings) (machine : Machine),
      (∀ patience, basicStorageLoad device patience settings machine ≠ .error .outside ∧
        ∀ error machine', basicStorageLoad device patience settings machine = .ok (error, machine') →
          (error ≠ none → machine' = machine) ∧ (error = none → Installed machine machine')) ∧
      (device.Answers → ∃ patience error machine', basicStorageLoad device patience settings machine = .ok (error, machine'))) := by
  refine ⟨?_, fun device settings machine => ⟨fun patience => basicStorageLoad_spec device patience settings machine,
    fun hanswers => basicStorageLoad_returns hanswers settings machine⟩⟩
  intro m patience settings saved w w' hsave device settings' machine hhonest hname hdevice hsecondary ha hpointer haddress
  exact basicStorageLoad_saved hsave hhonest hname hdevice hsecondary ha hpointer haddress

/-- The memory of an interpreter without a program. -/
def emptyRam (address : Nat) : UInt8 := if address = 0x2b then 1 else if address = 0x2c then 8 else 0

/-- The empty program is saved under a name of one letter and loaded again. -/
theorem program_store_empty :
    ∃ w', basicStorageSave ⟨true, fun _ => ⟨none, 1⟩⟩ 4 ⟨some ⟨[0x41], by decide, by decide, by decide⟩, 1, 0⟩ ⟨emptyRam, 0x2b, 3, 8⟩
        (Folder.initial fun _ => none) = .ok (none, w') ∧
      ∃ patience' machine', basicStorageLoad (Device.ofStorage ⟨true, fun _ => ⟨none, 1⟩⟩ w') patience'
        ⟨some ⟨[0x41], by decide, by decide, by decide⟩, 8, 0⟩ ⟨emptyRam, 0, 1, 8⟩ = .ok (none, machine') ∧
        Restored ⟨emptyRam, 0x2b, 3, 8⟩ ⟨emptyRam, 0, 1, 8⟩ machine' := by
  have hvalid : validProgram (window emptyRam programStart 2) 2 = some true := by
    rw [validProgram, validFrom]
    rfl
  obtain ⟨w', hsave⟩ : ∃ w', basicStorageSave ⟨true, fun _ => ⟨none, 1⟩⟩ 4 ⟨some ⟨[0x41], by decide, by decide, by decide⟩, 1, 0⟩
      ⟨emptyRam, 0x2b, 3, 8⟩ (Folder.initial fun _ => none) = .ok (none, w') := by
    unfold basicStorageSave
    have hpath : pathFor ⟨some ⟨[0x41], by decide, by decide, by decide⟩, 1, 0⟩ = .ok (ascii "T:/basic/" ++ [0x41], true) := rfl
    rw [hpath]
    dsimp only
    have hstart : wordOf (emptyRam (0x2b : UInt8).toNat) (emptyRam ((0x2b : UInt8).toNat + 1)) = programStart := rfl
    have hfinish : wordOf 3 8 = programStart + 2 := rfl
    rw [hstart, hfinish, Nat.add_sub_cancel_left, hvalid]
    exact ⟨_, rfl⟩
  exact ⟨w', hsave, (program_store.1 _ _ _ _ _ w' hsave _ ⟨some ⟨[0x41], by decide, by decide, by decide⟩, 8, 0⟩ _
    (Device.honest_ofStorage _ w') rfl (Or.inr rfl) rfl rfl rfl rfl).2 (Device.works_ofStorage _ w')⟩

end Basic
end TabOS
