import TabOS.Basic.Storage

/-!
# What a save leaves

When a save succeeds, the file of the name holds the start of the programs and then the bytes of the program, whichever way the
temporary file got the name.
-/

namespace TabOS
namespace Basic

open Library
open Kilo (ascii decimal lower Storage)

/-! ## Names -/

theorem Medium.length_name (m : Medium) (path : List UInt8) : (m.name path).length = path.length := by
  unfold Medium.name
  split
  · exact List.length_map _
  · rfl

/-- A path is short enough for a suffix. -/
theorem length_pathFor {settings : Settings} {path : List UInt8} {defaultDirectory : Bool}
    (h : pathFor settings = .ok (path, defaultDirectory)) : path.length ≤ 72 := by
  unfold pathFor at h
  split at h
  · exact absurd h (by simp)
  · rename_i filename _
    dsimp only at h
    have hlength := filename.length_le
    have hlimit : nameLimit = 63 := rfl
    have hdirectory : (ascii "T:/basic/").length = 9 := by decide
    have hbound : ∀ inDirectory : Bool,
        (formatted ((if inDirectory then ascii "T:/basic/" else []) ++ filename.bytes)).length ≤ 72 := by
      intro inDirectory
      rw [formatted, List.length_take, List.length_append]
      cases inDirectory with
      | true =>
        rw [if_pos rfl, hdirectory]
        omega
      | false =>
        rw [if_neg Bool.false_ne_true, List.length_nil]
        omega
    have hbound := hbound (decide (0x3a ∉ filename.bytes))
    generalize formatted ((if decide (0x3a ∉ filename.bytes) then ascii "T:/basic/" else []) ++ filename.bytes) = text at h hbound
    generalize componentsError [] (if decide (0x3a ∉ filename.bytes) then filename.bytes else filename.bytes.drop 3) = checked at h
    split_ifs at h
    cases checked with
    | some error => exact absurd h (by simp)
    | none =>
      obtain ⟨rfl, -⟩ := Prod.mk.inj (Except.ok.inj h)
      exact hbound

theorem length_formatted {text : List UInt8} (h : text.length < pathCapacity) : (formatted text).length = text.length := by
  unfold formatted
  rw [List.length_take]
  omega

/-- The names of the file, its temporary file and its backup are three. -/
structure Apart (m : Medium) (path temporary backup : List UInt8) : Prop where
  temporary_path : m.name temporary ≠ m.name path
  temporary_backup : m.name temporary ≠ m.name backup
  backup_path : m.name backup ≠ m.name path

theorem apart_of_length {m : Medium} {path temporary backup : List UInt8} (htemporary : path.length + 4 < temporary.length)
    (hbackup : backup.length = path.length + 4) : Apart m path temporary backup := by
  have hne : ∀ {first second : List UInt8}, first.length ≠ second.length → m.name first ≠ m.name second := by
    intro first second hlength heq
    have := congrArg List.length heq
    rw [m.length_name, m.length_name] at this
    exact hlength this
  exact ⟨hne (by omega), hne (by omega), hne (by omega)⟩

/-! ## The calls -/

/-- What is written of data is behind what the file held. -/
theorem writeAll_ok {m : Medium} {path : List UInt8} {patience : Nat} {data before : List UInt8} {w w' : Storage}
    (h : writeAll m path patience data w = .ok (true, w')) (hfile : w.entries (m.name path) = some (.file before)) :
    w'.entries (m.name path) = some (.file (before ++ data)) := by
  induction patience generalizing data before w with
  | zero =>
    cases data with
    | nil =>
      obtain rfl := (Prod.mk.inj (Except.ok.inj h)).2
      rw [hfile, List.append_nil]
    | cons byte data => exact absurd h (by simp [writeAll])
  | succ patience ih =>
    cases hdata : data with
    | nil =>
      rw [hdata] at h
      obtain rfl := (Prod.mk.inj (Except.ok.inj h)).2
      rw [hfile, List.append_nil]
    | cons byte rest =>
      rw [← hdata]
      rw [writeAll] at h
      · split at h
        · rename_i error w₁ happend
          have hsame := Folder.append_error happend
          split at h
          · exact ih h ((congrFun hsame.1 _).trans hfile)
          · exact absurd h (by simp)
        · rename_i count w₁ happend
          have hput := Folder.append_ok happend hfile
          split at h
          · exact absurd h (by simp)
          · have hwritten := ih h hput.self
            rw [List.append_assoc, List.take_append_drop] at hwritten
            exact hwritten
      · rintro rfl
        exact absurd hdata (by simp)

theorem writeProgram_ok {m : Medium} {patience : Nat} {temporary header program : List UInt8} {w w' : Storage}
    (h : writeProgram m patience temporary header program w = .ok (true, w')) (hfile : w.entries (m.name temporary) = some (.file [])) :
    w'.entries (m.name temporary) = some (.file (header ++ program)) := by
  unfold writeProgram at h
  split at h
  · exact absurd h (by simp)
  · exact absurd h (by simp)
  · rename_i w₁ hheader
    exact writeAll_ok h (writeAll_ok hheader hfile)

/-- The temporary file that is made is empty, and its name is longer than the backup's. -/
theorem openTemporary_some {m : Medium} {path temporary : List UInt8} (hpath : path.length ≤ 72) {left attempt : Nat}
    (hattempts : left + attempt ≤ 16) {w w' : Storage} (h : openTemporary m path left attempt w = (some temporary, w')) :
    w'.entries (m.name temporary) = some (.file []) ∧ path.length + 4 < temporary.length := by
  induction left generalizing attempt w with
  | zero => exact absurd h (by simp [openTemporary])
  | succ left ih =>
    rw [openTemporary] at h
    split at h
    · rename_i u w₁ hcreate
      obtain ⟨htemporary, rfl⟩ := Prod.mk.inj h
      obtain rfl := Option.some.inj htemporary
      have hdigits : ∀ number : Fin 16, 1 ≤ (decimal number).length ∧ (decimal number).length ≤ 2 := by decide
      have hdecimal := hdigits ⟨attempt, by omega⟩
      have hsuffix : (ascii ".tmp").length = 4 := by decide
      dsimp only at hdecimal
      refine ⟨(Folder.create_ok hcreate).2.self, ?_⟩
      rw [length_formatted]
      · rw [List.length_append, List.length_append]
        omega
      · rw [List.length_append, List.length_append]
        show _ < 96
        omega
    · split at h
      · exact ih (by omega) h
      · exact absurd h (by simp)

theorem length_backup {path : List UInt8} (hpath : path.length ≤ 72) : (formatted (path ++ ascii ".bak")).length = path.length + 4 := by
  have hsuffix : (ascii ".bak").length = 4 := by decide
  rw [length_formatted, List.length_append, hsuffix]
  rw [List.length_append, hsuffix]
  show _ < 96
  omega

/-- The temporary file gets the name when the old file got the backup's name. -/
theorem replaceFile_none {m : Medium} {path temporary : List UInt8} {w w' : Storage} {entry : Entry UInt8}
    (hapart : Apart m path temporary (formatted (path ++ ascii ".bak"))) (h : replaceFile m path temporary w = (none, w'))
    (hfile : w.entries (m.name temporary) = some entry) : w'.entries (m.name path) = some entry := by
  unfold replaceFile at h
  dsimp only at h
  split at h
  · exact absurd h (by simp)
  · exact absurd h (by simp)
  · rename_i w₁ hstat
    have hsame := Folder.stat_same m.outcomes (m.name path) w
    rw [hstat] at hsame
    split at h
    · exact absurd h (by simp)
    · rename_i error w₂ hbackup
      have hsame' := Folder.stat_same m.outcomes (m.name (formatted (path ++ ascii ".bak"))) w₁
      rw [hbackup] at hsame'
      split at h
      · exact absurd h (by simp)
      · split at h
        · exact absurd h (by simp)
        · rename_i u w₃ hmoved
          obtain ⟨old, -, hentries, -⟩ := Folder.rename_ok hmoved
          have hstill : w₃.entries (m.name temporary) = some entry := by
            rw [hentries, Function.update_of_ne hapart.temporary_backup, Function.update_of_ne hapart.temporary_path, hsame'.1, hsame.1,
              hfile]
          split at h
          · split at h
            · exact absurd h (by simp)
            · exact absurd h (by simp)
          · rename_i u' w₄ hpromoted
            obtain ⟨new, hnew, hentries', -⟩ := Folder.rename_ok hpromoted
            split at h
            · exact absurd h (by simp)
            · rename_i u'' w₅ hremoved
              obtain rfl := (Prod.mk.inj h).2
              rw [(Folder.unlink_ok hremoved).other hapart.backup_path.symm, hentries', Function.update_self, ← hnew, hstill]

theorem writeFile_none {m : Medium} {patience : Nat} {path temporary program : List UInt8} {w w' : Storage}
    (hapart : Apart m path temporary (formatted (path ++ ascii ".bak")))
    (h : writeFile m patience path temporary program w = .ok (none, w')) (hfile : w.entries (m.name temporary) = some (.file [])) :
    w'.entries (m.name path) = some (.file ([1, 8] ++ program)) := by
  unfold writeFile at h
  split at h
  · exact absurd h (by simp)
  · rename_i complete w₁ hwrite
    split at h
    · exact absurd h (by simp)
    · rename_i u w₂ hclose
      split at h
      · exact absurd h (by simp)
      · rename_i hcomplete
        obtain rfl := Bool.eq_true_of_not_eq_false hcomplete
        have hsame := Folder.close_same m.outcomes w₁
        rw [hclose] at hsame
        have hwritten : w₂.entries (m.name temporary) = some (.file ([1, 8] ++ program)) :=
          (congrFun hsame.1 _).trans (writeProgram_ok hwrite hfile)
        split at h
        · rename_i u' w₃ hrename
          obtain rfl := (Prod.mk.inj (Except.ok.inj h)).2
          obtain ⟨entry, hentry, hentries, -⟩ := Folder.rename_ok hrename
          rw [hentries, Function.update_self, ← hentry, hwritten]
        · rename_i error w₃ hrename
          have hkept := (Folder.rename_error hrename).1
          split at h
          · exact absurd h (by simp)
          · exact replaceFile_none hapart (Except.ok.inj h) ((congrFun hkept _).trans hwritten)

/-- A save that succeeds: its path, the span of the program, which is a valid one, and what the file holds. -/
theorem basicStorageSave_none {m : Medium} {patience : Nat} {settings : Settings} {machine : Machine} {w w' : Storage}
    (h : basicStorageSave m patience settings machine w = .ok (none, w')) :
    ∃ path defaultDirectory, pathFor settings = .ok (path, defaultDirectory) ∧
      ∃ length, wordOf machine.x machine.y = programStart + length ∧ 2 ≤ length ∧ programStart + length ≤ programEnd ∧
        validProgram (window machine.ram programStart length) length = some true ∧
        w'.entries (m.name path) = some (.file ([1, 8] ++ slice machine.ram programStart length)) := by
  unfold basicStorageSave at h
  split at h
  · exact absurd h (by simp)
  · rename_i path defaultDirectory hpath
    refine ⟨path, defaultDirectory, hpath, ?_⟩
    have hlength := length_pathFor hpath
    dsimp only at h
    split at h
    · exact absurd h (by simp)
    · rename_i hspan
      simp only [not_or, not_not, not_lt] at hspan
      obtain ⟨-, hstart, hroom, hend⟩ := hspan
      rw [hstart] at h hroom
      refine ⟨wordOf machine.x machine.y - programStart, by omega, by omega, by omega, ?_⟩
      split at h
      · exact absurd h (by simp)
      · exact absurd h (by simp)
      · rename_i hvalid
        refine ⟨hvalid, ?_⟩
        split at h
        · exact absurd h (by simp)
        · split at h
          · exact absurd h (by simp)
          · rename_i temporary w₂ hopen
            obtain ⟨hempty, hlonger⟩ := openTemporary_some hlength (by omega) hopen
            exact writeFile_none (apart_of_length hlonger (length_backup hlength)) h hempty

end Basic
end TabOS
