import TabOS.Kilo.Save

/-!
# What a save leaves behind

Wherever a save fails, the old content and the edited copy are both kept: the original stands under its name or under the backup name of
the message, no other file is touched, and a staged copy that does not get its name stays where the message says.
-/

namespace TabOS
namespace Kilo

open Library Folder

variable {m : Medium} {w w' : Storage} {filename suffix path : List UInt8}

/-! ## Paths -/

theorem sameBasename_iff (left right : List UInt8) : sameBasename left right = true ↔ left.map lower = right.map lower := by
  induction left generalizing right with
  | nil => cases right <;> simp [sameBasename]
  | cons a left ih =>
    cases right with
    | nil => simp [sameBasename]
    | cons b right =>
      rw [sameBasename, List.map_cons, List.map_cons, List.cons.injEq]
      split
      · rename_i hsame
        rw [ih]
        exact ⟨fun h => ⟨hsame, h⟩, fun h => h.2⟩
      · rename_i hdifferent
        exact ⟨fun h => absurd h Bool.false_ne_true, fun h => absurd h.1 hdifferent⟩

theorem parent_append_basename (path : List UInt8) : parent path ++ basename path = path := by
  rw [parent, basename, List.rdropWhile, List.rtakeWhile, ← List.reverse_append, List.takeWhile_append_dropWhile, List.reverse_reverse]

/-- A path with another basename leads to another file. -/
theorem name_ne {tail : List UInt8} (h : ¬sameBasename (basename filename) tail = true) :
    m.name (parent filename ++ tail) ≠ m.name filename := by
  intro heq
  rw [sameBasename_iff] at h
  have hmap : (parent filename ++ tail).map lower = filename.map lower := by
    unfold Medium.name at heq
    split at heq
    · exact heq
    · rw [heq]
  conv_rhs at hmap => rw [← parent_append_basename filename]
  rw [List.map_append, List.map_append] at hmap
  exact h (List.append_cancel_left hmap).symm

/-! ## Names that are reserved -/

/-- A name that is reserved was free, is not that of the file, and has an empty file. -/
structure Reserved (m : Medium) (filename path : List UInt8) (w w' : Storage) : Prop where
  free : w.entries (m.name path) = none
  other : m.name path ≠ m.name filename
  short : path.length < pathMax
  puts : Puts (m.name path) (some (.file [])) w w'

theorem reserveFrom_ok {left attempt : Nat} (hparent : (parent filename).length ≤ pathMax - 40)
    (h : reserveFrom m filename suffix left attempt w = (.ok path, w')) : Reserved m filename path w w' := by
  induction left generalizing attempt w with
  | zero => exact nomatch h
  | succ left ih =>
    rw [reserveFrom] at h
    split at h
    · exact ih h
    · rename_i hbasename
      split at h
      · rename_i hcreate
        obtain ⟨hpath, rfl⟩ := Prod.mk.inj h
        obtain rfl := Except.ok.inj hpath
        obtain ⟨hfree, hputs⟩ := create_ok hcreate
        refine ⟨hfree, name_ne hbasename, ?_, hputs⟩
        rw [List.length_append, tempName, List.length_take]
        unfold pathMax at hparent ⊢
        omega
      · rename_i hcreate
        obtain ⟨hentries, hrenames⟩ := create_error hcreate
        split at h
        · obtain ⟨hfree, hother, hshort, hputs⟩ := ih h
          exact ⟨hentries ▸ hfree, hother, hshort, Same.puts ⟨hentries, hrenames⟩ hputs⟩
        · exact nomatch h

theorem reserve_ok (h : reserve m filename suffix w = (.ok path, w')) : Reserved m filename path w w' := by
  unfold reserve at h
  split at h
  · exact nomatch h
  · rename_i hparent
    exact reserveFrom_ok (Nat.le_of_not_lt hparent) h

theorem reserveFrom_error {left attempt error : Nat} (h : reserveFrom m filename suffix left attempt w = (.error error, w')) :
    Same w w' := by
  induction left generalizing attempt w with
  | zero =>
    obtain rfl := (Prod.mk.inj h).2
    exact ⟨rfl, rfl⟩
  | succ left ih =>
    rw [reserveFrom] at h
    split at h
    · exact ih h
    · split at h
      · exact nomatch h
      · rename_i hcreate
        split at h
        · exact (create_error hcreate).trans (ih h)
        · obtain rfl := (Prod.mk.inj h).2
          exact create_error hcreate

theorem reserve_error {error : Nat} (h : reserve m filename suffix w = (.error error, w')) : Same w w' := by
  unfold reserve at h
  split at h
  · obtain rfl := (Prod.mk.inj h).2
    exact ⟨rfl, rfl⟩
  · exact reserveFrom_error h

/-! ## The staged copy -/

/-- A call that changes nothing leaves a file as it is. -/
theorem puts_of_same {name : List UInt8} {entry : Option (Entry UInt8)} (h : Same w w') (hentry : w.entries name = entry) :
    Puts name entry w w' := by
  refine ⟨?_, h.2⟩
  rw [h.1, ← hentry, Function.update_eq_self]

theorem writeAll_ok {data before : List UInt8} {u : Unit} (h : writeAll m path data w = (.ok u, w'))
    (hfile : w.entries (m.name path) = some (.file before)) : Puts (m.name path) (some (.file (before ++ data))) w w' := by
  induction hlength : data.length using Nat.strong_induction_on generalizing data before w with
  | _ length ih =>
    rw [writeAll] at h
    split at h
    · rename_i hnil
      obtain rfl := (Prod.mk.inj h).2
      rw [hnil, List.append_nil]
      exact puts_of_same ⟨rfl, rfl⟩ hfile
    · split at h
      · exact nomatch h
      · rename_i count w₁ happend
        split at h
        · exact nomatch h
        · have hputs := append_ok happend hfile
          have hrest := ih (data.drop count).length (by rw [List.length_drop]; omega) h hputs.self rfl
          rw [List.append_assoc, List.take_append_drop] at hrest
          exact hputs.puts hrest

theorem writeAll_error {data before : List UInt8} {error : Nat} (h : writeAll m path data w = (.error error, w'))
    (hfile : w.entries (m.name path) = some (.file before)) : ∃ content, Puts (m.name path) (some (.file content)) w w' := by
  induction hlength : data.length using Nat.strong_induction_on generalizing data before w with
  | _ length ih =>
    rw [writeAll] at h
    split at h
    · exact nomatch h
    · split at h
      · rename_i happend
        obtain rfl := (Prod.mk.inj h).2
        exact ⟨before, puts_of_same (append_error happend) hfile⟩
      · rename_i count w₁ happend
        have hputs := append_ok happend hfile
        split at h
        · obtain rfl := (Prod.mk.inj h).2
          exact ⟨_, hputs⟩
        · obtain ⟨content, hrest⟩ := ih (data.drop count).length (by rw [List.length_drop]; omega) h hputs.self rfl
          exact ⟨content, hputs.puts hrest⟩

/-- The bytes that are written for a line ending are its own. -/
theorem take_ending {ending : Nat} (h : ending ≤ 2) (hne : ending ≠ 0) :
    (if ending = 2 then [returnByte, newlineByte] else [newlineByte]).take ending = endingBytes ending := by
  match ending, h with
  | 1, _ => rfl
  | 2, _ => rfl

theorem writeRows_ok {rows : List Row} (hrows : ∀ row ∈ rows, row.ending ≤ 2) {before : List UInt8} {u : Unit}
    (h : writeRows m path rows w = (.ok u, w')) (hfile : w.entries (m.name path) = some (.file before)) :
    Puts (m.name path) (some (.file (before ++ textOf rows))) w w' := by
  induction rows generalizing before w with
  | nil =>
    obtain rfl := (Prod.mk.inj h).2
    rw [show textOf [] = [] from rfl, List.append_nil]
    exact puts_of_same ⟨rfl, rfl⟩ hfile
  | cons row rows ih =>
    have hrest : ∀ other ∈ rows, other.ending ≤ 2 := fun other hmem => hrows other (List.mem_cons_of_mem _ hmem)
    rw [writeRows] at h
    rw [textOf_cons, Row.text, ← List.append_assoc, ← List.append_assoc]
    split at h
    · cases h
    · rename_i hcontent
      have hputs := writeAll_ok hcontent hfile
      split at h
      · rename_i hending
        rw [hending, show endingBytes 0 = [] from rfl, List.append_nil]
        exact hputs.puts (ih hrest h hputs.self)
      · rename_i hending
        rw [take_ending (hrows row List.mem_cons_self) hending] at h
        split at h
        · cases h
        · rename_i hwritten
          have hputs' := hputs.puts (writeAll_ok hwritten hputs.self)
          exact hputs'.puts (ih hrest h hputs'.self)

theorem writeRows_error {rows : List Row} {before : List UInt8} {error : Nat}
    (h : writeRows m path rows w = (.error error, w')) (hfile : w.entries (m.name path) = some (.file before)) :
    ∃ content, Puts (m.name path) (some (.file content)) w w' := by
  induction rows generalizing before w with
  | nil => exact nomatch h
  | cons row rows ih =>
    rw [writeRows] at h
    split at h
    · rename_i hcontent
      obtain rfl := (Prod.mk.inj h).2
      exact writeAll_error hcontent hfile
    · rename_i hcontent
      have hputs := writeAll_ok hcontent hfile
      split at h
      · obtain ⟨content, hrest⟩ := ih h hputs.self
        exact ⟨content, hputs.puts hrest⟩
      · split at h
        · rename_i hwritten
          obtain rfl := (Prod.mk.inj h).2
          obtain ⟨content, hrest⟩ := writeAll_error hwritten hputs.self
          exact ⟨content, hputs.puts hrest⟩
        · rename_i hwritten
          have hputs' := hputs.puts (writeAll_ok hwritten hputs.self)
          obtain ⟨content, hrest⟩ := ih h hputs'.self
          exact ⟨content, hputs'.puts hrest⟩

/-- Nothing that stood under any name is another, nothing stands newly under that of the file, and no other rename to it failed. -/
structure Spared (name : List UInt8) (w w' : Storage) : Prop where
  original : w'.entries name = w.entries name
  others : ∀ other entry, w.entries other = some entry → w'.entries other = some entry
  renames : ∀ source, (source, name, false) ∈ w'.renames → (source, name, false) ∈ w.renames

theorem Spared.trans {name : List UInt8} {w'' : Storage} (h : Spared name w w') (h' : Spared name w' w'') : Spared name w w'' :=
  ⟨h'.original.trans h.original, fun other entry hentry => h'.others other entry (h.others other entry hentry),
    fun source hmem => h.renames source (h'.renames source hmem)⟩

theorem spared_of_same {name : List UInt8} (h : Same w w') : Spared name w w' := by
  obtain ⟨hentries, hrenames⟩ := h
  refine ⟨?_, ?_, ?_⟩
  · rw [hentries]
  · intro other entry hentry
    rw [hentries]
    exact hentry
  · intro source hmem
    rw [← hrenames]
    exact hmem

/-- What is put under a name that was free. -/
theorem spared_of_puts {name free : List UInt8} {entry : Option (Entry UInt8)} (h : Puts free entry w w') (hfree : w.entries free = none)
    (hne : free ≠ name) : Spared name w w' := by
  refine ⟨h.other hne.symm, ?_, ?_⟩
  · intro other entry' hentry
    rw [h.other]
    · exact hentry
    · rintro rfl
      exact Option.some_ne_none _ (hentry.symm.trans hfree)
  · intro source hmem
    rw [← h.2]
    exact hmem

/-- Whatever comes of removing it, only what stood under the name may be gone. -/
theorem puts_unlink {name : List UInt8} {entry : Option (Entry UInt8)} (outcomes : Outcomes) (h : Puts name entry w w') :
    ∃ entry', Puts name entry' w (w'.unlink outcomes name).2 := by
  rcases hunlink : w'.unlink outcomes name with ⟨result, w''⟩
  cases result with
  | ok u => exact ⟨none, h.puts (unlink_ok hunlink)⟩
  | error error => exact ⟨entry, h.same (unlink_error hunlink)⟩

/-- A staged copy that is complete stands under a name that was free. -/
structure Staged (m : Medium) (filename staged text : List UInt8) (w w' : Storage) : Prop where
  free : w.entries (m.name staged) = none
  other : m.name staged ≠ m.name filename
  short : staged.length < pathMax
  puts : Puts (m.name staged) (some (.file text)) w w'

variable {e : Editor}

theorem stageCopy_ok (hrows : ∀ row ∈ e.rows, row.ending ≤ 2) {staged : List UInt8} (h : stageCopy m e w = (.ok staged, w')) :
    Staged m e.filename staged e.text w w' := by
  unfold stageCopy at h
  split at h
  · exact nomatch h
  · rename_i hreserve
    obtain ⟨hfree, hother, hshort, hputs⟩ := reserve_ok hreserve
    split at h
    · exact nomatch h
    · rename_i w₂ hwritten
      have hputs' := hputs.puts (writeRows_ok hrows hwritten hputs.self)
      have hclose := close_same m.outcomes w₂
      split at h
      · exact nomatch h
      · rename_i hclosed
        obtain ⟨hstaged, rfl⟩ := Prod.mk.inj h
        obtain rfl := Except.ok.inj hstaged
        rw [hclosed] at hclose
        exact ⟨hfree, hother, hshort, hputs'.same hclose⟩

theorem stageCopy_error (hrows : ∀ row ∈ e.rows, row.ending ≤ 2) {message : List UInt8}
    (h : stageCopy m e w = (.error message, w')) : Spared (m.name e.filename) w w' := by
  unfold stageCopy at h
  split at h
  · rename_i hreserve
    obtain rfl := (Prod.mk.inj h).2
    exact spared_of_same (reserve_error hreserve)
  · rename_i hreserve
    obtain ⟨hfree, hother, hshort, hputs⟩ := reserve_ok hreserve
    split at h
    · rename_i w₂ hwritten
      obtain rfl := (Prod.mk.inj h).2
      obtain ⟨content, hwritten'⟩ := writeRows_error hwritten hputs.self
      obtain ⟨entry, hputs'⟩ := puts_unlink m.outcomes ((hputs.puts hwritten').same (close_same m.outcomes w₂))
      exact spared_of_puts hputs' hfree hother
    · rename_i w₂ hwritten
      have hputs' := hputs.puts (writeRows_ok hrows hwritten hputs.self)
      have hclose := close_same m.outcomes w₂
      split at h
      · rename_i hclosed
        obtain rfl := (Prod.mk.inj h).2
        rw [hclosed] at hclose
        obtain ⟨entry, hputs''⟩ := puts_unlink m.outcomes (hputs'.same hclose)
        exact spared_of_puts hputs'' hfree hother
      · exact nomatch h

/-! ## The original -/

/-- The original stands under a backup name that was free, and nothing stands under its own. -/
structure Moved (m : Medium) (filename backup : List UInt8) (w w' : Storage) : Prop where
  free : w.entries (m.name backup) = none
  other : m.name backup ≠ m.name filename
  short : backup.length < pathMax
  entries : w'.entries = Function.update (Function.update w.entries (m.name filename) none) (m.name backup) (w.entries (m.name filename))
  renames : w'.renames = (m.name filename, m.name backup, true) :: w.renames

theorem renameOriginal_ok {backup : List UInt8} (h : renameOriginal m filename w = (.ok backup, w')) : Moved m filename backup w w' := by
  unfold renameOriginal at h
  split at h
  · exact nomatch h
  · rename_i w₁ hreserve
    obtain ⟨hfree, hother, hshort, hputs⟩ := reserve_ok hreserve
    have hclose := close_same m.outcomes w₁
    split at h
    · exact nomatch h
    · rename_i w₂ hclosed
      rw [hclosed] at hclose
      split at h
      · exact nomatch h
      · rename_i w₃ hunlink
        obtain ⟨hentries, hrenames⟩ := (hputs.same hclose).puts (unlink_ok hunlink)
        rw [← hfree, Function.update_eq_self] at hentries
        split at h
        · exact nomatch h
        · rename_i hrename
          obtain ⟨hbackup, rfl⟩ := Prod.mk.inj h
          obtain rfl := Except.ok.inj hbackup
          obtain ⟨entry, hsource, hentries', hrenames'⟩ := rename_ok hrename
          rw [hentries] at hsource hentries'
          rw [hrenames] at hrenames'
          refine ⟨hfree, hother, hshort, ?_, hrenames'⟩
          rw [hsource]
          exact hentries'

/-- A rename from the name of the file fails and is none to it. -/
theorem spared_of_failed {name target : List UInt8} (hentries : w'.entries = w.entries)
    (hrenames : w'.renames = (name, target, false) :: w.renames) (hne : target ≠ name) : Spared name w w' := by
  refine ⟨?_, ?_, ?_⟩
  · rw [hentries]
  · intro other entry hentry
    rw [hentries]
    exact hentry
  · intro source hmem
    rw [hrenames] at hmem
    rcases List.mem_cons.1 hmem with heq | hmem
    · exact absurd (Prod.mk.inj (Prod.mk.inj heq).2).1.symm hne
    · exact hmem

theorem renameOriginal_error {message : List UInt8} (h : renameOriginal m filename w = (.error message, w')) :
    Spared (m.name filename) w w' := by
  unfold renameOriginal at h
  split at h
  · rename_i hreserve
    obtain rfl := (Prod.mk.inj h).2
    exact spared_of_same (reserve_error hreserve)
  · rename_i w₁ hreserve
    obtain ⟨hfree, hother, hshort, hputs⟩ := reserve_ok hreserve
    have hclose := close_same m.outcomes w₁
    split at h
    · rename_i hclosed
      obtain rfl := (Prod.mk.inj h).2
      rw [hclosed] at hclose
      exact spared_of_puts (hputs.same hclose) hfree hother
    · rename_i w₂ hclosed
      rw [hclosed] at hclose
      split at h
      · rename_i hunlink
        obtain rfl := (Prod.mk.inj h).2
        exact spared_of_puts ((hputs.same hclose).same (unlink_error hunlink)) hfree hother
      · rename_i w₃ hunlink
        have hspared := spared_of_puts ((hputs.same hclose).puts (unlink_ok hunlink)) hfree hother
        split at h
        · rename_i hrename
          obtain rfl := (Prod.mk.inj h).2
          obtain ⟨hentries, hrenames⟩ := rename_error hrename
          exact hspared.trans (spared_of_failed hentries hrenames hother)
        · exact nomatch h

/-- The name of the file is left alone, or the original has a backup name. -/
def Freed (m : Medium) (filename : List UInt8) (backup : Option (List UInt8)) (w w' : Storage) : Prop :=
  match backup with
  | none => Same w w'
  | some backup => Moved m filename backup w w'

theorem Moved.of_same {backup : List UInt8} {w'' : Storage} (h : Same w w') (h' : Moved m filename backup w' w'') :
    Moved m filename backup w w'' := by
  obtain ⟨hfree, hother, hshort, hentries, hrenames⟩ := h'
  rw [h.1] at hfree hentries
  rw [h.2] at hrenames
  exact ⟨hfree, hother, hshort, hentries, hrenames⟩

theorem freeName_ok {backup : Option (List UInt8)} (h : freeName m filename w = (.ok backup, w')) : Freed m filename backup w w' := by
  have hstat := stat_same m.outcomes (m.name filename) w
  unfold freeName at h
  split at h
  · rename_i hstated
    rw [hstated] at hstat
    split at h
    · obtain ⟨hbackup, rfl⟩ := Prod.mk.inj h
      obtain rfl := Except.ok.inj hbackup
      exact hstat
    · exact nomatch h
  · exact nomatch h
  · rename_i hstated
    rw [hstated] at hstat
    split at h
    · exact nomatch h
    · rename_i hmoved
      obtain ⟨hbackup, rfl⟩ := Prod.mk.inj h
      obtain rfl := Except.ok.inj hbackup
      exact Moved.of_same hstat (renameOriginal_ok hmoved)

theorem freeName_error {message : List UInt8} (h : freeName m filename w = (.error message, w')) : Spared (m.name filename) w w' := by
  have hstat : Spared (m.name filename) w _ := spared_of_same (stat_same m.outcomes (m.name filename) w)
  unfold freeName at h
  split at h
  · rename_i hstated
    rw [hstated] at hstat
    split at h
    · exact nomatch h
    · obtain rfl := (Prod.mk.inj h).2
      exact hstat
  · rename_i hstated
    obtain rfl := (Prod.mk.inj h).2
    rw [hstated] at hstat
    exact hstat
  · rename_i hstated
    rw [hstated] at hstat
    split at h
    · rename_i hmoved
      obtain rfl := (Prod.mk.inj h).2
      exact hstat.trans (renameOriginal_error hmoved)
    · exact nomatch h

/-! ## Putting the copy in place -/

/-- What stands before the staged copy gets its name: the complete copy, the original under its own name or its backup name, and every
other file. -/
structure Ready (m : Medium) (filename staged text : List UInt8) (backup : Option (List UInt8)) (w w' : Storage) : Prop where
  copy : w'.entries (m.name staged) = some (.file text)
  staged_ne : m.name staged ≠ m.name filename
  staged_free : w.entries (m.name staged) = none
  short : staged.length < pathMax
  moved : ∀ path, backup = some path → w'.entries (m.name path) = w.entries (m.name filename) ∧ w.entries (m.name path) = none ∧
    m.name path ≠ m.name filename ∧ m.name path ≠ m.name staged ∧ path.length < pathMax
  original : backup = none → w'.entries (m.name filename) = w.entries (m.name filename)
  others : ∀ name entry, name ≠ m.name filename → w.entries name = some entry → w'.entries name = some entry
  renames : ∀ source, (source, m.name filename, false) ∉ w'.renames

theorem ready {staged text : List UInt8} {backup : Option (List UInt8)} {w'' : Storage} (hstaged : Staged m filename staged text w w')
    (hfreed : Freed m filename backup w' w'') (hnone : w.renames = []) : Ready m filename staged text backup w w'' := by
  obtain ⟨hfree, hother, hshort, hputs⟩ := hstaged
  have hothers : ∀ name entry, w.entries name = some entry → w'.entries name = some entry := by
    intro name entry hentry
    rw [hputs.other]
    · exact hentry
    · rintro rfl
      exact Option.some_ne_none _ (hentry.symm.trans hfree)
  have hrenames := hputs.2.trans hnone
  cases backup with
  | none =>
    obtain ⟨hentries, hrenames'⟩ := hfreed
    refine ⟨?_, hother, hfree, hshort, fun path hpath => absurd hpath (Option.some_ne_none _).symm, fun _ => ?_, ?_, ?_⟩
    · rw [hentries, hputs.self]
    · rw [hentries, hputs.other hother.symm]
    · intro name entry _ hentry
      rw [hentries]
      exact hothers name entry hentry
    · intro source
      rw [hrenames', hrenames]
      exact List.not_mem_nil
  | some backup =>
    obtain ⟨hfree', hother', hshort', hentries, hrenames'⟩ := hfreed
    have hne : m.name backup ≠ m.name staged := by
      intro heq
      rw [heq, hputs.self] at hfree'
      exact Option.some_ne_none _ hfree'
    refine ⟨?_, hother, hfree, hshort, ?_, fun hbackup => absurd hbackup (Option.some_ne_none _), ?_, ?_⟩
    · rw [hentries, Function.update_of_ne hne.symm, Function.update_of_ne hother, hputs.self]
    · intro path hpath
      obtain rfl := Option.some.inj hpath
      refine ⟨?_, ?_, hother', hne, hshort'⟩
      · rw [hentries, Function.update_self, hputs.other hother.symm]
      · rw [← hputs.other hne]
        exact hfree'
    · intro name entry hname hentry
      have hentry' := hothers name entry hentry
      rw [hentries, Function.update_of_ne, Function.update_of_ne hname]
      · exact hentry'
      · rintro rfl
        exact Option.some_ne_none _ (hentry'.symm.trans hfree')
    · intro source hmem
      rw [hrenames', hrenames] at hmem
      have heq := List.mem_singleton.1 hmem
      exact Bool.false_ne_true (Prod.mk.inj (Prod.mk.inj heq).2).2

theorem take_editedCopy {reason staged : List UInt8} (hreason : reason.length ≤ 600) (hstaged : staged.length < pathMax) :
    (editedCopy reason staged).take 1199 = editedCopy reason staged := by
  have hfirst : (ascii "Save failed (").length = 13 := by decide
  have hsecond : (ascii "); edited copy at ").length = 18 := by decide
  refine List.take_of_length_le ?_
  unfold pathMax at hstaged
  rw [editedCopy, List.length_append, List.length_append, List.length_append]
  omega

theorem take_bothCopies {backup staged : List UInt8} (hbackup : backup.length < pathMax) (hstaged : staged.length < pathMax) :
    (bothCopies backup staged).take 1199 = bothCopies backup staged := by
  have hfirst : (ascii "SAVE FAILED: original at ").length = 25 := by decide
  have hsecond : (ascii "; edited copy at ").length = 17 := by decide
  refine List.take_of_length_le ?_
  unfold pathMax at hbackup hstaged
  rw [bothCopies, List.length_append, List.length_append, List.length_append]
  omega

/-- What a save keeps. -/
structure Kept (m : Medium) (e : Editor) (w : Storage) (result : (Bool × Editor) × Storage) : Prop where
  saved : result.1.1 = true → result.2.entries (m.name e.filename) = some (.file e.text)
  original : result.1.1 = false → result.2.entries (m.name e.filename) = w.entries (m.name e.filename) ∨
    ∃ backup staged, result.2.renames.head? = some (m.name backup, m.name e.filename, false) ∧
      result.2.entries (m.name backup) = w.entries (m.name e.filename) ∧ result.1.2.recovery = bothCopies backup staged
  staged : (∀ error, (m.strerror error).length ≤ 600) → ∀ source, (source, m.name e.filename, false) ∈ result.2.renames →
    ∃ staged, (m.name staged, m.name e.filename, false) ∈ result.2.renames ∧
      result.2.entries (m.name staged) = some (.file e.text) ∧
      ((∃ error, result.1.2.message = editedCopy (m.strerror error) staged) ∨ ∃ backup, result.1.2.message = bothCopies backup staged)
  others : ∀ name entry, name ≠ m.name e.filename → w.entries name = some entry → result.2.entries name = some entry
  dirty : result.1.2.dirty = if result.1.1 then false else e.dirty
  rows : result.1.2.rows = e.rows

/-- The copy stands under the name of the file when it could be renamed. -/
theorem renamed {staged text : List UInt8} {backup : Option (List UInt8)} {u : Unit} {w'' : Storage}
    (h : Ready m filename staged text backup w w')
    (hrename : w'.rename m.outcomes (m.name staged) (m.name filename) = (.ok u, w'')) :
    w''.entries (m.name filename) = some (.file text) ∧
    (∀ name entry, name ≠ m.name filename → w.entries name = some entry → w''.entries name = some entry) ∧
    ∀ source, (source, m.name filename, false) ∉ w''.renames := by
  obtain ⟨entry, hsource, hentries, hrenames⟩ := rename_ok hrename
  obtain rfl := Option.some.inj (hsource.symm.trans h.copy)
  refine ⟨?_, ?_, ?_⟩
  · rw [hentries, Function.update_self]
  · intro name entry hname hentry
    rw [hentries, Function.update_of_ne hname, Function.update_of_ne]
    · exact h.others name entry hname hentry
    · rintro rfl
      exact Option.some_ne_none _ (hentry.symm.trans h.staged_free)
  · intro source hmem
    rw [hrenames] at hmem
    rcases List.mem_cons.1 hmem with heq | hmem
    · exact Bool.false_ne_true (Prod.mk.inj (Prod.mk.inj heq).2).2
    · exact h.renames source hmem

/-- A save that is given up before the name of the file is free. -/
theorem kept_of_spared {message : List UInt8} (h : Spared (m.name e.filename) w w') (hnone : w.renames = []) :
    Kept m e w ((false, kiloStatus message e), w') := by
  refine ⟨fun hfalse => absurd hfalse Bool.false_ne_true, fun _ => Or.inl h.original, ?_, fun name entry _ => h.others name entry,
    rfl, rfl⟩
  intro _ source hmem
  have hmem' := h.renames source hmem
  rw [hnone] at hmem'
  exact absurd hmem' List.not_mem_nil

theorem putInPlace_kept {staged : List UInt8} {backup : Option (List UInt8)}
    (h : Ready m e.filename staged e.text backup w w') : Kept m e w (putInPlace m e staged backup w') := by
  obtain ⟨hstaged, hne, hfree, hshort, hbackup, horiginal, hothers, hrenames⟩ := h
  unfold putInPlace
  split
  · rename_i error w₁ hrename
    obtain ⟨hentries, hrenames'⟩ := rename_error hrename
    refine ⟨fun hfalse => absurd hfalse Bool.false_ne_true, fun _ => Or.inl ?_, ?_, ?_, rfl, rfl⟩
    · show w₁.entries _ = _
      rw [hentries]
      exact horiginal rfl
    · intro hstrerror source _
      refine ⟨staged, ?_, ?_, Or.inl ⟨error, take_editedCopy (hstrerror error) hshort⟩⟩
      · rw [hrenames']
        exact List.mem_cons_self
      · show w₁.entries _ = _
        rw [hentries]
        exact hstaged
    · intro name entry hname hentry
      show w₁.entries _ = _
      rw [hentries]
      exact hothers name entry hname hentry
  · rename_i error w₁ backup hrename
    obtain ⟨hentries, hrenames'⟩ := rename_error hrename
    obtain ⟨hmoved, hfree', hne', hne'', hshort'⟩ := hbackup backup rfl
    split
    · rename_i error' w₂ hrollback
      obtain ⟨hentries', hrenames''⟩ := rename_error hrollback
      rw [hentries] at hentries'
      rw [hrenames'] at hrenames''
      refine ⟨fun hfalse => absurd hfalse Bool.false_ne_true, fun _ => Or.inr ?_, ?_, ?_, rfl, rfl⟩
      · refine ⟨backup, staged, ?_, ?_, take_bothCopies hshort' hshort⟩
        · rw [hrenames'']
          rfl
        · show w₂.entries _ = _
          rw [hentries']
          exact hmoved
      · intro _ source _
        refine ⟨staged, ?_, ?_, Or.inr ⟨backup, take_bothCopies hshort' hshort⟩⟩
        · rw [hrenames'']
          exact List.mem_cons_of_mem _ List.mem_cons_self
        · show w₂.entries _ = _
          rw [hentries']
          exact hstaged
      · intro name entry hname hentry
        show w₂.entries _ = _
        rw [hentries']
        exact hothers name entry hname hentry
    · rename_i w₂ hrollback
      obtain ⟨entry, hsource, hentries', hrenames''⟩ := rename_ok hrollback
      rw [hentries] at hsource hentries'
      rw [hrenames'] at hrenames''
      refine ⟨fun hfalse => absurd hfalse Bool.false_ne_true, fun _ => Or.inl ?_, ?_, ?_, rfl, rfl⟩
      · show w₂.entries _ = _
        rw [hentries', Function.update_self, ← hsource]
        exact hmoved
      · intro hstrerror source _
        refine ⟨staged, ?_, ?_, Or.inl ⟨error, take_editedCopy (hstrerror error) hshort⟩⟩
        · rw [hrenames'']
          exact List.mem_cons_of_mem _ List.mem_cons_self
        · show w₂.entries _ = _
          rw [hentries', Function.update_of_ne hne, Function.update_of_ne hne''.symm]
          exact hstaged
      · intro name entry hname hentry
        show w₂.entries _ = _
        rw [hentries', Function.update_of_ne hname, Function.update_of_ne]
        · exact hothers name entry hname hentry
        · rintro rfl
          exact Option.some_ne_none _ (hentry.symm.trans hfree')
  · rename_i w₁ hrename
    obtain ⟨hplaced, hothers', hrenames'⟩ := renamed ⟨hstaged, hne, hfree, hshort, hbackup, horiginal, hothers, hrenames⟩ hrename
    exact ⟨fun _ => hplaced, fun htrue => absurd htrue.symm Bool.false_ne_true, fun _ source hmem => absurd hmem (hrenames' source),
      hothers', rfl, rfl⟩
  · rename_i w₁ backup hrename
    obtain ⟨-, hfree', hne', -, -⟩ := hbackup backup rfl
    obtain ⟨hplaced, hothers', hrenames'⟩ := renamed ⟨hstaged, hne, hfree, hshort, hbackup, horiginal, hothers, hrenames⟩ hrename
    split
    · rename_i w₂ hunlink
      obtain ⟨hentries, hrenames''⟩ := unlink_error hunlink
      refine ⟨fun _ => ?_, fun htrue => absurd htrue.symm Bool.false_ne_true, fun _ source hmem => ?_, ?_, rfl, rfl⟩
      · show w₂.entries _ = _
        rw [hentries]
        exact hplaced
      · rw [hrenames''] at hmem
        exact absurd hmem (hrenames' source)
      · show ∀ name entry, _ → _ → w₂.entries name = _
        rw [hentries]
        exact hothers'
    · rename_i w₂ hunlink
      have hputs := unlink_ok hunlink
      refine ⟨fun _ => ?_, fun htrue => absurd htrue.symm Bool.false_ne_true, fun _ source hmem => ?_, ?_, rfl, rfl⟩
      · show w₂.entries _ = _
        rw [hputs.other hne'.symm]
        exact hplaced
      · rw [hputs.2] at hmem
        exact absurd hmem (hrenames' source)
      · intro name entry hname hentry
        show w₂.entries _ = _
        rw [hputs.other]
        · exact hothers' name entry hname hentry
        · rintro rfl
          exact Option.some_ne_none _ (hentry.symm.trans hfree')

/-- A file that stood under no name before may be removed. -/
theorem Spared.unlink {name free : List UInt8} (outcomes : Outcomes) (h : Spared name w w') (hfree : w.entries free = none)
    (hne : free ≠ name) : Spared name w (w'.unlink outcomes free).2 := by
  rcases hunlink : w'.unlink outcomes free with ⟨result, w''⟩
  cases result with
  | error error => exact h.trans (spared_of_same (unlink_error hunlink))
  | ok u =>
    have hputs := unlink_ok hunlink
    refine ⟨(hputs.other hne.symm).trans h.original, ?_, ?_⟩
    · intro other entry hentry
      rw [hputs.other]
      · exact h.others other entry hentry
      · rintro rfl
        exact Option.some_ne_none _ (hentry.symm.trans hfree)
    · intro source hmem
      rw [hputs.2] at hmem
      exact h.renames source hmem

theorem kiloSave_kept (hrows : ∀ row ∈ e.rows, row.ending ≤ 2)
    (hnone : w.renames = []) : Kept m e w (kiloSave m e w) := by
  unfold kiloSave
  split
  · rename_i message w₁ hstage
    exact kept_of_spared (stageCopy_error hrows hstage) hnone
  · rename_i staged w₁ hstage
    have hstaged := stageCopy_ok hrows hstage
    split
    · rename_i message w₂ hfree
      have hspared := (spared_of_puts hstaged.puts hstaged.free hstaged.other).trans (freeName_error hfree)
      exact kept_of_spared (hspared.unlink m.outcomes hstaged.free hstaged.other) hnone
    · rename_i backup w₂ hfree
      exact putInPlace_kept (ready hstaged (freeName_ok hfree) hnone)

/-- A save that succeeds leaves the text of the document under the name of the file. One that fails leaves what stood there, except that
it stands under the backup name that is kept for the end of the program when the renaming back failed, too. Whenever the staged copy could
not be renamed it is complete under the name of the message. No other file is touched, the rows stay, and the document is no longer dirty
exactly when the save succeeds. -/
theorem save_keeps (m : Medium) (hstrerror : ∀ error, (m.strerror error).length ≤ 600) (e : Editor) (h : e.Valid)
    (entries : List UInt8 → Option (Entry UInt8)) :
    let result := kiloSave m e (initial entries)
    let saved := result.1.1
    let e' := result.1.2
    let w := result.2
    let original := m.name e.filename
    (saved = true → w.entries original = some (.file e.text)) ∧
    (saved = false → w.entries original = entries original ∨
      ∃ backup staged, w.renames.head? = some (m.name backup, original, false) ∧ w.entries (m.name backup) = entries original ∧
        e'.recovery = bothCopies backup staged) ∧
    (∀ source, (source, original, false) ∈ w.renames →
      ∃ staged, (m.name staged, original, false) ∈ w.renames ∧ w.entries (m.name staged) = some (.file e.text) ∧
        ((∃ error, e'.message = editedCopy (m.strerror error) staged) ∨ ∃ backup, e'.message = bothCopies backup staged)) ∧
    (∀ name entry, name ≠ original → entries name = some entry → w.entries name = some entry) ∧
    e'.dirty = (if saved then false else e.dirty) ∧ e'.rows = e.rows := by
  intro result saved e' w original
  have hrows : ∀ row ∈ e.rows, row.ending ≤ 2 := fun row hmem => (h.rows row hmem).ending_le
  obtain ⟨hsaved, horiginal, hstaged, hothers, hdirty, hsame⟩ :=
    kiloSave_kept (w := initial entries) hrows rfl
  exact ⟨hsaved, horiginal, hstaged hstrerror, hothers, hdirty, hsame⟩

/-- A document of two lines that is saved in a folder that keeps no other case apart. -/
theorem save_keeps_two_lines :
    let m : Medium := { folds := true, outcomes := fun _ => ⟨none, 1⟩, strerror := fun _ => [] }
    let file : LoadCalls := { metadata := .ok false, opened := none, readings := [.block [0x61, 0x0d, 0x0a, 0x62]], closed := none }
    let e := (kiloLoad m.strerror file (fun _ => true) (kiloInit [0x66])).2
    let result := kiloSave m e (initial fun _ => none)
    result.1.1 = true → result.2.entries (m.name e.filename) = some (.file e.text) :=
  (save_keeps { folds := true, outcomes := fun _ => ⟨none, 1⟩, strerror := fun _ => [] } (fun _ => Nat.zero_le _)
    (kiloLoad (fun _ => [])
      { metadata := .ok false, opened := none, readings := [.block [0x61, 0x0d, 0x0a, 0x62]], closed := none } (fun _ => true)
      (kiloInit [0x66])).2
    (by
      rcases kiloLoad_spec (fun _ => [])
        { metadata := .ok false, opened := none, readings := [.block [0x61, 0x0d, 0x0a, 0x62]], closed := none } (fun _ => true)
        (kiloInit [0x66]) with ⟨hfailed, -⟩ | ⟨-, hvalid, -⟩
      · exact absurd hfailed (by decide)
      · exact hvalid) fun _ => none).1

end Kilo
end TabOS
