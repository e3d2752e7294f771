import TabOS.Kilo.Session
import TabOS.Kilo.Recovery
import Mathlib.Data.List.Forall2

/-!
# From a file to a file

What is loaded is saved again byte for byte. Each row of an edited document is traced to the row it was loaded as, unless an edit has
touched it, and it is still that row.
-/

namespace TabOS
namespace Kilo

open Library Folder

variable {e e' : Editor} {memory : Memory} {strerror : Strerror}

/-! ## Blocks -/

/-- Blocks as `read` returns them that hold a content. -/
def Delivers (blocks : List (List UInt8)) (content : List UInt8) : Prop :=
  (∀ block ∈ blocks, block ≠ [] ∧ block.length ≤ 512) ∧ blocks.flatten = content

/-- What is taken does not depend on how it was cut into blocks. -/
theorem takeReadings_blocks {blocks : List (List UInt8)} (h : ∀ block ∈ blocks, block ≠ [] ∧ block.length ≤ 512) (s : Loading) :
    takeReadings strerror memory (blocks.map Reading.block) s = takeBytes memory blocks.flatten s := by
  induction blocks generalizing s with
  | nil => rfl
  | cons block blocks ih =>
    obtain ⟨hne, hle⟩ := h block List.mem_cons_self
    rw [List.map_cons, takeReadings, if_neg (fun hzero => hne (List.length_eq_zero_iff.1 hzero)), if_neg (Nat.not_lt.2 hle),
      List.flatten_cons, takeBytes_append]
    split
    · rfl
    · exact ih (fun other hmem => h other (List.mem_cons_of_mem _ hmem)) _

theorem delivered_blocks {blocks : List (List UInt8)} (h : ∀ block ∈ blocks, block ≠ [] ∧ block.length ≤ 512) :
    delivered (blocks.map Reading.block) = blocks.flatten := by
  induction blocks with
  | nil => rfl
  | cons block blocks ih =>
    obtain ⟨hne, -⟩ := h block List.mem_cons_self
    rw [List.map_cons, delivered, if_neg (fun hzero => hne (List.length_eq_zero_iff.1 hzero)), List.flatten_cons,
      ih fun other hmem => h other (List.mem_cons_of_mem _ hmem)]

theorem kiloLoad_blocks {calls : LoadCalls} {blocks blocks' : List (List UInt8)} {content : List UInt8}
    (hreadings : calls.readings = blocks.map Reading.block) (h : Delivers blocks content) (h' : Delivers blocks' content) :
    kiloLoad strerror { calls with readings := blocks'.map Reading.block } memory e = kiloLoad strerror calls memory e := by
  have hsame : ∀ s, takeReadings strerror memory (blocks'.map Reading.block) s = takeReadings strerror memory calls.readings s := by
    intro s
    rw [hreadings, takeReadings_blocks h.1, takeReadings_blocks h'.1, h.2, h'.2]
  unfold kiloLoad openAndRead
  dsimp only
  rw [hsame]

/-! ## The name of the file -/

theorem kiloAppendRow_filename {granted done : Bool} {text : List UInt8} {ending : Nat} {loaded : Editor}
    (h : kiloAppendRow granted text ending e = (done, loaded)) : loaded.filename = e.filename := by
  unfold kiloAppendRow at h
  split at h
  · obtain rfl := (Prod.mk.inj h).2
    rfl
  · split at h
    · obtain rfl := (Prod.mk.inj h).2
      rfl
    · obtain rfl := (Prod.mk.inj h).2
      rfl

theorem takeBytes_filename {bytes : List UInt8} {s s' : Loading} (h : takeBytes memory bytes s = .ok s') :
    s'.loaded.filename = s.loaded.filename := by
  induction bytes generalizing s with
  | nil =>
    obtain rfl := Except.ok.inj h
    rfl
  | cons c bytes ih =>
    rw [takeBytes] at h
    split at h
    · cases h
    · rename_i s₁ hbyte
      rw [ih h]
      unfold takeByte at hbyte
      split at hbyte
      · cases hbyte
      · split at hbyte
        · dsimp only at hbyte
          split at hbyte
          · cases hbyte
          · rename_i happend
            obtain rfl := Except.ok.inj hbyte
            have hfilename := kiloAppendRow_filename happend
            exact hfilename
        · split at hbyte
          · cases hbyte
          · obtain rfl := Except.ok.inj hbyte
            rfl

theorem openAndRead_filename (strerror : Strerror) (calls : LoadCalls) (memory : Memory) (e : Editor) :
    (openAndRead strerror calls memory e).2.filename = e.filename := by
  unfold openAndRead
  split
  · split
    · split
      · rfl
      · rename_i happend
        have hfilename := kiloAppendRow_filename happend
        exact hfilename
    · rfl
  · split
    · rfl
    · rfl
    · rename_i htaken _
      split
      · rfl
      · rename_i happend
        exact (kiloAppendRow_filename happend).trans (takeBytes_filename (takeReadings_eq htaken))

theorem kiloLoad_filename (strerror : Strerror) (calls : LoadCalls) (memory : Memory) (e : Editor) :
    (kiloLoad strerror calls memory e).2.filename = e.filename := by
  unfold kiloLoad
  split
  · rfl
  · split
    · rfl
    · split
      · rfl
      · exact openAndRead_filename strerror calls memory e
      · split
        · exact openAndRead_filename strerror calls memory e
        · rfl

theorem kiloInsert_filename (memory : Memory) (byte : UInt8) (e : Editor) : (kiloInsert memory byte e).2.filename = e.filename := by
  unfold kiloInsert
  dsimp only
  repeat' split
  all_goals rfl

theorem kiloSplit_filename (memory : Memory) (e : Editor) : (kiloSplit memory e).2.filename = e.filename := by
  unfold kiloSplit
  dsimp only
  repeat' split
  all_goals rfl

theorem kiloDelete_filename (memory : Memory) (backward : Bool) (e : Editor) :
    (kiloDelete memory backward e).2.filename = e.filename := by
  unfold kiloDelete
  dsimp only
  repeat' split
  all_goals rfl

theorem CursorMoved.filename (h : CursorMoved e e') : e'.filename = e.filename := by
  obtain ⟨cy, cx, rfl, -, -⟩ := h
  rfl

/-- No operation gives the document another file. -/
theorem perform_filename (h : e.Valid) (memory : Memory) (operation : Operation) :
    (perform strerror memory operation e).2.filename = e.filename := by
  cases operation with
  | insert byte => exact kiloInsert_filename memory byte e
  | split => exact kiloSplit_filename memory e
  | delete backward => exact kiloDelete_filename memory backward e
  | move dx dy => exact (kiloMove_spec h dx dy).filename
  | query text => rfl
  | search direction next =>
    show (kiloSearch direction next e).2.filename = e.filename
    rcases kiloSearch_spec h direction next with ⟨-, hsame⟩ | ⟨-, hmoved, -⟩
    · rw [hsame]
    · exact hmoved.filename
  | load calls => exact kiloLoad_filename strerror calls memory e

theorem run_filename (h : e.Valid) (steps : List (Operation × Memory)) : (run strerror steps e).filename = e.filename := by
  induction steps generalizing e with
  | nil => rfl
  | cons step steps ih => exact (ih (perform_valid h step.2 step.1)).trans (perform_filename h step.2 step.1)

/-! ## Rows that no edit touches -/

/-- The row each row was loaded as, none for one that an edit has touched. -/
abbrev Origins := List (Option Nat)

/-- The origins after an operation that succeeds. -/
def retrace (operation : Operation) (e e' : Editor) (origins : Origins) : Origins :=
  match operation with
  | .insert _ => origins.take e.cy ++ none :: origins.drop (e.cy + 1)
  | .split => origins.take e.cy ++ none :: none :: origins.drop (e.cy + 1)
  | .delete _ => origins.take e'.cy ++ none :: origins.drop (e'.cy + 1 + (e.rows.length - e'.rows.length))
  | _ => origins

/-- The origins after some operations. -/
def trace (strerror : Strerror) : List (Operation × Memory) → Editor → Origins → Origins
  | [], _, origins => origins
  | (operation, memory) :: rest, e, origins =>
    let (done, e') := perform strerror memory operation e
    trace strerror rest e' (if done then retrace operation e e' origins else origins)

/-- A row that has an origin is the row that was loaded. -/
def Origin (loaded : List Row) (origin : Option Nat) (row : Row) : Prop := ∀ j, origin = some j → loaded[j]? = some row

theorem origin_none (loaded : List Row) (row : Row) : Origin loaded none row := fun _ hnone => absurd hnone.symm (Option.some_ne_none _)

variable {loaded : List Row} {origins : Origins}

/-- The rows around those that are replaced keep their origins. -/
theorem traced_replaced {y : Nat} {old new : List Row} {traced : Origins} (h : List.Forall₂ (Origin loaded) origins e.rows)
    (hreplaced : Replaced y old new e e') (hnew : List.Forall₂ (Origin loaded) traced new) :
    List.Forall₂ (Origin loaded) (origins.take y ++ (traced ++ origins.drop (y + old.length))) e'.rows := by
  obtain ⟨before, after, hrows, hlength, hrows'⟩ := hreplaced
  rw [hrows] at h
  have hbefore := List.forall₂_take y h
  have hafter := List.forall₂_drop (y + old.length) h
  rw [← hlength, List.take_left] at hbefore
  rw [← List.append_assoc, List.drop_left' (by rw [List.length_append, hlength])] at hafter
  rw [hrows', ← hlength]
  rw [← hlength] at hafter
  exact List.rel_append hbefore (List.rel_append hnew hafter)

/-- An operation other than a load keeps the origins right. -/
theorem traced_perform (h : e.Valid) (memory : Memory) {operation : Operation} (hedit : ∀ calls, operation ≠ .load calls)
    (htraced : List.Forall₂ (Origin loaded) origins e.rows) :
    List.Forall₂ (Origin loaded)
      (if (perform strerror memory operation e).1 then retrace operation e (perform strerror memory operation e).2 origins else origins)
      (perform strerror memory operation e).2.rows := by
  have hone : ∀ row, List.Forall₂ (Origin loaded) [none] [row] := fun row => .cons (origin_none loaded row) .nil
  rcases perform_spec h strerror memory operation with ⟨hfailed, hunchanged⟩ | ⟨hdone, -, heffect⟩
  · rw [hfailed]
    obtain ⟨message, hsame⟩ := hunchanged
    rw [hsame]
    exact htraced
  · rw [hdone]
    generalize (perform strerror memory operation e).2 = e' at heffect
    cases operation with
    | insert byte =>
      obtain ⟨-, row, -, hreplaced⟩ := heffect
      exact traced_replaced htraced hreplaced (hone row)
    | split =>
      obtain ⟨-, left, right, -, hreplaced⟩ := heffect
      exact traced_replaced htraced hreplaced (.cons (origin_none loaded left) (hone right))
    | delete backward =>
      rcases heffect with ⟨byte, row, -, -, hreplaced⟩ | ⟨joined, -, -, -, hreplaced⟩
      · have htraced' := traced_replaced htraced hreplaced (hone row)
        have hsame : e'.rows.length = e.rows.length := by
          obtain ⟨before, after, hrows, -, hrows'⟩ := hreplaced
          rw [hrows, hrows', List.length_append, List.length_append, List.length_append, List.length_append]
          rfl
        show List.Forall₂ _ (origins.take e'.cy ++ none :: origins.drop (e'.cy + 1 + (e.rows.length - e'.rows.length))) _
        rw [hsame, Nat.sub_self]
        exact htraced'
      · have htraced' := traced_replaced htraced hreplaced (hone joined)
        have hfewer : e.rows.length = e'.rows.length + 1 := by
          obtain ⟨before, after, hrows, -, hrows'⟩ := hreplaced
          rw [hrows, hrows', List.length_append, List.length_append, List.length_append, List.length_append]
          simp only [List.length_cons, List.length_nil]
          omega
        show List.Forall₂ _ (origins.take e'.cy ++ none :: origins.drop (e'.cy + 1 + (e.rows.length - e'.rows.length))) _
        rw [hfewer, Nat.add_sub_cancel_left]
        exact htraced'
    | move dx dy =>
      obtain ⟨cy, cx, rfl, -, -⟩ := heffect
      exact htraced
    | query text =>
      obtain rfl := heffect
      exact htraced
    | search direction next =>
      obtain ⟨cy, cx, rfl, -, -⟩ := heffect
      exact htraced
    | load calls => exact absurd rfl (hedit calls)

theorem traced_run (h : e.Valid) {edits : List (Operation × Memory)} (hedits : ∀ edit ∈ edits, ∀ calls, edit.1 ≠ .load calls)
    (htraced : List.Forall₂ (Origin loaded) origins e.rows) :
    List.Forall₂ (Origin loaded) (trace strerror edits e origins) (run strerror edits e).rows := by
  induction edits generalizing e origins with
  | nil => exact htraced
  | cons edit edits ih =>
    exact ih (perform_valid h edit.2 edit.1) (fun other hmem => hedits other (List.mem_cons_of_mem _ hmem))
      (traced_perform h edit.2 (hedits edit List.mem_cons_self) htraced)

/-- Before any edit each row is the one that was loaded. -/
theorem traced_loaded (loaded : List Row) : List.Forall₂ (Origin loaded) ((List.range loaded.length).map some) loaded := by
  refine List.forall₂_iff_get.2 ⟨by rw [List.length_map, List.length_range], ?_⟩
  intro i hi hi' j hj
  have hij : i = j := by
    simpa using hj
  subst hij
  exact List.getElem?_eq_getElem hi'

/-! ## The round trip -/

/-- A valid document that is saved stands in its file. -/
theorem kiloSave_saved {m : Medium} (h : e.Valid) (entries : List UInt8 → Option (Entry UInt8))
    (hsaved : (kiloSave m e (initial entries)).1.1 = true) :
    (kiloSave m e (initial entries)).2.entries (m.name e.filename) = some (.file e.text) :=
  (kiloSave_kept (fun row hmem => (h.rows row hmem).ending_le) rfl).saved hsaved

/-- A file that is loaded, in whatever blocks, and saved again holds the same bytes. After any edits it holds the text of the rows, and a
row that no edit touched is the one that was loaded, line ending included. -/
theorem file_round_trip (m : Medium) (initialEditor : Editor) (calls : LoadCalls) (memory : Memory) (blocks : List (List UInt8))
    (content : List UInt8) (hopened : calls.opened = none) (hreadings : calls.readings = blocks.map Reading.block)
    (hblocks : Delivers blocks content) (hload : (kiloLoad m.strerror calls memory initialEditor).1 = true) :
    let loaded := (kiloLoad m.strerror calls memory initialEditor).2
    let file := m.name initialEditor.filename
    (∀ blocks', Delivers blocks' content →
      kiloLoad m.strerror { calls with readings := blocks'.map Reading.block } memory initialEditor = (true, loaded)) ∧
    (∀ entries, (kiloSave m loaded (initial entries)).1.1 = true →
      (kiloSave m loaded (initial entries)).2.entries file = some (.file content)) ∧
    ∀ edits : List (Operation × Memory), (∀ edit ∈ edits, ∀ calls, edit.1 ≠ .load calls) →
      let edited := run m.strerror edits loaded
      let origins : List (Option Nat) := trace m.strerror edits loaded ((List.range loaded.rows.length).map some)
      (∀ entries, (kiloSave m edited (initial entries)).1.1 = true →
        (kiloSave m edited (initial entries)).2.entries file =
          some (.file (edited.rows.flatMap fun row => row.content ++ endingBytes row.ending))) ∧
      origins.length = edited.rows.length ∧
      ∀ i j : Nat, origins[i]? = some (some j) → ∃ row, edited.rows[i]? = some row ∧ loaded.rows[j]? = some row := by
  intro loaded file
  have hvalid : loaded.Valid := kiloLoad_valid hload
  have hfilename : loaded.filename = initialEditor.filename := kiloLoad_filename m.strerror calls memory initialEditor
  have htext : loaded.text = content := by
    rcases kiloLoad_spec m.strerror calls memory initialEditor with ⟨hfailed, -⟩ | ⟨-, -, htext, -⟩
    · exact absurd (hfailed.symm.trans hload) Bool.false_ne_true
    · rw [LoadCalls.content, hopened, hreadings] at htext
      rw [← hblocks.2, ← delivered_blocks hblocks.1]
      exact htext
  refine ⟨?_, ?_, ?_⟩
  · intro blocks' hblocks'
    rw [kiloLoad_blocks hreadings hblocks hblocks']
    exact Prod.ext hload rfl
  · intro entries hsaved
    have hfile := kiloSave_saved hvalid entries hsaved
    rw [hfilename, htext] at hfile
    exact hfile
  · intro edits hedits edited origins
    have htraced : List.Forall₂ (Origin loaded.rows) origins edited.rows := traced_run hvalid hedits (traced_loaded loaded.rows)
    refine ⟨?_, htraced.length_eq, ?_⟩
    · intro entries hsaved
      have hfile := kiloSave_saved (run_valid hvalid edits) entries hsaved
      rw [run_filename hvalid edits, hfilename] at hfile
      exact hfile
    · intro i j horigin
      obtain ⟨hi, hget⟩ := List.getElem?_eq_some_iff.1 horigin
      have hi' : i < edited.rows.length := htraced.length_eq ▸ hi
      refine ⟨edited.rows[i], List.getElem?_eq_getElem hi', ?_⟩
      exact htraced.get hi hi' j hget

/-- The round trip of a file of two lines that is read byte by byte. -/
theorem file_round_trip_two_lines :
    let m : Medium := { folds := true, outcomes := fun _ => ⟨none, 1⟩, strerror := fun _ => [] }
    let file : LoadCalls :=
      { metadata := .ok false, opened := none, readings := [[0x61], [0x0d], [0x0a], [0x62]].map Reading.block, closed := none }
    let loaded := (kiloLoad m.strerror file (fun _ => true) (kiloInit [0x66])).2
    ∀ entries, (kiloSave m loaded (initial entries)).1.1 = true →
      (kiloSave m loaded (initial entries)).2.entries (m.name [0x66]) = some (.file [0x61, 0x0d, 0x0a, 0x62]) :=
  (file_round_trip { folds := true, outcomes := fun _ => ⟨none, 1⟩, strerror := fun _ => [] } (kiloInit [0x66])
    { metadata := .ok false, opened := none, readings := [[0x61], [0x0d], [0x0a], [0x62]].map Reading.block, closed := none }
    (fun _ => true) [[0x61], [0x0d], [0x0a], [0x62]] [0x61, 0x0d, 0x0a, 0x62] rfl rfl ⟨by decide, rfl⟩ (by decide)).2.1

end Kilo
end TabOS
