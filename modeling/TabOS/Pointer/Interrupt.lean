import TabOS.Library.Collect
import TabOS.Library.Least
import TabOS.Library.Run
import TabOS.Pointer.Basic

/-!
# Contacts of the touch controller

`platform/esp32p4/touch_interrupt.c`: the points that a controller reads bear no labels, and are matched to the contacts that are active.
The state has history variables that no branch reads: the events that were submitted, the latest first, and the passes that were read.
-/

namespace TabOS
namespace Touch

open Library
open Pointer (pointerMaxContacts PointerEventType)

/-- `tab5_touch_point_t`. -/
structure TouchPoint where
  x : UInt16
  y : UInt16
  deriving DecidableEq, Repr

/-- `tab5_touch_contact_t`. -/
structure TouchContact where
  point : TouchPoint
  active : Bool
  deriving DecidableEq, Repr

abbrev ContactNumber := Fin pointerMaxContacts

abbrev TouchContacts := ContactNumber → TouchContact

/-- What `submit_contact` is given. -/
structure TouchEvent where
  type : PointerEventType
  contact : ContactNumber
  point : TouchPoint
  deriving DecidableEq, Repr

/-- The contacts and what was submitted. -/
structure Submitted where
  contacts : TouchContacts
  log : List TouchEvent

/-- A contact changes, and where it is now is submitted. -/
def Submitted.submit (s : Submitted) (contact : ContactNumber) (value : TouchContact) (type : PointerEventType) : Submitted :=
  ⟨Function.update s.contacts contact value, ⟨type, contact, value.point⟩ :: s.log⟩

/-! ## A pass -/

/-- The contacts and the points that are matched; of the points, those that are not are kept. -/
structure Matching where
  state : Submitted
  matched : ContactNumber → Bool
  unmatched : List TouchPoint

def distance (contact : TouchContact) (point : TouchPoint) : Nat :=
  let dx : Int := contact.point.x.toNat - point.x.toNat
  let dy : Int := contact.point.y.toNat - point.y.toNat
  (dx * dx + dy * dy).toNat

/-- The active contact that is nearest to a point, of those that are not matched; the distances are below `UINT64_MAX`. -/
def bestContact (matching : Matching) (point : TouchPoint) : Option ContactNumber :=
  leastBelow (fun contact => (matching.state.contacts contact).active && !matching.matched contact)
    (fun contact => distance (matching.state.contacts contact) point) (2 ^ 64 - 1) (List.finRange pointerMaxContacts)

def matchPoint (matching : Matching) (point : TouchPoint) : Matching :=
  match bestContact matching point with
  | some contact =>
    { matching with
      matched := Function.update matching.matched contact true
      state :=
        if (matching.state.contacts contact).point ≠ point then
          matching.state.submit contact { matching.state.contacts contact with point := point } .move
        else matching.state }
  | none => { matching with unmatched := matching.unmatched ++ [point] }

def endContact (matched : ContactNumber → Bool) (state : Submitted) (contact : ContactNumber) : Submitted :=
  if (state.contacts contact).active && !matched contact then
    state.submit contact { state.contacts contact with active := false } .up
  else state

def startContact (state : Submitted) (point : TouchPoint) : Submitted :=
  match (List.finRange pointerMaxContacts).find? fun contact => !(state.contacts contact).active with
  | some contact => state.submit contact ⟨point, true⟩ .down
  | none => state

def matchPoints (state : Submitted) (points : List TouchPoint) : Matching := points.foldl matchPoint ⟨state, fun _ => false, []⟩

/-- The end of the contacts that are not matched. -/
def endContacts (matching : Matching) : Submitted := (List.finRange pointerMaxContacts).foldl (endContact matching.matched) matching.state

def reconcilePoints (state : Submitted) (points : List TouchPoint) : Submitted :=
  (matchPoints state points).unmatched.foldl startContact (endContacts (matchPoints state points))

/-! ## Drains -/

/-- A pass that was read: what it read, the contacts before and after, those that were matched, and what it submitted. -/
structure TouchPass where
  points : List TouchPoint
  before : TouchContacts
  after : TouchContacts
  matched : ContactNumber → Bool
  events : List TouchEvent

/-- `tab5_touch_interrupt_state_t`, with its history. -/
structure TouchState extends Submitted where
  passes : List TouchPass

def touchInterruptStateInit : TouchState := ⟨⟨fun _ => ⟨⟨0, 0⟩, false⟩, []⟩, []⟩

/-- What `read_points` and then `interrupt_asserted` answer; as many points as are counted. -/
structure TouchReading where
  succeeds : Bool
  points : List TouchPoint
  asserted : Bool

def TouchState.reconcile (state : TouchState) (points : List TouchPoint) : TouchState :=
  let after := reconcilePoints state.toSubmitted points
  { toSubmitted := after
    passes := ⟨points, state.contacts, after.contacts, (matchPoints state.toSubmitted points).matched,
      after.log.take (after.log.length - state.log.length)⟩ :: state.passes }

def cancelContact (state : Submitted) (contact : ContactNumber) : Submitted :=
  if (state.contacts contact).active then state.submit contact { state.contacts contact with active := false } .cancel else state

def touchInterruptCancel (state : TouchState) : TouchState :=
  { state with toSubmitted := (List.finRange pointerMaxContacts).foldl cancelContact state.toSubmitted }

/-- The passes of a drain that are left, from one on. -/
def drainFrom (readings : Nat → TouchReading) : Nat → Nat → TouchState → Bool × TouchState
  | 0, _, state => (true, state)
  | left + 1, pass, state =>
    if (readings pass).succeeds = false ∨ (readings pass).points.length > pointerMaxContacts then (false, touchInterruptCancel state)
    else
      let state := state.reconcile (readings pass).points
      if (readings pass).asserted then drainFrom readings left (pass + 1) state else (true, state)

def touchInterruptDrain (readings : Nat → TouchReading) (maximumPasses : Nat) (state : TouchState) : Bool × TouchState :=
  if maximumPasses = 0 then (false, state) else drainFrom readings maximumPasses 0 state

inductive TouchCall where
  | drain (readings : Nat → TouchReading) (maximumPasses : Nat)
  | cancel

/-- What a call returns, if it returns a value, and the state it leaves. -/
def TouchCall.make (state : TouchState) : TouchCall → Bool × TouchState
  | .drain readings maximumPasses => touchInterruptDrain readings maximumPasses state
  | .cancel => (true, touchInterruptCancel state)

/-- The state after some calls from the initial one. -/
def afterCalls (calls : List TouchCall) : TouchState := calls.foldl (fun state call => (call.make state).2) touchInterruptStateInit

/-! ## The events of a contact -/

/-- Where the contacts that are down were last. -/
def lastPoints (view : ContactNumber → Option TouchPoint) (event : TouchEvent) : ContactNumber → Option TouchPoint :=
  match event.type with
  | .down => Function.update view event.contact (some event.point)
  | .move => Function.update view event.contact (some event.point)
  | .up => Function.update view event.contact none
  | .cancel => Function.update view event.contact none
  | .other => view

/-- A contact goes down when it is up, moves when it is down, and ends where it was last. -/
def Fits (view : ContactNumber → Option TouchPoint) (event : TouchEvent) : Prop :=
  match event.type with
  | .down => view event.contact = none
  | .move => view event.contact ≠ none
  | .up => view event.contact = some event.point
  | .cancel => view event.contact = some event.point
  | .other => False

/-- The events of every contact, the latest first, are the start of a sequence of touches. -/
def Touches (log : List TouchEvent) : Prop := Always lastPoints (fun _ => none) Fits log

/-- Where a contact is when it is active. -/
def TouchContact.slot (contact : TouchContact) : Option TouchPoint := if contact.active then some contact.point else none

/-- What was submitted is a sequence of touches that leaves the contacts where they are. -/
structure Tracks (state : Submitted) : Prop where
  touches : Touches state.log
  view : ∀ contact, watch lastPoints (fun _ => none) state.log contact = (state.contacts contact).slot

theorem slot_eq_some {contact : TouchContact} (h : contact.active = true) : contact.slot = some contact.point := if_pos h

theorem slot_eq_none {contact : TouchContact} (h : contact.active = false) : contact.slot = none := if_neg (by rw [h]; decide)

theorem contacts_submit_self (state : Submitted) (contact : ContactNumber) (value : TouchContact) (type : PointerEventType) :
    (state.submit contact value type).contacts contact = value := Function.update_self _ _ _

theorem contacts_submit_of_ne (state : Submitted) {contact other : ContactNumber} (h : other ≠ contact) (value : TouchContact)
    (type : PointerEventType) : (state.submit contact value type).contacts other = state.contacts other := Function.update_of_ne h _ _

/-- A submission keeps the track when it fits and changes the contact as it says. -/
theorem Tracks.submit {state : Submitted} (h : Tracks state) {contact : ContactNumber} {value : TouchContact} {type : PointerEventType}
    (hfits : Fits (fun other => (state.contacts other).slot) ⟨type, contact, value.point⟩)
    (hvalue : value.active = decide (type = .down ∨ type = .move)) : Tracks (state.submit contact value type) := by
  have hview : watch lastPoints (fun _ => none) state.log = fun other => (state.contacts other).slot := funext h.view
  refine ⟨⟨by rw [hview]; exact hfits, h.touches⟩, fun other => ?_⟩
  have hupdate : (Function.update state.contacts contact value other).slot =
      Function.update (fun other => (state.contacts other).slot) contact value.slot other := by
    by_cases hother : other = contact
    · rw [hother, Function.update_self, Function.update_self]
    · rw [Function.update_of_ne hother, Function.update_of_ne hother]
  show lastPoints (watch lastPoints (fun _ => none) state.log) ⟨type, contact, value.point⟩ other =
    (Function.update state.contacts contact value other).slot
  rw [hview, hupdate]
  cases type with
  | down => rw [slot_eq_some (hvalue.trans rfl), lastPoints]
  | move => rw [slot_eq_some (hvalue.trans rfl), lastPoints]
  | up => rw [slot_eq_none (hvalue.trans rfl), lastPoints]
  | cancel => rw [slot_eq_none (hvalue.trans rfl), lastPoints]
  | other => exact hfits.elim

theorem tracks_matchPoint {matching : Matching} (h : Tracks matching.state) (point : TouchPoint) :
    Tracks (matchPoint matching point).state := by
  unfold matchPoint
  split
  · rename_i contact hbest
    have heligible := (leastBelow_eq_some hbest).2.1
    rw [Bool.and_eq_true] at heligible
    dsimp only
    split
    · exact h.submit (by rw [Fits, slot_eq_some heligible.1]; exact Option.some_ne_none _) heligible.1
    · exact h
  · exact h

theorem tracks_endContact {state : Submitted} (h : Tracks state) (matched : ContactNumber → Bool) (contact : ContactNumber) :
    Tracks (endContact matched state contact) := by
  unfold endContact
  split
  · rename_i hactive
    rw [Bool.and_eq_true] at hactive
    exact h.submit (slot_eq_some hactive.1) rfl
  · exact h

theorem tracks_startContact {state : Submitted} (h : Tracks state) (point : TouchPoint) : Tracks (startContact state point) := by
  unfold startContact
  split
  · rename_i contact hfound
    have hinactive := List.find?_some hfound
    exact h.submit (slot_eq_none (by simpa using hinactive)) rfl
  · exact h

theorem tracks_cancelContact {state : Submitted} (h : Tracks state) (contact : ContactNumber) : Tracks (cancelContact state contact) := by
  unfold cancelContact
  split
  · rename_i hactive
    exact h.submit (slot_eq_some hactive) rfl
  · exact h

theorem tracks_reconcilePoints {state : Submitted} (h : Tracks state) (points : List TouchPoint) :
    Tracks (reconcilePoints state points) := by
  have hmatched : Tracks (matchPoints state points).state :=
    foldl_invariant (fun matching : Matching => Tracks matching.state) (fun _ point h => tracks_matchPoint h point) points h
  have hended : Tracks (endContacts (matchPoints state points)) :=
    foldl_invariant Tracks (fun _ contact h => tracks_endContact h _ contact) _ hmatched
  exact foldl_invariant Tracks (fun _ point h => tracks_startContact h point) _ hended

theorem tracks_touchInterruptCancel {state : TouchState} (h : Tracks state.toSubmitted) :
    Tracks (touchInterruptCancel state).toSubmitted :=
  foldl_invariant Tracks (fun _ contact h => tracks_cancelContact h contact) _ h

/-! ## What a pass does -/

/-- The moves of a contact among some events. -/
def movesOf (events : List TouchEvent) (contact : ContactNumber) : List TouchEvent :=
  events.filter fun event => event.type = .move ∧ event.contact = contact

/-- The points of the contacts that are matched. -/
def Matching.slots (matching : Matching) (contact : ContactNumber) : Option TouchPoint :=
  if matching.matched contact then some (matching.state.contacts contact).point else none

/-- What is known of the contacts and points when some points were matched. -/
structure Matches (before : Submitted) (points : List TouchPoint) (matching : Matching) : Prop where
  active : ∀ contact, (matching.state.contacts contact).active = (before.contacts contact).active
  matched_active : ∀ contact, matching.matched contact = true → (before.contacts contact).active = true
  unmatched : ∀ contact, matching.matched contact = false → matching.state.contacts contact = before.contacts contact
  full : matching.unmatched ≠ [] → ∀ contact, (before.contacts contact).active = true → matching.matched contact = true
  collected : collect matching.slots + (matching.unmatched : Multiset TouchPoint) = points
  moves : ∃ moves, matching.state.log = moves ++ before.log ∧ ∀ contact, movesOf moves contact =
    if matching.matched contact = true ∧ (matching.state.contacts contact).point ≠ (before.contacts contact).point
    then [⟨.move, contact, (matching.state.contacts contact).point⟩] else []

theorem matches_nil (before : Submitted) : Matches before [] ⟨before, fun _ => false, []⟩ := by
  refine ⟨fun _ => rfl, fun _ h => absurd h Bool.false_ne_true, fun _ _ => rfl, fun h => absurd rfl h, ?_, [], rfl, fun contact => ?_⟩
  · have hslots : (⟨before, fun _ => false, []⟩ : Matching).slots = fun _ => none := funext fun _ => if_neg Bool.false_ne_true
    rw [hslots, collect_none]
    rfl
  · rw [if_neg fun h => absurd h.1 Bool.false_ne_true]
    rfl

/-- Every distance is below the bound from which the search starts. -/
theorem distance_lt (contact : TouchContact) (point : TouchPoint) : distance contact point < 2 ^ 64 - 1 := by
  have hsquare : ∀ a b : UInt16, ((a.toNat : Int) - b.toNat) * (a.toNat - b.toNat) ≤ 65535 * 65535 := by
    intro a b
    have ha := a.toNat_lt
    have hb := b.toNat_lt
    have habs : ((a.toNat : Int) - b.toNat).natAbs ≤ 65535 := by omega
    rw [← Int.natAbs_mul_self]
    exact_mod_cast Nat.mul_le_mul habs habs
  have hx := hsquare contact.point.x point.x
  have hy := hsquare contact.point.y point.y
  unfold distance
  dsimp only
  omega

/-- A contact is found unless all active ones are matched. -/
theorem bestContact_eq_none {matching : Matching} {point : TouchPoint} (h : bestContact matching point = none) (contact : ContactNumber)
    (hactive : (matching.state.contacts contact).active = true) : matching.matched contact = true := by
  by_contra hunmatched
  have hle := le_of_leastBelow_eq_none h (List.mem_finRange contact)
    (by rw [hactive, Bool.eq_false_of_not_eq_true hunmatched]; rfl)
  exact absurd (distance_lt _ _) (Nat.not_lt.2 hle)

theorem movesOf_append (first second : List TouchEvent) (contact : ContactNumber) :
    movesOf (first ++ second) contact = movesOf first contact ++ movesOf second contact := List.filter_append _ _

/-- A point that is matched to a contact. -/
theorem Matches.found {before : Submitted} {points : List TouchPoint} {matching : Matching} (h : Matches before points matching)
    {point : TouchPoint} {contact : ContactNumber} (hbest : bestContact matching point = some contact) :
    Matches before (points ++ [point]) (matchPoint matching point) := by
  have heligible := (leastBelow_eq_some hbest).2.1
  rw [Bool.and_eq_true, Bool.not_eq_true'] at heligible
  obtain ⟨hactive, hunmatched⟩ := heligible
  have hsame := h.unmatched contact hunmatched
  obtain ⟨moves, hlog, hmoves⟩ := h.moves
  -- the contact has the point, the others are as they were
  have hpoint : ((matchPoint matching point).state.contacts contact).point = point ∧
      ((matchPoint matching point).state.contacts contact).active = (before.contacts contact).active := by
    unfold matchPoint
    rw [hbest]
    dsimp only
    split
    · rw [contacts_submit_self, hsame]
      exact ⟨rfl, rfl⟩
    · rename_i hstays
      exact ⟨of_not_not hstays, congrArg TouchContact.active hsame⟩
  have hothers : ∀ other, other ≠ contact → (matchPoint matching point).state.contacts other = matching.state.contacts other := by
    intro other hother
    unfold matchPoint
    rw [hbest]
    dsimp only
    split
    · exact contacts_submit_of_ne _ hother _ _
    · rfl
  have hmatched : (matchPoint matching point).matched = Function.update matching.matched contact true := by
    rw [matchPoint, hbest]
  have hlist : (matchPoint matching point).unmatched = matching.unmatched := by rw [matchPoint, hbest]
  have hother : ∀ other, other ≠ contact → (matchPoint matching point).matched other = matching.matched other := by
    intro other hne
    rw [hmatched, Function.update_of_ne hne]
  have hself : (matchPoint matching point).matched contact = true := by rw [hmatched, Function.update_self]
  refine ⟨fun other => ?_, fun other hmem => ?_, fun other hmem => ?_, fun hfull other => ?_, ?_, ?_⟩
  · by_cases hne : other = contact
    · rw [hne, hpoint.2]
    · rw [hothers other hne, h.active]
  · by_cases hne : other = contact
    · rw [hne, ← congrArg TouchContact.active hsame, hactive]
    · exact h.matched_active other ((hother other hne).symm.trans hmem)
  · by_cases hne : other = contact
    · rw [hne, hself] at hmem
      exact absurd hmem (by decide)
    · rw [hothers other hne]
      exact h.unmatched other ((hother other hne).symm.trans hmem)
  · rw [hlist] at hfull
    intro hactive'
    by_cases hne : other = contact
    · rw [hne, hself]
    · rw [hother other hne]
      exact h.full hfull other hactive'
  · have hslots : (matchPoint matching point).slots = Function.update matching.slots contact (some point) := by
      funext other
      unfold Matching.slots
      by_cases hne : other = contact
      · rw [hne, Function.update_self, hself, if_pos rfl, hpoint.1]
      · rw [Function.update_of_ne hne, hother other hne, hothers other hne]
    have hempty : matching.slots contact = none := if_neg (by rw [hunmatched]; exact Bool.false_ne_true)
    rw [hslots, collect_update hempty, hlist, Multiset.cons_add, h.collected, Multiset.cons_coe]
    exact Multiset.coe_eq_coe.2 (List.perm_append_singleton point points).symm
  · have hlog' : (matchPoint matching point).state.log =
        (if (before.contacts contact).point ≠ point then [⟨.move, contact, point⟩] else []) ++ matching.state.log := by
      unfold matchPoint
      rw [hbest, ← hsame]
      dsimp only
      split <;> rfl
    refine ⟨(if (before.contacts contact).point ≠ point then [⟨.move, contact, point⟩] else []) ++ moves, ?_, fun other => ?_⟩
    · rw [hlog', hlog, List.append_assoc]
    · rw [movesOf_append, hmoves]
      by_cases hne : other = contact
      · have hbefore : ¬(matching.matched contact = true ∧
            (matching.state.contacts contact).point ≠ (before.contacts contact).point) :=
          fun hold => absurd (hunmatched.symm.trans hold.1) Bool.false_ne_true
        rw [hne, hself, hpoint.1, if_neg hbefore, List.append_nil]
        by_cases hmoved : (before.contacts contact).point = point
        · rw [if_neg (not_not_intro hmoved), if_neg fun hnew => hnew.2 hmoved.symm]
          rfl
        · rw [if_pos hmoved, if_pos ⟨rfl, Ne.symm hmoved⟩]
          exact List.filter_cons_of_pos (decide_eq_true ⟨rfl, rfl⟩)
      · have hnone : movesOf (if (before.contacts contact).point ≠ point then [⟨.move, contact, point⟩] else []) other = [] := by
          split
          · exact List.filter_cons_of_neg (by simpa using fun hcontact => hne hcontact.symm)
          · rfl
        rw [hnone, List.nil_append, hother other hne, hothers other hne]

/-- A point for which there is no contact. -/
theorem Matches.missed {before : Submitted} {points : List TouchPoint} {matching : Matching} (h : Matches before points matching)
    {point : TouchPoint} (hbest : bestContact matching point = none) :
    Matches before (points ++ [point]) (matchPoint matching point) := by
  have hmatch : matchPoint matching point = { matching with unmatched := matching.unmatched ++ [point] } := by rw [matchPoint, hbest]
  rw [hmatch]
  refine ⟨h.active, h.matched_active, h.unmatched, fun _ contact hactive => ?_, ?_, h.moves⟩
  · exact bestContact_eq_none hbest contact ((h.active contact).trans hactive)
  · show collect matching.slots + ((matching.unmatched ++ [point] : List TouchPoint) : Multiset TouchPoint) = _
    rw [← Multiset.coe_add, ← add_assoc, h.collected, Multiset.coe_add]

theorem matches_matchPoints (before : Submitted) (points : List TouchPoint) : Matches before points (matchPoints before points) := by
  induction points using List.reverseRecOn with
  | nil => exact matches_nil before
  | append_singleton points point ih =>
    have hfold : matchPoints before (points ++ [point]) = matchPoint (matchPoints before points) point :=
      List.foldl_concat _ _ _ _
    rw [hfold]
    cases hbest : bestContact (matchPoints before points) point with
    | none => exact ih.missed hbest
    | some contact => exact ih.found hbest

/-- The contacts that are not matched end, and nothing moves. -/
theorem foldl_endContact (matched : ContactNumber → Bool) (l : List ContactNumber) (state : Submitted) :
    (∀ contact, (l.foldl (endContact matched) state).contacts contact =
      if contact ∈ l ∧ matched contact = false then { state.contacts contact with active := false } else state.contacts contact) ∧
    ∃ ends, (l.foldl (endContact matched) state).log = ends ++ state.log ∧ ∀ event ∈ ends, event.type = .up := by
  induction l generalizing state with
  | nil => exact ⟨fun contact => (if_neg fun h => absurd h.1 List.not_mem_nil).symm, [], rfl, fun _ h => absurd h List.not_mem_nil⟩
  | cons first l ih =>
    obtain ⟨hcontacts, ends, hlog, hends⟩ := ih (endContact matched state first)
    have hfirst : (endContact matched state first).contacts =
        Function.update state.contacts first
          (if matched first = false then { state.contacts first with active := false } else state.contacts first) := by
      unfold endContact
      by_cases hactive : (state.contacts first).active = true
      · cases hmatched : matched first with
        | true => rw [hactive, if_neg (by decide), if_neg (by decide), Function.update_eq_self]
        | false =>
          rw [hactive, if_pos (show (true && !false) = true from rfl), if_pos rfl]
          rfl
      · have hinactive := Bool.eq_false_of_not_eq_true hactive
        have hsame : ({ state.contacts first with active := false } : TouchContact) = state.contacts first := by rw [← hinactive]
        rw [hinactive, Bool.false_and, if_neg Bool.false_ne_true, ← hinactive, ite_self, Function.update_eq_self]
    refine ⟨fun contact => (hcontacts contact).trans ?_, ?_⟩
    · rw [hfirst]
      by_cases hne : contact = first
      · rw [hne, Function.update_self]
        cases matched first <;> simp
      · rw [Function.update_of_ne hne]
        simp only [List.mem_cons, hne, false_or]
    · have hsubmitted : ∃ submitted, (endContact matched state first).log = submitted ++ state.log ∧
          ∀ event ∈ submitted, event.type = .up := by
        unfold endContact
        split
        · exact ⟨[⟨.up, first, (state.contacts first).point⟩], rfl, fun event hmem => by rw [List.mem_singleton.1 hmem]⟩
        · exact ⟨[], rfl, fun _ h => absurd h List.not_mem_nil⟩
      obtain ⟨submitted, hsubmitted, hup⟩ := hsubmitted
      refine ⟨ends ++ submitted, ?_, fun event hmem => ?_⟩
      · rw [List.foldl_cons, hlog, hsubmitted, List.append_assoc]
      · rcases List.mem_append.1 hmem with hmem | hmem
        · exact hends event hmem
        · exact hup event hmem

/-- The contacts that are active, where they are. -/
def slots (contacts : TouchContacts) (contact : ContactNumber) : Option TouchPoint := (contacts contact).slot

/-- The points get contacts of their own as long as there is room, and nothing moves. -/
theorem foldl_startContact (state : Submitted) (points : List TouchPoint)
    (hroom : (collect (slots state.contacts)).card + points.length ≤ pointerMaxContacts) :
    collect (slots (points.foldl startContact state).contacts) = collect (slots state.contacts) + points ∧
    (∀ contact, (state.contacts contact).active = true → (points.foldl startContact state).contacts contact = state.contacts contact) ∧
    ∃ starts, (points.foldl startContact state).log = starts ++ state.log ∧ ∀ event ∈ starts, event.type = .down := by
  induction points generalizing state with
  | nil => exact ⟨(add_zero _).symm, fun _ _ => rfl, [], rfl, fun _ h => absurd h List.not_mem_nil⟩
  | cons point points ih =>
    rw [List.length_cons] at hroom
    have hcard : (collect (slots state.contacts)).card < Fintype.card ContactNumber := by
      rw [Fintype.card_fin]
      omega
    obtain ⟨free, hfree⟩ := exists_none_of_card_lt hcard
    have hinactive : ∀ {contact : TouchContact}, contact.slot = none → contact.active = false := by
      intro contact hslot
      by_contra hactive
      rw [slot_eq_some (Bool.eq_true_of_not_eq_false hactive)] at hslot
      exact Option.some_ne_none _ hslot
    obtain ⟨contact, hfound⟩ : ∃ contact, (List.finRange pointerMaxContacts).find? (fun contact => !(state.contacts contact).active) =
        some contact := by
      rw [← Option.isSome_iff_exists, List.find?_isSome]
      exact ⟨free, List.mem_finRange free, by rw [hinactive hfree]; rfl⟩
    have hstart : startContact state point = state.submit contact ⟨point, true⟩ .down := by rw [startContact, hfound]
    have hcontact : (state.contacts contact).active = false := by
      have := List.find?_some hfound
      simpa using this
    have hslots : slots (state.submit contact ⟨point, true⟩ .down).contacts =
        Function.update (slots state.contacts) contact (some point) := by
      funext other
      by_cases hne : other = contact
      · rw [hne, slots, contacts_submit_self, Function.update_self]
        rfl
      · rw [slots, contacts_submit_of_ne _ hne, Function.update_of_ne hne]
        rfl
    have hcollect : collect (slots (state.submit contact ⟨point, true⟩ .down).contacts) = point ::ₘ collect (slots state.contacts) := by
      have hempty : slots state.contacts contact = none := slot_eq_none hcontact
      rw [hslots, collect_update hempty]
    have hroom' : (collect (slots (state.submit contact ⟨point, true⟩ .down).contacts)).card + points.length ≤ pointerMaxContacts := by
      rw [hcollect, Multiset.card_cons]
      omega
    rw [List.foldl_cons, hstart]
    obtain ⟨hcollected, hkept, starts, hlog, hdown⟩ := ih (state.submit contact ⟨point, true⟩ .down) hroom'
    refine ⟨?_, fun other hactive => ?_, starts ++ [⟨.down, contact, point⟩], ?_, fun event hmem => ?_⟩
    · rw [hcollected, hcollect, Multiset.cons_add, ← Multiset.add_cons, Multiset.cons_coe]
    · have hne : other ≠ contact := fun heq => by
        rw [heq, hcontact] at hactive
        exact absurd hactive Bool.false_ne_true
      have hsame := contacts_submit_of_ne state hne ⟨point, true⟩ .down
      rw [hkept other (by rw [hsame, hactive]), hsame]
    · rw [hlog, List.append_assoc]
      rfl
    · rcases List.mem_append.1 hmem with hmem | hmem
      · exact hdown event hmem
      · rw [List.mem_singleton.1 hmem]

/-- The contacts after a pass are at the points that were read, one each; those were matched that were active before and after; and a
matched contact moves once if its point changed. -/
structure Reconciled (pass : TouchPass) : Prop where
  collected : collect (slots pass.after) = (pass.points : Multiset TouchPoint)
  matched : ∀ contact, pass.matched contact = ((pass.before contact).active && (pass.after contact).active)
  moves : ∀ contact, movesOf pass.events contact =
    if pass.matched contact = true ∧ (pass.after contact).point ≠ (pass.before contact).point
    then [⟨.move, contact, (pass.after contact).point⟩] else []

theorem movesOf_eq_nil {events : List TouchEvent} {type : PointerEventType} (htype : type ≠ .move)
    (h : ∀ event ∈ events, event.type = type) (contact : ContactNumber) : movesOf events contact = [] := by
  rw [movesOf, List.filter_eq_nil_iff]
  intro event hmem hmove
  exact htype ((h event hmem).symm.trans (of_decide_eq_true hmove).1)

theorem reconciled_reconcile (state : TouchState) {points : List TouchPoint} (hpoints : points.length ≤ pointerMaxContacts) :
    ∃ pass, (state.reconcile points).passes = pass :: state.passes ∧ pass.points = points ∧ pass.before = state.contacts ∧
      pass.after = (state.reconcile points).contacts ∧ (state.reconcile points).log = pass.events ++ state.log ∧ Reconciled pass := by
  have hmatches := matches_matchPoints state.toSubmitted points
  obtain ⟨hended, ends, hendlog, hup⟩ :=
    foldl_endContact (matchPoints state.toSubmitted points).matched (List.finRange pointerMaxContacts)
      (matchPoints state.toSubmitted points).state
  have hended' : ∀ contact, (endContacts (matchPoints state.toSubmitted points)).contacts contact =
      if (matchPoints state.toSubmitted points).matched contact = false
      then { (matchPoints state.toSubmitted points).state.contacts contact with active := false }
      else (matchPoints state.toSubmitted points).state.contacts contact := by
    intro contact
    refine (hended contact).trans (if_congr ?_ rfl rfl)
    exact ⟨And.right, fun h => ⟨List.mem_finRange contact, h⟩⟩
  have hslots : slots (endContacts (matchPoints state.toSubmitted points)).contacts = (matchPoints state.toSubmitted points).slots := by
    funext contact
    rw [slots, hended', Matching.slots]
    cases hmatched : (matchPoints state.toSubmitted points).matched contact with
    | false => rfl
    | true =>
      have hactive := (hmatches.active contact).trans (hmatches.matched_active contact hmatched)
      rw [if_neg (by decide), if_pos rfl, slot_eq_some hactive]
  have hcount : (collect (slots (endContacts (matchPoints state.toSubmitted points)).contacts)).card +
      (matchPoints state.toSubmitted points).unmatched.length = points.length := by
    have hcollected := congrArg Multiset.card hmatches.collected
    rw [Multiset.card_add, Multiset.coe_card, Multiset.coe_card] at hcollected
    rw [hslots, hcollected]
  obtain ⟨hcollected, hkept, starts, hstartlog, hdown⟩ :=
    foldl_startContact (endContacts (matchPoints state.toSubmitted points)) (matchPoints state.toSubmitted points).unmatched (by omega)
  obtain ⟨moves, hmovelog, hmoves⟩ := hmatches.moves
  have hlog : (reconcilePoints state.toSubmitted points).log = (starts ++ (ends ++ moves)) ++ state.log := by
    refine hstartlog.trans ?_
    rw [endContacts, hendlog, hmovelog, List.append_assoc, List.append_assoc]
  have htake : (reconcilePoints state.toSubmitted points).log.take
      ((reconcilePoints state.toSubmitted points).log.length - state.log.length) = starts ++ (ends ++ moves) := by
    rw [hlog, List.length_append, Nat.add_sub_cancel, List.take_left]
  -- a contact that is matched is active from then on
  have hactive : ∀ contact, (matchPoints state.toSubmitted points).matched contact = true →
      (reconcilePoints state.toSubmitted points).contacts contact = (matchPoints state.toSubmitted points).state.contacts contact := by
    intro contact hmatched
    have hended : (endContacts (matchPoints state.toSubmitted points)).contacts contact =
        (matchPoints state.toSubmitted points).state.contacts contact := by
      rw [hended', if_neg (by rw [hmatched]; decide)]
    refine (hkept contact ?_).trans hended
    rw [hended, hmatches.active, hmatches.matched_active contact hmatched]
  refine ⟨_, rfl, rfl, rfl, rfl, ?_, ?_, fun contact => ?_, fun contact => ?_⟩
  · show (reconcilePoints state.toSubmitted points).log = _ ++ state.log
    dsimp only
    rw [htake, hlog]
  · show collect (slots (reconcilePoints state.toSubmitted points).contacts) = _
    refine hcollected.trans ?_
    rw [hslots]
    exact hmatches.collected
  · dsimp only
    cases hmatched : (matchPoints state.toSubmitted points).matched contact with
    | true =>
      rw [hactive contact hmatched, hmatches.active, hmatches.matched_active contact hmatched]
      rfl
    | false =>
      by_cases hbefore : (state.contacts contact).active = true
      · -- every point found a contact, since this one was left
        have hnone : (matchPoints state.toSubmitted points).unmatched = [] := by
          by_contra hfull
          exact absurd (hmatched.symm.trans (hmatches.full hfull contact hbefore)) Bool.false_ne_true
        have hafter : (reconcilePoints state.toSubmitted points).contacts contact =
            { (matchPoints state.toSubmitted points).state.contacts contact with active := false } := by
          rw [reconcilePoints, hnone, List.foldl_nil, hended', if_pos hmatched]
        rw [hafter, Bool.and_false]
      · rw [Bool.eq_false_of_not_eq_true hbefore, Bool.false_and]
  · dsimp only
    rw [htake, movesOf_append, movesOf_append, movesOf_eq_nil (by decide) hdown, movesOf_eq_nil (by decide) hup, List.nil_append,
      List.nil_append, hmoves]
    by_cases hmatched : (matchPoints state.toSubmitted points).matched contact = true
    · have hpoint := congrArg TouchContact.point (hactive contact hmatched)
      simp only [hpoint]
    · rw [if_neg fun h => hmatched h.1, if_neg fun h => hmatched h.1]

/-! ## Drains and cancels -/

/-- What was submitted is a sequence of touches, and every pass that was read matched the contacts to the points. -/
structure Sound (state : TouchState) : Prop where
  tracks : Tracks state.toSubmitted
  passes : ∀ pass ∈ state.passes, Reconciled pass

/-- No contact is active. -/
def Idle (contacts : TouchContacts) : Prop := ∀ contact, (contacts contact).active = false

theorem sound_init : Sound touchInterruptStateInit :=
  ⟨⟨trivial, fun _ => rfl⟩, fun _ hmem => absurd hmem List.not_mem_nil⟩

theorem Sound.reconcile {state : TouchState} (h : Sound state) {points : List TouchPoint} (hpoints : points.length ≤ pointerMaxContacts) :
    Sound (state.reconcile points) := by
  refine ⟨tracks_reconcilePoints h.tracks points, fun pass hmem => ?_⟩
  obtain ⟨added, hpasses, -, -, -, -, hreconciled⟩ := reconciled_reconcile state hpoints
  rw [hpasses] at hmem
  rcases List.mem_cons.1 hmem with rfl | hmem
  · exact hreconciled
  · exact h.passes pass hmem

theorem Sound.cancel {state : TouchState} (h : Sound state) : Sound (touchInterruptCancel state) :=
  ⟨tracks_touchInterruptCancel h.tracks, h.passes⟩

theorem active_cancelContact (state : Submitted) (contact other : ContactNumber) :
    ((cancelContact state contact).contacts other).active = (decide (other ≠ contact) && (state.contacts other).active) := by
  unfold cancelContact
  by_cases hne : other = contact
  · rw [hne, decide_eq_false (not_not_intro rfl), Bool.false_and]
    split
    · rw [contacts_submit_self]
    · rename_i hinactive
      exact Bool.eq_false_of_not_eq_true hinactive
  · rw [decide_eq_true hne, Bool.true_and]
    split
    · rw [contacts_submit_of_ne _ hne]
    · rfl

theorem idle_touchInterruptCancel (state : TouchState) : Idle (touchInterruptCancel state).contacts := by
  have hfold : ∀ (l : List ContactNumber) (state : Submitted) (contact : ContactNumber),
      contact ∈ l ∨ (state.contacts contact).active = false → ((l.foldl cancelContact state).contacts contact).active = false := by
    intro l
    induction l with
    | nil => exact fun state contact h => h.resolve_left List.not_mem_nil
    | cons first l ih =>
      intro state contact h
      refine ih (cancelContact state first) contact ?_
      rw [active_cancelContact]
      by_cases hne : contact = first
      · rw [hne, decide_eq_false (not_not_intro rfl)]
        exact Or.inr rfl
      · rcases h with hmem | hinactive
        · exact Or.inl ((List.mem_cons.1 hmem).resolve_left hne)
        · rw [hinactive, Bool.and_false]
          exact Or.inr rfl
  exact fun contact => hfold _ _ contact (Or.inl (List.mem_finRange contact))

/-- A drain keeps what is known, and when it fails no contact is active. -/
theorem drainFrom_spec (readings : Nat → TouchReading) (left pass : Nat) {state : TouchState} (h : Sound state) :
    Sound (drainFrom readings left pass state).2 ∧
    ((drainFrom readings left pass state).1 = false → Idle (drainFrom readings left pass state).2.contacts) := by
  induction left generalizing pass state with
  | zero => exact ⟨h, fun hfailed => absurd hfailed.symm Bool.false_ne_true⟩
  | succ left ih =>
    rw [drainFrom]
    split
    · exact ⟨h.cancel, fun _ => idle_touchInterruptCancel state⟩
    · rename_i hread
      have hpoints : (readings pass).points.length ≤ pointerMaxContacts := Nat.le_of_not_lt (not_or.1 hread).2
      dsimp only
      split
      · exact ih (pass + 1) (h.reconcile hpoints)
      · exact ⟨h.reconcile hpoints, fun hfailed => absurd hfailed.symm Bool.false_ne_true⟩

theorem touchInterruptDrain_spec (readings : Nat → TouchReading) (maximumPasses : Nat) {state : TouchState} (h : Sound state) :
    Sound (touchInterruptDrain readings maximumPasses state).2 ∧
    (maximumPasses ≠ 0 → (touchInterruptDrain readings maximumPasses state).1 = false →
      Idle (touchInterruptDrain readings maximumPasses state).2.contacts) := by
  unfold touchInterruptDrain
  split
  · rename_i hzero
    exact ⟨h, fun hne => absurd hzero hne⟩
  · obtain ⟨hsound, hidle⟩ := drainFrom_spec readings maximumPasses 0 h
    exact ⟨hsound, fun _ => hidle⟩

theorem sound_afterCalls (calls : List TouchCall) : Sound (afterCalls calls) := by
  refine foldl_invariant Sound (fun state call h => ?_) calls sound_init
  cases call with
  | drain readings maximumPasses => exact (touchInterruptDrain_spec readings maximumPasses h).1
  | cancel => exact h.cancel

/-- A contact is down, and a drain without passes fails and leaves it down. -/
theorem drain_refused_down :
    ∃ calls readings maximumPasses, (touchInterruptDrain readings maximumPasses (afterCalls calls)).1 = false ∧
      ((touchInterruptDrain readings maximumPasses (afterCalls calls)).2.contacts ⟨0, by decide⟩).active = true :=
  ⟨[.drain (fun _ => ⟨true, [⟨100, 200⟩], false⟩) 1], fun _ => ⟨true, [], false⟩, 0, rfl, rfl⟩

/-- Whatever is read, the events of each contact are the start of a sequence of touches that end where they were last, every pass that was
read put the contacts on the points and moved those that it matched elsewhere, and after a cancel, or a drain of some passes that failed,
no contact is active; a drain of no passes changes nothing. -/
theorem touches_reconciled (calls : List TouchCall) :
    Touches (afterCalls calls).log ∧ (∀ pass ∈ (afterCalls calls).passes, Reconciled pass) ∧
    Idle (touchInterruptCancel (afterCalls calls)).contacts ∧
    (∀ readings maximumPasses, maximumPasses ≠ 0 → (touchInterruptDrain readings maximumPasses (afterCalls calls)).1 = false →
      Idle (touchInterruptDrain readings maximumPasses (afterCalls calls)).2.contacts) ∧
    ∀ readings, touchInterruptDrain readings 0 (afterCalls calls) = (false, afterCalls calls) := by
  have hsound := sound_afterCalls calls
  exact ⟨hsound.tracks.touches, hsound.passes, idle_touchInterruptCancel _,
    fun readings maximumPasses => (touchInterruptDrain_spec readings maximumPasses hsound).2, fun _ => rfl⟩

/-- A read that fails ends the contact that was down. -/
theorem touches_reconciled_failed :
    Idle (touchInterruptDrain (fun _ => ⟨false, [], false⟩) 4
      (afterCalls [.drain (fun _ => ⟨true, [⟨100, 200⟩], false⟩) 4])).2.contacts :=
  (touches_reconciled [.drain (fun _ => ⟨true, [⟨100, 200⟩], false⟩) 4]).2.2.2.1 _ 4 (by decide) rfl

end Touch
end TabOS
