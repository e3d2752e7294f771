import TabOS.Power.Core
import TabOS.Power.Dependency
import Mathlib.Data.Nat.Find
import Mathlib.Logic.Relation

/-!
# Finalizing the participants

Whether `power_manager_finalize` accepts the participants, and what failure it records. A participant is troubled when a dependency is
missing, its own or that of one it depends on. Without a cycle, the visits that fail are those of the troubled participants: each goes
from participant to participant along the first dependency that is troubled or missing, and the marks that it leaves stay.
-/

namespace TabOS
namespace Power

open Library Relation

variable {m : Manager}

/-- The dependencies of some participant lead back to it. -/
def Cyclic (m : Manager) : Prop := ∃ i, TransGen (DependsOn m) i i

/-- A participant names a dependency that is not registered. -/
def Missing (m : Manager) : Prop := ∃ i, ∃ name ∈ m.dependenciesOf i, find m name = none

/-- A participant names a dependency that is not registered, or depends on one that is troubled. -/
inductive Troubled (m : Manager) : Nat → Prop where
  | missing {i : Nat} {name : Name} : name ∈ m.dependenciesOf i → find m name = none → Troubled m i
  | through {i d : Nat} : DependsOn m i d → Troubled m d → Troubled m i

/-- A dependency that is not registered or is troubled. -/
def Trouble (m : Manager) (name : Name) : Prop := ∀ d, find m name = some d → Troubled m d

open Classical in
/-- The first dependency of a participant that is missing or troubled. -/
noncomputable def firstTrouble (m : Manager) (i : Nat) : Option Name := (m.dependenciesOf i).find? fun name => decide (Trouble m name)

/-- The first dependency that is missing or troubled is registered as another participant. -/
def NextTrouble (m : Manager) (i d : Nat) : Prop := ∃ name, firstTrouble m i = some name ∧ find m name = some d

/-- The first dependency that is missing or troubled is missing. -/
def AtMissing (m : Manager) (i : Nat) : Prop := ∃ name, firstTrouble m i = some name ∧ find m name = none

theorem troubled_iff {i : Nat} : Troubled m i ↔ ∃ name ∈ m.dependenciesOf i, Trouble m name := by
  constructor
  · intro h
    cases h with
    | missing hname hnone => exact ⟨_, hname, fun d hd => absurd (hd.symm.trans hnone) (Option.some_ne_none d)⟩
    | through hdepends htroubled =>
      obtain ⟨name, hname, hfind⟩ := hdepends
      exact ⟨name, hname, fun d hd => Option.some.inj (hfind.symm.trans hd) ▸ htroubled⟩
  · rintro ⟨name, hname, htrouble⟩
    cases hfind : find m name with
    | none => exact .missing hname hfind
    | some d => exact .through ⟨name, hname, hfind⟩ (htrouble d hfind)

theorem exists_firstTrouble {i : Nat} (h : Troubled m i) : ∃ name, firstTrouble m i = some name := by
  obtain ⟨name, hname, htrouble⟩ := troubled_iff.1 h
  refine Option.isSome_iff_exists.1 (List.find?_isSome.2 ⟨name, hname, ?_⟩)
  classical exact decide_eq_true htrouble

/-- The dependencies before the first one that is missing or troubled are neither. -/
theorem firstTrouble_eq {i : Nat} {name : Name} (h : firstTrouble m i = some name) :
    Trouble m name ∧ ∃ before after, m.dependenciesOf i = before ++ name :: after ∧ ∀ other ∈ before, ¬Trouble m other := by
  obtain ⟨htrouble, before, after, hnames, hbefore⟩ := List.find?_eq_some_iff_append.1 h
  classical
  refine ⟨of_decide_eq_true htrouble, before, after, hnames, fun other hmem => ?_⟩
  have hother := hbefore other hmem
  simpa using hother

theorem NextTrouble.dependsOn {i d : Nat} (h : NextTrouble m i d) : DependsOn m i d := by
  obtain ⟨name, hfirst, hfind⟩ := h
  obtain ⟨-, before, after, hnames, -⟩ := firstTrouble_eq hfirst
  refine ⟨name, ?_, hfind⟩
  rw [hnames]
  exact List.mem_append_right _ List.mem_cons_self

theorem NextTrouble.troubled {i d : Nat} (h : NextTrouble m i d) : Troubled m d := by
  obtain ⟨name, hfirst, hfind⟩ := h
  exact (firstTrouble_eq hfirst).1 d hfind

/-- One that goes on is troubled itself. -/
theorem troubled_of_next {i j : Nat} (h : ReflTransGen (NextTrouble m) i j) (hj : Troubled m j) : Troubled m i := by
  induction h using ReflTransGen.head_induction_on with
  | refl => exact hj
  | head hnext _ ih => exact .through hnext.dependsOn ih

/-- There is one way to go on. -/
theorem reach_next {i d j : Nat} (h : NextTrouble m i d) :
    ReflTransGen (NextTrouble m) i j ↔ j = i ∨ ReflTransGen (NextTrouble m) d j := by
  rw [ReflTransGen.cases_head_iff]
  constructor
  · rintro (heq | ⟨d', ⟨name', hfirst', hfind'⟩, hreach⟩)
    · exact Or.inl heq.symm
    · obtain ⟨name, hfirst, hfind⟩ := h
      obtain rfl := Option.some.inj (hfirst.symm.trans hfirst')
      obtain rfl := Option.some.inj (hfind.symm.trans hfind')
      exact Or.inr hreach
  · rintro (heq | hreach)
    · exact Or.inl heq.symm
    · exact Or.inr ⟨d, h, hreach⟩

/-- At a missing dependency there is no way to go on. -/
theorem reach_missing {i j : Nat} (h : AtMissing m i) : ReflTransGen (NextTrouble m) i j ↔ j = i := by
  rw [ReflTransGen.cases_head_iff]
  constructor
  · rintro (heq | ⟨d, ⟨name', hfirst', hfind'⟩, -⟩)
    · exact heq.symm
    · obtain ⟨name, hfirst, hnone⟩ := h
      obtain rfl := Option.some.inj (hfirst.symm.trans hfirst')
      exact absurd (hfind'.symm.trans hnone) (Option.some_ne_none d)
  · exact fun heq => Or.inl heq.symm

/-! ## Visits of participants that are not troubled -/

/-- The participants are these, and none that is marked done is troubled. -/
structure Settled (m : Manager) (v : Visit) : Prop where
  participants : v.manager.participants = m.participants
  done : ∀ j, v.marks j = .done → ¬Troubled m j

/-- The marks on the way and the status are as they were. -/
structure Unmoved (m : Manager) (v v' : Visit) : Prop where
  settled : Settled m v'
  active_iff : ∀ j, v'.marks j = .active ↔ v.marks j = .active
  status : v'.manager.status = v.manager.status

theorem Unmoved.trans {v v' v'' : Visit} (h : Unmoved m v v') (h' : Unmoved m v' v'') : Unmoved m v v'' :=
  ⟨h'.settled, fun j => (h'.active_iff j).trans (h.active_iff j), h'.status.trans h.status⟩

/-- Visits of participants that are not troubled succeed; of those on the way, the ones that are not troubled lead to the participant. -/
def Succeeds (m : Manager) (visit : Nat → Visit → Option (Bool × Visit)) : Prop :=
  ∀ i v b v', Settled m v → ¬Troubled m i → (∀ j, v.marks j = .active → Troubled m j ∨ TransGen (DependsOn m) j i) →
    visit i v = some (b, v') → b = true ∧ Unmoved m v v'

theorem visitDependencies_succeeds {visit : Nat → Visit → Option (Bool × Visit)} (hvisit : Succeeds m visit) {names : List Name}
    (hnames : ∀ name ∈ names, ¬Trouble m name) {v v' : Visit} {b : Bool} (hv : Settled m v)
    (hactive : ∀ j, v.marks j = .active → Troubled m j ∨ ∀ name ∈ names, ∀ d, find m name = some d → TransGen (DependsOn m) j d)
    (h : visitDependencies visit names v = some (b, v')) : b = true ∧ Unmoved m v v' := by
  induction names generalizing v with
  | nil =>
    obtain ⟨rfl, rfl⟩ := Prod.mk.inj (Option.some.inj h)
    exact ⟨rfl, hv, fun _ => Iff.rfl, rfl⟩
  | cons name names ih =>
    obtain ⟨hname, hnames⟩ := List.forall_mem_cons.1 hnames
    unfold Trouble at hname
    push Not at hname
    obtain ⟨d, hfind, hd⟩ := hname
    unfold visitDependencies at h
    rw [find_congr hv.participants, hfind] at h
    dsimp only at h
    have hstart : ∀ j, v.marks j = .active → Troubled m j ∨ TransGen (DependsOn m) j d := by
      intro j hj
      rcases hactive j hj with htroubled | hleads
      · exact Or.inl htroubled
      · exact Or.inr (hleads name List.mem_cons_self d hfind)
    split at h
    · nomatch h
    · rename_i v1 hcall
      exact absurd (hvisit d v false v1 hv hd hstart hcall).1 (by decide)
    · rename_i v1 hcall
      obtain ⟨-, hunmoved⟩ := hvisit d v true v1 hv hd hstart hcall
      obtain ⟨hb, hrest⟩ := ih hnames hunmoved.settled (fun j hj => by
        rcases hactive j ((hunmoved.active_iff j).1 hj) with htroubled | hleads
        · exact Or.inl htroubled
        · exact Or.inr fun other hother => hleads other (List.mem_cons_of_mem _ hother)) h
      exact ⟨hb, hunmoved.trans hrest⟩

/-- A participant that is put on the way. -/
theorem Settled.mark_active {v : Visit} (h : Settled m v) (i : Nat) : Settled m (v.mark i .active) := by
  refine ⟨h.participants, fun j hj => ?_⟩
  by_cases heq : j = i
  · subst heq
    exact absurd ((Function.update_self ..).symm.trans hj) (by decide)
  · exact h.done j ((Function.update_of_ne heq ..).symm.trans hj)

theorem active_mark {v : Visit} {i j : Nat} : (v.mark i .active).marks j = .active ↔ j = i ∨ v.marks j = .active := by
  by_cases heq : j = i
  · subst heq
    exact iff_of_true (Function.update_self ..) (Or.inl rfl)
  · refine Iff.trans ?_ (or_iff_right heq).symm
    unfold Visit.mark
    dsimp only
    rw [Function.update_of_ne heq]

theorem dependenciesOf_congr {m m' : Manager} (h : m'.participants = m.participants) (i : Nat) :
    (m'.participants[i]?.map Participant.dependencies).getD [] = m.dependenciesOf i := by
  rw [h]
  rfl

theorem visit_succeeds (hacyclic : ¬Cyclic m) (fuel : Nat) : Succeeds m (visit fuel) := by
  induction fuel with
  | zero =>
    intro i v b v' _ _ _ h
    cases h
  | succ fuel ih =>
    intro i v b v' hv hi hactive h
    unfold visit at h
    split at h
    · obtain ⟨rfl, rfl⟩ := Prod.mk.inj (Option.some.inj h)
      exact ⟨rfl, hv, fun _ => Iff.rfl, rfl⟩
    · rename_i hmark
      rcases hactive i hmark with htroubled | hcycle
      · exact absurd htroubled hi
      · exact absurd ⟨i, hcycle⟩ hacyclic
    · rename_i hmark
      rw [dependenciesOf_congr hv.participants] at h
      have hnames : ∀ name ∈ m.dependenciesOf i, ¬Trouble m name := fun name hname htrouble => hi (troubled_iff.2 ⟨name, hname, htrouble⟩)
      have hdependencies : ∀ j, (v.mark i .active).marks j = .active →
          Troubled m j ∨ ∀ name ∈ m.dependenciesOf i, ∀ d, find m name = some d → TransGen (DependsOn m) j d := by
        intro j hj
        rcases active_mark.1 hj with rfl | hj
        · exact Or.inr fun name hname d hfind => TransGen.single ⟨name, hname, hfind⟩
        · rcases hactive j hj with htroubled | hleads
          · exact Or.inl htroubled
          · exact Or.inr fun name hname d hfind => hleads.tail ⟨name, hname, hfind⟩
      split at h
      · cases h
      · rename_i v1 hcall
        exact absurd (visitDependencies_succeeds ih hnames (hv.mark_active i) hdependencies hcall).1 (by decide)
      · rename_i v1 hcall
        obtain ⟨rfl, rfl⟩ := Prod.mk.inj (Option.some.inj h)
        obtain ⟨-, hsettled, hactive', hstatus⟩ := visitDependencies_succeeds ih hnames (hv.mark_active i) hdependencies hcall
        refine ⟨rfl, ⟨hsettled.participants, fun j hj => ?_⟩, fun j => ?_, hstatus⟩
        · by_cases heq : j = i
          · rw [heq]
            exact hi
          · exact hsettled.done j ((Function.update_of_ne heq ..).symm.trans hj)
        · show Function.update v1.marks i .done j = .active ↔ v.marks j = .active
          by_cases heq : j = i
          · subst heq
            rw [Function.update_self, hmark]
            exact iff_of_false (by decide) (by decide)
          · rw [Function.update_of_ne heq, hactive' j, active_mark, or_iff_right heq]

/-! ## Visits of troubled participants -/

theorem visitDependencies_append {visit : Nat → Visit → Option (Bool × Visit)} {names later : List Name} {v v' : Visit} {b : Bool}
    (h : visitDependencies visit (names ++ later) v = some (b, v')) :
    (b = false ∧ visitDependencies visit names v = some (false, v')) ∨
    ∃ v1, visitDependencies visit names v = some (true, v1) ∧ visitDependencies visit later v1 = some (b, v') := by
  induction names generalizing v with
  | nil => exact Or.inr ⟨v, rfl, h⟩
  | cons name names ih =>
    rw [List.cons_append, visitDependencies] at h
    rw [visitDependencies]
    split at h
    · obtain ⟨rfl, rfl⟩ := Prod.mk.inj (Option.some.inj h)
      exact Or.inl ⟨rfl, rfl⟩
    · split at h
      · cases h
      · obtain ⟨rfl, rfl⟩ := Prod.mk.inj (Option.some.inj h)
        exact Or.inl ⟨rfl, rfl⟩
      · exact ih h

/-- What a visit of a troubled participant leaves: the marks on the way of all that it goes on to, and the report of a cycle exactly when
it comes to one of those that earlier visits have left. -/
structure Reported (m : Manager) (left : Nat → Prop) (i : Nat) (v v' : Visit) : Prop where
  settled : Settled m v'
  active_iff : ∀ j, v'.marks j = .active ↔ v.marks j = .active ∨ ReflTransGen (NextTrouble m) i j
  cycle : (∃ j, ReflTransGen (NextTrouble m) i j ∧ left j) → v'.manager.status.failure.code = .dependencyCycle
  missing : (¬∃ j, ReflTransGen (NextTrouble m) i j ∧ left j) → v'.manager.status.failure.code = .missingDependency

/-- Marks that earlier visits have left. -/
structure Left (m : Manager) (left : Nat → Prop) : Prop where
  troubled : ∀ j, left j → Troubled m j
  closed : ∀ j d, left j → NextTrouble m j d → left d

theorem Left.reach {left : Nat → Prop} (h : Left m left) {i j : Nat} (hi : left i) (hreach : ReflTransGen (NextTrouble m) i j) :
    left j := by
  induction hreach with
  | refl => exact hi
  | tail _ hnext ih => exact h.closed _ _ ih hnext

/-- Visits of troubled participants fail. -/
def Fails (m : Manager) (left : Nat → Prop) (visit : Nat → Visit → Option (Bool × Visit)) : Prop :=
  ∀ i v b v', Settled m v → Troubled m i → (∀ j, left j → v.marks j = .active) →
    (∀ j, v.marks j = .active → left j ∨ TransGen (DependsOn m) j i) → visit i v = some (b, v') → b = false ∧ Reported m left i v v'

theorem visitDependencies_fails {left : Nat → Prop} (hleft : Left m left) {visit : Nat → Visit → Option (Bool × Visit)}
    (hsucceeds : Succeeds m visit) (hfails : Fails m left visit) {i : Nat} {v v' : Visit} {b : Bool} (hi : Troubled m i)
    (hv : Settled m v) (hnot : ¬left i) (hmarks : ∀ j, left j → v.marks j = .active)
    (hactive : ∀ j, v.marks j = .active → left j ∨ ∀ d, DependsOn m i d → TransGen (DependsOn m) j d)
    (h : visitDependencies visit (m.dependenciesOf i) (v.mark i .active) = some (b, v')) :
    b = false ∧ Reported m left i v v' := by
  obtain ⟨name, hfirst⟩ := exists_firstTrouble hi
  obtain ⟨htrouble, before, after, hnames, hbefore⟩ := firstTrouble_eq hfirst
  have hdepends : ∀ other ∈ before, ∀ d, find m other = some d → DependsOn m i d := by
    intro other hother d hfind
    refine ⟨other, ?_, hfind⟩
    rw [hnames]
    exact List.mem_append_left _ hother
  have hway : ∀ j, (v.mark i .active).marks j = .active → left j ∨ ∀ d, DependsOn m i d → TransGen (DependsOn m) j d := by
    intro j hj
    rcases active_mark.1 hj with rfl | hj
    · exact Or.inr fun d hd => TransGen.single hd
    · exact hactive j hj
  rw [hnames] at h
  rcases visitDependencies_append h with ⟨-, hcall⟩ | ⟨v1, hcall, hrest⟩
  · refine absurd (visitDependencies_succeeds hsucceeds hbefore (hv.mark_active i) (fun j hj => ?_) hcall).1 (by decide)
    rcases hway j hj with hj | hleads
    · exact Or.inl (hleft.troubled j hj)
    · exact Or.inr fun other hother d hfind => hleads d (hdepends other hother d hfind)
  · obtain ⟨-, hsettled, hactive1, hstatus⟩ := visitDependencies_succeeds hsucceeds hbefore (hv.mark_active i) (fun j hj => by
      rcases hway j hj with hj | hleads
      · exact Or.inl (hleft.troubled j hj)
      · exact Or.inr fun other hother d hfind => hleads d (hdepends other hother d hfind)) hcall
    unfold visitDependencies at hrest
    rw [find_congr hsettled.participants] at hrest
    cases hfind : find m name with
    | none =>
      rw [hfind] at hrest
      obtain ⟨rfl, rfl⟩ := Prod.mk.inj (Option.some.inj hrest)
      have hat : AtMissing m i := ⟨name, hfirst, hfind⟩
      refine ⟨rfl, ⟨hsettled.participants, hsettled.done⟩, fun j => ?_, ?_, fun _ => rfl⟩
      · refine (hactive1 j).trans ?_
        rw [active_mark, reach_missing hat, or_comm]
      · rintro ⟨j, hreach, hj⟩
        obtain rfl := (reach_missing hat).1 hreach
        exact absurd hj hnot
    | some d =>
      rw [hfind] at hrest
      dsimp only at hrest
      have hnext : NextTrouble m i d := ⟨name, hfirst, hfind⟩
      have hmarks1 : ∀ j, left j → v1.marks j = .active := fun j hj => (hactive1 j).2 (active_mark.2 (Or.inr (hmarks j hj)))
      have hway1 : ∀ j, v1.marks j = .active → left j ∨ TransGen (DependsOn m) j d := by
        intro j hj
        rcases hway j ((hactive1 j).1 hj) with hj | hleads
        · exact Or.inl hj
        · exact Or.inr (hleads d hnext.dependsOn)
      split at hrest
      · nomatch hrest
      · rename_i v2 hvisit
        obtain ⟨rfl, rfl⟩ := Prod.mk.inj (Option.some.inj hrest)
        obtain ⟨-, hsettled2, hactive2, hcycle, hmissing⟩ := hfails d v1 false v2 hsettled hnext.troubled hmarks1 hway1 hvisit
        have hsame : (∃ j, ReflTransGen (NextTrouble m) i j ∧ left j) ↔ ∃ j, ReflTransGen (NextTrouble m) d j ∧ left j := by
          constructor
          · rintro ⟨j, hreach, hj⟩
            rcases (reach_next hnext).1 hreach with rfl | hreach
            · exact absurd hj hnot
            · exact ⟨j, hreach, hj⟩
          · rintro ⟨j, hreach, hj⟩
            exact ⟨j, (reach_next hnext).2 (Or.inr hreach), hj⟩
        refine ⟨rfl, hsettled2, fun j => ?_, fun hreach => hcycle (hsame.1 hreach), fun hreach => hmissing (hsame.not.1 hreach)⟩
        rw [hactive2, hactive1, active_mark, reach_next hnext, or_comm (a := j = i), or_assoc]
      · rename_i v2 hvisit
        exact absurd (hfails d v1 true v2 hsettled hnext.troubled hmarks1 hway1 hvisit).1 (by decide)

theorem visit_fails {left : Nat → Prop} (hacyclic : ¬Cyclic m) (hleft : Left m left) (fuel : Nat) : Fails m left (visit fuel) := by
  induction fuel with
  | zero =>
    intro i v b v' _ _ _ _ h
    cases h
  | succ fuel ih =>
    intro i v b v' hv hi hmarks hactive h
    unfold visit at h
    split at h
    · rename_i hmark
      exact absurd hi (hv.done i hmark)
    · rename_i hmark
      obtain ⟨rfl, rfl⟩ := Prod.mk.inj (Option.some.inj h)
      rcases hactive i hmark with hleft' | hcycle
      · refine ⟨rfl, ⟨hv.participants, hv.done⟩, fun j => ?_, fun _ => rfl, fun hnone => ?_⟩
        · exact (or_iff_left_of_imp fun hreach => hmarks j (hleft.reach hleft' hreach)).symm
        · exact absurd ⟨i, ReflTransGen.refl, hleft'⟩ hnone
      · exact absurd ⟨i, hcycle⟩ hacyclic
    · rename_i hmark
      rw [dependenciesOf_congr hv.participants] at h
      have hnot : ¬left i := fun hi' => absurd (hmark.symm.trans (hmarks i hi')) (by decide)
      have hdependencies : ∀ b v', visitDependencies (visit fuel) (m.dependenciesOf i) (v.mark i .active) = some (b, v') →
          b = false ∧ Reported m left i v v' := fun b v' hcall =>
        visitDependencies_fails hleft (visit_succeeds hacyclic fuel) ih hi hv hnot hmarks
          (fun j hj => (hactive j hj).imp_right fun hleads d hd => hleads.tail hd) hcall
      split at h
      · cases h
      · rename_i v1 hcall
        obtain ⟨rfl, rfl⟩ := Prod.mk.inj (Option.some.inj h)
        exact hdependencies false v1 hcall
      · rename_i v1 hcall
        exact absurd (hdependencies true v1 hcall).1 (by decide)

/-! ## The rounds -/

/-- BetweenRounds the rounds, the marks on the way are those that failed visits have left. -/
structure BetweenRounds (m : Manager) (left : Nat → Prop) (v : Visit) : Prop where
  settled : Settled m v
  marks : ∀ j, v.marks j = .active ↔ left j
  left : Left m left

/-- What was left, and what some participants go on to. -/
def LeftBy (m : Manager) (left : Nat → Prop) (roots : List Nat) (j : Nat) : Prop :=
  left j ∨ ∃ r ∈ roots, Troubled m r ∧ ReflTransGen (NextTrouble m) r j

theorem troubled_of_reach {i j : Nat} (hi : Troubled m i) (h : ReflTransGen (NextTrouble m) i j) : Troubled m j := by
  cases h with
  | refl => exact hi
  | tail _ hnext => exact hnext.troubled

theorem Left.by {left : Nat → Prop} (h : Left m left) (roots : List Nat) : Left m (LeftBy m left roots) := by
  refine ⟨?_, ?_⟩
  · rintro j (hj | ⟨r, -, hr, hreach⟩)
    · exact h.troubled j hj
    · exact troubled_of_reach hr hreach
  · rintro j d (hj | ⟨r, hmem, hr, hreach⟩) hnext
    · exact Or.inl (h.closed j d hj hnext)
    · exact Or.inr ⟨r, hmem, hr, hreach.tail hnext⟩

variable {left : Nat → Prop} {v v' : Visit} {i : Nat}

theorem finalizeRound_untroubled (hacyclic : ¬Cyclic m) (h : BetweenRounds m left v) (hi : ¬Troubled m i)
    (hround : finalizeRound v i = some v') :
    BetweenRounds m left v' ∧ v'.manager.status = v.manager.status := by
  have hactive : ∀ j, v.marks j = .active → Troubled m j ∨ TransGen (DependsOn m) j i :=
    fun j hj => Or.inl (h.left.troubled j ((h.marks j).1 hj))
  unfold finalizeRound at hround
  split at hround
  · nomatch hround
  · rename_i hvisit
    obtain rfl := Option.some.inj hround
    obtain ⟨-, hunmoved⟩ := visit_succeeds hacyclic _ i v _ _ h.settled hi hactive hvisit
    exact ⟨⟨hunmoved.settled, fun j => (hunmoved.active_iff j).trans (h.marks j), h.left⟩, hunmoved.status⟩
  · rename_i hvisit
    exact absurd (visit_succeeds hacyclic _ i v _ _ h.settled hi hactive hvisit).1 (by decide)

theorem finalizeRound_troubled (hacyclic : ¬Cyclic m) (h : BetweenRounds m left v) (hi : Troubled m i)
    (hround : finalizeRound v i = some v') :
    BetweenRounds m (LeftBy m left [i]) v' ∧ v'.manager.status.suspendAvailable = false ∧
    ((∃ j, ReflTransGen (NextTrouble m) i j ∧ left j) → v'.manager.status.failure.code = .dependencyCycle) ∧
    ((¬∃ j, ReflTransGen (NextTrouble m) i j ∧ left j) → v'.manager.status.failure.code = .missingDependency) := by
  have hmarks : ∀ j, left j → v.marks j = .active := fun j hj => (h.marks j).2 hj
  have hactive : ∀ j, v.marks j = .active → left j ∨ TransGen (DependsOn m) j i := fun j hj => Or.inl ((h.marks j).1 hj)
  unfold finalizeRound at hround
  split at hround
  · nomatch hround
  · rename_i hvisit
    exact absurd (visit_fails hacyclic h.left _ i v _ _ h.settled hi hmarks hactive hvisit).1 (by decide)
  · rename_i hvisit
    obtain rfl := Option.some.inj hround
    obtain ⟨-, hsettled, hactive', hcycle, hmissing⟩ := visit_fails hacyclic h.left _ i v _ _ h.settled hi hmarks hactive hvisit
    refine ⟨⟨⟨hsettled.participants, hsettled.done⟩, fun j => ?_, h.left.by [i]⟩, rfl, hcycle, hmissing⟩
    refine (hactive' j).trans ?_
    rw [h.marks]
    refine or_congr Iff.rfl ?_
    constructor
    · exact fun hreach => ⟨i, List.mem_singleton_self i, hi, hreach⟩
    · rintro ⟨r, hmem, -, hreach⟩
      rw [← List.mem_singleton.1 hmem]
      exact hreach

theorem leftBy_cons {roots : List Nat} : LeftBy m (LeftBy m left [i]) roots = LeftBy m left (i :: roots) := by
  funext j
  unfold LeftBy
  refine propext ⟨?_, ?_⟩
  · rintro ((hj | ⟨r, hmem, hr, hreach⟩) | ⟨r, hmem, hr, hreach⟩)
    · exact Or.inl hj
    · exact Or.inr ⟨r, List.mem_singleton.1 hmem ▸ List.mem_cons_self, hr, hreach⟩
    · exact Or.inr ⟨r, List.mem_cons_of_mem _ hmem, hr, hreach⟩
  · rintro (hj | ⟨r, hmem, hr, hreach⟩)
    · exact Or.inl (Or.inl hj)
    · rcases List.mem_cons.1 hmem with heq | hmem
      · exact Or.inl (Or.inr ⟨r, List.mem_singleton.2 heq, hr, hreach⟩)
      · exact Or.inr ⟨r, hmem, hr, hreach⟩

theorem leftBy_of_untroubled {roots : List Nat} (h : ∀ r ∈ roots, ¬Troubled m r) : LeftBy m left roots = left := by
  funext j
  exact propext (or_iff_left fun ⟨r, hmem, hr, _⟩ => h r hmem hr)

/-- Suspend stays available through rounds exactly when none of the participants is troubled. -/
theorem finalizeRounds_between (hacyclic : ¬Cyclic m) {roots : List Nat} (h : BetweenRounds m left v)
    (hrounds : roots.foldlM finalizeRound v = some v') :
    BetweenRounds m (LeftBy m left roots) v' ∧
    (v'.manager.status.suspendAvailable = true ↔ v.manager.status.suspendAvailable = true ∧ ∀ r ∈ roots, ¬Troubled m r) ∧
    ((∀ r ∈ roots, ¬Troubled m r) → v'.manager.status = v.manager.status) := by
  induction roots generalizing left v with
  | nil =>
    obtain rfl := Option.some.inj hrounds
    refine ⟨?_, ⟨fun havailable => ⟨havailable, fun _ hmem => absurd hmem List.not_mem_nil⟩, fun havailable => havailable.1⟩,
      fun _ => rfl⟩
    rw [leftBy_of_untroubled fun _ hmem => absurd hmem List.not_mem_nil]
    exact h
  | cons i roots ih =>
    rw [List.foldlM_cons] at hrounds
    obtain ⟨v1, hround, hrest⟩ := Option.bind_eq_some_iff.1 hrounds
    by_cases hi : Troubled m i
    · obtain ⟨h1, havailable1, -, -⟩ := finalizeRound_troubled hacyclic h hi hround
      obtain ⟨h2, havailable2, -⟩ := ih h1 hrest
      rw [leftBy_cons] at h2
      refine ⟨h2, ⟨fun havailable => ?_, fun havailable => absurd hi (havailable.2 i List.mem_cons_self)⟩,
        fun hnone => absurd hi (hnone i List.mem_cons_self)⟩
      exact absurd ((havailable2.1 havailable).1.symm.trans havailable1) (by decide)
    · obtain ⟨h1, hstatus1⟩ := finalizeRound_untroubled hacyclic h hi hround
      obtain ⟨h2, havailable2, hstatus2⟩ := ih h1 hrest
      have hleft : LeftBy m left [i] = left := leftBy_of_untroubled fun r hmem => List.mem_singleton.1 hmem ▸ hi
      rw [← leftBy_cons, hleft]
      refine ⟨h2, ?_, fun hnone => (hstatus2 fun r hmem => hnone r (List.mem_cons_of_mem _ hmem)).trans hstatus1⟩
      rw [havailable2, hstatus1, List.forall_mem_cons]
      exact and_congr_right fun _ => (and_iff_right hi).symm

/-! ## What finalizing leaves -/

theorem Troubled.lt (h : Troubled m i) : i < m.participants.length := by
  obtain ⟨name, hname, -⟩ := troubled_iff.1 h
  by_contra hle
  rw [Manager.dependenciesOf, List.getElem?_eq_none (Nat.le_of_not_lt hle)] at hname
  exact absurd hname List.not_mem_nil

/-- The participants from one on, after those before it. -/
theorem range_split {n r : Nat} (h : r < n) : ∃ after, List.range n = List.range r ++ r :: after ∧ ∀ j ∈ after, r < j := by
  obtain ⟨k, rfl⟩ : ∃ k, n = r + (k + 1) := ⟨n - r - 1, by omega⟩
  refine ⟨(List.range k).map (r + Nat.succ ·), ?_, fun j hmem => ?_⟩
  · rw [List.range_add, List.range_succ_eq_map, List.map_cons, List.map_map]
    rfl
  · obtain ⟨x, -, rfl⟩ := List.mem_map.1 hmem
    show r < r + (x + 1)
    omega

theorem betweenRounds_start (m : Manager) : BetweenRounds m (fun _ => False) ⟨m, fun _ => .unvisited⟩ := by
  refine ⟨⟨rfl, fun j hj => ?_⟩, fun j => iff_of_false (fun hj => ?_) id, fun _ h => h.elim, fun _ _ h => h.elim⟩
  · exact nomatch (show Mark.unvisited = Mark.done from hj)
  · exact nomatch (show Mark.unvisited = Mark.active from hj)

variable {m' : Manager}

/-- Without a cycle, suspend stays available exactly when no participant is troubled. -/
theorem finalize_available (hacyclic : ¬Cyclic m) (h : powerManagerFinalize m = some m') :
    (m'.status.suspendAvailable = true ↔ m.status.suspendAvailable = true ∧ ∀ i, ¬Troubled m i) ∧
    ((∀ i, ¬Troubled m i) → m'.status = m.status) := by
  unfold powerManagerFinalize at h
  split at h
  · nomatch h
  · rename_i v hrounds
    obtain rfl := Option.some.inj h
    obtain ⟨-, havailable, hstatus⟩ := finalizeRounds_between hacyclic (betweenRounds_start m) hrounds
    refine ⟨havailable.trans (and_congr_right fun _ => ?_), fun hnone => hstatus fun r _ => hnone r⟩
    exact ⟨fun hnone i hi => hnone i (List.mem_range.2 hi.lt) hi, fun hnone r _ => hnone r⟩

/-- Without a cycle, the last participant that is troubled decides what is recorded. -/
theorem finalize_reports (hacyclic : ¬Cyclic m) (h : powerManagerFinalize m = some m') {r : Nat} (hr : Troubled m r)
    (hlast : ∀ r', Troubled m r' → r' ≤ r) :
    ((∃ r', r' < r ∧ Troubled m r' ∧ ∃ j, ReflTransGen (NextTrouble m) r j ∧ ReflTransGen (NextTrouble m) r' j) →
      m'.status.failure.code = .dependencyCycle) ∧
    ((¬∃ r', r' < r ∧ Troubled m r' ∧ ∃ j, ReflTransGen (NextTrouble m) r j ∧ ReflTransGen (NextTrouble m) r' j) →
      m'.status.failure.code = .missingDependency) := by
  unfold powerManagerFinalize at h
  split at h
  · nomatch h
  · rename_i v hrounds
    obtain rfl := Option.some.inj h
    obtain ⟨after, hrange, hafter⟩ := range_split hr.lt
    rw [hrange, List.foldlM_append] at hrounds
    obtain ⟨v1, hbefore, hrest⟩ := Option.bind_eq_some_iff.1 hrounds
    rw [List.foldlM_cons] at hrest
    obtain ⟨v2, hround, hrest⟩ := Option.bind_eq_some_iff.1 hrest
    obtain ⟨h1, -, -⟩ := finalizeRounds_between hacyclic (betweenRounds_start m) hbefore
    obtain ⟨h2, -, hcycle, hmissing⟩ := finalizeRound_troubled hacyclic h1 hr hround
    obtain ⟨-, -, hstatus⟩ := finalizeRounds_between hacyclic h2 hrest
    have hsame := hstatus fun j hmem hj => absurd (hlast j hj) (Nat.not_le.2 (hafter j hmem))
    have hiff : (∃ j, ReflTransGen (NextTrouble m) r j ∧ LeftBy m (fun _ => False) (List.range r) j) ↔
        ∃ r', r' < r ∧ Troubled m r' ∧ ∃ j, ReflTransGen (NextTrouble m) r j ∧ ReflTransGen (NextTrouble m) r' j := by
      constructor
      · rintro ⟨j, hreach, hfalse | ⟨r', hmem, hr', hreach'⟩⟩
        · exact hfalse.elim
        · exact ⟨r', List.mem_range.1 hmem, hr', j, hreach, hreach'⟩
      · rintro ⟨r', hlt, hr', j, hreach, hreach'⟩
        exact ⟨j, hreach, Or.inr ⟨r', List.mem_range.2 hlt, hr', hreach'⟩⟩
    show (_ → v.manager.status.failure.code = _) ∧ (_ → v.manager.status.failure.code = _)
    rw [hsame, ← hiff]
    exact ⟨hcycle, hmissing⟩

/-! ## Registrations -/

/-- What `power_manager_register` returns. -/
def powerManagerRegisters (registration : Participant) (m : Manager) : Bool :=
  if m.finalized = true ∨ nameOk registration.name = false ∨ dependencyCapacity < registration.dependencies.length then false
  else if m.participants.length = participantCapacity then false
  else if (find m registration.name).isSome then false
  else if registration.dependencies.any (fun name => !nameOk name) then false
  else true

/-- A sequence of registrations. -/
def registerAll (registrations : List Participant) (m : Manager) : Manager :=
  registrations.foldl (fun m registration => powerManagerRegister registration m) m

/-- No registration of a sequence fails. -/
def AllRegister : List Participant → Manager → Prop
  | [], _ => True
  | registration :: registrations, m =>
    powerManagerRegisters registration m = true ∧ AllRegister registrations (powerManagerRegister registration m)

/-- Neither a missing dependency nor a cycle is recorded. -/
def Unreported (m : Manager) : Prop :=
  m.status.failure.code ≠ .missingDependency ∧ m.status.failure.code ≠ .dependencyCycle

theorem powerManagerRegister_available (registration : Participant) (m : Manager) :
    (powerManagerRegister registration m).status.suspendAvailable =
      (powerManagerRegisters registration m && m.status.suspendAvailable) := by
  unfold powerManagerRegister powerManagerRegisters
  split
  · rfl
  · split
    · rfl
    · split
      · rfl
      · split <;> rfl

theorem powerManagerRegister_keeps (registration : Participant) (m : Manager) :
    (powerManagerRegister registration m).dependencyOrder = m.dependencyOrder ∧
    (Unreported m → Unreported (powerManagerRegister registration m)) := by
  have hargument : ∀ name, Unreported (refuseRegistration .argument name m) := fun _ =>
    ⟨show FailureCode.argument ≠ _ by decide, show FailureCode.argument ≠ _ by decide⟩
  have hcapacity : Unreported (refuseRegistration .capacity registration.name m) :=
    ⟨show FailureCode.capacity ≠ _ by decide, show FailureCode.capacity ≠ _ by decide⟩
  have hduplicate : Unreported (refuseRegistration .duplicate registration.name m) :=
    ⟨show FailureCode.duplicate ≠ _ by decide, show FailureCode.duplicate ≠ _ by decide⟩
  unfold powerManagerRegister
  split
  · exact ⟨rfl, fun _ => hargument _⟩
  · split
    · exact ⟨rfl, fun _ => hcapacity⟩
    · split
      · exact ⟨rfl, fun _ => hduplicate⟩
      · split
        · exact ⟨rfl, fun _ => hargument _⟩
        · exact ⟨rfl, id⟩

theorem registerAll_spec (registrations : List Participant) (m : Manager) :
    ((registerAll registrations m).status.suspendAvailable = true ↔ AllRegister registrations m ∧ m.status.suspendAvailable = true) ∧
    (registerAll registrations m).dependencyOrder = m.dependencyOrder ∧ (Unreported m → Unreported (registerAll registrations m)) := by
  induction registrations generalizing m with
  | nil => exact ⟨(and_iff_right trivial).symm, rfl, id⟩
  | cons registration registrations ih =>
    obtain ⟨havailable, horder, hunreported⟩ := ih (powerManagerRegister registration m)
    obtain ⟨horder', hunreported'⟩ := powerManagerRegister_keeps registration m
    refine ⟨?_, horder.trans horder', fun h => hunreported (hunreported' h)⟩
    show (registerAll registrations (powerManagerRegister registration m)).status.suspendAvailable = true ↔
      (powerManagerRegisters registration m = true ∧ AllRegister registrations (powerManagerRegister registration m)) ∧ _
    rw [havailable, powerManagerRegister_available, Bool.and_eq_true]
    constructor
    · exact fun ⟨hall, hregisters, h⟩ => ⟨⟨hregisters, hall⟩, h⟩
    · exact fun ⟨⟨hregisters, hall⟩, h⟩ => ⟨hall, hregisters, h⟩

variable (env : Environment)

theorem unreported_setBrightness (brightness : BitVec 8) {w : World} (h : Unreported w.manager) :
    Unreported (setBrightness env brightness w).2.manager := by
  unfold setBrightness
  dsimp only
  split
  · exact h
  · split
    · exact ⟨show FailureCode.brightness ≠ _ by decide, show FailureCode.brightness ≠ _ by decide⟩
    · exact h

theorem unreported_setPanel (enabled : Bool) {w : World} (h : Unreported w.manager) :
    Unreported (setPanel env enabled w).2.manager := by
  unfold setPanel
  dsimp only
  split
  · exact h
  · split
    · exact ⟨show FailureCode.panel ≠ _ by decide, show FailureCode.panel ≠ _ by decide⟩
    · exact h

theorem unreported_setDisplay (brightness : BitVec 8) (panelEnabled : Bool) {w : World} (h : Unreported w.manager) :
    Unreported (setDisplay env brightness panelEnabled w).manager := by
  have hdesired : Unreported (w.modifyStatus fun s => { s with desiredBrightness := brightness }).manager := h
  unfold setDisplay
  dsimp only
  split
  · have hset := unreported_setBrightness env 0 hdesired
    split <;> rename_i heq <;> rw [heq] at hset
    · exact unreported_setPanel env false hset
    · exact hset
  · have hset := unreported_setPanel env true hdesired
    split <;> rename_i heq <;> rw [heq] at hset
    · exact unreported_setBrightness env brightness hset
    · exact hset

theorem unreported_restoreDisplay {w : World} (h : Unreported w.manager) : Unreported (restoreDisplay env w).manager := by
  have hoff : Unreported (w.modifyStatus fun s => { s with screenOffRequested := false, panelOffRequested := false }).manager := h
  exact unreported_setDisplay env _ true hoff

/-- A manager that has just been made has no participants, and neither a missing dependency nor a cycle recorded. -/
theorem powerManagerInit_unreported {policy : Policy} {nowMs : BitVec 64} {w : World} (h : powerManagerInit env policy nowMs = some w) :
    w.manager.dependencyOrder = [] ∧ w.manager.status.suspendAvailable = true ∧ Unreported w.manager := by
  unfold powerManagerInit at h
  split at h
  · exact absurd h.symm (Option.some_ne_none _)
  · obtain rfl := Option.some.inj h
    have hcore := (quiet_restoreDisplay env ⟨.initial policy nowMs, [], 0⟩).core
    refine ⟨congrArg Core.dependencyOrder hcore, congrArg Core.suspendAvailable hcore, unreported_restoreDisplay env ?_⟩
    exact ⟨show FailureCode.none ≠ _ by decide, show FailureCode.none ≠ _ by decide⟩

/-! ## Whether the participants are accepted -/

theorem missing_of_troubled (h : Troubled m i) : Missing m := by
  induction h with
  | missing hname hnone => exact ⟨_, _, hname, hnone⟩
  | through _ _ ih => exact ih

theorem not_missing_iff : ¬Missing m ↔ ∀ i, ¬Troubled m i := by
  constructor
  · exact fun h i hi => h (missing_of_troubled hi)
  · rintro h ⟨i, name, hname, hnone⟩
    exact h i (.missing hname hnone)

/-- There is no cycle among participants that are in an order. -/
theorem Ordered.acyclic (h : Ordered m) : ¬Cyclic m := by
  rintro ⟨i, hcycle⟩
  obtain ⟨j, ⟨name, hname, -⟩, -⟩ := TransGen.head'_iff.1 hcycle
  have hi : i < m.participants.length := by
    by_contra hle
    rw [Manager.dependenciesOf, List.getElem?_eq_none (Nat.le_of_not_lt hle)] at hname
    exact absurd hname List.not_mem_nil
  exact h.topological.not_transGen_self (h.mem_iff.2 hi) hcycle

/-- A visit ends, whatever the graph. Finalizing accepts the participants exactly when no registration failed, every dependency is
registered and there is no cycle, and then their order holds every participant once, after all its dependencies. -/
theorem dependencies_finalized {policy : Policy} {nowMs : BitVec 64} {w : World} (h : powerManagerInit env policy nowMs = some w)
    (registrations : List Participant) :
    let m := registerAll registrations w.manager
    (∀ marks i, i < m.participants.length → ∃ result, visit (m.participants.length + 1) i ⟨m, marks⟩ = some result) ∧
    ∃ m', powerManagerFinalize m = some m' ∧
      (m'.status.suspendAvailable = true ↔ AllRegister registrations w.manager ∧ ¬Missing m ∧ ¬Cyclic m) ∧
      (m'.status.suspendAvailable = true →
        m'.dependencyOrder.Perm (List.range m.participants.length) ∧ TopologicalOrder (DependsOn m) m'.dependencyOrder) := by
  intro m
  obtain ⟨hempty, havailable, -⟩ := powerManagerInit_unreported env h
  obtain ⟨hregistered, horder, -⟩ := registerAll_spec registrations w.manager
  obtain ⟨m', hm'⟩ := powerManagerFinalize_isSome m
  have hparticipants : m'.participants = m.participants := by
    rw [powerManagerFinalize_eq hm']
  have hordered : m'.status.suspendAvailable = true → Ordered m' := ordered_of_finalize (horder.trans hempty) hm'
  have hacyclic : m'.status.suspendAvailable = true → ¬Cyclic m := by
    intro hm
    have hnot := (hordered hm).acyclic
    unfold Cyclic at hnot
    rw [dependsOn_congr hparticipants] at hnot
    exact hnot
  refine ⟨fun marks i hi => ?_, m', hm', ⟨fun hm => ?_, ?_⟩, fun hm => ?_⟩
  · have hunvisited : Visit.unvisited m.participants.length ⟨m, marks⟩ ≤ m.participants.length := by
      refine Nat.le_trans List.countP_le_length (Nat.le_of_eq ?_)
      rw [List.length_range]
    obtain ⟨b, v', hvisit, -, -⟩ := visit_isSome _ i ⟨m, marks⟩ hi rfl hunvisited
    exact ⟨_, hvisit⟩
  · obtain ⟨hiff, -⟩ := finalize_available (hacyclic hm) hm'
    obtain ⟨hm₀, huntroubled⟩ := hiff.1 hm
    exact ⟨(hregistered.1 hm₀).1, not_missing_iff.2 huntroubled, hacyclic hm⟩
  · rintro ⟨hall, hmissing, hcycle⟩
    obtain ⟨hiff, -⟩ := finalize_available hcycle hm'
    exact hiff.2 ⟨hregistered.2 ⟨hall, havailable⟩, not_missing_iff.1 hmissing⟩
  · obtain ⟨htopological, hperm⟩ := hordered hm
    rw [dependsOn_congr hparticipants] at htopological
    rw [hparticipants] at hperm
    exact ⟨hperm, htopological⟩

/-! ## What is recorded -/

theorem visitDependencies_missing {visit : Nat → Visit → Option (Bool × Visit)}
    (hvisit : ∀ i v b v', v.manager.participants = m.participants → visit i v = some (b, v') →
      v'.manager.participants = m.participants ∧
        (v'.manager.status.failure.code = .missingDependency → v.manager.status.failure.code = .missingDependency ∨ Missing m))
    {names : List Name} (hnames : ∀ name ∈ names, find m name = none → Missing m) {b : Bool}
    (hv : v.manager.participants = m.participants) (h : visitDependencies visit names v = some (b, v')) :
    v'.manager.participants = m.participants ∧
      (v'.manager.status.failure.code = .missingDependency → v.manager.status.failure.code = .missingDependency ∨ Missing m) := by
  induction names generalizing v with
  | nil =>
    obtain ⟨-, rfl⟩ := Prod.mk.inj (Option.some.inj h)
    exact ⟨hv, Or.inl⟩
  | cons name names ih =>
    obtain ⟨hname, hnames⟩ := List.forall_mem_cons.1 hnames
    unfold visitDependencies at h
    rw [find_congr hv] at h
    cases hfind : find m name with
    | none =>
      rw [hfind] at h
      obtain ⟨-, rfl⟩ := Prod.mk.inj (Option.some.inj h)
      exact ⟨hv, fun _ => Or.inr (hname hfind)⟩
    | some d =>
      rw [hfind] at h
      dsimp only at h
      split at h
      · nomatch h
      · rename_i hcall
        obtain ⟨-, rfl⟩ := Prod.mk.inj (Option.some.inj h)
        exact hvisit d v _ _ hv hcall
      · rename_i hcall
        obtain ⟨hv1, hcode⟩ := hvisit d v _ _ hv hcall
        obtain ⟨hv', hcode'⟩ := ih hnames hv1 h
        exact ⟨hv', fun hmissing => (hcode' hmissing).elim hcode Or.inr⟩

/-- A missing dependency is reported only where one is missing. -/
theorem visit_missing (fuel : Nat) : ∀ i v b v', v.manager.participants = m.participants → visit fuel i v = some (b, v') →
    v'.manager.participants = m.participants ∧
      (v'.manager.status.failure.code = .missingDependency → v.manager.status.failure.code = .missingDependency ∨ Missing m) := by
  induction fuel with
  | zero =>
    intro i v b v' _ h
    cases h
  | succ fuel ih =>
    intro i v b v' hv h
    unfold visit at h
    rw [dependenciesOf_congr hv] at h
    have hnames : ∀ name ∈ m.dependenciesOf i, find m name = none → Missing m := fun name hname hnone => ⟨i, name, hname, hnone⟩
    split at h
    · obtain ⟨-, rfl⟩ := Prod.mk.inj (Option.some.inj h)
      exact ⟨hv, Or.inl⟩
    · obtain ⟨-, rfl⟩ := Prod.mk.inj (Option.some.inj h)
      exact ⟨hv, fun hcode => absurd (show FailureCode.dependencyCycle = .missingDependency from hcode) (by decide)⟩
    · split at h
      · cases h
      · rename_i hcall
        obtain ⟨-, rfl⟩ := Prod.mk.inj (Option.some.inj h)
        have hcalled := visitDependencies_missing (v := v.mark i .active) ih hnames hv hcall
        exact hcalled
      · rename_i hcall
        obtain ⟨-, rfl⟩ := Prod.mk.inj (Option.some.inj h)
        have hcalled := visitDependencies_missing (v := v.mark i .active) ih hnames hv hcall
        exact hcalled

theorem finalizeRounds_missing {roots : List Nat} (hv : v.manager.participants = m.participants)
    (h : roots.foldlM finalizeRound v = some v') (hcode : v'.manager.status.failure.code = .missingDependency) :
    v.manager.status.failure.code = .missingDependency ∨ Missing m := by
  induction roots generalizing v with
  | nil =>
    obtain rfl := Option.some.inj h
    exact Or.inl hcode
  | cons i roots ih =>
    rw [List.foldlM_cons] at h
    obtain ⟨v1, hround, hrest⟩ := Option.bind_eq_some_iff.1 h
    have hround' : v1.manager.participants = m.participants ∧
        (v1.manager.status.failure.code = .missingDependency → v.manager.status.failure.code = .missingDependency ∨ Missing m) := by
      unfold finalizeRound at hround
      split at hround
      · nomatch hround
      · rename_i hvisit
        obtain rfl := Option.some.inj hround
        have hvisited := visit_missing _ i v _ _ hv hvisit
        exact hvisited
      · rename_i hvisit
        obtain rfl := Option.some.inj hround
        have hvisited := visit_missing _ i v _ _ hv hvisit
        exact hvisited
    exact (ih hround'.1 hrest).elim hround'.2 Or.inr

/-- A cycle is recorded only where there is one, and a missing dependency only where one is missing. -/
def Truthful (m m' : Manager) : Prop :=
  (m'.status.failure.code = .dependencyCycle → Cyclic m) ∧ (m'.status.failure.code = .missingDependency → Missing m)

/-- The last participant that is troubled. -/
def LastTroubled (m : Manager) (r : Nat) : Prop := Troubled m r ∧ ∀ r', Troubled m r' → r' ≤ r

theorem exists_lastTroubled (h : ∃ i, Troubled m i) : ∃ r, LastTroubled m r := by
  classical
  obtain ⟨i, hi⟩ := h
  refine ⟨Nat.findGreatest (Troubled m) m.participants.length, Nat.findGreatest_spec (Nat.le_of_lt hi.lt) hi, fun r' hr' => ?_⟩
  exact Nat.le_findGreatest (Nat.le_of_lt hr'.lt) hr'

/-- The last participant that is troubled shares what it goes on to with none before it exactly when it is at a missing dependency, and no
other one goes on to it. -/
theorem alone_iff (hacyclic : ¬Cyclic m) {r : Nat} (hr : LastTroubled m r) :
    (¬∃ r', r' < r ∧ Troubled m r' ∧ ∃ j, ReflTransGen (NextTrouble m) r j ∧ ReflTransGen (NextTrouble m) r' j) ↔
      AtMissing m r ∧ ∀ r', ReflTransGen (NextTrouble m) r' r → r' = r := by
  constructor
  · intro hnone
    refine ⟨?_, fun r' hreach => ?_⟩
    · obtain ⟨name, hfirst⟩ := exists_firstTrouble hr.1
      cases hfind : find m name with
      | none => exact ⟨name, hfirst, hfind⟩
      | some d =>
        have hnext : NextTrouble m r d := ⟨name, hfirst, hfind⟩
        have hne : d ≠ r := by
          rintro rfl
          exact hacyclic ⟨d, TransGen.single hnext.dependsOn⟩
        have hle := hr.2 d hnext.troubled
        exact absurd ⟨d, by omega, hnext.troubled, d, ReflTransGen.single hnext, ReflTransGen.refl⟩ hnone
    · by_contra hne
      have hr' := troubled_of_next hreach hr.1
      have hle := hr.2 r' hr'
      exact hnone ⟨r', by omega, hr', r, ReflTransGen.refl, hreach⟩
  · rintro ⟨hat, honly⟩ ⟨r', hlt, -, j, hreach, hreach'⟩
    obtain rfl := (reach_missing hat).1 hreach
    exact absurd (honly r' hreach') (Nat.ne_of_lt hlt)

/-- What finalizing records is truthful exactly when there is a cycle, or no participant is troubled, or the last one that is troubled has
a missing dependency first and no other participant goes on to it along first dependencies that are troubled. -/
theorem diagnosis_truthful_iff {policy : Policy} {nowMs : BitVec 64} {w : World} (h : powerManagerInit env policy nowMs = some w)
    (registrations : List Participant) :
    let m := registerAll registrations w.manager
    ∃ m', powerManagerFinalize m = some m' ∧
      (Truthful m m' ↔
        Cyclic m ∨ ∀ r, LastTroubled m r → AtMissing m r ∧ ∀ r', ReflTransGen (NextTrouble m) r' r → r' = r) := by
  intro m
  obtain ⟨-, -, hunreported⟩ := powerManagerInit_unreported env h
  obtain ⟨-, -, hunreported'⟩ := registerAll_spec registrations w.manager
  obtain ⟨hmissing, hcycle⟩ := hunreported' hunreported
  obtain ⟨m', hm'⟩ := powerManagerFinalize_isSome m
  have htruthful : m'.status.failure.code = .missingDependency → Missing m := by
    intro hcode
    unfold powerManagerFinalize at hm'
    split at hm'
    · nomatch hm'
    · rename_i v hrounds
      obtain rfl := Option.some.inj hm'
      exact (finalizeRounds_missing (m := m) rfl hrounds hcode).resolve_left hmissing
  refine ⟨m', hm', ?_⟩
  by_cases hacyclic : Cyclic m
  · exact iff_of_true ⟨fun _ => hacyclic, htruthful⟩ (Or.inl hacyclic)
  · constructor
    · rintro ⟨hcode, -⟩
      refine Or.inr fun r hr => (alone_iff hacyclic hr).1 fun hshared => ?_
      exact hacyclic (hcode ((finalize_reports hacyclic hm' hr.1 hr.2).1 hshared))
    · rintro (hcyclic | halone)
      · exact absurd hcyclic hacyclic
      · refine ⟨fun hcode => ?_, htruthful⟩
        exfalso
        by_cases htroubled : ∃ i, Troubled m i
        · obtain ⟨r, hr, hlast⟩ := exists_lastTroubled htroubled
          have hreported := (finalize_reports hacyclic hm' hr hlast).2 ((alone_iff hacyclic ⟨hr, hlast⟩).2 (halone r ⟨hr, hlast⟩))
          exact absurd (hreported.symm.trans hcode) (by decide)
        · have hstatus := (finalize_available hacyclic hm').2 fun i hi => htroubled ⟨i, hi⟩
          rw [hstatus] at hcode
          exact hcycle hcode

/-- A platform that does all it is asked. -/
def Environment.compliant : Environment := ⟨fun _ => true, fun _ => .success, fun _ => (false, []), fun _ => 0, fun _ => []⟩

/-- One participant that depends on the other, which is registered later. -/
theorem dependencies_finalized_pair :
    ∃ w, powerManagerInit .compliant ⟨100, 0, 0, 1000, 75, 20, false⟩ 10 = some w ∧
      let registrations : List Participant := [⟨[0x61], [[0x62]], false, false, false⟩, ⟨[0x62], [], false, false, false⟩]
      let m := registerAll registrations w.manager
      ∃ m', powerManagerFinalize m = some m' ∧
        (m'.status.suspendAvailable = true ↔ AllRegister registrations w.manager ∧ ¬Missing m ∧ ¬Cyclic m) ∧
        (m'.status.suspendAvailable = true →
          m'.dependencyOrder.Perm (List.range m.participants.length) ∧ TopologicalOrder (DependsOn m) m'.dependencyOrder) := by
  have hinit : powerManagerInit .compliant ⟨100, 0, 0, 1000, 75, 20, false⟩ 10 = some _ := rfl
  exact ⟨_, hinit, (dependencies_finalized .compliant hinit _).2⟩

theorem diagnosis_truthful_iff_pair :
    ∃ w, powerManagerInit .compliant ⟨100, 0, 0, 1000, 75, 20, false⟩ 10 = some w ∧
      let m := registerAll [⟨[0x61], [[0x78]], false, false, false⟩, ⟨[0x62], [], false, false, false⟩] w.manager
      ∃ m', powerManagerFinalize m = some m' ∧
        (Truthful m m' ↔
          Cyclic m ∨ ∀ r, LastTroubled m r → AtMissing m r ∧ ∀ r', ReflTransGen (NextTrouble m) r' r → r' = r) := by
  have hinit : powerManagerInit .compliant ⟨100, 0, 0, 1000, 75, 20, false⟩ 10 = some _ := rfl
  exact ⟨_, hinit, diagnosis_truthful_iff .compliant hinit _⟩

theorem acyclic_of_decreasing (h : ∀ i d, DependsOn m i d → d < i) : ¬Cyclic m := by
  rintro ⟨i, hcycle⟩
  have hless : ∀ j, TransGen (DependsOn m) i j → j < i := by
    intro j hj
    induction hj with
    | single hd => exact h _ _ hd
    | tail _ hd ih => exact Nat.lt_trans (h _ _ hd) ih
  exact Nat.lt_irrefl i (hless i hcycle)

/-- A participant whose dependency is missing, and one that depends on it: a cycle is recorded and there is none. -/
theorem diagnosis_untruthful_pair :
    ∃ w, powerManagerInit .compliant ⟨100, 0, 0, 1000, 75, 20, false⟩ 10 = some w ∧
      let m := registerAll [⟨[0x61], [[0x78]], false, false, false⟩, ⟨[0x62], [[0x61]], false, false, false⟩] w.manager
      ∃ m', powerManagerFinalize m = some m' ∧ m'.status.failure.code = .dependencyCycle ∧ ¬Cyclic m := by
  refine ⟨_, rfl, _, rfl, rfl, acyclic_of_decreasing ?_⟩
  rintro i d ⟨name, hname, hfind⟩
  match i with
  | 0 =>
    obtain rfl := List.mem_singleton.1 hname
    exact absurd hfind.symm (Option.some_ne_none d)
  | 1 =>
    obtain rfl := List.mem_singleton.1 hname
    obtain rfl : 0 = d := Option.some.inj hfind
    exact Nat.zero_lt_one
  | i + 2 => exact absurd hname List.not_mem_nil

end Power
end TabOS
