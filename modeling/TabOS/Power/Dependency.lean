import TabOS.Power.Manager
import TabOS.Library.Order
import Mathlib.Data.List.Perm.Basic

/-!
# The dependency order

`visit` ends, and what a `power_manager_finalize` that accepts the participants leaves is a topological order of all of them.
-/

namespace TabOS
namespace Power

open Library

/-- The names that a participant depends on. -/
def Manager.dependenciesOf (m : Manager) (index : Nat) : List Name :=
  (m.participants[index]?.map Participant.dependencies).getD []

/-- A participant names another one as a dependency. -/
def DependsOn (m : Manager) (index dependency : Nat) : Prop := ∃ name ∈ m.dependenciesOf index, find m name = some dependency

/-- The dependency order holds every participant once, each after all that it depends on. -/
structure Ordered (m : Manager) : Prop where
  topological : TopologicalOrder (DependsOn m) m.dependencyOrder
  perm : m.dependencyOrder.Perm (List.range m.participants.length)

theorem Ordered.length {m : Manager} (h : Ordered m) : m.dependencyOrder.length = m.participants.length := by
  rw [h.perm.length_eq, List.length_range]

theorem Ordered.mem_iff {m : Manager} (h : Ordered m) {i : Nat} : i ∈ m.dependencyOrder ↔ i < m.participants.length := by
  rw [h.perm.mem_iff, List.mem_range]

theorem find_lt {m : Manager} {name : Name} {i : Nat} (h : find m name = some i) : i < m.participants.length :=
  (List.findIdx?_eq_some_iff_getElem.1 h).1

/-! ## What a visit leaves -/

/-- A visit changes the failure and the dependency order of the manager and no more. -/
def Leaves (m m' : Manager) : Prop :=
  m' = { m with
    status := { m.status with failure := m'.status.failure }
    dependencyOrder := m'.dependencyOrder }

theorem Leaves.refl (m : Manager) : Leaves m m := rfl

theorem Leaves.trans {m m' m'' : Manager} (h : Leaves m m') (h' : Leaves m' m'') : Leaves m m'' := by
  unfold Leaves at h h' ⊢
  rw [h', h]

theorem Leaves.participants {m m' : Manager} (h : Leaves m m') : m'.participants = m.participants := by
  unfold Leaves at h
  rw [h]

theorem Leaves.suspendAvailable {m m' : Manager} (h : Leaves m m') : m'.status.suspendAvailable = m.status.suspendAvailable := by
  unfold Leaves at h
  rw [h]

theorem leaves_visitDependencies {visit : Nat → Visit → Option (Bool × Visit)}
    (hvisit : ∀ i v b v', visit i v = some (b, v') → Leaves v.manager v'.manager) (names : List Name) {v v' : Visit} {b : Bool}
    (h : visitDependencies visit names v = some (b, v')) : Leaves v.manager v'.manager := by
  induction names generalizing v with
  | nil =>
    obtain ⟨-, rfl⟩ := Prod.mk.inj (Option.some.inj h)
    exact Leaves.refl _
  | cons name names ih =>
    unfold visitDependencies at h
    cases hfind : find v.manager name with
    | none =>
      rw [hfind] at h
      obtain ⟨-, rfl⟩ := Prod.mk.inj (Option.some.inj h)
      rfl
    | some dependency =>
      rw [hfind] at h
      dsimp only at h
      split at h
      · nomatch h
      · rename_i hcall
        obtain ⟨-, rfl⟩ := Prod.mk.inj (Option.some.inj h)
        exact hvisit _ _ _ _ hcall
      · rename_i hcall
        exact (hvisit _ _ _ _ hcall).trans (ih h)

theorem leaves_visit (fuel : Nat) : ∀ i v b v', visit fuel i v = some (b, v') → Leaves v.manager v'.manager := by
  induction fuel with
  | zero =>
    intro i v b v' h
    nomatch h
  | succ fuel ih =>
    intro i v b v' h
    unfold visit at h
    split at h
    · obtain ⟨-, rfl⟩ := Prod.mk.inj (Option.some.inj h)
      exact Leaves.refl _
    · obtain ⟨-, rfl⟩ := Prod.mk.inj (Option.some.inj h)
      rfl
    · split at h
      · nomatch h
      · rename_i hcall
        obtain ⟨-, rfl⟩ := Prod.mk.inj (Option.some.inj h)
        exact leaves_visitDependencies ih _ (v := v.mark i .active) hcall
      · rename_i hcall
        obtain ⟨-, rfl⟩ := Prod.mk.inj (Option.some.inj h)
        exact (leaves_visitDependencies ih _ (v := v.mark i .active) hcall).trans rfl

/-! ## Visits end -/

/-- The number of participants that are not visited. -/
def Visit.unvisited (n : Nat) (v : Visit) : Nat := (List.range n).countP fun i => decide (v.marks i = .unvisited)

theorem unvisited_mark_le (n index : Nat) {mark : Mark} (hmark : mark ≠ .unvisited) (v : Visit) :
    (v.mark index mark).unvisited n ≤ v.unvisited n := by
  refine List.countP_mono_left fun i _ hi => ?_
  rw [decide_eq_true_iff] at hi ⊢
  by_cases heq : i = index
  · subst heq
    exact absurd (hi.symm.trans (Function.update_self ..)).symm hmark
  · exact (Function.update_of_ne heq ..).symm.trans hi

theorem unvisited_mark_lt {n index : Nat} (hindex : index < n) {mark : Mark} (hmark : mark ≠ .unvisited) {v : Visit}
    (hunvisited : v.marks index = .unvisited) : (v.mark index mark).unvisited n < v.unvisited n := by
  obtain ⟨before, after, hrange⟩ := List.append_of_mem (List.mem_range.2 hindex)
  have hle : ∀ l : List Nat, l.countP (fun i => decide ((v.mark index mark).marks i = .unvisited)) ≤
      l.countP (fun i => decide (v.marks i = .unvisited)) := by
    intro l
    refine List.countP_mono_left fun i _ hi => ?_
    rw [decide_eq_true_iff] at hi ⊢
    by_cases heq : i = index
    · rw [heq]
      exact hunvisited
    · exact (Function.update_of_ne heq ..).symm.trans hi
  have hself : (v.mark index mark).marks index = mark := Function.update_self ..
  unfold Visit.unvisited
  rw [hrange, List.countP_append, List.countP_append, List.countP_cons, List.countP_cons, hunvisited, hself]
  have hbefore := hle before
  have hafter := hle after
  simp only [decide_true, if_true, decide_eq_true_eq, if_neg hmark]
  omega

theorem visitDependencies_isSome {n bound : Nat} {visit : Nat → Visit → Option (Bool × Visit)}
    (hvisit : ∀ i v, i < n → v.manager.participants.length = n → v.unvisited n ≤ bound →
      ∃ b v', visit i v = some (b, v') ∧ v'.manager.participants.length = n ∧ v'.unvisited n ≤ v.unvisited n)
    (names : List Name) {v : Visit} (hlength : v.manager.participants.length = n) (hbound : v.unvisited n ≤ bound) :
    ∃ b v', visitDependencies visit names v = some (b, v') ∧ v'.manager.participants.length = n ∧
      v'.unvisited n ≤ v.unvisited n := by
  induction names generalizing v with
  | nil => exact ⟨true, v, rfl, hlength, Nat.le_refl _⟩
  | cons name names ih =>
    unfold visitDependencies
    cases hfind : find v.manager name with
    | none => exact ⟨false, _, rfl, hlength, Nat.le_refl _⟩
    | some dependency =>
      obtain ⟨b, v', hcall, hlength', hle⟩ := hvisit dependency v (hlength ▸ find_lt hfind) hlength hbound
      dsimp only
      rw [hcall]
      cases b with
      | false => exact ⟨false, v', rfl, hlength', hle⟩
      | true =>
        obtain ⟨b, v'', hrest, hlength'', hle'⟩ := ih hlength' (Nat.le_trans hle hbound)
        exact ⟨b, v'', hrest, hlength'', Nat.le_trans hle' hle⟩

/-- A visit ends within as many levels as there are participants that are not visited. -/
theorem visit_isSome {n : Nat} (fuel : Nat) : ∀ i v, i < n → v.manager.participants.length = n → v.unvisited n ≤ fuel →
    ∃ b v', visit (fuel + 1) i v = some (b, v') ∧ v'.manager.participants.length = n ∧ v'.unvisited n ≤ v.unvisited n := by
  induction fuel with
  | zero =>
    intro i v hi hlength hbound
    unfold visit
    cases hmark : v.marks i with
    | done => exact ⟨true, v, rfl, hlength, Nat.le_refl _⟩
    | active => exact ⟨false, _, rfl, hlength, Nat.le_refl _⟩
    | unvisited =>
      have hlt := unvisited_mark_lt hi (show Mark.active ≠ .unvisited by decide) hmark
      omega
  | succ fuel ih =>
    intro i v hi hlength hbound
    unfold visit
    cases hmark : v.marks i with
    | done => exact ⟨true, v, rfl, hlength, Nat.le_refl _⟩
    | active => exact ⟨false, _, rfl, hlength, Nat.le_refl _⟩
    | unvisited =>
      have hlt := unvisited_mark_lt hi (show Mark.active ≠ .unvisited by decide) hmark
      obtain ⟨b, v', hcall, hlength', hle⟩ := visitDependencies_isSome (v := v.mark i .active) ih
        ((v.manager.participants[i]?.map Participant.dependencies).getD []) hlength (by omega)
      dsimp only
      rw [hcall]
      cases b with
      | false => exact ⟨false, v', rfl, hlength', by omega⟩
      | true => exact ⟨true, _, rfl, hlength', Nat.le_trans (unvisited_mark_le n i (by decide) v') (by omega)⟩

/-- `power_manager_finalize` ends. -/
theorem powerManagerFinalize_isSome (m : Manager) : ∃ m', powerManagerFinalize m = some m' := by
  have hrounds : ∀ (l : List Nat) (v : Visit), (∀ i ∈ l, i < v.manager.participants.length) →
      ∃ v', l.foldlM finalizeRound v = some v' := by
    intro l
    induction l with
    | nil => exact fun v _ => ⟨v, rfl⟩
    | cons i l ih =>
      intro v hl
      obtain ⟨hi, hl⟩ := List.forall_mem_cons.1 hl
      have hunvisited : v.unvisited v.manager.participants.length ≤ v.manager.participants.length := by
        refine Nat.le_trans (List.countP_le_length) (Nat.le_of_eq ?_)
        rw [List.length_range]
      obtain ⟨b, v', hvisit, hlength, -⟩ := visit_isSome _ i v hi rfl hunvisited
      rw [List.foldlM_cons]
      unfold finalizeRound
      rw [hvisit]
      cases b with
      | false => exact ih _ fun j hj => hlength ▸ hl j hj
      | true => exact ih v' fun j hj => hlength ▸ hl j hj
  obtain ⟨v, hv⟩ := hrounds (List.range m.participants.length) ⟨m, fun _ => .unvisited⟩ fun i hi => List.mem_range.1 hi
  unfold powerManagerFinalize
  rw [hv]
  exact ⟨_, rfl⟩

/-! ## Visits that succeed -/

/-- The participants that are marked done are in the order, which is topological. -/
structure Visited (m : Manager) (v : Visit) : Prop where
  participants : v.manager.participants = m.participants
  topological : TopologicalOrder (DependsOn m) v.manager.dependencyOrder
  done_iff : ∀ i, v.marks i = .done ↔ i ∈ v.manager.dependencyOrder
  lt : ∀ i ∈ v.manager.dependencyOrder, i < m.participants.length

/-- What a visit that succeeds keeps: the order grows and the marks of the participants on the way stay. -/
structure Visited.Grows (v v' : Visit) : Prop where
  subset : v.manager.dependencyOrder ⊆ v'.manager.dependencyOrder
  active_iff : ∀ i, v'.marks i = .active ↔ v.marks i = .active

theorem Visited.Grows.refl (v : Visit) : Visited.Grows v v := ⟨fun _ h => h, fun _ => Iff.rfl⟩

theorem Visited.Grows.trans {v v' v'' : Visit} (h : Visited.Grows v v') (h' : Visited.Grows v' v'') : Visited.Grows v v'' :=
  ⟨fun _ hi => h'.subset (h.subset hi), fun i => (h'.active_iff i).trans (h.active_iff i)⟩

theorem find_congr {m m' : Manager} (h : m'.participants = m.participants) (name : Name) : find m' name = find m name := by
  unfold find
  rw [h]

theorem visited_visitDependencies {m : Manager} {visit : Nat → Visit → Option (Bool × Visit)}
    (hvisit : ∀ i v v', i < m.participants.length → Visited m v → visit i v = some (true, v') →
      Visited m v' ∧ Visited.Grows v v' ∧ i ∈ v'.manager.dependencyOrder)
    (names : List Name) {v v' : Visit} (hv : Visited m v) (h : visitDependencies visit names v = some (true, v')) :
    Visited m v' ∧ Visited.Grows v v' ∧
      ∀ name ∈ names, ∀ dependency, find m name = some dependency → dependency ∈ v'.manager.dependencyOrder := by
  induction names generalizing v with
  | nil =>
    obtain ⟨-, rfl⟩ := Prod.mk.inj (Option.some.inj h)
    exact ⟨hv, Visited.Grows.refl _, fun _ hname => nomatch hname⟩
  | cons name names ih =>
    unfold visitDependencies at h
    cases hfind : find v.manager name with
    | none =>
      rw [hfind] at h
      nomatch h
    | some dependency =>
      rw [hfind] at h
      dsimp only at h
      split at h
      · nomatch h
      · nomatch h
      · rename_i v1 hcall
        rw [find_congr hv.participants] at hfind
        obtain ⟨hv1, hgrows, hmem⟩ := hvisit dependency v v1 (find_lt hfind) hv hcall
        obtain ⟨hv', hgrows', hall⟩ := ih hv1 h
        refine ⟨hv', hgrows.trans hgrows', ?_⟩
        intro other hother found hfound
        rcases List.mem_cons.1 hother with rfl | hother
        · obtain rfl := Option.some.inj (hfind.symm.trans hfound)
          exact hgrows'.subset hmem
        · exact hall other hother found hfound

theorem visited_visit {m : Manager} (fuel : Nat) : ∀ i v v', i < m.participants.length → Visited m v →
    visit fuel i v = some (true, v') → Visited m v' ∧ Visited.Grows v v' ∧ i ∈ v'.manager.dependencyOrder := by
  induction fuel with
  | zero =>
    intro i v v' _ _ h
    nomatch h
  | succ fuel ih =>
    intro i v v' hi hv h
    unfold visit at h
    split at h
    · rename_i hdone
      obtain ⟨-, rfl⟩ := Prod.mk.inj (Option.some.inj h)
      exact ⟨hv, Visited.Grows.refl _, (hv.done_iff i).1 hdone⟩
    · nomatch h
    · rename_i hunvisited
      have hnotmem : i ∉ v.manager.dependencyOrder := by
        intro hmem
        exact absurd (hunvisited.symm.trans ((hv.done_iff i).2 hmem)) (by decide)
      have hactive : Visited m (v.mark i .active) := by
        refine ⟨hv.participants, hv.topological, fun j => ?_, hv.lt⟩
        by_cases hj : j = i
        · subst hj
          exact iff_of_false (by unfold Visit.mark; dsimp only; rw [Function.update_self]; decide) hnotmem
        · refine Iff.trans ?_ (hv.done_iff j)
          unfold Visit.mark
          dsimp only
          rw [Function.update_of_ne hj]
      split at h
      · nomatch h
      · nomatch h
      · rename_i v1 hcall
        obtain ⟨-, rfl⟩ := Prod.mk.inj (Option.some.inj h)
        obtain ⟨hv1, hgrows, hall⟩ := visited_visitDependencies ih _ hactive hcall
        have hmark : v1.marks i = .active := (hgrows.active_iff i).2 (Function.update_self ..)
        have hnotmem1 : i ∉ v1.manager.dependencyOrder := by
          intro hmem
          exact absurd (hmark.symm.trans ((hv1.done_iff i).2 hmem)) (by decide)
        refine ⟨⟨hv1.participants, ?_, ?_, ?_⟩, ⟨?_, ?_⟩, ?_⟩
        · refine hv1.topological.snoc hnotmem1 ?_
          rintro dependency ⟨name, hname, hfind⟩
          refine hall name ?_ dependency hfind
          rwa [hv.participants]
        · intro j
          show Function.update v1.marks i .done j = .done ↔ j ∈ v1.manager.dependencyOrder ++ [i]
          rw [List.mem_append, List.mem_singleton]
          by_cases hj : j = i
          · subst hj
            rw [Function.update_self]
            exact iff_of_true rfl (Or.inr rfl)
          · rw [Function.update_of_ne hj, hv1.done_iff j, or_iff_left hj]
        · intro j hj
          rcases List.mem_append.1 hj with hj | hj
          · exact hv1.lt j hj
          · exact List.mem_singleton.1 hj ▸ hi
        · exact fun j hj => List.mem_append_left _ (hgrows.subset hj)
        · intro j
          show Function.update v1.marks i .done j = .active ↔ v.marks j = .active
          by_cases hj : j = i
          · subst hj
            rw [Function.update_self, hunvisited]
            exact iff_of_false (by decide) (by decide)
          · rw [Function.update_of_ne hj, hgrows.active_iff j]
            unfold Visit.mark
            dsimp only
            rw [Function.update_of_ne hj]
        · exact List.mem_append_right _ (List.mem_singleton_self i)

/-- A round changes the failure, the order and whether suspend is available, and no more. -/
theorem finalizeRound_spec {v v' : Visit} {i : Nat} (h : finalizeRound v i = some v') :
    (visit (v.manager.participants.length + 1) i v = some (true, v') ∧ Leaves v.manager v'.manager) ∨
      v'.manager.status.suspendAvailable = false ∧ ∃ m, Leaves v.manager m ∧
        v'.manager = { m with status := { m.status with suspendAvailable := false } } := by
  unfold finalizeRound at h
  split at h
  · nomatch h
  · rename_i hvisit
    obtain rfl := Option.some.inj h
    exact Or.inl ⟨hvisit, leaves_visit _ _ _ _ _ hvisit⟩
  · rename_i hvisit
    obtain rfl := Option.some.inj h
    exact Or.inr ⟨rfl, _, leaves_visit _ _ _ _ _ hvisit, rfl⟩

/-- After rounds that leave suspend available, the visited participants are in the order. -/
theorem visited_finalizeRounds {m : Manager} (indices : List Nat) (hindices : ∀ i ∈ indices, i < m.participants.length)
    {v v' : Visit} (hv : v.manager.status.suspendAvailable = true → Visited m v)
    (h : indices.foldlM finalizeRound v = some v') (havailable : v'.manager.status.suspendAvailable = true) :
    v.manager.status.suspendAvailable = true ∧ Visited m v' ∧ v.manager.dependencyOrder ⊆ v'.manager.dependencyOrder ∧
      ∀ i ∈ indices, i ∈ v'.manager.dependencyOrder := by
  induction indices generalizing v with
  | nil =>
    obtain rfl := Option.some.inj h
    exact ⟨havailable, hv havailable, fun _ hi => hi, fun _ hi => nomatch hi⟩
  | cons i indices ih =>
    obtain ⟨hi, hindices⟩ := List.forall_mem_cons.1 hindices
    rw [List.foldlM_cons] at h
    obtain ⟨v1, hround, hrest⟩ := Option.bind_eq_some_iff.1 h
    rcases finalizeRound_spec hround with ⟨hvisit, hleaves⟩ | ⟨hfailed, -⟩
    · have hvisited : v1.manager.status.suspendAvailable = true → Visited m v1 ∧ Visited.Grows v v1 ∧
          i ∈ v1.manager.dependencyOrder := fun h1 => visited_visit _ _ _ _ hi (hv (hleaves.suspendAvailable ▸ h1)) hvisit
      obtain ⟨havailable1, hv', hsubset, hall⟩ := ih hindices (fun h1 => (hvisited h1).1) hrest
      obtain ⟨-, hgrows, hmem⟩ := hvisited havailable1
      refine ⟨hleaves.suspendAvailable ▸ havailable1, hv', fun _ hj => hsubset (hgrows.subset hj), ?_⟩
      exact List.forall_mem_cons.2 ⟨hsubset hmem, hall⟩
    · obtain ⟨havailable1, -⟩ := ih hindices (fun h1 => absurd (h1.symm.trans hfailed) (by decide)) hrest
      exact absurd (havailable1.symm.trans hfailed) (by decide)

/-- What rounds change: the failure, the order and whether suspend is available. -/
theorem finalizeRounds_eq (indices : List Nat) {v v' : Visit} (h : indices.foldlM finalizeRound v = some v') :
    v'.manager = { v.manager with
      status := { v.manager.status with
        failure := v'.manager.status.failure
        suspendAvailable := v'.manager.status.suspendAvailable }
      dependencyOrder := v'.manager.dependencyOrder } := by
  induction indices generalizing v with
  | nil =>
    obtain rfl := Option.some.inj h
    rfl
  | cons i indices ih =>
    rw [List.foldlM_cons] at h
    obtain ⟨v1, hround, hrest⟩ := Option.bind_eq_some_iff.1 h
    rw [ih hrest]
    rcases finalizeRound_spec hround with ⟨-, hleaves⟩ | ⟨-, m, hleaves, heq⟩
    · unfold Leaves at hleaves
      rw [hleaves]
    · unfold Leaves at hleaves
      rw [heq, hleaves]

/-- What `power_manager_finalize` changes. -/
theorem powerManagerFinalize_eq {m m' : Manager} (h : powerManagerFinalize m = some m') :
    m' = { m with
      status := { m.status with failure := m'.status.failure, suspendAvailable := m'.status.suspendAvailable }
      dependencyOrder := m'.dependencyOrder
      finalized := true } := by
  unfold powerManagerFinalize at h
  split at h
  · nomatch h
  · rename_i hrounds
    obtain rfl := Option.some.inj h
    rw [finalizeRounds_eq _ hrounds]

theorem dependsOn_congr {m m' : Manager} (h : m'.participants = m.participants) : DependsOn m' = DependsOn m := by
  unfold DependsOn Manager.dependenciesOf
  simp only [h, find_congr h]

/-- A `power_manager_finalize` that accepts the participants orders them. -/
theorem ordered_of_finalize {m m' : Manager} (hempty : m.dependencyOrder = []) (h : powerManagerFinalize m = some m')
    (havailable : m'.status.suspendAvailable = true) : Ordered m' := by
  unfold powerManagerFinalize at h
  split at h
  · nomatch h
  · rename_i v hrounds
    obtain rfl := Option.some.inj h
    have hstart : Visited m ⟨m, fun _ => .unvisited⟩ := by
      refine ⟨rfl, hempty ▸ TopologicalOrder.nil, fun i => ?_, fun i hi => ?_⟩
      · rw [hempty]
        exact iff_of_false (fun hmark => nomatch (show Mark.unvisited = Mark.done from hmark)) List.not_mem_nil
      · rw [hempty] at hi
        nomatch hi
    obtain ⟨-, hv, -, hall⟩ := visited_finalizeRounds _ (fun i hi => List.mem_range.1 hi) (fun _ => hstart) hrounds havailable
    refine ⟨?_, ?_⟩
    · have hneeds : DependsOn { v.manager with finalized := true } = DependsOn m := dependsOn_congr hv.participants
      show TopologicalOrder (DependsOn { v.manager with finalized := true }) v.manager.dependencyOrder
      rw [hneeds]
      exact hv.topological
    · show v.manager.dependencyOrder.Perm (List.range v.manager.participants.length)
      rw [hv.participants]
      refine (List.perm_ext_iff_of_nodup hv.topological.nodup List.nodup_range).2 fun i => ?_
      exact ⟨fun hi => List.mem_range.2 (hv.lt i hi), hall i⟩

end Power
end TabOS
