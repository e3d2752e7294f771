import TabOS.Process.Manager
import Mathlib.Data.List.Nodup

/-!
# The process stack

The records that are in use, from the foreground process down to the root, are an order. A call changes the record of the foreground
process, puts a record on top of the order, or takes the top off it. The record that is destroyed, or panics at the end of its entry, has
to be the top: the manager pops its stack without looking at whose turn it is, so a process that leaves a child behind in its entry or its
cleanup takes the child's entry off the stack instead of its own.
-/

namespace TabOS
namespace Process

open Library

variable {presents : Nat → Bool} {s s' s'' : System} {m : Machine} {p q : Slot} {order rest : List Slot} {status : Int}

/-! ## The order of the processes -/

/-- The parent of a process that stands on an order. -/
def parentOn (s : System) : List Slot → Nat
  | [] => tabosProcessIdInvalid
  | q :: _ => (s.processes q).id

/-- The records of an order are the occupied ones, and stand on one another. -/
structure Stacked (s : System) (order : List Slot) : Prop where
  occupied : ∀ p, (s.processes p).occupied = true ↔ p ∈ order
  stack : s.foregroundStack = order.map fun p => (s.processes p).id
  descending : s.foregroundStack.Pairwise (· > ·)
  fresh : ∀ id ∈ s.foregroundStack, id < s.nextProcessId
  foreground : s.foregroundProcess = order.head?
  parents : ∀ above p below, order = above ++ p :: below → (s.processes p).parentId = parentOn s below
  blocked : ∀ p ∈ order.tail, (s.processes p).state = .blocked
  owned : ∀ p, (s.processes p).consoleOwned = true → order.head? = some p
  session : ∀ p, (s.processes p).token ≠ 0 → (s.processes p).consoleOwned = true
  empty : ∀ p, (s.processes p).occupied = false → s.processes p = {}

namespace Stacked

theorem ids_pairwise (h : Stacked s order) : order.Pairwise fun p q => (s.processes p).id > (s.processes q).id := by
  have hdescending := h.descending
  rw [h.stack] at hdescending
  exact List.pairwise_map.1 hdescending

theorem nodup (h : Stacked s order) : order.Nodup := h.ids_pairwise.imp fun hgt heq => by subst heq; omega

/-- Two records of one id are one. -/
theorem id_inj (h : Stacked s order) (hp : p ∈ order) (hq : q ∈ order) (hid : (s.processes p).id = (s.processes q).id) : p = q := by
  have hnodup : (order.map fun p => (s.processes p).id).Nodup := by
    rw [← h.stack]
    exact h.descending.imp fun hgt heq => by omega
  exact List.inj_on_of_nodup_map hnodup hp hq hid

theorem findProcess_eq (h : Stacked s order) (hp : p ∈ order) : findProcess s (s.processes p).id = some p := by
  have hoccupied := (h.occupied p).2 hp
  obtain ⟨q, hq⟩ : ∃ q, findProcess s (s.processes p).id = some q := by
    rw [← Option.isSome_iff_exists, findProcess, List.find?_isSome]
    exact ⟨p, List.mem_finRange p, by simp [hoccupied]⟩
  have hfound := List.find?_some hq
  rw [Bool.and_eq_true, beq_iff_eq] at hfound
  rw [hq, h.id_inj ((h.occupied q).1 hfound.1) hp hfound.2]

theorem free_not_mem (h : Stacked s order) (hfree : freeProcessSlot s = some p) : p ∉ order := by
  intro hmem
  have hfound := List.find?_some hfree
  rw [(h.occupied p).2 hmem] at hfound
  cases hfound

end Stacked

/-- Only the record `p` is changed, and it stays the same process. -/
structure Touches (p : Slot) (s s' : System) : Prop where
  stack : s'.foregroundStack = s.foregroundStack
  next : s'.nextProcessId = s.nextProcessId
  foreground : s'.foregroundProcess = s.foregroundProcess
  others : ∀ q, q ≠ p → s'.processes q = s.processes q
  occupied : (s'.processes p).occupied = (s.processes p).occupied
  id : (s'.processes p).id = (s.processes p).id
  parentId : (s'.processes p).parentId = (s.processes p).parentId
  descriptor : (s'.processes p).descriptor = (s.processes p).descriptor
  session : ((s.processes p).token ≠ 0 → (s.processes p).consoleOwned = true) →
    (s'.processes p).token ≠ 0 → (s'.processes p).consoleOwned = true

namespace Touches

theorem refl (p : Slot) (s : System) : Touches p s s := ⟨rfl, rfl, rfl, fun _ _ => rfl, rfl, rfl, rfl, rfl, fun h => h⟩

theorem trans (h : Touches p s s') (h' : Touches p s' s'') : Touches p s s'' where
  stack := h'.stack.trans h.stack
  next := h'.next.trans h.next
  foreground := h'.foreground.trans h.foreground
  others := fun q hq => (h'.others q hq).trans (h.others q hq)
  occupied := h'.occupied.trans h.occupied
  id := h'.id.trans h.id
  parentId := h'.parentId.trans h.parentId
  descriptor := h'.descriptor.trans h.descriptor
  session := fun hsession => h'.session (h.session hsession)

/-- Every record keeps whether it is occupied and its id. -/
theorem same (h : Touches p s s') (q : Slot) :
    (s'.processes q).occupied = (s.processes q).occupied ∧ (s'.processes q).id = (s.processes q).id ∧
      (s'.processes q).parentId = (s.processes q).parentId := by
  rcases eq_or_ne q p with rfl | hq
  · exact ⟨h.occupied, h.id, h.parentId⟩
  · rw [h.others q hq]
    exact ⟨rfl, rfl, rfl⟩

end Touches

@[simp] theorem modify_self (s : System) (p : Slot) (change : Record → Record) :
    (s.modify p change).processes p = change (s.processes p) := Function.update_self _ _ _

theorem modify_of_ne (s : System) (change : Record → Record) (hq : q ≠ p) : (s.modify p change).processes q = s.processes q :=
  Function.update_of_ne hq _ _

@[simp] theorem setConsole_processes (s : System) (console : Console) : (s.setConsole console).processes = s.processes := rfl

/-- A change of a record that leaves the same process. -/
def Keeps (change : Record → Record) : Prop := ∀ r, (change r).occupied = r.occupied ∧ (change r).id = r.id ∧
  (change r).parentId = r.parentId ∧ (change r).descriptor = r.descriptor ∧
  ((r.token ≠ 0 → r.consoleOwned = true) → (change r).token ≠ 0 → (change r).consoleOwned = true)

theorem touches_modify (s : System) (p : Slot) {change : Record → Record} (h : Keeps change) : Touches p s (s.modify p change) := by
  obtain ⟨hoccupied, hid, hparent, hdescriptor, hsession⟩ := h (s.processes p)
  refine ⟨rfl, rfl, rfl, fun _ hq => modify_of_ne s change hq, ?_, ?_, ?_, ?_, ?_⟩ <;> rw [modify_self] <;> assumption

/-- A change that is not about the console. -/
theorem keeps_of_eq {change : Record → Record} (h : ∀ r, (change r).occupied = r.occupied ∧ (change r).id = r.id ∧
    (change r).parentId = r.parentId ∧ (change r).descriptor = r.descriptor ∧ (change r).token = r.token ∧
    (change r).consoleOwned = r.consoleOwned) : Keeps change := by
  intro r
  obtain ⟨hoccupied, hid, hparent, hdescriptor, htoken, howned⟩ := h r
  rw [htoken, howned]
  exact ⟨hoccupied, hid, hparent, hdescriptor, fun h => h⟩

theorem keeps_exitStatus (status : Int) : Keeps fun r => { r with exitStatus := status } :=
  keeps_of_eq fun _ => ⟨rfl, rfl, rfl, rfl, rfl, rfl⟩

theorem keeps_withoutToken : Keeps fun r => { r with token := 0 } := fun _ => ⟨rfl, rfl, rfl, rfl, fun _ h => absurd rfl h⟩

/-- What is not about the processes may change. -/
theorem touches_of_processes (p : Slot) (hprocesses : s'.processes = s.processes) (hstack : s'.foregroundStack = s.foregroundStack)
    (hnext : s'.nextProcessId = s.nextProcessId) (hforeground : s'.foregroundProcess = s.foregroundProcess) : Touches p s s' where
  stack := hstack
  next := hnext
  foreground := hforeground
  others := fun q _ => by rw [hprocesses]
  occupied := by rw [hprocesses]
  id := by rw [hprocesses]
  parentId := by rw [hprocesses]
  descriptor := by rw [hprocesses]
  session := by
    rw [hprocesses]
    exact id

/-! ## The console -/

theorem tabosConsoleAcquire_cases (presents : Nat → Bool) (s : System) (p : Slot) :
    (∃ console, tabosConsoleAcquire presents s p = (false, (s.modify p fun r => { r with token := 0 }).setConsole console)) ∨
      ∃ token console, tabosConsoleAcquire presents s p =
        (true, (s.modify p fun r => { r with token := token }).setConsole console) := by
  unfold tabosConsoleAcquire
  split
  · exact .inl ⟨s.console, rfl⟩
  · dsimp only
    split
    · exact .inr ⟨_, _, rfl⟩
    · exact .inl ⟨_, rfl⟩

theorem touches_acquire (presents : Nat → Bool) (s : System) (p : Slot) : Touches p s (acquireProcessConsole presents s p).2 := by
  unfold acquireProcessConsole
  split
  · exact Touches.refl p s
  · rcases tabosConsoleAcquire_cases presents s p with ⟨console, h⟩ | ⟨token, console, h⟩
    · rw [h]
      exact (touches_modify s p keeps_withoutToken).trans (touches_of_processes p rfl rfl rfl rfl)
    · rw [h]
      refine ⟨rfl, rfl, rfl, fun q hq => ?_, ?_, ?_, ?_, ?_, fun _ _ => ?_⟩
      · rw [modify_of_ne _ _ hq, setConsole_processes, modify_of_ne s _ hq]
      all_goals simp only [modify_self, setConsole_processes]

theorem tabosConsoleRelease_processes (s : System) (p : Slot) :
    (tabosConsoleRelease s p).processes = (s.modify p fun r => { r with token := 0 }).processes := rfl

theorem touches_tabosConsoleRelease (s : System) (p : Slot) : Touches p s (tabosConsoleRelease s p) :=
  (touches_modify s p keeps_withoutToken).trans (touches_of_processes p rfl rfl rfl rfl)

theorem touches_release (s : System) (p : Slot) : Touches p s (releaseProcessConsole s p) := by
  unfold releaseProcessConsole
  split
  · refine ⟨rfl, rfl, rfl, fun q hq => ?_, ?_, ?_, ?_, ?_, fun _ htoken => ?_⟩
    · rw [modify_of_ne _ _ hq]
      exact (touches_tabosConsoleRelease s p).others q hq
    · rw [modify_self]
      exact (touches_tabosConsoleRelease s p).occupied
    · rw [modify_self]
      exact (touches_tabosConsoleRelease s p).id
    · rw [modify_self]
      exact (touches_tabosConsoleRelease s p).parentId
    · rw [modify_self]
      exact (touches_tabosConsoleRelease s p).descriptor
    · refine absurd ?_ htoken
      rw [modify_self, tabosConsoleRelease_processes, modify_self]
  · exact Touches.refl p s

theorem release_consoleOwned (s : System) (p : Slot) : ((releaseProcessConsole s p).processes p).consoleOwned = false := by
  unfold releaseProcessConsole
  split
  · rw [modify_self]
  · rename_i h
    exact Bool.eq_false_iff.2 h

theorem touches_panic (s : System) (p : Slot) : Touches p s (panicRootProcess s p) := by
  have hkeeps : Keeps fun r => { r with state := .panicked, exitRequested := false } :=
    keeps_of_eq fun _ => ⟨rfl, rfl, rfl, rfl, rfl, rfl⟩
  exact (touches_modify s p hkeeps).trans (touches_of_processes p rfl rfl rfl rfl)

/-! ## What the steps do to the order -/

theorem parentOn_touch (t : Touches p s s') (below : List Slot) : parentOn s' below = parentOn s below := by
  cases below with
  | nil => rfl
  | cons q below => exact (t.same q).2.1

/-- The foreground process changes. -/
theorem Stacked.touch (h : Stacked s (p :: rest)) (t : Touches p s s') : Stacked s' (p :: rest) where
  occupied := fun q => by rw [(t.same q).1, h.occupied]
  stack := by
    rw [t.stack, h.stack]
    exact List.map_congr_left fun q _ => (t.same q).2.1.symm
  descending := by
    rw [t.stack]
    exact h.descending
  fresh := by
    rw [t.stack, t.next]
    exact h.fresh
  foreground := t.foreground.trans h.foreground
  parents := by
    intro above q below heq
    rw [(t.same q).2.2, parentOn_touch t, h.parents above q below heq]
  blocked := by
    intro q hq
    have hne : q ≠ p := fun heq => (List.nodup_cons.1 h.nodup).1 (heq ▸ hq)
    rw [t.others q hne]
    exact h.blocked q hq
  owned := by
    intro q hq
    rcases eq_or_ne q p with rfl | hne
    · rfl
    · rw [t.others q hne] at hq
      exact h.owned q hq
  session := by
    intro q hq
    rcases eq_or_ne q p with rfl | hne
    · exact t.session (h.session q) hq
    · rw [t.others q hne] at hq ⊢
      exact h.session q hq
  empty := by
    intro q hq
    have hne : q ≠ p := by
      rintro rfl
      rw [t.occupied, (h.occupied q).2 List.mem_cons_self] at hq
      cases hq
    rw [t.others q hne] at hq ⊢
    exact h.empty q hq

/-- Nothing changes that is about the order. -/
theorem Stacked.of_processes (h : Stacked s order) (hprocesses : s'.processes = s.processes)
    (hstack : s'.foregroundStack = s.foregroundStack) (hfresh : ∀ id ∈ s.foregroundStack, id < s'.nextProcessId)
    (hforeground : s'.foregroundProcess = s.foregroundProcess) : Stacked s' order := by
  have hparentOn (below : List Slot) : parentOn s' below = parentOn s below := by
    cases below with
    | nil => rfl
    | cons q below => exact congrArg (fun processes : Slot → Record => (processes q).id) hprocesses
  obtain ⟨h₁, h₂, h₃, h₄, h₅, h₆, h₇, h₈, h₉, h₁₀⟩ := h
  refine ⟨?_, ?_, ?_, ?_, hforeground.trans h₅, ?_, ?_, ?_, ?_, ?_⟩ <;> simp only [hprocesses, hstack, hparentOn] <;> assumption

/-- A process that is in use gets an exit status. -/
theorem Stacked.exitStatus (h : Stacked s order) (hp : p ∈ order) (status : Int) :
    Stacked (s.modify p fun r => { r with exitStatus := status }) order := by
  have hsame (q : Slot) : ∃ status', (s.modify p fun r => { r with exitStatus := status }).processes q =
      { s.processes q with exitStatus := status' } := by
    rcases eq_or_ne q p with rfl | hq
    · exact ⟨status, modify_self s q _⟩
    · exact ⟨(s.processes q).exitStatus, modify_of_ne s _ hq⟩
  have t := touches_modify s p (keeps_exitStatus status)
  refine ⟨fun q => ?_, ?_, h.descending, h.fresh, h.foreground, ?_, ?_, ?_, ?_, ?_⟩
  · rw [(t.same q).1, h.occupied]
  · exact h.stack.trans (List.map_congr_left fun q _ => (t.same q).2.1.symm)
  · intro above q below heq
    rw [(t.same q).2.2, parentOn_touch t, h.parents above q below heq]
  · intro q hq
    obtain ⟨status', heq⟩ := hsame q
    rw [heq]
    exact h.blocked q hq
  · intro q hq
    obtain ⟨status', heq⟩ := hsame q
    rw [heq] at hq
    exact h.owned q hq
  · intro q hq
    obtain ⟨status', heq⟩ := hsame q
    rw [heq] at hq ⊢
    exact h.session q hq
  · intro q hq
    have hne : q ≠ p := by
      rintro rfl
      rw [t.occupied, (h.occupied q).2 hp] at hq
      cases hq
    rw [t.others q hne] at hq ⊢
    exact h.empty q hq

theorem stacked_initial (terminal : Bool) : Stacked (.initial terminal) [] where
  occupied := fun _ => ⟨fun h => absurd h Bool.false_ne_true, fun h => absurd h List.not_mem_nil⟩
  stack := rfl
  descending := List.Pairwise.nil
  fresh := fun _ h => absurd h List.not_mem_nil
  foreground := rfl
  parents := fun above _ _ h => absurd (congrArg List.length h) (by simp)
  blocked := fun _ h => absurd h List.not_mem_nil
  owned := fun _ h => absurd h Bool.false_ne_true
  session := fun _ h => absurd rfl h
  empty := fun _ _ => rfl

/-- With no process in use a root is put on the order. -/
theorem Stacked.root (h : Stacked s []) (hothers : ∀ q, q ≠ p → s'.processes q = s.processes q)
    (hoccupied : (s'.processes p).occupied = true) (hid : (s'.processes p).id = 0)
    (hparent : (s'.processes p).parentId = tabosProcessIdInvalid)
    (hsession : (s'.processes p).token ≠ 0 → (s'.processes p).consoleOwned = true) (hstack : s'.foregroundStack = [0])
    (hnext : s'.nextProcessId = 1) (hforeground : s'.foregroundProcess = some p) : Stacked s' [p] where
  occupied := by
    intro q
    rcases eq_or_ne q p with rfl | hq
    · simp [hoccupied]
    · rw [hothers q hq, h.occupied q]
      simp [hq]
  stack := by rw [hstack, List.map_singleton, hid]
  descending := by
    rw [hstack]
    exact List.pairwise_singleton _ _
  fresh := by
    intro id hmem
    rw [hstack, List.mem_singleton] at hmem
    omega
  foreground := hforeground
  parents := by
    intro above q below heq
    cases above with
    | nil =>
      obtain ⟨rfl, rfl⟩ := List.cons.inj heq
      exact hparent
    | cons _ above => exact absurd (congrArg List.length heq) (by simp)
  blocked := fun _ hmem => absurd hmem List.not_mem_nil
  owned := by
    intro q hq
    rcases eq_or_ne q p with rfl | hne
    · rfl
    · rw [hothers q hne] at hq
      cases h.owned q hq
  session := by
    intro q hq
    rcases eq_or_ne q p with rfl | hne
    · exact hsession hq
    · rw [hothers q hne] at hq ⊢
      exact h.session q hq
  empty := by
    intro q hq
    have hne : q ≠ p := by
      rintro rfl
      rw [hoccupied] at hq
      cases hq
    rw [hothers q hne] at hq ⊢
    exact h.empty q hq

/-- A child is put on the order, and the process that was the foreground process is blocked. -/
theorem Stacked.push {child : Slot} (h : Stacked s (p :: rest)) (hchild : child ∉ p :: rest)
    (hothers : ∀ q, q ≠ p → q ≠ child → s'.processes q = s.processes q)
    (hp : (s'.processes p).occupied = true ∧ (s'.processes p).id = (s.processes p).id ∧
      (s'.processes p).parentId = (s.processes p).parentId ∧ (s'.processes p).state = .blocked ∧
      (s'.processes p).consoleOwned = false ∧ (s'.processes p).token = 0)
    (hc : (s'.processes child).occupied = true ∧ (s'.processes child).id = s.nextProcessId ∧
      (s'.processes child).parentId = (s.processes p).id ∧ (s'.processes child).consoleOwned = false ∧ (s'.processes child).token = 0)
    (hstack : s'.foregroundStack = s.nextProcessId :: s.foregroundStack) (hnext : s'.nextProcessId = s.nextProcessId + 1)
    (hforeground : s'.foregroundProcess = some child) : Stacked s' (child :: p :: rest) := by
  obtain ⟨hpoccupied, hpid, hpparent, hpstate, hpowned, hptoken⟩ := hp
  obtain ⟨hcoccupied, hcid, hcparent, hcowned, hctoken⟩ := hc
  have hne : p ≠ child := fun heq => hchild (heq ▸ List.mem_cons_self)
  have hids : ∀ q ∈ p :: rest, (s'.processes q).id = (s.processes q).id := by
    intro q hq
    rcases eq_or_ne q p with rfl | hqp
    · exact hpid
    · rw [hothers q hqp fun heq => hchild (heq ▸ hq)]
  refine ⟨?_, ?_, ?_, ?_, hforeground, ?_, ?_, ?_, ?_, ?_⟩
  · intro q
    rcases eq_or_ne q child with rfl | hqc
    · simp [hcoccupied]
    · rcases eq_or_ne q p with rfl | hqp
      · simp [hpoccupied]
      · rw [hothers q hqp hqc, h.occupied q]
        simp [hqc]
  · rw [hstack, List.map_cons, hcid, h.stack]
    exact congrArg _ (List.map_congr_left fun q hq => (hids q hq).symm)
  · rw [hstack]
    exact List.pairwise_cons.2 ⟨h.fresh, h.descending⟩
  · intro id hmem
    rw [hstack] at hmem
    rw [hnext]
    rcases List.mem_cons.1 hmem with rfl | hmem
    · omega
    · have hlt := h.fresh id hmem
      omega
  · intro above q below heq
    cases above with
    | nil =>
      obtain ⟨rfl, rfl⟩ := List.cons.inj heq
      exact hcparent.trans hpid.symm
    | cons c above =>
      obtain ⟨-, heq⟩ := List.cons.inj heq
      have hmem : q ∈ p :: rest := by
        rw [heq]
        exact List.mem_append_right _ List.mem_cons_self
      have hparentOn : parentOn s' below = parentOn s below := by
        cases below with
        | nil => rfl
        | cons q' below =>
          refine hids q' ?_
          rw [heq]
          exact List.mem_append_right _ (List.mem_cons_of_mem _ List.mem_cons_self)
      rw [hparentOn, ← h.parents above q below heq]
      rcases eq_or_ne q p with rfl | hqp
      · exact hpparent
      · rw [hothers q hqp fun heq => hchild (heq ▸ hmem)]
  · intro q hq
    rcases List.mem_cons.1 hq with rfl | hrest
    · exact hpstate
    · have hqp : q ≠ p := fun heq => (List.nodup_cons.1 h.nodup).1 (heq ▸ hrest)
      rw [hothers q hqp fun heq => hchild (heq ▸ hq)]
      exact h.blocked q hrest
  · intro q hq
    rcases eq_or_ne q child with rfl | hqc
    · rfl
    · rcases eq_or_ne q p with rfl | hqp
      · exact absurd hq (by simp [hpowned])
      · rw [hothers q hqp hqc] at hq
        exact absurd (Option.some.inj (h.owned q hq)).symm hqp
  · intro q hq
    rcases eq_or_ne q child with rfl | hqc
    · exact absurd hctoken hq
    · rcases eq_or_ne q p with rfl | hqp
      · exact absurd hptoken hq
      · rw [hothers q hqp hqc] at hq ⊢
        exact h.session q hq
  · intro q hq
    rcases eq_or_ne q child with rfl | hqc
    · exact absurd hq (by simp [hcoccupied])
    · rcases eq_or_ne q p with rfl | hqp
      · exact absurd hq (by simp [hpoccupied])
      · rw [hothers q hqp hqc] at hq ⊢
        exact h.empty q hq

/-- The top is taken off the order. -/
theorem Stacked.pop (h : Stacked s (p :: rest)) (hothers : ∀ q, q ≠ p → s'.processes q = s.processes q) (hp : s'.processes p = {})
    (hstack : s'.foregroundStack = s.foregroundStack.tail) (hnext : s'.nextProcessId = s.nextProcessId)
    (hforeground : s'.foregroundProcess = rest.head?) : Stacked s' rest := by
  have hnodup := (List.nodup_cons.1 h.nodup).1
  have hkeep : ∀ q ∈ rest, s'.processes q = s.processes q := fun q hq => hothers q fun heq => hnodup (heq ▸ hq)
  have htail : s.foregroundStack.tail = rest.map fun p => (s.processes p).id := by rw [h.stack, List.map_cons, List.tail_cons]
  have hcons : s.foregroundStack = (s.processes p).id :: s.foregroundStack.tail := by rw [htail, h.stack, List.map_cons]
  refine ⟨?_, ?_, ?_, ?_, hforeground, ?_, ?_, ?_, ?_, ?_⟩
  · intro q
    rcases eq_or_ne q p with rfl | hq
    · rw [hp]
      exact ⟨fun h => absurd h Bool.false_ne_true, fun h => absurd h hnodup⟩
    · rw [hothers q hq, h.occupied q]
      simp [hq]
  · rw [hstack, htail]
    exact List.map_congr_left fun q hq => by rw [hkeep q hq]
  · rw [hstack]
    exact h.descending.sublist (List.tail_sublist _)
  · intro id hmem
    rw [hstack] at hmem
    rw [hnext]
    exact h.fresh id ((List.tail_sublist _).subset hmem)
  · intro above q below heq
    have hq : q ∈ rest := by
      rw [heq]
      exact List.mem_append_right _ List.mem_cons_self
    rw [hkeep q hq, h.parents (p :: above) q below (by rw [heq, List.cons_append])]
    cases below with
    | nil => rfl
    | cons q' below =>
      refine congrArg Record.id (hkeep q' ?_).symm
      rw [heq]
      exact List.mem_append_right _ (List.mem_cons_of_mem _ List.mem_cons_self)
  · intro q hq
    have hrest : q ∈ rest := (List.tail_sublist _).subset hq
    rw [hkeep q hrest]
    exact h.blocked q hrest
  · intro q hq
    have hqp : q ≠ p := by
      rintro rfl
      rw [hp] at hq
      cases hq
    rw [hothers q hqp] at hq
    exact absurd (Option.some.inj (h.owned q hq)).symm hqp
  · intro q hq
    have hqp : q ≠ p := by
      rintro rfl
      rw [hp] at hq
      exact hq rfl
    rw [hothers q hqp] at hq ⊢
    exact h.session q hq
  · intro q hq
    rcases eq_or_ne q p with rfl | hqp
    · exact hp
    · rw [hothers q hqp] at hq ⊢
      exact h.empty q hq

/-! ## The end of a process -/

theorem touches_resume (presents : Nat → Bool) (s : System) (q : Slot) (status : Int) : Touches q s (resume presents s q status) := by
  have hpointer : Touches q s { s with pointerOwner := (s.processes q).applicationData } := touches_of_processes q rfl rfl rfl rfl
  have hrunning : Keeps fun r => { r with state := .running, childStatus := status, childStatusValid := true } :=
    keeps_of_eq fun _ => ⟨rfl, rfl, rfl, rfl, rfl, rfl⟩
  have hexit : Keeps fun r => { r with exitRequested := true } := keeps_of_eq fun _ => ⟨rfl, rfl, rfl, rfl, rfl, rfl⟩
  have hacquired := (hpointer.trans (touches_modify _ q hrunning)).trans (touches_acquire presents _ q)
  unfold resume
  dsimp only
  split
  · rename_i heq
    rw [heq] at hacquired
    exact hacquired
  · rename_i heq
    rw [heq] at hacquired
    have hfailed := hacquired.trans (touches_modify _ q (keeps_exitStatus (-1)))
    split
    · exact hfailed.trans (touches_panic _ q)
    · exact hfailed.trans (touches_modify _ q hexit)

/-- The process below the one that is gone is the foreground process. -/
theorem resumeParent_spec (presents : Nat → Bool) (status : Int)
    (h : Stacked { s with foregroundStack := s.foregroundStack.tail, foregroundProcess := rest.head? } rest) :
    Stacked (resumeParent presents s status) rest ∧ ∀ q, ((resumeParent presents s status).processes q).occupied =
      (s.processes q).occupied ∧ ((resumeParent presents s status).processes q).id = (s.processes q).id := by
  have hstack := h.stack
  dsimp only at hstack
  cases rest with
  | nil =>
    have heq : resumeParent presents s status =
        { s with foregroundStack := s.foregroundStack.tail, foregroundProcess := none } := by
      unfold resumeParent
      rw [hstack]
      rfl
    rw [heq]
    exact ⟨h, fun _ => ⟨rfl, rfl⟩⟩
  | cons q rest =>
    have hfound : findProcess s (s.processes q).id = some q := h.findProcess_eq List.mem_cons_self
    have heq : resumeParent presents s status =
        resume presents { s with foregroundStack := s.foregroundStack.tail, foregroundProcess := some q } q status := by
      have hbind : s.foregroundStack.tail.head?.bind (findProcess s) = some q := by
        rw [hstack, List.map_cons, List.head?_cons, Option.bind_some, hfound]
      unfold resumeParent
      dsimp only
      rw [hbind]
    have t := touches_resume presents { s with foregroundStack := s.foregroundStack.tail, foregroundProcess := some q } q status
    rw [heq]
    exact ⟨h.touch t, fun q' => ⟨(t.same q').1, (t.same q').2.1⟩⟩

theorem destroyProcess_processes (s : System) (p : Slot) (status : Int) :
    (destroyProcess s p status).processes p = {} ∧ ∀ q, q ≠ p → (destroyProcess s p status).processes q = s.processes q := by
  unfold destroyProcess
  dsimp only
  refine ⟨modify_self _ p _, fun q hq => ?_⟩
  rw [modify_of_ne _ _ hq]
  unfold System.discard
  split
  · exact (touches_tabosConsoleRelease s p).others q hq
  · rfl

theorem destroyProcess_rest (s : System) (p : Slot) (status : Int) :
    (destroyProcess s p status).foregroundStack = s.foregroundStack ∧ (destroyProcess s p status).nextProcessId = s.nextProcessId := by
  unfold destroyProcess
  split <;> exact ⟨rfl, rfl⟩

/-- The foreground process is destroyed, and the process below it goes on. -/
theorem destroyed_spec (presents : Nat → Bool) (status status' : Int) (h : Stacked s (p :: rest)) :
    Stacked (resumeParent presents (destroyProcess s p status) status') rest ∧
      ∀ q, q ≠ p → ((resumeParent presents (destroyProcess s p status) status').processes q).occupied = (s.processes q).occupied ∧
        ((resumeParent presents (destroyProcess s p status) status').processes q).id = (s.processes q).id := by
  obtain ⟨hp, hothers⟩ := destroyProcess_processes s p status
  obtain ⟨hstack, hnext⟩ := destroyProcess_rest s p status
  generalize destroyProcess s p status = t at hp hothers hstack hnext ⊢
  have hpop : Stacked { t with foregroundStack := t.foregroundStack.tail, foregroundProcess := rest.head? } rest :=
    h.pop hothers hp (congrArg List.tail hstack) hnext rfl
  obtain ⟨hresumed, hkeep⟩ := resumeParent_spec presents status' hpop
  refine ⟨hresumed, fun q hq => ?_⟩
  rw [(hkeep q).1, (hkeep q).2, hothers q hq]
  exact ⟨rfl, rfl⟩

/-! ## The callbacks that run -/

/-- The root process that `launch_root_descriptor` is not done with. -/
def Frame.root : Frame → Option Slot
  | .rootEntry p | .rootCleanup p _ => some p
  | _ => none

/-- The process that may be destroyed when the callback returns, or when the cleanup callback does that is called then. -/
def Frame.slot : Frame → Option Slot
  | .rootEntry p | .rootCleanup p _ | .childEntry p | .childCleanup p _ _ => some p
  | .update _ => none

/-- A root process whose launch is not done is there, and no callback of a later frame ends with its destruction. -/
structure Framed (s : System) (frames : List Frame) : Prop where
  roots : ∀ frame ∈ frames, ∀ p, frame.root = some p → (s.processes p).occupied = true ∧ (s.processes p).id = 0
  apart : frames.Pairwise fun above below => ∀ p, below.root = some p → above.slot ≠ some p

theorem Framed.change {frames : List Frame} (h : Framed s frames)
    (hkeep : ∀ frame ∈ frames, ∀ p, frame.root = some p →
      (s'.processes p).occupied = (s.processes p).occupied ∧ (s'.processes p).id = (s.processes p).id) : Framed s' frames where
  roots := by
    intro frame hmem p hroot
    rw [(hkeep frame hmem p hroot).1, (hkeep frame hmem p hroot).2]
    exact h.roots frame hmem p hroot
  apart := h.apart

theorem Framed.push {frames : List Frame} {frame : Frame} (h : Framed s frames)
    (hroot : ∀ p, frame.root = some p → (s.processes p).occupied = true ∧ (s.processes p).id = 0)
    (hslot : ∀ below ∈ frames, ∀ p, below.root = some p → frame.slot ≠ some p) : Framed s (frame :: frames) where
  roots := by
    intro frame' hmem
    rcases List.mem_cons.1 hmem with rfl | hmem
    · exact hroot
    · exact h.roots frame' hmem
  apart := List.pairwise_cons.2 ⟨hslot, h.apart⟩

theorem Framed.tail {frames : List Frame} {frame : Frame} (h : Framed s (frame :: frames)) : Framed s frames where
  roots := fun frame' hmem => h.roots frame' (List.mem_cons_of_mem _ hmem)
  apart := (List.pairwise_cons.1 h.apart).2

/-- The processes stand on an order, the callbacks fit to it, and the null pointer was not read. -/
structure Coherent (m : Machine) : Prop where
  stacked : ∃ order, Stacked m.system order
  framed : Framed m.system m.frames
  fault : m.fault = false

theorem coherent_initial (terminal : Bool) : Coherent (.initial terminal) where
  stacked := ⟨[], stacked_initial terminal⟩
  framed := ⟨fun _ h => absurd h List.not_mem_nil, List.Pairwise.nil⟩
  fault := rfl

/-- A call that changes the foreground process ends. -/
theorem Coherent.done (hm : Coherent m) (hfore : m.system.foregroundProcess = some p) (t : Touches p m.system s) (returned : Returned) :
    Coherent (m.done s returned) := by
  obtain ⟨order, horder⟩ := hm.stacked
  have hhead := horder.foreground.symm.trans hfore
  cases order with
  | nil => cases hhead
  | cons p' rest =>
    obtain rfl := Option.some.inj hhead
    exact ⟨⟨_, horder.touch t⟩, hm.framed.change fun _ _ q _ => ⟨(t.same q).1, (t.same q).2.1⟩, hm.fault⟩

/-- A call ends that changes nothing about the processes. -/
theorem Coherent.same (hm : Coherent m) (hprocesses : s.processes = m.system.processes)
    (hstack : s.foregroundStack = m.system.foregroundStack) (hnext : s.nextProcessId = m.system.nextProcessId)
    (hforeground : s.foregroundProcess = m.system.foregroundProcess) (returned : Returned) : Coherent (m.done s returned) := by
  obtain ⟨order, horder⟩ := hm.stacked
  have hfresh : ∀ id ∈ m.system.foregroundStack, id < s.nextProcessId := hnext ▸ horder.fresh
  refine ⟨⟨order, horder.of_processes hprocesses hstack hfresh hforeground⟩, hm.framed.change fun _ _ q _ => ?_, hm.fault⟩
  show (s.processes q).occupied = _ ∧ (s.processes q).id = _
  rw [hprocesses]
  exact ⟨rfl, rfl⟩

theorem coherent_discard (hm : Coherent m) (data : Nat) (destroy : Bool) (returned : Returned) :
    Coherent (m.done (m.system.discard data destroy) returned) := by
  refine hm.same ?_ ?_ ?_ ?_ returned <;> rfl

/-- A process loses the console; only the foreground process has it. -/
theorem Stacked.release (h : Stacked s order) (p : Slot) : Stacked (releaseProcessConsole s p) order := by
  by_cases howned : (s.processes p).consoleOwned = true
  · have hhead := h.owned p howned
    cases order with
    | nil => cases hhead
    | cons p' rest =>
      obtain rfl := Option.some.inj hhead
      exact h.touch (touches_release s p')
  · unfold releaseProcessConsole
    rw [if_neg howned]
    exact h

/-- A process is finished that is the foreground process, or whose cleanup callback is called first. -/
theorem finishChildProcess_coherent (hm : Coherent m) (hpresent : (m.system.processes p).occupied = false ∨
      (m.system.processes p).descriptor.cleanup = false → m.system.foregroundProcess = some p)
    (hframes : ∀ frame ∈ m.frames, frame.root ≠ some p) (returned : Returned) :
    Coherent (finishChildProcess presents m p returned) := by
  obtain ⟨order, horder⟩ := hm.stacked
  have hpointer : Stacked { m.system with pointerOwner := 0 } order := horder.of_processes rfl rfl horder.fresh rfl
  have hreleased := hpointer.release p
  have t := touches_release { m.system with pointerOwner := 0 } p
  have hoccupied := t.occupied
  have hdescriptor := t.descriptor
  have hforeground := t.foreground
  dsimp only at hoccupied hdescriptor hforeground
  have hframed : Framed (releaseProcessConsole { m.system with pointerOwner := 0 } p) m.frames :=
    hm.framed.change fun _ _ q _ => ⟨(t.same q).1, (t.same q).2.1⟩
  unfold finishChildProcess
  dsimp only
  generalize releaseProcessConsole { m.system with pointerOwner := 0 } p = s at hreleased hoccupied hdescriptor hforeground hframed ⊢
  have hhead (hfore : m.system.foregroundProcess = some p) : order.head? = some p :=
    hreleased.foreground.symm.trans (hforeground.trans hfore)
  split
  · rename_i hempty
    have hmem := List.mem_of_mem_head? (hhead (hpresent (.inl (hoccupied.symm.trans hempty))))
    rw [(hreleased.occupied p).2 hmem] at hempty
    cases hempty
  · split
    · refine ⟨⟨order, hreleased⟩, hframed.push (fun _ hroot => absurd hroot.symm (Option.some_ne_none _)) ?_, hm.fault⟩
      intro below hmem q hroot heq
      obtain rfl := Option.some.inj heq
      exact hframes below hmem hroot
    · rename_i hcleanup
      have hfirst := hhead (hpresent (.inr (Bool.eq_false_iff.2 fun h => hcleanup ((congrArg Descriptor.cleanup hdescriptor).trans h))))
      cases order with
      | nil => cases hfirst
      | cons p' rest =>
        obtain rfl := Option.some.inj hfirst
        generalize (m.system.processes p').exitStatus = status
        obtain ⟨hrest, hkeep⟩ := destroyed_spec presents status status hreleased
        refine ⟨⟨rest, hrest⟩, hframed.change fun frame hmem q hroot => hkeep q ?_, hm.fault⟩
        rintro rfl
        exact hframes frame hmem hroot

/-! ## What the steps keep -/

/-- An exit request is the foreground process's, or of a process that still is on the order. -/
theorem updated_coherent (hm : Coherent m) (p : Slot) : Coherent (updated presents m p) := by
  obtain ⟨order, horder⟩ := hm.stacked
  unfold updated
  split
  · exact hm.same rfl rfl rfl rfl .nothing
  · rename_i hexit
    have hoccupied : (m.system.processes p).occupied = true := by
      by_contra hempty
      rw [horder.empty p (Bool.eq_false_iff.2 hempty)] at hexit
      exact hexit rfl
    have hmem := (horder.occupied p).1 hoccupied
    cases order with
    | nil => exact absurd hmem List.not_mem_nil
    | cons q rest =>
      have hfore : m.system.foregroundProcess = some q := horder.foreground
      rw [hfore]
      dsimp only
      split
      · exact hm.done hfore (touches_panic m.system q) .nothing
      · rename_i hid
        exact finishChildProcess_coherent hm (fun _ => hfore) (fun frame hframe hroot => hid (hm.framed.roots frame hframe q hroot).2) _

theorem kernelApplicationSystemUpdate_coherent (hm : Coherent m) : Coherent (kernelApplicationSystemUpdate presents m) := by
  unfold kernelApplicationSystemUpdate
  split
  · exact hm.same rfl rfl rfl rfl .nothing
  · rename_i p hfore
    dsimp only
    split
    · exact ⟨hm.stacked, hm.framed.push (fun _ hroot => absurd hroot.symm (Option.some_ne_none _))
        (fun _ _ _ _ hslot => absurd hslot.symm (Option.some_ne_none _)), hm.fault⟩
    · exact updated_coherent hm p

theorem tabosAppRequestExit_coherent (hm : Coherent m) (context : Option Slot) (status : Int) :
    Coherent (m.done (tabosAppRequestExit m.system context status) .nothing) := by
  unfold tabosAppRequestExit
  split
  · exact hm.same rfl rfl rfl rfl .nothing
  · split
    · rename_i p hfore
      refine hm.done hfore (touches_modify m.system p (keeps_of_eq ?_)) .nothing
      exact fun _ => ⟨rfl, rfl, rfl, rfl, rfl, rfl⟩
    · exact hm.same rfl rfl rfl rfl .nothing

theorem kernelProcessFail_coherent (hm : Coherent m) (context : Option Slot) (cause : Termination) (status : Int) (returned : Returned) :
    Coherent (m.done (kernelProcessFail m.system context cause status) returned) := by
  unfold kernelProcessFail
  split
  · exact hm.same rfl rfl rfl rfl returned
  · split
    · exact hm.same rfl rfl rfl rfl returned
    · rename_i p hcase
      have hfore : m.system.foregroundProcess = some p := by
        by_contra hne
        exact hcase (.inl hne)
      refine hm.done hfore (touches_modify m.system p (keeps_of_eq ?_)) returned
      exact fun _ => ⟨rfl, rfl, rfl, rfl, rfl, rfl⟩

theorem kernelProcessForceTerminate_coherent (hm : Coherent m) (id : Nat) (status : Int) (returned : Returned) :
    Coherent (m.done (kernelProcessForceTerminate m.system id status).2 returned) := by
  unfold kernelProcessForceTerminate
  split
  · exact hm.same rfl rfl rfl rfl returned
  · rename_i p _
    split
    · exact hm.same rfl rfl rfl rfl returned
    · exact kernelProcessFail_coherent hm (some p) .forced status returned

theorem launchRootDescriptor_coherent (hm : Coherent m) (descriptor : Option Descriptor) (data : Nat) (destroy : Bool) :
    Coherent (launchRootDescriptor presents m descriptor data destroy) := by
  obtain ⟨order, horder⟩ := hm.stacked
  unfold launchRootDescriptor
  split
  · exact coherent_discard hm data destroy _
  · split
    · exact coherent_discard hm data destroy _
    · rename_i descriptor hfore
      split
      · exact coherent_discard hm data destroy _
      · rename_i p hfree
        have hnone : order.head? = none := horder.foreground.symm.trans (not_not.1 hfore)
        obtain rfl := List.head?_eq_none_iff.1 hnone
        have hempty (q : Slot) : (m.system.processes q).occupied = false :=
          Bool.eq_false_iff.2 fun h => absurd ((horder.occupied q).1 h) List.not_mem_nil
        have hframes : ∀ frame ∈ m.frames, ∀ q, frame.root ≠ some q := fun frame hmem q hroot =>
          absurd (hm.framed.roots frame hmem q hroot).1 (by rw [hempty q]; exact Bool.false_ne_true)
        dsimp only
        have t := touches_acquire presents ({ m.system with nextProcessId := 1 }.modify p fun _ =>
          launchedRecord 0 tabosProcessIdInvalid descriptor data destroy) p
        have hothers : ∀ q, q ≠ p → _ := fun q hq => (t.others q hq).trans (modify_of_ne { m.system with nextProcessId := 1 } _ hq)
        have hoccupied := t.occupied
        have hid := t.id
        have hparent := t.parentId
        have hsession := t.session
        rw [modify_self] at hoccupied hid hparent hsession
        have hstack := t.stack.trans (horder.stack)
        have hforeground := t.foreground.trans horder.foreground
        split
        · rename_i s heq
          rw [heq] at hothers hstack hforeground
          have hprocesses : ((s.discard data destroy).modify p fun _ => {}).processes = m.system.processes := by
            funext q
            rcases eq_or_ne q p with rfl | hq
            · rw [modify_self, horder.empty q (hempty q)]
            · exact (modify_of_ne _ _ hq).trans (hothers q hq)
          refine ⟨⟨[], horder.of_processes hprocesses (hstack.trans horder.stack.symm) ?_ ?_⟩, ?_, hm.fault⟩
          · rw [horder.stack]
            exact fun _ hmem => absurd hmem List.not_mem_nil
          · exact hforeground.trans horder.foreground.symm
          · exact hm.framed.change fun frame hmem q hroot => absurd hroot (hframes frame hmem q)
        · rename_i s heq
          rw [heq] at hothers hoccupied hid hparent hsession
          refine ⟨⟨[p], horder.root hothers hoccupied hid hparent (hsession fun h => absurd rfl h) rfl ?_ rfl⟩, ?_, hm.fault⟩
          · exact (congrArg System.nextProcessId (congrArg Prod.snd heq)).symm.trans t.next
          · refine Framed.push ?_ ?_ ?_
            · exact hm.framed.change fun frame hmem q hroot => absurd hroot (hframes frame hmem q)
            · intro q hroot
              obtain rfl := Option.some.inj hroot
              exact ⟨hoccupied, hid⟩
            · exact fun below hmem q hroot => absurd hroot (hframes below hmem q)

theorem pushChild_stacked {child : Slot} (h : Stacked s (p :: rest)) (hchild : child ∉ p :: rest) (hnext : s.nextProcessId + 1 < 2 ^ 32)
    (descriptor : Descriptor) (data : Nat) (destroy : Bool) :
    Stacked (pushChild s p child descriptor data destroy) (child :: p :: rest) ∧
      ∀ q, q ≠ child → ((pushChild s p child descriptor data destroy).processes q).occupied = (s.processes q).occupied ∧
        ((pushChild s p child descriptor data destroy).processes q).id = (s.processes q).id := by
  have hne : p ≠ child := fun heq => hchild (heq ▸ List.mem_cons_self)
  have t := touches_release ({ s with nextProcessId := (s.nextProcessId + 1) % 2 ^ 32 }.modify child fun _ =>
    launchedRecord s.nextProcessId (s.processes p).id descriptor data destroy) p
  have howned := release_consoleOwned ({ s with nextProcessId := (s.nextProcessId + 1) % 2 ^ 32 }.modify child fun _ =>
    launchedRecord s.nextProcessId (s.processes p).id descriptor data destroy) p
  have hkeep : (({ s with nextProcessId := (s.nextProcessId + 1) % 2 ^ 32 }.modify child fun _ =>
      launchedRecord s.nextProcessId (s.processes p).id descriptor data destroy).processes p) = s.processes p := modify_of_ne _ _ hne
  unfold pushChild
  dsimp only
  generalize hreleased : releaseProcessConsole ({ s with nextProcessId := (s.nextProcessId + 1) % 2 ^ 32 }.modify child fun _ =>
    launchedRecord s.nextProcessId (s.processes p).id descriptor data destroy) p = released at t howned ⊢
  generalize hblocked : released.modify p (fun r => { r with state := .blocked }) = blocked
  have hothers (q : Slot) (hqp : q ≠ p) (hqc : q ≠ child) : blocked.processes q = s.processes q := by
    rw [← hblocked, modify_of_ne _ _ hqp, t.others q hqp, modify_of_ne _ _ hqc]
  have hoccupied := t.occupied
  have hid := t.id
  have hparent := t.parentId
  have hsession := t.session
  rw [hkeep] at hoccupied hid hparent hsession
  have htoken : (released.processes p).token = 0 := by
    by_contra htoken
    rw [hsession (h.session p) htoken] at howned
    cases howned
  have hself : blocked.processes p = { released.processes p with state := .blocked } := by rw [← hblocked, modify_self]
  have hchildRecord : blocked.processes child = launchedRecord s.nextProcessId (s.processes p).id descriptor data destroy := by
    rw [← hblocked, modify_of_ne _ _ hne.symm, t.others child hne.symm, modify_self]
  refine ⟨h.push hchild hothers ?_ ?_ ?_ ?_ rfl, fun q hq => ?_⟩
  · show (blocked.processes p).occupied = true ∧ (blocked.processes p).id = _ ∧ (blocked.processes p).parentId = _ ∧
      (blocked.processes p).state = _ ∧ (blocked.processes p).consoleOwned = false ∧ (blocked.processes p).token = 0
    rw [hself]
    exact ⟨hoccupied.trans ((h.occupied p).2 List.mem_cons_self), hid, hparent, rfl, howned, htoken⟩
  · show (blocked.processes child).occupied = true ∧ (blocked.processes child).id = _ ∧ (blocked.processes child).parentId = _ ∧
      (blocked.processes child).consoleOwned = false ∧ (blocked.processes child).token = 0
    rw [hchildRecord]
    exact ⟨rfl, rfl, rfl, rfl, rfl⟩
  · rw [← hblocked]
    exact congrArg _ t.stack
  · rw [← hblocked]
    exact t.next.trans (Nat.mod_eq_of_lt hnext)
  · rcases eq_or_ne q p with rfl | hqp
    · rw [hself]
      exact ⟨hoccupied, hid⟩
    · rw [hothers q hqp hq]
      exact ⟨rfl, rfl⟩

theorem launchChildDescriptor_coherent (hm : Coherent m) (hnext : m.system.nextProcessId + 1 < 2 ^ 32) (parent : Option Slot)
    (descriptor : Option Descriptor) (data : Nat) (destroy : Bool) :
    Coherent (launchChildDescriptor presents m parent descriptor data destroy) := by
  unfold launchChildDescriptor
  split
  · rename_i parent descriptor
    split
    · exact coherent_discard hm data destroy _
    · rename_i hrunning
      split
      · exact coherent_discard hm data destroy _
      · rename_i child hfree
        split
        · exact coherent_discard hm data destroy _
        · obtain ⟨order, horder⟩ := hm.stacked
          have hfore : m.system.foregroundProcess = some parent := by
            by_contra hne
            exact hrunning (.inl hne)
          have hhead := horder.foreground.symm.trans hfore
          cases order with
          | nil => cases hhead
          | cons p rest =>
            obtain rfl := Option.some.inj hhead
            have hchild := horder.free_not_mem hfree
            obtain ⟨hpushed, hkeep⟩ := pushChild_stacked horder hchild hnext descriptor data destroy
            have hframes : ∀ frame ∈ m.frames, frame.root ≠ some child := fun frame hmem hroot =>
              hchild ((horder.occupied child).1 (hm.framed.roots frame hmem child hroot).1)
            have t := touches_acquire presents (pushChild m.system p child descriptor data destroy) child
            have hframed :
                Framed (acquireProcessConsole presents (pushChild m.system p child descriptor data destroy) child).2 m.frames := by
              refine hm.framed.change fun frame hmem q hroot => ?_
              have hq : q ≠ child := by
                rintro rfl
                exact hframes frame hmem hroot
              rw [(t.same q).1, (t.same q).2.1]
              exact hkeep q hq
            have hacquired := hpushed.touch t
            split
            · rename_i s heq
              rw [heq] at hacquired hframed
              refine ⟨⟨_, hacquired⟩, hframed.push (fun _ hroot => absurd hroot.symm (Option.some_ne_none _)) ?_, hm.fault⟩
              intro below hmem q hroot hslot
              obtain rfl := Option.some.inj hslot
              exact hframes below hmem hroot
            · rename_i s heq
              rw [heq] at hacquired hframed
              have hstatus := touches_modify s child (keeps_exitStatus (-1))
              have hm' : Coherent { m with system := s.modify child fun r => { r with exitStatus := -1 } } :=
                ⟨⟨_, hacquired.touch hstatus⟩,
                  hframed.change fun _ _ q _ => ⟨(hstatus.same q).1, (hstatus.same q).2.1⟩, hm.fault⟩
              exact finishChildProcess_coherent hm' (fun _ => hacquired.foreground) hframes _
  · exact coherent_discard hm data destroy _

/-! ## Runs -/

/-- The identifiers of the processes do not wrap. -/
def Unwrapped (m : Machine) : Event → Prop
  | .launchChild .. => m.system.nextProcessId + 1 < 2 ^ 32
  | _ => True

/-- No cleanup callback is called before the manager takes the process off the stack. -/
def WithoutCleanup (s : System) (p : Slot) : Prop := (s.processes p).occupied = false ∨ (s.processes p).descriptor.cleanup = false

/-- The process that the manager takes off the stack when the callback of the frame returns, or that panics then, is the foreground
process. -/
def EndsForeground (s : System) (result : Bool) : Frame → Prop
  | .rootEntry p =>
    (result = false ∧ WithoutCleanup s p) ∨ (result = true ∧ (s.processes p).exitRequested = true) → s.foregroundProcess = some p
  | .childEntry p =>
    (result = false ∨ (s.processes p).exitRequested = true) ∧ WithoutCleanup s p → s.foregroundProcess = some p
  | .rootCleanup p _ | .childCleanup p _ _ => s.foregroundProcess = some p
  | .update _ => True

/-- No process is taken off the stack, and no root panics after its entry, while another process is in the foreground. -/
def Orderly (m : Machine) : Event → Prop
  | .callbackReturns result => ∀ frame ∈ m.frames.head?, EndsForeground m.system result frame
  | _ => True

instance (m : Machine) : DecidablePred (Unwrapped m)
  | .launchChild .. => inferInstanceAs (Decidable (_ < _))
  | .launchRoot .. | .requestExit .. | .fail .. | .forceTerminate .. | .update | .callbackReturns _ => isTrue trivial

instance (s : System) (p : Slot) : Decidable (WithoutCleanup s p) := inferInstanceAs (Decidable (_ ∨ _))

instance (s : System) (result : Bool) : DecidablePred (EndsForeground s result)
  | .rootEntry _ | .childEntry _ => inferInstanceAs (Decidable (_ → _))
  | .rootCleanup .. | .childCleanup .. => inferInstanceAs (Decidable (_ = _))
  | .update _ => isTrue trivial

instance (m : Machine) : DecidablePred (Orderly m)
  | .callbackReturns result => inferInstanceAs (Decidable (∀ frame ∈ m.frames.head?, EndsForeground m.system result frame))
  | .launchRoot .. | .launchChild .. | .requestExit .. | .fail .. | .forceTerminate .. | .update => isTrue trivial

/-- The root process is destroyed when it is alone on the order. -/
theorem rootGone_coherent (hm : Coherent m) (hfore : m.system.foregroundProcess = some p) (hid : (m.system.processes p).id = 0)
    (hframes : ∀ frame ∈ m.frames, frame.root ≠ some p) (status : Int) (returned : Returned) :
    Coherent (m.done (rootGone (destroyProcess m.system p status)) returned) := by
  obtain ⟨order, horder⟩ := hm.stacked
  obtain ⟨hp, hothers⟩ := destroyProcess_processes m.system p status
  obtain ⟨hstack, hnext⟩ := destroyProcess_rest m.system p status
  have hhead := horder.foreground.symm.trans hfore
  cases order with
  | nil => cases hhead
  | cons p' rest =>
    obtain rfl := Option.some.inj hhead
    -- The ids decrease from the top down, so nothing lies below the process with id 0.
    have hrest : rest = [] := by
      cases rest with
      | nil => rfl
      | cons q rest =>
        have hgt := (List.pairwise_cons.1 horder.ids_pairwise).1 q List.mem_cons_self
        omega
    subst hrest
    have htail : m.system.foregroundStack.tail = [] := by rw [horder.stack]; rfl
    refine ⟨⟨[], horder.pop hothers hp htail.symm hnext rfl⟩, hm.framed.change fun frame hmem q hroot => ?_, hm.fault⟩
    have hq : q ≠ p' := by
      rintro rfl
      exact hframes frame hmem hroot
    show ((destroyProcess m.system p' status).processes q).occupied = _ ∧ ((destroyProcess m.system p' status).processes q).id = _
    rw [hothers q hq]
    exact ⟨rfl, rfl⟩

/-- The machine when an entry callback has failed. -/
theorem Coherent.exitStatus (hm : Coherent m) (hp : (m.system.processes p).occupied = true) (status : Int) :
    Coherent { m with system := m.system.modify p fun r => { r with exitStatus := status } } := by
  obtain ⟨order, horder⟩ := hm.stacked
  have t := touches_modify m.system p (keeps_exitStatus status)
  exact ⟨⟨order, horder.exitStatus ((horder.occupied p).1 hp) status⟩, hm.framed.change fun _ _ q _ =>
    ⟨(t.same q).1, (t.same q).2.1⟩, hm.fault⟩

/-- The foreground process is in use. -/
theorem Coherent.foreground_occupied (hm : Coherent m) (hfore : m.system.foregroundProcess = some p) :
    (m.system.processes p).occupied = true := by
  obtain ⟨order, horder⟩ := hm.stacked
  exact (horder.occupied p).2 (List.mem_of_mem_head? (horder.foreground.symm.trans hfore))

theorem childEntered_coherent (hm : Coherent m) (hframes : ∀ frame ∈ m.frames, frame.root ≠ some p) {result : Bool}
    (hends : EndsForeground m.system result (.childEntry p)) : Coherent (childEntered presents m p result) := by
  unfold childEntered
  split
  · rename_i hresult
    have hoccupied : (m.system.processes p).occupied = true := by
      by_contra hempty
      have hempty := Bool.eq_false_iff.2 hempty
      rw [hm.foreground_occupied (hends ⟨.inl hresult, .inl hempty⟩)] at hempty
      cases hempty
    refine finishChildProcess_coherent (hm.exitStatus hoccupied (-1)) ?_ hframes _
    dsimp only
    rw [modify_self]
    exact fun h => hends ⟨.inl hresult, h⟩
  · split
    · rename_i hexit
      exact finishChildProcess_coherent hm (fun h => hends ⟨.inr hexit, h⟩) hframes _
    · exact hm.same rfl rfl rfl rfl _

theorem rootEntered_coherent (hm : Coherent m) (hoccupied : (m.system.processes p).occupied = true)
    (hid : (m.system.processes p).id = 0) (hframes : ∀ frame ∈ m.frames, frame.root ≠ some p) {result : Bool}
    (hends : EndsForeground m.system result (.rootEntry p)) : Coherent (rootEntered m p result) := by
  unfold rootEntered
  split
  · rename_i hresult
    have hm' := hm.exitStatus hoccupied (-1)
    have hrecord := modify_self m.system p fun r => { r with exitStatus := -1 }
    dsimp only
    rw [hrecord]
    split
    · rename_i hempty
      exact absurd (hoccupied.symm.trans hempty) (by simp)
    · split
      · refine ⟨hm'.stacked, hm'.framed.push ?_ ?_, hm.fault⟩
        · intro q hroot
          obtain rfl := Option.some.inj hroot
          dsimp only
          rw [hrecord]
          exact ⟨hoccupied, hid⟩
        · intro below hmem q hroot hslot
          obtain rfl := Option.some.inj hslot
          exact hframes below hmem hroot
      · rename_i hcleanup
        have hfore := hends (.inl ⟨hresult, .inr (Bool.eq_false_iff.2 hcleanup)⟩)
        have hid' : ((m.system.modify p fun r => { r with exitStatus := -1 }).processes p).id = 0 := by
          rw [hrecord]
          exact hid
        exact rootGone_coherent hm' hfore hid' hframes _ _
  · split
    · rename_i hresult hexit
      exact hm.done (hends (.inr ⟨eq_true_of_ne_false hresult, hexit⟩)) (touches_panic _ _) _
    · exact hm.same rfl rfl rfl rfl _

theorem callbackReturns_coherent (hm : Coherent m) {result : Bool} (horderly : Orderly m (.callbackReturns result)) :
    Coherent (callbackReturns presents m result) := by
  unfold callbackReturns
  split
  · exact hm
  · rename_i frame frames hframes
    have hends : EndsForeground m.system result frame := horderly frame (by rw [hframes]; rfl)
    have hframed := hm.framed
    rw [hframes] at hframed
    have hm' : Coherent { m with frames := frames } := ⟨hm.stacked, hframed.tail, hm.fault⟩
    have hroots (p : Slot) (hslot : frame.slot = some p) : ∀ below ∈ frames, below.root ≠ some p := fun below hmem hroot =>
      (List.pairwise_cons.1 hframed.apart).1 below hmem p hroot hslot
    dsimp only
    cases frame with
    | rootEntry p =>
      obtain ⟨hoccupied, hid⟩ := hframed.roots _ List.mem_cons_self p rfl
      exact rootEntered_coherent hm' hoccupied hid (hroots p rfl) hends
    | rootCleanup p status =>
      obtain ⟨hoccupied, hid⟩ := hframed.roots _ List.mem_cons_self p rfl
      exact rootGone_coherent hm' hends hid (hroots p rfl) status _
    | childEntry p => exact childEntered_coherent hm' (hroots p rfl) hends
    | childCleanup p status returned =>
      obtain ⟨order, horder⟩ := hm.stacked
      have hhead := horder.foreground.symm.trans hends
      cases order with
      | nil => cases hhead
      | cons p' rest =>
        obtain rfl := Option.some.inj hhead
        obtain ⟨hrest, hkeep⟩ := destroyed_spec presents status status horder
        refine ⟨⟨rest, hrest⟩, hm'.framed.change fun below hmem q hroot => hkeep q ?_, hm.fault⟩
        rintro rfl
        exact hroots q rfl below hmem hroot
    | update p => exact updated_coherent hm' p

theorem step_coherent (hm : Coherent m) {event : Event} (hunwrapped : Unwrapped m event) (horderly : Orderly m event) :
    Coherent (step presents m event) := by
  unfold step
  rw [if_neg (by rw [hm.fault]; exact Bool.false_ne_true)]
  cases event with
  | launchRoot descriptor data destroy => exact launchRootDescriptor_coherent hm descriptor data destroy
  | launchChild parent descriptor data destroy => exact launchChildDescriptor_coherent hm hunwrapped parent descriptor data destroy
  | requestExit context status => exact tabosAppRequestExit_coherent hm context status
  | fail context cause status => exact kernelProcessFail_coherent hm context cause status _
  | forceTerminate id status => exact kernelProcessForceTerminate_coherent hm id status _
  | update => exact kernelApplicationSystemUpdate_coherent hm
  | callbackReturns result => exact callbackReturns_coherent hm horderly

/-- The state of the manager between two steps: the foreground stack, its top first, and the records. -/
structure StackInvariant (s : System) : Prop where
  nodup : s.foregroundStack.Nodup
  entries : ∀ id, id ∈ s.foregroundStack ↔ ∃ p, (s.processes p).occupied = true ∧ (s.processes p).id = id
  distinct : ∀ p q, (s.processes p).occupied = true → (s.processes q).occupied = true →
    (s.processes p).id = (s.processes q).id → p = q
  parents : ∀ (k : Nat) p, (s.processes p).occupied = true → s.foregroundStack[k]? = some (s.processes p).id →
    (s.processes p).parentId = (s.foregroundStack[k + 1]?).getD tabosProcessIdInvalid
  blocked : ∀ (k : Nat) p, (s.processes p).occupied = true → s.foregroundStack[k + 1]? = some (s.processes p).id →
    (s.processes p).state = .blocked
  top : ∀ p, (s.processes p).occupied = true → s.foregroundStack.head? = some (s.processes p).id → s.foregroundProcess = some p
  console : ∀ p, (s.processes p).consoleOwned = true ∨ ownsConsole s p → s.foregroundProcess = some p
  null : s.foregroundProcess = none → ∀ p, (s.processes p).occupied = false

/-- A process stands where its id does. -/
theorem Stacked.getElem? (h : Stacked s order) (hp : (s.processes p).occupied = true) {k : Nat}
    (hk : s.foregroundStack[k]? = some (s.processes p).id) : order[k]? = some p := by
  rw [h.stack, List.getElem?_map, Option.map_eq_some_iff] at hk
  obtain ⟨q, hq, hid⟩ := hk
  rw [hq, h.id_inj (List.mem_of_getElem? hq) ((h.occupied p).1 hp) hid]

theorem Stacked.stackInvariant (h : Stacked s order) : StackInvariant s where
  nodup := h.descending.imp fun hgt heq => by omega
  entries := by
    intro id
    rw [h.stack, List.mem_map]
    constructor
    · rintro ⟨p, hmem, hid⟩
      exact ⟨p, (h.occupied p).2 hmem, hid⟩
    · rintro ⟨p, hoccupied, hid⟩
      exact ⟨p, (h.occupied p).1 hoccupied, hid⟩
  distinct := fun p q hp hq hid => h.id_inj ((h.occupied p).1 hp) ((h.occupied q).1 hq) hid
  parents := by
    intro k p hp hk
    have hget := h.getElem? hp hk
    obtain ⟨hlt, heq⟩ := List.getElem?_eq_some_iff.1 hget
    have hsplit : order = order.take k ++ p :: order.drop (k + 1) := by
      rw [← heq, ← List.drop_eq_getElem_cons hlt, List.take_append_drop]
    rw [h.parents _ p _ hsplit, h.stack, List.getElem?_map]
    cases hdrop : order.drop (k + 1) with
    | nil =>
      rw [List.getElem?_eq_none (List.drop_eq_nil_iff.1 hdrop)]
      rfl
    | cons q below =>
      have hq : order[k + 1]? = some q := by
        rw [← List.head?_drop, hdrop, List.head?_cons]
      rw [hq]
      rfl
  blocked := by
    intro k p hp hk
    refine h.blocked p (List.mem_of_getElem? (i := k) ?_)
    rw [List.getElem?_tail]
    exact h.getElem? hp hk
  top := by
    intro p hp hhead
    rw [List.head?_eq_getElem?] at hhead
    rw [h.foreground, List.head?_eq_getElem?]
    exact h.getElem? hp hhead
  console := by
    intro p hp
    rw [h.foreground]
    rcases hp with howned | howns
    · exact h.owned p howned
    · exact h.owned p (h.session p howns.1)
  null := by
    intro hnone p
    rw [h.foreground, List.head?_eq_none_iff] at hnone
    subst hnone
    exact Bool.eq_false_iff.2 fun hp => absurd ((h.occupied p).1 hp) List.not_mem_nil

/-- In every run in which the identifiers do not wrap and the process that is taken off the stack is the foreground process. -/
theorem process_stack (presents : Nat → Bool) (terminal : Bool) (events : List Event)
    (h : Along (step presents) (fun m event => Unwrapped m event ∧ Orderly m event) (.initial terminal) events) :
    (events.foldl (step presents) (.initial terminal)).fault = false ∧
      StackInvariant (events.foldl (step presents) (.initial terminal)).system := by
  have hcoherent := h.invariant Coherent (fun m event hm hguard => step_coherent hm hguard.1 hguard.2) (coherent_initial terminal)
  obtain ⟨order, horder⟩ := hcoherent.stacked
  exact ⟨hcoherent.fault, horder.stackInvariant⟩

/-- A console application with all callbacks. -/
def shell : Descriptor where
  name := "shell".toList
  console := true
  update := true
  cleanup := true

/-- A shell launches a child whose entry callback launches a child of its own, which ends before the entry callback fails. -/
def orderlyRun : List Event :=
  [.launchRoot (some shell) 0 false, .callbackReturns true, .update, .launchChild (some 0) (some shell) 0 false,
    .launchChild (some 1) (some shell) 0 false, .requestExit (some 2) 7, .callbackReturns true, .callbackReturns false,
    .callbackReturns false, .callbackReturns false]

theorem process_stack_orderly : StackInvariant (orderlyRun.foldl (step fun _ => true) (.initial true)).system :=
  (process_stack (fun _ => true) true orderlyRun (by decide)).2

/-- The same without the end: the entry callback fails while the child that it launched is in the foreground. -/
def disorderlyRun : List Event :=
  [.launchRoot (some shell) 0 false, .callbackReturns true, .update, .launchChild (some 0) (some { shell with cleanup := false }) 0 false,
    .launchChild (some 1) (some shell) 0 false, .callbackReturns true, .callbackReturns false]

/-- The foreground process is the null pointer while the shell and the child's child are in use. -/
theorem process_stack_disorderly : ¬∀ (presents : Nat → Bool) (terminal : Bool) (events : List Event),
    Along (step presents) Unwrapped (.initial terminal) events →
      StackInvariant (events.foldl (step presents) (.initial terminal)).system := by
  intro hclaim
  have hinvariant := hclaim (fun _ => true) true disorderlyRun (by decide)
  have hnull : (disorderlyRun.foldl (step fun _ => true) (.initial true)).system.foregroundProcess = none := by decide
  have hoccupied : ((disorderlyRun.foldl (step fun _ => true) (.initial true)).system.processes 0).occupied = true := by decide
  rw [hinvariant.null hnull 0] at hoccupied
  cases hoccupied

end Process
end TabOS
