import TabOS.Application.Socket
import Mathlib.Data.Finset.Card
import Mathlib.Data.Fintype.Basic

/-!
# Sockets and their wait sources

Opening, accepting and closing keep every open socket paired with one open wait source and the other way round, and hold one platform
socket for each open socket. A handle is retired when its socket is closed: the generation of its slot is not its own any more, or the
slot is not open. No operation revives a retired handle while the generations do not wrap.
-/

namespace TabOS
namespace Application

open Library

variable {s t : SocketTables} {i i' : Fin elfSocketCapacity} {j j' : Fin elfWaitSourceCapacity} {g g' : Nat} {platformSocket : Int}

/-! ## Handles -/

theorem socketHandle_inj : socketHandle i g = socketHandle i' g' ↔ i = i' ∧ g = g' := by
  rw [socketHandle, socketHandle, Int.natCast_inj, pack_inj]

theorem waitSourceHandle_inj : waitSourceHandle j g = waitSourceHandle j' g' ↔ j = j' ∧ g = g' := by
  rw [waitSourceHandle, waitSourceHandle, Int.natCast_inj, pack_inj]

theorem toNat_socketHandle_inj : (socketHandle i g).toNat = (socketHandle i' g').toNat ↔ i = i' ∧ g = g' := by
  rw [socketHandle, socketHandle, Int.toNat_natCast, Int.toNat_natCast, pack_inj]

theorem socketHandle_pos (i : Fin elfSocketCapacity) (hg : 0 < g) : 0 < socketHandle i g := Int.natCast_pos.2 (pack_pos i hg)

theorem waitSourceHandle_ne_invalid (j : Fin elfWaitSourceCapacity) (g : Nat) : waitSourceHandle j g ≠ waitSourceInvalid := by
  have hle : 0 ≤ waitSourceHandle j g := Int.natCast_nonneg _
  simp only [waitSourceInvalid]
  omega

/-- A handle that is accepted is that of an open socket. -/
theorem elfSocket_eq_some {socket : Int} (h : elfSocket s socket = some i) :
    (s.sockets i).isOpen = true ∧ socket = socketHandle i (s.sockets i).generation ∧ 0 < (s.sockets i).generation := by
  unfold elfSocket at h
  split at h
  · cases h
  next hpos =>
  dsimp only at h
  split at h
  · cases h
  next haccepted =>
  obtain rfl := Option.some.inj h
  rw [not_or, not_or, Bool.not_eq_false, ne_eq, not_not] at haccepted
  obtain ⟨hopen, hgeneration, heq⟩ := haccepted
  refine ⟨hopen, ?_, heq ▸ Nat.pos_of_ne_zero hgeneration⟩
  rw [socketHandle, heq, pack_slotOf]
  omega

/-- The handle of an open socket is accepted. -/
theorem elfSocket_socketHandle (hopen : (s.sockets i).isOpen = true) (hpos : 0 < (s.sockets i).generation) :
    elfSocket s (socketHandle i (s.sockets i).generation) = some i := by
  have hhandle := socketHandle_pos i hpos
  rw [elfSocket, if_neg (Int.not_le.2 hhandle)]
  dsimp only
  rw [socketHandle, Int.toNat_natCast, slotOf_pack, pack_div, if_neg]
  rw [not_or, not_or, Bool.not_eq_false, ne_eq, not_not]
  exact ⟨hopen, Nat.ne_of_gt hpos, rfl⟩

theorem elfWaitSource_eq_some {source : Int} (h : elfWaitSource s source = some j) :
    (s.waitSources j).isOpen = true ∧ source = waitSourceHandle j (s.waitSources j).generation := by
  unfold elfWaitSource at h
  split at h
  · cases h
  next hpos =>
  dsimp only at h
  split at h
  · cases h
  next haccepted =>
  obtain rfl := Option.some.inj h
  rw [not_or, not_or, Bool.not_eq_false, ne_eq, not_not] at haccepted
  obtain ⟨hopen, -, heq⟩ := haccepted
  refine ⟨hopen, ?_⟩
  rw [waitSourceHandle, heq, pack_slotOf]
  omega

theorem elfWaitSource_waitSourceHandle (hopen : (s.waitSources j).isOpen = true) (hpos : 0 < (s.waitSources j).generation) :
    elfWaitSource s (waitSourceHandle j (s.waitSources j).generation) = some j := by
  have hle : 0 ≤ waitSourceHandle j (s.waitSources j).generation := Int.natCast_nonneg _
  rw [elfWaitSource, if_neg (Int.not_lt.2 hle)]
  dsimp only
  rw [waitSourceHandle, Int.toNat_natCast, slotOf_pack, pack_div, if_neg]
  rw [not_or, not_or, Bool.not_eq_false, ne_eq, not_not]
  exact ⟨hopen, Nat.ne_of_gt hpos, rfl⟩

theorem takeWaitSourceGeneration_pos (next : Nat) : 0 < (takeWaitSourceGeneration next).1 := by
  unfold takeWaitSourceGeneration
  split
  · exact Nat.one_pos
  · next hwrap => exact Nat.pos_of_ne_zero fun hzero => hwrap (Or.inl hzero)

theorem nextSocketGeneration_pos (generation : Nat) : 0 < nextSocketGeneration generation := by
  unfold nextSocketGeneration
  split
  · exact Nat.one_pos
  · exact Nat.succ_pos _

@[simp] theorem sockets_setSocket_self (s : SocketTables) (i : Fin elfSocketCapacity) (socket : ElfSocket) :
    (s.setSocket i socket).sockets i = socket := Function.update_self _ _ _

theorem sockets_setSocket_of_ne (hne : i' ≠ i) (s : SocketTables) (socket : ElfSocket) :
    (s.setSocket i socket).sockets i' = s.sockets i' := Function.update_of_ne hne _ _

theorem freeSocket_eq_some (h : freeSocket s = some i) : (s.sockets i).isOpen = false := by
  simpa using List.find?_some h

theorem freeWaitSource_eq_some (h : freeWaitSource s = some j) : (s.waitSources j).isOpen = false := by
  simpa using List.find?_some h

/-! ## Paired tables -/

/-- The socket and the wait source name each other. -/
structure Pairs (s : SocketTables) (i : Fin elfSocketCapacity) (j : Fin elfWaitSourceCapacity) : Prop where
  type_eq : (s.waitSources j).type = .socket
  parent_eq : (s.waitSources j).parent = (socketHandle i (s.sockets i).generation).toNat
  source_eq : (s.sockets i).waitSource = waitSourceHandle j (s.waitSources j).generation

/-- The open sockets of an application. -/
def openSockets (s : SocketTables) : Finset (Fin elfSocketCapacity) := Finset.univ.filter fun i => (s.sockets i).isOpen = true

/-- The platform sockets that the open sockets hold. -/
def heldSockets (s : SocketTables) : Multiset Int := (openSockets s).val.map fun i => (s.sockets i).platformSocket

/-- The platform sockets that were opened or accepted and not closed. -/
def platformSockets : List PlatformCall → Multiset Int
  | [] => 0
  | .opened platformSocket :: calls => platformSocket ::ₘ platformSockets calls
  | .closed platformSocket :: calls => (platformSockets calls).erase platformSocket

/-- Open sockets and open wait sources of sockets are paired, and each open socket holds one platform socket. -/
structure Linked (s : SocketTables) : Prop where
  source_of : ∀ i, (s.sockets i).isOpen = true → ∃ j, (s.waitSources j).isOpen = true ∧ Pairs s i j
  socket_of : ∀ j, (s.waitSources j).isOpen = true → (s.waitSources j).type = .socket → ∃ i, (s.sockets i).isOpen = true ∧ Pairs s i j
  socket_pos : ∀ i, (s.sockets i).isOpen = true → 0 < (s.sockets i).generation
  source_pos : ∀ j, (s.waitSources j).isOpen = true → 0 < (s.waitSources j).generation
  held : platformSockets s.platform = heldSockets s

theorem linked_created (next : Nat) : Linked (.created next) where
  source_of := fun _ h => by cases h
  socket_of := fun _ h => by cases h
  socket_pos := fun _ h => by cases h
  source_pos := fun _ h => by cases h
  held := by
    have hopen : openSockets (.created next) = ∅ := Finset.filter_false_of_mem fun _ _ h => by cases h
    rw [heldSockets, hopen]
    rfl

/-- Two tables that agree on a pair agree on whether it is one. -/
theorem Pairs.congr (h : Pairs s i j) (hsocket : t.sockets i = s.sockets i) (hsource : t.waitSources j = s.waitSources j) :
    Pairs t i j := by
  refine ⟨?_, ?_, ?_⟩
  · rw [hsource]
    exact h.type_eq
  · rw [hsource, hsocket]
    exact h.parent_eq
  · rw [hsource, hsocket]
    exact h.source_eq

theorem Pairs.source_unique (h : Pairs s i j) (h' : Pairs s i j') : j = j' := by
  have heq := h.source_eq.symm.trans h'.source_eq
  exact (waitSourceHandle_inj.1 heq).1

theorem Pairs.socket_unique (h : Pairs s i j) (h' : Pairs s i' j) : i = i' := by
  have heq := h.parent_eq.symm.trans h'.parent_eq
  exact (toNat_socketHandle_inj.1 heq).1

/-- An open socket has one open wait source with its handle as the parent. -/
theorem Linked.existsUnique_source (h : Linked s) (hopen : (s.sockets i).isOpen = true) :
    ∃! j, (s.waitSources j).isOpen = true ∧ (s.waitSources j).type = .socket ∧
      (s.waitSources j).parent = (socketHandle i (s.sockets i).generation).toNat := by
  obtain ⟨j, hj, hpairs⟩ := h.source_of i hopen
  refine ⟨j, ⟨hj, hpairs.type_eq, hpairs.parent_eq⟩, ?_⟩
  rintro j' ⟨hj', htype, hparent⟩
  obtain ⟨i', -, hpairs'⟩ := h.socket_of j' hj' htype
  obtain ⟨rfl, -⟩ := toNat_socketHandle_inj.1 (hpairs'.parent_eq.symm.trans hparent)
  exact hpairs'.source_unique hpairs

/-- An open wait source of a socket belongs to one open socket. -/
theorem Linked.existsUnique_socket (h : Linked s) (hopen : (s.waitSources j).isOpen = true) (htype : (s.waitSources j).type = .socket) :
    ∃! i, (s.sockets i).isOpen = true ∧ (s.waitSources j).parent = (socketHandle i (s.sockets i).generation).toNat := by
  obtain ⟨i, hi, hpairs⟩ := h.socket_of j hopen htype
  refine ⟨i, ⟨hi, hpairs.parent_eq⟩, ?_⟩
  rintro i' ⟨-, hparent⟩
  exact (toNat_socketHandle_inj.1 (hparent.symm.trans hpairs.parent_eq)).1

theorem Linked.card_eq (h : Linked s) : (platformSockets s.platform).card = (openSockets s).card := by
  rw [h.held, heldSockets, Multiset.card_map]
  rfl

/-! ## Moves -/

/-- The tables do not change but for the counter. -/
theorem Linked.congr (h : Linked s) (hsockets : t.sockets = s.sockets) (hsources : t.waitSources = s.waitSources)
    (hplatform : platformSockets t.platform = platformSockets s.platform) : Linked t := by
  obtain ⟨sockets, waitSources, next, platform⟩ := t
  cases hsockets
  cases hsources
  exact ⟨fun i hi => (h.source_of i hi).imp fun j hj => ⟨hj.1, hj.2.congr rfl rfl⟩,
    fun j hj htype => (h.socket_of j hj htype).imp fun i hi => ⟨hi.1, hi.2.congr rfl rfl⟩, h.socket_pos, h.source_pos,
    hplatform.trans h.held⟩

/-- A wait source that is not the one of a socket changes. -/
theorem Linked.otherSource (h : Linked s) (hsockets : t.sockets = s.sockets) (hplatform : t.platform = s.platform)
    (hothers : ∀ k, k ≠ j → t.waitSources k = s.waitSources k)
    (hbefore : (s.waitSources j).isOpen = true → (s.waitSources j).type ≠ .socket)
    (hafter : (t.waitSources j).isOpen = true → (t.waitSources j).type ≠ .socket ∧ 0 < (t.waitSources j).generation) : Linked t where
  source_of := by
    intro i hi
    rw [hsockets] at hi
    obtain ⟨k, hk, hpairs⟩ := h.source_of i hi
    have hne : k ≠ j := by
      rintro rfl
      exact hbefore hk hpairs.type_eq
    exact ⟨k, by rwa [hothers k hne], hpairs.congr (congrFun hsockets i) (hothers k hne)⟩
  socket_of := by
    intro k hk htype
    have hne : k ≠ j := by
      rintro rfl
      exact (hafter hk).1 htype
    rw [hothers k hne] at hk htype
    obtain ⟨i, hi, hpairs⟩ := h.socket_of k hk htype
    exact ⟨i, by rwa [hsockets], hpairs.congr (congrFun hsockets i) (hothers k hne)⟩
  socket_pos := by
    rw [hsockets]
    exact h.socket_pos
  source_pos := by
    intro k hk
    rcases eq_or_ne k j with rfl | hne
    · exact (hafter hk).2
    · rw [hothers k hne] at hk ⊢
      exact h.source_pos k hk
  held := by
    rw [hplatform, h.held, heldSockets, heldSockets, openSockets, openSockets, hsockets]

/-- The platform sockets held once a socket is open. -/
theorem heldSockets_open (hothers : ∀ k, k ≠ i → t.sockets k = s.sockets k) (hclosed : (s.sockets i).isOpen = false)
    (hopen : (t.sockets i).isOpen = true) : heldSockets t = (t.sockets i).platformSocket ::ₘ heldSockets s := by
  have hnot : i ∉ openSockets s := by
    intro hmem
    rw [(Finset.mem_filter.1 hmem).2] at hclosed
    cases hclosed
  have hset : openSockets t = insert i (openSockets s) := by
    ext k
    simp only [openSockets, Finset.mem_insert, Finset.mem_filter, Finset.mem_univ, true_and]
    rcases eq_or_ne k i with rfl | hne
    · exact iff_of_true hopen (Or.inl rfl)
    · rw [hothers k hne, or_iff_right hne]
  rw [heldSockets, hset, Finset.insert_val_of_notMem hnot, Multiset.map_cons, heldSockets]
  congr 1
  refine Multiset.map_congr rfl fun k hmem => ?_
  have hne : k ≠ i := by
    rintro rfl
    exact hnot hmem
  rw [hothers k hne]

/-- A socket and a wait source that were free are paired. -/
theorem Linked.paired (h : Linked s) (hclosed : (s.sockets i).isOpen = false) (hfree : (s.waitSources j).isOpen = false)
    (hsockets : ∀ k, k ≠ i → t.sockets k = s.sockets k) (hsources : ∀ k, k ≠ j → t.waitSources k = s.waitSources k)
    (hopen : (t.sockets i).isOpen = true) (hopen' : (t.waitSources j).isOpen = true) (hpairs : Pairs t i j)
    (hpos : 0 < (t.sockets i).generation) (hpos' : 0 < (t.waitSources j).generation)
    (hplatform : platformSockets t.platform = (t.sockets i).platformSocket ::ₘ platformSockets s.platform) : Linked t where
  source_of := by
    intro k hk
    rcases eq_or_ne k i with rfl | hne
    · exact ⟨j, hopen', hpairs⟩
    · rw [hsockets k hne] at hk
      obtain ⟨l, hl, hpairs'⟩ := h.source_of k hk
      have hnel : l ≠ j := by
        rintro rfl
        rw [hfree] at hl
        cases hl
      exact ⟨l, by rwa [hsources l hnel], hpairs'.congr (hsockets k hne) (hsources l hnel)⟩
  socket_of := by
    intro l hl htype
    rcases eq_or_ne l j with rfl | hne
    · exact ⟨i, hopen, hpairs⟩
    · rw [hsources l hne] at hl htype
      obtain ⟨k, hk, hpairs'⟩ := h.socket_of l hl htype
      have hnek : k ≠ i := by
        rintro rfl
        rw [hclosed] at hk
        cases hk
      exact ⟨k, by rwa [hsockets k hnek], hpairs'.congr (hsockets k hnek) (hsources l hne)⟩
  socket_pos := by
    intro k hk
    rcases eq_or_ne k i with rfl | hne
    · exact hpos
    · rw [hsockets k hne] at hk ⊢
      exact h.socket_pos k hk
  source_pos := by
    intro l hl
    rcases eq_or_ne l j with rfl | hne
    · exact hpos'
    · rw [hsources l hne] at hl ⊢
      exact h.source_pos l hl
  held := by rw [hplatform, h.held, heldSockets_open hsockets hclosed hopen]

/-- A pair is closed. -/
theorem Linked.unpaired (h : Linked s) (hopen : (s.sockets i).isOpen = true) (hpairs : Pairs s i j)
    (hsockets : ∀ k, k ≠ i → t.sockets k = s.sockets k) (hsources : ∀ k, k ≠ j → t.waitSources k = s.waitSources k)
    (hclosed : (t.sockets i).isOpen = false) (hclosed' : (t.waitSources j).isOpen = false)
    (hplatform : platformSockets t.platform = (platformSockets s.platform).erase (s.sockets i).platformSocket) : Linked t where
  source_of := by
    intro k hk
    have hne : k ≠ i := by
      rintro rfl
      rw [hclosed] at hk
      cases hk
    rw [hsockets k hne] at hk
    obtain ⟨l, hl, hpairs'⟩ := h.source_of k hk
    have hnel : l ≠ j := by
      rintro rfl
      exact hne (hpairs'.socket_unique hpairs)
    exact ⟨l, by rwa [hsources l hnel], hpairs'.congr (hsockets k hne) (hsources l hnel)⟩
  socket_of := by
    intro l hl htype
    have hne : l ≠ j := by
      rintro rfl
      rw [hclosed'] at hl
      cases hl
    rw [hsources l hne] at hl htype
    obtain ⟨k, hk, hpairs'⟩ := h.socket_of l hl htype
    have hnek : k ≠ i := by
      rintro rfl
      exact hne (hpairs'.source_unique hpairs)
    exact ⟨k, by rwa [hsockets k hnek], hpairs'.congr (hsockets k hnek) (hsources l hne)⟩
  socket_pos := by
    intro k hk
    have hne : k ≠ i := by
      rintro rfl
      rw [hclosed] at hk
      cases hk
    rw [hsockets k hne] at hk ⊢
    exact h.socket_pos k hk
  source_pos := by
    intro l hl
    have hne : l ≠ j := by
      rintro rfl
      rw [hclosed'] at hl
      cases hl
    rw [hsources l hne] at hl ⊢
    exact h.source_pos l hl
  held := by
    have hheld : heldSockets s = (s.sockets i).platformSocket ::ₘ heldSockets t :=
      heldSockets_open (fun k hk => (hsockets k hk).symm) hclosed hopen
    rw [hplatform, h.held, hheld, Multiset.erase_cons_head]

/-! ## Operations -/

/-- An allocation takes a free wait source or fails. -/
theorem elfWaitSourceAllocate_cases (s : SocketTables) (type : ElfWaitSourceType) (parent : Nat) :
    elfWaitSourceAllocate s type parent = (waitSourceInvalid, s) ∨
      ∃ j g next, (s.waitSources j).isOpen = false ∧ 0 < g ∧
        elfWaitSourceAllocate s type parent =
          (waitSourceHandle j g,
            { s.setWaitSource j { parent := parent, generation := g, type := type, isOpen := true } with
              nextWaitSourceGeneration := next }) := by
  unfold elfWaitSourceAllocate
  cases hfree : freeWaitSource s with
  | none => exact Or.inl rfl
  | some j =>
    exact Or.inr ⟨j, _, _, freeWaitSource_eq_some hfree, takeWaitSourceGeneration_pos s.nextWaitSourceGeneration, rfl⟩

/-- A platform socket that was just opened gets a handle, with a pair of free slots for it, or it is closed. -/
theorem elfSocketAllocate_cases (s : SocketTables) (platformSocket : Int) :
    ((elfSocketAllocate s platformSocket).1 < 0 ∧ (elfSocketAllocate s platformSocket).2 = s.closed platformSocket) ∨
      ∃ i j g' next, (s.sockets i).isOpen = false ∧ (s.waitSources j).isOpen = false ∧ 0 < g' ∧
        elfSocketAllocate s platformSocket =
          (socketHandle i (nextSocketGeneration (s.sockets i).generation),
            SocketTables.setSocket
              { s.setWaitSource j
                  { parent := (socketHandle i (nextSocketGeneration (s.sockets i).generation)).toNat
                    generation := g'
                    type := .socket
                    isOpen := true } with
                nextWaitSourceGeneration := next }
              i
              { platformSocket := platformSocket
                waitSource := waitSourceHandle j g'
                generation := nextSocketGeneration (s.sockets i).generation
                isOpen := true }) := by
  unfold elfSocketAllocate
  cases hfree : freeSocket s with
  | none => exact Or.inl ⟨(by decide : -emfile < 0), rfl⟩
  | some i =>
    dsimp only
    rcases elfWaitSourceAllocate_cases s .socket (socketHandle i (nextSocketGeneration (s.sockets i).generation)).toNat with
      heq | ⟨j, g', next, hclosed, hpos, heq⟩
    · rw [heq]
      dsimp only
      rw [if_pos rfl]
      exact Or.inl ⟨(by decide : -enfile < 0), rfl⟩
    · rw [heq]
      dsimp only
      rw [if_neg (waitSourceHandle_ne_invalid j g')]
      exact Or.inr ⟨i, j, g', next, freeSocket_eq_some hfree, hclosed, hpos, rfl⟩

/-- A platform socket that was just opened is closed again or held. -/
theorem Linked.allocated (h : Linked s) (platformSocket : Int) :
    Linked (elfSocketAllocate (s.opened platformSocket) platformSocket).2 := by
  rcases elfSocketAllocate_cases (s.opened platformSocket) platformSocket with
    ⟨-, heq⟩ | ⟨i, j, g', next, hclosed, hfree, hpos, heq⟩
  · rw [heq]
    exact h.congr rfl rfl (Multiset.erase_cons_head _ _)
  · rw [heq]
    set generation := nextSocketGeneration ((s.opened platformSocket).sockets i).generation with hgeneration
    have hself : ∀ f : Fin elfSocketCapacity → ElfSocket, ∀ v, Function.update f i v i = v := fun f v => Function.update_self i v f
    have hself' : ∀ f : Fin elfWaitSourceCapacity → ElfWaitSource, ∀ v, Function.update f j v j = v :=
      fun f v => Function.update_self j v f
    refine h.paired (i := i) (j := j) hclosed hfree (fun k hk => Function.update_of_ne hk _ _) (fun k hk => Function.update_of_ne hk _ _)
      ?_ ?_ ⟨?_, ?_, ?_⟩ ?_ ?_ ?_
    all_goals simp only [SocketTables.setSocket, SocketTables.setWaitSource, hself, hself']
    · exact hgeneration ▸ nextSocketGeneration_pos _
    · exact hpos
    · rfl

/-- Invalidating the wait source of a pair closes it. -/
theorem elfWaitSourceInvalidate_of_pairs (hopen : (s.waitSources j).isOpen = true) (hpos : 0 < (s.waitSources j).generation)
    (hpairs : Pairs s i j) :
    elfWaitSourceInvalidate s (s.sockets i).waitSource = s.setWaitSource j (.closed (s.waitSources j).generation) := by
  rw [elfWaitSourceInvalidate, hpairs.source_eq, elfWaitSource_waitSourceHandle hopen hpos]

theorem Linked.closedSocket (h : Linked s) (socket result : Int) : Linked (elfSocketClose s socket result).2 := by
  unfold elfSocketClose
  cases howned : elfSocket s socket with
  | none => exact h
  | some i =>
    obtain ⟨hopen, -, -⟩ := elfSocket_eq_some howned
    obtain ⟨j, hj, hpairs⟩ := h.source_of i hopen
    dsimp only
    rw [elfWaitSourceInvalidate_of_pairs hj (h.source_pos j hj) hpairs]
    refine h.unpaired hopen hpairs (fun k hk => Function.update_of_ne hk _ _) (fun k hk => Function.update_of_ne hk _ _)
      ?_ ?_ rfl
    · rw [sockets_setSocket_self]
      rfl
    · simp only [SocketTables.setSocket, SocketTables.closed, SocketTables.setWaitSource, Function.update_self, ElfWaitSource.closed]

/-- A wait source taken for another resource. -/
theorem Linked.otherAllocated (h : Linked s) {type : ElfWaitSourceType} (htype : type ≠ .socket) (parent : Nat) :
    Linked (elfWaitSourceAllocate s type parent).2 := by
  rcases elfWaitSourceAllocate_cases s type parent with heq | ⟨j, g, next, hclosed, hpos, heq⟩
  · rw [heq]
    exact h
  · rw [heq]
    refine h.otherSource (j := j) rfl rfl (fun k hk => Function.update_of_ne hk _ _) (fun hopen => ?_) fun _ => ?_
    · rw [hclosed] at hopen
      cases hopen
    · simp only [SocketTables.setWaitSource, Function.update_self]
      exact ⟨htype, hpos⟩

/-- The wait source that is found is open and of the type that was asked for. -/
theorem elfWaitSource_find {type : ElfWaitSourceType} {parent : Nat} (h : elfWaitSource s (elfWaitSourceFind s type parent) = some j) :
    (s.waitSources j).type = type := by
  unfold elfWaitSourceFind at h
  split at h
  · cases h
  next k hfound =>
  obtain ⟨-, heq⟩ := elfWaitSource_eq_some h
  obtain ⟨rfl, -⟩ := waitSourceHandle_inj.1 heq
  have hpredicate := List.find?_some hfound
  rw [Bool.and_eq_true, Bool.and_eq_true, decide_eq_true_eq] at hpredicate
  exact hpredicate.1.2

theorem Linked.otherInvalidated (h : Linked s) {type : ElfWaitSourceType} (htype : type ≠ .socket) (parent : Nat) :
    Linked (elfWaitSourceInvalidate s (elfWaitSourceFind s type parent)) := by
  unfold elfWaitSourceInvalidate
  cases howned : elfWaitSource s (elfWaitSourceFind s type parent) with
  | none => exact h
  | some j =>
    refine h.otherSource (j := j) rfl rfl (fun k hk => Function.update_of_ne hk _ _) (fun _ => ?_) fun hopen => ?_
    · rw [elfWaitSource_find howned]
      exact htype
    · simp only [SocketTables.setWaitSource, Function.update_self, ElfWaitSource.closed] at hopen
      cases hopen

theorem ElfResource.type_ne_socket (resource : ElfResource) : resource.type ≠ .socket := by cases resource <;> decide

/-- Every operation keeps the tables linked. -/
theorem Linked.step (h : Linked s) (op : SocketOperation) : Linked (socketStep s op) := by
  cases op with
  | «open» platformSocket =>
    show Linked (elfSocketOpen s platformSocket).2
    unfold elfSocketOpen
    split
    · exact h
    · exact h.allocated platformSocket
  | accept socket peerReadable accepted =>
    show Linked (elfSocketAccept s socket peerReadable accepted).2
    unfold elfSocketAccept
    cases elfSocket s socket with
    | none => exact h
    | some i =>
      dsimp only
      split
      · exact h
      split
      · exact h
      · exact h.allocated accepted
  | close socket result => exact h.closedSocket socket result
  | resourceOpen resource stream =>
    show Linked (elfResourceOpen s resource stream).2
    unfold elfResourceOpen
    split
    · exact h
    · have hallocated := h.otherAllocated resource.type_ne_socket stream.toNat
      dsimp only
      split <;> exact hallocated
  | resourceClose resource stream result =>
    show Linked (elfResourceClose s resource stream result).2
    unfold elfResourceClose
    split
    · exact h
    · exact h.otherInvalidated resource.type_ne_socket stream.toNat
  | inputWaitSource foreground =>
    show Linked (elfInputWaitSource s foreground).2
    unfold elfInputWaitSource
    split
    · exact h
    dsimp only
    split
    · exact h
    · exact h.otherAllocated (by decide) 0
  | elsewhere next => exact h.congr rfl rfl rfl

/-! ## Retired handles -/

/-- The handle of a slot under a generation is not accepted and cannot be given out again: the slot is past it. -/
def Retired (i : Fin elfSocketCapacity) (g : Nat) (s : SocketTables) : Prop :=
  g < (s.sockets i).generation ∨ g = (s.sockets i).generation ∧ (s.sockets i).isOpen = false

theorem Retired.elfSocket_eq_none (h : Retired i g s) : elfSocket s (socketHandle i g) = none := by
  cases howned : elfSocket s (socketHandle i g) with
  | none => rfl
  | some k =>
    obtain ⟨hopen, heq, -⟩ := elfSocket_eq_some howned
    obtain ⟨rfl, rfl⟩ := socketHandle_inj.1 heq
    rcases h with hlt | ⟨-, hclosed⟩
    · exact absurd hlt (Nat.lt_irrefl _)
    · rw [hclosed] at hopen
      cases hopen

/-- No generation of a socket wraps in the step. -/
def Unwrapped (s : SocketTables) (op : SocketOperation) : Prop := ∀ i, (s.sockets i).generation ≤ ((socketStep s op).sockets i).generation

instance (s : SocketTables) (op : SocketOperation) : Decidable (Unwrapped s op) :=
  decidable_of_iff (∀ i, (s.sockets i).generation ≤ ((socketStep s op).sockets i).generation) Iff.rfl

@[simp] theorem sockets_elfWaitSourceAllocate (s : SocketTables) (type : ElfWaitSourceType) (parent : Nat) :
    (elfWaitSourceAllocate s type parent).2.sockets = s.sockets := by
  rcases elfWaitSourceAllocate_cases s type parent with heq | ⟨j, g, next, -, -, heq⟩
  · rw [heq]
  · rw [heq]
    rfl

@[simp] theorem sockets_elfWaitSourceInvalidate (s : SocketTables) (source : Int) :
    (elfWaitSourceInvalidate s source).sockets = s.sockets := by
  unfold elfWaitSourceInvalidate
  split <;> rfl

theorem sockets_elfSocketAllocate_cases (s : SocketTables) (platformSocket : Int) (i : Fin elfSocketCapacity) :
    (elfSocketAllocate s platformSocket).2.sockets i = s.sockets i ∨
      ((s.sockets i).isOpen = false ∧
        ((elfSocketAllocate s platformSocket).2.sockets i).generation = nextSocketGeneration (s.sockets i).generation) := by
  rcases elfSocketAllocate_cases s platformSocket with ⟨-, heq⟩ | ⟨k, j, g', next, hclosed, -, -, heq⟩
  · rw [heq]
    exact Or.inl rfl
  · rw [heq]
    rcases eq_or_ne i k with rfl | hne
    · exact Or.inr ⟨hclosed, by rw [sockets_setSocket_self]⟩
    · exact Or.inl (sockets_setSocket_of_ne hne _ _)

/-- What a step does to a slot of the sockets: nothing, or it opens it under the next generation, or it closes it under its own. -/
theorem sockets_step_cases (s : SocketTables) (op : SocketOperation) (i : Fin elfSocketCapacity) :
    (socketStep s op).sockets i = s.sockets i ∨
      ((s.sockets i).isOpen = false ∧ ((socketStep s op).sockets i).generation = nextSocketGeneration (s.sockets i).generation) ∨
        (((socketStep s op).sockets i).isOpen = false ∧ ((socketStep s op).sockets i).generation = (s.sockets i).generation) := by
  cases op with
  | «open» platformSocket =>
    simp only [socketStep, elfSocketOpen]
    split
    · exact Or.inl rfl
    · exact (sockets_elfSocketAllocate_cases (s.opened platformSocket) platformSocket i).imp_right Or.inl
  | accept socket peerReadable accepted =>
    simp only [socketStep, elfSocketAccept]
    cases elfSocket s socket with
    | none => exact Or.inl rfl
    | some k =>
      dsimp only
      split
      · exact Or.inl rfl
      split
      · exact Or.inl rfl
      · exact (sockets_elfSocketAllocate_cases (s.opened accepted) accepted i).imp_right Or.inl
  | close socket result =>
    simp only [socketStep, elfSocketClose]
    cases elfSocket s socket with
    | none => exact Or.inl rfl
    | some k =>
      dsimp only
      rcases eq_or_ne i k with rfl | hne
      · rw [sockets_setSocket_self]
        exact Or.inr (Or.inr ⟨rfl, rfl⟩)
      · refine Or.inl ((sockets_setSocket_of_ne hne _ _).trans ?_)
        exact congrFun (sockets_elfWaitSourceInvalidate s _) i
  | resourceOpen resource stream =>
    simp only [socketStep, elfResourceOpen]
    split
    · exact Or.inl rfl
    · split <;> exact Or.inl (congrFun (sockets_elfWaitSourceAllocate s _ _) i)
  | resourceClose resource stream result =>
    simp only [socketStep, elfResourceClose]
    split
    · exact Or.inl rfl
    · exact Or.inl (congrFun (sockets_elfWaitSourceInvalidate s _) i)
  | inputWaitSource foreground =>
    simp only [socketStep, elfInputWaitSource]
    split
    · exact Or.inl rfl
    split
    · exact Or.inl rfl
    · exact Or.inl (congrFun (sockets_elfWaitSourceAllocate s _ _) i)
  | elsewhere next => exact Or.inl rfl

theorem nextSocketGeneration_eq_succ {generation : Nat} (h : generation ≤ nextSocketGeneration generation) :
    generation < nextSocketGeneration generation := by
  unfold nextSocketGeneration at h ⊢
  split at h
  · next hwrap =>
    exfalso
    simp only [elfSocketGenerationMax, elfSocketCapacity] at hwrap
    omega
  · next hwrap =>
    rw [if_neg hwrap]
    exact Nat.lt_succ_self _

/-- A retired handle stays retired. -/
theorem Retired.step (h : Retired i g s) {op : SocketOperation} (hop : Unwrapped s op) : Retired i g (socketStep s op) := by
  rcases sockets_step_cases s op i with heq | ⟨hclosed, heq⟩ | ⟨hclosed, heq⟩
  · unfold Retired
    rwa [heq]
  · have hlt := nextSocketGeneration_eq_succ (heq ▸ hop i)
    rw [← heq] at hlt
    exact Or.inl (h.elim (fun hg => Nat.lt_trans hg hlt) fun hg => hg.1 ▸ hlt)
  · unfold Retired
    rw [heq, hclosed]
    exact h.imp_right fun hg => ⟨hg.1, rfl⟩

/-- A handle is retired when its socket is closed. -/
theorem retired_close (howned : elfSocket s (socketHandle i g) = some i) (result : Int) :
    Retired i g (elfSocketClose s (socketHandle i g) result).2 := by
  obtain ⟨-, heq, -⟩ := elfSocket_eq_some howned
  obtain ⟨-, rfl⟩ := socketHandle_inj.1 heq
  unfold elfSocketClose
  rw [howned]
  dsimp only
  unfold Retired
  rw [sockets_setSocket_self]
  exact Or.inr ⟨rfl, rfl⟩

/-! ## Every run -/

/-- The operations on a socket reject a handle: nothing is asked of the platform, and nothing changes. -/
structure Rejected (s : SocketTables) (socket : Int) : Prop where
  accept : ∀ peerReadable accepted, elfSocketAccept s socket peerReadable accepted = (-ebadf, s)
  close : ∀ result, elfSocketClose s socket result = (-ebadf, s)
  waitSource : elfSocketWaitSource s socket = -ebadf
  operation : ∀ argumentsValid platform, elfSocketOperation s socket argumentsValid platform = -ebadf

theorem rejected_of_elfSocket_eq_none {socket : Int} (h : elfSocket s socket = none) : Rejected s socket where
  accept := fun _ _ => by rw [elfSocketAccept, h]
  close := fun _ => by rw [elfSocketClose, h]
  waitSource := by rw [elfSocketWaitSource, h]
  operation := fun _ _ => by rw [elfSocketOperation, h]

/-- The tables and the platform sockets that are held are those of before. -/
def Unchanged (s t : SocketTables) : Prop :=
  t.sockets = s.sockets ∧ t.waitSources = s.waitSources ∧ platformSockets t.platform = platformSockets s.platform

theorem unchanged_elfSocketAllocate (h : (elfSocketAllocate (s.opened platformSocket) platformSocket).1 < 0) :
    Unchanged s (elfSocketAllocate (s.opened platformSocket) platformSocket).2 := by
  rcases elfSocketAllocate_cases (s.opened platformSocket) platformSocket with
    ⟨-, heq⟩ | ⟨i, j, g', next, -, -, -, heq⟩
  · rw [heq]
    exact ⟨rfl, rfl, Multiset.erase_cons_head _ _⟩
  · rw [heq] at h
    exact absurd h (Int.not_lt.2 (Int.natCast_nonneg _))

/-- An open that fails changes nothing. -/
theorem unchanged_elfSocketOpen (h : (elfSocketOpen s platformSocket).1 < 0) : Unchanged s (elfSocketOpen s platformSocket).2 := by
  unfold elfSocketOpen at h ⊢
  split at h
  · next hfailed =>
    rw [if_pos hfailed]
    exact ⟨rfl, rfl, rfl⟩
  · next hopened =>
    rw [if_neg hopened]
    exact unchanged_elfSocketAllocate h

/-- An accept that fails changes nothing. -/
theorem unchanged_elfSocketAccept {socket accepted : Int} {peerReadable : Bool}
    (h : (elfSocketAccept s socket peerReadable accepted).1 < 0) : Unchanged s (elfSocketAccept s socket peerReadable accepted).2 := by
  unfold elfSocketAccept at h ⊢
  cases howned : elfSocket s socket with
  | none => exact ⟨rfl, rfl, rfl⟩
  | some i =>
    simp only [howned] at h ⊢
    split at h
    · next hpeer =>
      rw [if_pos hpeer]
      exact ⟨rfl, rfl, rfl⟩
    next hpeer =>
    rw [if_neg hpeer]
    split at h
    · next hfailed =>
      rw [if_pos hfailed]
      exact ⟨rfl, rfl, rfl⟩
    · next haccepted =>
      rw [if_neg haccepted]
      exact unchanged_elfSocketAllocate h

theorem linked_run (next : Nat) (operations : List SocketOperation) : Linked (socketRun (.created next) operations) :=
  foldl_invariant Linked (fun _ op h => h.step op) operations (linked_created next)

theorem Retired.run {operations : List SocketOperation} (h : Retired i g s) (hunwrapped : Along socketStep Unwrapped s operations) :
    Retired i g (socketRun s operations) :=
  hunwrapped.invariant (Retired i g) (fun _ _ hretired hop => hretired.step hop) h

/-- Whatever the platform answers, the open sockets and the open wait sources of sockets are paired one to one, as many platform sockets
are held as sockets are open, an open or an accept that fails changes nothing, and a handle that was closed is rejected by every later
operation unless a generation wraps. -/
theorem sockets_bookkept (next : Nat) (operations : List SocketOperation) :
    let s := socketRun (.created next) operations
    (∀ i, (s.sockets i).isOpen = true →
        ∃! j, (s.waitSources j).isOpen = true ∧ (s.waitSources j).type = .socket ∧
          (s.waitSources j).parent = (socketHandle i (s.sockets i).generation).toNat) ∧
      (∀ j, (s.waitSources j).isOpen = true → (s.waitSources j).type = .socket →
        ∃! i, (s.sockets i).isOpen = true ∧ (s.waitSources j).parent = (socketHandle i (s.sockets i).generation).toNat) ∧
        platformSockets s.platform = heldSockets s ∧ (platformSockets s.platform).card = (openSockets s).card ∧
          (∀ platformSocket, (elfSocketOpen s platformSocket).1 < 0 → Unchanged s (elfSocketOpen s platformSocket).2) ∧
            (∀ socket peerReadable accepted, (elfSocketAccept s socket peerReadable accepted).1 < 0 →
              Unchanged s (elfSocketAccept s socket peerReadable accepted).2) ∧
              ∀ socket result later, elfSocket s socket ≠ none →
                Along socketStep Unwrapped (elfSocketClose s socket result).2 later →
                  Rejected (socketRun (elfSocketClose s socket result).2 later) socket := by
  intro s
  have hlinked : Linked s := linked_run next operations
  refine ⟨fun i hi => hlinked.existsUnique_source hi, fun j hj htype => hlinked.existsUnique_socket hj htype, hlinked.held,
    hlinked.card_eq, fun platformSocket h => unchanged_elfSocketOpen h, fun socket peerReadable accepted h => unchanged_elfSocketAccept h,
    fun socket result later howned hunwrapped => ?_⟩
  obtain ⟨i, hi⟩ := Option.ne_none_iff_exists'.1 howned
  obtain ⟨-, rfl, -⟩ := elfSocket_eq_some hi
  have hretired := (retired_close hi result).run hunwrapped
  exact rejected_of_elfSocket_eq_none hretired.elfSocket_eq_none

/-- A handle is rejected after another socket took its slot. -/
theorem rejected_reopened :
    Rejected (socketRun (elfSocketClose (socketRun (.created 1) [.open 5]) 8 0).2 [.open 6, .close 17 0]) 8 :=
  (sockets_bookkept 1 [.open 5]).2.2.2.2.2.2 8 0 [.open 6, .close 17 0] (by decide +kernel) (by decide +kernel)

end Application
end TabOS
