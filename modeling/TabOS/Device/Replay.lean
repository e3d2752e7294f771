import TabOS.Device.Registry
import TabOS.Library.Mailbox

/-!
# The replay of device events

A subscriber that starts from the present devices and applies the events of the registry has the present devices again. Its queue is a
mailbox, so every event that was published is accounted for: it was read, or lost right before one that was read with the flag, or
since, or is unread.
-/

namespace TabOS
namespace Device

open Library Fs

/-! ## Identifiers -/

theorem slotCode_lt (slot : Fin registryCapacity) : (slot : Nat) + 1 < 63 := by
  have hslot : (slot : Nat) < 32 := slot.isLt
  omega

theorem slotCode_lt_limit (slot : Fin registryCapacity) : (slot : Nat) + 1 < idSlotLimit := Nat.lt_succ_of_lt (slotCode_lt slot)

theorem makeId_mod (r : Registry) (slot : Fin registryCapacity) : makeId r slot % idSlotLimit = slot + 1 :=
  Nat.mul_add_mod_of_lt (slotCode_lt_limit slot)

theorem makeId_div (r : Registry) (slot : Fin registryCapacity) : makeId r slot / idSlotLimit = r.registryGeneration := by
  rw [makeId, Nat.add_comm, Nat.add_mul_div_right _ _ (show 0 < idSlotLimit by decide),
    Nat.div_eq_of_lt (slotCode_lt_limit slot), Nat.zero_add]

/-- An identifier names the slot that it was made from, and no other value names it. -/
theorem decodeId_eq_some {r : Registry} {id : Nat} {slot : Fin registryCapacity} :
    decodeId r id = some slot ↔ id = makeId r slot := by
  constructor
  · intro h
    unfold decodeId at h
    split at h
    · cases h
    · dsimp only at h
      split at h
      · cases h
      · rename_i hcode
        rw [not_or, not_or, not_not] at hcode
        obtain ⟨hgeneration, hpos, hle⟩ := hcode
        have hle : id % idSlotLimit ≤ 32 := Nat.le_of_not_lt hle
        have hslot : (slot : Nat) = (id % idSlotLimit - 1) % 32 := congrArg Fin.val (Option.some.inj h).symm
        have hcode : (slot : Nat) + 1 = id % idSlotLimit := by omega
        rw [makeId, hcode, ← hgeneration, Nat.mul_comm]
        exact (Nat.div_add_mod id idSlotLimit).symm
  · rintro rfl
    have hmod := makeId_mod r slot
    have hlt := slotCode_lt slot
    have hle : (slot : Nat) + 1 ≤ registryCapacity := slot.isLt
    have hvalid : ¬(makeId r slot = idInvalid ∨ makeId r slot = 0) := by
      rintro (hinvalid | hzero)
      · rw [hinvalid, show idInvalid % idSlotLimit = 63 from rfl] at hmod
        omega
      · rw [hzero, Nat.zero_mod] at hmod
        omega
    unfold decodeId
    rw [if_neg hvalid]
    dsimp only
    rw [makeId_div, hmod, if_neg]
    · refine congrArg some (Fin.ext ?_)
      show ((slot : Nat) + 1 - 1) % registryCapacity = slot
      rw [Nat.add_sub_cancel, Nat.mod_eq_of_lt slot.isLt]
    · rintro (hnot | hzero | hlarge)
      · exact hnot rfl
      · omega
      · omega

theorem makeId_inj {r : Registry} {slot other : Fin registryCapacity} (h : makeId r slot = makeId r other) : slot = other :=
  Option.some.inj ((decodeId_eq_some.2 rfl).symm.trans (decodeId_eq_some.2 h))

/-! ## What holds of the registry -/

/-- The entries are those that were registered, each under its own identifier and name, and the present ones are counted. -/
structure Tidy (r : Registry) : Prop where
  used : ∀ slot, (r.entries slot).present = true → (r.entries slot).used = true
  id : ∀ slot, (r.entries slot).used = true → (r.entries slot).info.id = makeId r slot
  name : ∀ slot other, (r.entries slot).used = true → (r.entries other).used = true →
    (r.entries slot).info.name = (r.entries other).info.name → slot = other
  count : r.activeCount = (presentSlots r).length

variable {r r' : Registry}

/-- The active entry of an identifier is the present one that it was made for. -/
theorem Tidy.activeEntry_eq_some (h : Tidy r) {id : Nat} {slot : Fin registryCapacity} :
    activeEntry r id = some slot ↔ id = makeId r slot ∧ (r.entries slot).present = true := by
  rw [activeEntry, Option.filter_eq_some_iff, decodeId_eq_some]
  refine and_congr_right fun hid => ?_
  rw [Bool.and_eq_true, Bool.and_eq_true, decide_eq_true_eq]
  refine ⟨fun hactive => hactive.1.2, fun hpresent => ?_⟩
  have hused := h.used slot hpresent
  exact ⟨⟨hused, hpresent⟩, (h.id slot hused).trans hid.symm⟩

/-- What is known of a device is what its present entry has. -/
theorem Tidy.get_eq_some (h : Tidy r) {id : Nat} {info : DeviceInfo} :
    deviceRegistryGet r id = some info ↔
      ∃ slot, id = makeId r slot ∧ (r.entries slot).present = true ∧ (r.entries slot).info = info := by
  rw [deviceRegistryGet, Option.map_eq_some_iff]
  constructor
  · rintro ⟨slot, hactive, hinfo⟩
    obtain ⟨hid, hpresent⟩ := h.activeEntry_eq_some.1 hactive
    exact ⟨slot, hid, hpresent, hinfo⟩
  · rintro ⟨slot, hid, hpresent, hinfo⟩
    exact ⟨slot, h.activeEntry_eq_some.2 ⟨hid, hpresent⟩, hinfo⟩

theorem tidy_init (generation : Nat) : Tidy (deviceRegistryInit generation) where
  used _ h := absurd h Bool.false_ne_true
  id _ h := absurd h Bool.false_ne_true
  name _ _ h := absurd h Bool.false_ne_true
  count := rfl

/-! ## What an operation does to the devices -/

/-- What may happen to the devices in one operation, and the events about it. -/
inductive Change (r r' : Registry) : List DeviceEvent → Prop
  | none (hentries : r'.entries = r.entries) (hcount : r'.activeCount = r.activeCount) : Change r r' []
  | added (slot : Fin registryCapacity) (info : DeviceInfo) (hfree : (r.entries slot).used = false) (hid : info.id = makeId r slot)
      (hname : ∀ other, (r.entries other).used = true → (r.entries other).info.name ≠ info.name)
      (hentries : r'.entries = Function.update r.entries slot ⟨info, true, true⟩)
      (hcount : r'.activeCount = r.activeCount + 1) : Change r r' [⟨.added, 0, info⟩]
  | removed (slot : Fin registryCapacity) (hpresent : (r.entries slot).present = true)
      (hentries : r'.entries = Function.update r.entries slot { r.entries slot with present := false })
      (hcount : r'.activeCount = r.activeCount - 1) : Change r r' [⟨.removed, 0, (r.entries slot).info⟩]
  | stated (slot : Fin registryCapacity) (state lastError : Int) (hpresent : (r.entries slot).present = true)
      (hentries : r'.entries = Function.update r.entries slot
        { r.entries slot with info := { (r.entries slot).info with state := state, lastError := lastError } })
      (hcount : r'.activeCount = r.activeCount) :
      Change r r' [⟨stateEvent state, 0, { (r.entries slot).info with state := state, lastError := lastError }⟩]

/-- What an operation on the devices does: the events about it are published, and delivered to every subscription. -/
structure Published (r r' : Registry) (events : List DeviceEvent) : Prop where
  change : Change r r' events
  published : r'.published = r.published ++ events
  generation : r'.registryGeneration = r.registryGeneration
  delivered : r'.subscriptions = fun index => events.foldl (fun s event => s.deliver event) (r.subscriptions index)

theorem Published.refl (r : Registry) : Published r r [] := ⟨.none rfl rfl, (List.append_nil _).symm, rfl, rfl⟩

theorem freeEntry_eq_some {slot : Fin registryCapacity} (h : freeEntry r = some slot) : (r.entries slot).used = false := by
  have hfree := List.find?_some h
  rwa [Bool.not_eq_true'] at hfree

theorem nameUsed_eq_false {name : CString} (h : nameUsed r name = false) (slot : Fin registryCapacity)
    (hused : (r.entries slot).used = true) : (r.entries slot).info.name ≠ name := by
  intro hname
  have hany := List.any_eq_false.1 h slot (List.mem_finRange slot)
  rw [hused, Bool.true_and, decide_eq_true_eq] at hany
  exact hany hname

theorem published_registerDevice (registration : Registration) (name driver : CString) (r : Registry) :
    ∃ events, Published r (registerDevice registration name driver r).2 events := by
  unfold registerDevice
  split
  · exact ⟨[], Published.refl r⟩
  rename_i hname
  split
  · exact ⟨[], Published.refl r⟩
  · rename_i slot hfree
    exact ⟨_, Change.added slot _ (freeEntry_eq_some hfree) rfl (nameUsed_eq_false (Bool.not_eq_true _ ▸ hname)) rfl rfl, rfl, rfl, rfl⟩

theorem published_deviceRegistryRegister (registration : Option Registration) (r : Registry) :
    ∃ events, Published r (deviceRegistryRegister registration r).2 events := by
  unfold deviceRegistryRegister
  split
  · exact ⟨[], Published.refl r⟩
  · split
    · split
      · exact ⟨[], Published.refl r⟩
      · exact published_registerDevice _ _ _ r
    · exact ⟨[], Published.refl r⟩

theorem published_deviceRegistryRemove (h : Tidy r) (id : Nat) : ∃ events, Published r (deviceRegistryRemove id r).2 events := by
  unfold deviceRegistryRemove
  split
  · exact ⟨[], Published.refl r⟩
  · rename_i slot hactive
    exact ⟨_, Change.removed slot (h.activeEntry_eq_some.1 hactive).2 rfl rfl, rfl, rfl, rfl⟩

theorem published_deviceRegistrySetState (h : Tidy r) (id : Nat) (state lastError : Int) :
    ∃ events, Published r (deviceRegistrySetState id state lastError r).2 events := by
  unfold deviceRegistrySetState
  split
  · exact ⟨[], Published.refl r⟩
  split
  · exact ⟨[], Published.refl r⟩
  rename_i slot hactive
  dsimp only
  split
  · exact ⟨[], Published.refl r⟩
  · exact ⟨_, Change.stated slot state lastError (h.activeEntry_eq_some.1 hactive).2 rfl rfl, rfl, rfl, rfl⟩

/-- An operation on the subscriptions leaves the devices. -/
structure Unpublished (r r' : Registry) : Prop where
  entries : r'.entries = r.entries
  count : r'.activeCount = r.activeCount
  published : r'.published = r.published
  generation : r'.registryGeneration = r.registryGeneration

theorem Unpublished.refl (r : Registry) : Unpublished r r := ⟨rfl, rfl, rfl, rfl⟩

theorem unpublished_deviceRegistrySubscribe (owner : Option Owner) (r : Registry) :
    Unpublished r (deviceRegistrySubscribe owner r).2 := by
  unfold deviceRegistrySubscribe
  split
  · exact Unpublished.refl r
  · split
    · exact Unpublished.refl r
    · exact ⟨rfl, rfl, rfl, rfl⟩

theorem unpublished_deviceRegistryUnsubscribe (owner : Option Owner) (handle : Int) (r : Registry) :
    Unpublished r (deviceRegistryUnsubscribe owner handle r).2 := by
  unfold deviceRegistryUnsubscribe
  split
  · exact Unpublished.refl r
  · exact ⟨rfl, rfl, rfl, rfl⟩

theorem unpublished_deviceRegistryUnsubscribeOwner (owner : Option Owner) (r : Registry) :
    Unpublished r (deviceRegistryUnsubscribeOwner owner r) := by
  unfold deviceRegistryUnsubscribeOwner
  split <;> exact ⟨rfl, rfl, rfl, rfl⟩

theorem unpublished_deviceRegistryReadEvent (owner : Option Owner) (handle : Int) (r : Registry) :
    Unpublished r (deviceRegistryReadEvent owner handle r).2 := by
  unfold deviceRegistryReadEvent
  split
  · exact Unpublished.refl r
  · dsimp only
    split <;> exact ⟨rfl, rfl, rfl, rfl⟩

/-- Every operation changes the devices in one way and publishes the events about it. -/
theorem step_change (h : Tidy r) (op : Op) : ∃ events, Change r (step r op) events ∧
    (step r op).published = r.published ++ events ∧ (step r op).registryGeneration = r.registryGeneration := by
  have hpublished : ∀ r', (∃ events, Published r r' events) → ∃ events, Change r r' events ∧ r'.published = r.published ++ events ∧
      r'.registryGeneration = r.registryGeneration := by
    rintro r' ⟨events, hevents⟩
    exact ⟨events, hevents.change, hevents.published, hevents.generation⟩
  have hunpublished : ∀ r', Unpublished r r' → ∃ events, Change r r' events ∧ r'.published = r.published ++ events ∧
      r'.registryGeneration = r.registryGeneration :=
    fun r' hr' => ⟨[], .none hr'.entries hr'.count, hr'.published.trans (List.append_nil _).symm, hr'.generation⟩
  cases op with
  | register registration => exact hpublished _ (published_deviceRegistryRegister registration r)
  | remove id => exact hpublished _ (published_deviceRegistryRemove h id)
  | setState id state lastError => exact hpublished _ (published_deviceRegistrySetState h id state lastError)
  | subscribe owner => exact hunpublished _ (unpublished_deviceRegistrySubscribe owner r)
  | unsubscribe owner handle => exact hunpublished _ (unpublished_deviceRegistryUnsubscribe owner handle r)
  | unsubscribeOwner owner => exact hunpublished _ (unpublished_deviceRegistryUnsubscribeOwner owner r)
  | readEvent owner handle => exact hunpublished _ (unpublished_deviceRegistryReadEvent owner handle r)

/-! ## The devices are kept tidy -/

/-- A list without duplicates has one more element with a property when one more element has it. -/
theorem length_filter_succ {α : Type} [DecidableEq α] {l : List α} (hnodup : l.Nodup) {a : α} (hmem : a ∈ l) {p q : α → Bool}
    (hothers : ∀ b, b ≠ a → q b = p b) (hp : p a = false) (hq : q a = true) : (l.filter q).length = (l.filter p).length + 1 := by
  have hperm := List.perm_cons_erase hmem
  have herase : (l.erase a).filter q = (l.erase a).filter p :=
    List.filter_congr fun b hb => hothers b ((hnodup.mem_erase_iff.1 hb).1)
  rw [(hperm.filter q).length_eq, (hperm.filter p).length_eq, List.filter_cons_of_pos hq,
    List.filter_cons_of_neg (by rw [hp]; exact Bool.false_ne_true), List.length_cons, herase]

theorem length_presentSlots_added {slot : Fin registryCapacity} {entry : Entry}
    (hentries : r'.entries = Function.update r.entries slot entry) (hslot : (r.entries slot).present = false)
    (hentry : entry.present = true) : (presentSlots r').length = (presentSlots r).length + 1 := by
  refine length_filter_succ (List.nodup_finRange _) (List.mem_finRange slot) (fun other hother => ?_) hslot ?_
  · rw [hentries, Function.update_of_ne hother]
  · rw [hentries, Function.update_self]
    exact hentry

theorem length_presentSlots_removed {slot : Fin registryCapacity} {entry : Entry}
    (hentries : r'.entries = Function.update r.entries slot entry) (hslot : (r.entries slot).present = true)
    (hentry : entry.present = false) : (presentSlots r).length = (presentSlots r').length + 1 := by
  refine length_filter_succ (List.nodup_finRange _) (List.mem_finRange slot) (fun other hother => ?_) ?_ hslot
  · rw [hentries, Function.update_of_ne hother]
  · rw [hentries, Function.update_self]
    exact hentry

theorem presentSlots_stated {slot : Fin registryCapacity} {entry : Entry}
    (hentries : r'.entries = Function.update r.entries slot entry) (hentry : entry.present = (r.entries slot).present) :
    presentSlots r' = presentSlots r := by
  refine List.filter_congr fun other _ => ?_
  rw [hentries]
  by_cases hother : other = slot
  · rw [hother, Function.update_self, hentry]
  · rw [Function.update_of_ne hother]

/-- An entry is replaced by one that is used, under the identifier of its slot and a name that no other has. -/
theorem Tidy.update (h : Tidy r) {slot : Fin registryCapacity} {entry : Entry}
    (hentries : r'.entries = Function.update r.entries slot entry) (hgeneration : r'.registryGeneration = r.registryGeneration)
    (hused : entry.used = true) (hid : entry.info.id = makeId r slot)
    (hname : ∀ other, other ≠ slot → (r.entries other).used = true → (r.entries other).info.name ≠ entry.info.name)
    (hcount : r'.activeCount = (presentSlots r').length) : Tidy r' := by
  have hself : r'.entries slot = entry := by rw [hentries, Function.update_self]
  have hothers : ∀ other, other ≠ slot → r'.entries other = r.entries other := by
    intro other hother
    rw [hentries, Function.update_of_ne hother]
  have hid' : ∀ slot, makeId r' slot = makeId r slot := fun slot => by rw [makeId, makeId, hgeneration]
  refine ⟨fun other hpresent => ?_, fun other hother => ?_, fun first second hfirst hsecond hsame => ?_, hcount⟩
  · by_cases heq : other = slot
    · rw [heq, hself, hused]
    · rw [hothers other heq] at hpresent ⊢
      exact h.used other hpresent
  · by_cases heq : other = slot
    · rw [heq, hself, hid', hid]
    · rw [hothers other heq] at hother ⊢
      exact (h.id other hother).trans (hid' other).symm
  · by_cases hfirst' : first = slot <;> by_cases hsecond' : second = slot
    · rw [hfirst', hsecond']
    · rw [hfirst', hself, hothers second hsecond'] at hsame
      rw [hothers second hsecond'] at hsecond
      exact absurd hsame.symm (hname second hsecond' hsecond)
    · rw [hsecond', hself, hothers first hfirst'] at hsame
      rw [hothers first hfirst'] at hfirst
      exact absurd hsame (hname first hfirst' hfirst)
    · rw [hothers first hfirst'] at hfirst hsame
      rw [hothers second hsecond'] at hsecond hsame
      exact h.name first second hfirst hsecond hsame

theorem Tidy.name_ne (h : Tidy r) {slot other : Fin registryCapacity} (hslot : (r.entries slot).used = true) (hother : other ≠ slot)
    (hused : (r.entries other).used = true) : (r.entries other).info.name ≠ (r.entries slot).info.name :=
  fun hname => hother (h.name other slot hused hslot hname)

theorem Tidy.change (h : Tidy r) {events : List DeviceEvent} (hchange : Change r r' events)
    (hgeneration : r'.registryGeneration = r.registryGeneration) : Tidy r' := by
  cases hchange with
  | none hentries hcount =>
    refine ⟨?_, fun slot => ?_, ?_, ?_⟩
    · rw [hentries]
      exact h.used
    · rw [hentries, makeId, hgeneration]
      exact h.id slot
    · rw [hentries]
      exact h.name
    · rw [hcount, h.count, presentSlots, presentSlots, hentries]
  | added slot info hfree hinfo hname hentries hcount =>
    have habsent : (r.entries slot).present = false := by
      by_contra hpresent
      exact absurd (hfree.symm.trans (h.used slot (Bool.not_eq_false _ ▸ hpresent))) Bool.false_ne_true
    refine h.update hentries hgeneration rfl hinfo (fun other _ hused => hname other hused) ?_
    rw [hcount, h.count, length_presentSlots_added hentries habsent rfl]
  | removed slot hpresent hentries hcount =>
    have hused := h.used slot hpresent
    refine h.update hentries hgeneration hused (h.id slot hused) (fun other hother => h.name_ne hused hother) ?_
    rw [hcount, h.count, length_presentSlots_removed hentries hpresent rfl, Nat.add_sub_cancel]
  | stated slot state lastError hpresent hentries hcount =>
    have hused := h.used slot hpresent
    refine h.update hentries hgeneration hused (h.id slot hused) (fun other hother => h.name_ne hused hother) ?_
    rw [hcount, h.count, presentSlots_stated hentries rfl]

theorem Tidy.step (h : Tidy r) (op : Op) : Tidy (step r op) := by
  obtain ⟨events, hchange, -, hgeneration⟩ := step_change h op
  exact h.change hchange hgeneration

/-! ## What a subscriber knows -/

/-- What a subscriber knows of the devices after an event. -/
def apply (known : Nat → Option DeviceInfo) (event : DeviceEvent) : Nat → Option DeviceInfo :=
  match event.type with
  | .added => Function.update known event.device.id (some event.device)
  | .removed => Function.update known event.device.id none
  | _ => Function.update known event.device.id
      ((known event.device.id).map fun info => { info with state := event.device.state, lastError := event.device.lastError })

theorem apply_flagged (known : Nat → Option DeviceInfo) (overflow : Bool) (event : DeviceEvent) :
    apply known (event.flagged overflow) = apply known event := by
  unfold DeviceEvent.flagged
  split <;> rfl

theorem get_of_entries (hgeneration : r'.registryGeneration = r.registryGeneration) (hentries : r'.entries = r.entries) (id : Nat) :
    deviceRegistryGet r' id = deviceRegistryGet r id := by
  unfold deviceRegistryGet activeEntry decodeId
  rw [hgeneration, hentries]

/-- Replacing an entry changes what is known of its identifier and no other. -/
theorem Tidy.get_update (h : Tidy r) (h' : Tidy r') {slot : Fin registryCapacity} {entry : Entry}
    (hentries : r'.entries = Function.update r.entries slot entry) (hgeneration : r'.registryGeneration = r.registryGeneration) :
    deviceRegistryGet r' = Function.update (deviceRegistryGet r) (makeId r slot) (if entry.present then some entry.info else none) := by
  have hid : ∀ slot, makeId r' slot = makeId r slot := fun slot => by rw [makeId, makeId, hgeneration]
  funext id
  refine Option.ext fun info => ?_
  rw [h'.get_eq_some]
  by_cases hself : id = makeId r slot
  · rw [hself, Function.update_self]
    constructor
    · rintro ⟨other, hother, hpresent, hinfo⟩
      rw [hid] at hother
      obtain rfl := makeId_inj hother
      rw [hentries, Function.update_self] at hpresent hinfo
      rw [if_pos hpresent, hinfo]
    · intro hsome
      split at hsome
      · rename_i hpresent
        refine ⟨slot, (hid slot).symm, ?_, ?_⟩
        · rw [hentries, Function.update_self]
          exact hpresent
        · rw [hentries, Function.update_self]
          exact Option.some.inj hsome
      · cases hsome
  · rw [Function.update_of_ne hself, h.get_eq_some]
    refine exists_congr fun other => ?_
    rw [hid]
    refine and_congr_right fun hother => ?_
    have hne : other ≠ slot := fun heq => hself (heq ▸ hother)
    rw [hentries, Function.update_of_ne hne]

theorem apply_stateEvent (known : Nat → Option DeviceInfo) (state : Int) (flags : Nat) (device : DeviceInfo) :
    apply known ⟨stateEvent state, flags, device⟩ = Function.update known device.id
      ((known device.id).map fun info => { info with state := device.state, lastError := device.lastError }) := by
  unfold stateEvent
  split
  · rfl
  · split <;> rfl

/-- The events about a change turn what was known into what is known. -/
theorem Tidy.known (h : Tidy r) {events : List DeviceEvent} (hchange : Change r r' events)
    (hgeneration : r'.registryGeneration = r.registryGeneration) : events.foldl apply (deviceRegistryGet r) = deviceRegistryGet r' := by
  have h' := h.change hchange hgeneration
  cases hchange with
  | none hentries hcount => exact (funext (get_of_entries hgeneration hentries)).symm
  | added slot info hfree hid hname hentries hcount =>
    rw [h.get_update h' hentries hgeneration, List.foldl_cons, List.foldl_nil, ← hid]
    rfl
  | removed slot hpresent hentries hcount =>
    rw [h.get_update h' hentries hgeneration, List.foldl_cons, List.foldl_nil, ← h.id slot (h.used slot hpresent)]
    rfl
  | stated slot state lastError hpresent hentries hcount =>
    have hknown : deviceRegistryGet r (r.entries slot).info.id = some (r.entries slot).info :=
      h.get_eq_some.2 ⟨slot, h.id slot (h.used slot hpresent), hpresent, rfl⟩
    rw [h.get_update h' hentries hgeneration, List.foldl_cons, List.foldl_nil, apply_stateEvent, ← h.id slot (h.used slot hpresent)]
    dsimp only
    rw [hknown, if_pos hpresent]
    rfl

/-! ## Devices that were removed -/

/-- No operation accepts an identifier. -/
structure Rejected (r : Registry) (id : Nat) : Prop where
  remove : (deviceRegistryRemove id r).1 = false
  setState : ∀ state lastError, (deviceRegistrySetState id state lastError r).1 = false
  get : deviceRegistryGet r id = none

theorem rejected_of_activeEntry {id : Nat} (h : activeEntry r id = none) : Rejected r id where
  remove := by
    unfold deviceRegistryRemove
    rw [h]
  setState state lastError := by
    unfold deviceRegistrySetState
    rw [h]
    split <;> rfl
  get := by
    unfold deviceRegistryGet
    rw [h]
    rfl

/-- The identifier was made for an entry whose device was removed. -/
def Retired (r : Registry) (id : Nat) : Prop :=
  ∃ slot, id = makeId r slot ∧ (r.entries slot).used = true ∧ (r.entries slot).present = false

theorem Retired.rejected {id : Nat} (h : Retired r id) : Rejected r id := by
  obtain ⟨slot, hid, -, habsent⟩ := h
  refine rejected_of_activeEntry ?_
  unfold activeEntry
  rw [decodeId_eq_some.2 hid, Option.filter_some, habsent, Bool.and_false, Bool.false_and, if_neg Bool.false_ne_true]

/-- An entry whose device was removed is not used again. -/
theorem Retired.change {id : Nat} (h : Retired r id) {events : List DeviceEvent} (hchange : Change r r' events)
    (hgeneration : r'.registryGeneration = r.registryGeneration) : Retired r' id := by
  obtain ⟨slot, hid, hused, habsent⟩ := h
  have hid' : id = makeId r' slot := by rw [hid, makeId, makeId, hgeneration]
  have hkept : ∀ other entry, other ≠ slot → r'.entries = Function.update r.entries other entry → Retired r' id := by
    intro other entry hother hentries
    refine ⟨slot, hid', ?_⟩
    rw [hentries, Function.update_of_ne hother.symm]
    exact ⟨hused, habsent⟩
  cases hchange with
  | none hentries hcount =>
    refine ⟨slot, hid', ?_⟩
    rw [hentries]
    exact ⟨hused, habsent⟩
  | added other info hfree hinfo hname hentries hcount =>
    refine hkept other _ ?_ hentries
    rintro rfl
    exact absurd (hfree.symm.trans hused) Bool.false_ne_true
  | removed other hpresent hentries hcount =>
    refine hkept other _ ?_ hentries
    rintro rfl
    exact absurd (habsent.symm.trans hpresent) Bool.false_ne_true
  | stated other state lastError hpresent hentries hcount =>
    refine hkept other _ ?_ hentries
    rintro rfl
    exact absurd (habsent.symm.trans hpresent) Bool.false_ne_true

theorem Tidy.retired (h : Tidy r) {id : Nat} (hremoved : (deviceRegistryRemove id r).1 = true) :
    Retired (deviceRegistryRemove id r).2 id := by
  unfold deviceRegistryRemove at hremoved ⊢
  split at hremoved
  · cases hremoved
  · rename_i slot hactive
    obtain ⟨hid, hpresent⟩ := h.activeEntry_eq_some.1 hactive
    refine ⟨slot, hid, ?_, ?_⟩
    · show (Function.update r.entries slot { r.entries slot with present := false } slot).used = true
      rw [Function.update_self]
      exact h.used slot hpresent
    · show (Function.update r.entries slot { r.entries slot with present := false } slot).present = false
      rw [Function.update_self]

/-! ## The queue of a subscriber -/

/-- The queue of a subscription and its flag. -/
def Subscription.mailbox (s : Subscription) : Mailbox DeviceEvent := ⟨s.queue.contents, s.overflow⟩

/-- Whoever has the handle of a subscription in use. -/
structure Subscription.Held (s : Subscription) (owner : Option Owner) (generation : Nat) : Prop where
  used : s.used = true
  owner : s.owner = owner
  generation : s.generation = generation
  fits : s.queue.Fits

variable {s : Subscription} {owner : Option Owner} {generation : Nat}

theorem Subscription.Held.deliver (h : s.Held owner generation) (event : DeviceEvent) :
    (s.deliver event).Held owner generation ∧ (s.deliver event).mailbox = s.mailbox.deliver eventQueueCapacity event := by
  unfold Subscription.deliver
  rw [if_neg (by rw [h.used]; decide)]
  dsimp only
  unfold Subscription.mailbox Mailbox.deliver
  dsimp only
  rw [Queue.length_contents]
  have hle := h.fits.count_le
  by_cases hfull : s.queue.count = eventQueueCapacity
  · rw [if_pos hfull, if_pos hfull]
    have hpopped : s.queue.popFront.count < eventQueueCapacity := by
      show s.queue.count - 1 < 32
      have hfull : s.queue.count = 32 := hfull
      omega
    refine ⟨⟨h.used, h.owner, h.generation, h.fits.popFront.pushBack hpopped event⟩, ?_⟩
    dsimp only
    rw [Queue.contents_pushBack hpopped, Queue.contents_popFront h.fits]
  · rw [if_neg hfull, if_neg hfull]
    have hroom : s.queue.count < eventQueueCapacity := Nat.lt_of_le_of_ne hle hfull
    refine ⟨⟨h.used, h.owner, h.generation, h.fits.pushBack hroom event⟩, ?_⟩
    rw [Queue.contents_pushBack hroom]

theorem Subscription.Held.deliverAll (h : s.Held owner generation) (events : List DeviceEvent) :
    (events.foldl (fun s event => s.deliver event) s).Held owner generation ∧
    (events.foldl (fun s event => s.deliver event) s).mailbox =
      events.foldl (fun m event => m.deliver eventQueueCapacity event) s.mailbox := by
  induction events generalizing s with
  | nil => exact ⟨h, rfl⟩
  | cons event events ih =>
    obtain ⟨hheld, hmailbox⟩ := h.deliver event
    rw [List.foldl_cons, List.foldl_cons, ← hmailbox]
    exact ih hheld

/-! ## Handles -/

theorem toNat_subscriptionHandle (index : Fin subscriptionCapacity) (generation : Nat) :
    (subscriptionHandle index generation).toNat = pack index generation := rfl

/-- A handle names the subscription that it was made for, while its owner has it. -/
theorem ownedSubscription_eq_some {handle : Int} {index : Fin subscriptionCapacity} :
    ownedSubscription r owner handle = some index ↔ owner ≠ none ∧ (r.subscriptions index).used = true ∧
      (r.subscriptions index).owner = owner ∧ handle = subscriptionHandle index (r.subscriptions index).generation := by
  constructor
  · intro h
    unfold ownedSubscription at h
    split at h
    · cases h
    rename_i hvalid
    rw [not_or, Int.not_lt] at hvalid
    obtain ⟨hnull, hpos⟩ := hvalid
    dsimp only at h
    split at h
    · rename_i howned
      obtain rfl := Option.some.inj h
      obtain ⟨hused, howner, hgeneration⟩ := howned
      refine ⟨hnull, hused, howner, ?_⟩
      rw [hgeneration, subscriptionHandle, pack_slotOf, Int.toNat_of_nonneg hpos]
    · cases h
  · rintro ⟨hnull, hused, howner, rfl⟩
    have hvalid : ¬(owner = none ∨ subscriptionHandle index (r.subscriptions index).generation < 0) := by
      rintro (hnot | hneg)
      · exact hnull hnot
      · exact absurd (Int.natCast_nonneg _) (Int.not_le.2 hneg)
    unfold ownedSubscription
    rw [if_neg hvalid]
    dsimp only
    rw [toNat_subscriptionHandle, slotOf_pack, pack_div, if_pos ⟨hused, howner, rfl⟩]

theorem subscriptionHandle_ne_invalid (index : Fin subscriptionCapacity) (generation : Nat) :
    subscriptionHandle index generation ≠ subscriptionInvalid := by
  intro h
  have hpos : 0 ≤ subscriptionHandle index generation := Int.natCast_nonneg _
  rw [h] at hpos
  exact absurd hpos (by decide)

theorem freeSubscription_eq_some {index : Fin subscriptionCapacity} (h : freeSubscription r = some index) :
    (r.subscriptions index).used = false := by
  have hfree := List.find?_some h
  rwa [Bool.not_eq_true'] at hfree

theorem setSubscription_of_ne {index other : Fin subscriptionCapacity} (h : other ≠ index) (s : Subscription) :
    (r.setSubscription index s).subscriptions other = r.subscriptions other := Function.update_of_ne h _ _

theorem setSubscription_self (index : Fin subscriptionCapacity) (s : Subscription) :
    (r.setSubscription index s).subscriptions index = s := Function.update_self _ _ _

/-! ## What an operation does to a subscriber -/

/-- The operation does not end the subscription of an owner. -/
def Keeps (owner : Option Owner) (handle : Int) (op : Op) : Prop :=
  op ≠ .unsubscribe owner handle ∧ op ≠ .unsubscribeOwner owner

/-- Events are delivered, or the oldest one is read. -/
inductive Served (m m' : Mailbox DeviceEvent) (events read : List DeviceEvent) : Prop
  | delivered (hread : read = []) (hmailbox : m' = events.foldl (fun m event => m.deliver eventQueueCapacity event) m)
  | taken (event : DeviceEvent) (rest : List DeviceEvent) (hunread : m.unread = event :: rest)
      (hread : read = [event.flagged m.missed]) (hmailbox : m' = m.take) (hevents : events = [])

/-- The subscription is held and served. -/
structure Serves (r r' : Registry) (index : Fin subscriptionCapacity) (owner : Option Owner) (generation : Nat)
    (read : List DeviceEvent) : Prop where
  held : (r'.subscriptions index).Held owner generation
  served : ∃ events, r'.published = r.published ++ events ∧
    Served (r.subscriptions index).mailbox (r'.subscriptions index).mailbox events read

variable {index : Fin subscriptionCapacity}

theorem Serves.of_published (hheld : (r.subscriptions index).Held owner generation) {events : List DeviceEvent}
    (h : Published r r' events) : Serves r r' index owner generation [] := by
  obtain ⟨hheld', hmailbox⟩ := hheld.deliverAll events
  have hindex : r'.subscriptions index = events.foldl (fun s event => s.deliver event) (r.subscriptions index) := by
    rw [h.delivered]
  rw [← hindex] at hheld' hmailbox
  exact ⟨hheld', events, h.published, .delivered rfl hmailbox⟩

theorem Serves.of_same (hheld : (r.subscriptions index).Held owner generation) (hpublished : r'.published = r.published)
    (hsame : r'.subscriptions index = r.subscriptions index) : Serves r r' index owner generation [] := by
  rw [← hsame] at hheld
  exact ⟨hheld, [], hpublished.trans (List.append_nil _).symm, .delivered rfl (by rw [hsame]; rfl)⟩

theorem eventRead_of_ne {handle : Int} {op : Op} (h : op ≠ .readEvent owner handle) (r : Registry) :
    eventRead owner handle r op = [] := if_neg h

theorem serves_subscribe (hheld : (r.subscriptions index).Held owner generation) (other : Option Owner) :
    Serves r (deviceRegistrySubscribe other r).2 index owner generation [] := by
  have hunpublished := unpublished_deviceRegistrySubscribe other r
  refine .of_same hheld hunpublished.published ?_
  unfold deviceRegistrySubscribe
  split
  · rfl
  · split
    · rfl
    · rename_i free hfree
      refine setSubscription_of_ne ?_ _
      rintro rfl
      exact absurd ((freeSubscription_eq_some hfree).symm.trans hheld.used) Bool.false_ne_true

theorem serves_unsubscribe (hheld : (r.subscriptions index).Held owner generation) {other : Option Owner} {handle : Int}
    (hkeeps : Keeps owner (subscriptionHandle index generation) (.unsubscribe other handle)) :
    Serves r (deviceRegistryUnsubscribe other handle r).2 index owner generation [] := by
  have hunpublished := unpublished_deviceRegistryUnsubscribe other handle r
  refine .of_same hheld hunpublished.published ?_
  unfold deviceRegistryUnsubscribe
  split
  · rfl
  · rename_i closed howned
    refine setSubscription_of_ne ?_ _
    rintro rfl
    obtain ⟨-, -, howner, hhandle⟩ := ownedSubscription_eq_some.1 howned
    rw [hheld.owner] at howner
    rw [hheld.generation] at hhandle
    exact hkeeps.1 (by rw [howner, hhandle])

theorem serves_unsubscribeOwner (hheld : (r.subscriptions index).Held owner generation) {other : Option Owner} {handle : Int}
    (hkeeps : Keeps owner handle (.unsubscribeOwner other)) :
    Serves r (deviceRegistryUnsubscribeOwner other r) index owner generation [] := by
  have hunpublished := unpublished_deviceRegistryUnsubscribeOwner other r
  refine .of_same hheld hunpublished.published ?_
  unfold deviceRegistryUnsubscribeOwner
  split
  · rfl
  · dsimp only
    rw [if_neg]
    rintro ⟨-, howner⟩
    rw [hheld.owner] at howner
    exact hkeeps.2 (by rw [howner])

theorem serves_readEvent (hnull : owner ≠ none) (hheld : (r.subscriptions index).Held owner generation) (other : Option Owner)
    (handle : Int) :
    Serves r (deviceRegistryReadEvent other handle r).2 index owner generation
      (eventRead owner (subscriptionHandle index generation) r (.readEvent other handle)) := by
  have howned : ownedSubscription r owner (subscriptionHandle index generation) = some index :=
    ownedSubscription_eq_some.2 ⟨hnull, hheld.used, hheld.owner, by rw [hheld.generation]⟩
  have hunpublished := unpublished_deviceRegistryReadEvent other handle r
  by_cases hsame : other = owner ∧ handle = subscriptionHandle index generation
  · obtain ⟨rfl, rfl⟩ := hsame
    unfold eventRead
    rw [if_pos rfl]
    unfold deviceRegistryReadEvent
    rw [howned]
    dsimp only
    by_cases hempty : (r.subscriptions index).queue.count = 0
    · rw [if_pos hempty]
      exact .of_same hheld rfl rfl
    · rw [if_neg hempty]
      have hunread := Queue.contents_eq_cons hheld.fits (Nat.pos_of_ne_zero hempty)
      have hself : (r.setSubscription index { r.subscriptions index with
          queue := (r.subscriptions index).queue.popFront, overflow := false }).subscriptions index =
          { r.subscriptions index with queue := (r.subscriptions index).queue.popFront, overflow := false } :=
        setSubscription_self index _
      refine ⟨?_, [], (List.append_nil _).symm, .taken _ _ hunread rfl ?_ rfl⟩
      · rw [hself]
        exact ⟨hheld.used, hheld.owner, hheld.generation, hheld.fits.popFront⟩
      · rw [hself]
        unfold Subscription.mailbox Mailbox.take
        dsimp only
        rw [Queue.contents_popFront hheld.fits]
  · rw [eventRead_of_ne]
    · refine .of_same hheld hunpublished.published ?_
      unfold deviceRegistryReadEvent
      split
      · rfl
      · rename_i read hread
        dsimp only
        split
        · rfl
        · refine setSubscription_of_ne ?_ _
          rintro rfl
          obtain ⟨-, -, howner, hhandle⟩ := ownedSubscription_eq_some.1 hread
          rw [hheld.owner] at howner
          rw [hheld.generation] at hhandle
          exact hsame ⟨howner.symm, hhandle⟩
    · intro heq
      exact hsame (Op.readEvent.inj heq)

/-- A subscription that is held is served by every operation that does not end it. -/
theorem Subscription.Held.step (hnull : owner ≠ none) (hheld : (r.subscriptions index).Held owner generation) (h : Tidy r) {op : Op}
    (hkeeps : Keeps owner (subscriptionHandle index generation) op) :
    Serves r (step r op) index owner generation (eventRead owner (subscriptionHandle index generation) r op) := by
  cases op with
  | register registration =>
    obtain ⟨events, hevents⟩ := published_deviceRegistryRegister registration r
    exact .of_published hheld hevents
  | remove id =>
    obtain ⟨events, hevents⟩ := published_deviceRegistryRemove h id
    exact .of_published hheld hevents
  | setState id state lastError =>
    obtain ⟨events, hevents⟩ := published_deviceRegistrySetState h id state lastError
    exact .of_published hheld hevents
  | subscribe other => exact serves_subscribe hheld other
  | unsubscribe other handle => exact serves_unsubscribe hheld hkeeps
  | unsubscribeOwner other => exact serves_unsubscribeOwner hheld hkeeps
  | readEvent other handle => exact serves_readEvent hnull hheld other handle

/-! ## Runs -/

/-- What a reader gets in a reading: the message, flagged when others were lost before it. -/
def readingEvent (reading : Reading DeviceEvent) : DeviceEvent := reading.message.flagged (decide (reading.lost ≠ []))

/-- What a subscriber has been served since the registry was in a state: all events that were published since are accounted for by its
readings, those that were lost since, and its queue. -/
structure Accounted (start last : Registry) (index : Fin subscriptionCapacity) (events : List DeviceEvent)
    (readings : List (Reading DeviceEvent)) (lost : List DeviceEvent) : Prop where
  published : ∃ published, last.published = start.published ++ published ∧
    Mailbox.Accounts eventQueueCapacity (last.subscriptions index).mailbox published readings lost
  events : events = readings.map readingEvent

theorem Mailbox.Accounts.deliverAll {m : Mailbox DeviceEvent} {published : List DeviceEvent} {readings : List (Reading DeviceEvent)}
    {lost : List DeviceEvent} (h : Mailbox.Accounts eventQueueCapacity m published readings lost) (events : List DeviceEvent) :
    ∃ lost', Mailbox.Accounts eventQueueCapacity (events.foldl (fun m event => m.deliver eventQueueCapacity event) m)
      (published ++ events) readings lost' := by
  induction events generalizing m published lost with
  | nil => exact ⟨lost, by rwa [List.append_nil]⟩
  | cons event events ih =>
    obtain ⟨lost', h'⟩ := h.deliver (show 0 < eventQueueCapacity by decide) event
    obtain ⟨lost'', h''⟩ := ih h'
    exact ⟨lost'', by rwa [List.append_cons]⟩

/-- What a subscriber reads is accounted for. -/
theorem Accounted.serves {start : Registry} {events : List DeviceEvent} {readings : List (Reading DeviceEvent)}
    {lost : List DeviceEvent} (h : Accounted start r index events readings lost) {read : List DeviceEvent}
    (hserves : Serves r r' index owner generation read) :
    ∃ readings' lost', Accounted start r' index (events ++ read) readings' lost' := by
  obtain ⟨⟨published, hpublished, haccounts⟩, hevents⟩ := h
  obtain ⟨-, new, hnew, hserved⟩ := hserves
  cases hserved with
  | delivered hread hmailbox =>
    obtain ⟨lost', haccounts'⟩ := Mailbox.Accounts.deliverAll haccounts new
    refine ⟨readings, lost', ⟨published ++ new, ?_, ?_⟩, ?_⟩
    · rw [hnew, hpublished, List.append_assoc]
    · rw [hmailbox]
      exact haccounts'
    · rw [hread, List.append_nil, hevents]
  | taken event rest hunread hread hmailbox hnone =>
    refine ⟨readings ++ [⟨lost, event⟩], [], ⟨published, ?_, ?_⟩, ?_⟩
    · rw [hnew, hnone, List.append_nil, hpublished]
    · rw [hmailbox]
      exact haccounts.take hunread
    · have hmissed : (r.subscriptions index).mailbox.missed = decide (lost ≠ []) := by
        rw [Bool.eq_iff_iff, decide_eq_true_eq]
        exact haccounts.missed_iff
      rw [hread, hevents, List.map_append, hmissed]
      rfl

/-- Over a run that keeps the subscription, every event is accounted for. -/
theorem accounted_run (hnull : owner ≠ none) {start : Registry} (ops : List Op) {r : Registry} {events : List DeviceEvent}
    {readings : List (Reading DeviceEvent)} {lost : List DeviceEvent} (h : Tidy r)
    (hheld : (r.subscriptions index).Held owner generation)
    (hkeeps : ∀ op ∈ ops, Keeps owner (subscriptionHandle index generation) op) (hr : Accounted start r index events readings lost) :
    ((ops.foldl step r).subscriptions index).Held owner generation ∧
    ∃ readings' lost', Accounted start (ops.foldl step r) index
      (events ++ eventsRead owner (subscriptionHandle index generation) r ops) readings' lost' := by
  induction ops generalizing r events readings lost with
  | nil => exact ⟨hheld, readings, lost, by rwa [eventsRead, List.append_nil]⟩
  | cons op ops ih =>
    have hserves := hheld.step hnull h (hkeeps op List.mem_cons_self)
    obtain ⟨readings', lost', hr'⟩ := hr.serves hserves
    have hrest := ih (h.step op) hserves.held (fun other hmem => hkeeps other (List.mem_cons_of_mem _ hmem)) hr'
    rw [List.append_assoc] at hrest
    exact hrest

/-- All that was published in a run turns what was known at its start into what is known at its end. -/
theorem known_run (ops : List Op) {r : Registry} (h : Tidy r) : Tidy (ops.foldl step r) ∧
    ∃ published, (ops.foldl step r).published = r.published ++ published ∧
      published.foldl apply (deviceRegistryGet r) = deviceRegistryGet (ops.foldl step r) := by
  induction ops generalizing r with
  | nil => exact ⟨h, [], (List.append_nil _).symm, rfl⟩
  | cons op ops ih =>
    obtain ⟨events, hchange, hpublished, hgeneration⟩ := step_change h op
    obtain ⟨htidy, published, hpublished', hknown⟩ := ih (h.step op)
    refine ⟨htidy, events ++ published, ?_, ?_⟩
    · rw [List.foldl_cons, hpublished', hpublished, List.append_assoc]
    · rw [List.foldl_append, h.known hchange hgeneration]
      exact hknown

theorem Retired.run {id : Nat} (ops : List Op) {r : Registry} (h : Tidy r) (hretired : Retired r id) :
    Retired (ops.foldl step r) id := by
  induction ops generalizing r with
  | nil => exact hretired
  | cons op ops ih =>
    obtain ⟨events, hchange, -, hgeneration⟩ := step_change h op
    exact ih (h.step op) (hretired.change hchange hgeneration)

theorem foldl_apply_readings (known : Nat → Option DeviceInfo) (readings : List (Reading DeviceEvent)) :
    (readings.map readingEvent).foldl apply known = (readings.map Reading.message).foldl apply known := by
  induction readings generalizing known with
  | nil => rfl
  | cons reading readings ih =>
    rw [List.map_cons, List.map_cons, List.foldl_cons, List.foldl_cons, readingEvent, apply_flagged, ih]

/-- The registry's books: the present devices are counted and their names differ. -/
structure Bookkept (r : Registry) : Prop where
  count : r.activeCount = (presentSlots r).length
  names : ∀ slot other, (r.entries slot).present = true → (r.entries other).present = true →
    (r.entries slot).info.name = (r.entries other).info.name → slot = other

/-- What a subscriber has of a run: each event that was published was read in order, or lost right before one that was read with the
flag, or since, when its queue is full, or is unread; and if it never read the flag and has nothing to read, the events it read turn the
devices that were present at its start into those that are. -/
structure Replayed (start last : Registry) (owner : Option Owner) (handle : Int) (events : List DeviceEvent) : Prop where
  accounted : ∃ index, ∃ readings : List (Reading DeviceEvent), ∃ lost, ownedSubscription last owner handle = some index ∧
    last.published = start.published ++ (readings.flatMap Mailbox.messages ++
      (lost ++ (last.subscriptions index).queue.contents)) ∧
    events = readings.map readingEvent ∧ ((last.subscriptions index).overflow = true ↔ lost ≠ []) ∧
    (lost ≠ [] → (last.subscriptions index).queue.count = eventQueueCapacity)
  unflagged : ∀ event ∈ last.published, event.flags = 0
  drained : (deviceRegistryReadEvent owner handle last).1 = .error (-eagain) → (∀ event ∈ events, event.flags &&& eventOverflow = 0) →
    events.foldl apply (deviceRegistryGet start) = deviceRegistryGet last

theorem Change.unflagged {events : List DeviceEvent} (h : Change r r' events) : ∀ event ∈ events, event.flags = 0 := by
  cases h with
  | none => exact fun event hmem => absurd hmem List.not_mem_nil
  | _ =>
    intro event hmem
    rw [List.mem_singleton.1 hmem]

theorem unflagged_run (ops : List Op) {r : Registry} (h : Tidy r) (hr : ∀ event ∈ r.published, event.flags = 0) :
    ∀ event ∈ (ops.foldl step r).published, event.flags = 0 := by
  induction ops generalizing r with
  | nil => exact hr
  | cons op ops ih =>
    obtain ⟨events, hchange, hpublished, -⟩ := step_change h op
    refine ih (h.step op) fun event hmem => ?_
    rw [hpublished] at hmem
    exact (List.mem_append.1 hmem).elim (hr event) (hchange.unflagged event)

/-- A subscription that is made is held, and its queue is empty. -/
theorem subscribed (h : (deviceRegistrySubscribe owner r).1 ≠ subscriptionInvalid) : owner ≠ none ∧ ∃ index generation,
    (deviceRegistrySubscribe owner r).1 = subscriptionHandle index generation ∧
    ((deviceRegistrySubscribe owner r).2.subscriptions index).Held owner generation ∧
    ((deviceRegistrySubscribe owner r).2.subscriptions index).mailbox = .empty := by
  unfold deviceRegistrySubscribe at h ⊢
  split at h
  · exact absurd rfl h
  rename_i hnull
  split at h
  · exact absurd rfl h
  rename_i index hfree
  refine ⟨hnull, index, nextSubscriptionGeneration (r.subscriptions index).generation, ?_⟩
  rw [if_neg hnull]
  dsimp only
  rw [setSubscription_self]
  exact ⟨rfl, ⟨rfl, rfl, rfl, ⟨show 0 < 32 by decide, Nat.zero_le _⟩⟩, rfl⟩

theorem flagged_overflow (event : DeviceEvent) : (event.flagged true).flags &&& eventOverflow ≠ 0 := by
  show (event.flags ||| 1) &&& 1 ≠ 0
  rw [Nat.and_or_distrib_right, Nat.and_self]
  intro hzero
  exact absurd (Nat.or_eq_zero_iff.1 hzero).2 (by decide)

/-- A subscriber's run is accounted for. -/
theorem replayed_run {start : Registry} (h : Tidy start) (hunflagged : ∀ event ∈ start.published, event.flags = 0)
    (hnull : owner ≠ none) (hheld : (start.subscriptions index).Held owner generation)
    (hempty : (start.subscriptions index).mailbox = .empty) (ops : List Op)
    (hkeeps : ∀ op ∈ ops, Keeps owner (subscriptionHandle index generation) op) :
    Replayed start (ops.foldl step start) owner (subscriptionHandle index generation)
      (eventsRead owner (subscriptionHandle index generation) start ops) := by
  have hstart : Accounted start start index [] [] [] := by
    refine ⟨⟨[], (List.append_nil _).symm, ?_⟩, rfl⟩
    rw [hempty]
    exact Mailbox.accounts_empty _
  obtain ⟨hheld', readings, lost, ⟨published, hpublished, haccounts⟩, hevents⟩ := accounted_run hnull ops h hheld hkeeps hstart
  obtain ⟨-, published', hpublished', hknown⟩ := known_run ops h
  obtain rfl : published = published' := List.append_cancel_left (hpublished.symm.trans hpublished')
  rw [List.nil_append] at hevents
  have howned : ownedSubscription (ops.foldl step start) owner (subscriptionHandle index generation) = some index :=
    ownedSubscription_eq_some.2 ⟨hnull, hheld'.used, hheld'.owner, by rw [hheld'.generation]⟩
  refine ⟨⟨index, readings, lost, howned, ?_, hevents, haccounts.missed_iff, fun hne => ?_⟩, unflagged_run ops h hunflagged,
    fun hdrained hflags => ?_⟩
  · rw [hpublished]
    exact congrArg _ haccounts.delivered_eq
  · rw [← Queue.length_contents]
    exact haccounts.full hne
  · have hunread : ((ops.foldl step start).subscriptions index).mailbox.unread = [] := by
      unfold deviceRegistryReadEvent at hdrained
      rw [howned] at hdrained
      dsimp only at hdrained
      split at hdrained
      · rename_i hcount
        exact List.length_eq_zero_iff.1 ((Queue.length_contents _).trans hcount)
      · cases hdrained
    have hlost : ∀ reading ∈ readings, reading.lost = [] := by
      intro reading hmem
      by_contra hne
      have hflagged : readingEvent reading = reading.message.flagged true := by
        rw [readingEvent, decide_eq_true hne]
      have hclear := hflags (readingEvent reading) (by rw [hevents]; exact List.mem_map_of_mem hmem)
      rw [hflagged] at hclear
      exact flagged_overflow reading.message hclear
    rw [hevents, foldl_apply_readings, ← haccounts.complete (show 0 < eventQueueCapacity by decide) hunread hlost]
    exact hknown

/-- In every run the books are kept, the identifier of a device that was removed is rejected from then on, and each subscriber that has
not ended its subscription is replayed. -/
theorem registry_replayed (nextGeneration : Nat) (ops : List Op) :
    Bookkept (ops.foldl step (deviceRegistryInit nextGeneration)) ∧
    (∀ earlier id later, ops = earlier ++ .remove id :: later →
      (deviceRegistryRemove id (earlier.foldl step (deviceRegistryInit nextGeneration))).1 = true →
      Rejected (ops.foldl step (deviceRegistryInit nextGeneration)) id) ∧
    ∀ earlier owner later, ops = earlier ++ .subscribe owner :: later →
      let before := earlier.foldl step (deviceRegistryInit nextGeneration)
      let handle := (deviceRegistrySubscribe owner before).1
      let start := (deviceRegistrySubscribe owner before).2
      handle ≠ subscriptionInvalid → (∀ op ∈ later, Keeps owner handle op) →
      Replayed start (ops.foldl step (deviceRegistryInit nextGeneration)) owner handle (eventsRead owner handle start later) := by
  have htidy : ∀ ops : List Op, Tidy (ops.foldl step (deviceRegistryInit nextGeneration)) :=
    fun ops => (known_run ops (tidy_init nextGeneration)).1
  refine ⟨?_, ?_, ?_⟩
  · have h := htidy ops
    exact ⟨h.count, fun slot other hslot hother => h.name slot other (h.used slot hslot) (h.used other hother)⟩
  · rintro earlier id later rfl hremoved
    have hbefore := htidy earlier
    rw [List.foldl_append, List.foldl_cons]
    generalize earlier.foldl step (deviceRegistryInit nextGeneration) = before at *
    have hretired : Retired (step before (.remove id)) id := hbefore.retired hremoved
    exact (hretired.run later (hbefore.step (.remove id))).rejected
  · rintro earlier owner later rfl
    dsimp only
    intro hhandle hkeeps
    have hunflagged : ∀ event ∈ (earlier.foldl step (deviceRegistryInit nextGeneration)).published, event.flags = 0 :=
      unflagged_run earlier (tidy_init nextGeneration) fun event hmem => absurd hmem List.not_mem_nil
    have hbefore := htidy earlier
    rw [List.foldl_append, List.foldl_cons]
    generalize earlier.foldl step (deviceRegistryInit nextGeneration) = before at *
    obtain ⟨hnull, index, generation, heq, hheld, hempty⟩ := subscribed hhandle
    have hstart : Tidy (deviceRegistrySubscribe owner before).2 := hbefore.step (.subscribe owner)
    have hpublished : (deviceRegistrySubscribe owner before).2.published = before.published :=
      (unpublished_deviceRegistrySubscribe owner before).published
    rw [heq] at hkeeps ⊢
    have hreplayed := replayed_run hstart (by rw [hpublished]; exact hunflagged) hnull hheld hempty later hkeeps
    exact hreplayed

end Device
end TabOS
