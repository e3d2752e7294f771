import Mathlib.Data.List.Basic

/-!
# Mailboxes that lose the oldest messages

A mailbox of fixed capacity holds the messages that have not been read. A message that is delivered to a full one pushes the oldest
out, and the next message that is read comes with a flag for it. `Accounts` accounts for every message that was delivered: it was read,
or lost right before one that was read or since, or is unread.
-/

namespace Library

/-- The messages that have not been read, the oldest first, and whether any were lost since one was read. -/
structure Mailbox (α : Type*) where
  unread : List α
  missed : Bool

/-- What a reader has got: a message, behind those that were lost right before it. -/
structure Reading (α : Type*) where
  lost : List α
  message : α

namespace Mailbox

variable {α : Type*}

/-- An empty mailbox. -/
def empty : Mailbox α := ⟨[], false⟩

/-- Deliver a message. -/
def deliver (capacity : Nat) (message : α) (m : Mailbox α) : Mailbox α :=
  if m.unread.length = capacity then ⟨m.unread.tail ++ [message], true⟩ else ⟨m.unread ++ [message], m.missed⟩

/-- Take the oldest message out. -/
def take (m : Mailbox α) : Mailbox α := ⟨m.unread.tail, false⟩

/-- The messages of a reading in the order of their delivery. -/
def messages (r : Reading α) : List α := r.lost ++ [r.message]

/-- What was delivered is, in order, what was read, each message behind those that were lost before it, what was lost since, and what is
unread. Messages are lost while the mailbox is full. -/
structure Accounts (capacity : Nat) (m : Mailbox α) (delivered : List α) (readings : List (Reading α)) (lost : List α) : Prop where
  delivered_eq : delivered = readings.flatMap messages ++ (lost ++ m.unread)
  missed_iff : m.missed = true ↔ lost ≠ []
  full : lost ≠ [] → m.unread.length = capacity
  length_le : m.unread.length ≤ capacity

variable {capacity : Nat} {m : Mailbox α} {delivered : List α} {readings : List (Reading α)} {lost : List α}

theorem accounts_empty (capacity : Nat) : Accounts capacity (empty : Mailbox α) [] [] [] where
  delivered_eq := rfl
  missed_iff := iff_of_false Bool.false_ne_true fun h => h rfl
  full h := absurd rfl h
  length_le := Nat.zero_le capacity

/-- What is delivered to a full mailbox loses the oldest message that is unread. -/
theorem Accounts.deliver (h : Accounts capacity m delivered readings lost) (hcapacity : 0 < capacity) (message : α) :
    ∃ lost', Accounts capacity (m.deliver capacity message) (delivered ++ [message]) readings lost' := by
  unfold Mailbox.deliver
  by_cases hfull : m.unread.length = capacity
  · rw [if_pos hfull]
    cases hunread : m.unread with
    | nil =>
      rw [hunread, List.length_nil] at hfull
      omega
    | cons oldest rest =>
      rw [hunread, List.length_cons] at hfull
      refine ⟨lost ++ [oldest], ⟨?_, iff_of_true rfl (List.append_ne_nil_of_right_ne_nil _ (List.cons_ne_nil _ _)), ?_, ?_⟩⟩
      · rw [h.delivered_eq, hunread]
        simp only [List.tail_cons, List.append_assoc, List.cons_append, List.nil_append]
      · intro _
        rw [List.tail_cons, List.length_append, List.length_singleton]
        exact hfull
      · rw [List.tail_cons, List.length_append, List.length_singleton]
        exact Nat.le_of_eq hfull
  · rw [if_neg hfull]
    have hlost : lost = [] := by
      by_contra hne
      exact hfull (h.full hne)
    refine ⟨lost, ⟨?_, h.missed_iff, fun hne => absurd hlost hne, ?_⟩⟩
    · rw [h.delivered_eq]
      simp only [List.append_assoc]
    · have hle := h.length_le
      rw [List.length_append, List.length_singleton]
      omega

/-- A message that is read comes with those that were lost before it. -/
theorem Accounts.take (h : Accounts capacity m delivered readings lost) {message : α} {rest : List α}
    (hunread : m.unread = message :: rest) : Accounts capacity m.take delivered (readings ++ [⟨lost, message⟩]) [] where
  delivered_eq := by
    rw [h.delivered_eq, hunread]
    simp only [Mailbox.take, hunread, messages, List.flatMap_append, List.flatMap_singleton, List.append_assoc, List.tail_cons,
      List.nil_append, List.cons_append]
  missed_iff := iff_of_false Bool.false_ne_true fun hne => hne rfl
  full hne := absurd rfl hne
  length_le := by
    have hle := h.length_le
    rw [hunread, List.length_cons] at hle
    rw [Mailbox.take, hunread, List.tail_cons]
    show rest.length ≤ capacity
    omega

theorem flatMap_messages (h : ∀ r ∈ readings, r.lost = []) : readings.flatMap messages = readings.map Reading.message := by
  induction readings with
  | nil => rfl
  | cons r readings ih =>
    rw [List.flatMap_cons, List.map_cons, messages, h r List.mem_cons_self, List.nil_append,
      ih fun other hmem => h other (List.mem_cons_of_mem _ hmem)]
    rfl

/-- A reader that has read everything and was never told of a loss has read what was delivered. -/
theorem Accounts.complete (h : Accounts capacity m delivered readings lost) (hcapacity : 0 < capacity) (hunread : m.unread = [])
    (hlost : ∀ r ∈ readings, r.lost = []) : delivered = readings.map Reading.message := by
  have hnone : lost = [] := by
    by_contra hne
    have hfull := h.full hne
    rw [hunread, List.length_nil] at hfull
    omega
  rw [h.delivered_eq, hnone, hunread, flatMap_messages hlost, List.append_nil, List.append_nil]

end Mailbox
end Library
