import Mathlib.Data.List.Nodup

/-!
# Passes over a memory

A loop whose steps change every place of a memory by its own value alone is, at each place, a loop over that value. When the steps move a
position along a line, at most one of them comes to a given position, and the loop does there what this step does.
-/

namespace Library

variable {ι κ α : Type*}

/-- A loop over a memory is a loop over the value of each of its places. -/
theorem foldl_apply {f : (ι → α) → κ → ι → α} (g : ι → α → κ → α) (h : ∀ memory k i, f memory k i = g i (memory i) k) (l : List κ)
    (memory : ι → α) (i : ι) : l.foldl f memory i = l.foldl (g i) (memory i) := by
  induction l generalizing memory with
  | nil => rfl
  | cons k l ih =>
    rw [List.foldl_cons, List.foldl_cons, ih, h]

/-- Steps that leave a value. -/
theorem foldl_eq_self {g : α → κ → α} {l : List κ} (h : ∀ k ∈ l, ∀ v, g v k = v) (v : α) : l.foldl g v = v := by
  induction l with
  | nil => rfl
  | cons k l ih =>
    rw [List.foldl_cons, h k List.mem_cons_self]
    exact ih fun k' hmem => h k' (List.mem_cons_of_mem _ hmem)

/-- Of distinct steps only one changes the value. -/
theorem foldl_eq_once {g : α → κ → α} {l : List κ} (hnodup : l.Nodup) {k : κ} (hk : k ∈ l)
    (hother : ∀ k' ∈ l, k' ≠ k → ∀ v, g v k' = v) (v : α) : l.foldl g v = g v k := by
  induction l generalizing v with
  | nil => exact absurd hk List.not_mem_nil
  | cons k' l ih =>
    obtain ⟨hnot, hrest⟩ := List.nodup_cons.1 hnodup
    rw [List.foldl_cons]
    by_cases heq : k' = k
    · subst heq
      refine foldl_eq_self (fun k'' hmem => ?_) _
      exact hother k'' (List.mem_cons_of_mem _ hmem) fun heq => hnot (heq ▸ hmem)
    · rw [hother k' List.mem_cons_self heq]
      refine ih hrest ((List.mem_cons.1 hk).resolve_left fun h => heq h.symm) (fun k'' hmem => ?_) v
      exact hother k'' (List.mem_cons_of_mem _ hmem)

/-- A position lies on the line of a length from `start` on. -/
def OnLine (start : Int) (length : Nat) (x : Int) : Prop := start ≤ x ∧ x < start + length

instance (start : Int) (length : Nat) (x : Int) : Decidable (OnLine start length x) := inferInstanceAs (Decidable (_ ∧ _))

/-- Steps along a line: the value is changed by the step that comes to the position `x`, if one does. -/
theorem foldl_line {g : α → Nat → α} (hit : Nat → α → α) {l : List Nat} (hnodup : l.Nodup) {start : Int} {length : Nat} {x : Int}
    (hl : ∀ k : Nat, start + k = x → (k ∈ l ↔ k < length)) (hhit : ∀ k ∈ l, start + k = x → ∀ v, g v k = hit k v)
    (hmiss : ∀ k ∈ l, start + k ≠ x → ∀ v, g v k = v) (v : α) :
    l.foldl g v = if OnLine start length x then hit (x - start).toNat v else v := by
  by_cases hin : OnLine start length x
  · obtain ⟨hlow, hhigh⟩ := id hin
    rw [if_pos hin]
    have hk : start + ((x - start).toNat : Int) = x := by omega
    have hmem := (hl (x - start).toNat hk).2 (by omega)
    rw [foldl_eq_once hnodup hmem fun k hmem' hne => hmiss k hmem' (by omega)]
    exact hhit _ hmem hk v
  · rw [if_neg hin]
    refine foldl_eq_self (fun k hmem => hmiss k hmem fun hk => hin ?_) v
    have hless := (hl k hk).1 hmem
    exact ⟨by omega, by omega⟩

end Library
