import Mathlib.Data.List.Nodup

/-! A mutable set whose elements are equal when a part of them is, their key. Adding an element
that equals a stored one changes nothing. -/
namespace Collections

/-- The only element that meets a condition is what the condition leaves of the list. -/
theorem filter_eq_singleton {α : Type} {l : List α} {p : α → Bool} {a : α} (hl : l.Nodup) (ha : a ∈ l)
    (hp : ∀ x ∈ l, p x = true ↔ x = a) : l.filter p = [a] := by
  induction l with
  | nil => cases ha
  | cons b l ih =>
    obtain ⟨hb, hl⟩ := List.nodup_cons.mp hl
    have hrest : ∀ x ∈ l, p x = true ↔ x = a := fun x hx => hp x (List.mem_cons_of_mem b hx)
    by_cases hba : b = a
    · have hnone : l.filter p = [] := by
        rw [List.filter_eq_nil_iff]
        intro x hx hpx
        exact hb (hba ▸ (hrest x hx).mp hpx ▸ hx)
      rw [List.filter_cons_of_pos ((hp b List.mem_cons_self).mpr hba), hnone, hba]
    · have hal : a ∈ l := (List.mem_cons.mp ha).resolve_left fun he => hba he.symm
      have hpb : ¬p b = true := fun hpb => hba ((hp b List.mem_cons_self).mp hpb)
      rw [List.filter_cons_of_neg hpb, ih hl hal hrest]

structure KeyedSet {α κ : Type} (key : α → κ) where
  elements : List α
  keys : (elements.map key).Nodup

namespace KeyedSet
variable {α κ : Type} {key : α → κ}

theorem nodup (s : KeyedSet key) : s.elements.Nodup := List.Nodup.of_map key s.keys

variable [DecidableEq κ]

def empty : KeyedSet key := ⟨[], List.nodup_nil⟩

/-- Whether the element was new, and the set with it. -/
def add (a : α) (s : KeyedSet key) : Bool × KeyedSet key :=
  if h : key a ∈ s.elements.map key then (false, s)
  else (true, ⟨s.elements ++ [a], by
    rw [List.map_append, List.map_singleton, List.nodup_append]
    refine ⟨s.keys, List.nodup_singleton _, ?_⟩
    intro k hk k' hk' heq
    rw [List.mem_singleton] at hk'
    exact h (hk' ▸ heq ▸ hk)⟩)

/-- Takes out the element that equals `a`. -/
def remove (a : α) (s : KeyedSet key) : KeyedSet key where
  elements := s.elements.filter fun x => key x ≠ key a
  keys := (List.filter_sublist.map key).nodup s.keys

variable {s : KeyedSet key} {a x : α}

theorem add_fst : (s.add a).1 = true ↔ key a ∉ s.elements.map key := by
  unfold add
  split_ifs with h
  · simp [h]
  · simp [h]

theorem mem_add_of_new (h : key a ∉ s.elements.map key) :
    x ∈ (s.add a).2.elements ↔ x = a ∨ x ∈ s.elements := by
  unfold add
  rw [dif_neg h, List.mem_append, List.mem_singleton]
  exact or_comm

theorem add_of_stored (h : key a ∈ s.elements.map key) : (s.add a).2 = s := by
  unfold add
  rw [dif_pos h]

theorem mem_remove : x ∈ (s.remove a).elements ↔ x ∈ s.elements ∧ key x ≠ key a := by
  unfold remove
  rw [List.mem_filter, decide_eq_true_eq]

theorem key_notMem_remove : key a ∉ (s.remove a).elements.map key := by
  intro h
  obtain ⟨x, hx, heq⟩ := List.mem_map.mp h
  exact (mem_remove.mp hx).2 heq

/-- Adding, and if the element was not new, removing the stored one and adding again. -/
def replace (a : α) (s : KeyedSet key) : KeyedSet key :=
  let added := s.add a
  if added.1 then added.2 else ((added.2.remove a).add a).2

/-- The new element stands in the place of the one it equals. -/
theorem mem_replace : x ∈ (s.replace a).elements ↔ x = a ∨ (x ∈ s.elements ∧ key x ≠ key a) := by
  unfold replace
  by_cases h : key a ∈ s.elements.map key
  · have hold : ¬(s.add a).1 = true := fun hnew => add_fst.mp hnew h
    simp only [hold, if_false, Bool.false_eq_true]
    rw [add_of_stored h, mem_add_of_new key_notMem_remove, mem_remove]
  · simp only [add_fst.mpr h, if_true]
    rw [mem_add_of_new h]
    refine or_congr_right (and_iff_left_of_imp fun hx heq => ?_).symm
    exact h (List.mem_map.mpr ⟨x, hx, heq⟩)

end KeyedSet
end Collections
