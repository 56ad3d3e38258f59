import Mathlib.Data.Nat.Notation
import Mathlib.Tactic.Basic

/-! Mutable objects of one type, held by reference: a change through one reference is seen by
everyone who holds it. -/
namespace Heap

abbrev Ref : Type := ℕ

structure Store (α : Type) where
  next : Ref
  read : Ref → α

namespace Store
variable {α β : Type}

/-- Change the object behind one reference. -/
def modify (h : Store α) (r : Ref) (f : α → α) : Store α :=
  { h with read := fun a => if a = r then f (h.read a) else h.read a }

/-- Create objects, with the references to them. -/
def alloc (h : Store α) (objects : List α) : Store α × List Ref :=
  (⟨h.next + objects.length, fun a => if a < h.next then h.read a
    else objects[a - h.next]?.getD (h.read a)⟩, List.range' h.next objects.length)

/-- The objects as they are now. -/
def contents (h : Store α) (refs : List Ref) : List α := refs.map h.read

theorem length_contents (h : Store α) (refs : List Ref) : (h.contents refs).length = refs.length :=
  List.length_map _

theorem contents_alloc (h : Store α) (objects : List α) :
    (h.alloc objects).1.contents (h.alloc objects).2 = objects := by
  apply List.ext_getElem?
  intro i
  simp only [alloc, contents, List.getElem?_map]
  by_cases hi : i < objects.length
  · have hge : ¬ h.next + i < h.next := Nat.not_lt.mpr (Nat.le_add_right _ _)
    rw [List.getElem?_range' hi, Nat.one_mul, Option.map_some, if_neg hge, Nat.add_sub_cancel_left,
      List.getElem?_eq_getElem hi, Option.getD_some]
  · have hrange : (List.range' h.next objects.length)[i]? = none := by
      rw [List.getElem?_eq_none_iff, List.length_range']
      omega
    rw [hrange, List.getElem?_eq_none (by omega)]
    rfl

theorem read_alloc {h : Store α} {a : Ref} (ha : a < h.next) (objects : List α) :
    (h.alloc objects).1.read a = h.read a := if_pos ha

theorem mem_alloc {h : Store α} {objects : List α} {a : Ref} :
    a ∈ (h.alloc objects).2 ↔ h.next ≤ a ∧ a < (h.alloc objects).1.next := List.mem_range'_1

theorem read_modify_of_ne {h : Store α} {r a : Ref} (ha : a ≠ r) (f : α → α) :
    (h.modify r f).read a = h.read a := if_neg ha

/-- What a change keeps of an object is kept of every object. -/
theorem read_modify_of_keeps {f : α → α} {g : α → β} (hg : ∀ a, g (f a) = g a) (h : Store α) (r a : Ref) :
    g ((h.modify r f).read a) = g (h.read a) := by
  unfold modify
  by_cases ha : a = r
  · simp only [ha, if_true, hg]
  · simp only [ha, if_false]

theorem modify_of_fixed {h : Store α} {r : Ref} {f : α → α} (hf : f (h.read r) = h.read r) :
    h.modify r f = h := by
  have hread : (h.modify r f).read = h.read := by
    funext a
    unfold modify
    by_cases ha : a = r
    · rw [ha]
      simp only [if_true, hf]
    · simp only [ha, if_false]
  exact congrArg (Store.mk h.next) hread

end Store
end Heap
