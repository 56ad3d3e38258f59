import Cigars.Collections.SortedBy
import Mathlib.Data.BitVec
import Mathlib.Tactic.LinearCombination

/-! The hash of a list: thirty-one times the hash so far plus the hash of the next element, in 32
bits. It depends on the order of the elements unless their hashes agree in the lower 31 bits. -/
namespace Collections

variable {α β : Type}

def listHash (hash : α → BitVec 32) (l : List α) : BitVec 32 := l.foldl (fun h a => 31 * h + hash a) 1

theorem listHash_map (hash : β → BitVec 32) (f : α → β) (l : List α) :
    listHash hash (l.map f) = listHash (fun a => hash (f a)) l := List.foldl_map

theorem isUnit_fifteen : IsUnit (15 : BitVec 32) := .of_mul_eq_one 4008636143 (by decide)

theorem isUnit_thirtyOne : IsUnit (31 : BitVec 32) := .of_mul_eq_one 3186588639 (by decide)

theorem two_mul_inj {x y : BitVec 32} : 2 * x = 2 * y ↔ x.toNat % 2 ^ 31 = y.toNat % 2 ^ 31 := by
  have htwo : (2 : BitVec 32).toNat = 2 := rfl
  rw [← BitVec.toNat_inj, BitVec.toNat_mul, BitVec.toNat_mul, htwo]
  omega

/-- Thirty is twice an odd number. -/
theorem thirty_mul_inj {x y : BitVec 32} : 30 * x = 30 * y ↔ x.toNat % 2 ^ 31 = y.toNat % 2 ^ 31 := by
  rw [← two_mul_inj]
  constructor
  · intro h
    apply isUnit_fifteen.mul_left_cancel
    linear_combination h
  · intro h
    linear_combination 15 * h

theorem foldl_hash_inj {hash : α → BitVec 32} {l : List α} {x y : BitVec 32}
    (h : l.foldl (fun h a => 31 * h + hash a) x = l.foldl (fun h a => 31 * h + hash a) y) : x = y := by
  induction l generalizing x y with
  | nil => exact h
  | cons a l ih =>
    have hstep : 31 * x + hash a = 31 * y + hash a := ih h
    apply isUnit_thirtyOne.mul_left_cancel
    linear_combination hstep

theorem listHash_of_perm {hash : α → BitVec 32} {l l' : List α}
    (h : ∀ a ∈ l, ∀ b ∈ l, (hash a).toNat % 2 ^ 31 = (hash b).toNat % 2 ^ 31) (hperm : l.Perm l') :
    listHash hash l = listHash hash l' := by
  apply hperm.foldl_eq'
  intro a ha b hb z
  have hsame := thirty_mul_inj.mpr (h a ha b hb)
  linear_combination hsame

/-- The hash is the same in every order exactly when the hashes of the elements agree in the lower
31 bits. -/
theorem listHash_perm_iff (hash : α → BitVec 32) (l : List α) :
    (∀ l', l.Perm l' → listHash hash l = listHash hash l') ↔
      ∀ a ∈ l, ∀ b ∈ l, (hash a).toNat % 2 ^ 31 = (hash b).toNat % 2 ^ 31 := by
  constructor
  · intro h a ha b hb
    by_cases hab : a = b
    · rw [hab]
    · obtain ⟨rest, hperm⟩ := exists_perm_cons_cons ha hb hab
      have hswap := (h _ hperm).symm.trans (h _ (hperm.trans (List.Perm.swap b a rest)))
      have hfront : 31 * (31 * 1 + hash a) + hash b = 31 * (31 * 1 + hash b) + hash a := foldl_hash_inj hswap
      apply thirty_mul_inj.mp
      linear_combination hfront
  · intro h l' hperm
    exact listHash_of_perm h hperm

end Collections
