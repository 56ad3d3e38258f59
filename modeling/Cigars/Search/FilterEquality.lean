import Cigars.Collections.ListHash
import Cigars.Rapid.Requests

/-! `equals` and `hashCode` of a list of filters. Two lists are compared after a stable sort by key,
while the hash is that of the list as it stands. -/
namespace Cigars
open Collections Heap

/-- `String.hashCode()`. -/
def stringHash (text : String) : BitVec 32 :=
  (Text.utf16 text).foldl (fun h unit => 31 * h + BitVec.ofNat 32 unit) 0

/-- `valueHash` is the platform's `hashCode()` of a value. -/
def FilterParameter.hashCode (valueHash : FilterValue → BitVec 32) (p : FilterParameter FilterValue) : BitVec 32 :=
  31 * stringHash p.key + valueHash p.value

namespace FiltersList

/-- A list is equal to itself by the comparison too. -/
def equals (ps : Parameters) (list other : List Ref) : Bool := ps.compareFilterParameters list other

def hashCode (valueHash : FilterValue → BitVec 32) (ps : Parameters) (list : List Ref) : BitVec 32 :=
  listHash (fun it => (ps.read it).hashCode valueHash) list

variable (valueHash : FilterValue → BitVec 32) (ps : Parameters)

/-- What `equals` and `hashCode` owe their callers at a list. -/
structure Lawful (list : List Ref) : Prop where
  refl : equals ps list list = true
  symm : ∀ other, equals ps list other = true → equals ps other list = true
  trans : ∀ other third, equals ps list other = true → equals ps other third = true → equals ps list third = true
  perm : ∀ other, equals ps list other = true ↔ (ps.contents list).Perm (ps.contents other)
  hash : ∀ other, equals ps list other = true → hashCode valueHash ps list = hashCode valueHash ps other

/-- The key tells the parameters apart. -/
def OneValuePerKey (list : List Ref) : Prop :=
  ∀ p ∈ ps.contents list, ∀ q ∈ ps.contents list, p.key = q.key → p = q

/-- No two parameters differ in the lower 31 bits of their hashes. -/
def OneHash (list : List Ref) : Prop :=
  ∀ p ∈ list, ∀ q ∈ list, ((ps.read p).hashCode valueHash).toNat % 2 ^ 31 =
    ((ps.read q).hashCode valueHash).toNat % 2 ^ 31

variable {valueHash ps} {list : List Ref}

theorem perm_of_equals {other : List Ref} (h : equals ps list other = true) :
    (ps.contents list).Perm (ps.contents other) :=
  perm_of_sortedBy_eq ((ps.compareFilterParameters_iff_sorted list other).mp h)

theorem hashCode_eq (valueHash : FilterValue → BitVec 32) (ps : Parameters) (list : List Ref) :
    hashCode valueHash ps list = listHash (FilterParameter.hashCode valueHash) (ps.contents list) :=
  (listHash_map (FilterParameter.hashCode valueHash) ps.read list).symm

theorem equals_iff_perm (h : OneValuePerKey ps list) (other : List Ref) :
    equals ps list other = true ↔ (ps.contents list).Perm (ps.contents other) := by
  unfold equals
  rw [ps.compareFilterParameters_iff_sorted]
  apply sortedBy_eq_iff
  intro p hp q hq hkey
  exact h p hp q hq (FilterParameter.sortKey_inj.mp hkey)

/-- Some order of the same parameters is not equal unless the key tells them apart. -/
theorem oneValuePerKey_of_perm (h : ∀ other, list.Perm other → equals ps list other = true) :
    OneValuePerKey ps list := by
  have hsorted : ∀ other, list.Perm other → sortedBy FilterParameter.sortKey (list.map ps.read) =
      sortedBy FilterParameter.sortKey (other.map ps.read) := by
    intro other hperm
    exact (ps.compareFilterParameters_iff_sorted list other).mp (h other hperm)
  have hkeys := (sortedBy_map_perm_iff FilterParameter.sortKey ps.read list).mp hsorted
  intro p hp q hq hkey
  obtain ⟨a, ha, rfl⟩ := List.mem_map.mp hp
  obtain ⟨b, hb, rfl⟩ := List.mem_map.mp hq
  exact hkeys a ha b hb (FilterParameter.sortKey_inj.mpr hkey)

/-- A list of filters is compared and hashed by its contents exactly when no key has two values and
all parameters have the same hash, up to its highest bit. -/
theorem lawful_iff (valueHash : FilterValue → BitVec 32) (ps : Parameters) (list : List Ref) :
    Lawful valueHash ps list ↔ OneValuePerKey ps list ∧ OneHash valueHash ps list := by
  constructor
  · intro h
    have hperm : ∀ other, list.Perm other → equals ps list other = true :=
      fun other hother => (h.perm other).mpr (hother.map ps.read)
    refine ⟨oneValuePerKey_of_perm hperm, ?_⟩
    apply (listHash_perm_iff _ list).mp
    intro other hother
    exact h.hash other (hperm other hother)
  · rintro ⟨hkeys, hhash⟩
    have hsorted := ps.compareFilterParameters_iff_sorted
    refine ⟨(hsorted list list).mpr rfl, fun other h => ?_, fun other third h h' => ?_, equals_iff_perm hkeys,
      fun other h => ?_⟩
    · exact (hsorted other list).mpr ((hsorted list other).mp h).symm
    · exact (hsorted list third).mpr (((hsorted list other).mp h).trans ((hsorted other third).mp h'))
    · rw [hashCode_eq, hashCode_eq]
      apply listHash_of_perm _ (perm_of_equals h)
      simp only [Store.contents, List.forall_mem_map]
      exact hhash

/-- Three names and a brand. -/
def nameAndBrand : Parameters := ⟨4, fun r =>
  if r = 0 then ⟨"name", .other "Siglo"⟩ else if r = 1 then ⟨"brand", .other "Siglo"⟩
  else if r = 2 then ⟨"name", .other "Lusitania"⟩ else ⟨"name", .other "avihko"⟩⟩

/-- The hash of a text value. -/
def textHash : FilterValue → BitVec 32
  | .other text => stringHash text
  | _ => 0

/-- The last name happens to hash as the brand does. -/
theorem lawful_sameHash : equals nameAndBrand [1, 3] [3, 1] = true ∧ Lawful textHash nameAndBrand [1, 3] := by
  refine ⟨by decide, (lawful_iff textHash nameAndBrand [1, 3]).mpr ⟨?_, ?_⟩⟩
  · unfold OneValuePerKey
    decide
  · unfold OneHash
    decide

/-- A name and a brand are equal in both orders and have two hashes; two names are equal in one
order only. -/
theorem not_lawful_swapped :
    equals nameAndBrand [0, 1] [1, 0] = true ∧
      hashCode textHash nameAndBrand [0, 1] ≠ hashCode textHash nameAndBrand [1, 0] ∧
      equals nameAndBrand [0, 2] [2, 0] = false ∧
      ¬ Lawful textHash nameAndBrand [0, 1] ∧ ¬ Lawful textHash nameAndBrand [0, 2] := by
  have hequal : equals nameAndBrand [0, 1] [1, 0] = true := by decide
  have hhash : hashCode textHash nameAndBrand [0, 1] ≠ hashCode textHash nameAndBrand [1, 0] := by decide
  have hunequal : equals nameAndBrand [0, 2] [2, 0] = false := by decide
  refine ⟨hequal, hhash, hunequal, fun h => hhash (h.hash [1, 0] hequal), fun h => ?_⟩
  have hsame : equals nameAndBrand [0, 2] [2, 0] = true := (h.perm [2, 0]).mpr (.swap _ _ _)
  rw [hunequal] at hsame
  cases hsame

end FiltersList
end Cigars
