import Cigars.Collections.SortedBy
import Mathlib.Data.List.Infix
import Mathlib.Data.List.Pairwise
import Mathlib.Data.List.Sort
import Mathlib.Data.Nat.Notation

/-! The parts of a `SELECT`: three-valued conditions, `LIKE`, `ORDER BY` over values of mixed
type, and `LIMIT ... OFFSET`. -/
namespace Sql

/-- A truth value; `none` is `NULL`. -/
abbrev Truth : Type := Option Bool

namespace Truth

def and : Truth → Truth → Truth
  | some false, _ => some false
  | _, some false => some false
  | some true, some true => some true
  | _, _ => none

@[simp] theorem and_eq_true (a b : Truth) : a.and b = some true ↔ a = some true ∧ b = some true := by
  rcases a with _ | _ | _ <;> rcases b with _ | _ | _ <;> decide

end Truth

/-- `%` stands for any characters and `_` for one; the letters of the Latin alphabet match in
both cases. -/
def likeChars : List Char → List Char → Bool
  | [], s => s.isEmpty
  | c :: p, s =>
    if c = '%' then s.tails.any (likeChars p)
    else match s with
      | [] => false
      | x :: s => (c = '_' || c.toLower = x.toLower) && likeChars p s

/-- `value LIKE pattern`. -/
def like (value : Option String) (pattern : String) : Truth :=
  value.map fun s => likeChars pattern.toList s.toList

/-- `value >= bound`; texts compare bytewise, which is the order of their code points. -/
def ge {α : Type} [LE α] [DecidableLE α] (value : Option α) (bound : α) : Truth :=
  value.map fun v => decide (bound ≤ v)

theorem likeChars_percent {p s t : List Char} (hs : t <:+ s) (h : likeChars p t = true) :
    likeChars ('%' :: p) s = true := by
  have hany : s.tails.any (likeChars p) = true :=
    List.any_eq_true.mpr ⟨t, (List.mem_tails t s).mpr hs, h⟩
  simpa only [likeChars, if_true] using hany

/-- The pattern `%%` matches every text and no `NULL`. -/
theorem like_anything (value : Option String) : like value "%%" = some true ↔ value.isSome = true := by
  cases value with
  | none => simp [like]
  | some s =>
    have hlast : likeChars ['%'] s.toList = true := likeChars_percent List.nil_suffix rfl
    have hlike : likeChars "%%".toList s.toList = true := likeChars_percent List.suffix_rfl hlast
    rw [like, Option.map_some, hlike]
    simp

theorem ge_eq_true {α : Type} [LE α] [DecidableLE α] (value : Option α) (bound : α) :
    ge value bound = some true ↔ ∃ v, value = some v ∧ bound ≤ v := by
  cases value with
  | none => simp [ge]
  | some v => simp [ge]

/-- A value an `ORDER BY` compares. -/
inductive Value
  | null
  | integer (n : ℤ)
  | text (s : String)
  deriving DecidableEq

namespace Value

def ofInteger (n : Option ℤ) : Value := n.elim null integer

def ofText (s : Option String) : Value := s.elim null text

/-- `NULL` comes before every integer, and integers before every text. -/
def le : Value → Value → Bool
  | null, _ => true
  | _, null => false
  | integer a, integer b => decide (a ≤ b)
  | integer _, text _ => true
  | text _, integer _ => false
  | text a, text b => decide (a ≤ b)

theorem le_total (a b : Value) : a.le b = true ∨ b.le a = true := by
  cases a <;> cases b <;> simp [le, Int.le_total, String.le_total]

theorem le_trans {a b c : Value} (hab : a.le b = true) (hbc : b.le c = true) : a.le c = true := by
  cases a <;> cases b <;> cases c <;> simp_all [le]
  · exact Int.le_trans hab hbc
  · exact String.le_trans hab hbc

theorem le_antisymm {a b : Value} (hab : a.le b = true) (hba : b.le a = true) : a = b := by
  cases a <;> cases b <;> simp_all [le]
  · exact Int.le_antisymm hab hba
  · exact String.le_antisymm hab hba

theorem le_refl (a : Value) : a.le a = true := (le_total a a).elim id id

end Value

inductive Direction
  | asc
  | desc
  deriving DecidableEq

/-- The first value may come before the second. -/
def Direction.le : Direction → Value → Value → Bool
  | asc, a, b => a.le b
  | desc, a, b => b.le a

namespace Direction
variable {ρ : Type} (dir : Direction) (key : ρ → Value)

instance : Std.Total fun a b : ρ => dir.le (key a) (key b) = true where
  total a b := by
    cases dir with
    | asc => exact Value.le_total _ _
    | desc => exact Value.le_total _ _

instance : IsTrans ρ fun a b => dir.le (key a) (key b) = true where
  trans a b c hab hbc := by
    cases dir with
    | asc => exact Value.le_trans hab hbc
    | desc => exact Value.le_trans hbc hab

theorem le_self (v : Value) : dir.le v v = true := by
  cases dir with
  | asc => exact v.le_refl
  | desc => exact v.le_refl

end Direction

/-- Sorted by the key; rows of equal keys stay in storage order. -/
def orderBy {ρ : Type} (dir : Direction) (key : ρ → Value) (rows : List ρ) : List ρ :=
  match dir with
  | .asc => rows.insertionSort fun a b => (key a).le (key b) = true
  | .desc => rows.insertionSort fun a b => (key b).le (key a) = true

theorem perm_orderBy {ρ : Type} (dir : Direction) (key : ρ → Value) (rows : List ρ) :
    (orderBy dir key rows).Perm rows := by
  cases dir with
  | asc => exact List.perm_insertionSort _ rows
  | desc => exact List.perm_insertionSort _ rows

theorem orderBy_eq_insertionSort {ρ : Type} (dir : Direction) (key : ρ → Value) (rows : List ρ) :
    orderBy dir key rows = rows.insertionSort fun a b => dir.le (key a) (key b) = true := by
  cases dir with
  | asc => rfl
  | desc => rfl

theorem pairwise_orderBy {ρ : Type} (dir : Direction) (key : ρ → Value) (rows : List ρ) :
    (orderBy dir key rows).Pairwise fun a b => dir.le (key a) (key b) = true := by
  rw [orderBy_eq_insertionSort]
  exact List.pairwise_insertionSort _ _

/-- Sorting does not see what the key does not see. -/
theorem orderBy_map {ρ : Type} (dir : Direction) {key : ρ → Value} {g : ρ → ρ} (hg : ∀ r, key (g r) = key r)
    (rows : List ρ) : orderBy dir key (rows.map g) = (orderBy dir key rows).map g := by
  simp only [orderBy_eq_insertionSort]
  apply (List.map_insertionSort _ _ g rows _).symm
  intro a _ b _
  rw [hg, hg]

/-- Sorting is stable: it makes no difference whether rows are left out before or after it. -/
theorem filter_orderBy {ρ : Type} (p : ρ → Bool) (dir : Direction) (key : ρ → Value) (rows : List ρ) :
    (orderBy dir key rows).filter p = orderBy dir key (rows.filter p) := by
  simp only [orderBy_eq_insertionSort]
  exact Collections.filter_insertionSort p rows

/-- A list sorted in both directions holds one value only. -/
theorem pairwise_le_iff {dir dir' : Direction} {vs : List Value}
    (hvs : vs.Pairwise fun v w => dir.le v w = true) :
    (vs.Pairwise fun v w => dir'.le v w = true) ↔ dir' = dir ∨ ∀ v ∈ vs, ∀ w ∈ vs, v = w := by
  constructor
  · intro hvs'
    by_cases hdir : dir' = dir
    · exact Or.inl hdir
    · right
      have heq : vs.Pairwise fun v w => v = w := by
        refine (hvs.and hvs').imp ?_
        rintro v w ⟨h, h'⟩
        cases dir <;> cases dir'
        · exact absurd rfl hdir
        · exact Value.le_antisymm h h'
        · exact Value.le_antisymm h' h
        · exact absurd rfl hdir
      exact fun v hv w hw => heq.forall_of_forall (fun _ _ => rfl) hv hw
  · rintro (rfl | heq)
    · exact hvs
    · refine List.Pairwise.imp_of_mem (R := fun _ _ => True) ?_ (List.pairwise_of_forall fun _ _ => trivial)
      intro v w hv hw _
      rw [heq v hv w hw]
      exact dir'.le_self w

/-- The rows of which the condition is true, neither false nor `NULL`. -/
def whereTrue {ρ : Type} (cond : ρ → Truth) (rows : List ρ) : List ρ :=
  rows.filter fun r => cond r = some true

def limitOffset {α : Type} (limit offset : ℕ) (rows : List α) : List α := (rows.drop offset).take limit

end Sql
