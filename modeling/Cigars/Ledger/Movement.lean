import Mathlib.Algebra.BigOperators.Finsupp.Basic
import Mathlib.Algebra.Order.Group.Int

/-! Goods of kinds `κ` kept at places `ι` and counted in a group `N`: an inventory says how many are
where, a movement is an element to add to it, and totals are additive maps, so that what a movement does
to a total is read off its definition. -/
namespace Ledger

/-- How many goods of each kind are at each place. -/
abbrev Inventory (ι κ N : Type) [Zero N] : Type := ι × κ →₀ N

inductive Movement (ι κ N : Type)
  | deposit (place : ι) (kind : κ) (n : N)
  | withdraw (place : ι) (kind : κ) (n : N)
  | transfer (src dst : ι) (kind : κ) (n : N)

noncomputable section
variable {ι κ N : Type} [AddCommGroup N]

/-- What the movement adds to the inventory. -/
def Movement.delta : Movement ι κ N → Inventory ι κ N
  | deposit place kind n => Finsupp.single (place, kind) n
  | withdraw place kind n => -Finsupp.single (place, kind) n
  | transfer src dst kind n => Finsupp.single (dst, kind) n - Finsupp.single (src, kind) n

/-- One cell after a movement. -/
theorem Movement.delta_apply [DecidableEq ι] [DecidableEq κ] (m : Movement ι κ N) (i : ι) (k : κ) :
    m.delta (i, k) = match m with
      | deposit place kind n => if place = i ∧ kind = k then n else 0
      | withdraw place kind n => -if place = i ∧ kind = k then n else 0
      | transfer src dst kind n =>
        (if dst = i ∧ kind = k then n else 0) - if src = i ∧ kind = k then n else 0 := by
  cases m <;> simp only [delta, Finsupp.neg_apply, Finsupp.sub_apply, Finsupp.single_apply, Prod.mk.injEq]

/-- All goods in the cells that `p` holds of. -/
def total (p : ι × κ → Prop) [DecidablePred p] : Inventory ι κ N →+ N :=
  Finsupp.liftAddHom fun x => if p x then AddMonoidHom.id N else 0

@[simp] theorem total_single (p : ι × κ → Prop) [DecidablePred p] (x : ι × κ) (n : N) :
    total p (Finsupp.single x n) = if p x then n else 0 := by
  rw [total, Finsupp.liftAddHom_apply_single]
  split_ifs <;> rfl

/-- The inventory counted in another group. -/
def Inventory.map {M : Type} [AddCommGroup M] (φ : N →+ M) : Inventory ι κ N →+ Inventory ι κ M :=
  Finsupp.mapRange.addMonoidHom φ

section Map
variable {M : Type} [AddCommGroup M] (φ : N →+ M)

@[simp] theorem Inventory.map_apply (d : Inventory ι κ N) (x : ι × κ) : Inventory.map φ d x = φ (d x) := rfl

@[simp] theorem Inventory.map_single (x : ι × κ) (n : N) :
    Inventory.map φ (Finsupp.single x n) = Finsupp.single x (φ n) :=
  @Finsupp.mapRange_single _ _ _ _ _ φ (map_zero φ) x n

theorem total_map (p : ι × κ → Prop) [DecidablePred p] (d : Inventory ι κ N) :
    total p (Inventory.map φ d) = φ (total p d) := by
  induction d using Finsupp.induction_linear with
  | zero => rw [map_zero, map_zero, map_zero, map_zero]
  | add d d' hd hd' => rw [map_add, map_add, map_add, map_add, hd, hd']
  | single x n =>
    rw [Inventory.map_single, total_single, total_single]
    split_ifs
    · rfl
    · exact (map_zero φ).symm

end Map

variable [DecidableEq ι] [DecidableEq κ]

/-- All goods at one place. -/
def placeTotal (place : ι) : Inventory ι κ N →+ N := total fun x => x.1 = place

/-- All goods of one kind. -/
def kindTotal (kind : κ) : Inventory ι κ N →+ N := total fun x => x.2 = kind

omit [DecidableEq κ] in
theorem placeTotal_single (place : ι) (x : ι × κ) (n : N) :
    placeTotal place (Finsupp.single x n) = if x.1 = place then n else 0 :=
  total_single _ x n

omit [DecidableEq ι] in
theorem kindTotal_single (kind : κ) (x : ι × κ) (n : N) :
    kindTotal kind (Finsupp.single x n) = if x.2 = kind then n else 0 :=
  total_single _ x n

omit [DecidableEq ι] in
/-- Transfers keep the total of every kind. -/
theorem kindTotal_transfer (kind : κ) (src dst : ι) (k : κ) (n : N) :
    kindTotal kind (Movement.transfer src dst k n).delta = 0 := by
  rw [Movement.delta, map_sub, kindTotal_single, kindTotal_single]
  exact sub_self _

omit [DecidableEq κ] in
theorem placeTotal_transfer (place : ι) (src dst : ι) (k : κ) (n : N) :
    placeTotal place (Movement.transfer src dst k n).delta =
      (if dst = place then n else 0) - if src = place then n else 0 := by
  rw [Movement.delta, map_sub, placeTotal_single, placeTotal_single]

end
end Ledger
