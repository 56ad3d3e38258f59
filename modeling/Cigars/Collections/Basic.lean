import Mathlib.Algebra.BigOperators.Group.List.Basic
import Mathlib.Data.List.Forall2

/-! Lists with one element replaced, sums over lists, and computations that may fail. -/
namespace Collections

/-! ### Computations that may fail -/

section Outcomes
variable {ε α β : Type}

theorem exists_of_map_ok {x : Except ε α} {f : α → β} {b : β} (h : x.map f = .ok b) : ∃ a, x = .ok a ∧ f a = b := by
  cases x with
  | error e => cases h
  | ok a => exact ⟨a, rfl, Except.ok.inj h⟩

theorem exists_of_bind_ok {x : Except ε α} {f : α → Except ε β} {b : β} (h : x >>= f = .ok b) :
    ∃ a, x = .ok a ∧ f a = .ok b := by
  cases x with
  | error e => cases h
  | ok a => exact ⟨a, rfl, h⟩

theorem exists_ok_bind (x : Except ε α) (f : α → Except ε β) :
    (∃ b, x >>= f = .ok b) ↔ ∃ a, x = .ok a ∧ ∃ b, f a = .ok b := by
  constructor
  · rintro ⟨b, hb⟩
    obtain ⟨a, ha, hf⟩ := exists_of_bind_ok hb
    exact ⟨a, ha, b, hf⟩
  · rintro ⟨a, rfl, hf⟩
    exact hf

theorem exists_ok_map (x : Except ε α) (f : α → β) : (∃ b, x.map f = .ok b) ↔ ∃ a, x = .ok a := by
  constructor
  · rintro ⟨b, hb⟩
    obtain ⟨a, ha, -⟩ := exists_of_map_ok hb
    exact ⟨a, ha⟩
  · rintro ⟨a, rfl⟩
    exact ⟨f a, rfl⟩

theorem exists_mapM_ok {f : α → Except ε β} {xs : List α} (h : ∀ x ∈ xs, ∃ y, f x = .ok y) :
    ∃ ys, xs.mapM f = .ok ys := by
  induction xs with
  | nil => exact ⟨[], rfl⟩
  | cons x xs ih =>
    obtain ⟨y, hy⟩ := h x List.mem_cons_self
    obtain ⟨ys, hys⟩ := ih fun x hx => h x (List.mem_cons_of_mem _ hx)
    refine ⟨y :: ys, ?_⟩
    rw [List.mapM_cons, hy, hys]
    rfl

theorem forall_of_mapM_ok {f : α → Except ε β} {P : β → Prop} (hf : ∀ x y, f x = .ok y → P y) {xs : List α}
    {ys : List β} (h : xs.mapM f = .ok ys) : ∀ y ∈ ys, P y := by
  induction xs generalizing ys with
  | nil =>
    cases h
    simp
  | cons x xs ih =>
    rw [List.mapM_cons] at h
    obtain ⟨y, hy, hrest⟩ := exists_of_bind_ok h
    obtain ⟨rest, hys, hcons⟩ := exists_of_bind_ok hrest
    cases hcons
    exact List.forall_mem_cons.mpr ⟨hf x y hy, ih hys⟩

end Outcomes

/-! ### One element replaced -/

section Set
variable {α β : Type} {l : List α} {i : ℕ} {a b : α}

theorem any_set (p : α → Bool) (hi : i < l.length) (a : α) : (l.set i a).any p = (p a || (l.eraseIdx i).any p) := by
  rw [List.set_eq_take_append_cons_drop, if_pos hi, List.eraseIdx_eq_take_drop_succ, List.any_append,
    List.any_append, List.any_cons, Bool.or_left_comm]

theorem map_set_of_same {f : α → β} (h : l[i]? = some a) (hf : f b = f a) : (l.set i b).map f = l.map f := by
  apply List.ext_getElem?
  intro j
  rw [List.getElem?_map, List.getElem?_map]
  by_cases hij : i = j
  · rw [← hij, List.getElem?_set_self (List.getElem?_eq_some_iff.mp h).1, h, Option.map_some, Option.map_some, hf]
  · rw [List.getElem?_set_ne hij]

theorem mem_set_cases (h : b ∈ l.set i a) : b = a ∨ ∃ j, j ≠ i ∧ l[j]? = some b := by
  obtain ⟨j, hj⟩ := List.mem_iff_getElem?.mp h
  by_cases hij : i = j
  · left
    rw [hij, List.getElem?_set_self'] at hj
    obtain ⟨_, _, heq⟩ := Option.map_eq_some_iff.mp hj
    exact heq.symm
  · right
    rw [List.getElem?_set_ne hij] at hj
    exact ⟨j, Ne.symm hij, hj⟩

end Set

/-! ### Sums and searches -/

section Sums
variable {α β N : Type} [AddCommMonoid N]

theorem sum_map_filter_of_zero (p : α → Bool) (g : α → N) {l : List α} (h : ∀ x ∈ l, p x = false → g x = 0) :
    ((l.filter p).map g).sum = (l.map g).sum := by
  induction l with
  | nil => rfl
  | cons x l ih =>
    have ih := ih fun y hy => h y (List.mem_cons_of_mem x hy)
    cases hp : p x with
    | true => rw [List.filter_cons_of_pos hp, List.map_cons, List.map_cons, List.sum_cons, List.sum_cons, ih]
    | false =>
      rw [List.filter_cons_of_neg (by simp [hp]), List.map_cons, List.sum_cons,
        h x List.mem_cons_self hp, zero_add, ih]

theorem sum_map_eq_of_forall₂ {P : α → β → Prop} {f : α → N} {g : β → N} {l : List α} {l' : List β}
    (hall : List.Forall₂ P l l') (h : ∀ a ∈ l, ∀ b, P a b → f a = g b) : (l.map f).sum = (l'.map g).sum := by
  induction hall with
  | nil => rfl
  | @cons a b l l' hab hrest ih =>
    have ih := ih fun a' ha' b' hab' => h a' (List.mem_cons_of_mem a ha') b' hab'
    rw [List.map_cons, List.map_cons, List.sum_cons, List.sum_cons, ih, h a List.mem_cons_self b hab]

end Sums

/-- Lists that are as long together as longer ones are each as long. -/
theorem length_flatMap_eq {α β γ : Type} {f : α → List β} {g : α → List γ} {l : List α}
    (hle : ∀ a, (g a).length ≤ (f a).length) :
    (l.flatMap g).length ≤ (l.flatMap f).length ∧
      ((l.flatMap f).length = (l.flatMap g).length → ∀ a ∈ l, (f a).length = (g a).length) := by
  induction l with
  | nil => simp
  | cons a l ih =>
    have ha := hle a
    obtain ⟨hsum, hrest⟩ := ih
    simp only [List.flatMap_cons, List.length_append, List.forall_mem_cons]
    refine ⟨by omega, fun heq => ⟨by omega, hrest (by omega)⟩⟩

/-- A search over a range stops at the first index that meets the condition. -/
theorem findSome?_range' {β : Type} {P : ℕ → Prop} [DecidablePred P] (g : ℕ → β) {start length i : ℕ}
    (hi : start ≤ i) (hlength : i < start + length) (hbefore : ∀ j, start ≤ j → j < i → ¬ P j) (hP : P i) :
    ((List.range' start length).findSome? fun i => if P i then some (g i) else none) = some (g i) := by
  have hsplit : List.range' start length = List.range' start (i - start) ++
      i :: List.range' (i + 1) (start + length - i - 1) := by
    have hcons : i :: List.range' (i + 1) (start + length - i - 1) = List.range' i (start + length - i) := by
      rw [← List.range'_succ]
      congr 1
      omega
    have happend := List.range'_append_1 (s := start) (m := i - start) (n := start + length - i)
    rw [Nat.add_sub_cancel' hi] at happend
    rw [hcons, happend]
    congr 1
    omega
  rw [List.findSome?_eq_some_iff]
  refine ⟨_, i, _, hsplit, if_pos hP, fun j hj => if_neg ?_⟩
  obtain ⟨hle, hlt⟩ := List.mem_range'_1.mp hj
  exact hbefore j hle (by omega)

end Collections
