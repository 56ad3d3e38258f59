import Mathlib.Data.List.Sort

/-! Sorting by a key. Lists whose keys tell the elements apart are rearrangements of one another
exactly when they are equal once sorted. -/
namespace Collections

section InsertionSort
variable {α : Type} {r : α → α → Prop} [DecidableRel r] [IsTrans α r]

private theorem filter_orderedInsert (p : α → Bool) (a : α) {l : List α} (hl : l.Pairwise r) :
    (l.orderedInsert r a).filter p =
      if p a then (l.filter p).orderedInsert r a else l.filter p := by
  induction l with
  | nil => cases hp : p a <;> simp [hp]
  | cons b l ih =>
    obtain ⟨hb, hl⟩ := List.pairwise_cons.mp hl
    rw [List.orderedInsert_cons]
    by_cases hab : r a b
    · -- The element goes in front of all that are kept.
      have hfront : (List.filter p (b :: l)).orderedInsert r a = a :: List.filter p (b :: l) := by
        cases hkept : List.filter p (b :: l) with
        | nil => rfl
        | cons c kept =>
          have hc : c ∈ b :: l := List.mem_of_mem_filter (hkept ▸ List.mem_cons_self)
          have hac : r a c := by
            rcases List.mem_cons.mp hc with rfl | hc
            · exact hab
            · exact Trans.trans hab (hb c hc)
          rw [List.orderedInsert_cons_of_le r kept hac]
      rw [if_pos hab, hfront, List.filter_cons]
    · rw [if_neg hab, List.filter_cons, ih hl]
      cases hp : p b with
      | false => simp [hp]
      | true => cases p a <;> simp [hp, hab]

/-- It makes no difference whether elements are left out before or after sorting. -/
theorem filter_insertionSort [Std.Total r] (p : α → Bool) (l : List α) :
    (l.insertionSort r).filter p = (l.filter p).insertionSort r := by
  induction l with
  | nil => rfl
  | cons a l ih =>
    rw [List.insertionSort_cons, filter_orderedInsert p a (List.pairwise_insertionSort _ l), ih,
      List.filter_cons]
    cases p a <;> rfl

end InsertionSort

variable {α β κ : Type} [LinearOrder κ]

/-- Elements of equal keys keep their order. -/
def sortedBy (key : α → κ) (l : List α) : List α := l.insertionSort fun a b => key a ≤ key b

instance instTotalKey (key : α → κ) : Std.Total fun a b => key a ≤ key b where
  total a b := le_total (key a) (key b)

instance instIsTransKey (key : α → κ) : IsTrans α fun a b => key a ≤ key b where
  trans _ _ _ hab hbc := le_trans hab hbc

theorem perm_sortedBy (key : α → κ) (l : List α) : (sortedBy key l).Perm l := List.perm_insertionSort _ l

theorem map_sortedBy (key : β → κ) (f : α → β) (l : List α) :
    (sortedBy (fun a => key (f a)) l).map f = sortedBy key (l.map f) := by
  unfold sortedBy
  apply List.map_insertionSort
  intro a _ b _
  exact Iff.rfl

theorem perm_of_sortedBy_eq {key : α → κ} {l l' : List α} (h : sortedBy key l = sortedBy key l') : l.Perm l' := by
  have hl := perm_sortedBy key l
  rw [h] at hl
  exact hl.symm.trans (perm_sortedBy key l')

theorem sortedBy_eq_iff {key : α → κ} {l l' : List α} (h : ∀ a ∈ l, ∀ b ∈ l, key a = key b → a = b) :
    sortedBy key l = sortedBy key l' ↔ l.Perm l' := by
  constructor
  · exact perm_of_sortedBy_eq
  · intro hperm
    have hsorted : (sortedBy key l).Perm (sortedBy key l') :=
      (perm_sortedBy key l).trans (hperm.trans (perm_sortedBy key l').symm)
    apply hsorted.eq_of_pairwise _ (List.pairwise_insertionSort _ l) (List.pairwise_insertionSort _ l')
    intro a b ha hb hab hba
    have ha' : a ∈ l := (perm_sortedBy key l).mem_iff.mp ha
    have hb' : b ∈ l := hperm.mem_iff.mpr ((perm_sortedBy key l').mem_iff.mp hb)
    exact h a ha' b hb' (le_antisymm hab hba)

/-- The elements of one key, in the order they had. -/
theorem filter_sortedBy (key : α → κ) (k : κ) (l : List α) :
    (sortedBy key l).filter (fun a => key a = k) = l.filter fun a => key a = k := by
  unfold sortedBy
  rw [filter_insertionSort]
  apply List.Pairwise.insertionSort_eq
  apply List.pairwise_of_forall_mem_list
  intro a ha b hb
  have hka : key a = k := of_decide_eq_true (List.mem_filter.mp ha).2
  have hkb : key b = k := of_decide_eq_true (List.mem_filter.mp hb).2
  rw [hka, hkb]

/-- Two elements of a list can be brought to its front. -/
theorem exists_perm_cons_cons {l : List α} {a b : α} (ha : a ∈ l) (hb : b ∈ l) (hne : a ≠ b) :
    ∃ rest, l.Perm (a :: b :: rest) := by
  obtain ⟨l₁, l₂, rfl⟩ := List.append_of_mem ha
  have hperm : (l₁ ++ a :: l₂).Perm (a :: (l₁ ++ l₂)) := List.perm_middle
  have hb' : b ∈ l₁ ++ l₂ := (List.mem_cons.mp (hperm.mem_iff.mp hb)).resolve_left hne.symm
  obtain ⟨l₃, l₄, heq⟩ := List.append_of_mem hb'
  refine ⟨l₃ ++ l₄, hperm.trans (List.Perm.cons a ?_)⟩
  rw [heq]
  exact List.perm_middle

/-- Sorting gives the same for every order exactly when the keys tell the elements apart. -/
theorem sortedBy_map_perm_iff (key : β → κ) (f : α → β) (l : List α) :
    (∀ l', l.Perm l' → sortedBy key (l.map f) = sortedBy key (l'.map f)) ↔
      ∀ a ∈ l, ∀ b ∈ l, key (f a) = key (f b) → f a = f b := by
  constructor
  · intro h a ha b hb hkey
    by_contra hne
    obtain ⟨rest, hperm⟩ := exists_perm_cons_cons ha hb fun hab => hne (congrArg f hab)
    have hswap := (h _ hperm).symm.trans (h _ (hperm.trans (List.Perm.swap b a rest)))
    have hfilter := congrArg (List.filter fun c => key c = key (f a)) hswap
    simp only [filter_sortedBy, List.map_cons] at hfilter
    rw [List.filter_cons_of_pos (by simp), List.filter_cons_of_pos (by simp [hkey]),
      List.filter_cons_of_pos (by simp [hkey])] at hfilter
    exact hne (List.cons.inj hfilter).1
  · intro h l' hperm
    apply (sortedBy_eq_iff _).mpr (hperm.map f)
    simpa only [List.forall_mem_map] using h

/-- Lists of one length agree in every place exactly when they are equal. -/
theorem all_zip_iff {eq : α → α → Bool} {f : α → β} (heq : ∀ a b, eq a b = true ↔ f a = f b) {l l' : List α}
    (hlength : l.length = l'.length) :
    ((l.zip l').all fun p => eq p.1 p.2) = true ↔ l.map f = l'.map f := by
  induction l generalizing l' with
  | nil =>
    cases l' with
    | nil => simp
    | cons b l' => cases hlength
  | cons a l ih =>
    cases l' with
    | nil => cases hlength
    | cons b l' =>
      have hrest : l.length = l'.length := Nat.succ.inj hlength
      rw [List.zip_cons_cons, List.all_cons, Bool.and_eq_true, heq, ih hrest, List.map_cons, List.map_cons,
        List.cons.injEq]

end Collections
