import Mathlib.Algebra.BigOperators.Group.List.Basic
import Mathlib.Algebra.Order.Group.Int
import Mathlib.Tactic.Abel

/-! Tables under a primary key: rows in storage order, the statements that read and write
them by key, and what each statement does to a lookup and to a sum over the rows. -/
namespace Sql

private theorem nodup_keys_append {κ ρ : Type} {rows : List (κ × ρ)} {k : κ} (r : ρ)
    (hn : (rows.map Prod.fst).Nodup) (hk : k ∉ rows.map Prod.fst) :
    ((rows ++ [(k, r)]).map Prod.fst).Nodup := by
  rw [List.map_append, List.nodup_append]
  refine ⟨hn, by simp, fun a ha b hb hab => hk ?_⟩
  have hb' : b = k := by simpa using hb
  rwa [← hb', ← hab]

private theorem lookup_append_fresh {κ ρ : Type} [DecidableEq κ] {rows : List (κ × ρ)} {k : κ}
    (r : ρ) (h : rows.lookup k = none) (k' : κ) :
    (rows ++ [(k, r)]).lookup k' = if k' = k then some r else rows.lookup k' := by
  rw [List.lookup_append]
  split_ifs with hk
  · rw [hk, h, List.lookup_cons_self]
    rfl
  · have hb : (k' == k) = false := by simpa using hk
    rw [List.lookup_cons, hb, List.lookup_nil, Option.or_none]

/-- Rows in storage order. No two rows share a primary key. -/
@[ext] structure Table (κ ρ : Type) where
  rows : List (κ × ρ)
  nodup : (rows.map Prod.fst).Nodup
  deriving DecidableEq

namespace Table
variable {κ ρ : Type} [DecidableEq κ]

def empty : Table κ ρ := ⟨[], List.nodup_nil⟩

/-- `SELECT * ... WHERE key = k`: at most one row. -/
def find? (t : Table κ ρ) (k : κ) : Option ρ := t.rows.lookup k

/-- `SELECT count(1) ... WHERE key = k`, compared with zero. -/
def contains (t : Table κ ρ) (k : κ) : Bool := (t.find? k).isSome

/-- `UPDATE ... WHERE key = k`. The key columns are not among the columns set. -/
def update (t : Table κ ρ) (k : κ) (f : ρ → ρ) : Table κ ρ where
  rows := t.rows.map fun r => if r.1 = k then (r.1, f r.2) else r
  nodup := by
    have hk : (t.rows.map fun r => if r.1 = k then (r.1, f r.2) else r).map Prod.fst =
        t.rows.map Prod.fst := by
      rw [List.map_map]
      refine List.map_congr_left fun r _ => ?_
      dsimp only [Function.comp]
      split_ifs <;> rfl
    rw [hk]
    exact t.nodup

/-- `DELETE ... WHERE key = k`. -/
def erase (t : Table κ ρ) (k : κ) : Table κ ρ where
  rows := t.rows.filter fun r => r.1 ≠ k
  nodup := t.nodup.sublist (List.filter_sublist.map Prod.fst)

/-- `INSERT`: refused when the key is taken, otherwise the row is stored last. -/
def insert? (t : Table κ ρ) (k : κ) (r : ρ) : Option (Table κ ρ) :=
  if h : k ∈ t.rows.map Prod.fst then none
  else some ⟨t.rows ++ [(k, r)], nodup_keys_append r t.nodup h⟩

theorem find?_eq_none_iff (t : Table κ ρ) (k : κ) : t.find? k = none ↔ k ∉ t.rows.map Prod.fst := by
  unfold find?
  rw [List.lookup_eq_none_iff]
  simp only [List.mem_map, not_exists, not_and, bne_iff_ne, ne_eq]
  exact ⟨fun h r hr he => h r hr he.symm, fun h r hr he => h r hr he.symm⟩

/-- The row found splits the table; the key occurs on neither side of it. -/
theorem exists_split {t : Table κ ρ} {k : κ} {r : ρ} (h : t.find? k = some r) :
    ∃ l₁ l₂, t.rows = l₁ ++ (k, r) :: l₂ ∧ (∀ x ∈ l₁, x.1 ≠ k) ∧ ∀ x ∈ l₂, x.1 ≠ k := by
  obtain ⟨l₁, l₂, hrows, hl₁⟩ := List.lookup_eq_some_iff.mp h
  refine ⟨l₁, l₂, hrows, fun x hx he => ?_, fun x hx he => ?_⟩
  · exact absurd (hl₁ x hx) (by simp [he])
  · have hn := t.nodup
    rw [hrows, List.map_append, List.map_cons, List.nodup_append, List.nodup_cons] at hn
    exact hn.2.1.1 (List.mem_map.mpr ⟨x, hx, he⟩)

theorem mem_rows_iff (t : Table κ ρ) (k : κ) (r : ρ) : (k, r) ∈ t.rows ↔ t.find? k = some r := by
  constructor
  · intro hm
    cases hf : t.find? k with
    | none => exact absurd (List.mem_map.mpr ⟨_, hm, rfl⟩) ((find?_eq_none_iff t k).mp hf)
    | some r' =>
      obtain ⟨l₁, l₂, hrows, h₁, h₂⟩ := exists_split hf
      rw [hrows, List.mem_append, List.mem_cons] at hm
      rcases hm with hm | hm | hm
      · exact absurd rfl (h₁ _ hm)
      · rw [(Prod.mk.inj hm).2]
      · exact absurd rfl (h₂ _ hm)
  · intro hf
    obtain ⟨l₁, l₂, hrows, -⟩ := exists_split hf
    simp [hrows]

theorem contains_iff (t : Table κ ρ) (k : κ) : t.contains k = true ↔ ∃ r, t.find? k = some r := by
  rw [contains, Option.isSome_iff_exists]

theorem contains_eq_false_iff (t : Table κ ρ) (k : κ) : t.contains k = false ↔ t.find? k = none := by
  rw [contains, Option.isSome_eq_false_iff, Option.isNone_iff_eq_none]

theorem rows_update_of_split {t : Table κ ρ} {k : κ} {r : ρ} (f : ρ → ρ) {l₁ l₂ : List (κ × ρ)}
    (hrows : t.rows = l₁ ++ (k, r) :: l₂) (h₁ : ∀ x ∈ l₁, x.1 ≠ k) (h₂ : ∀ x ∈ l₂, x.1 ≠ k) :
    (t.update k f).rows = l₁ ++ (k, f r) :: l₂ := by
  have hid : ∀ l : List (κ × ρ), (∀ x ∈ l, x.1 ≠ k) →
      l.map (fun r => if r.1 = k then (r.1, f r.2) else r) = l := by
    intro l hl
    conv_rhs => rw [← List.map_id l]
    exact List.map_congr_left fun x hx => by simp [hl x hx]
  simp only [update, hrows, List.map_append, List.map_cons, hid l₁ h₁, hid l₂ h₂, if_true]

theorem rows_erase_of_split {t : Table κ ρ} {k : κ} {r : ρ} {l₁ l₂ : List (κ × ρ)}
    (hrows : t.rows = l₁ ++ (k, r) :: l₂) (h₁ : ∀ x ∈ l₁, x.1 ≠ k) (h₂ : ∀ x ∈ l₂, x.1 ≠ k) :
    (t.erase k).rows = l₁ ++ l₂ := by
  have hid : ∀ l : List (κ × ρ), (∀ x ∈ l, x.1 ≠ k) → l.filter (fun r => r.1 ≠ k) = l := by
    intro l hl
    exact List.filter_eq_self.mpr fun x hx => by simp [hl x hx]
  have h₁' := hid l₁ h₁
  have h₂' := hid l₂ h₂
  simp only [erase, hrows, List.filter_append, List.filter_cons, h₁', h₂', ne_eq, not_true_eq_false,
    decide_false, Bool.false_eq_true, if_false]

theorem update_of_find?_none {t : Table κ ρ} {k : κ} (f : ρ → ρ) (h : t.find? k = none) :
    t.update k f = t := by
  have hk := (find?_eq_none_iff t k).mp h
  ext1
  conv_rhs => rw [← List.map_id t.rows]
  refine List.map_congr_left fun x hx => ?_
  have : x.1 ≠ k := fun he => hk (List.mem_map.mpr ⟨x, hx, he⟩)
  simp [this]

theorem map_fst_update (t : Table κ ρ) (k : κ) (f : ρ → ρ) :
    (t.update k f).rows.map Prod.fst = t.rows.map Prod.fst := by
  simp only [update, List.map_map]
  refine List.map_congr_left fun r _ => ?_
  by_cases hr : r.1 = k
  · simp only [Function.comp_apply, if_pos hr]
  · simp only [Function.comp_apply, if_neg hr]

theorem update_congr {t : Table κ ρ} {k : κ} {f g : ρ → ρ} (h : ∀ r, t.find? k = some r → f r = g r) :
    t.update k f = t.update k g := by
  ext1
  refine List.map_congr_left fun x hx => ?_
  split_ifs with hk
  · rw [h x.2 (hk ▸ (mem_rows_iff t x.1 x.2).mp hx)]
  · rfl

theorem find?_update (t : Table κ ρ) (k k' : κ) (f : ρ → ρ) :
    (t.update k f).find? k' = if k' = k then (t.find? k).map f else t.find? k' := by
  cases hf : t.find? k with
  | none =>
    rw [update_of_find?_none f hf]
    split_ifs with hk
    · rw [hk, hf]; rfl
    · rfl
  | some r =>
    obtain ⟨l₁, l₂, hrows, h₁, h₂⟩ := exists_split hf
    unfold find?
    rw [rows_update_of_split f hrows h₁ h₂, hrows]
    split_ifs with hk
    · subst hk
      rw [List.lookup_append, List.lookup_cons_self, List.lookup_eq_none_iff.mpr]
      · rfl
      · intro x hx
        simpa using (h₁ x hx).symm
    · have hb : (k' == k) = false := by simpa using hk
      simp only [List.lookup_append, List.lookup_cons, hb]

theorem find?_update_self {t : Table κ ρ} {k : κ} {r : ρ} (f : ρ → ρ) (h : t.find? k = some r) :
    (t.update k f).find? k = some (f r) := by
  rw [find?_update, if_pos rfl, h, Option.map_some]

theorem find?_update_of_ne {t : Table κ ρ} {k k' : κ} (f : ρ → ρ) (h : k' ≠ k) :
    (t.update k f).find? k' = t.find? k' := by
  rw [find?_update, if_neg h]

theorem update_update_self (t : Table κ ρ) (k : κ) (f g : ρ → ρ) :
    (t.update k f).update k g = t.update k fun r => g (f r) := by
  ext1
  simp only [update, List.map_map]
  refine List.map_congr_left fun x _ => ?_
  by_cases hx : x.1 = k
  · simp only [Function.comp_apply, if_pos hx]
  · simp only [Function.comp_apply, if_neg hx]

@[simp] theorem contains_update (t : Table κ ρ) (k k' : κ) (f : ρ → ρ) :
    (t.update k f).contains k' = t.contains k' := by
  unfold contains
  rw [find?_update]
  split_ifs with h
  · rw [Option.isSome_map, h]
  · rfl

theorem find?_erase (t : Table κ ρ) (k k' : κ) :
    (t.erase k).find? k' = if k' = k then none else t.find? k' := by
  split_ifs with hk
  · subst hk
    rw [find?_eq_none_iff]
    simp [erase]
  · cases hf : t.find? k' with
    | none =>
      rw [find?_eq_none_iff] at hf ⊢
      exact fun hm => hf ((List.filter_sublist.map Prod.fst).subset hm)
    | some r =>
      rw [← mem_rows_iff] at hf ⊢
      simpa [erase, hk] using hf

theorem contains_erase_of_ne {t : Table κ ρ} {k k' : κ} (h : k' ≠ k) :
    (t.erase k).contains k' = t.contains k' := by
  rw [contains, contains, find?_erase, if_neg h]

theorem contains_erase_iff (t : Table κ ρ) (k k' : κ) :
    (t.erase k).contains k' = true ↔ k' ≠ k ∧ t.contains k' = true := by
  by_cases h : k' = k
  · rw [contains, find?_erase, if_pos h]
    exact iff_of_false Bool.false_ne_true fun hk => hk.1 h
  · rw [contains_erase_of_ne h]
    exact ⟨fun hk => ⟨h, hk⟩, And.right⟩

theorem insert?_eq_none_iff (t : Table κ ρ) (k : κ) (r : ρ) :
    t.insert? k r = none ↔ t.contains k = true := by
  unfold insert?
  rw [contains_iff]
  split_ifs with h
  · simp only [true_iff]
    by_contra hn
    push Not at hn
    exact (find?_eq_none_iff t k).mp (Option.eq_none_iff_forall_ne_some.mpr hn) h
  · simp only [false_iff, not_exists]
    intro r'
    rw [(find?_eq_none_iff t k).mpr h]
    simp

theorem rows_of_insert? {t t' : Table κ ρ} {k : κ} {r : ρ} (h : t.insert? k r = some t') :
    t'.rows = t.rows ++ [(k, r)] := by
  unfold insert? at h
  split_ifs at h
  cases h
  rfl

theorem find?_of_insert? {t t' : Table κ ρ} {k : κ} {r : ρ} (h : t.insert? k r = some t') (k' : κ) :
    t'.find? k' = if k' = k then some r else t.find? k' := by
  have hnone : t.find? k = none := by
    have hc : ¬ t.contains k = true := by
      rw [← insert?_eq_none_iff t k r, h]
      simp
    rwa [Bool.not_eq_true, contains_eq_false_iff] at hc
  unfold find? at hnone ⊢
  rw [rows_of_insert? h]
  exact lookup_append_fresh r hnone k'

theorem exists_insert?_of_find?_none {t : Table κ ρ} {k : κ} (r : ρ) (h : t.find? k = none) :
    ∃ t', t.insert? k r = some t' := by
  have hn : t.insert? k r ≠ none := by
    rw [Ne, insert?_eq_none_iff, contains, h]
    simp
  exact Option.ne_none_iff_exists'.mp hn

/-- An `UPDATE` leaves the table as it was exactly when it writes the values already there. -/
theorem update_eq_self_iff (t : Table κ ρ) (k : κ) (f : ρ → ρ) :
    t.update k f = t ↔ ∀ r, t.find? k = some r → f r = r := by
  constructor
  · intro he r hr
    have h := find?_update_self f hr
    rw [he, hr] at h
    exact (Option.some.inj h).symm
  · intro h
    cases hf : t.find? k with
    | none => exact update_of_find?_none f hf
    | some r =>
      obtain ⟨l₁, l₂, hrows, h₁, h₂⟩ := exists_split hf
      ext1
      rw [rows_update_of_split f hrows h₁ h₂, h r hf, hrows]

theorem update_update_eq_self_iff (t : Table κ ρ) {k k' : κ} (f g : ρ → ρ) (h : k ≠ k') :
    (t.update k f).update k' g = t ↔ t.update k f = t ∧ t.update k' g = t := by
  constructor
  · intro he
    rw [update_eq_self_iff, update_eq_self_iff]
    refine ⟨fun r hr => ?_, fun r hr => ?_⟩
    · have hf := find?_update_self f hr
      rw [← find?_update_of_ne g h, he, hr] at hf
      exact (Option.some.inj hf).symm
    · have hg : (t.update k f).find? k' = some r := by rw [find?_update_of_ne f h.symm, hr]
      have hg' := find?_update_self g hg
      rw [he, hr] at hg'
      exact (Option.some.inj hg').symm
  · rintro ⟨hf, hg⟩
    rw [hf, hg]

theorem erase_ne_self {t : Table κ ρ} {k : κ} {r : ρ} (h : t.find? k = some r) : t.erase k ≠ t := by
  intro he
  have hn := find?_erase t k k
  rw [he, h, if_pos rfl] at hn
  cases hn

section All
variable {t : Table κ ρ} {P : ρ → Prop}

/-- Every row meets the condition. -/
def All (P : ρ → Prop) (t : Table κ ρ) : Prop := ∀ k r, t.find? k = some r → P r

theorem All.update (h : t.All P) (k : κ) {f : ρ → ρ} (hf : ∀ r, P r → P (f r)) : (t.update k f).All P := by
  intro k' r hr
  rw [find?_update] at hr
  split_ifs at hr
  · obtain ⟨r', hr', rfl⟩ := Option.map_eq_some_iff.mp hr
    exact hf r' (h k r' hr')
  · exact h k' r hr

theorem All.erase (h : t.All P) (k : κ) : (t.erase k).All P := by
  intro k' r hr
  rw [find?_erase] at hr
  split_ifs at hr
  exact h k' r hr

theorem All.of_insert? (h : t.All P) {t' : Table κ ρ} {k : κ} {r : ρ} (hinsert : t.insert? k r = some t')
    (hr : P r) : t'.All P := by
  intro k' r' hr'
  rw [find?_of_insert? hinsert] at hr'
  split_ifs at hr'
  · cases hr'
    exact hr
  · exact h k' r' hr'

end All

section Sums
variable {M : Type} [AddCommGroup M]

/-- `SELECT sum(...)` over all rows. -/
def sumBy (g : κ → ρ → M) (t : Table κ ρ) : M := (t.rows.map fun r => g r.1 r.2).sum

theorem sumBy_update (g : κ → ρ → M) {t : Table κ ρ} {k : κ} {r : ρ} (f : ρ → ρ)
    (h : t.find? k = some r) : sumBy g (t.update k f) = sumBy g t + (g k (f r) - g k r) := by
  obtain ⟨l₁, l₂, hrows, h₁, h₂⟩ := exists_split h
  simp only [sumBy, rows_update_of_split f hrows h₁ h₂, hrows, List.map_append, List.map_cons,
    List.sum_append, List.sum_cons]
  abel

theorem sumBy_erase (g : κ → ρ → M) {t : Table κ ρ} {k : κ} {r : ρ} (h : t.find? k = some r) :
    sumBy g (t.erase k) = sumBy g t - g k r := by
  obtain ⟨l₁, l₂, hrows, h₁, h₂⟩ := exists_split h
  simp only [sumBy, rows_erase_of_split hrows h₁ h₂, hrows, List.map_append, List.map_cons,
    List.sum_append, List.sum_cons]
  abel

theorem sumBy_insert? (g : κ → ρ → M) {t t' : Table κ ρ} {k : κ} {r : ρ}
    (h : t.insert? k r = some t') : sumBy g t' = sumBy g t + g k r := by
  simp [sumBy, rows_of_insert? h]

theorem sumBy_congr {g g' : κ → ρ → M} {t : Table κ ρ}
    (h : ∀ k r, t.find? k = some r → g k r = g' k r) : sumBy g t = sumBy g' t := by
  unfold sumBy
  congr 1
  exact List.map_congr_left fun x hx => h x.1 x.2 ((mem_rows_iff t x.1 x.2).mp hx)

theorem sumBy_eq_zero {g : κ → ρ → M} {t : Table κ ρ}
    (h : ∀ k r, t.find? k = some r → g k r = 0) : sumBy g t = 0 := by
  rw [sumBy_congr h]
  simp [sumBy]

omit [DecidableEq κ] in
theorem sumBy_add (g g' : κ → ρ → M) (t : Table κ ρ) :
    sumBy (fun k r => g k r + g' k r) t = sumBy g t + sumBy g' t :=
  List.sum_map_add

omit [DecidableEq κ] in
theorem map_sumBy {N : Type} [AddCommGroup N] (φ : M →+ N) (g : κ → ρ → M) (t : Table κ ρ) :
    φ (sumBy g t) = sumBy (fun k r => φ (g k r)) t := by
  unfold sumBy
  rw [map_list_sum, List.map_map]
  rfl

/-- Only the row under `key` counts. -/
theorem sumBy_key (f : ρ → M) (key : κ) (t : Table κ ρ) :
    sumBy (fun k r => if k = key then f r else 0) t = ((t.find? key).map f).getD 0 := by
  cases hkey : t.find? key with
  | none =>
    refine sumBy_eq_zero fun k r hr => if_neg ?_
    rintro rfl
    rw [hkey] at hr
    cases hr
  | some row =>
    have hrest : sumBy (fun k r => if k = key then f r else 0) (t.erase key) = 0 := by
      refine sumBy_eq_zero fun k r hr => if_neg ?_
      rintro rfl
      rw [find?_erase, if_pos rfl] at hr
      cases hr
    rw [sumBy_erase _ hkey, if_pos rfl] at hrest
    exact sub_eq_zero.mp hrest

end Sums
end Table

/-- A table with `rowid INTEGER PRIMARY KEY AUTOINCREMENT`. `seq` is its entry in
`sqlite_sequence`, at least every rowid in use. -/
@[ext] structure AutoTable (ρ : Type) extends Table ℤ ρ where
  seq : ℤ
  le_seq : ∀ r ∈ rows, r.1 ≤ seq
  deriving DecidableEq

namespace AutoTable
variable {ρ : Type}

/-- No rows; earlier rows may have used rowids up to `seq`. -/
def empty (seq : ℤ) : AutoTable ρ := ⟨Table.empty, seq, by simp [Table.empty]⟩

def nextRowid (t : AutoTable ρ) : ℤ := t.seq + 1

def update (t : AutoTable ρ) (k : ℤ) (f : ρ → ρ) : AutoTable ρ where
  toTable := t.toTable.update k f
  seq := t.seq
  le_seq := by
    intro r hr
    obtain ⟨r', hr', rfl⟩ := List.mem_map.mp hr
    have := t.le_seq r' hr'
    split_ifs <;> simpa

def erase (t : AutoTable ρ) (k : ℤ) : AutoTable ρ where
  toTable := t.toTable.erase k
  seq := t.seq
  le_seq := fun r hr => t.le_seq r (List.mem_of_mem_filter hr)

theorem nextRowid_notMem (t : AutoTable ρ) : t.nextRowid ∉ t.rows.map Prod.fst := by
  intro h
  obtain ⟨r, hr, he⟩ := List.mem_map.mp h
  have := t.le_seq r hr
  unfold nextRowid at he
  omega

/-- `INSERT` without a rowid: the row gets the next one. -/
def insert (t : AutoTable ρ) (r : ρ) : AutoTable ρ where
  rows := t.rows ++ [(t.nextRowid, r)]
  nodup := nodup_keys_append r t.nodup t.nextRowid_notMem
  seq := t.nextRowid
  le_seq := by
    intro x hx
    rcases List.mem_append.mp hx with hx | hx
    · have := t.le_seq x hx
      unfold nextRowid
      omega
    · rw [List.mem_singleton.mp hx]

@[simp] theorem toTable_update (t : AutoTable ρ) (k : ℤ) (f : ρ → ρ) :
    (t.update k f).toTable = t.toTable.update k f := rfl

@[simp] theorem rows_insert (t : AutoTable ρ) (r : ρ) :
    (t.insert r).rows = t.rows ++ [(t.nextRowid, r)] := rfl

theorem sumBy_insert {M : Type} [AddCommGroup M] (g : ℤ → ρ → M) (t : AutoTable ρ) (r : ρ) :
    Table.sumBy g (t.insert r).toTable = Table.sumBy g t.toTable + g t.nextRowid r := by
  simp [Table.sumBy]

@[simp] theorem find?_nextRowid (t : AutoTable ρ) : t.find? t.nextRowid = none :=
  (Table.find?_eq_none_iff _ _).mpr t.nextRowid_notMem

theorem find?_insert (t : AutoTable ρ) (r : ρ) (k : ℤ) :
    (t.insert r).find? k = if k = t.nextRowid then some r else t.find? k :=
  lookup_append_fresh r t.find?_nextRowid k

@[simp] theorem find?_insert_nextRowid (t : AutoTable ρ) (r : ρ) :
    (t.insert r).find? t.nextRowid = some r := by
  rw [find?_insert, if_pos rfl]

theorem find?_insert_of_find? {t : AutoTable ρ} {k : ℤ} {x : ρ} (r : ρ) (h : t.find? k = some x) :
    (t.insert r).find? k = some x := by
  rw [find?_insert, if_neg]
  · exact h
  · rintro rfl
    rw [t.find?_nextRowid] at h
    cases h

theorem contains_insert_of_contains {t : AutoTable ρ} {k : ℤ} (r : ρ) (h : t.contains k = true) :
    (t.insert r).contains k = true := by
  obtain ⟨x, hx⟩ := (Table.contains_iff _ _).mp h
  exact (Table.contains_iff _ _).mpr ⟨x, find?_insert_of_find? r hx⟩

theorem all_insert {t : AutoTable ρ} {P : ρ → Prop} (h : t.All P) {r : ρ} (hr : P r) : (t.insert r).All P := by
  intro k r' hr'
  rw [find?_insert] at hr'
  split_ifs at hr'
  · cases hr'
    exact hr
  · exact h k r' hr'

theorem update_congr {t : AutoTable ρ} {k : ℤ} {f g : ρ → ρ}
    (h : ∀ r, t.find? k = some r → f r = g r) : t.update k f = t.update k g := by
  ext1
  · exact congrArg Table.rows (Table.update_congr h)
  · rfl

theorem update_update_self (t : AutoTable ρ) (k : ℤ) (f g : ρ → ρ) :
    (t.update k f).update k g = t.update k fun r => g (f r) := by
  ext1
  · exact congrArg Table.rows (t.toTable.update_update_self k f g)
  · rfl

theorem update_eq_self_iff (t : AutoTable ρ) (k : ℤ) (f : ρ → ρ) :
    t.update k f = t ↔ ∀ r, t.find? k = some r → f r = r := by
  rw [← Table.update_eq_self_iff]
  constructor
  · intro h
    exact congrArg AutoTable.toTable h
  · intro h
    ext1
    · exact congrArg Table.rows h
    · rfl

end AutoTable
end Sql
