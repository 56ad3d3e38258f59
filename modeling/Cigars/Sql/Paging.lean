import Cigars.Sql.Select
import Mathlib.Tactic.Basic

/-! Loading a list page by page. A load reads `limit` rows from an offset and names the next
offset when the page is full and a separate count says that there is more. -/
namespace Sql

structure Page (α : Type) where
  rows : List α
  nextKey : Option ℕ

variable {ε α : Type}

/-- One load of a paging source over `provider limit offset` and a count. -/
def load (provider : ℕ → ℕ → Except ε (List α)) (count limit offset : ℕ) : Except ε (Page α) := do
  let rows ← provider limit offset
  return ⟨rows, if limit ≤ rows.length ∧ offset + rows.length < count then some (offset + rows.length)
    else none⟩

/-- Load from `offset` and follow the next key until there is none; `none` when the fuel runs out. -/
def follow (provider : ℕ → ℕ → Except ε (List α)) (count limit : ℕ) :
    ℕ → ℕ → Option (Except ε (List α))
  | 0, _ => none
  | fuel + 1, offset =>
    match load provider count limit offset with
    | .error e => some (.error e)
    | .ok page =>
      match page.nextKey with
      | none => some (.ok page.rows)
      | some next => (follow provider count limit fuel next).map fun rest => rest.map (page.rows ++ ·)

/-- The pages from offset 0 on, concatenated, are `rows`. -/
def Pages (provider : ℕ → ℕ → Except ε (List α)) (count limit : ℕ) (rows : List α) : Prop :=
  ∃ fuel, follow provider count limit fuel 0 = some (.ok rows)

/-- The offset at which loading stops at the latest: the first page boundary, after the first
page, that the count does not reach beyond. -/
def pageEnd (count limit : ℕ) : ℕ := limit * max 1 ((count + limit - 1) / limit)

section PageEnd
variable {count limit i : ℕ} (hlimit : 1 ≤ limit)
include hlimit

/-- A page that is loaded lies before the end. -/
theorem le_pageEnd (hi : i = 0 ∨ limit * i < count) : limit * i + limit ≤ pageEnd count limit := by
  have hq : i + 1 ≤ max 1 ((count + limit - 1) / limit) := by
    rcases hi with rfl | hi
    · exact le_max_left _ _
    · refine le_trans ?_ (le_max_right _ _)
      rw [Nat.le_div_iff_mul_le (by omega), Nat.mul_comm, Nat.mul_succ]
      omega
  calc limit * i + limit = limit * (i + 1) := (Nat.mul_succ _ _).symm
    _ ≤ pageEnd count limit := Nat.mul_le_mul_left limit hq

/-- The pages reach at least as far as the count. -/
theorem le_pageEnd_of_count : count ≤ pageEnd count limit := by
  have hdiv := Nat.div_add_mod (count + limit - 1) limit
  have hmod := Nat.mod_lt (count + limit - 1) (show limit > 0 by omega)
  calc count ≤ limit * ((count + limit - 1) / limit) := by omega
    _ ≤ pageEnd count limit := Nat.mul_le_mul_left limit (le_max_right _ _)

/-- A page that reaches the count is the last one. -/
theorem pageEnd_le (hi : count ≤ limit * i + limit) : pageEnd count limit ≤ limit * i + limit := by
  have hq : max 1 ((count + limit - 1) / limit) ≤ i + 1 := by
    refine max_le (by omega) (Nat.lt_succ_iff.mp ?_)
    rw [Nat.div_lt_iff_lt_mul (by omega), Nat.succ_mul, Nat.mul_comm, Nat.mul_succ]
    omega
  calc pageEnd count limit ≤ limit * (i + 1) := Nat.mul_le_mul_left limit hq
    _ = limit * i + limit := Nat.mul_succ _ _

end PageEnd

/-- More fuel changes no result. -/
theorem follow_succ {provider : ℕ → ℕ → Except ε (List α)} {count limit fuel offset : ℕ}
    {r : Except ε (List α)} (h : follow provider count limit fuel offset = some r) :
    follow provider count limit (fuel + 1) offset = some r := by
  induction fuel generalizing offset r with
  | zero => cases h
  | succ fuel ih =>
    rw [follow] at h ⊢
    cases hload : load provider count limit offset with
    | error e => simpa only [hload] using h
    | ok page =>
      cases hnext : page.nextKey with
      | none => simpa only [hload, hnext] using h
      | some next =>
        simp only [hload, hnext, Option.map_eq_some_iff] at h ⊢
        obtain ⟨rest, hrest, hr⟩ := h
        exact ⟨rest, ih hrest, hr⟩

theorem follow_add {provider : ℕ → ℕ → Except ε (List α)} {count limit fuel offset : ℕ}
    {r : Except ε (List α)} (h : follow provider count limit fuel offset = some r) (more : ℕ) :
    follow provider count limit (fuel + more) offset = some r := by
  induction more with
  | zero => exact h
  | succ more ih => exact follow_succ ih

section Follow
variable {provider : ℕ → ℕ → Except ε (List α)} {rows : List α} {count limit : ℕ}
  (hprovider : ∀ l o, provider l o = .ok (limitOffset l o rows))
include hprovider

theorem load_eq (offset : ℕ) :
    load provider count limit offset = .ok ⟨limitOffset limit offset rows,
      if limit ≤ (limitOffset limit offset rows).length ∧
          offset + (limitOffset limit offset rows).length < count then
        some (offset + (limitOffset limit offset rows).length)
      else none⟩ := by
  rw [load, hprovider]
  rfl

theorem follow_last (fuel : ℕ) {offset : ℕ}
    (h : ¬ (limit ≤ (limitOffset limit offset rows).length ∧
      offset + (limitOffset limit offset rows).length < count)) :
    follow provider count limit (fuel + 1) offset = some (.ok (limitOffset limit offset rows)) := by
  rw [follow, load_eq hprovider, if_neg h]

theorem follow_next (fuel : ℕ) {offset : ℕ} (hfull : (limitOffset limit offset rows).length = limit)
    (hcount : offset + limit < count) :
    follow provider count limit (fuel + 1) offset =
      (follow provider count limit fuel (offset + limit)).map fun rest =>
        rest.map (limitOffset limit offset rows ++ ·) := by
  rw [follow, load_eq hprovider, hfull, if_pos ⟨le_rfl, hcount⟩]

variable (hlimit : 1 ≤ limit)
include hlimit

/-- From a page boundary on, what is loaded is cut off at the end. -/
theorem follow_boundary (fuel i : ℕ) (hi : i = 0 ∨ limit * i < count) (hfuel : count ≤ fuel + limit * i) :
    follow provider count limit (fuel + 1) (limit * i) =
      some (.ok (limitOffset (pageEnd count limit - limit * i) (limit * i) rows)) := by
  have hsize : (limitOffset limit (limit * i) rows).length = min limit (rows.length - limit * i) := by
    rw [limitOffset, List.length_take, List.length_drop]
  have hend := le_pageEnd hlimit hi
  by_cases hmore : limit ≤ rows.length - limit * i ∧ limit * i + limit < count
  · -- A full page below the count: the next boundary is loaded with less fuel.
    obtain ⟨hfull, hcount⟩ := hmore
    have hnext : limit * i + limit = limit * (i + 1) := (Nat.mul_succ _ _).symm
    cases fuel with
    | zero => omega
    | succ fuel =>
      have ih := follow_boundary fuel (i + 1) (Or.inr (by omega)) (by omega)
      rw [follow_next hprovider _ (by omega) hcount, hnext, ih]
      simp only [Option.map_some, Except.map, ← hnext, limitOffset]
      rw [← List.drop_drop, ← List.take_add]
      congr 3
      omega
  · rw [follow_last hprovider _ (by omega)]
    by_cases hfull : limit ≤ rows.length - limit * i
    · have hlast := pageEnd_le hlimit (show count ≤ limit * i + limit by omega)
      congr 3
      omega
    · simp only [limitOffset]
      rw [List.take_of_length_le (by rw [List.length_drop]; omega),
        List.take_of_length_le (by rw [List.length_drop]; omega)]

/-- The pages are the rows up to the end, and nothing else. -/
theorem pages_iff (rows' : List α) :
    Pages provider count limit rows' ↔ rows' = rows.take (pageEnd count limit) := by
  have hall : follow provider count limit (count + 1) 0 =
      some (.ok (rows.take (pageEnd count limit))) :=
    follow_boundary hprovider hlimit count 0 (Or.inl rfl) (by omega)
  constructor
  · rintro ⟨fuel, hfuel⟩
    have h₁ := follow_add hfuel (count + 1)
    have h₂ := follow_add hall fuel
    rw [Nat.add_comm, h₁] at h₂
    exact Except.ok.inj (Option.some.inj h₂)
  · rintro rfl
    exact ⟨count + 1, hall⟩

/-- Paging shows the whole list exactly when the list does not go beyond the end. -/
theorem pages_complete_iff : Pages provider count limit rows ↔ rows.length ≤ pageEnd count limit := by
  rw [pages_iff hprovider hlimit]
  constructor
  · intro h
    have hlen := congrArg List.length h
    rw [List.length_take] at hlen
    omega
  · intro h
    exact (List.take_of_length_le h).symm

end Follow

/-! ### Pages of different sizes -/

/-- Pages loaded one after the other from offset 0 on, the last one first, each with the size it
was asked for, and the key left for the next load. -/
inductive Loaded (load : ℕ → ℕ → Except ε (Page α)) : List (ℕ × Page α) → Option ℕ → Prop
  | start : Loaded load [] (some 0)
  | next {pages : List (ℕ × Page α)} {limit offset : ℕ} {page : Page α} :
    Loaded load pages (some offset) → load limit offset = .ok page →
    Loaded load ((limit, page) :: pages) page.nextKey

theorem Loaded.of_cons {load : ℕ → ℕ → Except ε (Page α)} {pages : List (ℕ × Page α)} {limit : ℕ}
    {page : Page α} {key : Option ℕ} (h : Loaded load ((limit, page) :: pages) key) :
    key = page.nextKey ∧ ∃ offset, Loaded load pages (some offset) ∧ load limit offset = .ok page := by
  cases h with
  | @next _ _ offset _ hpages hload => exact ⟨rfl, offset, hpages, hload⟩

/-- The rows of the pages, in the order of loading. -/
def pageRows : List (ℕ × Page α) → List α
  | [] => []
  | (_, page) :: pages => pageRows pages ++ page.rows

/-- The pages of a list begin it, and the key is the number of rows they have. -/
theorem Loaded.pageRows_begin {provider : ℕ → ℕ → Except ε (List α)} {rows : List α} {count : ℕ}
    (hprovider : ∀ l o, provider l o = .ok (limitOffset l o rows)) {pages : List (ℕ × Page α)}
    {key : Option ℕ} (h : Loaded (load provider count) pages key) :
    pageRows pages <+: rows ∧ ∀ offset, key = some offset → offset = (pageRows pages).length := by
  induction h with
  | start =>
    constructor
    · exact List.nil_prefix
    · intro offset hkey
      exact (Option.some.inj hkey).symm
  | @next pages limit offset page _ hload ih =>
    obtain ⟨hbegin, hkey⟩ := ih
    have hoffset := hkey offset rfl
    rw [load_eq hprovider] at hload
    cases hload
    have hrows : pageRows pages = rows.take offset := by
      rw [hoffset]
      exact List.prefix_iff_eq_take.mp hbegin
    constructor
    · show pageRows pages ++ limitOffset limit offset rows <+: rows
      rw [hrows, limitOffset, ← List.take_add]
      exact List.take_prefix _ _
    · intro next hnext
      show next = (pageRows pages ++ limitOffset limit offset rows).length
      rw [List.length_append, ← hoffset]
      split_ifs at hnext
      exact (Option.some.inj hnext).symm

end Sql
