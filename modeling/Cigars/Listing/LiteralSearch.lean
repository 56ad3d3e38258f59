import Cigars.Listing.Filtering

/-! Filtering as the user reads it: the rows in which every typed text occurs. The query asks for
the text as a pattern, so what it finds is more than that where the text has a wildcard. -/
namespace Cigars
open Sql SQLDelightBaseRepository

/-! ### What is asked -/

/-- The text column a filter's key names. -/
def CigarsTable.textColumn (r : CigarsTable) (key : String) : Option String :=
  if key = "name" then some r.name
  else if key = "brand" then r.brand
  else if key = "country" then r.country
  else if key = "cigar" then some r.cigar
  else none

namespace FilterParameter
variable (p : FilterParameter FilterValue) (r : CigarsTable)

/-- The row has what was typed. -/
def Asks : Prop :=
  match p.value with
  | .other text => ∃ column, r.textColumn p.key = some column ∧ Occurs text.toList column.toList
  | .long n => n ≤ r.gauge
  | _ => False

/-- The row passes the parameter's condition in the query. -/
def Passes : Prop :=
  match p.value with
  | .other text => like (r.textColumn p.key) ("%" ++ text ++ "%") = some true
  | .long n => n ≤ r.gauge
  | _ => False

/-- A text for a text column or a number for the ring gauge. -/
def WellTyped : Prop :=
  (p.key ∈ ["name", "brand", "country", "cigar"] ∧ ∃ text, p.value = .other text) ∨
    (p.key = "gauge" ∧ ∃ n, p.value = .long n)

/-- The parameter's text, if it has one, is free of wildcards. -/
def PlainText : Prop := ∀ text, p.value = .other text → Plain text.toList

end FilterParameter

structure WellTyped (filter : FiltersList) : Prop where
  keys : (filter.map FilterParameter.key).Nodup
  values : ∀ p ∈ filter, p.WellTyped

/-- A row without `NULL`s and negative numbers, whose length begins with a digit. -/
structure CigarsTable.Ordinary (r : CigarsTable) : Prop where
  brand : r.brand.isSome = true
  country : r.country.isSome = true
  date : ∃ n, r.date = some n ∧ 0 ≤ n
  gauge : 0 ≤ r.gauge
  length : ∃ c rest, r.length.toList = c :: rest ∧ c.isDigit = true
  strength : 0 ≤ r.strength
  rating : ∃ n, r.rating = some n ∧ 0 ≤ n
  myrating : ∃ n, r.myrating = some n ∧ 0 ≤ n
  notes : r.notes.isSome = true
  link : r.link.isSome = true
  count : 0 ≤ r.count
  price : ∃ n, r.price = some n ∧ n.val.lt 0 = false
  other : ∃ n, r.other = some n ∧ 0 ≤ n
  relations : r.relations.isSome = true

/-- A text that begins with a digit passes the default bound of the length. -/
theorem le_of_digit {s : String} {c : Char} {rest : List Char} (hs : s.toList = c :: rest)
    (hc : c.isDigit = true) : "%%" ≤ s := by
  have hdigit : 48 ≤ c.val.toNat := by
    unfold Char.isDigit at hc
    rw [Bool.and_eq_true, decide_eq_true_eq, decide_eq_true_eq] at hc
    exact hc.1
  rw [← String.not_lt, String.lt_iff, hs]
  have hpercent : "%%".toList = ['%', '%'] := rfl
  rw [hpercent, List.cons_lt_cons_iff]
  rintro (hlt | ⟨heq, -⟩)
  · have hval : c.val.toNat < 37 := hlt
    omega
  · have hval : c.val.toNat = 37 := by rw [heq]; rfl
    omega

section Query
variable {filter : FiltersList} {key : String}

/-- With distinct keys the parameter found for a key is the only one. -/
theorem forall_key_iff (hkeys : (filter.map FilterParameter.key).Nodup) (Q : FilterParameter FilterValue → Prop) :
    (∀ p ∈ filter, p.key = key → Q p) ↔ ∀ p, filter.find? (fun it => it.key == key) = some p → Q p := by
  constructor
  · intro h p hfind
    exact h p (List.mem_of_find?_eq_some hfind) (by simpa using List.find?_some hfind)
  · intro h p hp hpkey
    cases hfind : filter.find? fun it => it.key == key with
    | none =>
      have hne := List.find?_eq_none.mp hfind p hp
      rw [beq_iff_eq] at hne
      exact absurd hpkey hne
    | some q =>
      have hqkey : q.key = key := by simpa using List.find?_some hfind
      have hsame := List.inj_on_of_nodup_map hkeys hp (List.mem_of_find?_eq_some hfind) (hpkey.trans hqkey.symm)
      rw [hsame]
      exact h q hfind

/-- The pattern of a text column matches when the conditions on that column do. -/
theorem WellTyped.getSQLWhere_text (h : WellTyped filter) (key : String) (hkey : key ≠ "gauge") :
    ∃ pattern, getSQLWhere String (some filter) key = .ok pattern ∧ ∀ r : CigarsTable,
      (r.textColumn key).isSome = true →
        (like (r.textColumn key) pattern = some true ↔ ∀ p ∈ filter, p.key = key → p.Passes r) := by
  have hvalues := (forall_key_iff h.keys _).mp fun p hp (_ : p.key = key) => h.values p hp
  simp only [forall_key_iff h.keys]
  unfold getSQLWhere
  rw [Option.bind_some]
  cases hfind : filter.find? fun it => it.key == key with
  | none =>
    refine ⟨"%%", rfl, fun r hsome => ?_⟩
    simp [like_anything, hsome]
  | some p =>
    have hpkey : p.key = key := by simpa using List.find?_some hfind
    rcases hvalues p hfind with ⟨-, text, hvalue⟩ | ⟨hgauge, -⟩
    · refine ⟨"%" ++ text ++ "%", by simp [hvalue, SQLWhere.castAs], fun r _ => ?_⟩
      simp [FilterParameter.Passes, hvalue, hpkey]
    · exact absurd (hpkey.symm.trans hgauge) hkey

/-- The bound on the ring gauge is met when the condition on it is. -/
theorem WellTyped.getSQLWhere_gauge (h : WellTyped filter) :
    ∃ bound, getSQLWhere ℤ (some filter) "gauge" = .ok bound ∧ ∀ r : CigarsTable, 0 ≤ r.gauge →
      (bound ≤ r.gauge ↔ ∀ p ∈ filter, p.key = "gauge" → p.Passes r) := by
  have hvalues := (forall_key_iff h.keys _).mp fun p hp (_ : p.key = "gauge") => h.values p hp
  simp only [forall_key_iff h.keys]
  unfold getSQLWhere
  rw [Option.bind_some]
  cases hfind : filter.find? fun it => it.key == "gauge" with
  | none =>
    refine ⟨0, rfl, fun r hgauge => ?_⟩
    simp [hgauge]
  | some p =>
    have hpkey : p.key = "gauge" := by simpa using List.find?_some hfind
    rcases hvalues p hfind with ⟨htext, -⟩ | ⟨-, n, hvalue⟩
    · rw [hpkey] at htext
      exact absurd htext (by decide)
    · refine ⟨n, by simp [hvalue, SQLWhere.castAs], fun r _ => ?_⟩
      simp [FilterParameter.Passes, hvalue]

/-- Columns that no parameter names are compared with their default bound. -/
theorem WellTyped.getSQLWhere_unfiltered {T : Type} [SQLWhere T] (h : WellTyped filter)
    (hkey : key ∉ ["name", "brand", "country", "cigar", "gauge"]) :
    getSQLWhere T (some filter) key = .ok SQLWhere.unfiltered := by
  have hnone : filter.find? (fun it => it.key == key) = none := by
    rw [List.find?_eq_none]
    intro p hp hpkey
    rw [beq_iff_eq] at hpkey
    rcases h.values p hp with ⟨htext, -⟩ | ⟨hgauge, -⟩
    · rw [hpkey] at htext
      simp at htext hkey
      tauto
    · rw [hpkey] at hgauge
      simp [hgauge] at hkey
  simp [getSQLWhere, hnone]

/-- The rows a query finds are those that pass every parameter's condition. -/
theorem WellTyped.exists_cigarsWhere (h : WellTyped filter) : ∃ w, cigarsWhere (some filter) = .ok w ∧
    ∀ r : CigarsTable, r.Ordinary → (w.cond r = some true ↔ ∀ p ∈ filter, p.Passes r) := by
  obtain ⟨name, hname, hnames⟩ := h.getSQLWhere_text "name" (by decide)
  obtain ⟨brand, hbrand, hbrands⟩ := h.getSQLWhere_text "brand" (by decide)
  obtain ⟨country, hcountry, hcountries⟩ := h.getSQLWhere_text "country" (by decide)
  obtain ⟨cigar, hcigar, hcigars⟩ := h.getSQLWhere_text "cigar" (by decide)
  obtain ⟨gauge, hgauge, hgauges⟩ := h.getSQLWhere_gauge
  have hdate : getSQLWhere ℤ (some filter) "date" = .ok 0 := h.getSQLWhere_unfiltered (by decide)
  have hlength : getSQLWhere String (some filter) "length" = .ok "%%" := h.getSQLWhere_unfiltered (by decide)
  have hstrength : getSQLWhere ℤ (some filter) "strength" = .ok 0 := h.getSQLWhere_unfiltered (by decide)
  refine ⟨⟨name, brand, country, 0, cigar, gauge, "%%", 0⟩, ?_, ?_⟩
  · unfold cigarsWhere
    rw [hname, hbrand, hcountry, hdate, hcigar, hgauge, hlength, hstrength]
    rfl
  · intro r hr
    obtain ⟨c, rest, hdigits, hdigit⟩ := hr.length
    have hdefault := le_of_digit hdigits hdigit
    obtain ⟨date, hdateSome, hdateBound⟩ := hr.date
    have hcond : (CigarsWhere.mk name brand country 0 cigar gauge "%%" 0).cond r = some true ↔
        like (r.textColumn "name") name = some true ∧ like (r.textColumn "brand") brand = some true ∧
          like (r.textColumn "country") country = some true ∧ like (r.textColumn "cigar") cigar = some true ∧
            gauge ≤ r.gauge := by
      have hcolumns : r.textColumn "name" = some r.name ∧ r.textColumn "brand" = r.brand ∧
          r.textColumn "country" = r.country ∧ r.textColumn "cigar" = some r.cigar := ⟨rfl, rfl, rfl, rfl⟩
      obtain ⟨hn, hb, hc, hs⟩ := hcolumns
      simp only [CigarsWhere.cond, Truth.and_eq_true, ge_eq_true, hdateSome, Option.some.injEq,
        exists_eq_left', hdateBound, hdefault, hr.strength, and_true, true_and, hn, hb, hc, hs]
    rw [hcond, hnames r rfl, hbrands r hr.brand, hcountries r hr.country, hcigars r rfl, hgauges r hr.gauge]
    constructor
    · rintro ⟨hn, hb, hc, hs, hg⟩ p hp
      rcases h.values p hp with ⟨hkey, -⟩ | ⟨hkey, -⟩
      · simp only [List.mem_cons, List.not_mem_nil, or_false] at hkey
        rcases hkey with hkey | hkey | hkey | hkey
        · exact hn p hp hkey
        · exact hb p hp hkey
        · exact hc p hp hkey
        · exact hs p hp hkey
      · exact hg p hp hkey
    · intro hall
      exact ⟨fun p hp _ => hall p hp, fun p hp _ => hall p hp, fun p hp _ => hall p hp,
        fun p hp _ => hall p hp, fun p hp _ => hall p hp⟩

end Query

/-! ### The rows found -/

theorem LocalRepository.mem_selected (cond : CigarsTable → Truth) (sorting : Option Sorting) (db : Database)
    (c : Cigar) : c ∈ selected cond sorting db ↔
      ∃ r ∈ db.cigarsTable.rows, c = cigarFactory r.1 r.2 ∧ cond r.2 = some true := by
  unfold selected
  rw [List.mem_map]
  constructor
  · rintro ⟨r, hr, rfl⟩
    have hmem := List.mem_filter.mp ((perm_orderBy _ _ _).mem_iff.mp hr)
    exact ⟨r, hmem.1, rfl, of_decide_eq_true hmem.2⟩
  · rintro ⟨r, hr, rfl, hcond⟩
    exact ⟨r, (perm_orderBy _ _ _).mem_iff.mpr (List.mem_filter.mpr ⟨hr, decide_eq_true hcond⟩), rfl⟩

theorem WellTyped.hasParameter_favorites {filter : FiltersList} (h : WellTyped filter) :
    hasParameter (some filter) FAVORITES_ID = false := by
  unfold hasParameter
  rw [List.any_eq_false]
  intro p hp hkey
  rw [beq_iff_eq] at hkey
  rcases h.values p hp with ⟨htext, -⟩ | ⟨hgauge, -⟩
  · rw [hkey] at htext
    exact absurd htext (by decide)
  · rw [hkey] at hgauge
    exact absurd hgauge (by decide)

/-- Every stored cigar is an ordinary row. -/
def Database.Ordinary (db : Database) : Prop := ∀ r ∈ db.cigarsTable.rows, r.2.Ordinary

/-- The list under a filter has the rows that pass its conditions. -/
theorem WellTyped.allSync {filter : FiltersList} (h : WellTyped filter) (sorting : Option Sorting)
    {db : Database} (hdb : db.Ordinary) : ∃ cs : List Cigar,
      LocalRepository.cigars.allSync sorting (some filter) db = .ok cs ∧ ∀ c, c ∈ cs ↔
        ∃ r ∈ db.cigarsTable.rows, c = cigarFactory r.1 r.2 ∧ ∀ p ∈ filter, p.Passes r.2 := by
  obtain ⟨w, hw, hcond⟩ := h.exists_cigarsWhere
  refine ⟨LocalRepository.selected w.cond sorting db, ?_, ?_⟩
  · rw [LocalRepository.allSync_cigars, hw]
    unfold cigarsCond
    rw [h.hasParameter_favorites]
    rfl
  · intro c
    rw [LocalRepository.mem_selected]
    constructor
    · rintro ⟨r, hr, hc, htrue⟩
      exact ⟨r, hr, hc, (hcond r.2 (hdb r hr)).mp htrue⟩
    · rintro ⟨r, hr, hc, hpasses⟩
      exact ⟨r, hr, hc, (hcond r.2 (hdb r hr)).mpr hpasses⟩

/-! ### Patterns and typed texts -/

namespace FilterParameter
variable {p : FilterParameter FilterValue} {r : CigarsTable}

theorem like_typed_iff (column text : String) : like (some column) ("%" ++ text ++ "%") = some true ↔
    likeChars ('%' :: text.toList ++ ['%']) column.toList = true := by
  simp [like, String.toList_append]

/-- A row that has what was typed is found. -/
theorem Asks.passes (h : p.Asks r) : p.Passes r := by
  unfold Asks at h
  unfold Passes
  cases hvalue : p.value with
  | other text =>
    rw [hvalue] at h
    obtain ⟨column, hcolumn, hoccurs⟩ := h
    rw [hcolumn]
    exact (like_typed_iff column text).mpr (likeChars_of_occurs hoccurs)
  | long n =>
    rw [hvalue] at h
    exact h
  | int | double | boolean =>
    rw [hvalue] at h
    exact h.elim

/-- Without a wildcard in the text, no other row is found. -/
theorem PlainText.passes_iff (hplain : p.PlainText) : p.Passes r ↔ p.Asks r := by
  constructor
  · intro h
    unfold Passes at h
    unfold Asks
    cases hvalue : p.value with
    | other text =>
      rw [hvalue] at h
      cases hcolumn : r.textColumn p.key with
      | none =>
        rw [hcolumn] at h
        cases h
      | some column =>
        rw [hcolumn] at h
        have hlike := (like_typed_iff column text).mp h
        exact ⟨column, rfl, (likeChars_iff_occurs (hplain text hvalue)).mp hlike⟩
    | long n =>
      rw [hvalue] at h
      exact h
    | int | double | boolean =>
      rw [hvalue] at h
      exact h.elim
  · exact Asks.passes

end FilterParameter

/-! ### A row found for its wildcards -/

section FoundRow
variable (filter : FiltersList)

/-- What the text for a column stands for when its wildcards are filled in. -/
def filledColumn (key : String) : String :=
  match (filter.find? fun it => it.key == key).map FilterParameter.value with
  | some (.other text) => String.ofList (filled text.toList)
  | _ => ""

def largestBound : FiltersList → ℤ
  | [] => 0
  | p :: filter => match p.value with
    | .long n => max n (largestBound filter)
    | _ => largestBound filter

/-- An ordinary row that every parameter lets through. -/
def foundRow : CigarsTable where
  name := filledColumn filter "name"
  brand := some (filledColumn filter "brand")
  country := some (filledColumn filter "country")
  date := some 0
  cigar := filledColumn filter "cigar"
  wrapper := ""
  binder := ""
  gauge := largestBound filter
  length := "5"
  strength := 0
  rating := some 0
  myrating := some 0
  notes := some ""
  filler := ""
  link := some ""
  count := 0
  shopping := false
  favorites := false
  price := some 0
  other := some 0
  relations := some (encodeToString [])

theorem largestBound_nonneg : 0 ≤ largestBound filter := by
  induction filter with
  | nil => exact le_refl 0
  | cons p filter ih =>
    unfold largestBound
    split
    · exact le_max_of_le_right ih
    · exact ih

variable {filter}

theorem le_largestBound {p : FilterParameter FilterValue} {n : ℤ} (hp : p ∈ filter) (hvalue : p.value = .long n) :
    n ≤ largestBound filter := by
  induction filter with
  | nil => cases hp
  | cons q filter ih =>
    unfold largestBound
    rcases List.mem_cons.mp hp with rfl | hp
    · rw [hvalue]
      exact le_max_left _ _
    · split
      · exact le_max_of_le_right (ih hp)
      · exact ih hp

theorem ordinary_foundRow : (foundRow filter).Ordinary where
  brand := rfl
  country := rfl
  date := ⟨0, rfl, le_refl 0⟩
  gauge := largestBound_nonneg filter
  length := ⟨'5', [], String.toList_ofList, rfl⟩
  strength := le_refl 0
  rating := ⟨0, rfl, le_refl 0⟩
  myrating := ⟨0, rfl, le_refl 0⟩
  notes := rfl
  link := rfl
  count := le_refl 0
  price := ⟨0, rfl, by decide⟩
  other := ⟨0, rfl, le_refl 0⟩
  relations := rfl

theorem textColumn_foundRow {key : String} (hkey : key ∈ ["name", "brand", "country", "cigar"]) :
    (foundRow filter).textColumn key = some (filledColumn filter key) := by
  simp only [List.mem_cons, List.not_mem_nil, or_false] at hkey
  rcases hkey with rfl | rfl | rfl | rfl
  · rfl
  · rfl
  · rfl
  · rfl

theorem WellTyped.filledColumn_eq (h : WellTyped filter) {p : FilterParameter FilterValue} (hp : p ∈ filter)
    {text : String} (hvalue : p.value = .other text) :
    (foundRow filter).textColumn p.key = some (String.ofList (filled text.toList)) := by
  have hkey : p.key ∈ ["name", "brand", "country", "cigar"] := by
    rcases h.values p hp with ⟨hkey, -⟩ | ⟨-, n, hlong⟩
    · exact hkey
    · rw [hvalue] at hlong
      cases hlong
  have hcolumn : filledColumn filter p.key = String.ofList (filled text.toList) := by
    unfold filledColumn
    cases hfind : filter.find? fun it => it.key == p.key with
    | none =>
      have hne := List.find?_eq_none.mp hfind p hp
      simp at hne
    | some q =>
      have hsame := (forall_key_iff h.keys fun p' => p' = q).mpr (fun p' hp' => Option.some.inj (hp'.symm.trans hfind))
        p hp rfl
      rw [Option.map_some, ← hsame, hvalue]
  rw [textColumn_foundRow hkey, hcolumn]

theorem WellTyped.passes_foundRow (h : WellTyped filter) {p : FilterParameter FilterValue} (hp : p ∈ filter) :
    p.Passes (foundRow filter) := by
  unfold FilterParameter.Passes
  rcases h.values p hp with ⟨-, text, hvalue⟩ | ⟨-, n, hvalue⟩
  · rw [hvalue]
    simp only
    rw [h.filledColumn_eq hp hvalue, FilterParameter.like_typed_iff, String.toList_ofList]
    exact likeChars_filled text.toList
  · rw [hvalue]
    exact le_largestBound hp hvalue

theorem WellTyped.not_asks_foundRow (h : WellTyped filter) {p : FilterParameter FilterValue} (hp : p ∈ filter)
    {text : String} (hvalue : p.value = .other text) (hplain : ¬Plain text.toList) :
    ¬p.Asks (foundRow filter) := by
  unfold FilterParameter.Asks
  rw [hvalue]
  rintro ⟨column, hcolumn, hoccurs⟩
  rw [h.filledColumn_eq hp hvalue] at hcolumn
  rw [← Option.some.inj hcolumn, String.toList_ofList] at hoccurs
  exact not_occurs_filled hplain hoccurs

end FoundRow
/-! ### Literal search -/

/-- A list with one stored cigar. -/
def Database.ofRow (r : CigarsTable) : Database :=
  { Database.empty 0 0 0 0 with cigarsTable := (AutoTable.empty 0).insert r }

theorem Database.rows_ofRow (r : CigarsTable) : (Database.ofRow r).cigarsTable.rows = [(1, r)] := rfl

theorem Database.ordinary_ofRow {r : CigarsTable} (hr : r.Ordinary) : (Database.ofRow r).Ordinary := by
  intro row hrow
  rw [rows_ofRow, List.mem_singleton] at hrow
  rw [hrow]
  exact hr

/-- The list under the filter has the rows in which everything typed occurs, and a further
parameter takes rows away at most. -/
structure LiteralSearch (filter : FiltersList) : Prop where
  found : ∀ (sorting : Option Sorting) (db : Database), db.Ordinary → ∃ cs : List Cigar,
    LocalRepository.cigars.allSync sorting (some filter) db = .ok cs ∧ ∀ c, c ∈ cs ↔
      ∃ r ∈ db.cigarsTable.rows, c = cigarFactory r.1 r.2 ∧ ∀ p ∈ filter, p.Asks r.2
  narrowed : ∀ p, WellTyped (filter ++ [p]) → ∀ (sorting : Option Sorting) (db : Database), db.Ordinary →
    ∀ cs cs' : List Cigar, LocalRepository.cigars.allSync sorting (some filter) db = .ok cs →
      LocalRepository.cigars.allSync sorting (some (filter ++ [p])) db = .ok cs' → cs' ⊆ cs

theorem WellTyped.narrowed {filter : FiltersList} (h : WellTyped filter) {p : FilterParameter FilterValue}
    (hp : WellTyped (filter ++ [p])) (sorting : Option Sorting) {db : Database} (hdb : db.Ordinary)
    {cs cs' : List Cigar} (hcs : LocalRepository.cigars.allSync sorting (some filter) db = .ok cs)
    (hcs' : LocalRepository.cigars.allSync sorting (some (filter ++ [p])) db = .ok cs') : cs' ⊆ cs := by
  obtain ⟨found, hfound, hmem⟩ := h.allSync sorting hdb
  obtain ⟨found', hfound', hmem'⟩ := hp.allSync sorting hdb
  cases hfound.symm.trans hcs
  cases hfound'.symm.trans hcs'
  intro c hc
  obtain ⟨r, hr, heq, hpasses⟩ := (hmem' c).mp hc
  exact (hmem c).mpr ⟨r, hr, heq, fun q hq => hpasses q (List.mem_append_left [p] hq)⟩

/-- A wildcard finds a cigar that does not have the typed text. -/
theorem WellTyped.plainText {filter : FiltersList} (h : WellTyped filter) (hsearch : LiteralSearch filter)
    {p : FilterParameter FilterValue} (hp : p ∈ filter) : p.PlainText := by
  intro text hvalue
  by_contra hplain
  have hdb : (Database.ofRow (foundRow filter)).Ordinary := Database.ordinary_ofRow ordinary_foundRow
  obtain ⟨cs, hcs, hmem⟩ := h.allSync none hdb
  obtain ⟨cs', hcs', hmem'⟩ := hsearch.found none _ hdb
  cases hcs.symm.trans hcs'
  have hc : cigarFactory 1 (foundRow filter) ∈ cs :=
    (hmem _).mpr ⟨(1, foundRow filter), List.mem_singleton_self _, rfl, fun q hq => h.passes_foundRow hq⟩
  obtain ⟨r, hr, -, hasks⟩ := (hmem' _).mp hc
  rw [Database.rows_ofRow, List.mem_singleton] at hr
  have hrow := hasks p hp
  rw [hr] at hrow
  exact h.not_asks_foundRow hp hvalue hplain hrow

/-- Filtering is search for the typed texts exactly when no text has a wildcard. -/
theorem literalSearch_iff (filter : FiltersList) (hfilter : WellTyped filter) :
    LiteralSearch filter ↔ ∀ p ∈ filter, p.PlainText := by
  constructor
  · intro hsearch p hp
    exact hfilter.plainText hsearch hp
  · intro hplain
    constructor
    · intro sorting db hdb
      obtain ⟨cs, hcs, hmem⟩ := hfilter.allSync sorting hdb
      refine ⟨cs, hcs, fun c => ?_⟩
      rw [hmem]
      constructor
      · rintro ⟨r, hr, hc, hpasses⟩
        exact ⟨r, hr, hc, fun p hp => (hplain p hp).passes_iff.mp (hpasses p hp)⟩
      · rintro ⟨r, hr, hc, hasks⟩
        exact ⟨r, hr, hc, fun p hp => (hplain p hp).passes_iff.mpr (hasks p hp)⟩
    · intro p hp sorting db hdb cs cs' hcs hcs'
      exact hfilter.narrowed hp sorting hdb hcs hcs'

/-- A brand and a least ring gauge. -/
def cohibaFifty : FiltersList := [⟨"brand", .other "cohiba"⟩, ⟨"gauge", .long 50⟩]

theorem wellTyped_cohibaFifty : WellTyped cohibaFifty := by
  refine ⟨by decide, ?_⟩
  intro p hp
  simp only [cohibaFifty, List.mem_cons, List.not_mem_nil, or_false] at hp
  rcases hp with rfl | rfl
  · exact Or.inl ⟨by decide, "cohiba", rfl⟩
  · exact Or.inr ⟨rfl, 50, rfl⟩

theorem literalSearch_cohibaFifty : WellTyped cohibaFifty ∧ LiteralSearch cohibaFifty := by
  have hplain : ∀ p ∈ cohibaFifty, p.PlainText := by
    intro p hp text hvalue
    simp only [cohibaFifty, List.mem_cons, List.not_mem_nil, or_false] at hp
    rcases hp with rfl | rfl
    · cases hvalue
      decide
    · cases hvalue
  exact ⟨wellTyped_cohibaFifty, (literalSearch_iff cohibaFifty wellTyped_cohibaFifty).mpr hplain⟩

/-- The name "No_2". -/
def underscoreName : FiltersList := [⟨"name", .other "No_2"⟩]

def dottedRow : CigarsTable := { foundRow [] with name := "No.2" }

theorem ordinary_dottedRow : dottedRow.Ordinary := by
  have h : (foundRow []).Ordinary := ordinary_foundRow
  exact { h with }

/-- The query for "No_2" finds the cigar "No.2". -/
theorem not_literalSearch_underscore : WellTyped underscoreName ∧ (Database.ofRow dottedRow).Ordinary ∧
    LocalRepository.cigars.allSync none (some underscoreName) (Database.ofRow dottedRow) =
      .ok [cigarFactory 1 dottedRow] ∧
    ¬Occurs "No_2".toList "No.2".toList ∧ ¬LiteralSearch underscoreName := by
  have htyped : WellTyped underscoreName := by
    refine ⟨by decide, ?_⟩
    intro p hp
    rw [List.mem_singleton.mp hp]
    exact Or.inl ⟨by decide, "No_2", rfl⟩
  refine ⟨htyped, Database.ordinary_ofRow ordinary_dottedRow, rfl, by decide, ?_⟩
  intro hsearch
  have hplain := htyped.plainText hsearch (List.mem_singleton_self _)
  exact absurd (hplain "No_2" rfl) (by decide)

end Cigars
