import Cigars.Collections.Basic
import Cigars.Listing.Favorites
import Cigars.Listing.Unfiltered
import Cigars.Search.FilterCollection
import Cigars.Sql.Like

/-! What a filter selects. The type of a parameter's value is fixed where the list of filters is
declared and asked for again where a query is built; the typed text becomes a `LIKE` pattern. -/
namespace Cigars
open Collections Sql SQLDelightBaseRepository

/-! ### Building the bind arguments -/

section BindArguments
variable (filter : FiltersList) (key : String)

/-- `getSQLWhere<String>` succeeds on a text, `getSQLWhere<Long>` on a `Long`. -/
theorem exists_getSQLWhere_text_iff : (∃ t, getSQLWhere String (some filter) key = .ok t) ↔
    ∀ p, filter.find? (fun it => it.key == key) = some p → ∃ text, p.value = .other text := by
  unfold getSQLWhere
  rw [Option.bind_some]
  cases filter.find? fun it => it.key == key with
  | none => simp
  | some p => cases hvalue : p.value <;> simp [hvalue, SQLWhere.castAs]

theorem exists_getSQLWhere_long_iff : (∃ n, getSQLWhere ℤ (some filter) key = .ok n) ↔
    ∀ p, filter.find? (fun it => it.key == key) = some p → ∃ n, p.value = .long n := by
  unfold getSQLWhere
  rw [Option.bind_some]
  cases filter.find? fun it => it.key == key with
  | none => simp
  | some p => cases hvalue : p.value <;> simp [hvalue, SQLWhere.castAs]

theorem exists_cigarsWhere_iff (filter : Option FiltersList) : (∃ w, cigarsWhere filter = .ok w) ↔
    (∀ key ∈ ["name", "brand", "country", "cigar", "length"], ∃ t, getSQLWhere String filter key = .ok t) ∧
      ∀ key ∈ ["date", "gauge", "strength"], ∃ n, getSQLWhere ℤ filter key = .ok n := by
  unfold cigarsWhere
  simp only [exists_ok_bind, List.forall_mem_cons]
  constructor
  · rintro ⟨name, hname, brand, hbrand, country, hcountry, date, hdate, cigar, hcigar, gauge, hgauge,
      length, hlength, strength, hstrength, -⟩
    simp [hname, hbrand, hcountry, hdate, hcigar, hgauge, hlength, hstrength]
  · rintro ⟨⟨⟨name, hname⟩, ⟨brand, hbrand⟩, ⟨country, hcountry⟩, ⟨cigar, hcigar⟩, ⟨length, hlength⟩, -⟩,
      ⟨date, hdate⟩, ⟨gauge, hgauge⟩, ⟨strength, hstrength⟩, -⟩
    exact ⟨name, hname, brand, hbrand, country, hcountry, date, hdate, cigar, hcigar, gauge, hgauge,
      length, hlength, strength, hstrength, _, rfl⟩

end BindArguments

/-! ### The filters of the form -/

section Typed
variable (toDouble : String → Option ℚ)

/-- A parameter after texts have been typed into it. -/
def FilterParameter.typed (p : FilterParameter FilterValue) (texts : List String) : FilterParameter FilterValue :=
  texts.foldl (fun p text => p.set toDouble text) p

theorem FilterParameter.key_typed (p : FilterParameter FilterValue) (texts : List String) :
    (p.typed toDouble texts).key = p.key := by
  induction texts generalizing p with
  | nil => rfl
  | cons text texts ih => exact ih (p.set toDouble text)

/-- Whatever is typed, a text stays a text. -/
theorem FilterParameter.typed_text {p : FilterParameter FilterValue} {text : String} (h : p.value = .other text)
    (texts : List String) : ∃ text', (p.typed toDouble texts).value = .other text' := by
  induction texts generalizing p text with
  | nil => exact ⟨text, h⟩
  | cons text' texts ih =>
    have hset : (p.set toDouble text').value = .other text' := by simp [FilterParameter.set, h]
    exact ih hset

/-- Whatever is typed, a number stays a number. -/
theorem FilterParameter.typed_long {p : FilterParameter FilterValue} {n : ℤ} (h : p.value = .long n)
    (texts : List String) : ∃ n', (p.typed toDouble texts).value = .long n' := by
  induction texts generalizing p n with
  | nil => exact ⟨n, h⟩
  | cons text texts ih =>
    have hset : (p.set toDouble text).value = .long ((toLong text).getD 0) := by
      simp [FilterParameter.set, h]
    exact ih hset

/-- Selected parameters, each with the texts typed into it one after the other. -/
abbrev Selection : Type := List (FilterParameter FilterValue × List String)

def Selection.filter (selection : Selection) : FiltersList :=
  selection.map fun s => s.1.typed toDouble s.2

variable {toDouble} {selection : Selection} (hselection : ∀ s ∈ selection, s.1 ∈ CigarSortingFields.filterList)

theorem Selection.exists_of_find? {key : String} {p : FilterParameter FilterValue}
    (h : (selection.filter toDouble).find? (fun it => it.key == key) = some p) :
    ∃ s ∈ selection, s.1.key = key ∧ p = s.1.typed toDouble s.2 := by
  obtain ⟨s, hs, rfl⟩ := List.mem_map.mp (List.mem_of_find?_eq_some h)
  have hkey := List.find?_some h
  rw [beq_iff_eq, FilterParameter.key_typed] at hkey
  exact ⟨s, hs, hkey, rfl⟩

/-- The parameters of the form hold a text, but the ring gauge and the length hold a number. -/
theorem filterList_value {p : FilterParameter FilterValue} (hp : p ∈ CigarSortingFields.filterList) :
    (p.key ∈ ["name", "brand", "country", "cigar"] ∧ p.value = .other "") ∨
      (p.key ∈ ["gauge", "length"] ∧ p.value = .long 0) := by
  revert p
  decide

include hselection

theorem Selection.getSQLWhere_text {key : String} (hgauge : key ≠ "gauge") (hlength : key ≠ "length") :
    ∃ t, getSQLWhere String (some (selection.filter toDouble)) key = .ok t := by
  rw [exists_getSQLWhere_text_iff]
  intro p hfind
  obtain ⟨s, hs, hkey, rfl⟩ := exists_of_find? hfind
  rcases filterList_value (hselection s hs) with ⟨-, hvalue⟩ | ⟨hnumber, -⟩
  · exact FilterParameter.typed_text toDouble hvalue s.2
  · simp [hkey, hgauge, hlength] at hnumber

theorem Selection.getSQLWhere_long {key : String} (hkey : key ∉ ["name", "brand", "country", "cigar"]) :
    ∃ n, getSQLWhere ℤ (some (selection.filter toDouble)) key = .ok n := by
  rw [exists_getSQLWhere_long_iff]
  intro p hfind
  obtain ⟨s, hs, rfl, rfl⟩ := exists_of_find? hfind
  rcases filterList_value (hselection s hs) with ⟨htext, -⟩ | ⟨-, hvalue⟩
  · exact absurd htext hkey
  · exact FilterParameter.typed_long toDouble hvalue s.2

/-- The length holds a number, and its pattern is asked for as a text. -/
theorem Selection.getSQLWhere_length_iff :
    (∃ t, getSQLWhere String (some (selection.filter toDouble)) "length" = .ok t) ↔
      ∀ s ∈ selection, s.1.key ≠ "length" := by
  rw [exists_getSQLWhere_text_iff]
  constructor
  · intro h s hs hkey
    cases hfind : (selection.filter toDouble).find? fun it => it.key == "length" with
    | none =>
      have hne := List.find?_eq_none.mp hfind _ (List.mem_map_of_mem hs)
      rw [beq_iff_eq, FilterParameter.key_typed] at hne
      exact hne hkey
    | some p =>
      obtain ⟨text, htext⟩ := h p hfind
      obtain ⟨s', hs', hkey', rfl⟩ := exists_of_find? hfind
      rcases filterList_value (hselection s' hs') with ⟨hmem, -⟩ | ⟨-, hvalue⟩
      · rw [hkey'] at hmem
        exact absurd hmem (by decide)
      · obtain ⟨n, hn⟩ := FilterParameter.typed_long toDouble hvalue s'.2
        rw [hn] at htext
        cases htext
  · intro h p hfind
    obtain ⟨s, hs, hkey, -⟩ := exists_of_find? hfind
    exact absurd hkey (h s hs)

theorem Selection.exists_cigarsWhere_iff :
    (∃ w, cigarsWhere (some (selection.filter toDouble)) = .ok w) ↔ ∀ s ∈ selection, s.1.key ≠ "length" := by
  have hlength : (∃ t, getSQLWhere String (some (selection.filter toDouble)) "length" = .ok t) ↔
      ∀ s ∈ selection, s.1.key ≠ "length" := getSQLWhere_length_iff hselection
  rw [Cigars.exists_cigarsWhere_iff, ← hlength]
  simp only [List.forall_mem_cons]
  constructor
  · intro h
    exact h.1.2.2.2.2.1
  · intro h
    refine ⟨⟨?_, ?_, ?_, ?_, h, by simp⟩, ?_, ?_, ?_, by simp⟩
    · exact getSQLWhere_text hselection (by decide) (by decide)
    · exact getSQLWhere_text hselection (by decide) (by decide)
    · exact getSQLWhere_text hselection (by decide) (by decide)
    · exact getSQLWhere_text hselection (by decide) (by decide)
    · exact getSQLWhere_long hselection (by decide)
    · exact getSQLWhere_long hselection (by decide)
    · exact getSQLWhere_long hselection (by decide)

omit hselection

/-- The lists of cigars: all of them, the favourites, and those of a humidor. -/
def LocalRepository.ListsCigars : LocalRepository → Prop
  | cigars | favoriteCigars | humidorCigars _ => True
  | _ => False

/-- The plain and the paged query of every list of cigars can be built. -/
def QueriesBuilt (sorting : Option Sorting) (filter : FiltersList) : Prop :=
  ∀ R : LocalRepository, R.ListsCigars →
    (∃ query, R.wrapper.all sorting (R.filterOf (some filter)) R.listArgs = .ok query) ∧
      ∀ limit offset, ∃ query,
        R.wrapper.queryProvider sorting (R.filterOf (some filter)) R.pagingArgs limit offset = .ok query

theorem LocalRepository.exists_source_iff {R : LocalRepository} (hR : R.ListsCigars) (sorting : Option Sorting)
    (filter : Option FiltersList) :
    (∃ query, R.source sorting filter = .ok query) ↔ ∃ w, cigarsWhere filter = .ok w := by
  cases R with
  | cigars => exact exists_ok_map _ _
  | favoriteCigars =>
    rw [← cigarsWhere_filterOf filter]
    exact exists_ok_map _ _
  | humidorCigars id => exact exists_ok_map _ _
  | humidors | cigarHumidors | cigarHistory | humidorHistory | cigarImages | humidorImages => exact hR.elim

theorem queriesBuilt_iff_cigarsWhere (sorting : Option Sorting) (filter : FiltersList) :
    QueriesBuilt sorting filter ↔ ∃ w, cigarsWhere (some filter) = .ok w := by
  constructor
  · intro h
    obtain ⟨query, hquery⟩ := (h .cigars trivial).1
    rw [LocalRepository.all_eq_source] at hquery
    exact (LocalRepository.exists_source_iff (R := .cigars) trivial sorting _).mp ⟨query, hquery⟩
  · intro hw R hR
    have hsource := (LocalRepository.exists_source_iff hR sorting _).mpr hw
    constructor
    · rw [LocalRepository.all_eq_source]
      exact hsource
    · intro limit offset
      rw [LocalRepository.provider_eq_source]
      exact (exists_ok_map _ _).mpr hsource

/-- The queries can be built for the selections without the length, whatever is typed, and for
no others. -/
theorem queriesBuilt_iff (toDouble : String → Option ℚ) (selection : Selection)
    (hselection : ∀ s ∈ selection, s.1 ∈ CigarSortingFields.filterList) (sorting : Option Sorting) :
    QueriesBuilt sorting (selection.filter toDouble) ↔
      ∀ s ∈ selection, s.1.key ≠ CigarSortingFields.length.value := by
  rw [queriesBuilt_iff_cigarsWhere, Selection.exists_cigarsWhere_iff hselection]
  rfl

/-- The brand and the ring gauge, with a text that is no number. -/
def brandAndGauge : Selection := [(⟨"brand", .other ""⟩, ["Co", "Cohiba"]), (⟨"gauge", .long 0⟩, ["fifty"])]

theorem queriesBuilt_brandAndGauge :
    QueriesBuilt none (brandAndGauge.filter fun _ => none) :=
  (queriesBuilt_iff (fun _ => none) brandAndGauge (by decide) none).mpr (by decide)

/-- The length alone, with a number typed into it. -/
def lengthOnly : Selection := [(⟨"length", .long 0⟩, ["6"])]

theorem not_queriesBuilt_length : (∀ s ∈ lengthOnly, s.1 ∈ CigarSortingFields.filterList) ∧
    CigarsTableQueries.all none (some (lengthOnly.filter fun _ => none)) [("", .null)] = .error .classCast ∧
      ¬QueriesBuilt none (lengthOnly.filter fun _ => none) := by
  have hcast : CigarsTableQueries.all none (some (lengthOnly.filter fun _ => none)) [("", .null)] =
      .error .classCast := rfl
  refine ⟨by decide, hcast, ?_⟩
  intro h
  obtain ⟨query, hquery⟩ := (h .cigars trivial).1
  have herror := hcast.symm.trans hquery
  cases herror

end Typed
end Cigars
