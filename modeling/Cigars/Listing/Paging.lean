import Cigars.Collections.Basic
import Cigars.Repository.Adding
import Cigars.Repository.Local

/-! Whether paging through a local repository shows the whole list. The page boundaries depend
on a count query of their own; the pages end where that count says. -/
namespace Cigars
open Collections Sql SQLDelightBaseRepository

section Length
variable {ρ α : Type} (dir : Direction) (key : ρ → Value) (cond : ρ → Truth) (f : ρ → α) (rows : List ρ)

theorem length_map_whereTrue :
    ((whereTrue cond rows).map f).length = rows.countP fun r => cond r = some true := by
  rw [List.length_map, whereTrue, List.countP_eq_length_filter]

theorem length_map_orderBy : ((orderBy dir key rows).map f).length = rows.length := by
  rw [List.length_map, (perm_orderBy _ _ _).length_eq]

theorem length_orderBy_whereTrue :
    ((orderBy dir key (whereTrue cond rows)).map f).length = rows.countP fun r => cond r = some true := by
  rw [length_map_orderBy, ← length_map_whereTrue cond f, List.length_map]

end Length

/-- The condition of the cigars queries: the favourites statements are chosen by a parameter. -/
def cigarsCond (filter : Option FiltersList) (w : CigarsWhere) : CigarsTable → Truth :=
  if hasParameter filter FAVORITES_ID then CigarsDatabase.favoritesCond w else w.cond

def ascending (sorting : Option Sorting) : Direction := if accenting sorting then .asc else .desc

namespace LocalRepository

/-- The plain listing query of a repository, on which its pages are cut out. -/
def source (R : LocalRepository) (sorting : Option Sorting) (filter : Option FiltersList) :
    Except Exn (Query R.Entity) :=
  match R with
  | cigars => (cigarsWhere filter).map fun w =>
      CigarsDatabase.select (cigarsCond filter w) (ascending sorting) (sortKey sorting)
  | favoriteCigars => (cigarsWhere (favoriteCigars.filterOf filter)).map fun w =>
      CigarsDatabase.select (CigarsDatabase.favoritesCond w) (ascending sorting) (sortKey sorting)
  | humidors => .ok (HumidorsDatabase.select (ascending sorting) (sortKey sorting))
  | cigarHumidors id => do
      let name ← getSQLWhere String filter "name"
      let brand ← getSQLWhere String filter "brand"
      return HumidorCigarsDatabase.cigarHumidors id name brand (sortKey sorting)
  | humidorCigars id => (cigarsWhere filter).map fun w =>
      HumidorCigarsDatabase.humidorCigars id w (sortKey sorting)
  | cigarHistory id =>
      .ok (HistoryDatabase.select (HistoryDatabase.ofCigar id) (historyDirection sorting))
  | humidorHistory id =>
      .ok (HistoryDatabase.select (HistoryDatabase.ofHumidor id) (historyDirection sorting))
  | cigarImages id => .ok (ImagesDatabase.select (ImagesDatabase.ofCigar id))
  | humidorImages id => .ok (ImagesDatabase.select (ImagesDatabase.ofHumidor id))

theorem hasParameter_favorites (filter : Option FiltersList) :
    hasParameter (favoriteCigars.filterOf filter) FAVORITES_ID = true := by
  simp [hasParameter, filterOf]

theorem all_eq_source (R : LocalRepository) (sorting : Option Sorting) (filter : Option FiltersList) :
    R.wrapper.all sorting (R.filterOf filter) R.listArgs = R.source sorting filter := by
  cases R with
  | cigars =>
    simp only [wrapper, CigarsTableQueries, source, filterOf, cigarsCond, ascending]
    cases cigarsWhere filter with
    | error e => rfl
    | ok w => cases accenting sorting <;> cases hasParameter filter FAVORITES_ID <;> rfl
  | favoriteCigars =>
    simp only [wrapper, CigarsTableQueries, source, hasParameter_favorites, ascending]
    cases cigarsWhere (favoriteCigars.filterOf filter) with
    | error e => rfl
    | ok w => cases accenting sorting <;> rfl
  | humidors =>
    simp only [wrapper, HumidorsTableQueries, source, ascending]
    cases accenting sorting <;> rfl
  | cigarHumidors id =>
    simp only [wrapper, CigarHumidorTableQueries, listArgs, byId_cigar, source, filterOf]
    rfl
  | humidorCigars id =>
    simp only [wrapper, CigarHumidorTableQueries, listArgs, byId_humidor, source, filterOf]
    cases cigarsWhere filter <;> rfl
  | cigarHistory id => exact historyAll_cigar sorting filter id
  | humidorHistory id => exact historyAll_humidor sorting filter id
  | cigarImages id => simp only [wrapper, ImagesTableQueries, listArgs, byId_cigar, source]; rfl
  | humidorImages id => simp only [wrapper, ImagesTableQueries, listArgs, byId_humidor, source]; rfl

/-- Every paged statement is the plain one with a limit and an offset. -/
theorem provider_eq_source (R : LocalRepository) (sorting : Option Sorting) (filter : Option FiltersList)
    (limit offset : ℕ) :
    R.wrapper.queryProvider sorting (R.filterOf filter) R.pagingArgs limit offset =
      (R.source sorting filter).map fun query => query.paged limit offset := by
  cases R with
  | cigars =>
    simp only [wrapper, CigarsTableQueries, source, filterOf, cigarsCond, ascending]
    cases cigarsWhere filter with
    | error e => rfl
    | ok w => cases accenting sorting <;> cases hasParameter filter FAVORITES_ID <;> rfl
  | favoriteCigars =>
    simp only [wrapper, CigarsTableQueries, source, hasParameter_favorites, ascending]
    cases cigarsWhere (favoriteCigars.filterOf filter) with
    | error e => rfl
    | ok w => cases accenting sorting <;> rfl
  | humidors =>
    simp only [wrapper, HumidorsTableQueries, source, ascending]
    cases accenting sorting <;> rfl
  | cigarHumidors id =>
    simp only [wrapper, CigarHumidorTableQueries, pagingArgs, byId_cigar, source, filterOf]
    cases getSQLWhere String filter "name" with
    | error e => rfl
    | ok name => cases getSQLWhere String filter "brand" <;> rfl
  | humidorCigars id =>
    simp only [wrapper, CigarHumidorTableQueries, pagingArgs, byId_humidor, source, filterOf]
    cases cigarsWhere filter <;> rfl
  | cigarHistory id =>
    simp only [wrapper, HistoryTableQueries, pagingArgs, byId_cigar, source, historyDirection]
    cases accenting sorting <;> rfl
  | humidorHistory id =>
    simp only [wrapper, HistoryTableQueries, pagingArgs, byId_humidor, source, historyDirection]
    cases accenting sorting <;> rfl
  | cigarImages id => simp only [wrapper, ImagesTableQueries, pagingArgs, byId_cigar, source]; rfl
  | humidorImages id => simp only [wrapper, ImagesTableQueries, pagingArgs, byId_humidor, source]; rfl

/-- The stored rows the list's `WHERE` holds of. -/
def matched (R : LocalRepository) (filter : Option FiltersList) (db : Database) : ℕ :=
  match R with
  | cigars | favoriteCigars =>
    match cigarsWhere (R.filterOf filter) with
    | .ok w => db.cigarsTable.rows.countP fun r => cigarsCond (R.filterOf filter) w r.2 = some true
    | .error _ => 0
  | humidors => db.humidorsTable.rows.length
  | cigarHumidors cigarId =>
    match getSQLWhere String filter "name", getSQLWhere String filter "brand" with
    | .ok name, .ok brand => (innerJoin db.cigarHumidorTable Prod.fst db.humidorsTable.toTable).countP
        fun r => HumidorCigarsDatabase.cigarHumidorsCond cigarId name brand r = some true
    | _, _ => 0
  | humidorCigars humidorId =>
    match cigarsWhere filter with
    | .ok w => (innerJoin db.cigarHumidorTable Prod.snd db.cigarsTable.toTable).countP
        fun r => HumidorCigarsDatabase.humidorCigarsCond humidorId w r = some true
    | .error _ => 0
  | cigarHistory id => db.historyTable.rows.countP fun r => HistoryDatabase.ofCigar id r.2 = some true
  | humidorHistory id => db.historyTable.rows.countP fun r => HistoryDatabase.ofHumidor id r.2 = some true
  | cigarImages id => db.imagesTable.rows.countP fun r => ImagesDatabase.ofCigar id r.2 = some true
  | humidorImages id => db.imagesTable.rows.countP fun r => ImagesDatabase.ofHumidor id r.2 = some true

/-- The stored rows the count query counts: those that are not favourites for the cigars, those
whose humidor has the cigar's id for the humidors of a cigar, and the other way round. -/
def counted (R : LocalRepository) (db : Database) : ℕ :=
  match R with
  | cigars => db.cigarsTable.rows.countP fun r => r.2.favorites == false
  | favoriteCigars => db.cigarsTable.rows.countP fun r => r.2.favorites == true
  | humidors => db.humidorsTable.rows.length
  | cigarHumidors cigarId => db.cigarHumidorTable.rows.countP fun r => r.1.1 == cigarId
  | humidorCigars humidorId => db.cigarHumidorTable.rows.countP fun r => r.1.2 == humidorId
  | cigarHistory id => db.historyTable.rows.countP fun r => HistoryDatabase.ofCigar id r.2 = some true
  | humidorHistory id => db.historyTable.rows.countP fun r => HistoryDatabase.ofHumidor id r.2 = some true
  | cigarImages id => db.imagesTable.rows.countP fun r => ImagesDatabase.ofCigar id r.2 = some true
  | humidorImages id => db.imagesTable.rows.countP fun r => ImagesDatabase.ofHumidor id r.2 = some true

/-- The paging source's count query. -/
theorem pagingQuery_eq (R : LocalRepository) : R.wrapper.count R.pagingArgs = .ok R.counted := by
  cases R with
  | cigars | favoriteCigars | humidors => rfl
  | cigarHumidors id => simp only [wrapper, CigarHumidorTableQueries, pagingArgs, byId_cigar]; rfl
  | humidorCigars id => simp only [wrapper, CigarHumidorTableQueries, pagingArgs, byId_humidor]; rfl
  | cigarHistory id => simp only [wrapper, HistoryTableQueries, pagingArgs, byId_cigar]; rfl
  | humidorHistory id => simp only [wrapper, HistoryTableQueries, pagingArgs, byId_humidor]; rfl
  | cigarImages id => simp only [wrapper, ImagesTableQueries, pagingArgs, byId_cigar]; rfl
  | humidorImages id => simp only [wrapper, ImagesTableQueries, pagingArgs, byId_humidor]; rfl

theorem pagingCount_eq (R : LocalRepository) (db : Database) :
    SQLDelightBaseRepository.count R.wrapper R.pagingArgs db = .ok (R.counted db) := by
  rw [SQLDelightBaseRepository.count, pagingQuery_eq]
  rfl

/-- The listing query has one result row for each stored row it matches. -/
theorem length_source {R : LocalRepository} {sorting : Option Sorting} {filter : Option FiltersList}
    {query : Query R.Entity} (h : R.source sorting filter = .ok query) (db : Database) :
    (query db).length = R.matched filter db := by
  cases R with
  | cigars =>
    obtain ⟨w, hw, rfl⟩ := exists_of_map_ok h
    simp only [matched, filterOf, hw]
    exact length_orderBy_whereTrue _ _ _ _ _
  | favoriteCigars =>
    obtain ⟨w, hw, rfl⟩ := exists_of_map_ok h
    simp only [matched, cigarsCond, hasParameter_favorites, if_true, hw]
    exact length_orderBy_whereTrue _ _ _ _ _
  | humidors => cases h; exact length_map_orderBy _ _ _ _
  | cigarHumidors id =>
    simp only [source, matched] at h ⊢
    cases hname : getSQLWhere String filter "name" with
    | error e => rw [hname] at h; cases h
    | ok name =>
      cases hbrand : getSQLWhere String filter "brand" with
      | error e => rw [hname, hbrand] at h; cases h
      | ok brand =>
        rw [hname, hbrand] at h
        cases h
        exact length_orderBy_whereTrue _ _ _ _ _
  | humidorCigars id =>
    obtain ⟨w, hw, rfl⟩ := exists_of_map_ok h
    simp only [matched, hw]
    exact length_orderBy_whereTrue _ _ _ _ _
  | cigarHistory id => cases h; exact length_orderBy_whereTrue _ _ _ _ _
  | humidorHistory id => cases h; exact length_orderBy_whereTrue _ _ _ _ _
  | cigarImages id => cases h; exact length_map_whereTrue _ _ _
  | humidorImages id => cases h; exact length_map_whereTrue _ _ _

/-- The result rows of a list that could be read. -/
theorem rows_of_allSync {R : LocalRepository} {sorting : Option Sorting} {filter : Option FiltersList}
    {db : Database} {rows : List R.Entity} (h : R.allSync sorting filter db = .ok rows) :
    ∃ query, R.source sorting filter = .ok query ∧ query db = rows.map .ok := by
  obtain ⟨query, hall, hquery⟩ := exists_all_of_allSync h
  rw [all_eq_source] at hall
  exact ⟨query, hall, (collectRows_eq_ok_iff _ _).mp hquery⟩

/-- A load reads its part of the list. -/
theorem loadRows_eq {R : LocalRepository} {sorting : Option Sorting} {filter : Option FiltersList}
    {db : Database} {rows : List R.Entity} (h : R.allSync sorting filter db = .ok rows) (limit offset : ℕ) :
    loadRows R.wrapper sorting (R.filterOf filter) R.pagingArgs db limit offset =
      .ok (limitOffset limit offset rows) := by
  obtain ⟨query, hsource, hrows⟩ := rows_of_allSync h
  have hprovider := provider_eq_source R sorting filter limit offset
  rw [hsource] at hprovider
  rw [loadRows_of_provider hprovider, executeAsList, collectRows_eq_ok_iff]
  show limitOffset limit offset (query db) = _
  rw [hrows, limitOffset, limitOffset, List.map_take, List.map_drop]

theorem length_of_allSync {R : LocalRepository} {sorting : Option Sorting} {filter : Option FiltersList}
    {db : Database} {rows : List R.Entity} (h : R.allSync sorting filter db = .ok rows) :
    rows.length = R.matched filter db := by
  obtain ⟨query, hsource, hrows⟩ := rows_of_allSync h
  rw [← length_source hsource db, hrows, List.length_map]

theorem paged_iff {R : LocalRepository} {sorting : Option Sorting} {filter : Option FiltersList}
    {db : Database} {pageSize : ℕ} (hsize : 1 ≤ pageSize) {rows : List R.Entity}
    (h : R.allSync sorting filter db = .ok rows) :
    R.Paged sorting filter db pageSize rows ↔ rows.length ≤ pageEnd (R.counted db) pageSize := by
  rw [← pages_complete_iff (loadRows_eq h) hsize, Paged]
  constructor
  · rintro ⟨count, hcount, hpages⟩
    rw [pagingCount_eq] at hcount
    cases hcount
    exact hpages
  · intro hpages
    exact ⟨R.counted db, pagingCount_eq R db, hpages⟩

/-- The repositories whose count query counts at least what they list, whatever the filter. -/
def CountsItsRows : LocalRepository → Prop
  | cigars | cigarHumidors _ | humidorCigars _ => False
  | _ => True

theorem matched_le_counted {R : LocalRepository} (hR : R.CountsItsRows) (filter : Option FiltersList)
    (db : Database) : R.matched filter db ≤ R.counted db := by
  cases R with
  | cigars | cigarHumidors _ | humidorCigars _ => exact hR.elim
  | favoriteCigars =>
    simp only [matched, cigarsCond, hasParameter_favorites, if_true]
    cases cigarsWhere (favoriteCigars.filterOf filter) with
    | error e => exact Nat.zero_le _
    | ok w =>
      refine List.countP_mono_left fun r _ hr => ?_
      have hcond := (CigarsDatabase.favoritesCond_eq_true w r.2).mp (of_decide_eq_true hr)
      exact beq_of_eq hcond.2
  | humidors | cigarHistory _ | humidorHistory _ | cigarImages _ | humidorImages _ => exact le_refl _

/-- Favourites, humidors, history and images are shown whole, page by page. -/
theorem paged_of_countsItsRows {R : LocalRepository} (hR : R.CountsItsRows) {sorting : Option Sorting}
    {filter : Option FiltersList} {db : Database} {pageSize : ℕ} (hsize : 1 ≤ pageSize)
    {rows : List R.Entity} (h : R.allSync sorting filter db = .ok rows) :
    R.Paged sorting filter db pageSize rows := by
  rw [paged_iff hsize h, length_of_allSync h]
  exact le_trans (matched_le_counted hR filter db) (le_pageEnd_of_count hsize)

/-- Following the pages from offset 0 gives exactly the list when and only when the count query
reaches far enough for the rows that match: up to the first page boundary at or after their number. -/
theorem paging_complete_iff (R : LocalRepository) (sorting : Option Sorting) (filter : Option FiltersList)
    (db : Database) (pageSize : ℕ) (hsize : 1 ≤ pageSize) (rows : List R.Entity)
    (h : R.allSync sorting filter db = .ok rows) :
    R.Paged sorting filter db pageSize rows ↔ R.matched filter db ≤ pageEnd (R.counted db) pageSize := by
  rw [paged_iff hsize h, length_of_allSync h]

/-- A cigar that the default bounds let through, marked as a favourite. -/
def favorite (name : String) : Cigar := { emptyCigar with name, length := "5'", favorites := true }

def twoFavorites : Database := ((Database.empty 0 0 0 0).addCigar (favorite "A")).addCigar (favorite "B")

def twoFavoritesList : List Cigar := [{ favorite "A" with rowid := 1 }, { favorite "B" with rowid := 2 }]

theorem paging_complete_twoFavorites : favoriteCigars.allSync none none twoFavorites = .ok twoFavoritesList ∧
    favoriteCigars.Paged none none twoFavorites 1 twoFavoritesList :=
  ⟨rfl, (paging_complete_iff favoriteCigars none none twoFavorites 1 (by decide) twoFavoritesList rfl).mpr
    (by decide)⟩

/-- The list of cigars ends after its first page when the others are favourites. -/
theorem paging_incomplete_twoFavorites : cigars.allSync none none twoFavorites = .ok twoFavoritesList ∧
    ¬ cigars.Paged none none twoFavorites 1 twoFavoritesList :=
  ⟨rfl, fun h => absurd ((paged_iff (by decide) rfl).mp h) (by decide)⟩

end LocalRepository
end Cigars
