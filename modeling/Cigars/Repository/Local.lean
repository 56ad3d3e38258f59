import Cigars.Database.Listing
import Cigars.Sql.Paging

/-! Filters, the listing side of the query wrappers, and the nine repositories over the local
database with their `allSync`, `paging` and `count`. -/
namespace Cigars
open Sql

/-- A filter's value; `other` stands for a value of any other type, by its `toString`. -/
inductive FilterValue
  | int (value : ℤ)
  | long (value : ℤ)
  | double (value : ℚ)
  | boolean (value : Bool)
  | other (text : String)
  deriving DecidableEq

structure FilterParameter (T : Type) where
  key : String
  value : T
  deriving DecidableEq

abbrev FiltersList : Type := List (FilterParameter FilterValue)

abbrev Sorting : Type := FilterParameter Bool

/-- The types `getSQLWhere` is used at: the checked cast `as T` and the default. -/
class SQLWhere (T : Type) where
  castAs : FilterValue → Option T
  unfiltered : T

instance : SQLWhere String where
  castAs
    | .other text => some text
    | _ => none
  unfiltered := "%%"

/-- `Long`. -/
instance : SQLWhere ℤ where
  castAs
    | .long value => some value
    | _ => none
  unfiltered := 0

def getSQLWhere (T : Type) [SQLWhere T] (list : Option FiltersList) (key : String) : Except Exn T :=
  match list.bind fun l => l.find? fun it => it.key == key with
  | none => .ok SQLWhere.unfiltered
  | some entry =>
    let value := match entry.value with
      | .other text => .other ("%" ++ text ++ "%")
      | value => value
    match SQLWhere.castAs value with
    | some t => .ok t
    | none => .error .classCast

def hasParameter (filter : Option FiltersList) (key : String) : Bool :=
  (filter.getD []).any fun it => it.key == key

def CIGAR_ID : String := "cigar_id"

def HUMIDOR_ID : String := "humor_id"

def FAVORITES_ID : String := "favorites"

/-- The `Any?` of a pair in `vararg args`. -/
inductive ArgValue
  | long (value : ℤ)
  | boolean (value : Bool)
  | text (value : String)
  | null
  deriving DecidableEq

abbrev Args : Type := List (String × ArgValue)

/-- `it.second as Long`. -/
def ArgValue.asLong : ArgValue → Except Exn ℤ
  | long value => .ok value
  | null => .error .nullPointer
  | _ => .error .classCast

/-- `args.find { it.first == CIGAR_ID }?.let { ... }`, then the same for `HUMIDOR_ID`. -/
def byId {α : Type} (args : Args) (ofCigar ofHumidor : ℤ → Except Exn α) (otherwise : Except Exn α) :
    Except Exn α :=
  match args.lookup CIGAR_ID with
  | some second => second.asLong >>= ofCigar
  | none =>
    match args.lookup HUMIDOR_ID with
    | some second => second.asLong >>= ofHumidor
    | none => otherwise

@[simp] theorem byId_cigar {α : Type} (id : ℤ) (ofCigar ofHumidor : ℤ → Except Exn α)
    (otherwise : Except Exn α) : byId [(CIGAR_ID, .long id)] ofCigar ofHumidor otherwise = ofCigar id := by
  rw [byId, List.lookup_cons_self]
  rfl

@[simp] theorem byId_humidor {α : Type} (id : ℤ) (ofCigar ofHumidor : ℤ → Except Exn α)
    (otherwise : Except Exn α) : byId [(HUMIDOR_ID, .long id)] ofCigar ofHumidor otherwise = ofHumidor id := by
  have hne : (CIGAR_ID == HUMIDOR_ID) = false := by decide
  rw [byId, List.lookup_cons, hne, List.lookup_nil, List.lookup_cons_self]
  rfl

/-- The listing side of `DatabaseQueries`. `queryProvider` is the local function of `paging`. -/
structure ListQueries (ENTITY : Type) where
  all : Option Sorting → Option FiltersList → Args → Except Exn (Query ENTITY)
  queryProvider : Option Sorting → Option FiltersList → Args → ℕ → ℕ → Except Exn (Query ENTITY)
  count : Args → Except Exn (Database → ℕ)

/-- The eight bind arguments, in the order of the call. -/
def cigarsWhere (filter : Option FiltersList) : Except Exn CigarsWhere := do
  let name ← getSQLWhere String filter "name"
  let brand ← getSQLWhere String filter "brand"
  let country ← getSQLWhere String filter "country"
  let date ← getSQLWhere ℤ filter "date"
  let cigar ← getSQLWhere String filter "cigar"
  let gauge ← getSQLWhere ℤ filter "gauge"
  let length ← getSQLWhere String filter "length"
  let strength ← getSQLWhere ℤ filter "strength"
  return { name, brand, country, date, cigar, gauge, length, strength }

def sortKey (sorting : Option Sorting) : String := (sorting.map FilterParameter.key).getD "name"

def accenting (sorting : Option Sorting) : Bool := (sorting.map FilterParameter.value).getD true

def CigarsTableQueries : ListQueries Cigar where
  all sorting filter _ := do
    let w ← cigarsWhere filter
    return if accenting sorting then
      if hasParameter filter FAVORITES_ID then CigarsDatabase.favoritesAllAsc w (sortKey sorting)
      else CigarsDatabase.allAsc w (sortKey sorting)
    else
      if hasParameter filter FAVORITES_ID then CigarsDatabase.favoritesAllDesc w (sortKey sorting)
      else CigarsDatabase.allDesc w (sortKey sorting)
  queryProvider sorting filter _ limit offset := do
    let w ← cigarsWhere filter
    return if accenting sorting then
      if hasParameter filter FAVORITES_ID then
        CigarsDatabase.favoritesPagedAsc w (sortKey sorting) limit offset
      else CigarsDatabase.pagedAsc w (sortKey sorting) limit offset
    else
      if hasParameter filter FAVORITES_ID then
        CigarsDatabase.favoritesPagedDesc w (sortKey sorting) limit offset
      else CigarsDatabase.pagedDesc w (sortKey sorting) limit offset
  count args :=
    let favorites := match args.lookup "favorites" with
      | some (.boolean value) => value
      | _ => false
    .ok (CigarsDatabase.count favorites)

def HumidorsTableQueries : ListQueries Humidor where
  all sorting _ _ :=
    .ok <| if accenting sorting then HumidorsDatabase.allAsc (sortKey sorting)
      else HumidorsDatabase.allDesc (sortKey sorting)
  queryProvider sorting _ _ limit offset :=
    .ok <| if accenting sorting then HumidorsDatabase.pagedAsc (sortKey sorting) limit offset
      else HumidorsDatabase.pagedDesc (sortKey sorting) limit offset
  count _ := .ok HumidorsDatabase.count

/-- `count` gives the id of a cigar to `cigarsCount`, which counts by humidor, and the id of a
humidor to `humidorsCount`, which counts by cigar. -/
def CigarHumidorTableQueries : ListQueries HumidorCigar where
  all sorting filter args := byId args
    (fun rowId => do
      let name ← getSQLWhere String filter "name"
      let brand ← getSQLWhere String filter "brand"
      return HumidorCigarsDatabase.cigarHumidors rowId name brand (sortKey sorting))
    (fun rowId => do
      let w ← cigarsWhere filter
      return HumidorCigarsDatabase.humidorCigars rowId w (sortKey sorting))
    (.error (.illegalArgument "No cigar or humidor specified"))
  queryProvider sorting filter args limit offset := byId args
    (fun rowId => do
      let name ← getSQLWhere String filter "name"
      let brand ← getSQLWhere String filter "brand"
      return HumidorCigarsDatabase.pagedCigarHumidors rowId name brand (sortKey sorting) limit offset)
    (fun rowId => do
      let w ← cigarsWhere filter
      return HumidorCigarsDatabase.pagedHumidorCigars rowId w (sortKey sorting) limit offset)
    (.ok HumidorCigarsDatabase.all)
  count args := byId args (fun id => .ok (HumidorCigarsDatabase.cigarsCount id))
    (fun id => .ok (HumidorCigarsDatabase.humidorsCount id))
    (.error (.illegalArgument "No cigar or humidor specified"))

def HistoryTableQueries : ListQueries History where
  all sorting _ args := byId args
    (fun id => .ok <| if !accenting sorting then HistoryDatabase.cigarHistory id
      else HistoryDatabase.cigarHistoryDesc id)
    (fun id => .ok <| if !accenting sorting then HistoryDatabase.humidorHistory id
      else HistoryDatabase.humidorHistoryDesc id)
    (.error (.illegalArgument "Unknown argument"))
  queryProvider sorting _ args limit offset := byId args
    (fun id => .ok <| if !accenting sorting then HistoryDatabase.pagedCigarHistory id limit offset
      else HistoryDatabase.pagedCigarHistoryDesc id limit offset)
    (fun id => .ok <| if !accenting sorting then HistoryDatabase.pagedHumidorHistory id limit offset
      else HistoryDatabase.pagedHumidorHistoryDesc id limit offset)
    (.error (.illegalArgument "Unknown argument"))
  count args := byId args (fun id => .ok (HistoryDatabase.cigarHistoryCount id))
    (fun id => .ok (HistoryDatabase.humidorHistoryCount id))
    (.error (.illegalArgument "Unknown argument"))

/-- The direction in which history is listed: the flag is negated. -/
def historyDirection (sorting : Option Sorting) : Direction := if accenting sorting then .desc else .asc

theorem historyAll_cigar (sorting : Option Sorting) (filter : Option FiltersList) (id : ℤ) :
    HistoryTableQueries.all sorting filter [(CIGAR_ID, .long id)] =
      .ok (HistoryDatabase.select (HistoryDatabase.ofCigar id) (historyDirection sorting)) := by
  simp only [HistoryTableQueries, byId_cigar, historyDirection]
  cases accenting sorting <;> rfl

theorem historyAll_humidor (sorting : Option Sorting) (filter : Option FiltersList) (id : ℤ) :
    HistoryTableQueries.all sorting filter [(HUMIDOR_ID, .long id)] =
      .ok (HistoryDatabase.select (HistoryDatabase.ofHumidor id) (historyDirection sorting)) := by
  simp only [HistoryTableQueries, byId_humidor, historyDirection]
  cases accenting sorting <;> rfl

def ImagesTableQueries : ListQueries CigarImage where
  all _ _ args := byId args (fun id => .ok (ImagesDatabase.cigarImages id))
    (fun id => .ok (ImagesDatabase.humidorImages id)) (.error (.illegalArgument "Unknown argument"))
  queryProvider _ _ args limit offset := byId args
    (fun id => .ok (ImagesDatabase.pagedCigarImages id limit offset))
    (fun id => .ok (ImagesDatabase.pagedHumidorImages id limit offset))
    (.error (.illegalArgument "Unknown argument"))
  count args := byId args (fun id => .ok (ImagesDatabase.cigarImagesCount id))
    (fun id => .ok (ImagesDatabase.humidorImagesCount id))
    (.error (.illegalArgument "Unknown argument"))

namespace SQLDelightBaseRepository
variable {ENTITY : Type} (wrapper : ListQueries ENTITY)

def allSync (sorting : Option Sorting) (filter : Option FiltersList) (args : Args) (db : Database) :
    Except Exn (List ENTITY) := do
  let query ← wrapper.all sorting filter args
  executeAsList query db

/-- What the paging source reads at one load. -/
def loadRows (sorting : Option Sorting) (filter : Option FiltersList) (args : Args) (db : Database)
    (limit offset : ℕ) : Except Exn (List ENTITY) := do
  let query ← wrapper.queryProvider sorting filter args limit offset
  executeAsList query db

def count (args : Args) (db : Database) : Except Exn ℕ := do
  let query ← wrapper.count args
  return query db

variable {wrapper} {sorting : Option Sorting} {filter : Option FiltersList} {args : Args}

theorem allSync_of_all {query : Query ENTITY} (h : wrapper.all sorting filter args = .ok query)
    (db : Database) : allSync wrapper sorting filter args db = executeAsList query db := by
  rw [allSync, h]
  rfl

theorem exists_all_of_allSync {db : Database} {rows : List ENTITY}
    (h : allSync wrapper sorting filter args db = .ok rows) :
    ∃ query, wrapper.all sorting filter args = .ok query ∧ executeAsList query db = .ok rows := by
  unfold allSync at h
  cases hall : wrapper.all sorting filter args with
  | error e =>
    rw [hall] at h
    cases h
  | ok query =>
    rw [hall] at h
    exact ⟨query, rfl, h⟩

theorem loadRows_of_provider {query : Query ENTITY} {limit offset : ℕ}
    (h : wrapper.queryProvider sorting filter args limit offset = .ok query) (db : Database) :
    loadRows wrapper sorting filter args db limit offset = executeAsList query db := by
  rw [loadRows, h]
  rfl

end SQLDelightBaseRepository

/-- The repositories over the local database, with the id they are created for. -/
inductive LocalRepository
  | cigars
  | favoriteCigars
  | humidors
  | cigarHumidors (cigarId : ℤ)
  | humidorCigars (humidorId : ℤ)
  | cigarHistory (id : ℤ)
  | humidorHistory (id : ℤ)
  | cigarImages (cigarId : ℤ)
  | humidorImages (humidorId : ℤ)
  deriving DecidableEq

namespace LocalRepository

def Entity : LocalRepository → Type
  | cigars => Cigar
  | favoriteCigars => Cigar
  | humidors => Humidor
  | cigarHumidors _ => HumidorCigar
  | humidorCigars _ => HumidorCigar
  | cigarHistory _ => History
  | humidorHistory _ => History
  | cigarImages _ => CigarImage
  | humidorImages _ => CigarImage

def wrapper : (R : LocalRepository) → ListQueries R.Entity
  | cigars => CigarsTableQueries
  | favoriteCigars => CigarsTableQueries
  | humidors => HumidorsTableQueries
  | cigarHumidors _ => CigarHumidorTableQueries
  | humidorCigars _ => CigarHumidorTableQueries
  | cigarHistory _ => HistoryTableQueries
  | humidorHistory _ => HistoryTableQueries
  | cigarImages _ => ImagesTableQueries
  | humidorImages _ => ImagesTableQueries

/-- The arguments `allSync` passes on. -/
def listArgs : LocalRepository → Args
  | cigars => [("", .null)]
  | favoriteCigars => [("", .null)]
  | humidors => [("rowid", .text "DESC")]
  | cigarHumidors id | cigarHistory id | cigarImages id => [(CIGAR_ID, .long id)]
  | humidorCigars id | humidorHistory id | humidorImages id => [(HUMIDOR_ID, .long id)]

/-- The arguments `paging` passes on, to the rows and to the count. -/
def pagingArgs : LocalRepository → Args
  | cigars => [("", .null)]
  | favoriteCigars => [(FAVORITES_ID, .boolean true)]
  | humidors => [("rowid", .text "DESC")]
  | cigarHumidors id | cigarHistory id | cigarImages id => [(CIGAR_ID, .long id)]
  | humidorCigars id | humidorHistory id | humidorImages id => [(HUMIDOR_ID, .long id)]

/-- The arguments `count()` passes on. -/
def countArgs : LocalRepository → Args
  | cigars => [("favorites", .boolean false)]
  | favoriteCigars => [(FAVORITES_ID, .boolean true)]
  | humidors => [("rowid", .text "DESC")]
  | cigarHumidors id | cigarHistory id | cigarImages id => [(CIGAR_ID, .long id)]
  | humidorCigars id | humidorHistory id | humidorImages id => [(HUMIDOR_ID, .long id)]

/-- The favourites repository adds its own parameter to the filter. -/
def filterOf : LocalRepository → Option FiltersList → Option FiltersList
  | favoriteCigars, filter => some (filter.getD [] ++ [⟨FAVORITES_ID, .boolean true⟩])
  | _, filter => filter

def allSync (R : LocalRepository) (sorting : Option Sorting) (filter : Option FiltersList) (db : Database) :
    Except Exn (List R.Entity) :=
  SQLDelightBaseRepository.allSync R.wrapper sorting (R.filterOf filter) R.listArgs db

/-- Loading all pages of size `pageSize` gives `rows`. -/
def Paged (R : LocalRepository) (sorting : Option Sorting) (filter : Option FiltersList) (db : Database)
    (pageSize : ℕ) (rows : List R.Entity) : Prop :=
  ∃ count, SQLDelightBaseRepository.count R.wrapper R.pagingArgs db = .ok count ∧
    Pages (SQLDelightBaseRepository.loadRows R.wrapper sorting (R.filterOf filter) R.pagingArgs db)
      count pageSize rows

def count (R : LocalRepository) (db : Database) : Except Exn ℕ :=
  SQLDelightBaseRepository.count R.wrapper R.countArgs db

end LocalRepository
end Cigars
