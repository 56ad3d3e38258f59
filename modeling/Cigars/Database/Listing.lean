import Cigars.Database.Schema
import Cigars.Sql.Select

/-! The statements of the `.sq` files that list rows and count them. A query is its result rows,
each with the mapper's outcome, since a mapper can throw. -/
namespace Cigars
open Sql

abbrev Query (ENTITY : Type) : Type := Database → List (Except Exn ENTITY)

/-- Maps the rows in order; the first throw ends it. -/
def collectRows {α : Type} : List (Except Exn α) → Except Exn (List α)
  | [] => .ok []
  | .ok a :: rows => (collectRows rows).map (a :: ·)
  | .error e :: _ => .error e

def executeAsList {ENTITY : Type} (query : Query ENTITY) (db : Database) : Except Exn (List ENTITY) :=
  collectRows (query db)

theorem collectRows_map_ok {α : Type} (as : List α) : collectRows (as.map .ok) = .ok as := by
  induction as with
  | nil => rfl
  | cons a as ih => rw [List.map_cons, collectRows, ih]; rfl

theorem collectRows_map_comp_ok {ρ α : Type} (f : ρ → α) (rows : List ρ) :
    collectRows (rows.map fun r => .ok (f r)) = .ok (rows.map f) := by
  rw [← collectRows_map_ok, List.map_map]
  rfl

theorem collectRows_eq_ok_iff {α : Type} (rows : List (Except Exn α)) (as : List α) :
    collectRows rows = .ok as ↔ rows = as.map .ok := by
  constructor
  · intro h
    induction rows generalizing as with
    | nil =>
      cases h
      rfl
    | cons r rows ih =>
      cases r with
      | error e => cases h
      | ok a =>
        rw [collectRows] at h
        cases hrest : collectRows rows with
        | error e =>
          rw [hrest] at h
          cases h
        | ok bs =>
          rw [hrest] at h
          cases h
          rw [List.map_cons, ← ih bs hrest]
  · rintro rfl
    exact collectRows_map_ok as

/-- If no mapper throws, each row has its entity, in order. -/
theorem exists_collectRows {ρ α : Type} {f : ρ → Except Exn α} {P : ρ → α → Prop} {rows : List ρ}
    (h : ∀ r ∈ rows, ∃ a, f r = .ok a ∧ P r a) :
    ∃ as, collectRows (rows.map f) = .ok as ∧ List.Forall₂ P rows as := by
  induction rows with
  | nil => exact ⟨[], rfl, List.Forall₂.nil⟩
  | cons r rows ih =>
    obtain ⟨a, ha, hP⟩ := h r List.mem_cons_self
    obtain ⟨as, has, hall⟩ := ih fun r' hr' => h r' (List.mem_cons_of_mem r hr')
    refine ⟨a :: as, ?_, List.Forall₂.cons hP hall⟩
    rw [List.map_cons, ha, collectRows, has]
    rfl

/-- What a list of entities shows of its rows, in the order of the rows. -/
theorem map_of_collectRows {ρ α β : Type} {f : ρ → Except Exn α} (g : α → β) (k : ρ → β) {rows : List ρ}
    {as : List α} (hk : ∀ r ∈ rows, ∀ a, f r = .ok a → g a = k r) (h : collectRows (rows.map f) = .ok as) :
    as.map g = rows.map k := by
  rw [collectRows_eq_ok_iff] at h
  induction rows generalizing as with
  | nil =>
    cases List.map_eq_nil_iff.mp h.symm
    rfl
  | cons r rows ih =>
    cases as with
    | nil => cases h
    | cons a as =>
      obtain ⟨hr, hrows⟩ := List.cons_eq_cons.mp h
      rw [List.map_cons, List.map_cons, hk r List.mem_cons_self a hr,
        ih (fun r' hr' => hk r' (List.mem_cons_of_mem r hr')) hrows]

/-- A paged statement is the plain one with `LIMIT :limit OFFSET :offset`. -/
def Query.paged {ENTITY : Type} (query : Query ENTITY) (limit offset : ℕ) : Query ENTITY :=
  fun db => limitOffset limit offset (query db)

/-! ### `CigarsDatabase.sq` -/

/-- The bind arguments of the eight conditions on a cigar. -/
structure CigarsWhere where
  name : String
  brand : String
  country : String
  date : ℤ
  cigar : String
  gauge : ℤ
  length : String
  strength : ℤ
  deriving DecidableEq

def CigarsWhere.cond (w : CigarsWhere) (r : CigarsTable) : Truth :=
  (like r.name w.name).and <| (like r.brand w.brand).and <| (like r.country w.country).and <|
    (ge r.date w.date).and <| (like r.cigar w.cigar).and <| (ge (some r.gauge) w.gauge).and <|
      (ge (some r.length) w.length).and (ge (some r.strength) w.strength)

/-- `CASE WHEN :sort = 'name' THEN name ... ELSE NULL END`. -/
def cigarsSort (sort : String) (r : CigarsTable) : Value :=
  if sort = "name" then .text r.name
  else if sort = "brand" then .ofText r.brand
  else if sort = "country" then .ofText r.country
  else if sort = "date" then .ofInteger r.date
  else if sort = "cigar" then .text r.cigar
  else if sort = "gauge" then .integer r.gauge
  else if sort = "length" then .text r.length
  else if sort = "strength" then .integer r.strength
  else if sort = "rating" then .ofInteger r.rating
  else if sort = "myrating" then .ofInteger r.myrating
  else .null

namespace CigarsDatabase

/-- The common body of the eight listing statements. -/
def select (cond : CigarsTable → Truth) (dir : Direction) (sort : String) : Query Cigar := fun db =>
  (orderBy dir (fun r => cigarsSort sort r.2) (whereTrue (fun r => cond r.2) db.cigarsTable.rows)).map
    fun r => .ok (cigarFactory r.1 r.2)

/-- The conditions with `favorites == 1`. -/
def favoritesCond (w : CigarsWhere) (r : CigarsTable) : Truth := (w.cond r).and (some r.favorites)

theorem favoritesCond_eq_true (w : CigarsWhere) (r : CigarsTable) :
    favoritesCond w r = some true ↔ w.cond r = some true ∧ r.favorites = true := by
  rw [favoritesCond, Truth.and_eq_true, Option.some_inj]

def allAsc (w : CigarsWhere) (sort : String) : Query Cigar := select w.cond .asc sort

def allDesc (w : CigarsWhere) (sort : String) : Query Cigar := select w.cond .desc sort

def pagedAsc (w : CigarsWhere) (sort : String) (limit offset : ℕ) : Query Cigar :=
  (select w.cond .asc sort).paged limit offset

def pagedDesc (w : CigarsWhere) (sort : String) (limit offset : ℕ) : Query Cigar :=
  (select w.cond .desc sort).paged limit offset

def favoritesAllAsc (w : CigarsWhere) (sort : String) : Query Cigar := select (favoritesCond w) .asc sort

def favoritesAllDesc (w : CigarsWhere) (sort : String) : Query Cigar := select (favoritesCond w) .desc sort

def favoritesPagedAsc (w : CigarsWhere) (sort : String) (limit offset : ℕ) : Query Cigar :=
  (select (favoritesCond w) .asc sort).paged limit offset

def favoritesPagedDesc (w : CigarsWhere) (sort : String) (limit offset : ℕ) : Query Cigar :=
  (select (favoritesCond w) .desc sort).paged limit offset

def count (favorites : Bool) (db : Database) : ℕ :=
  db.cigarsTable.rows.countP fun r => r.2.favorites == favorites

end CigarsDatabase

/-! ### `HumidorsDatabase.sq` -/

def humidorsSort (sort : String) (r : HumidorsTable) : Value :=
  if sort = "name" then .text r.name
  else if sort = "count" then .integer r.count
  else if sort = "holds" then .integer r.holds
  else .null

namespace HumidorsDatabase

def select (dir : Direction) (sort : String) : Query Humidor := fun db =>
  (orderBy dir (fun r => humidorsSort sort r.2) db.humidorsTable.rows).map
    fun r => .ok (humidorFactory r.1 r.2)

def allAsc (sort : String) : Query Humidor := select .asc sort

def allDesc (sort : String) : Query Humidor := select .desc sort

def pagedAsc (sort : String) (limit offset : ℕ) : Query Humidor := (select .asc sort).paged limit offset

def pagedDesc (sort : String) (limit offset : ℕ) : Query Humidor := (select .desc sort).paged limit offset

def count (db : Database) : ℕ := db.humidorsTable.rows.length

end HumidorsDatabase

/-! ### `HumidorCigarsDatabase.sq` -/

def cigarHumidorsSort (sort : String) (r : CigarHumidorTable) (h : HumidorsTable) : Value :=
  if sort = "name" then .text h.name
  else if sort = "brand" then .text h.brand
  else if sort = "count" then .integer r.count
  else .null

/-- `INNER JOIN` with the table whose rowid is the column `column` of the stock row. -/
def innerJoin {ρ : Type} (stock : Table (ℤ × ℤ) CigarHumidorTable) (column : ℤ × ℤ → ℤ) (t : Table ℤ ρ) :
    List (((ℤ × ℤ) × CigarHumidorTable) × ρ) :=
  stock.rows.filterMap fun r => (t.find? (column r.1)).map (r, ·)

namespace HumidorCigarsDatabase

/-- `humidorCigarFactory` on a stock row. -/
def mapper (db : Database) (r : (ℤ × ℤ) × CigarHumidorTable) : Except Exn HumidorCigar :=
  humidorCigarFactory db r.2.count r.1.1 r.1.2

def all : Query HumidorCigar := fun db => db.cigarHumidorTable.rows.map (mapper db)

/-- The condition on a stock row joined with its humidor. -/
def cigarHumidorsCond (cigarId : ℤ) (name brand : String)
    (r : ((ℤ × ℤ) × CigarHumidorTable) × HumidorsTable) : Truth :=
  Truth.and (some (r.1.1.2 == cigarId)) <| (like r.2.name name).and (like r.2.brand brand)

def cigarHumidors (cigarId : ℤ) (name brand : String) (sort : String) : Query HumidorCigar := fun db =>
  (orderBy .asc (fun r => cigarHumidorsSort sort r.1.2 r.2) <|
    whereTrue (cigarHumidorsCond cigarId name brand)
      (innerJoin db.cigarHumidorTable Prod.fst db.humidorsTable.toTable)).map fun r => mapper db r.1

def pagedCigarHumidors (cigarId : ℤ) (name brand : String) (sort : String) (limit offset : ℕ) :
    Query HumidorCigar :=
  (cigarHumidors cigarId name brand sort).paged limit offset

/-- The condition on a stock row joined with its cigar. -/
def humidorCigarsCond (humidorId : ℤ) (w : CigarsWhere)
    (r : ((ℤ × ℤ) × CigarHumidorTable) × CigarsTable) : Truth :=
  Truth.and (some (r.1.1.1 == humidorId)) (w.cond r.2)

def humidorCigars (humidorId : ℤ) (w : CigarsWhere) (sort : String) : Query HumidorCigar := fun db =>
  (orderBy .asc (fun r => cigarsSort sort r.2) <| whereTrue (humidorCigarsCond humidorId w)
    (innerJoin db.cigarHumidorTable Prod.snd db.cigarsTable.toTable)).map fun r => mapper db r.1

def pagedHumidorCigars (humidorId : ℤ) (w : CigarsWhere) (sort : String) (limit offset : ℕ) :
    Query HumidorCigar :=
  (humidorCigars humidorId w sort).paged limit offset

/-- `WHERE cigarId = :id`. -/
def humidorsCount (id : ℤ) (db : Database) : ℕ :=
  db.cigarHumidorTable.rows.countP fun r => r.1.2 == id

/-- `WHERE humidorId = :id`. -/
def cigarsCount (id : ℤ) (db : Database) : ℕ :=
  db.cigarHumidorTable.rows.countP fun r => r.1.1 == id

end HumidorCigarsDatabase

/-! ### `HistoryDatabase.sq` -/

namespace HistoryDatabase

def ofCigar (cigar : ℤ) (r : HistoryTable) : Truth := r.cigarId.map (· == cigar)

def ofHumidor (humidor : ℤ) (r : HistoryTable) : Truth :=
  some (r.humidorTo == humidor || r.humidorFrom == humidor)

theorem ofCigar_eq_true (cigar : ℤ) (r : HistoryTable) :
    ofCigar cigar r = some true ↔ r.cigarId = some cigar := by
  simp [ofCigar]

theorem ofHumidor_eq_true (humidor : ℤ) (r : HistoryTable) :
    ofHumidor humidor r = some true ↔ r.humidorTo = humidor ∨ r.humidorFrom = humidor := by
  simp [ofHumidor]

/-- The common body of the eight listing statements. -/
def select (cond : HistoryTable → Truth) (dir : Direction) : Query History := fun db =>
  (orderBy dir (fun r => .integer r.2.date) (whereTrue (fun r => cond r.2) db.historyTable.rows)).map
    fun r => historyFactory db r.1 r.2

def cigarHistory (cigar : ℤ) : Query History := select (ofCigar cigar) .asc

def cigarHistoryDesc (cigar : ℤ) : Query History := select (ofCigar cigar) .desc

def pagedCigarHistory (cigar : ℤ) (limit offset : ℕ) : Query History :=
  (select (ofCigar cigar) .asc).paged limit offset

def pagedCigarHistoryDesc (cigar : ℤ) (limit offset : ℕ) : Query History :=
  (select (ofCigar cigar) .desc).paged limit offset

def humidorHistory (humidor : ℤ) : Query History := select (ofHumidor humidor) .asc

def humidorHistoryDesc (humidor : ℤ) : Query History := select (ofHumidor humidor) .desc

def pagedHumidorHistory (humidor : ℤ) (limit offset : ℕ) : Query History :=
  (select (ofHumidor humidor) .asc).paged limit offset

def pagedHumidorHistoryDesc (humidor : ℤ) (limit offset : ℕ) : Query History :=
  (select (ofHumidor humidor) .desc).paged limit offset

def cigarHistoryCount (id : ℤ) (db : Database) : ℕ :=
  db.historyTable.rows.countP fun r => ofCigar id r.2 = some true

def humidorHistoryCount (id : ℤ) (db : Database) : ℕ :=
  db.historyTable.rows.countP fun r => ofHumidor id r.2 = some true

end HistoryDatabase

/-! ### `ImagesDatabase.sq` -/

namespace ImagesDatabase

def ofCigar (cigar : ℤ) (r : ImagesTable) : Truth := r.cigarId.map (· == cigar)

def ofHumidor (humidor : ℤ) (r : ImagesTable) : Truth := r.humidorId.map (· == humidor)

/-- There is no `ORDER BY`: the rows come in storage order. -/
def select (cond : ImagesTable → Truth) : Query CigarImage := fun db =>
  (whereTrue (fun r => cond r.2) db.imagesTable.rows).map fun r => .ok (imageFactory r.1 r.2)

def cigarImages (cigar : ℤ) : Query CigarImage := select (ofCigar cigar)

def pagedCigarImages (cigar : ℤ) (limit offset : ℕ) : Query CigarImage :=
  (select (ofCigar cigar)).paged limit offset

def cigarImagesCount (cigar : ℤ) (db : Database) : ℕ :=
  db.imagesTable.rows.countP fun r => ofCigar cigar r.2 = some true

def humidorImages (humidor : ℤ) : Query CigarImage := select (ofHumidor humidor)

def pagedHumidorImages (humidor : ℤ) (limit offset : ℕ) : Query CigarImage :=
  (select (ofHumidor humidor)).paged limit offset

def humidorImagesCount (humidor : ℤ) (db : Database) : ℕ :=
  db.imagesTable.rows.countP fun r => ofHumidor humidor r.2 = some true

end ImagesDatabase
end Cigars
