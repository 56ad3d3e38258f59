import Cigars.Sql.Real
import Cigars.Sql.Table
import Cigars.Database.Models

/-! The five tables and the statements of the `.sq` files that write them or read one row.
Arguments come in the order of the generated functions. -/
namespace Cigars
open Sql

/-- A nullable column of type REAL. -/
abbrev RealColumn : Type := Option (StoredReal FloatingPoint.binary64)

/-- Columns of `CigarsTable` other than `rowid`. -/
structure CigarsTable where
  name : String
  brand : Option String
  country : Option String
  date : Option ℤ
  cigar : String
  wrapper : String
  binder : String
  gauge : ℤ
  length : String
  strength : ℤ
  rating : Option ℤ
  myrating : Option ℤ
  notes : Option String
  filler : String
  link : Option String
  count : ℤ
  shopping : Bool
  favorites : Bool
  price : RealColumn
  other : Option ℤ
  relations : Option RelationsText
  deriving DecidableEq

/-- Columns of `HumidorsTable` other than `rowid`. -/
structure HumidorsTable where
  name : String
  brand : String
  holds : ℤ
  count : ℤ
  temperature : Option ℤ
  humidity : RealColumn
  notes : Option String
  link : Option String
  price : RealColumn
  autoOpen : Option Bool
  sorting : Option ℤ
  type : ℤ
  other : Option ℤ
  deriving DecidableEq

/-- `CigarHumidorTable` under its key `(humidorId, cigarId)`; `rowid` is SQLite's own. -/
structure CigarHumidorTable where
  rowid : ℤ
  count : ℤ
  deriving DecidableEq

/-- Columns of `HistoryTable` other than `rowid`. -/
structure HistoryTable where
  count : ℤ
  date : ℤ
  left : ℤ
  price : RealColumn
  type : ℤ
  cigarId : Option ℤ
  humidorTo : ℤ
  humidorFrom : ℤ
  deriving DecidableEq

/-- Columns of `ImagesTable` other than `rowid`. -/
structure ImagesTable where
  image : Option String
  data : List UInt8
  notes : Option String
  type : Option ℤ
  cigarId : Option ℤ
  humidorId : Option ℤ
  deriving DecidableEq

structure Database where
  cigarsTable : AutoTable CigarsTable
  humidorsTable : AutoTable HumidorsTable
  cigarHumidorTable : Table (ℤ × ℤ) CigarHumidorTable
  historyTable : AutoTable HistoryTable
  imagesTable : AutoTable ImagesTable
  deriving DecidableEq

/-- No rows in any table; the arguments are the rowids used up before. -/
def Database.empty (cigars humidors history images : ℤ) : Database where
  cigarsTable := .empty cigars
  humidorsTable := .empty humidors
  cigarHumidorTable := .empty
  historyTable := .empty history
  imagesTable := .empty images

namespace CigarsDatabase

def add (name : String) (brand country : Option String) (date : Option ℤ)
    (cigar wrapper binder : String) (gauge : ℤ) (length : String) (strength : ℤ)
    (rating myrating : Option ℤ) (notes : Option String) (filler : String) (link : Option String)
    (count : ℤ) (shopping favorites : Bool) (price : Option Double) (other : Option ℤ)
    (relations : Option RelationsText) (db : Database) : ℤ × Database :=
  (db.cigarsTable.nextRowid, { db with
    cigarsTable := db.cigarsTable.insert
      { name, brand, country, date, cigar, wrapper, binder, gauge, length, strength, rating,
        myrating, notes, filler, link, count, shopping, favorites,
        price := bindReal price, other, relations } })

def update (name : String) (brand country : Option String) (date : Option ℤ)
    (cigar wrapper binder : String) (gauge : ℤ) (length : String) (strength : ℤ)
    (rating myrating : Option ℤ) (notes : Option String) (filler : String) (link : Option String)
    (count : ℤ) (shopping favorites : Bool) (price : Option Double) (other : Option ℤ)
    (relations : Option RelationsText) (id : ℤ) (db : Database) : Database :=
  { db with
    cigarsTable := db.cigarsTable.update id fun _ =>
      { name, brand, country, date, cigar, wrapper, binder, gauge, length, strength, rating,
        myrating, notes, filler, link, count, shopping, favorites,
        price := bindReal price, other, relations } }

def remove (rowid : ℤ) (db : Database) : Database :=
  { db with cigarsTable := db.cigarsTable.erase rowid }

def setRating (myrating : Option ℤ) (id : ℤ) (db : Database) : Database :=
  { db with cigarsTable := db.cigarsTable.update id fun r => { r with myrating } }

def setFavorite (favorites : Bool) (id : ℤ) (db : Database) : Database :=
  { db with cigarsTable := db.cigarsTable.update id fun r => { r with favorites } }

end CigarsDatabase

namespace HumidorsDatabase

/-- `price` and `other` are not among the columns inserted. -/
def add (name brand : String) (holds count : ℤ) (temperature : Option ℤ) (humidity : Option Double)
    (notes link : Option String) (autoOpen : Option Bool) (sorting : Option ℤ) (type : ℤ)
    (db : Database) : ℤ × Database :=
  (db.humidorsTable.nextRowid, { db with
    humidorsTable := db.humidorsTable.insert
      { name, brand, holds, count, temperature, humidity := bindReal humidity, notes, link, autoOpen, sorting,
        type, price := none, other := none } })

def update (name brand : String) (holds count : ℤ) (temperature : Option ℤ) (humidity : Option Double)
    (notes link : Option String) (autoOpen : Option Bool) (sorting : Option ℤ) (type : ℤ)
    (id : ℤ) (db : Database) : Database :=
  { db with
    humidorsTable := db.humidorsTable.update id fun r =>
      { r with name, brand, holds, count, temperature, humidity := bindReal humidity, notes, link, autoOpen,
               sorting, type } }

def updateCigarsCount (count id : ℤ) (db : Database) : Database :=
  { db with humidorsTable := db.humidorsTable.update id fun r => { r with count } }

def remove (rowid : ℤ) (db : Database) : Database :=
  { db with humidorsTable := db.humidorsTable.erase rowid }

end HumidorsDatabase

namespace HumidorCigarsDatabase

/-- The rowid SQLite gives the next row: one more than the largest in use. -/
def nextRowid (t : Table (ℤ × ℤ) CigarHumidorTable) : ℤ :=
  (t.rows.map fun r => r.2.rowid).foldr max 0 + 1

def add (count humidorId cigarId : ℤ) (db : Database) : Except Exn (ℤ × Database) :=
  match db.cigarHumidorTable.insert? (humidorId, cigarId) ⟨nextRowid db.cigarHumidorTable, count⟩ with
  | none => .error .uniqueConstraint
  | some t => .ok (nextRowid db.cigarHumidorTable, { db with cigarHumidorTable := t })

def update (count humidorId cigarId : ℤ) (db : Database) : Database :=
  { db with
    cigarHumidorTable := db.cigarHumidorTable.update (humidorId, cigarId) fun r => { r with count } }

def remove (humidorId cigarId : ℤ) (db : Database) : Database :=
  { db with cigarHumidorTable := db.cigarHumidorTable.erase (humidorId, cigarId) }

end HumidorCigarsDatabase

namespace HistoryDatabase

def add (count date left : ℤ) (price : Option Double) (type : ℤ) (cigarId : Option ℤ)
    (humidorTo humidorFrom : ℤ) (db : Database) : ℤ × Database :=
  (db.historyTable.nextRowid, { db with
    historyTable := db.historyTable.insert
      { count, date, left, price := bindReal price, type, cigarId, humidorTo, humidorFrom } })

/-- `SET humidorTo = :humidorFrom, humidorFrom = :humidorTo`: the bind names are crossed. -/
def update (count date left : ℤ) (price : Option Double) (type : ℤ) (cigarId : Option ℤ)
    (humidorFrom humidorTo id : ℤ) (db : Database) : Database :=
  { db with
    historyTable := db.historyTable.update id fun _ =>
      { count, date, left, price := bindReal price, type, cigarId, humidorTo := humidorFrom,
        humidorFrom := humidorTo } }

def remove (rowid : ℤ) (db : Database) : Database :=
  { db with historyTable := db.historyTable.erase rowid }

end HistoryDatabase

namespace ImagesDatabase

def add (data : List UInt8) (type : Option ℤ) (image notes : Option String)
    (cigarId humidorId : Option ℤ) (db : Database) : ℤ × Database :=
  (db.imagesTable.nextRowid, { db with
    imagesTable := db.imagesTable.insert { data, type, image, notes, cigarId, humidorId } })

def update (data : List UInt8) (type : Option ℤ) (image notes : Option String) (id : ℤ)
    (db : Database) : Database :=
  { db with imagesTable := db.imagesTable.update id fun r => { r with data, type, image, notes } }

def remove (rowid : ℤ) (db : Database) : Database :=
  { db with imagesTable := db.imagesTable.erase rowid }

end ImagesDatabase

/-- `executeAsOne()`. -/
def executeAsOne {α : Type} : Option α → Except Exn α
  | some a => .ok a
  | none => .error .noSuchRow

def cigarFactory (rowid : ℤ) (r : CigarsTable) : Cigar where
  rowid := rowid
  name := r.name
  brand := r.brand
  country := r.country
  date := r.date
  cigar := r.cigar
  wrapper := r.wrapper
  binder := r.binder
  gauge := r.gauge
  length := r.length
  strength := CigarStrength.fromLong r.strength
  rating := r.rating
  myrating := r.myrating
  notes := r.notes
  filler := r.filler
  link := r.link
  count := r.count
  shopping := r.shopping
  favorites := r.favorites
  price := readReal r.price
  other := r.other
  relations := r.relations.map decodeFromString

def humidorFactory (rowid : ℤ) (r : HumidorsTable) : Humidor where
  rowid := rowid
  name := r.name
  brand := r.brand
  holds := r.holds
  count := r.count
  temperature := r.temperature
  humidity := readReal r.humidity
  notes := r.notes
  link := r.link
  price := readReal r.price
  autoOpen := r.autoOpen == some true
  sorting := r.sorting
  type := r.type
  other := r.other

def imageFactory (rowid : ℤ) (r : ImagesTable) : CigarImage where
  rowid := rowid
  image := r.image
  bytes := r.data
  notes := r.notes
  type := r.type
  cigarId := r.cigarId
  humidorId := r.humidorId

namespace Database

/-- `CigarsRepository.getSync`. -/
def getCigar (db : Database) (id : ℤ) : Except Exn Cigar :=
  executeAsOne ((db.cigarsTable.find? id).map (cigarFactory id))

/-- `HumidorsRepository.getSync`. -/
def getHumidor (db : Database) (id : ℤ) : Except Exn Humidor :=
  executeAsOne ((db.humidorsTable.find? id).map (humidorFactory id))

end Database

/-- Reads the humidor and the cigar of the row; throws when either is missing. -/
def humidorCigarFactory (db : Database) (count humidorID cigarID : ℤ) : Except Exn HumidorCigar := do
  let humidor ← db.getHumidor humidorID
  let cigar ← db.getCigar cigarID
  return { count, humidor, cigar }

/-- The constructor's `humidorFrom` gets the column `humidorTo`, and the other way round. -/
def historyFactory (db : Database) (rowid : ℤ) (r : HistoryTable) : Except Exn History := do
  let humTo ← db.getHumidor r.humidorTo
  let humFrom ← db.getHumidor r.humidorFrom
  let cigar ← match r.cigarId with
    | none => pure none
    | some cigarId => some <$> db.getCigar cigarId
  return { rowid, count := r.count, date := r.date, left := r.left, price := readReal r.price,
           type := HistoryType.fromLong r.type, cigar, humidorFrom := humTo, humidorTo := humFrom }

end Cigars
