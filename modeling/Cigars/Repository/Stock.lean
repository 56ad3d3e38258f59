import Cigars.Repository.Base
import Mathlib.Algebra.Order.Group.Unbundled.Abs

/-! The operations that change the stock: `HumidorsRepository.add`, `CigarsRepository.add`,
`updateCount` and `moveCigar`. `now` is the clock reading taken for the history entry. Each
flow comes with the states in which it emits and the states in which it throws. -/
namespace Cigars
open Coroutine Sql

variable [LongReading]

namespace HumidorsRepository

def updateCigarsCount (humidor count : ℤ) : DbFlow ℤ :=
  Flow.after (Script.write (HumidorsDatabase.updateCigarsCount count humidor)) fun _ =>
    Flow.flowOf humidor

def getSync (id : ℤ) : DbAction Humidor := SQLDelightBaseRepository.getSync humidorsTableQueries id none

def additionEntry (now : ℤ) (it : Humidor) : History where
  rowid := -1
  count := 1
  date := now
  left := 1
  price := it.price
  type := .addition
  cigar := none
  humidorFrom := it
  humidorTo := it

/-- Adds the humidor, then its history entry; the entry's flow emits once, so `single()` is a
`collect`. -/
def add (now : ℤ) (entity : Humidor) : DbFlow Humidor :=
  (SQLDelightBaseRepository.add humidorsTableQueries entity).map fun it => do
    (SQLDelightBaseRepository.add historyTableQueries (additionEntry now it)).drain
    return it

end HumidorsRepository

namespace CigarHumidorRepository

def update (entity : HumidorCigar) : DbFlow HumidorCigar :=
  SQLDelightBaseRepository.update cigarHumidorTableQueries entity

def add (cigar : Cigar) (humidor : Humidor) (count : ℤ) : DbFlow HumidorCigar :=
  SQLDelightBaseRepository.add cigarHumidorTableQueries { count, humidor, cigar }

def remove (cigar : Cigar) (src : Humidor) : DbFlow Bool :=
  SQLDelightBaseRepository.remove cigarHumidorTableQueries src.rowid (some cigar.rowid)

def find (cigar : Cigar) (humidor : Humidor) : DbAction (Option HumidorCigar) :=
  SQLDelightBaseRepository.find cigarHumidorTableQueries humidor.rowid (some cigar.rowid)

end CigarHumidorRepository

namespace HistoryRepository

def add (entity : History) : DbFlow History := SQLDelightBaseRepository.add historyTableQueries entity

end HistoryRepository

namespace CigarsRepository

def update (entity : Cigar) : DbFlow Cigar := SQLDelightBaseRepository.update cigarsTableQueries entity

def additionEntry (now : ℤ) (it : HumidorCigar) : History where
  rowid := -1
  count := it.count
  date := now
  left := it.count
  price := it.cigar.price
  type := .addition
  cigar := some it.cigar
  humidorFrom := it.humidor
  humidorTo := it.humidor

/-- `cigar` is one object: the base `add` sets its rowid, every later stage sees it, and
`it.cigar` is it. -/
def add (now : ℤ) (cigar : Cigar) (humidor : Humidor) : DbFlow Cigar :=
  (SQLDelightBaseRepository.add cigarsTableQueries cigar).flatMapConcat fun cigar =>
    (((CigarHumidorRepository.add cigar humidor cigar.count).flatMapConcat fun it =>
      HistoryRepository.add (additionEntry now it)).flatMapConcat fun it =>
      Flow.after (HumidorsRepository.getSync it.humidorTo.rowid) fun humidorTo =>
        HumidorsRepository.updateCigarsCount it.humidorTo.rowid
          (long (humidorTo.count + it.count))).flatMapConcat
      fun _ => Flow.flowOf cigar

def updateFavorite (value : Bool) (cigar : Cigar) : DbFlow Bool :=
  Flow.after (Script.write (CigarsDatabase.setFavorite value cigar.rowid)) fun _ => Flow.flowOf value

def updateRating (value : ℤ) (cigar : Cigar) : DbFlow ℤ :=
  Flow.after (Script.write (CigarsDatabase.setRating (some value) cigar.rowid)) fun _ =>
    Flow.flowOf value

end CigarsRepository

namespace CigarHumidorRepository

/-- The entry `updateCount` adds: an addition when the count goes up, otherwise a deletion. -/
def updateCountEntry (now : ℤ) (entity : HumidorCigar) (count : ℤ) (price : Option Double) : History :=
  let c := long (entity.count - count)
  { rowid := -1, count := long |c|, date := now, left := count, price := price,
    type := if c < 0 then .addition else .deletion, cigar := some entity.cigar,
    humidorFrom := entity.humidor, humidorTo := entity.humidor }

def updateCount (now : ℤ) (entity : HumidorCigar) (count : ℤ) (price : Option Double) :
    DbFlow HumidorCigar :=
  ((update (entity.copy count)).flatMapConcat fun updated =>
    ((HistoryRepository.add (updateCountEntry now entity count price)).flatMapConcat fun _ =>
      CigarsRepository.update { entity.cigar with count := count }).map fun _ =>
        pure updated).catchError fun _ => pure ()

/-- The source row: lowered by the count moved, with its humidor's total lowered first, or
removed when nothing is left. -/
def moveFrom (src : HumidorCigar) (count : ℤ) : DbFlow Bool :=
  if src.count > count then
    (HumidorsRepository.updateCigarsCount src.humidor.rowid (long (src.humidor.count - count))).flatMapConcat
      fun _ => (update (src.copy (long (src.count - count)))).flatMapConcat fun _ => Flow.flowOf true
  else remove src.cigar src.humidor

/-- The row of the humidor moved to: added, or raised when it is there. -/
def moveTo (src : HumidorCigar) (dst : Humidor) (count : ℤ) : DbFlow HumidorCigar :=
  Flow.after (find src.cigar dst) fun toEntry =>
    match toEntry with
    | none => add src.cigar dst count
    | some toEntry => update (toEntry.copy (long (toEntry.count + count)))

/-- The total of the humidor moved to. The log line calls `dst.toString`. -/
def moveTotal (dst : Humidor) (count : ℤ) : DbFlow ℤ :=
  Flow.after (Action.ofExcept dst.toString) fun _ =>
    Flow.after (HumidorsRepository.getSync dst.rowid) fun humidor =>
      HumidorsRepository.updateCigarsCount dst.rowid (long (humidor.count + count))

def moveEntry (now : ℤ) (src : HumidorCigar) (dst : Humidor) (count : ℤ) : History where
  rowid := -1
  count := count
  date := now
  left := count
  price := src.cigar.price
  type := .move
  cigar := some src.cigar
  humidorFrom := src.humidor
  humidorTo := dst

def moveCigar (now : ℤ) (src : HumidorCigar) (dst : Humidor) (count : ℤ) : DbFlow Bool :=
  (((((moveFrom src count).flatMapConcat fun _ => moveTo src dst count).flatMapConcat fun _ =>
    moveTotal dst count).flatMapConcat fun _ =>
    HistoryRepository.add (moveEntry now src dst count)).catchError fun _ => pure ()).flatMapConcat
      fun _ => Flow.flowOf true

end CigarHumidorRepository
end Cigars
