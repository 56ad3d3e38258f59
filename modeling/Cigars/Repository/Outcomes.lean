import Cigars.Repository.Stock

/-! How each stock operation ends, from every database state and for all arguments: the
conditions under which it emits, the tables it then leaves, and what a failed call leaves. -/
namespace Cigars
open Coroutine Sql

namespace Database

/-- The cigars of kind `cigarId` in humidor `humidorId`, none when there is no row. -/
def stock (db : Database) (humidorId cigarId : ℤ) : ℤ :=
  ((db.cigarHumidorTable.find? (humidorId, cigarId)).map CigarHumidorTable.count).getD 0

variable [LongReading]

/-- The source row lowered or removed. -/
def takeOut (src : HumidorCigar) (count : ℤ) (db : Database) : Database :=
  if src.count > count then
    HumidorCigarsDatabase.update (long (src.count - count)) src.humidor.rowid src.cigar.rowid
      (HumidorsDatabase.updateCigarsCount (long (src.humidor.count - count)) src.humidor.rowid db)
  else HumidorCigarsDatabase.remove src.humidor.rowid src.cigar.rowid db

/-- `count` more in the row under `key`, added when it is not there. -/
def putInRow (key : ℤ × ℤ) (count : ℤ) (t : Table (ℤ × ℤ) CigarHumidorTable) :
    Table (ℤ × ℤ) CigarHumidorTable :=
  match t.find? key with
  | some r => t.update key fun x => { x with count := long (r.count + count) }
  | none => (t.insert? key ⟨HumidorCigarsDatabase.nextRowid t, count⟩).getD t

theorem find?_putInRow_of_ne {key key' : ℤ × ℤ} (count : ℤ) (t : Table (ℤ × ℤ) CigarHumidorTable)
    (h : key' ≠ key) : (putInRow key count t).find? key' = t.find? key' := by
  unfold putInRow
  cases hr : t.find? key with
  | some r => exact Table.find?_update_of_ne _ h
  | none =>
    obtain ⟨t', ht⟩ := Table.exists_insert?_of_find?_none
      (⟨HumidorCigarsDatabase.nextRowid t, count⟩ : CigarHumidorTable) hr
    simp only [ht, Option.getD_some]
    rw [Table.find?_of_insert? ht, if_neg h]

def putIn (humidorId cigarId count : ℤ) (db : Database) : Database :=
  { db with cigarHumidorTable := putInRow (humidorId, cigarId) count db.cigarHumidorTable }

/-- `count` more in the total of the humidor. -/
def raiseTotal (humidorId count : ℤ) (db : Database) : Database :=
  { db with
    humidorsTable := db.humidorsTable.update humidorId fun r => { r with count := long (r.count + count) } }

def addHistory (entry : History) (db : Database) : Database :=
  (HistoryDatabase.add entry.count entry.date entry.left entry.price entry.type.type
    (entry.cigar.map Cigar.rowid) entry.humidorFrom.rowid entry.humidorTo.rowid db).2

end Database

open Database SQLDelightBaseRepository

theorem getHumidor_of_find? {db : Database} {id : ℤ} {r : HumidorsTable}
    (h : db.humidorsTable.find? id = some r) : db.getHumidor id = .ok (humidorFactory id r) := by
  rw [Database.getHumidor, h]
  rfl

theorem getHumidor_of_none {db : Database} {id : ℤ} (h : db.humidorsTable.find? id = none) :
    db.getHumidor id = .error .noSuchRow := by
  rw [Database.getHumidor, h]
  rfl

theorem getSync_of_find? {db : Database} {id : ℤ} {r : HumidorsTable}
    (h : db.humidorsTable.find? id = some r) :
    (HumidorsRepository.getSync id).run db = (.ok (humidorFactory id r), db) :=
  Action.run_query_ok (getHumidor_of_find? h)

theorem getSync_of_none {db : Database} {id : ℤ} (h : db.humidorsTable.find? id = none) :
    (HumidorsRepository.getSync id).run db = (.error ⟨0, .noSuchRow⟩, db) :=
  Action.run_query_error (getHumidor_of_none h)

theorem getCigar_of_find? {db : Database} {id : ℤ} {r : CigarsTable}
    (h : db.cigarsTable.find? id = some r) : db.getCigar id = .ok (cigarFactory id r) := by
  rw [Database.getCigar, h]
  rfl

theorem getCigar_of_none {db : Database} {id : ℤ} (h : db.cigarsTable.find? id = none) :
    db.getCigar id = .error .noSuchRow := by
  rw [Database.getCigar, h]
  rfl

theorem rows_of_humidorCigarFactory {db : Database} {count humidorId cigarId : ℤ} {entity : HumidorCigar}
    (h : humidorCigarFactory db count humidorId cigarId = .ok entity) :
    ∃ humidor cigar, db.humidorsTable.find? humidorId = some humidor ∧
      db.cigarsTable.find? cigarId = some cigar ∧
      entity = ⟨count, humidorFactory humidorId humidor, cigarFactory cigarId cigar, -1⟩ := by
  unfold humidorCigarFactory at h
  cases hhum : db.humidorsTable.find? humidorId with
  | none =>
    rw [getHumidor_of_none hhum] at h
    cases h
  | some humidor =>
    rw [getHumidor_of_find? hhum] at h
    cases hcig : db.cigarsTable.find? cigarId with
    | none =>
      rw [getCigar_of_none hcig] at h
      cases h
    | some cigar =>
      rw [getCigar_of_find? hcig] at h
      exact ⟨humidor, cigar, rfl, rfl, (Except.ok.inj h).symm⟩

/-- The stored rows behind a stock row that could be read. -/
theorem rows_of_findHumidorCigar {db : Database} {humidorId cigarId : ℤ} {entity : HumidorCigar}
    (h : findHumidorCigar humidorId cigarId db = .ok (some entity)) :
    ∃ row humidor cigar, db.cigarHumidorTable.find? (humidorId, cigarId) = some row ∧
      db.humidorsTable.find? humidorId = some humidor ∧ db.cigarsTable.find? cigarId = some cigar ∧
      entity = ⟨row.count, humidorFactory humidorId humidor, cigarFactory cigarId cigar, -1⟩ := by
  unfold findHumidorCigar at h
  cases hrow : db.cigarHumidorTable.find? (humidorId, cigarId) with
  | none =>
    rw [hrow] at h
    cases h
  | some row =>
    rw [hrow] at h
    cases hread : humidorCigarFactory db row.count humidorId cigarId with
    | error e =>
      simp only [hread] at h
      cases h
    | ok entity' =>
      simp only [hread] at h
      cases h
      obtain ⟨humidor, cigar, hhum, hcig, he⟩ := rows_of_humidorCigarFactory hread
      exact ⟨row, humidor, cigar, rfl, hhum, hcig, he⟩

theorem historyGet_of_find? {db : Database} {id : ℤ} {r : HistoryTable} (h : db.historyTable.find? id = some r) :
    historyTableQueries.get id none db = historyFactory db id r := by
  change (executeAsOne (db.historyTable.find? id) >>= historyFactory db id) = _
  rw [h]
  rfl

/-- The entry read from a row: its humidors and its cigar have the ids the row names, the two
humidors crossed. -/
theorem entry_of_historyFactory {db : Database} {id : ℤ} {r : HistoryTable} {entry : History}
    (h : historyFactory db id r = .ok entry) :
    ∃ humTo humFrom cigar, humTo.rowid = r.humidorTo ∧ humFrom.rowid = r.humidorFrom ∧
      cigar.map Cigar.rowid = r.cigarId ∧
      entry = ⟨id, r.count, r.date, r.left, readReal r.price, HistoryType.fromLong r.type, cigar, humTo, humFrom⟩ := by
  unfold historyFactory at h
  cases hto : db.humidorsTable.find? r.humidorTo with
  | none =>
    rw [getHumidor_of_none hto] at h
    cases h
  | some humTo =>
    cases hfrom : db.humidorsTable.find? r.humidorFrom with
    | none =>
      rw [getHumidor_of_find? hto, getHumidor_of_none hfrom] at h
      cases h
    | some humFrom =>
      rw [getHumidor_of_find? hto, getHumidor_of_find? hfrom] at h
      cases hid : r.cigarId with
      | none =>
        simp only [hid] at h
        exact ⟨_, _, none, rfl, rfl, rfl, (Except.ok.inj h).symm⟩
      | some c =>
        cases hcig : db.cigarsTable.find? c with
        | none =>
          simp only [hid, getCigar_of_none hcig] at h
          cases h
        | some cigar =>
          simp only [hid, getCigar_of_find? hcig] at h
          exact ⟨_, _, some (cigarFactory c cigar), rfl, rfl, rfl, (Except.ok.inj h).symm⟩

theorem updateCigarsCount_emits (humidor count : ℤ) (db : Database) :
    (HumidorsRepository.updateCigarsCount humidor count).Emits db humidor
      (HumidorsDatabase.updateCigarsCount count humidor db) id :=
  Flow.Emits.after (Script.run_write _ _) (Flow.emits_flowOf _ _)

theorem updateFavorite_emits (value : Bool) (cigar : Cigar) (db : Database) :
    (CigarsRepository.updateFavorite value cigar).Emits db value
      (CigarsDatabase.setFavorite value cigar.rowid db) id :=
  Flow.Emits.after (Script.run_write _ _) (Flow.emits_flowOf _ _)

theorem updateRating_emits (value : ℤ) (cigar : Cigar) (db : Database) :
    (CigarsRepository.updateRating value cigar).Emits db value
      (CigarsDatabase.setRating (some value) cigar.rowid db) id :=
  Flow.Emits.after (Script.run_write _ _) (Flow.emits_flowOf _ _)

theorem updateCigarsCount_eq_raiseTotal [LongReading] {db : Database} {id : ℤ} {r : HumidorsTable} (count : ℤ)
    (h : db.humidorsTable.find? id = some r) :
    HumidorsDatabase.updateCigarsCount (long (r.count + count)) id db = db.raiseTotal id count := by
  have hcongr : db.humidorsTable.update id (fun x => { x with count := long (r.count + count) }) =
      db.humidorsTable.update id fun x => { x with count := long (x.count + count) } := by
    apply AutoTable.update_congr
    intro x hx
    rw [h] at hx
    cases hx
    rfl
  rw [HumidorsDatabase.updateCigarsCount, Database.raiseTotal, hcongr]

theorem historyAdd_emits (entry : History) (db : Database) (h : entry.rowid < 0) :
    (HistoryRepository.add entry).Emits db { entry with rowid := db.historyTable.nextRowid }
      (db.addHistory entry) fun _ => db :=
  add_emits historyTableQueries (isNew_of_neg historyTableQueries h) rfl rfl

theorem stockUpdate_emits (entity : HumidorCigar) (db : Database)
    (h : db.cigarHumidorTable.contains (entity.humidor.rowid, entity.cigar.rowid) = true) :
    (CigarHumidorRepository.update entity).Emits db entity
      (HumidorCigarsDatabase.update entity.count entity.humidor.rowid entity.cigar.rowid db) id :=
  update_emits cigarHumidorTableQueries entity db (congrArg Except.ok h)

theorem stockUpdate_fails (entity : HumidorCigar) (db : Database)
    (h : db.cigarHumidorTable.contains (entity.humidor.rowid, entity.cigar.rowid) = false) :
    ∃ e, (CigarHumidorRepository.update entity).Fails db e db :=
  update_fails cigarHumidorTableQueries entity db (congrArg Except.ok h)

theorem putIn_of_some [LongReading] {db : Database} {h c : ℤ} {r : CigarHumidorTable} (count : ℤ)
    (hr : db.cigarHumidorTable.find? (h, c) = some r) :
    db.putIn h c count = HumidorCigarsDatabase.update (long (r.count + count)) h c db := by
  rw [Database.putIn, Database.putInRow, hr]
  rfl

theorem rows_putIn_of_none [LongReading] {db : Database} {h c : ℤ} (count : ℤ)
    (hr : db.cigarHumidorTable.find? (h, c) = none) :
    (db.putIn h c count).cigarHumidorTable.rows = db.cigarHumidorTable.rows ++
      [((h, c), ⟨HumidorCigarsDatabase.nextRowid db.cigarHumidorTable, count⟩)] := by
  obtain ⟨t, ht⟩ := Table.exists_insert?_of_find?_none
    (⟨HumidorCigarsDatabase.nextRowid db.cigarHumidorTable, count⟩ : CigarHumidorTable) hr
  have hput : (db.putIn h c count).cigarHumidorTable = t := by
    simp only [Database.putIn, Database.putInRow, hr, ht, Option.getD_some]
  rw [hput, Table.rows_of_insert? ht]

/-- Where there is no row yet the insert is accepted. -/
theorem stockAdd_of_none [LongReading] {db : Database} {h c : ℤ} (count : ℤ)
    (hr : db.cigarHumidorTable.find? (h, c) = none) :
    HumidorCigarsDatabase.add count h c db =
      .ok (HumidorCigarsDatabase.nextRowid db.cigarHumidorTable, db.putIn h c count) := by
  obtain ⟨t, ht⟩ := Table.exists_insert?_of_find?_none
    (⟨HumidorCigarsDatabase.nextRowid db.cigarHumidorTable, count⟩ : CigarHumidorTable) hr
  rw [HumidorCigarsDatabase.add, ht, Database.putIn, Database.putInRow, hr]
  simp only [ht, Option.getD_some]

theorem stockEntity_isNew (cigar : Cigar) (humidor : Humidor) (count : ℤ) (db : Database) :
    (isNew cigarHumidorTableQueries { count, humidor, cigar }).run db = (.ok true, db) :=
  isNew_of_neg cigarHumidorTableQueries (show (-1 : ℤ) < 0 by decide)

theorem stockAdd_emits [LongReading] (cigar : Cigar) (humidor : Humidor) (count : ℤ) (db : Database)
    (hr : db.cigarHumidorTable.find? (humidor.rowid, cigar.rowid) = none)
    (hlog : humidor.toString = .ok ()) :
    ∃ rowid, (CigarHumidorRepository.add cigar humidor count).Emits db
      { count, humidor, cigar, rowid } (db.putIn humidor.rowid cigar.rowid count) fun _ => db := by
  have hnew := stockEntity_isNew cigar humidor count db
  refine ⟨_, add_emits cigarHumidorTableQueries hnew (stockAdd_of_none count hr) ?_⟩
  exact (HumidorCigar.toString_eq _).trans hlog

theorem stockAdd_fails_of_log [LongReading] (cigar : Cigar) (humidor : Humidor) (count : ℤ) (db : Database) {e : Exn}
    (hr : db.cigarHumidorTable.find? (humidor.rowid, cigar.rowid) = none)
    (hlog : humidor.toString = .error e) :
    (CigarHumidorRepository.add cigar humidor count).Fails db e db := by
  have hnew := stockEntity_isNew cigar humidor count db
  refine add_fails_of_log cigarHumidorTableQueries hnew (stockAdd_of_none count hr) ?_
  exact (HumidorCigar.toString_eq _).trans hlog

theorem stockAdd_fails_of_stored (cigar : Cigar) (humidor : Humidor) (count : ℤ) (db : Database)
    (hr : db.cigarHumidorTable.contains (humidor.rowid, cigar.rowid) = true) :
    (CigarHumidorRepository.add cigar humidor count).Fails db .uniqueConstraint db := by
  have hnew := stockEntity_isNew cigar humidor count db
  refine add_fails_of_refused cigarHumidorTableQueries hnew ?_
  change HumidorCigarsDatabase.add count humidor.rowid cigar.rowid db = _
  rw [HumidorCigarsDatabase.add, (Table.insert?_eq_none_iff _ _ _).mpr hr]

/-! ### `updateCount` -/

namespace CigarHumidorRepository
variable [LongReading]

/-- The row of the entity with its new count. -/
def countedRow (entity : HumidorCigar) (count : ℤ) (db : Database) : Database :=
  HumidorCigarsDatabase.update count entity.humidor.rowid entity.cigar.rowid db

def counted (now : ℤ) (entity : HumidorCigar) (count : ℤ) (price : Option Double) (db : Database) :
    Database :=
  cigarsTableQueries.update { entity.cigar with count := count }
    ((countedRow entity count db).addHistory (updateCountEntry now entity count price))

section UpdateCount
variable (now : ℤ) {entity : HumidorCigar} (count : ℤ) (price : Option Double) {db : Database}

theorem updateCount_emits
    (hrow : db.cigarHumidorTable.contains (entity.humidor.rowid, entity.cigar.rowid) = true)
    (hcigar : db.cigarsTable.contains entity.cigar.rowid = true) :
    (updateCount now entity count price).Emits db (entity.copy count)
      (counted now entity count price db) fun _ => countedRow entity count db := by
  have h₁ := stockUpdate_emits (entity.copy count) db hrow
  have h₂ := historyAdd_emits (updateCountEntry now entity count price) (countedRow entity count db)
    (by decide : (-1 : ℤ) < 0)
  have h₃ := update_emits cigarsTableQueries { entity.cigar with count := count }
    ((countedRow entity count db).addHistory (updateCountEntry now entity count price))
    (congrArg Except.ok hcigar)
  exact (h₁.flatMapConcat ((h₂.flatMapConcat h₃).map rfl)).catchError _

theorem updateCount_silent_of_no_row
    (hrow : db.cigarHumidorTable.contains (entity.humidor.rowid, entity.cigar.rowid) = false) :
    (updateCount now entity count price).Silent db db := by
  obtain ⟨e, h⟩ := stockUpdate_fails (entity.copy count) db hrow
  exact (h.flatMapConcat _).catchError rfl

/-- The history entry is rolled back with the update that throws; the row's count stays. -/
theorem updateCount_silent_of_no_cigar
    (hrow : db.cigarHumidorTable.contains (entity.humidor.rowid, entity.cigar.rowid) = true)
    (hcigar : db.cigarsTable.contains entity.cigar.rowid = false) :
    (updateCount now entity count price).Silent db (countedRow entity count db) := by
  have h₁ := stockUpdate_emits (entity.copy count) db hrow
  have h₂ := historyAdd_emits (updateCountEntry now entity count price) (countedRow entity count db)
    (by decide : (-1 : ℤ) < 0)
  obtain ⟨e, h₃⟩ := update_fails cigarsTableQueries { entity.cigar with count := count }
    ((countedRow entity count db).addHistory (updateCountEntry now entity count price))
    (congrArg Except.ok hcigar)
  exact (h₁.flatMapConcat_fails ((h₂.flatMapConcat_fails h₃).map _)).catchError rfl

end UpdateCount

/-! ### `moveCigar` -/

section MoveCigar
variable {src : HumidorCigar} {dst : Humidor} (count : ℤ) {db : Database}

theorem moveFrom_emits
    (h : db.cigarHumidorTable.contains (src.humidor.rowid, src.cigar.rowid) = true) :
    (moveFrom src count).Emits db true (db.takeOut src count) id := by
  unfold moveFrom Database.takeOut
  by_cases hpart : src.count > count
  · rw [if_pos hpart, if_pos hpart]
    have h₁ := updateCigarsCount_emits src.humidor.rowid (long (src.humidor.count - count)) db
    have h₂ := stockUpdate_emits (src.copy (long (src.count - count)))
      (HumidorsDatabase.updateCigarsCount (long (src.humidor.count - count)) src.humidor.rowid db) h
    exact h₁.flatMapConcat (h₂.flatMapConcat (Flow.emits_flowOf _ _))
  · rw [if_neg hpart, if_neg hpart]
    exact remove_emits cigarHumidorTableQueries (congrArg Except.ok h) rfl

theorem moveFrom_fails
    (h : db.cigarHumidorTable.contains (src.humidor.rowid, src.cigar.rowid) = false) :
    ∃ e, (moveFrom src count).Fails db e (if src.count > count then
      HumidorsDatabase.updateCigarsCount (long (src.humidor.count - count)) src.humidor.rowid db else db) := by
  unfold moveFrom
  by_cases hpart : src.count > count
  · rw [if_pos hpart, if_pos hpart]
    have h₁ := updateCigarsCount_emits src.humidor.rowid (long (src.humidor.count - count)) db
    obtain ⟨e, h₂⟩ := stockUpdate_fails (src.copy (long (src.count - count)))
      (HumidorsDatabase.updateCigarsCount (long (src.humidor.count - count)) src.humidor.rowid db) h
    exact ⟨e, h₁.flatMapConcat_fails (h₂.flatMapConcat _)⟩
  · rw [if_neg hpart, if_neg hpart]
    exact ⟨_, remove_fails cigarHumidorTableQueries (congrArg Except.ok h)⟩

theorem moveTo_emits_of_none
    (hr : db.cigarHumidorTable.find? (dst.rowid, src.cigar.rowid) = none)
    (hlog : dst.toString = .ok ()) :
    ∃ it, (moveTo src dst count).Emits db it (db.putIn dst.rowid src.cigar.rowid count) fun _ => db := by
  have hfind : (find src.cigar dst).run db = (.ok none, db) := by
    refine Action.run_query_ok ?_
    change findHumidorCigar dst.rowid src.cigar.rowid db = _
    rw [findHumidorCigar, hr]
  obtain ⟨rowid, h⟩ := stockAdd_emits src.cigar dst count db hr hlog
  exact ⟨_, Flow.Emits.after hfind h⟩

theorem moveTo_fails_of_none {e : Exn}
    (hr : db.cigarHumidorTable.find? (dst.rowid, src.cigar.rowid) = none)
    (hlog : dst.toString = .error e) : (moveTo src dst count).Fails db e db := by
  have hfind : (find src.cigar dst).run db = (.ok none, db) := by
    refine Action.run_query_ok ?_
    change findHumidorCigar dst.rowid src.cigar.rowid db = _
    rw [findHumidorCigar, hr]
  exact Flow.Fails.after hfind (stockAdd_fails_of_log src.cigar dst count db hr hlog)

theorem moveTo_emits_of_some {r : CigarHumidorTable}
    (hr : db.cigarHumidorTable.find? (dst.rowid, src.cigar.rowid) = some r)
    (hdst : db.humidorsTable.contains dst.rowid = true)
    (hcigar : db.cigarsTable.contains src.cigar.rowid = true) :
    ∃ it, (moveTo src dst count).Emits db it (db.putIn dst.rowid src.cigar.rowid count) id := by
  obtain ⟨hrow, hh⟩ := (Table.contains_iff _ _).mp hdst
  obtain ⟨crow, hc⟩ := (Table.contains_iff _ _).mp hcigar
  have hfind : (find src.cigar dst).run db = (.ok (some ⟨r.count, humidorFactory dst.rowid hrow,
      cigarFactory src.cigar.rowid crow, -1⟩), db) := by
    refine Action.run_query_ok ?_
    change findHumidorCigar dst.rowid src.cigar.rowid db = _
    rw [findHumidorCigar, hr]
    dsimp only
    rw [humidorCigarFactory, getHumidor_of_find? hh, getCigar_of_find? hc]
    rfl
  rw [putIn_of_some count hr]
  refine ⟨_, Flow.Emits.after hfind (stockUpdate_emits _ _ ?_)⟩
  exact (Table.contains_iff _ _).mpr ⟨r, hr⟩

theorem moveTo_fails_of_some {r : CigarHumidorTable}
    (hr : db.cigarHumidorTable.find? (dst.rowid, src.cigar.rowid) = some r)
    (h : db.humidorsTable.contains dst.rowid = false ∨
      db.cigarsTable.contains src.cigar.rowid = false) :
    (moveTo src dst count).Fails db .noSuchRow db := by
  have hfind : (find src.cigar dst).run db = (.error ⟨0, .noSuchRow⟩, db) := by
    refine Action.run_query_error ?_
    change findHumidorCigar dst.rowid src.cigar.rowid db = _
    rw [findHumidorCigar, hr]
    dsimp only
    rw [humidorCigarFactory]
    cases hh : db.humidorsTable.find? dst.rowid with
    | none => rw [getHumidor_of_none hh]; rfl
    | some hrow =>
      have hc : db.cigarsTable.find? src.cigar.rowid = none := by
        rcases h with h | h
        · rw [Table.contains_eq_false_iff, hh] at h
          cases h
        · rwa [Table.contains_eq_false_iff] at h
      rw [getHumidor_of_find? hh, getCigar_of_none hc]
      rfl
  exact Flow.fails_after hfind _

theorem moveTotal_emits (hlog : dst.toString = .ok ())
    (hdst : db.humidorsTable.contains dst.rowid = true) :
    (moveTotal dst count).Emits db dst.rowid (db.raiseTotal dst.rowid count) id := by
  obtain ⟨hrow, hh⟩ := (Table.contains_iff _ _).mp hdst
  rw [← updateCigarsCount_eq_raiseTotal count hh]
  exact Flow.Emits.after (Action.run_ofExcept_ok _ hlog)
    (Flow.Emits.after (getSync_of_find? hh) (updateCigarsCount_emits _ _ _))

theorem moveTotal_fails (h : dst.toString ≠ .ok () ∨ db.humidorsTable.contains dst.rowid = false) :
    ∃ e, (moveTotal dst count).Fails db e db := by
  cases hlog : dst.toString with
  | error e => exact ⟨e, Flow.fails_after (Action.run_ofExcept_error _ hlog) _⟩
  | ok u =>
    have hh : db.humidorsTable.find? dst.rowid = none := by
      rcases h with h | h
      · exact absurd hlog h
      · rwa [Table.contains_eq_false_iff] at h
    exact ⟨_, Flow.Fails.after (Action.run_ofExcept_ok _ hlog) (Flow.fails_after (getSync_of_none hh) _)⟩

/-- The humidor moved to has a row of the cigar once the source row is lowered or removed. -/
def TargetRow (src : HumidorCigar) (dst : Humidor) (count : ℤ) (db : Database) : Prop :=
  db.cigarHumidorTable.contains (dst.rowid, src.cigar.rowid) = true ∧
    (dst.rowid = src.humidor.rowid → count < src.count)

instance (src : HumidorCigar) (dst : Humidor) (count : ℤ) (db : Database) :
    Decidable (TargetRow src dst count db) :=
  inferInstanceAs (Decidable (_ ∧ (_ → _)))

theorem takeOut_contains_row (src : HumidorCigar) (dst : Humidor) (count : ℤ) (db : Database) :
    (db.takeOut src count).cigarHumidorTable.contains (dst.rowid, src.cigar.rowid) = true ↔
      TargetRow src dst count db := by
  unfold Database.takeOut TargetRow
  by_cases hpart : src.count > count
  · rw [if_pos hpart]
    simp [HumidorCigarsDatabase.update, HumidorsDatabase.updateCigarsCount, hpart]
  · rw [if_neg hpart]
    by_cases hdst : dst.rowid = src.humidor.rowid
    · simp [HumidorCigarsDatabase.remove, hdst, Table.contains, Table.find?_erase, hpart]
    · have hk : ((dst.rowid, src.cigar.rowid) : ℤ × ℤ) ≠ (src.humidor.rowid, src.cigar.rowid) :=
        fun he => hdst (congrArg Prod.fst he)
      simp [HumidorCigarsDatabase.remove, Table.contains_erase_of_ne hk, hdst]

/-- What `moveCigar` needs to get to its end. -/
structure MoveGoesThrough (src : HumidorCigar) (dst : Humidor) (count : ℤ) (db : Database) : Prop where
  source : db.cigarHumidorTable.contains (src.humidor.rowid, src.cigar.rowid) = true
  text : dst.toString = .ok ()
  target : db.humidorsTable.contains dst.rowid = true
  cigar : TargetRow src dst count db → db.cigarsTable.contains src.cigar.rowid = true

def moved (now : ℤ) (src : HumidorCigar) (dst : Humidor) (count : ℤ) (db : Database) : Database :=
  (((db.takeOut src count).putIn dst.rowid src.cigar.rowid count).raiseTotal dst.rowid count).addHistory
    (moveEntry now src dst count)

/-- What a move that does not get to its end leaves: the writes made outside a transaction
before the step that threw. -/
def moveLeaves (src : HumidorCigar) (dst : Humidor) (count : ℤ) (db : Database) : Database :=
  if db.cigarHumidorTable.contains (src.humidor.rowid, src.cigar.rowid) = true then
    if TargetRow src dst count db ∧ db.humidorsTable.contains dst.rowid = true ∧
        db.cigarsTable.contains src.cigar.rowid = true then
      (db.takeOut src count).putIn dst.rowid src.cigar.rowid count
    else db.takeOut src count
  else if src.count > count then
    HumidorsDatabase.updateCigarsCount (long (src.humidor.count - count)) src.humidor.rowid db
  else db

@[simp] theorem takeOut_cigarsTable (src : HumidorCigar) (count : ℤ) (db : Database) :
    (db.takeOut src count).cigarsTable = db.cigarsTable := by
  unfold Database.takeOut
  split_ifs <;> rfl

@[simp] theorem takeOut_contains_humidor (src : HumidorCigar) (count : ℤ) (db : Database) (h : ℤ) :
    (db.takeOut src count).humidorsTable.contains h = db.humidorsTable.contains h := by
  unfold Database.takeOut
  split_ifs
  · exact Table.contains_update _ _ _ _
  · rfl

/-- Everything before the `catch`. -/
theorem moveCigar_silent_of_fails {now : ℤ} {e : Exn} {db' : Database}
    (h : ((((moveFrom src count).flatMapConcat fun _ => moveTo src dst count).flatMapConcat fun _ =>
      moveTotal dst count).flatMapConcat fun _ =>
      HistoryRepository.add (moveEntry now src dst count)).Fails db e db') :
    (moveCigar now src dst count).Silent db db' :=
  (h.catchError rfl).flatMapConcat _

theorem moveCigar_emits (now : ℤ) (h : MoveGoesThrough src dst count db) :
    ∃ back, (moveCigar now src dst count).Emits db true (moved now src dst count db) back := by
  have h₁ := moveFrom_emits count h.source
  have hdst : (db.takeOut src count).humidorsTable.contains dst.rowid = true := by
    rw [takeOut_contains_humidor]
    exact h.target
  have h₂ : ∃ it back, (moveTo src dst count).Emits (db.takeOut src count) it
      ((db.takeOut src count).putIn dst.rowid src.cigar.rowid count) back := by
    cases hr : (db.takeOut src count).cigarHumidorTable.find? (dst.rowid, src.cigar.rowid) with
    | none =>
      obtain ⟨it, h₂⟩ := moveTo_emits_of_none count hr h.text
      exact ⟨it, _, h₂⟩
    | some r =>
      have hcigar := h.cigar ((takeOut_contains_row _ _ _ _).mp ((Table.contains_iff _ _).mpr ⟨r, hr⟩))
      rw [← takeOut_cigarsTable src count] at hcigar
      obtain ⟨it, h₂⟩ := moveTo_emits_of_some count hr hdst hcigar
      exact ⟨it, _, h₂⟩
  obtain ⟨it, back, h₂⟩ := h₂
  have h₁₂ := h₁.flatMapConcat (g := fun _ => moveTo src dst count) h₂
  have h₃ := moveTotal_emits count h.text
    (show ((db.takeOut src count).putIn dst.rowid src.cigar.rowid count).humidorsTable.contains
      dst.rowid = true from hdst)
  have h₁₃ := h₁₂.flatMapConcat (g := fun _ => moveTotal dst count) h₃
  have h₄ := historyAdd_emits (moveEntry now src dst count)
    (((db.takeOut src count).putIn dst.rowid src.cigar.rowid count).raiseTotal dst.rowid count)
    (by decide : (-1 : ℤ) < 0)
  have h₁₄ := h₁₃.flatMapConcat (g := fun _ => HistoryRepository.add (moveEntry now src dst count)) h₄
  exact ⟨_, (h₁₄.catchError fun _ => pure ()).flatMapConcat (g := fun _ => Flow.flowOf true)
    (Flow.emits_flowOf _ _)⟩

theorem moveCigar_silent (now : ℤ) (h : ¬ MoveGoesThrough src dst count db) :
    (moveCigar now src dst count).Silent db (moveLeaves src dst count db) := by
  unfold moveLeaves
  by_cases hsrc : db.cigarHumidorTable.contains (src.humidor.rowid, src.cigar.rowid) = true
  · have h₁ := moveFrom_emits count hsrc
    rw [if_pos hsrc]
    cases hr : (db.takeOut src count).cigarHumidorTable.find? (dst.rowid, src.cigar.rowid) with
    | none =>
      have habs : ¬ TargetRow src dst count db := by
        rw [← takeOut_contains_row, Bool.not_eq_true, Table.contains_eq_false_iff, hr]
      rw [if_neg fun hc => habs hc.1]
      cases hlog : dst.toString with
      | error e =>
        have h₂ := h₁.flatMapConcat_fails (g := fun _ => moveTo src dst count)
          (moveTo_fails_of_none count hr hlog)
        exact moveCigar_silent_of_fails count ((h₂.flatMapConcat _).flatMapConcat _)
      | ok u =>
        obtain ⟨it, h₂⟩ := moveTo_emits_of_none count hr hlog
        have h₁₂ := h₁.flatMapConcat (g := fun _ => moveTo src dst count) h₂
        have hdst : ((db.takeOut src count).putIn dst.rowid src.cigar.rowid count).humidorsTable.contains
            dst.rowid = false := by
          change (db.takeOut src count).humidorsTable.contains dst.rowid = false
          rw [takeOut_contains_humidor, ← Bool.not_eq_true]
          exact fun hdst => h ⟨hsrc, hlog, hdst, fun hc => absurd hc habs⟩
        obtain ⟨e, h₃⟩ := moveTotal_fails count (Or.inr hdst)
        have h₁₃ := h₁₂.flatMapConcat_fails (g := fun _ => moveTotal dst count) h₃
        exact moveCigar_silent_of_fails count (h₁₃.flatMapConcat _)
    | some r =>
      have hthere := (takeOut_contains_row _ _ _ _).mp ((Table.contains_iff _ _).mpr ⟨r, hr⟩)
      by_cases hread : db.humidorsTable.contains dst.rowid = true ∧
          db.cigarsTable.contains src.cigar.rowid = true
      · rw [if_pos ⟨hthere, hread⟩]
        have hlog : dst.toString ≠ .ok () := fun hlog => h ⟨hsrc, hlog, hread.1, fun _ => hread.2⟩
        have hcigar : (db.takeOut src count).cigarsTable.contains src.cigar.rowid = true := by
          rw [takeOut_cigarsTable]
          exact hread.2
        obtain ⟨it, h₂⟩ := moveTo_emits_of_some count hr
          ((takeOut_contains_humidor _ _ _ _).trans hread.1) hcigar
        have h₁₂ := h₁.flatMapConcat (g := fun _ => moveTo src dst count) h₂
        obtain ⟨e, h₃⟩ := moveTotal_fails count (Or.inl hlog)
        have h₁₃ := h₁₂.flatMapConcat_fails (g := fun _ => moveTotal dst count) h₃
        exact moveCigar_silent_of_fails count (h₁₃.flatMapConcat _)
      · rw [if_neg fun hc => hread hc.2]
        have hmiss : (db.takeOut src count).humidorsTable.contains dst.rowid = false ∨
            (db.takeOut src count).cigarsTable.contains src.cigar.rowid = false := by
          rw [takeOut_contains_humidor, takeOut_cigarsTable, ← Bool.not_eq_true, ← Bool.not_eq_true]
          exact not_and_or.mp hread
        have h₂ := h₁.flatMapConcat_fails (g := fun _ => moveTo src dst count)
          (moveTo_fails_of_some count hr hmiss)
        exact moveCigar_silent_of_fails count ((h₂.flatMapConcat _).flatMapConcat _)
  · rw [if_neg hsrc]
    obtain ⟨e, h₁⟩ := moveFrom_fails count (Bool.not_eq_true _ ▸ hsrc)
    exact moveCigar_silent_of_fails count (((h₁.flatMapConcat _).flatMapConcat _).flatMapConcat _)

end MoveCigar
end CigarHumidorRepository
end Cigars
