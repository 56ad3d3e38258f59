import Cigars.Repository.Outcomes

/-! How `HumidorsRepository.add` and `CigarsRepository.add` end. Both open a transaction in the
base `add` and emit inside it, so all that follows is undone by a throw. -/
namespace Cigars
open Coroutine Sql SQLDelightBaseRepository

/-- The row the `INSERT` of a cigar writes. -/
def Cigar.columns (c : Cigar) : CigarsTable where
  name := c.name
  brand := c.brand
  country := c.country
  date := c.date
  cigar := c.cigar
  wrapper := c.wrapper
  binder := c.binder
  gauge := c.gauge
  length := c.length
  strength := c.strength.toLong
  rating := c.rating
  myrating := c.myrating
  notes := c.notes
  filler := c.filler
  link := c.link
  count := c.count
  shopping := c.shopping
  favorites := c.favorites
  price := bindReal c.price
  other := c.other
  relations := c.relationsJson

/-- The row the `INSERT` of a humidor writes. -/
def Humidor.columns (h : Humidor) : HumidorsTable where
  name := h.name
  brand := h.brand
  holds := h.holds
  count := h.count
  temperature := h.temperature
  humidity := bindReal h.humidity
  notes := h.notes
  link := h.link
  price := none
  autoOpen := some h.autoOpen
  sorting := h.sorting
  type := h.type
  other := none

namespace Database

def addCigar (cigar : Cigar) (db : Database) : Database :=
  { db with cigarsTable := db.cigarsTable.insert cigar.columns }

def addHumidor (humidor : Humidor) (db : Database) : Database :=
  { db with humidorsTable := db.humidorsTable.insert humidor.columns }

end Database

namespace HumidorsRepository

/-- What `add` needs to get to its end. -/
structure AddGoesThrough (entity : Humidor) (db : Database) : Prop where
  new : entity.rowid < 0 ∨ db.humidorsTable.contains entity.rowid = false
  text : entity.toString = .ok ()

def added (now : ℤ) (entity : Humidor) (db : Database) : Database :=
  (db.addHumidor entity).addHistory
    (additionEntry now { entity with rowid := db.humidorsTable.nextRowid })

theorem add_emits {entity : Humidor} {db : Database} (now : ℤ) (h : AddGoesThrough entity db) :
    (add now entity).Emits db { entity with rowid := db.humidorsTable.nextRowid }
      (added now entity db) fun _ => db := by
  have h₁ := SQLDelightBaseRepository.add_emits humidorsTableQueries
    (isNew_true humidorsTableQueries rfl h.new) rfl h.text
  have h₂ := historyAdd_emits
    (additionEntry now { entity with rowid := db.humidorsTable.nextRowid }) (db.addHumidor entity)
    (by decide : (-1 : ℤ) < 0)
  refine h₁.map ?_
  rw [Script.run_bind]
  exact congrArg _ h₂.completes.drain

theorem add_fails {entity : Humidor} {db : Database} (now : ℤ) (h : ¬ AddGoesThrough entity db) :
    ∃ e, (add now entity).Fails db e db := by
  by_cases hnew : entity.rowid < 0 ∨ db.humidorsTable.contains entity.rowid = false
  · have hlog : entity.toString ≠ .ok () := fun hlog => h ⟨hnew, hlog⟩
    cases he : entity.toString with
    | ok u => exact absurd he hlog
    | error e =>
      have h₁ := add_fails_of_log humidorsTableQueries
        (isNew_true humidorsTableQueries rfl hnew) rfl he
      exact ⟨e, h₁.map _⟩
  · obtain ⟨e, h₁⟩ := add_fails_of_stored humidorsTableQueries
      (isNew_false humidorsTableQueries rfl hnew)
    exact ⟨e, h₁.map _⟩

theorem goesThrough_of_drain {entity : Humidor} {db db' : Database} {now : ℤ}
    (h : (add now entity).drain.run db = (.ok (), db')) : AddGoesThrough entity db ∧ db' = added now entity db := by
  by_cases hgo : AddGoesThrough entity db
  · exact ⟨hgo, ((add_emits now hgo).completes.eq_of_drain h).symm⟩
  · obtain ⟨e, hfails⟩ := add_fails now hgo
    exact absurd h hfails.not_drain

theorem goesThrough_of_completes {entity : Humidor} {db db' : Database} {now : ℤ}
    (h : (add now entity).Completes db db') : AddGoesThrough entity db ∧ db' = added now entity db :=
  goesThrough_of_drain h.drain

end HumidorsRepository

namespace CigarsRepository

/-- What `add` needs to get to its end. -/
structure AddGoesThrough (cigar : Cigar) (humidor : Humidor) (db : Database) : Prop where
  new : cigar.rowid < 0 ∨ db.cigarsTable.contains cigar.rowid = false
  free : db.cigarHumidorTable.find? (humidor.rowid, db.cigarsTable.nextRowid) = none
  text : humidor.toString = .ok ()
  target : db.humidorsTable.contains humidor.rowid = true

/-- The cigar as `add` emits it. -/
def stored (cigar : Cigar) (db : Database) : Cigar := { cigar with rowid := db.cigarsTable.nextRowid }

variable [LongReading]

/-- The first three tables `add` writes. -/
def enrolled (now : ℤ) (cigar : Cigar) (humidor : Humidor) (db : Database) : Database :=
  ((db.addCigar cigar).putIn humidor.rowid db.cigarsTable.nextRowid cigar.count).addHistory
    (additionEntry now { count := cigar.count, humidor, cigar := stored cigar db })

def added (now : ℤ) (cigar : Cigar) (humidor : Humidor) (db : Database) : Database :=
  (enrolled now cigar humidor db).raiseTotal humidor.rowid cigar.count

section Add
variable (now : ℤ) (cigar : Cigar) {humidor : Humidor} {db : Database}

/-- The stages up to the history entry. -/
private theorem enrol_emits
    (hfree : db.cigarHumidorTable.find? (humidor.rowid, db.cigarsTable.nextRowid) = none)
    (htext : humidor.toString = .ok ()) :
    ∃ it : History, it.humidorTo.rowid = humidor.rowid ∧ it.count = cigar.count ∧
      ((CigarHumidorRepository.add (stored cigar db) humidor cigar.count).flatMapConcat fun it =>
        HistoryRepository.add (additionEntry now it)).Emits (db.addCigar cigar) it
          (enrolled now cigar humidor db) fun _ => db.addCigar cigar := by
  obtain ⟨rowid, h₁⟩ := stockAdd_emits (stored cigar db) humidor cigar.count (db.addCigar cigar) hfree htext
  have h₂ := historyAdd_emits
    (additionEntry now { count := cigar.count, humidor, cigar := stored cigar db, rowid })
    ((db.addCigar cigar).putIn humidor.rowid db.cigarsTable.nextRowid cigar.count)
    (by decide : (-1 : ℤ) < 0)
  have h₁₂ := h₁.flatMapConcat (g := fun it => HistoryRepository.add (additionEntry now it)) h₂
  exact ⟨_, rfl, rfl, h₁₂⟩

theorem add_emits (h : AddGoesThrough cigar humidor db) :
    (add now cigar humidor).Emits db (stored cigar db) (added now cigar humidor db) fun _ => db := by
  have h₁ := SQLDelightBaseRepository.add_emits cigarsTableQueries
    (isNew_true cigarsTableQueries rfl h.new) rfl (Cigar.toString_eq _)
  obtain ⟨it, hto, hcount, h₂⟩ := enrol_emits now cigar h.free h.text
  obtain ⟨row, hrow⟩ := (Table.contains_iff _ _).mp h.target
  have hrow' : (enrolled now cigar humidor db).humidorsTable.find? humidor.rowid = some row := hrow
  have h₃ : (Flow.after (HumidorsRepository.getSync it.humidorTo.rowid) fun humidorTo =>
      HumidorsRepository.updateCigarsCount it.humidorTo.rowid (long (humidorTo.count + it.count))).Emits
        (enrolled now cigar humidor db) humidor.rowid (added now cigar humidor db) id := by
    rw [hto, hcount, added, ← updateCigarsCount_eq_raiseTotal cigar.count hrow']
    exact Flow.Emits.after (getSync_of_find? hrow') (updateCigarsCount_emits _ _ _)
  have h₂₃ := h₂.flatMapConcat (g := fun it => Flow.after (HumidorsRepository.getSync it.humidorTo.rowid)
    fun humidorTo => HumidorsRepository.updateCigarsCount it.humidorTo.rowid (long (humidorTo.count + it.count))) h₃
  have h₂₄ := h₂₃.flatMapConcat (g := fun _ => Flow.flowOf (stored cigar db)) (Flow.emits_flowOf _ _)
  exact h₁.flatMapConcat h₂₄

theorem add_fails (h : ¬ AddGoesThrough cigar humidor db) :
    ∃ e, (add now cigar humidor).Fails db e db := by
  by_cases hnew : cigar.rowid < 0 ∨ db.cigarsTable.contains cigar.rowid = false
  · have h₁ := SQLDelightBaseRepository.add_emits cigarsTableQueries
      (isNew_true cigarsTableQueries rfl hnew) rfl (Cigar.toString_eq _)
    -- A later stage throws inside the transaction of the base `add`.
    suffices hlater : ∃ e, Flow.Fails _ (db.addCigar cigar) e (db.addCigar cigar) by
      obtain ⟨e, hlater⟩ := hlater
      exact ⟨e, h₁.flatMapConcat_fails hlater⟩
    cases hfree : db.cigarHumidorTable.find? (humidor.rowid, db.cigarsTable.nextRowid) with
    | some r =>
      have h₂ := stockAdd_fails_of_stored (stored cigar db) humidor cigar.count (db.addCigar cigar)
        ((Table.contains_iff _ _).mpr ⟨r, hfree⟩)
      exact ⟨_, ((h₂.flatMapConcat _).flatMapConcat _).flatMapConcat _⟩
    | none =>
      cases htext : humidor.toString with
      | error e =>
        have h₂ := stockAdd_fails_of_log (stored cigar db) humidor cigar.count (db.addCigar cigar)
          hfree htext
        exact ⟨e, ((h₂.flatMapConcat _).flatMapConcat _).flatMapConcat _⟩
      | ok u =>
        have htarget : (enrolled now cigar humidor db).humidorsTable.find? humidor.rowid = none := by
          change db.humidorsTable.find? humidor.rowid = none
          rw [← Table.contains_eq_false_iff, ← Bool.not_eq_true]
          exact fun htarget => h ⟨hnew, hfree, htext, htarget⟩
        obtain ⟨it, hto, hcount, h₂⟩ := enrol_emits now cigar hfree htext
        have h₃ : (Flow.after (HumidorsRepository.getSync it.humidorTo.rowid) fun humidorTo =>
            HumidorsRepository.updateCigarsCount it.humidorTo.rowid (long (humidorTo.count + it.count))).Fails
              (enrolled now cigar humidor db) .noSuchRow (enrolled now cigar humidor db) := by
          rw [hto]
          exact Flow.fails_after (getSync_of_none htarget) _
        have h₂₃ := h₂.flatMapConcat_fails (g := fun it => Flow.after
          (HumidorsRepository.getSync it.humidorTo.rowid) fun humidorTo =>
            HumidorsRepository.updateCigarsCount it.humidorTo.rowid (long (humidorTo.count + it.count))) h₃
        exact ⟨_, h₂₃.flatMapConcat _⟩
  · obtain ⟨e, h₁⟩ := add_fails_of_stored cigarsTableQueries (isNew_false cigarsTableQueries rfl hnew)
    exact ⟨e, h₁.flatMapConcat _⟩

theorem goesThrough_of_drain {db' : Database} (h : (add now cigar humidor).drain.run db = (.ok (), db')) :
    AddGoesThrough cigar humidor db ∧ db' = added now cigar humidor db := by
  by_cases hgo : AddGoesThrough cigar humidor db
  · exact ⟨hgo, ((add_emits now cigar hgo).completes.eq_of_drain h).symm⟩
  · obtain ⟨e, hfails⟩ := add_fails now cigar hgo
    exact absurd h hfails.not_drain

theorem goesThrough_of_completes {db' : Database} (h : (add now cigar humidor).Completes db db') :
    AddGoesThrough cigar humidor db := (goesThrough_of_drain now cigar h.drain).1

end Add

/-- One row more in three tables and the humidor's total raised; the images as they were. -/
structure Gained (now : ℤ) (cigar : Cigar) (humidor : Humidor) (db db' : Database) : Prop where
  cigars : db'.cigarsTable.rows = db.cigarsTable.rows ++ [(db.cigarsTable.nextRowid, cigar.columns)]
  stock : db'.cigarHumidorTable.rows = db.cigarHumidorTable.rows ++
    [((humidor.rowid, db.cigarsTable.nextRowid),
      ⟨HumidorCigarsDatabase.nextRowid db.cigarHumidorTable, cigar.count⟩)]
  history : db'.historyTable.rows = db.historyTable.rows ++
    [(db.historyTable.nextRowid,
      { count := cigar.count, date := now, left := cigar.count, price := bindReal cigar.price,
        type := HistoryType.addition.type, cigarId := some db.cigarsTable.nextRowid,
        humidorTo := humidor.rowid, humidorFrom := humidor.rowid })]
  humidors : db'.humidorsTable = db.humidorsTable.update humidor.rowid fun r =>
    { r with count := long (r.count + cigar.count) }
  images : db'.imagesTable = db.imagesTable

theorem added_gained (now : ℤ) {cigar : Cigar} {humidor : Humidor} {db : Database}
    (h : AddGoesThrough cigar humidor db) : Gained now cigar humidor db (added now cigar humidor db) where
  cigars := rfl
  stock := rows_putIn_of_none cigar.count (show (db.addCigar cigar).cigarHumidorTable.find? _ = none from h.free)
  history := rfl
  humidors := rfl
  images := rfl

/-- Whatever the collector does: either the cigar was emitted over the gained rows, and a throw
of the collector undoes them, or nothing was written. -/
theorem add_allOrNothing (now : ℤ) (cigar : Cigar) (humidor : Humidor) (db : Database)
    (collector : Cigar → DbAction Unit) :
    (AddGoesThrough cigar humidor db ∧ ∃ gained, Gained now cigar humidor db gained ∧
      (add now cigar humidor collector).run db =
        match (collector (stored cigar db)).run gained with
        | (.ok (), db') => (.ok (), db')
        | (.error e, _) => (.error e, db)) ∨
    (¬ AddGoesThrough cigar humidor db ∧
      ∃ e, (add now cigar humidor collector).run db = (.error ⟨0, e⟩, db)) := by
  by_cases h : AddGoesThrough cigar humidor db
  · left
    refine ⟨h, added now cigar humidor db, added_gained now h, ?_⟩
    rw [add_emits now cigar h collector]
    rcases (collector (stored cigar db)).run (added now cigar humidor db) with ⟨e | u, db'⟩
    · rfl
    · rfl
  · right
    obtain ⟨e, hfails⟩ := add_fails now cigar h
    exact ⟨h, e, hfails collector⟩

end CigarsRepository
end Cigars
