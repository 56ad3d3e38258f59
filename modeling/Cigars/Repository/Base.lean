import Cigars.Coroutine.Flow
import Cigars.Database.Schema

/-! `DatabaseQueries`, the wrappers of the five tables, and the operations every repository
inherits from `SQLDelightBaseRepository`. -/
namespace Cigars
open Coroutine

abbrev DbAction (α : Type) : Type 1 := Action Database Exn α

abbrev DbFlow (α : Type) : Type 1 := Flow Database Exn α

/-- What the base repository asks of a table. `identity` holds the arguments with which
`contains(entity)` looks the entity up; `add` is the `INSERT` together with the
`lastInsertRowId()` read in the same transaction. -/
structure DatabaseQueries (ENTITY : Type) where
  rowid : ENTITY → ℤ
  withRowid : ENTITY → ℤ → ENTITY
  toString : ENTITY → Except Exn Unit
  identity : ENTITY → ℤ × Option ℤ
  get : ℤ → Option ℤ → Database → Except Exn ENTITY
  find : ℤ → Option ℤ → Database → Except Exn (Option ENTITY)
  contains : ℤ → Option ℤ → Database → Except Exn Bool
  add : ENTITY → Database → Except Exn (ℤ × Database)
  update : ENTITY → Database → Database
  remove : ℤ → Option ℤ → Database → Except Exn Database

/-- `where!!`. -/
def whereNotNull (whereId : Option ℤ) : Except Exn ℤ :=
  match whereId with
  | some id => .ok id
  | none => .error .nullPointer

def cigarsTableQueries : DatabaseQueries Cigar where
  rowid c := c.rowid
  withRowid c id := { c with rowid := id }
  toString := Cigar.toString
  identity c := (c.rowid, none)
  get id _ db := db.getCigar id
  find rowid _ db := .ok ((db.cigarsTable.find? rowid).map (cigarFactory rowid))
  contains rowid _ db := .ok (db.cigarsTable.contains rowid)
  add c db := .ok <| CigarsDatabase.add c.name c.brand c.country c.date c.cigar c.wrapper c.binder
    c.gauge c.length c.strength.toLong c.rating c.myrating c.notes c.filler c.link c.count
    c.shopping c.favorites c.price c.other c.relationsJson db
  update c db := CigarsDatabase.update c.name c.brand c.country c.date c.cigar c.wrapper c.binder
    c.gauge c.length c.strength.toLong c.rating c.myrating c.notes c.filler c.link c.count
    c.shopping c.favorites c.price c.other c.relationsJson c.rowid db
  remove rowid _ db := .ok (CigarsDatabase.remove rowid db)

def humidorsTableQueries : DatabaseQueries Humidor where
  rowid h := h.rowid
  withRowid h id := { h with rowid := id }
  toString := Humidor.toString
  identity h := (h.rowid, none)
  get id _ db := db.getHumidor id
  find rowid _ db := .ok ((db.humidorsTable.find? rowid).map (humidorFactory rowid))
  contains rowid _ db := .ok (db.humidorsTable.contains rowid)
  add h db := .ok <| HumidorsDatabase.add h.name h.brand h.holds h.count h.temperature h.humidity
    h.notes h.link h.autoOpen h.sorting h.type db
  update h db := HumidorsDatabase.update h.name h.brand h.holds h.count h.temperature h.humidity
    h.notes h.link h.autoOpen h.sorting h.type h.rowid db
  remove rowid _ db := .ok (HumidorsDatabase.remove rowid db)

/-- `SELECT ... WHERE humidorId = id AND cigarId = where`, mapped by `humidorCigarFactory`. -/
def findHumidorCigar (id whereId : ℤ) (db : Database) : Except Exn (Option HumidorCigar) :=
  match db.cigarHumidorTable.find? (id, whereId) with
  | none => .ok none
  | some r => some <$> humidorCigarFactory db r.count id whereId

def cigarHumidorTableQueries : DatabaseQueries HumidorCigar where
  rowid hc := hc.rowid
  withRowid hc id := { hc with rowid := id }
  toString := HumidorCigar.toString
  identity hc := (hc.humidor.rowid, some hc.cigar.rowid)
  get id whereId db := do executeAsOne (← findHumidorCigar id (← whereNotNull whereId) db)
  find rowid whereId db := do findHumidorCigar rowid (← whereNotNull whereId) db
  contains rowid whereId db := do return db.cigarHumidorTable.contains (rowid, ← whereNotNull whereId)
  add hc db := HumidorCigarsDatabase.add hc.count hc.humidor.rowid hc.cigar.rowid db
  update hc db := HumidorCigarsDatabase.update hc.count hc.humidor.rowid hc.cigar.rowid db
  remove rowid whereId db := do return HumidorCigarsDatabase.remove rowid (← whereNotNull whereId) db

/-- `History.toString` and `CigarImage.toString` cut nothing and never throw. -/
def historyTableQueries : DatabaseQueries History where
  rowid h := h.rowid
  withRowid h id := { h with rowid := id }
  toString _ := .ok ()
  identity h := (h.rowid, none)
  get id _ db := do historyFactory db id (← executeAsOne (db.historyTable.find? id))
  find rowid _ db :=
    match db.historyTable.find? rowid with
    | none => .ok none
    | some r => some <$> historyFactory db rowid r
  contains rowid _ db := .ok (db.historyTable.contains rowid)
  add h db := .ok <| HistoryDatabase.add h.count h.date h.left h.price h.type.type
    (h.cigar.map Cigar.rowid) h.humidorFrom.rowid h.humidorTo.rowid db
  update h db := HistoryDatabase.update h.count h.date h.left h.price h.type.type
    (h.cigar.map Cigar.rowid) h.humidorFrom.rowid h.humidorTo.rowid h.rowid db
  remove rowid _ db := .ok (HistoryDatabase.remove rowid db)

def imagesTableQueries : DatabaseQueries CigarImage where
  rowid i := i.rowid
  withRowid i id := { i with rowid := id }
  toString _ := .ok ()
  identity i := (i.rowid, none)
  get id _ db := executeAsOne ((db.imagesTable.find? id).map (imageFactory id))
  find rowid _ db := .ok ((db.imagesTable.find? rowid).map (imageFactory rowid))
  contains rowid _ db := .ok (db.imagesTable.contains rowid)
  add i db := .ok <| ImagesDatabase.add i.bytes i.type i.image i.notes i.cigarId i.humidorId db
  update i db := ImagesDatabase.update i.bytes i.type i.image i.notes i.rowid db
  remove rowid _ db := .ok (ImagesDatabase.remove rowid db)

namespace SQLDelightBaseRepository
variable {ENTITY : Type} (wrapper : DatabaseQueries ENTITY)

def getSync (id : ℤ) (whereId : Option ℤ) : DbAction ENTITY := Action.query (wrapper.get id whereId)

def find (id : ℤ) (whereId : Option ℤ) : DbAction (Option ENTITY) :=
  Action.query (wrapper.find id whereId)

def contains (id : ℤ) (whereId : Option ℤ) : DbAction Bool :=
  Action.query (wrapper.contains id whereId)

def containsEntity (entity : ENTITY) : DbAction Bool :=
  contains wrapper (wrapper.identity entity).1 (wrapper.identity entity).2

/-- `entity.rowid < 0 || !contains(entity)`. -/
def isNew (entity : ENTITY) : DbAction Bool :=
  if wrapper.rowid entity < 0 then pure true
  else do return !(← containsEntity wrapper entity)

/-- The insert, the new rowid and the log line; the entity is emitted inside the transaction. -/
def insert (entity : ENTITY) : DbFlow ENTITY :=
  Flow.inTransaction <|
    Flow.after (Action.statement (wrapper.add entity)) fun id =>
      Flow.after (Action.ofExcept (wrapper.toString (wrapper.withRowid entity id))) fun _ =>
        Flow.flowOf (wrapper.withRowid entity id)

def add (entity : ENTITY) : DbFlow ENTITY :=
  Flow.after (isNew wrapper entity) fun new =>
    if new then insert wrapper entity
    else Flow.after (Action.ofExcept (wrapper.toString entity)) fun _ => Flow.throwing .cantInsert

def update (entity : ENTITY) : DbFlow ENTITY :=
  Flow.after (containsEntity wrapper entity) fun stored =>
    if stored then
      Flow.after (Script.write (wrapper.update entity)) fun _ => Flow.flowOf entity
    else Flow.after (Action.ofExcept (wrapper.toString entity)) fun _ => Flow.throwing .cantUpdate

def remove (id : ℤ) (whereId : Option ℤ) : DbFlow Bool :=
  Flow.after (contains wrapper id whereId) fun idExists =>
    if idExists then
      Flow.after (Action.statement fun db => (wrapper.remove id whereId db).map ((), ·)) fun _ =>
        Flow.flowOf true
    else Flow.throwing (.cantRemove id)

variable {entity : ENTITY} {db db₁ : Database} {newId : ℤ}

theorem isNew_of_neg (h : wrapper.rowid entity < 0) :
    (isNew wrapper entity).run db = (.ok true, db) := by
  rw [isNew, if_pos h]
  rfl

theorem isNew_of_nonneg {stored : Bool} (h : ¬ wrapper.rowid entity < 0)
    (hc : wrapper.contains (wrapper.identity entity).1 (wrapper.identity entity).2 db = .ok stored) :
    (isNew wrapper entity).run db = (.ok !stored, db) := by
  rw [isNew, if_neg h, Script.run_bind, containsEntity, contains, Action.run_query_ok hc]
  rfl

theorem isNew_true {stored : Bool}
    (hc : wrapper.contains (wrapper.identity entity).1 (wrapper.identity entity).2 db = .ok stored)
    (h : wrapper.rowid entity < 0 ∨ stored = false) : (isNew wrapper entity).run db = (.ok true, db) := by
  by_cases hneg : wrapper.rowid entity < 0
  · exact isNew_of_neg wrapper hneg
  · rw [isNew_of_nonneg wrapper hneg hc, h.resolve_left hneg]
    rfl

theorem isNew_false {stored : Bool}
    (hc : wrapper.contains (wrapper.identity entity).1 (wrapper.identity entity).2 db = .ok stored)
    (h : ¬ (wrapper.rowid entity < 0 ∨ stored = false)) :
    (isNew wrapper entity).run db = (.ok false, db) := by
  obtain ⟨hneg, hs⟩ := not_or.mp h
  rw [Bool.not_eq_false] at hs
  rw [isNew_of_nonneg wrapper hneg hc, hs]
  rfl

theorem insert_emits (hadd : wrapper.add entity db = .ok (newId, db₁))
    (hlog : wrapper.toString (wrapper.withRowid entity newId) = .ok ()) :
    (insert wrapper entity).Emits db (wrapper.withRowid entity newId) db₁ fun _ => db :=
  Flow.Emits.inTransaction <|
    Flow.Emits.after (Action.run_statement_ok hadd) <|
      Flow.Emits.after (Action.run_ofExcept_ok _ hlog) (Flow.emits_flowOf _ _)

theorem add_emits (hnew : (isNew wrapper entity).run db = (.ok true, db))
    (hadd : wrapper.add entity db = .ok (newId, db₁))
    (hlog : wrapper.toString (wrapper.withRowid entity newId) = .ok ()) :
    (add wrapper entity).Emits db (wrapper.withRowid entity newId) db₁ fun _ => db :=
  Flow.Emits.after hnew (insert_emits wrapper hadd hlog)

theorem add_fails_of_refused {e : Exn} (hnew : (isNew wrapper entity).run db = (.ok true, db))
    (hadd : wrapper.add entity db = .error e) : (add wrapper entity).Fails db e db := by
  have hins : (insert wrapper entity).Fails db e db :=
    Flow.Fails.inTransaction (Flow.fails_after (Action.run_statement_error hadd) _)
  exact Flow.Fails.after hnew hins

theorem add_fails_of_log {e : Exn} (hnew : (isNew wrapper entity).run db = (.ok true, db))
    (hadd : wrapper.add entity db = .ok (newId, db₁))
    (hlog : wrapper.toString (wrapper.withRowid entity newId) = .error e) :
    (add wrapper entity).Fails db e db := by
  have hins : (insert wrapper entity).Fails db e db :=
    Flow.Fails.inTransaction <|
      Flow.Fails.after (Action.run_statement_ok hadd) <|
        Flow.fails_after (Action.run_ofExcept_error _ hlog) _
  exact Flow.Fails.after hnew hins

theorem add_fails_of_stored (hnew : (isNew wrapper entity).run db = (.ok false, db)) :
    ∃ e, (add wrapper entity).Fails db e db := by
  cases hlog : wrapper.toString entity with
  | ok u =>
    exact ⟨.cantInsert, Flow.Fails.after hnew
      (Flow.Fails.after (Action.run_ofExcept_ok _ hlog) (Flow.fails_throwing _ _))⟩
  | error e =>
    exact ⟨e, Flow.Fails.after hnew (Flow.fails_after (Action.run_ofExcept_error _ hlog) _)⟩

theorem update_emits (entity : ENTITY) (db : Database) (hc : wrapper.contains (wrapper.identity entity).1
      (wrapper.identity entity).2 db = .ok true) :
    (update wrapper entity).Emits db entity (wrapper.update entity db) id := by
  refine Flow.Emits.after (Action.run_query_ok hc) ?_
  exact Flow.Emits.after (Script.run_write _ _) (Flow.emits_flowOf _ _)

theorem update_fails (entity : ENTITY) (db : Database) (hc : wrapper.contains (wrapper.identity entity).1
      (wrapper.identity entity).2 db = .ok false) :
    ∃ e, (update wrapper entity).Fails db e db := by
  cases hlog : wrapper.toString entity with
  | ok u =>
    exact ⟨.cantUpdate, Flow.Fails.after (Action.run_query_ok hc)
      (Flow.Fails.after (Action.run_ofExcept_ok _ hlog) (Flow.fails_throwing _ _))⟩
  | error e =>
    exact ⟨e, Flow.Fails.after (Action.run_query_ok hc)
      (Flow.fails_after (Action.run_ofExcept_error _ hlog) _)⟩

theorem remove_emits {rowid : ℤ} {whereId : Option ℤ} (hc : wrapper.contains rowid whereId db = .ok true)
    (hr : wrapper.remove rowid whereId db = .ok db₁) :
    (remove wrapper rowid whereId).Emits db true db₁ id := by
  have hstmt : (wrapper.remove rowid whereId db).map ((), ·) = .ok ((), db₁) := by
    rw [hr]
    rfl
  refine Flow.Emits.after (Action.run_query_ok hc) ?_
  exact Flow.Emits.after (Action.run_statement_ok hstmt) (Flow.emits_flowOf _ _)

theorem remove_fails {rowid : ℤ} {whereId : Option ℤ} (hc : wrapper.contains rowid whereId db = .ok false) :
    (remove wrapper rowid whereId).Fails db (.cantRemove rowid) db :=
  Flow.Fails.after (Action.run_query_ok hc) (Flow.fails_throwing _ _)

/-! ### What a call that completed has done -/

theorem isNew_run (entity : ENTITY) (db : Database) :
    (∃ new, (isNew wrapper entity).run db = (.ok new, db)) ∨
      ∃ e, (isNew wrapper entity).run db = (.error ⟨0, e⟩, db) := by
  by_cases hneg : wrapper.rowid entity < 0
  · exact Or.inl ⟨true, isNew_of_neg wrapper hneg⟩
  · cases hc : wrapper.contains (wrapper.identity entity).1 (wrapper.identity entity).2 db with
    | ok stored => exact Or.inl ⟨_, isNew_of_nonneg wrapper hneg hc⟩
    | error e =>
      right
      refine ⟨e, ?_⟩
      rw [isNew, if_neg hneg, Script.run_bind, containsEntity, contains, Action.run_query_error hc]
      rfl

theorem add_of_completes {db' : Database} (h : (add wrapper entity).Completes db db') :
    ∃ id, wrapper.add entity db = .ok (id, db') := by
  rcases isNew_run wrapper entity db with ⟨new, hnew⟩ | ⟨e, hnew⟩
  · cases new with
    | false =>
      obtain ⟨e, hfails⟩ := add_fails_of_stored wrapper hnew
      exact absurd h hfails.not_completes
    | true =>
      cases hadd : wrapper.add entity db with
      | error e => exact absurd h (add_fails_of_refused wrapper hnew hadd).not_completes
      | ok added =>
        cases hlog : wrapper.toString (wrapper.withRowid entity added.1) with
        | error e => exact absurd h (add_fails_of_log wrapper hnew hadd hlog).not_completes
        | ok u =>
          have hdb' := h.unique (add_emits wrapper hnew hadd hlog).completes
          rw [hdb']
          exact ⟨added.1, rfl⟩
  · exact absurd h (Flow.fails_after hnew _).not_completes

theorem update_of_completes {db' : Database} (h : (update wrapper entity).Completes db db') :
    wrapper.contains (wrapper.identity entity).1 (wrapper.identity entity).2 db = .ok true ∧
      db' = wrapper.update entity db := by
  cases hc : wrapper.contains (wrapper.identity entity).1 (wrapper.identity entity).2 db with
  | error e => exact absurd h (Flow.fails_after (Action.run_query_error hc) _).not_completes
  | ok stored =>
    cases stored with
    | false =>
      obtain ⟨e, hfails⟩ := update_fails wrapper entity db hc
      exact absurd h hfails.not_completes
    | true => exact ⟨rfl, h.unique (update_emits wrapper entity db hc).completes⟩

theorem remove_of_completes {rowid : ℤ} {whereId : Option ℤ} {db' : Database}
    (h : (remove wrapper rowid whereId).Completes db db') :
    wrapper.contains rowid whereId db = .ok true ∧ wrapper.remove rowid whereId db = .ok db' := by
  cases hc : wrapper.contains rowid whereId db with
  | error e => exact absurd h (Flow.fails_after (Action.run_query_error hc) _).not_completes
  | ok stored =>
    cases stored with
    | false => exact absurd h (remove_fails wrapper hc).not_completes
    | true =>
      cases hr : wrapper.remove rowid whereId db with
      | error e =>
        have hstmt : (wrapper.remove rowid whereId db).map ((), ·) = .error e := by
          rw [hr]
          rfl
        have hfails : (remove wrapper rowid whereId).Fails db e db := by
          apply Flow.Fails.after (Action.run_query_ok hc)
          exact Flow.fails_after (Action.run_statement_error hstmt) _
        exact absurd h hfails.not_completes
      | ok db₁ => exact ⟨rfl, by rw [h.unique (remove_emits wrapper hc hr).completes]⟩

end SQLDelightBaseRepository
end Cigars
