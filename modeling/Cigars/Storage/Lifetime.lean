import Cigars.Application.DemoSet
import Cigars.Repository.Batches
import Cigars.Sql.Lifetime
import Cigars.Stock.Concurrent
import Cigars.Stock.LostUpdate
import Cigars.Storage.Integrity

/-! What no interleaving of repository calls does, complete or cut off at any point. Each statement of
each call is one of a few kinds of writes; what those keep, every schedule keeps. -/
namespace Cigars
open Coroutine Sql

/-! ### Kinds of writes -/

/-- One statement changes one table; `journal` says what may happen to the history. -/
inductive Database.Write (journal : AutoTable HistoryTable → AutoTable HistoryTable → Prop) :
    Database → Database → Prop
  | cigars {db : Database} {t : AutoTable CigarsTable} (h : db.cigarsTable.Change t) :
    Write journal db { db with cigarsTable := t }
  | humidors {db : Database} {t : AutoTable HumidorsTable} (h : db.humidorsTable.Change t) :
    Write journal db { db with humidorsTable := t }
  | images {db : Database} {t : AutoTable ImagesTable} (h : db.imagesTable.Change t) :
    Write journal db { db with imagesTable := t }
  | stock {db : Database} (t : Table (ℤ × ℤ) CigarHumidorTable) :
    Write journal db { db with cigarHumidorTable := t }
  | history {db : Database} {t : AutoTable HistoryTable} (h : journal db.historyTable t) :
    Write journal db { db with historyTable := t }

open Database (Write)

/-- No write of these kinds breaks `P`. -/
def ClosedUnder (journal : AutoTable HistoryTable → AutoTable HistoryTable → Prop) (P : Database → Prop) : Prop :=
  ∀ s s', Write journal s s' → P s → P s'

/-- No statement of the table's wrapper breaks `P`. -/
structure DatabaseQueries.Keeps {ENTITY : Type} (wrapper : DatabaseQueries ENTITY) (P : Database → Prop) : Prop where
  add : ∀ entity s id s', wrapper.add entity s = .ok (id, s') → P s → P s'
  update : ∀ entity s, P s → P (wrapper.update entity s)
  remove : ∀ id whereId s s', wrapper.remove id whereId s = .ok s' → P s → P s'

section Wrappers
variable {journal : AutoTable HistoryTable → AutoTable HistoryTable → Prop} {P : Database → Prop}
  (hP : ClosedUnder journal P)
include hP

theorem cigarsTableQueries_keeps : cigarsTableQueries.Keeps P where
  add := fun entity s id s' hadd hs => by
    cases hadd
    exact hP _ _ (.cigars (.insert _ _)) hs
  update := fun entity s hs => hP _ _ (.cigars (.update _ _ _)) hs
  remove := fun id whereId s s' hremove hs => by
    cases hremove
    exact hP _ _ (.cigars (.erase _ _)) hs

theorem humidorsTableQueries_keeps : humidorsTableQueries.Keeps P where
  add := fun entity s id s' hadd hs => by
    cases hadd
    exact hP _ _ (.humidors (.insert _ _)) hs
  update := fun entity s hs => hP _ _ (.humidors (.update _ _ _)) hs
  remove := fun id whereId s s' hremove hs => by
    cases hremove
    exact hP _ _ (.humidors (.erase _ _)) hs

theorem imagesTableQueries_keeps : imagesTableQueries.Keeps P where
  add := fun entity s id s' hadd hs => by
    cases hadd
    exact hP _ _ (.images (.insert _ _)) hs
  update := fun entity s hs => hP _ _ (.images (.update _ _ _)) hs
  remove := fun id whereId s s' hremove hs => by
    cases hremove
    exact hP _ _ (.images (.erase _ _)) hs

theorem cigarHumidorTableQueries_keeps : cigarHumidorTableQueries.Keeps P where
  add := fun entity s id s' hadd hs => by
    simp only [cigarHumidorTableQueries, HumidorCigarsDatabase.add] at hadd
    split at hadd
    · cases hadd
    · cases hadd
      exact hP _ _ (.stock _) hs
  update := fun entity s hs => hP _ _ (.stock _) hs
  remove := fun id whereId s s' hremove hs => by
    cases whereId with
    | none => cases hremove
    | some cigarId =>
      cases hremove
      exact hP _ _ (.stock _) hs

theorem historyTableQueries_keeps (hjournal : ∀ t t', AutoTable.Change t t' → journal t t') :
    historyTableQueries.Keeps P where
  add := fun entity s id s' hadd hs => by
    cases hadd
    exact hP _ _ (.history (hjournal _ _ (.insert _ _))) hs
  update := fun entity s hs => hP _ _ (.history (hjournal _ _ (.update _ _ _))) hs
  remove := fun id whereId s s' hremove hs => by
    cases hremove
    exact hP _ _ (.history (hjournal _ _ (.erase _ _))) hs

end Wrappers

/-! ### The calls -/

def TableOp.program {ENTITY : Type} (wrapper : DatabaseQueries ENTITY) : TableOp ENTITY → DbAction Unit
  | add entity => (SQLDelightBaseRepository.add wrapper entity).drain
  | update entity => (SQLDelightBaseRepository.update wrapper entity).drain
  | remove id whereId => (SQLDelightBaseRepository.remove wrapper id whereId).drain

inductive TableName
  | cigars
  | humidors
  | images
  | cigarHumidors
  | history

/-- The statement `removeAll` of the table. -/
def Database.without (db : Database) : TableName → Database
  | .cigars => { db with cigarsTable := .empty db.cigarsTable.seq }
  | .humidors => { db with humidorsTable := .empty db.humidorsTable.seq }
  | .images => { db with imagesTable := .empty db.imagesTable.seq }
  | .cigarHumidors => { db with cigarHumidorTable := .empty }
  | .history => { db with historyTable := .empty db.historyTable.seq }

/-- Everything the repositories and the database offer that writes. -/
inductive Call
  | addHumidor (now : ℤ) (entity : Humidor)
  | addCigar (now : ℤ) (cigar : Cigar) (humidor : Humidor)
  | addCigars (batch : List (ℤ × Cigar)) (humidor : Humidor)
  | addAll (R : LocalRepository) (entities : List (ℤ × R.Entity))
  | request (r : Request)
  | cigars (op : TableOp Cigar)
  | updateHumidor (entity : Humidor)
  | removeHumidor (id : ℤ) (whereId : Option ℤ)
  | updateCigarsCount (humidor count : ℤ)
  | cigarHumidors (op : TableOp HumidorCigar)
  | history (op : TableOp History)
  | images (op : TableOp CigarImage)
  | removeAll (table : TableName)
  | reset

namespace Call

def clear (table : TableName) : DbAction Unit := Script.write fun db => db.without table

/-- The five statements of `reset`. -/
def clearAll : DbAction Unit := do
  clear .cigars
  clear .humidors
  clear .images
  clear .cigarHumidors
  clear .history

theorem beside_clearAll : (clearAll.beside : Action (Database × StartVars) Exn Unit) = SqlDelightDatabase.reset := rfl

/-- What `addAll` does to the database: the `add`s one after the other. -/
def inTurn {α β : Type} (add : α → DbFlow β) : List α → DbAction Unit
  | [] => pure ()
  | it :: batch => do
    (add it).drain
    inTurn add batch

theorem inTurn_run {α β : Type} {add : α → DbFlow β} {db db' : Database} {batch : List α} {emitted : List β}
    (h : Flow.InTurn add db batch emitted db') : (inTurn add batch).run db = (.ok (), db') := by
  induction h with
  | nil => rfl
  | cons hadd _ ih =>
    rw [inTurn, Script.run_bind, hadd.completes.drain, Script.andThen_ok]
    exact ih

/-- Where the cigars can be added one after the other, `addAll` leaves the database that these `add`s do. -/
theorem addAll_leaves {humidor : Humidor} {db db' : Database} {batch : List (ℤ × Cigar)} {emitted : List Cigar}
    (h : CigarsRepository.AddedInTurn humidor db batch emitted db') (collected : Flow.Collected Cigar) :
    (inTurn (fun it => CigarsRepository.add it.1 it.2 humidor) batch).run db = (.ok (), db') ∧
      ∃ collected' back, (CigarsRepository.addAll batch humidor).Emits (db, collected) emitted (db', collected') back :=
  ⟨inTurn_run h, CigarsRepository.addAll_emits h collected⟩

def program : Call → DbAction Unit
  | addHumidor now entity => (HumidorsRepository.add now entity).drain
  | addCigar now cigar humidor => (CigarsRepository.add now cigar humidor).drain
  | addCigars batch humidor => inTurn (fun it => CigarsRepository.add it.1 it.2 humidor) batch
  | addAll R entities => inTurn (fun it => R.add it.1 it.2) entities
  | request r => r.program
  | cigars op => op.program cigarsTableQueries
  | updateHumidor entity => (SQLDelightBaseRepository.update humidorsTableQueries entity).drain
  | removeHumidor id whereId => (SQLDelightBaseRepository.remove humidorsTableQueries id whereId).drain
  | updateCigarsCount humidor count => (HumidorsRepository.updateCigarsCount humidor count).drain
  | cigarHumidors op => op.program cigarHumidorTableQueries
  | history op => op.program historyTableQueries
  | images op => op.program imagesTableQueries
  | removeAll table => clear table
  | reset => clearAll

/-- The calls that change or remove history entries. No screen makes one; `reset` is called at the
first start. -/
def EditsHistory : Call → Prop
  | history (.update _) | history (.remove _ _) | removeAll .history | reset => True
  | _ => False

end Call

section Keeping
variable {ENTITY : Type} {wrapper : DatabaseQueries ENTITY} {P : Database → Prop}

theorem SQLDelightBaseRepository.remove_keeps {id : ℤ} {whereId : Option ℤ}
    (h : ∀ s s', wrapper.remove id whereId s = .ok s' → P s → P s') :
    (remove wrapper id whereId).Keeps P fun _ => True := by
  refine Flow.keeps_after (Q := fun _ => True) (Action.keeps_query fun _ _ _ => trivial) fun stored _ => ?_
  cases stored with
  | true =>
    refine Flow.keeps_after (Action.keeps_statement fun s a s' hremove hs => ?_) fun _ _ => Flow.keeps_flowOf trivial
    cases hs' : wrapper.remove id whereId s with
    | error e =>
      rw [hs'] at hremove
      cases hremove
    | ok t =>
      rw [hs'] at hremove
      cases hremove
      exact h s _ hs' hs
  | false => exact Flow.keeps_throwing _ _

theorem TableOp.program_keeps (h : wrapper.Keeps P) (op : TableOp ENTITY) :
    (op.program wrapper).Keeps P fun _ => True := by
  cases op with
  | add entity => exact (SQLDelightBaseRepository.add_keeps wrapper (h.add entity)).drain
  | update entity => exact (SQLDelightBaseRepository.update_keeps wrapper (h.update entity)).drain
  | remove id whereId => exact (SQLDelightBaseRepository.remove_keeps (h.remove id whereId)).drain

end Keeping

namespace Call
variable {journal : AutoTable HistoryTable → AutoTable HistoryTable → Prop} {P : Database → Prop}

theorem addHistory_keeps (hP : ClosedUnder journal P) (hinsert : ∀ t r, journal t (t.insert r)) (entity : History) :
    (HistoryRepository.add entity).Keeps P fun _ => True := by
  refine SQLDelightBaseRepository.add_keeps historyTableQueries fun s id s' hadd hs => ?_
  cases hadd
  exact hP _ _ (.history (hinsert _ _)) hs

theorem updateCigarsCount_keeps (hP : ClosedUnder journal P) (humidor count : ℤ) :
    (HumidorsRepository.updateCigarsCount humidor count).Keeps P fun _ => True :=
  Flow.keeps_after (Action.keeps_write fun _ hs => hP _ _ (.humidors (.update _ _ _)) hs)
    fun _ _ => Flow.keeps_flowOf trivial

theorem getSync_keeps (id : ℤ) : (HumidorsRepository.getSync id).Keeps P fun _ => True :=
  Action.keeps_query fun _ _ _ => trivial

theorem addHumidor_keeps (hP : ClosedUnder journal P) (hinsert : ∀ t r, journal t (t.insert r)) (now : ℤ)
    (entity : Humidor) : (HumidorsRepository.add now entity).Keeps P fun _ => True := by
  have hadd := SQLDelightBaseRepository.add_keeps humidorsTableQueries ((humidorsTableQueries_keeps hP).add entity)
  refine hadd.map fun it _ => ?_
  have hentry := addHistory_keeps hP hinsert (HumidorsRepository.additionEntry now it)
  exact Script.Keeps.bind (hentry.drain.mono fun _ _ => trivial)

theorem addCigar_keeps (hP : ClosedUnder journal P) (hinsert : ∀ t r, journal t (t.insert r)) (now : ℤ)
    (cigar : Cigar) (humidor : Humidor) : (CigarsRepository.add now cigar humidor).Keeps P fun _ => True := by
  have hcigar := SQLDelightBaseRepository.add_keeps cigarsTableQueries ((cigarsTableQueries_keeps hP).add cigar)
  refine hcigar.flatMapConcat fun cigar _ => ?_
  have hstock := SQLDelightBaseRepository.add_keeps cigarHumidorTableQueries
    ((cigarHumidorTableQueries_keeps hP).add { count := cigar.count, humidor, cigar })
  have hentry := hstock.flatMapConcat fun it _ => addHistory_keeps hP hinsert (CigarsRepository.additionEntry now it)
  have htotal := hentry.flatMapConcat fun it _ =>
    Flow.keeps_after (getSync_keeps it.humidorTo.rowid) fun humidorTo _ =>
      updateCigarsCount_keeps hP it.humidorTo.rowid (long (humidorTo.count + it.count))
  exact htotal.flatMapConcat fun _ _ => Flow.keeps_flowOf trivial

theorem updateStock_keeps (hP : ClosedUnder journal P) (entity : HumidorCigar) :
    (CigarHumidorRepository.update entity).Keeps P fun _ => True :=
  SQLDelightBaseRepository.update_keeps cigarHumidorTableQueries ((cigarHumidorTableQueries_keeps hP).update entity)

theorem updateCigar_keeps (hP : ClosedUnder journal P) (cigar : Cigar) :
    (CigarsRepository.update cigar).Keeps P fun _ => True :=
  SQLDelightBaseRepository.update_keeps cigarsTableQueries ((cigarsTableQueries_keeps hP).update cigar)

theorem updateCount_keeps (hP : ClosedUnder journal P) (hinsert : ∀ t r, journal t (t.insert r)) (now : ℤ)
    (entity : HumidorCigar) (count : ℤ) (price : Option Double) :
    (CigarHumidorRepository.updateCount now entity count price).Keeps P fun _ => True := by
  have hentry := addHistory_keeps hP hinsert (CigarHumidorRepository.updateCountEntry now entity count price)
  refine Flow.Keeps.catchError ((updateStock_keeps hP _).flatMapConcat fun updated _ => ?_) _ fun _ => trivial
  refine Flow.Keeps.map (hentry.flatMapConcat fun _ _ => updateCigar_keeps hP _) fun _ _ => ?_
  exact trivial

theorem moveFrom_keeps (hP : ClosedUnder journal P) (src : HumidorCigar) (count : ℤ) :
    (CigarHumidorRepository.moveFrom src count).Keeps P fun _ => True := by
  unfold CigarHumidorRepository.moveFrom
  split_ifs
  · refine (updateCigarsCount_keeps hP _ _).flatMapConcat fun _ _ => ?_
    exact (updateStock_keeps hP _).flatMapConcat fun _ _ => Flow.keeps_flowOf trivial
  · exact SQLDelightBaseRepository.remove_keeps ((cigarHumidorTableQueries_keeps hP).remove _ _)

theorem moveTo_keeps (hP : ClosedUnder journal P) (src : HumidorCigar) (dst : Humidor) (count : ℤ) :
    (CigarHumidorRepository.moveTo src dst count).Keeps P fun _ => True := by
  refine Flow.keeps_after (Q := fun _ => True) (Action.keeps_query fun _ _ _ => trivial) fun toEntry _ => ?_
  cases toEntry with
  | none => exact SQLDelightBaseRepository.add_keeps _ ((cigarHumidorTableQueries_keeps hP).add _)
  | some entry => exact updateStock_keeps hP _

theorem moveCigar_keeps (hP : ClosedUnder journal P) (hinsert : ∀ t r, journal t (t.insert r)) (now : ℤ)
    (src : HumidorCigar) (dst : Humidor) (count : ℤ) :
    (CigarHumidorRepository.moveCigar now src dst count).Keeps P fun _ => True := by
  have hfrom := moveFrom_keeps hP src count
  have hto := hfrom.flatMapConcat fun _ _ => moveTo_keeps hP src dst count
  have htotal : (CigarHumidorRepository.moveTotal dst count).Keeps P fun _ => True :=
    Flow.keeps_after (Action.keeps_ofExcept _) fun _ _ =>
      Flow.keeps_after (getSync_keeps _) fun _ _ => updateCigarsCount_keeps hP _ _
  have hentry := (hto.flatMapConcat fun _ _ => htotal).flatMapConcat fun _ _ =>
    addHistory_keeps hP hinsert (CigarHumidorRepository.moveEntry now src dst count)
  have hcaught := hentry.catchError (fun _ => pure ()) fun _ => trivial
  exact hcaught.flatMapConcat fun _ _ => Flow.keeps_flowOf trivial

theorem request_keeps (hP : ClosedUnder journal P) (hinsert : ∀ t r, journal t (t.insert r)) (r : Request) :
    r.program.Keeps P fun _ => True := by
  have hcigar : ∀ (id : ℤ) (f : CigarsTable → CigarsTable), (Script.write fun db : Database =>
      { db with cigarsTable := db.cigarsTable.update id f } : DbAction Unit).Keeps P fun _ => True :=
    fun id f => Action.keeps_write fun _ hs => hP _ _ (.cigars (.update _ _ _)) hs
  cases r with
  | updateCount now entity count price => exact (updateCount_keeps hP hinsert now entity count price).drain
  | moveCigar now src dst count => exact (moveCigar_keeps hP hinsert now src dst count).drain
  | updateFavorite value cigar =>
    exact (Flow.keeps_after (hcigar _ _) fun _ _ => Flow.keeps_flowOf (Q := fun _ => True) trivial).drain
  | updateRating value cigar =>
    exact (Flow.keeps_after (hcigar _ _) fun _ _ => Flow.keeps_flowOf (Q := fun _ => True) trivial).drain
  | updateCigar cigar => exact (updateCigar_keeps hP cigar).drain

theorem inTurn_keeps {α β : Type} {add : α → DbFlow β} (h : ∀ it, (add it).Keeps P fun _ => True) (batch : List α) :
    (inTurn add batch).Keeps P fun _ => True := by
  induction batch with
  | nil => trivial
  | cons it batch ih => exact Script.Keeps.bind ((h it).drain.mono fun _ _ => ih)

theorem localAdd_keeps (hP : ClosedUnder journal P) (hinsert : ∀ t r, journal t (t.insert r)) (R : LocalRepository)
    (now : ℤ) (entity : R.Entity) : (R.add now entity).Keeps P fun _ => True := by
  cases R with
  | humidors => exact addHumidor_keeps hP hinsert now entity
  | cigarHistory _ => exact addHistory_keeps hP hinsert entity
  | humidorHistory _ => exact addHistory_keeps hP hinsert entity
  | cigars => exact SQLDelightBaseRepository.add_keeps _ ((cigarsTableQueries_keeps hP).add entity)
  | favoriteCigars => exact SQLDelightBaseRepository.add_keeps _ ((cigarsTableQueries_keeps hP).add entity)
  | cigarHumidors _ => exact SQLDelightBaseRepository.add_keeps _ ((cigarHumidorTableQueries_keeps hP).add entity)
  | humidorCigars _ => exact SQLDelightBaseRepository.add_keeps _ ((cigarHumidorTableQueries_keeps hP).add entity)
  | cigarImages _ => exact SQLDelightBaseRepository.add_keeps _ ((imagesTableQueries_keeps hP).add entity)
  | humidorImages _ => exact SQLDelightBaseRepository.add_keeps _ ((imagesTableQueries_keeps hP).add entity)

theorem clear_keeps (hP : ClosedUnder journal P) (table : TableName)
    (hjournal : table = .history → ∀ t t', AutoTable.Change t t' → journal t t') :
    (clear table).Keeps P fun _ => True := by
  refine Action.keeps_write fun s hs => hP _ _ ?_ hs
  cases table with
  | cigars => exact .cigars (.clear _)
  | humidors => exact .humidors (.clear _)
  | images => exact .images (.clear _)
  | cigarHumidors => exact .stock _
  | history => exact .history (hjournal rfl _ _ (.clear _))

theorem clearAll_keeps (hP : ClosedUnder journal P) (hjournal : ∀ t t', AutoTable.Change t t' → journal t t') :
    clearAll.Keeps P fun _ => True := by
  have hclear (table : TableName) : (clear table).Keeps P fun _ => True := clear_keeps hP table fun _ => hjournal
  refine Script.Keeps.bind ((hclear .cigars).mono fun _ _ => ?_)
  refine Script.Keeps.bind ((hclear .humidors).mono fun _ _ => ?_)
  refine Script.Keeps.bind ((hclear .images).mono fun _ _ => ?_)
  exact Script.Keeps.bind ((hclear .cigarHumidors).mono fun _ _ => hclear .history)

/-- Every statement of a call is a write of one of the kinds; the history is only added to, unless the
call is one that edits it. -/
theorem program_keeps (hP : ClosedUnder journal P) (hinsert : ∀ t r, journal t (t.insert r)) (call : Call)
    (hedits : call.EditsHistory → ∀ t t', AutoTable.Change t t' → journal t t') :
    call.program.Keeps P fun _ => True := by
  cases call with
  | addHumidor now entity => exact (addHumidor_keeps hP hinsert now entity).drain
  | addCigar now cigar humidor => exact (addCigar_keeps hP hinsert now cigar humidor).drain
  | addCigars batch humidor => exact inTurn_keeps (fun it => addCigar_keeps hP hinsert it.1 it.2 humidor) batch
  | addAll R entities => exact inTurn_keeps (fun it => localAdd_keeps hP hinsert R it.1 it.2) entities
  | request r => exact request_keeps hP hinsert r
  | cigars op => exact op.program_keeps (cigarsTableQueries_keeps hP)
  | updateHumidor entity => exact TableOp.program_keeps (humidorsTableQueries_keeps hP) (.update entity)
  | removeHumidor id whereId => exact TableOp.program_keeps (humidorsTableQueries_keeps hP) (.remove id whereId)
  | updateCigarsCount humidor count => exact (updateCigarsCount_keeps hP humidor count).drain
  | cigarHumidors op => exact op.program_keeps (cigarHumidorTableQueries_keeps hP)
  | history op =>
    cases op with
    | add entity => exact (addHistory_keeps hP hinsert entity).drain
    | update entity => exact TableOp.program_keeps (historyTableQueries_keeps hP (hedits trivial)) (.update entity)
    | remove id whereId =>
      exact TableOp.program_keeps (historyTableQueries_keeps hP (hedits trivial)) (.remove id whereId)
  | images op => exact op.program_keeps (imagesTableQueries_keeps hP)
  | removeAll table =>
    refine clear_keeps hP table fun htable => hedits ?_
    rw [htable]
    trivial
  | reset => exact clearAll_keeps hP (hedits trivial)

end Call

/-! ### Rowids -/

/-- The four tables with rowids of their own. -/
inductive EntityKind
  | cigar
  | humidor
  | history
  | image

def Database.stores (db : Database) : EntityKind → ℤ → Bool
  | .cigar, id => db.cigarsTable.contains id
  | .humidor, id => db.humidorsTable.contains id
  | .history, id => db.historyTable.contains id
  | .image, id => db.imagesTable.contains id

/-- All four tables have aged. -/
structure Database.Ages (db db' : Database) : Prop where
  cigars : db.cigarsTable.Ages db'.cigarsTable
  humidors : db.humidorsTable.Ages db'.humidorsTable
  history : db.historyTable.Ages db'.historyTable
  images : db.imagesTable.Ages db'.imagesTable

namespace Database
variable {db db' db'' : Database}

theorem ages_refl (db : Database) : db.Ages db :=
  ⟨AutoTable.ages_refl _, AutoTable.ages_refl _, AutoTable.ages_refl _, AutoTable.ages_refl _⟩

theorem Write.ages (h : Write AutoTable.Change db db') : db.Ages db' := by
  cases h with
  | cigars h => exact ⟨h.ages, AutoTable.ages_refl _, AutoTable.ages_refl _, AutoTable.ages_refl _⟩
  | humidors h => exact ⟨AutoTable.ages_refl _, h.ages, AutoTable.ages_refl _, AutoTable.ages_refl _⟩
  | images h => exact ⟨AutoTable.ages_refl _, AutoTable.ages_refl _, AutoTable.ages_refl _, h.ages⟩
  | stock t => exact ⟨AutoTable.ages_refl _, AutoTable.ages_refl _, AutoTable.ages_refl _, AutoTable.ages_refl _⟩
  | history h => exact ⟨AutoTable.ages_refl _, AutoTable.ages_refl _, h.ages, AutoTable.ages_refl _⟩

theorem Ages.trans (h : db.Ages db') (h' : db'.Ages db'') : db.Ages db'' :=
  ⟨h.cigars.trans h'.cigars, h.humidors.trans h'.humidors, h.history.trans h'.history, h.images.trans h'.images⟩

theorem closedUnder_ages (db : Database) : ClosedUnder AutoTable.Change db.Ages :=
  fun _ _ hwrite h => h.trans hwrite.ages

theorem Ages.not_stores (h : db.Ages db') (h' : db'.Ages db'') {kind : EntityKind} {id : ℤ}
    (hused : db.stores kind id = true) (hgone : db'.stores kind id ≠ true) : db''.stores kind id ≠ true := by
  cases kind with
  | cigar => exact h.cigars.not_contains h'.cigars hused hgone
  | humidor => exact h.humidors.not_contains h'.humidors hused hgone
  | history => exact h.history.not_contains h'.history hused hgone
  | image => exact h.images.not_contains h'.images hused hgone

end Database

/-- The calls side by side. A call that comes later is one that has no turn before. -/
def calling {ι : Type} (calls : ι → Call) (db : Database) : Pool ι Database (Raised Exn) Unit :=
  ⟨fun i => (calls i).program, db⟩

theorem calling_ages {ι : Type} [DecidableEq ι] (calls : ι → Call) (db : Database) (before after : List ι) :
    ((calling calls db).run before).state.Ages ((calling calls db).run (before ++ after)).state := by
  have hprograms : ∀ (P : Database → Prop), ClosedUnder AutoTable.Change P →
      ∀ i, ((calling calls db).programs i).Keeps P fun _ => True := fun P hP i =>
    (calls i).program_keeps hP .insert fun _ _ _ hchange => hchange
  have hP := Database.closedUnder_ages ((calling calls db).run before).state
  have hrest := (Pool.run_keeps (hprograms _ hP) before).2
  rw [Pool.run_append]
  exact (Pool.run_keeps hrest after).1 (Database.ages_refl _)

/-- However many calls are made and however their statements are interleaved: a rowid that was in use
and is no longer is never given to another cigar, humidor, history entry or image. -/
theorem rowids_never_reused {ι : Type} [DecidableEq ι] (calls : ι → Call) (db : Database)
    (before between after : List ι) (kind : EntityKind) (id : ℤ)
    (hused : ((calling calls db).run before).state.stores kind id = true)
    (hgone : ((calling calls db).run (before ++ between)).state.stores kind id ≠ true) :
    ((calling calls db).run (before ++ between ++ after)).state.stores kind id ≠ true :=
  (calling_ages calls db before between).not_stores (calling_ages calls db (before ++ between) after) hused hgone

/-- The first cigar is removed while a new one is added. -/
def removeAndAdd : Bool → Call
  | false => .cigars (.remove 1 none)
  | true => .cigars (.add { emptyCigar with rowid := -1 })

theorem rowids_never_reused_removed :
    ((calling removeAndAdd twoKinds).run ([true] ++ [false, false] ++ [true, true, true])).state.stores .cigar 1 ≠
      true :=
  rowids_never_reused removeAndAdd twoKinds [true] [false, false] [true, true, true] .cigar 1 rfl (by decide)

/-! ### The history -/

/-- A row is added at the end. -/
def Appended (t t' : AutoTable HistoryTable) : Prop := ∃ row, t' = t.insert row

theorem closedUnder_prefix (rows : List (ℤ × HistoryTable)) :
    ClosedUnder Appended fun db => rows <+: db.historyTable.rows := by
  intro s s' hwrite hprefix
  cases hwrite with
  | history h =>
    obtain ⟨row, rfl⟩ := h
    exact hprefix.trans (List.prefix_append _ _)
  | _ => exact hprefix

/-- Calls that edit no history entry leave all entries as they are and where they are, at every point
of every interleaving, also those of cigars and humidors removed meanwhile. -/
theorem history_only_grows {ι : Type} [DecidableEq ι] (calls : ι → Call) (hedits : ∀ i, ¬(calls i).EditsHistory)
    (db : Database) (before after : List ι) :
    ((calling calls db).run before).state.historyTable.rows <+:
      ((calling calls db).run (before ++ after)).state.historyTable.rows := by
  have hP := closedUnder_prefix ((calling calls db).run before).state.historyTable.rows
  have hprograms : ∀ i, ((calling calls db).programs i).Keeps _ fun _ => True := fun i =>
    (calls i).program_keeps hP (fun t row => ⟨row, rfl⟩) fun hedit => absurd hedit (hedits i)
  have hrest := (Pool.run_keeps hprograms before).2
  rw [Pool.run_append]
  exact (Pool.run_keeps hrest after).1 (List.prefix_refl _)

theorem history_only_grows_countAndMove :
    ((calling (fun i => .request (countAndMove i)) twoKinds).run
        [false, true, false, false]).state.historyTable.rows <+:
      ((calling (fun i => .request (countAndMove i)) twoKinds).run
        ([false, true, false, false] ++ [true, true, true])).state.historyTable.rows :=
  history_only_grows (fun i => .request (countAndMove i)) (fun _ => id) twoKinds _ _

end Cigars
