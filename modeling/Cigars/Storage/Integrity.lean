import Cigars.Collections.Basic
import Cigars.Stock.References
import Cigars.Storage.RoundTrip
import Cigars.Transition.Run

/-! Runs of all repository operations from empty tables. Nothing enforces the foreign keys: a
cigar or a humidor is removed although rows name it, and rows are written that name nothing. -/
namespace Cigars
open Coroutine Sql SQLDelightBaseRepository Transition

/-- The operations every repository inherits. -/
inductive TableOp (ENTITY : Type)
  | add (entity : ENTITY)
  | update (entity : ENTITY)
  | remove (id : ℤ) (whereId : Option ℤ)

def TableOp.Completes {ENTITY : Type} (wrapper : DatabaseQueries ENTITY) (db : Database) (op : TableOp ENTITY)
    (db' : Database) : Prop :=
  match op with
  | add entity => (SQLDelightBaseRepository.add wrapper entity).Completes db db'
  | update entity => (SQLDelightBaseRepository.update wrapper entity).Completes db db'
  | remove id whereId => (SQLDelightBaseRepository.remove wrapper id whereId).Completes db db'

/-- Humidors have an `add` of their own, which is among the stock operations. -/
inductive RepositoryOp
  | stock (op : StockOp)
  | cigars (op : TableOp Cigar)
  | updateHumidor (entity : Humidor)
  | removeHumidor (id : ℤ) (whereId : Option ℤ)
  | cigarHumidors (op : TableOp HumidorCigar)
  | history (op : TableOp History)
  | images (op : TableOp CigarImage)

namespace RepositoryOp

def Completes (db : Database) (op : RepositoryOp) (db' : Database) : Prop :=
  match op with
  | stock op => op.Completes db db'
  | cigars op => op.Completes cigarsTableQueries db db'
  | updateHumidor entity => (update humidorsTableQueries entity).Completes db db'
  | removeHumidor id whereId => (remove humidorsTableQueries id whereId).Completes db db'
  | cigarHumidors op => op.Completes cigarHumidorTableQueries db db'
  | history op => op.Completes historyTableQueries db db'
  | images op => op.Completes imagesTableQueries db db'

/-- What is removed is not named by any row, and what a row is to name is stored. -/
def KeepsReferences (db : Database) : RepositoryOp → Prop
  | cigars (.remove id _) => (∀ r ∈ db.cigarHumidorTable.rows, r.1.2 ≠ id) ∧
      ∀ r ∈ db.historyTable.rows, r.2.cigarId ≠ some id
  | removeHumidor id _ => (∀ r ∈ db.cigarHumidorTable.rows, r.1.1 ≠ id) ∧
      ∀ r ∈ db.historyTable.rows, r.2.humidorTo ≠ id ∧ r.2.humidorFrom ≠ id
  | cigarHumidors (.add entity) => db.humidorsTable.contains entity.humidor.rowid = true ∧
      db.cigarsTable.contains entity.cigar.rowid = true
  | history (.add entity) | history (.update entity) => entity.Stored db
  | _ => True

end RepositoryOp

/-! ### One step -/

section Steps
variable {db : Database} (h : References db)
include h

theorem references_removeCigar_iff (id : ℤ) : References (CigarsDatabase.remove id db) ↔
    (∀ r ∈ db.cigarHumidorTable.rows, r.1.2 ≠ id) ∧ ∀ r ∈ db.historyTable.rows, r.2.cigarId ≠ some id := by
  have hcig : ∀ x, (CigarsDatabase.remove id db).cigarsTable.contains x = true ↔
      x ≠ id ∧ db.cigarsTable.contains x = true := fun x => Table.contains_erase_iff _ _ _
  constructor
  · intro h'
    constructor
    · intro r hr
      have hstock := h'.stock r.1 r.2 ((Table.mem_rows_iff _ _ _).mp hr)
      exact ((hcig _).mp hstock.2).1
    · intro r hr he
      have hhistory := h'.history r.1 r.2 ((Table.mem_rows_iff _ _ _).mp hr)
      exact ((hcig _).mp (hhistory.2.2 id he)).1 rfl
  · intro hfree
    constructor
    · intro k r hr
      obtain ⟨hhum, hstored⟩ := h.stock k r hr
      have hne := hfree.1 (k, r) ((Table.mem_rows_iff _ _ _).mpr hr)
      exact ⟨hhum, (hcig _).mpr ⟨hne, hstored⟩⟩
    · intro hid r hr
      obtain ⟨hto, hfrom, hstored⟩ := h.history hid r hr
      refine ⟨hto, hfrom, ?_⟩
      intro c hc
      have hne : c ≠ id := by
        intro he
        exact hfree.2 (hid, r) ((Table.mem_rows_iff _ _ _).mpr hr) (he ▸ hc)
      exact (hcig c).mpr ⟨hne, hstored c hc⟩

theorem references_removeHumidor_iff (id : ℤ) : References (HumidorsDatabase.remove id db) ↔
    (∀ r ∈ db.cigarHumidorTable.rows, r.1.1 ≠ id) ∧
      ∀ r ∈ db.historyTable.rows, r.2.humidorTo ≠ id ∧ r.2.humidorFrom ≠ id := by
  have hhum : ∀ x, (HumidorsDatabase.remove id db).humidorsTable.contains x = true ↔
      x ≠ id ∧ db.humidorsTable.contains x = true := fun x => Table.contains_erase_iff _ _ _
  constructor
  · intro h'
    constructor
    · intro r hr
      have hstock := h'.stock r.1 r.2 ((Table.mem_rows_iff _ _ _).mp hr)
      exact ((hhum _).mp hstock.1).1
    · intro r hr
      obtain ⟨hto, hfrom, -⟩ := h'.history r.1 r.2 ((Table.mem_rows_iff _ _ _).mp hr)
      exact ⟨((hhum _).mp hto).1, ((hhum _).mp hfrom).1⟩
  · intro hfree
    constructor
    · intro k r hr
      obtain ⟨hstored, hcig⟩ := h.stock k r hr
      have hne := hfree.1 (k, r) ((Table.mem_rows_iff _ _ _).mpr hr)
      exact ⟨(hhum _).mpr ⟨hne, hstored⟩, hcig⟩
    · intro hid r hr
      obtain ⟨hto, hfrom, hcig⟩ := h.history hid r hr
      have hne := hfree.2 (hid, r) ((Table.mem_rows_iff _ _ _).mpr hr)
      exact ⟨(hhum _).mpr ⟨hne.1, hto⟩, (hhum _).mpr ⟨hne.2, hfrom⟩, hcig⟩

/-- One history row is written; the others were there. -/
theorem references_historyRow_iff {db' : Database} {id : ℤ} {e : History}
    (humidors : db'.humidorsTable = db.humidorsTable) (cigars : db'.cigarsTable = db.cigarsTable)
    (stock : db'.cigarHumidorTable = db.cigarHumidorTable)
    (history : ∀ k, db'.historyTable.find? k = if k = id then some e.columns else db.historyTable.find? k) :
    References db' ↔ e.Stored db := by
  constructor
  · intro h'
    have hrow := history id
    rw [if_pos rfl] at hrow
    obtain ⟨hfrom, hto, hcig⟩ := h'.history id e.columns hrow
    rw [humidors] at hfrom hto
    refine ⟨hfrom, hto, ?_⟩
    intro c hc
    rw [← cigars]
    apply hcig
    change e.cigar.map Cigar.rowid = _
    rw [hc]
    rfl
  · intro hstored
    have hresolves := hstored.resolves
    apply h.extend
    · intro x hx
      rw [humidors]
      exact hx
    · intro x hx
      rw [cigars]
      exact hx
    · intro k r hr
      rw [stock] at hr
      exact Or.inl ((Table.contains_iff _ _).mpr ⟨r, hr⟩)
    · intro k r hr
      rw [history] at hr
      rw [humidors, cigars]
      split_ifs at hr with hk
      · cases hr
        exact Or.inr hresolves
      · exact Or.inl hr

theorem references_addHistory_iff (e : History) : References (db.addHistory e) ↔ e.Stored db :=
  references_historyRow_iff h rfl rfl rfl fun k => AutoTable.find?_insert db.historyTable e.columns k

theorem references_updateHistory_iff (e : History) (hstored : db.historyTable.contains e.rowid = true) :
    References (historyTableQueries.update e db) ↔ e.Stored db := by
  obtain ⟨row, hrow⟩ := (Table.contains_iff _ _).mp hstored
  have hfind : ∀ k, (historyTableQueries.update e db).historyTable.find? k =
      if k = e.rowid then some e.columns else db.historyTable.find? k := by
    intro k
    have hset := Table.find?_update db.historyTable.toTable e.rowid k fun _ => e.columns
    rw [hrow] at hset
    exact hset
  exact references_historyRow_iff h rfl rfl rfl hfind

theorem references_addStock_iff {entity : HumidorCigar} {id : ℤ} {db' : Database}
    (hadd : cigarHumidorTableQueries.add entity db = .ok (id, db')) :
    References db' ↔ db.humidorsTable.contains entity.humidor.rowid = true ∧
      db.cigarsTable.contains entity.cigar.rowid = true := by
  change HumidorCigarsDatabase.add _ _ _ db = _ at hadd
  unfold HumidorCigarsDatabase.add at hadd
  cases ht : db.cigarHumidorTable.insert? (entity.humidor.rowid, entity.cigar.rowid)
      ⟨HumidorCigarsDatabase.nextRowid db.cigarHumidorTable, entity.count⟩ with
  | none =>
    rw [ht] at hadd
    cases hadd
  | some t =>
    rw [ht] at hadd
    cases hadd
    have hfind := Table.find?_of_insert? ht
    constructor
    · intro h'
      have hrow := hfind (entity.humidor.rowid, entity.cigar.rowid)
      rw [if_pos rfl] at hrow
      exact h'.stock _ _ hrow
    · intro hstored
      refine h.extend (fun x hx => hx) (fun x hx => hx) (fun k r hr => ?_) fun hid r hr => Or.inl hr
      have hk := (hfind k).symm.trans hr
      split_ifs at hk with he
      · exact Or.inr (he ▸ hstored)
      · exact Or.inl ((Table.contains_iff _ _).mpr ⟨r, hk⟩)

end Steps

private theorem find?_of_erase {κ ρ : Type} [DecidableEq κ] {t : Table κ ρ} {k k' : κ} {r : ρ}
    (h : (t.erase k).find? k' = some r) : t.find? k' = some r := by
  rw [Table.find?_erase] at h
  split_ifs at h
  exact h

section Tables
variable {db db' : Database} (h : References db)
include h

theorem references_cigars_iff {op : TableOp Cigar} (hdone : op.Completes cigarsTableQueries db db') :
    References db' ↔ RepositoryOp.KeepsReferences db (.cigars op) := by
  cases op with
  | add entity =>
    obtain ⟨id, hadd⟩ := add_of_completes cigarsTableQueries hdone
    cases hadd
    exact iff_of_true (references_addCigarRow h entity) trivial
  | update entity =>
    obtain ⟨-, rfl⟩ := update_of_completes cigarsTableQueries hdone
    exact iff_of_true (references_update h (fun _ => rfl) (fun x => Table.contains_update _ _ _ _)
      (fun _ hk => hk) fun _ _ hr => hr) trivial
  | remove id whereId =>
    obtain ⟨-, hremove⟩ := remove_of_completes cigarsTableQueries hdone
    cases hremove
    exact references_removeCigar_iff h id

/-- Updates and removals of stock name nothing new. -/
theorem references_cigarHumidors_iff {op : TableOp HumidorCigar}
    (hdone : op.Completes cigarHumidorTableQueries db db') :
    References db' ↔ RepositoryOp.KeepsReferences db (.cigarHumidors op) := by
  cases op with
  | add entity =>
    obtain ⟨id, hadd⟩ := add_of_completes cigarHumidorTableQueries hdone
    exact references_addStock_iff h hadd
  | update entity =>
    obtain ⟨-, rfl⟩ := update_of_completes cigarHumidorTableQueries hdone
    have hkeys : ∀ k, (cigarHumidorTableQueries.update entity db).cigarHumidorTable.contains k = true →
        db.cigarHumidorTable.contains k = true := fun k hk => (Table.contains_update _ _ _ _).symm.trans hk
    exact iff_of_true (references_update h (fun _ => rfl) (fun _ => rfl) hkeys fun _ _ hr => hr) trivial
  | remove id whereId =>
    obtain ⟨-, hremove⟩ := remove_of_completes cigarHumidorTableQueries hdone
    cases whereId with
    | none => cases hremove
    | some cigarId =>
      cases hremove
      have hkeys : ∀ k, (HumidorCigarsDatabase.remove id cigarId db).cigarHumidorTable.contains k = true →
          db.cigarHumidorTable.contains k = true := by
        intro k hk
        obtain ⟨r, hr⟩ := (Table.contains_iff _ _).mp hk
        exact (Table.contains_iff _ _).mpr ⟨r, find?_of_erase hr⟩
      exact iff_of_true (references_update h (fun _ => rfl) (fun _ => rfl) hkeys fun _ _ hr => hr) trivial

theorem references_history_iff {op : TableOp History} (hdone : op.Completes historyTableQueries db db') :
    References db' ↔ RepositoryOp.KeepsReferences db (.history op) := by
  cases op with
  | add entity =>
    obtain ⟨id, hadd⟩ := add_of_completes historyTableQueries hdone
    cases hadd
    exact references_addHistory_iff h entity
  | update entity =>
    obtain ⟨hstored, rfl⟩ := update_of_completes historyTableQueries hdone
    exact references_updateHistory_iff h entity (Except.ok.inj hstored)
  | remove id whereId =>
    obtain ⟨-, hremove⟩ := remove_of_completes historyTableQueries hdone
    cases hremove
    exact iff_of_true (references_update h (fun _ => rfl) (fun _ => rfl) (fun _ hk => hk)
      fun _ _ hr => find?_of_erase hr) trivial

/-- Images are in no table that names a cigar or a humidor here. -/
theorem references_images {op : TableOp CigarImage} (hdone : op.Completes imagesTableQueries db db') :
    References db' := by
  cases op with
  | add entity =>
    obtain ⟨id, hadd⟩ := add_of_completes imagesTableQueries hdone
    cases hadd
    exact references_update h (fun _ => rfl) (fun _ => rfl) (fun _ hk => hk) fun _ _ hr => hr
  | update entity =>
    obtain ⟨-, rfl⟩ := update_of_completes imagesTableQueries hdone
    exact references_update h (fun _ => rfl) (fun _ => rfl) (fun _ hk => hk) fun _ _ hr => hr
  | remove id whereId =>
    obtain ⟨-, hremove⟩ := remove_of_completes imagesTableQueries hdone
    cases hremove
    exact references_update h (fun _ => rfl) (fun _ => rfl) (fun _ hk => hk) fun _ _ hr => hr

end Tables

/-- A step keeps the references exactly when it removes nothing that is named and names nothing
that is not stored. -/
theorem RepositoryOp.references_iff {db db' : Database} {op : RepositoryOp} (h : References db)
    (hdone : op.Completes db db') : References db' ↔ op.KeepsReferences db := by
  cases op with
  | stock op =>
    obtain ⟨hgo, rfl⟩ := (StockOp.completes_iff db db' op).mp hdone
    exact iff_of_true (references_outcome h hgo) trivial
  | updateHumidor entity =>
    obtain ⟨-, rfl⟩ := update_of_completes humidorsTableQueries hdone
    exact iff_of_true (references_update h (fun x => Table.contains_update _ _ _ _) (fun _ => rfl)
      (fun _ hk => hk) fun _ _ hr => hr) trivial
  | removeHumidor id whereId =>
    obtain ⟨-, hremove⟩ := remove_of_completes humidorsTableQueries hdone
    cases hremove
    exact references_removeHumidor_iff h id
  | cigars op => exact references_cigars_iff h hdone
  | cigarHumidors op => exact references_cigarHumidors_iff h hdone
  | history op => exact references_history_iff h hdone
  | images op => exact iff_of_true (references_images h hdone) trivial

/-! ### The lists -/

/-- Every list whose query can be built is read without a throw, as a whole and page by page. -/
def ListsRead (db : Database) : Prop :=
  ∀ (R : LocalRepository) (sorting : Option Sorting) (filter : Option FiltersList) (query : Query R.Entity),
    R.wrapper.all sorting (R.filterOf filter) R.listArgs = .ok query →
    (∃ rows, R.allSync sorting filter db = .ok rows) ∧
      ∀ limit offset, ∃ rows, loadRows R.wrapper sorting (R.filterOf filter) R.pagingArgs db limit offset = .ok rows

theorem References.mapped {db : Database} (h : References db) {r : (ℤ × ℤ) × CigarHumidorTable}
    (hr : r ∈ db.cigarHumidorTable.rows) : ∃ entity, HumidorCigarsDatabase.mapper db r = .ok entity :=
  (mapper_ok_iff db r).mpr (h.stock r.1 r.2 ((Table.mem_rows_iff _ _ _).mp hr))

theorem References.read {db : Database} (h : References db) {r : ℤ × HistoryTable}
    (hr : r ∈ db.historyTable.rows) : ∃ entry, historyFactory db r.1 r.2 = .ok entry :=
  (historyFactory_ok_iff db r.1 r.2).mpr (h.history r.1 r.2 ((Table.mem_rows_iff _ _ _).mp hr))

/-- With the references in order no mapper throws. -/
theorem References.executes {db : Database} (h : References db) {R : LocalRepository}
    {sorting : Option Sorting} {filter : Option FiltersList} {query : Query R.Entity}
    (hquery : R.source sorting filter = .ok query) : ∃ rows, executeAsList query db = .ok rows := by
  cases R with
  | cigars | favoriteCigars =>
    obtain ⟨w, -, rfl⟩ := Collections.exists_of_map_ok hquery
    exact ⟨_, collectRows_map_comp_ok _ _⟩
  | humidors | cigarImages id | humidorImages id =>
    cases hquery
    exact ⟨_, collectRows_map_comp_ok _ _⟩
  | cigarHumidors id =>
    simp only [LocalRepository.source] at hquery
    cases hname : getSQLWhere String filter "name" with
    | error e =>
      rw [hname] at hquery
      cases hquery
    | ok name =>
      cases hbrand : getSQLWhere String filter "brand" with
      | error e =>
        rw [hname, hbrand] at hquery
        cases hquery
      | ok brand =>
        rw [hname, hbrand] at hquery
        cases hquery
        exact (exists_collectRows_select_iff _ _ _ _ _).mpr fun r hr _ => h.mapped (mem_innerJoin.mp hr).1
  | humidorCigars id =>
    obtain ⟨w, -, rfl⟩ := Collections.exists_of_map_ok hquery
    exact (exists_collectRows_select_iff _ _ _ _ _).mpr fun r hr _ => h.mapped (mem_innerJoin.mp hr).1
  | cigarHistory id | humidorHistory id =>
    cases hquery
    exact (exists_collectRows_select_iff _ _ _ _ _).mpr fun r hr _ => h.read hr

theorem References.listsRead {db : Database} (h : References db) : ListsRead db := by
  intro R sorting filter query hquery
  have hsource := (LocalRepository.all_eq_source R sorting filter).symm.trans hquery
  obtain ⟨rows, hrows⟩ := h.executes hsource
  have hall : R.allSync sorting filter db = .ok rows := (allSync_of_all hquery db).trans hrows
  exact ⟨⟨rows, hall⟩, fun limit offset => ⟨_, LocalRepository.loadRows_eq hall limit offset⟩⟩

/-! ### Runs -/

/-- From empty tables, no row dangles and every list is read in all states of a run exactly when
no step of it removes what is named or names what is not stored. -/
theorem references_kept_iff {c h y i : ℤ} {trace : List (Database × RepositoryOp)} {db : Database}
    (run : Run (fun db op db' => RepositoryOp.Completes db op db') (Database.empty c h y i) trace db) :
    ((References db ∧ ListsRead db) ∧ ∀ s ∈ trace, References s.1 ∧ ListsRead s.1) ↔
      ∀ s ∈ trace, s.2.KeepsReferences s.1 := by
  have hempty := references_empty c h y i
  apply run.kept_iff (P := fun db => References db ∧ ListsRead db) ⟨hempty, hempty.listsRead⟩
  intro s op s' hs hdone
  rw [and_iff_left_of_imp References.listsRead]
  exact op.references_iff hs.1 hdone

/-- A humidor with the history entry of its own addition. -/
theorem run_oneHumidor : Run (fun db op db' => RepositoryOp.Completes db op db') (Database.empty 0 0 0 0)
    [(Database.empty 0 0 0 0, .stock (.addHumidor 0 boughtHumidor))] oneHumidor :=
  Run.start.next add_boughtHumidor

/-- Three cigars in the humidor. -/
def threeCigars : HumidorCigar where
  count := 3
  humidor := { boughtHumidor with rowid := 1 }
  cigar := { emptyCigar with rowid := 1 }

/-- After the humidor a cigar is added, and then a row that names both. -/
theorem references_kept_threeCigars : ∃ trace db,
    Run (fun db op db' => RepositoryOp.Completes db op db') (Database.empty 0 0 0 0) trace db ∧
    trace.map Prod.snd = [.cigarHumidors (.add threeCigars), .cigars (.add emptyCigar),
      .stock (.addHumidor 0 boughtHumidor)] ∧
    (References db ∧ ListsRead db) ∧ ∀ s ∈ trace, References s.1 ∧ ListsRead s.1 := by
  have hcigar : RepositoryOp.Completes oneHumidor (.cigars (.add emptyCigar)) (oneHumidor.addCigar emptyCigar) :=
    (add_emits cigarsTableQueries (isNew_true cigarsTableQueries rfl (Or.inl (by decide))) rfl
      (Cigar.toString_eq _)).completes
  have hstock : ∃ db', RepositoryOp.Completes (oneHumidor.addCigar emptyCigar) (.cigarHumidors (.add threeCigars))
      db' :=
    ⟨_, (add_emits cigarHumidorTableQueries (isNew_true cigarHumidorTableQueries rfl (Or.inl (by decide))) rfl
      rfl).completes⟩
  obtain ⟨db', hstock⟩ := hstock
  have run := (run_oneHumidor.next hcigar).next hstock
  refine ⟨_, _, run, rfl, (references_kept_iff run).mpr ?_⟩
  have hnamed : RepositoryOp.KeepsReferences (oneHumidor.addCigar emptyCigar) (.cigarHumidors (.add threeCigars)) := by
    constructor
    · decide
    · decide
  simp only [List.forall_mem_cons]
  exact ⟨hnamed, trivial, trivial, fun _ h => absurd h List.not_mem_nil⟩

/-- The humidor is removed, its history entry stays and its history can no longer be read. -/
theorem references_dangle : ∃ trace db',
    Run (fun db op db' => RepositoryOp.Completes db op db') (Database.empty 0 0 0 0) trace db' ∧
    trace.map Prod.snd = [.removeHumidor 1 none, .stock (.addHumidor 0 boughtHumidor)] ∧
    (∃ row, db'.historyTable.find? 1 = some row ∧ row.humidorTo = 1 ∧ row.humidorFrom = 1) ∧
    db'.humidorsTable.contains 1 = false ∧
    (LocalRepository.humidorHistory 1).allSync none none db' = .error .noSuchRow := by
  have hremove : RepositoryOp.Completes oneHumidor (.removeHumidor 1 none) (HumidorsDatabase.remove 1 oneHumidor) :=
    (remove_emits humidorsTableQueries rfl rfl).completes
  exact ⟨_, _, run_oneHumidor.next hremove, rfl, ⟨_, rfl, rfl, rfl⟩, by decide, rfl⟩

end Cigars
