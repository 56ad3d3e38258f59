import Cigars.Collections.Basic
import Cigars.Listing.Unfiltered
import Cigars.Stock.Totals

/-! The history as a ledger: replaying the recorded movements gives the stock. The columns
`humidorTo` and `humidorFrom` hold the entry's humidors crossed over, and reading crosses them
back. -/
namespace Cigars
open Collections Coroutine Sql Ledger Transition

/-- What an entry, as read back, says about the stock in humidor `h`. -/
def ledgerTerm (h : ℤ) (e : History) : ℤ :=
  match e.type with
  | .addition => if e.humidorTo.rowid = h then e.count else 0
  | .deletion => if e.humidorFrom.rowid = h then -e.count else 0
  | .move => (if e.humidorTo.rowid = h then e.count else 0) - if e.humidorFrom.rowid = h then e.count else 0

/-- The entry `e` is the row `r`, read back. -/
structure ReadBack (id : ℤ) (r : HistoryTable) (e : History) : Prop where
  rowid : e.rowid = id
  count : e.count = r.count
  type : e.type = HistoryType.fromLong r.type
  humidorFrom : e.humidorFrom.rowid = r.humidorTo
  humidorTo : e.humidorTo.rowid = r.humidorFrom

theorem historyFactory_readBack {db : Database} (refs : References db) {id : ℤ} {r : HistoryTable}
    (hr : db.historyTable.find? id = some r) :
    ∃ e, historyFactory db id r = .ok e ∧ ReadBack id r e := by
  obtain ⟨e, he⟩ := (historyFactory_ok_iff db id r).mpr (refs.history id r hr)
  obtain ⟨humTo, humFrom, cigar, hto, hfrom, -, rfl⟩ := entry_of_historyFactory he
  exact ⟨_, he, rfl, rfl, rfl, hto, hfrom⟩

/-- The movement a history row records, none for the row of a new humidor. -/
def HistoryTable.movement (r : HistoryTable) : Option (Movement ℤ ℤ ℤ) :=
  r.cigarId.map fun c =>
    match HistoryType.fromLong r.type with
    | .addition => .deposit r.humidorFrom c r.count
    | .deletion => .withdraw r.humidorTo c r.count
    | .move => .transfer r.humidorTo r.humidorFrom c r.count

/-- What the rows of the history add up to. -/
noncomputable def Database.ledger (db : Database) : Inventory ℤ ℤ ℤ :=
  db.historyTable.sumBy fun _ r => r.movement.elim 0 Movement.delta

theorem ledger_addHistory (entry : History) (db : Database) :
    (db.addHistory entry).ledger = db.ledger +
      (HistoryTable.movement ⟨entry.count, entry.date, entry.left, bindReal entry.price, entry.type.type,
        entry.cigar.map Cigar.rowid, entry.humidorFrom.rowid, entry.humidorTo.rowid⟩).elim 0
        Movement.delta :=
  AutoTable.sumBy_insert _ _ _

/-- The cell of a row of the same cigar is the term of its entry. -/
theorem movement_apply_of_cigar {id c h : ℤ} {r : HistoryTable} {e : History} (hread : ReadBack id r e)
    (hc : r.cigarId = some c) : (r.movement.elim 0 Movement.delta) (h, c) = ledgerTerm h e := by
  simp only [HistoryTable.movement, hc, Option.map_some, Option.elim_some, Movement.delta_apply, ledgerTerm,
    hread.type, hread.humidorFrom, hread.humidorTo, hread.count]
  cases HistoryType.fromLong r.type with
  | addition => simp
  | deletion => by_cases hh : r.humidorTo = h <;> simp [hh]
  | move => simp

theorem movement_apply_of_ne {c h : ℤ} {r : HistoryTable} (hc : r.cigarId ≠ some c) :
    (r.movement.elim 0 Movement.delta) (h, c) = 0 := by
  cases hr : r.cigarId with
  | none => simp [HistoryTable.movement, hr]
  | some c' =>
    have hne : c' ≠ c := fun he => hc (by rw [hr, he])
    simp only [HistoryTable.movement, hr, Option.map_some, Option.elim_some, Movement.delta_apply]
    cases HistoryType.fromLong r.type <;> simp [hne]

/-- One cell of the ledger is a sum over the rows of the cigar, in whatever order they come. -/
theorem ledger_apply (db : Database) (h c : ℤ) (dir : Direction) :
    db.ledger (h, c) = ((orderBy dir (fun r => .integer r.2.date)
      (whereTrue (fun r => HistoryDatabase.ofCigar c r.2) db.historyTable.rows)).map fun r =>
        (r.2.movement.elim 0 Movement.delta) (h, c)).sum := by
  rw [((perm_orderBy dir _ _).map _).sum_eq, whereTrue, sum_map_filter_of_zero]
  · exact Table.map_sumBy (Finsupp.applyAddHom ((h, c) : ℤ × ℤ))
      (fun _ (r : HistoryTable) => r.movement.elim 0 Movement.delta) db.historyTable.toTable
  · intro r _ hr
    refine movement_apply_of_ne fun hc => ?_
    simp [HistoryDatabase.ofCigar, hc] at hr

/-- The entries of a cigar can be read, each by itself and all together, and add up to the ledger. -/
theorem ledger_eq_entries {db : Database} (refs : References db) (sorting : Option Sorting)
    (filter : Option FiltersList) (h c : ℤ) :
    ∃ entries : List History,
      (LocalRepository.cigarHistory c).allSync sorting filter db = .ok entries ∧
      (∀ e ∈ entries, historyTableQueries.get e.rowid none db = .ok e) ∧
      db.ledger (h, c) = (entries.map (ledgerTerm h)).sum := by
  have hall : (LocalRepository.cigarHistory c).allSync sorting filter db =
      executeAsList (HistoryDatabase.select (HistoryDatabase.ofCigar c) (historyDirection sorting)) db :=
    SQLDelightBaseRepository.allSync_of_all (historyAll_cigar sorting filter c) db
  have hrow : ∀ r ∈ orderBy (historyDirection sorting) (fun r => .integer r.2.date)
      (whereTrue (fun r => HistoryDatabase.ofCigar c r.2) db.historyTable.rows),
      db.historyTable.find? r.1 = some r.2 ∧ r.2.cigarId = some c := by
    intro r hr
    have hr := (perm_orderBy _ _ _).mem_iff.mp hr
    rw [whereTrue, List.mem_filter] at hr
    refine ⟨(Table.mem_rows_iff _ _ _).mp hr.1, ?_⟩
    simpa [HistoryDatabase.ofCigar] using hr.2
  obtain ⟨entries, hentries, hread⟩ := exists_collectRows fun r hr =>
    historyFactory_readBack refs (hrow r hr).1
  refine ⟨entries, hall.trans hentries, ?_, ?_⟩
  · intro e he
    have hmem := List.mem_map_of_mem (f := fun e => (.ok e : Except Exn History)) he
    rw [← (collectRows_eq_ok_iff _ _).mp hentries] at hmem
    obtain ⟨r, hr, hre⟩ := List.mem_map.mp hmem
    obtain ⟨e', he', hback⟩ := historyFactory_readBack refs (hrow r hr).1
    cases hre.symm.trans he'
    change (executeAsOne (db.historyTable.find? e.rowid) >>= historyFactory db e.rowid) = _
    rw [hback.rowid, (hrow r hr).1]
    exact hre
  · rw [ledger_apply db h c (historyDirection sorting)]
    refine sum_map_eq_of_forall₂ hread fun r hr e hre => ?_
    exact movement_apply_of_cigar hre (hrow r hr).2

section Long
variable [LongReading]

/-- The ledger in residues, as the stock is counted. -/
noncomputable def Database.recorded (db : Database) : Inventory ℤ ℤ Residue :=
  Inventory.map (Int.castAddHom Residue) db.ledger

theorem recorded_addHistory (entry : History) (db : Database) :
    (db.addHistory entry).recorded = db.recorded + Inventory.map (Int.castAddHom Residue)
      ((HistoryTable.movement ⟨entry.count, entry.date, entry.left, bindReal entry.price, entry.type.type,
        entry.cigar.map Cigar.rowid, entry.humidorFrom.rowid, entry.humidorTo.rowid⟩).elim 0 Movement.delta) := by
  rw [Database.recorded, ledger_addHistory, map_add]
  rfl

/-- Every operation records what it moves. -/
theorem StockOp.recorded_outcome (db : Database) (op : StockOp) :
    (op.outcome db).recorded = db.recorded + op.delta db := by
  cases op with
  | addHumidor now entity =>
    refine (recorded_addHistory _ (db.addHumidor entity)).trans ?_
    congr 1
    exact map_zero (Inventory.map (Int.castAddHom Residue))
  | addCigar now cigar humidor =>
    refine (recorded_addHistory _ _).trans ?_
    congr 1
    exact Inventory.map_single _ _ _
  | updateCount now entity count price =>
    refine (recorded_addHistory (CigarHumidorRepository.updateCountEntry now entity count price) _).trans ?_
    congr 1
    unfold delta movement CigarHumidorRepository.updateCountEntry HistoryTable.movement
    by_cases hup : long (entity.count - count) < 0
    · simp [hup, Movement.delta]
    · simp [hup, Movement.delta]
  | moveCigar now src dst count =>
    refine (recorded_addHistory (CigarHumidorRepository.moveEntry now src dst count) _).trans ?_
    congr 1
    · have htaken : (db.takeOut src count).ledger = db.ledger :=
        congrArg (fun t : AutoTable HistoryTable => Table.sumBy _ t.toTable) (takeOut_historyTable src count db)
      exact congrArg (Inventory.map (Int.castAddHom Residue)) htaken
    · refine (map_sub _ _ _).trans ?_
      rw [Inventory.map_single, Inventory.map_single]
      rfl

/-- The history adds up to the stock. -/
def Recorded (db : Database) : Prop := db.inventory = db.recorded

theorem recorded_empty (c h y i : ℤ) : Recorded (Database.empty c h y i) :=
  (map_zero (Inventory.map (Int.castAddHom Residue))).symm

theorem Recorded.step {db db' : Database} {op : StockOp} (h : Recorded db) (hstep : op.Step db db') :
    Recorded db' := by
  obtain ⟨legal, -, rfl⟩ := (StockOp.step_iff _ _ _).mp hstep
  unfold Recorded at h ⊢
  rw [StockOp.inventory_outcome legal, StockOp.recorded_outcome, h]

section Run
variable {c h y i : ℤ} {trace : List (Database × StockOp)} {db : Database}

/-- In every state a run reaches, the stock is what the history records. -/
theorem recorded_of_run (run : Run StockOp.Step (Database.empty c h y i) trace db) : Recorded db :=
  run.invariant (recorded_empty c h y i) fun _ _ _ hrecorded hstep => hrecorded.step hstep

end Run

/-- A stored count is the ledger's, in `Long`s. -/
theorem Recorded.stock_eq {db : Database} (hrecorded : Recorded db) (counts : LongCounts db) (h c : ℤ) :
    db.stock h c = long (db.ledger (h, c)) := by
  rw [(counts.isLong_stock h c).eq_long_iff, Database.cast_stock, hrecorded]
  rfl

/-- The stored count of every cigar in every humidor is what its history, read back, adds up to in
`Long`s. -/
theorem stock_eq_history {c₀ h₀ y₀ i₀ : ℤ} {trace : List (Database × StockOp)} {db : Database}
    (run : Run StockOp.Step (Database.empty c₀ h₀ y₀ i₀) trace db) (sorting : Option Sorting)
    (filter : Option FiltersList) (h c : ℤ) :
    ∃ entries : List History,
      (LocalRepository.cigarHistory c).allSync sorting filter db = .ok entries ∧
      (∀ e ∈ entries, historyTableQueries.get e.rowid none db = .ok e) ∧
      db.stock h c = long (entries.map (ledgerTerm h)).sum := by
  obtain ⟨refs, counts⟩ := stockInvariant_of_run run
  obtain ⟨entries, hall, hget, hsum⟩ := ledger_eq_entries refs sorting filter h c
  refine ⟨entries, hall, hget, ?_⟩
  rw [(recorded_of_run run).stock_eq counts, hsum]

end Long

theorem stock_eq_history_afterMove : ∃ trace db, Run StockOp.Step (Database.empty 0 0 0 0) trace db ∧
    trace.length = 4 ∧ db.stock 1 1 = 6 ∧ db.stock 2 1 = 4 ∧ ∃ entries : List History,
      (LocalRepository.cigarHistory 1).allSync none none db = .ok entries ∧
      (∀ e ∈ entries, historyTableQueries.get e.rowid none db = .ok e) ∧
      db.stock 2 1 = long (entries.map (ledgerTerm 2)).sum :=
  have run := StockOp.run_performed
    (tenCigars ++ [.moveCigar 0 tenCigarsRow { emptyHumidor with rowid := 2, name := "B" } 4]) (by decide)
  ⟨_, _, run, by decide, by decide, by decide, stock_eq_history run none none 2 1⟩

end Cigars
