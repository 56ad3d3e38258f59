import Cigars.Coroutine.Locality
import Cigars.Coroutine.Scanning
import Cigars.Mvvm.CigarsDetails
import Cigars.Stock.History
import Cigars.Stock.Interrupted
import Cigars.Transition.Run

/-! The details screen of a cigar while the stock changes. The list of humidors is read row by row, beside the
statements of the requests it gives rise to. SQLDelight reports the tables its query names, the stock and the
humidors; a change of the cigar inside the rows is not reported. -/
namespace Cigars
open Coroutine Sql Ledger

/-- A row of the list as it is read: the stock row, its humidor and its cigar. -/
abbrev HumidorsRow : Type := ((ℤ × ℤ) × CigarHumidorTable) × Humidor × Cigar

/-- The statements behind `cigarHumidorRepository.all()`. -/
def humidorsRows (cigarId : ℤ) : RowSource Database ((ℤ × ℤ) × CigarHumidorTable) Humidor Cigar where
  keys db := (orderBy .asc (fun r => cigarHumidorsSort "name" r.1.2 r.2) <|
    whereTrue (HumidorCigarsDatabase.cigarHumidorsCond cigarId "%%" "%%")
      (innerJoin db.cigarHumidorTable Prod.fst db.humidorsTable.toTable)).map Prod.fst
  first db r := (db.getHumidor r.1.1).toOption
  second db r := (db.getCigar r.1.2).toOption

def HumidorsRow.entry (row : HumidorsRow) : HumidorCigar := ⟨row.1.2.count, row.2.1, row.2.2, -1⟩

/-- The two tables that the query of the list names are as before. -/
structure Unwatched (db db' : Database) : Prop where
  stock : db'.cigarHumidorTable = db.cigarHumidorTable
  humidors : db'.humidorsTable = db.humidorsTable

section Rows
variable {cigarId : ℤ} {db db' : Database}

/-- Read at one go, the rows are the query. -/
theorem humidorsQuery_eq (cigarId : ℤ) (db : Database) : CigarsDetailsScreenViewModel.humidorsQuery cigarId db =
    ((humidorsRows cigarId).keys db).map (HumidorCigarsDatabase.mapper db) := by
  rw [humidorsRows, List.map_map]
  rfl

theorem Unwatched.same (h : Unwatched db db') : (humidorsRows cigarId).Same db db' where
  keys := by simp only [humidorsRows, h.stock, h.humidors]
  first k _ := by simp only [humidorsRows, Database.getHumidor, h.humidors]

theorem mem_humidorsRows {r : (ℤ × ℤ) × CigarHumidorTable} (h : r ∈ (humidorsRows cigarId).keys db) :
    r.1.2 = cigarId ∧ db.cigarHumidorTable.find? r.1 = some r.2 := by
  obtain ⟨x, hx, rfl⟩ := List.mem_map.mp h
  obtain ⟨hjoin, hcond⟩ := List.mem_filter.mp ((perm_orderBy _ _ _).mem_iff.mp hx)
  refine ⟨(cigarHumidorsCond_default cigarId x).mp (of_decide_eq_true hcond), ?_⟩
  exact (Table.mem_rows_iff _ _ _).mp (mem_innerJoin.mp hjoin).1

theorem find?_of_first {r : (ℤ × ℤ) × CigarHumidorTable} {humidor : Humidor}
    (h : (humidorsRows cigarId).first db r = some humidor) :
    ∃ row, db.humidorsTable.find? r.1.1 = some row ∧ humidor = humidorFactory r.1.1 row := by
  cases hfind : db.humidorsTable.find? r.1.1 with
  | none => simp [humidorsRows, getHumidor_of_none hfind, Except.toOption] at h
  | some row =>
    simp only [humidorsRows, getHumidor_of_find? hfind, Except.toOption, Option.some_inj] at h
    exact ⟨row, rfl, h.symm⟩

theorem find?_of_second {r : (ℤ × ℤ) × CigarHumidorTable} {cigar : Cigar}
    (h : (humidorsRows cigarId).second db r = some cigar) :
    ∃ row, db.cigarsTable.find? r.1.2 = some row ∧ cigar = cigarFactory r.1.2 row := by
  cases hfind : db.cigarsTable.find? r.1.2 with
  | none => simp [humidorsRows, getCigar_of_none hfind, Except.toOption] at h
  | some row =>
    simp only [humidorsRows, getCigar_of_find? hfind, Except.toOption, Option.some_inj] at h
    exact ⟨row, rfl, h.symm⟩

/-- The row with the stored cigar in it is what the query gives. -/
theorem mapper_of_first {r : (ℤ × ℤ) × CigarHumidorTable} {humidor : Humidor} {cigar : Cigar}
    (hfirst : (humidorsRows cigarId).first db r = some humidor) (hcigar : db.getCigar r.1.2 = .ok cigar) :
    HumidorCigarsDatabase.mapper db r = .ok ⟨r.2.count, humidor, cigar, -1⟩ := by
  obtain ⟨row, hrow, rfl⟩ := find?_of_first hfirst
  rw [HumidorCigarsDatabase.mapper, humidorCigarFactory, getHumidor_of_find? hrow, hcigar]
  rfl

theorem rowid_of_second {r : (ℤ × ℤ) × CigarHumidorTable} {cigar : Cigar}
    (h : (humidorsRows cigarId).second db r = some cigar) : cigar.rowid = r.1.2 := by
  obtain ⟨row, -, rfl⟩ := find?_of_second h
  rfl

theorem rowid_of_first {r : (ℤ × ℤ) × CigarHumidorTable} {humidor : Humidor}
    (h : (humidorsRows cigarId).first db r = some humidor) : humidor.rowid = r.1.1 := by
  obtain ⟨row, -, rfl⟩ := find?_of_first h
  rfl

end Rows

/-- A request that can go through ends in its outcome. -/
theorem StockOp.program_run {db : Database} {op : StockOp} (h : op.GoesThrough db) :
    op.program.run db = (.ok (), op.outcome db) := by
  have hcompletes := StockOp.completes_of_goesThrough h
  cases op with
  | addHumidor now entity => exact hcompletes.drain
  | addCigar now cigar humidor => exact hcompletes.drain
  | updateCount now entity count price => exact hcompletes.drain
  | moveCigar now src dst count => exact hcompletes.drain

/-- The view model's list with the observer that fills it, and the states that a request has still to go
through. -/
structure StockSession where
  db : Database
  humidors : List HumidorCigar
  observer : Scan ((ℤ × ℤ) × CigarHumidorTable) Humidor Cigar
  running : Option (List Database)

namespace StockSession

def opened (db : Database) : StockSession := ⟨db, [], .start, none⟩

/-- What the dialogs and the screens for new cigars and humidors ask for: the rows are rows of the list. -/
def Offers (st : StockSession) : StockOp → Prop
  | .updateCount _ entity count _ => entity ∈ st.humidors ∧ IsLong count
  | .moveCigar _ src dst count =>
    src ∈ st.humidors ∧ dst.rowid ≠ src.humidor.rowid ∧ 0 < count ∧ count ≤ src.count
  | op => op.Legal st.db

/-- The observer is told of every statement on a table that its query names. -/
def Tells (db db' : Database) (observer observer' : Scan ((ℤ × ℤ) × CigarHumidorTable) Humidor Cigar) : Prop :=
  observer' = observer.notify ∨ observer' = observer ∧ Unwatched db db'

inductive Op
  | start (op : StockOp)
  | statement
  | finish
  | mark
  | write
  | observer

inductive Step (cigarId : ℤ) (st : StockSession) : Op → StockSession → Prop
  | start {op : StockOp} {path : List Database} : st.running = none → st.Offers op → op.program.Passes st.db path →
    Step cigarId st (.start op) { st with running := some path }
  | statement {db' : Database} {path : List Database} {observer : Scan ((ℤ × ℤ) × CigarHumidorTable) Humidor Cigar} :
    st.running = some (db' :: path) → Tells st.db db' st.observer observer →
    Step cigarId st .statement { st with db := db', observer, running := some path }
  | finish : st.running = some [] → Step cigarId st .finish { st with running := none }
  -- `favorite`, the rating and the edits of a cigar.
  | mark {id : ℤ} {f : CigarsTable → CigarsTable} : st.running = none →
    (∀ r, IsLong r.count → IsLong (f r).count) →
    Step cigarId st .mark { st with db := { st.db with cigarsTable := st.db.cigarsTable.update id f } }
  -- Anybody else, and any other request beside them.
  | write {db' : Database} {observer : Scan ((ℤ × ℤ) × CigarHumidorTable) Humidor Cigar} :
    Tells st.db db' st.observer observer → Step cigarId st .write { st with db := db', observer }
  | observer {observer : Scan ((ℤ × ℤ) × CigarHumidorTable) Humidor Cigar} :
    Scan.Step (humidorsRows cigarId) st.db st.observer none observer →
    Step cigarId st .observer { st with observer }
  | delivered {observer : Scan ((ℤ × ℤ) × CigarHumidorTable) Humidor Cigar} {rows : List HumidorsRow} :
    Scan.Step (humidorsRows cigarId) st.db st.observer (some rows) observer →
    Step cigarId st .observer { st with observer, humidors := rows.map HumidorsRow.entry }

/-! ### The list -/

/-- The list is what the observer has handed on. -/
def Lists (cigarId : ℤ) (st : StockSession) : Prop :=
  ∃ rows : List HumidorsRow, st.humidors = rows.map HumidorsRow.entry ∧
    Scan.Follows (humidorsRows cigarId) st.db st.observer rows

section List
variable {cigarId : ℤ} {st st' : StockSession}

theorem Tells.follows {db db' : Database} {observer observer' : Scan ((ℤ × ℤ) × CigarHumidorTable) Humidor Cigar}
    {rows : List HumidorsRow} (htold : Tells db db' observer observer')
    (h : Scan.Follows (humidorsRows cigarId) db observer rows) :
    Scan.Follows (humidorsRows cigarId) db' observer' rows := by
  rcases htold with rfl | ⟨rfl, hunwatched⟩
  · exact h.notify
  · exact h.same hunwatched.same

theorem Lists.step {op : Op} (h : Lists cigarId st) (hstep : Step cigarId st op st') : Lists cigarId st' := by
  obtain ⟨rows, hrows, hfollows⟩ := h
  cases hstep with
  | start _ _ _ => exact ⟨rows, hrows, hfollows⟩
  | statement _ htold => exact ⟨rows, hrows, htold.follows hfollows⟩
  | finish _ => exact ⟨rows, hrows, hfollows⟩
  | mark _ _ => exact ⟨rows, hrows, hfollows.same (Unwatched.same ⟨rfl, rfl⟩)⟩
  | write htold => exact ⟨rows, hrows, htold.follows hfollows⟩
  | observer hobserver => exact ⟨rows, hrows, hfollows.step hobserver⟩
  | delivered hobserver => exact ⟨_, rfl, hfollows.deliver hobserver⟩

theorem lists_of_run {db : Database} {trace : List (StockSession × Op)}
    (run : Transition.Run (Step cigarId) (opened db) trace st) : Lists cigarId st := by
  refine run.invariant ⟨[], rfl, Scan.follows_start⟩ ?_
  intro _ _ _ h hstep
  exact h.step hstep

/-- The entries of a list at rest are the stored rows, but for the cigar in them. -/
theorem Lists.of_idle (h : Lists cigarId st) (hidle : st.observer.Idle) {cigar : Cigar}
    (hcigar : st.db.getCigar cigarId = .ok cigar) :
    (st.humidors.map fun e => .ok { e with cigar := cigar }) =
      CigarsDetailsScreenViewModel.humidorsQuery cigarId st.db ∧
    ∀ e ∈ st.humidors, e.cigar.rowid = cigarId := by
  obtain ⟨rows, hrows, hfollows⟩ := h
  have haccurate := hfollows.accurate hidle
  have hkey : ∀ row ∈ rows, row.1.1.2 = cigarId := fun row hrow => (mem_humidorsRows (haccurate.mem_keys hrow)).1
  constructor
  · rw [humidorsQuery_eq, ← haccurate.keys, hrows, List.map_map, List.map_map]
    refine List.map_congr_left fun row hrow => ?_
    exact (mapper_of_first (haccurate.first row hrow) (by rw [hkey row hrow]; exact hcigar)).symm
  · intro e he
    rw [hrows] at he
    obtain ⟨row, hrow, rfl⟩ := List.mem_map.mp he
    obtain ⟨s, -, hs⟩ := hfollows.parts row hrow
    exact (rowid_of_second hs).trans (hkey row hrow)

end List

/-- However its observer, the requests and all other writers interleave: once the observer has nothing left to
do, the list of humidors is what its query gives now, totals of the humidors included, but for the cigar inside
the entries, which nobody reports. -/
theorem humidors_stored_at_rest {cigarId : ℤ} {db : Database} {trace : List (StockSession × Op)} {st : StockSession}
    (run : Transition.Run (Step cigarId) (opened db) trace st) (hidle : st.observer.Idle) {cigar : Cigar}
    (hcigar : st.db.getCigar cigarId = .ok cigar) :
    (st.humidors.map fun e => .ok { e with cigar := cigar }) =
      CigarsDetailsScreenViewModel.humidorsQuery cigarId st.db ∧
    ∀ e ∈ st.humidors, e.cigar.rowid = cigarId :=
  (lists_of_run run).of_idle hidle hcigar

/-- The screen of the cigar while its observer reads. -/
def reading (observer : Scan ((ℤ × ℤ) × CigarHumidorTable) Humidor Cigar) : StockSession :=
  { opened tenCigarsStored with observer }

/-- The stock row that it reads. -/
def tenCigarsKey : (ℤ × ℤ) × CigarHumidorTable := ((1, 1), ⟨1, 10⟩)

/-- Its list at rest. -/
def caughtUp : StockSession := ⟨tenCigarsStored, [tenCigarsRow], ⟨false, .idle⟩, none⟩

theorem caughtUp_run : ∃ trace, Transition.Run (Step 1) (opened tenCigarsStored) trace caughtUp ∧
    ∀ t ∈ trace, t.2 = .observer := by
  have hkeys : (humidorsRows 1).keys tenCigarsStored = [tenCigarsKey] := by decide
  have htake : Step 1 (opened tenCigarsStored) .observer (reading ⟨false, .started⟩) := .observer .take
  have hselect : Step 1 (reading ⟨false, .started⟩) .observer (reading ⟨false, .scanning [tenCigarsKey] []⟩) := by
    rw [← hkeys]
    exact .observer .select
  have hfirst : Step 1 (reading ⟨false, .scanning [tenCigarsKey] []⟩) .observer
      (reading ⟨false, .halfway tenCigarsKey tenCigarsRow.humidor [] []⟩) := .observer (.readFirst rfl)
  have hsecond : Step 1 (reading ⟨false, .halfway tenCigarsKey tenCigarsRow.humidor [] []⟩) .observer
      (reading ⟨false, .scanning [] [(tenCigarsKey, tenCigarsRow.humidor, tenCigarsRow.cigar)]⟩) :=
    .observer (.readSecond rfl)
  have hfinish : Step 1 (reading ⟨false, .scanning [] [(tenCigarsKey, tenCigarsRow.humidor, tenCigarsRow.cigar)]⟩)
      .observer (reading ⟨false, .holding [(tenCigarsKey, tenCigarsRow.humidor, tenCigarsRow.cigar)]⟩) :=
    .observer .finish
  have hdeliver : Step 1 (reading ⟨false, .holding [(tenCigarsKey, tenCigarsRow.humidor, tenCigarsRow.cigar)]⟩)
      .observer caughtUp :=
    @Step.delivered 1 (reading _) _ [(tenCigarsKey, tenCigarsRow.humidor, tenCigarsRow.cigar)] .deliver
  have run := (((((Transition.Run.start.next htake).next hselect).next hfirst).next hsecond).next hfinish).next hdeliver
  exact ⟨_, run, by simp⟩

/-- The list is the one that the query gives, with the row of the first humidor. -/
theorem humidors_stored_at_rest_caughtUp :
    (∃ trace, Transition.Run (Step 1) (opened tenCigarsStored) trace caughtUp) ∧
    CigarsDetailsScreenViewModel.humidorsQuery 1 tenCigarsStored = [.ok tenCigarsRow] := by
  obtain ⟨trace, run, -⟩ := caughtUp_run
  have hcigar : caughtUp.db.getCigar 1 = .ok tenCigarsRow.cigar := rfl
  exact ⟨⟨trace, run⟩, (humidors_stored_at_rest run rfl hcigar).1.symm⟩

/-! ### The ledger -/

/-- Rows name stored humidors and cigars, counts are `Long`s, and the history adds up to the stock. -/
structure Balanced (db : Database) : Prop where
  references : References db
  counts : LongCounts db
  recorded : Recorded db

/-- So it is, or will be at the end of the request. -/
def Balances (st : StockSession) : Prop := Balanced (st.running.elim st.db fun path => path.getLastD st.db)

/-- A request is started from a list at rest and can go through, and nobody else writes. -/
def Op.Orderly (st : StockSession) : Op → Prop
  | .start op => st.observer.Idle ∧ op.GoesThrough st.db
  | .write => False
  | .statement | .finish | .mark | .observer => True

section Ledger
variable {cigarId : ℤ} {st st' : StockSession}

/-- An entry of a list at rest is up to date but for its cigar. -/
theorem Lists.upToDate (h : Lists cigarId st) (hidle : st.observer.Idle) (refs : References st.db) {e : HumidorCigar}
    (he : e ∈ st.humidors) :
    ∃ cigar : Cigar, cigar.rowid = e.cigar.rowid ∧ UpToDate st.db { e with cigar := cigar } := by
  obtain ⟨rows, hrows, hfollows⟩ := h
  have haccurate := hfollows.accurate hidle
  rw [hrows] at he
  obtain ⟨row, hrow, rfl⟩ := List.mem_map.mp he
  obtain ⟨-, hfind⟩ := mem_humidorsRows (haccurate.mem_keys hrow)
  obtain ⟨c, hc⟩ := (Table.contains_iff _ _).mp (refs.stock _ _ hfind).2
  obtain ⟨s, -, hs⟩ := hfollows.parts row hrow
  have hmapped := mapper_of_first (haccurate.first row hrow) (getCigar_of_find? hc)
  have hhumidor := rowid_of_first (haccurate.first row hrow)
  refine ⟨cigarFactory row.1.1.2 c, (rowid_of_second hs).symm, ?_⟩
  change findHumidorCigar row.2.1.rowid row.1.1.2 st.db = _
  rw [hhumidor, findHumidorCigar, hfind]
  dsimp only
  rw [show humidorCigarFactory st.db row.1.2.count row.1.1.1 row.1.1.2 = _ from hmapped]
  rfl

end Ledger

section Requests
variable {db : Database} {entity : HumidorCigar} {cigar : Cigar} (hrowid : cigar.rowid = entity.cigar.rowid)
  (hup : UpToDate db { entity with cigar := cigar })
include hrowid hup

/-- A count change counts the same cigars whatever its row says about the cigar. -/
theorem inventory_updateCount (now count : ℤ) (price : Option Double) :
    ((StockOp.updateCount now entity count price).outcome db).inventory =
      db.inventory + (StockOp.updateCount now entity count price).delta db := by
  obtain ⟨row, -, -, hrow, hcount, -⟩ := hup.rows
  have hrow : db.cigarHumidorTable.find? (entity.humidor.rowid, entity.cigar.rowid) = some row := by
    rw [← hrowid]
    exact hrow
  have hcount : row.count = entity.count := hcount
  rw [StockOp.delta_updateCount, ← hcount]
  exact Database.inventory_update count hrow

/-- And so does a move. -/
theorem inventory_moveCigar (now : ℤ) (dst : Humidor) {count : ℤ} (hle : count ≤ entity.count) :
    ((StockOp.moveCigar now entity dst count).outcome db).inventory =
      db.inventory + (StockOp.moveCigar now entity dst count).delta db := by
  have htaken : db.takeOut { entity with cigar := cigar } count = db.takeOut entity count := by
    unfold Database.takeOut
    rw [hrowid]
  have hput := Database.inventory_putIn dst.rowid entity.cigar.rowid count (db.takeOut entity count)
  rw [← htaken, Database.inventory_takeOut hup hle, hrowid] at hput
  have hmoved : ((StockOp.moveCigar now entity dst count).outcome db).inventory =
      ((db.takeOut { entity with cigar := cigar } count).putIn dst.rowid entity.cigar.rowid count).inventory := by
    rw [htaken]
    rfl
  rw [hmoved, hput, sub_add_eq_add_sub, add_sub_assoc]
  rfl

end Requests

section Runs
variable {cigarId : ℤ} {st st' : StockSession}

/-- A request that is started from a list at rest ends in a balanced state. -/
theorem Balanced.outcome (h : Balanced st.db) (hlists : Lists cigarId st) (hidle : st.observer.Idle) {op : StockOp}
    (hoffers : st.Offers op) (hgo : op.GoesThrough st.db) : Balanced (op.outcome st.db) := by
  have hinventory : (op.outcome st.db).inventory = st.db.inventory + op.delta st.db := by
    cases op with
    | addHumidor now entity => exact StockOp.inventory_outcome hoffers
    | addCigar now new humidor => exact StockOp.inventory_outcome hoffers
    | updateCount now entity count price =>
      obtain ⟨cigar, hrowid, hup⟩ := hlists.upToDate hidle h.references hoffers.1
      exact inventory_updateCount hrowid hup now count price
    | moveCigar now src dst count =>
      obtain ⟨cigar, hrowid, hup⟩ := hlists.upToDate hidle h.references hoffers.1
      exact inventory_moveCigar hrowid hup now dst hoffers.2.2.2
  have hlongs : op.HasLongs := by
    cases op with
    | addHumidor now entity => exact hoffers
    | addCigar now new humidor => exact hoffers.2
    | updateCount now entity count price => exact hoffers.2
    | moveCigar now src dst count =>
      obtain ⟨cigar, -, hup⟩ := hlists.upToDate hidle h.references hoffers.1
      have hcount : IsLong src.count := hup.isLong h.counts
      exact hcount.of_le hoffers.2.2.1.le hoffers.2.2.2
  refine ⟨references_outcome h.references hgo, longCounts_outcome h.counts hlongs, ?_⟩
  have hrecorded := h.recorded
  unfold Recorded at hrecorded ⊢
  rw [hinventory, StockOp.recorded_outcome, hrecorded]

theorem Balances.step {op : Op} (h : Balances st) (hlists : Lists cigarId st) (horderly : op.Orderly st)
    (hstep : Step cigarId st op st') : Balances st' := by
  unfold Balances at h ⊢
  cases hstep with
  | @start op path hrunning hoffers hpath =>
    rw [hrunning] at h
    change Balanced (path.getLastD st.db)
    rw [hpath.getLastD, StockOp.program_run horderly.2]
    exact Balanced.outcome h hlists horderly.1 hoffers horderly.2
  | @statement db' path observer hrunning htold =>
    rw [hrunning] at h
    change Balanced ((db' :: path).getLastD st.db) at h
    rw [List.getLastD_cons] at h
    exact h
  | finish hrunning =>
    rw [hrunning] at h
    exact h
  | @mark id f hrunning hlong =>
    rw [hrunning] at h ⊢
    refine ⟨references_update h.references (fun _ => rfl) (fun x => ?_) (fun _ hk => hk) (fun _ _ hr => hr), ?_,
      h.recorded⟩
    · exact Table.contains_update _ _ _ _
    · exact ⟨h.counts.stock, h.counts.humidors, h.counts.cigars.update id hlong⟩
  | write _ => exact horderly.elim
  | observer _ => exact h
  | delivered _ => exact h

/-- However the observer's reads and the requests' statements interleave: if every request is started with a row
of a list at rest and can go through, then between requests the stock of every humidor and cigar is in `Long`s
what the history adds up to, as it was at the start. -/
theorem stock_recorded_of_orderly {db : Database} (start : Balanced db) {trace : List (StockSession × Op)}
    (run : Transition.Run (Step cigarId) (opened db) trace st) (horderly : ∀ t ∈ trace, t.2.Orderly t.1)
    (hrunning : st.running = none) (h c : ℤ) : st.db.stock h c = long (st.db.ledger (h, c)) := by
  have hbalances : Balances st := by
    refine (run.kept (P := fun st => Lists cigarId st ∧ Balances st) (Q := fun st op => op.Orderly st)
      ⟨⟨[], rfl, Scan.follows_start⟩, show Balances (opened db) from start⟩ ?_ horderly).2
    intro s op s' hs hop hstep
    exact ⟨hs.1.step hstep, hs.2.step hs.1 hop hstep⟩
  unfold Balances at hbalances
  rw [hrunning] at hbalances
  exact hbalances.recorded.stock_eq hbalances.counts h c

/-- The databases that the stock operations lead to are balanced. -/
theorem balanced_of_run {c₀ h₀ y₀ i₀ : ℤ} {before : List (Database × StockOp)} {db : Database}
    (run : Transition.Run StockOp.Step (Database.empty c₀ h₀ y₀ i₀) before db) : Balanced db :=
  ⟨(stockInvariant_of_run run).references, (stockInvariant_of_run run).counts, recorded_of_run run⟩

/-- A request that has been started can be run to its end. -/
theorem exists_run_of_running {path : List Database} (h : st.running = some path) : ∃ trace st',
    Transition.Run (Step cigarId) st trace st' ∧ (∀ t ∈ trace, t.2.Orderly t.1) ∧ st'.running = none ∧
    st'.db = path.getLastD st.db := by
  induction path generalizing st with
  | nil =>
    refine ⟨_, _, Transition.Run.start.next (.finish h), ?_, rfl, rfl⟩
    intro t ht
    rw [List.mem_singleton.mp ht]
    trivial
  | cons db' path ih =>
    have hstatement : Step cigarId st .statement { st with db := db', observer := st.observer.notify,
                                                           running := some path } := .statement h (Or.inl rfl)
    obtain ⟨trace, st', run, horderly, hrunning, hdb⟩ :=
      @ih { st with db := db', observer := st.observer.notify, running := some path } rfl
    refine ⟨_, st', (Transition.Run.start.next hstatement).trans run, ?_, hrunning, ?_⟩
    · intro t ht
      rcases List.mem_append.mp ht with ht | ht
      · exact horderly t ht
      · rw [List.mem_singleton.mp ht]
        trivial
    · rw [hdb, List.getLastD_cons]

def countToSeven : StockOp := .updateCount 0 tenCigarsRow 7 none

/-- Seven of the ten cigars are left after a count change from the list at rest. -/
theorem stock_recorded_of_orderly_counted : ∃ trace st, Transition.Run (Step 1) (opened tenCigarsStored) trace st ∧
    st.running = none ∧ st.db.stock 1 1 = 7 ∧ long (st.db.ledger (1, 1)) = 7 := by
  obtain ⟨trace₁, run₁, hobserver⟩ := caughtUp_run
  obtain ⟨path, hpath⟩ := countToSeven.program.exists_passes tenCigarsStored
  have hgo : countToSeven.GoesThrough tenCigarsStored := by decide
  have hstart : Step 1 caughtUp (.start countToSeven) { caughtUp with running := some path } :=
    .start rfl ⟨List.mem_cons_self, by decide⟩ hpath
  obtain ⟨trace₂, st, run₂, horderly, hrunning, hdb⟩ :=
    @exists_run_of_running 1 { caughtUp with running := some path } path rfl
  have run := (run₁.next hstart).trans run₂
  have hall : ∀ t ∈ trace₂ ++ (caughtUp, .start countToSeven) :: trace₁, t.2.Orderly t.1 := by
    intro t ht
    rcases List.mem_append.mp ht with ht | ht
    · exact horderly t ht
    · rcases List.mem_cons.mp ht with rfl | ht
      · exact ⟨rfl, hgo⟩
      · rw [hobserver t ht]
        trivial
  have hsome : (Transition.replay StockOp.perform [] (Database.empty 0 0 0 0) tenCigars).isSome = true := by decide
  have hstored : Balanced tenCigarsStored := balanced_of_run (StockOp.run_performed tenCigars hsome)
  have hdb : st.db = path.getLastD tenCigarsStored := hdb
  have hstock : st.db.stock 1 1 = 7 := by
    rw [hdb, hpath.getLastD, StockOp.program_run hgo]
    decide
  exact ⟨_, st, run, hrunning, hstock, (stock_recorded_of_orderly hstored run hall hrunning 1 1).symm.trans hstock⟩

end Runs
end StockSession
end Cigars
