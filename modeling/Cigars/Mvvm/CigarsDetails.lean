import Cigars.Listing.Unfiltered
import Cigars.Stock.Totals

/-! The details screen of a cigar, observing and not editing. The fields it shows follow the
cigar's row; its list of humidors follows a query that names the stock and the humidors only, so
the cigars inside the list can be older than the row. -/
namespace Cigars
open Coroutine Sql Transition

namespace CigarsDetailsScreenViewModel

/-- `humidors` is the list last emitted by `cigarHumidorRepository.all()`. -/
structure State where
  db : Database
  favorites : Bool
  humidors : List HumidorCigar

inductive Call
  | favorite
  | updateCigarRating (rating : ℤ)
  | updateCigarCount (now : ℤ) (entity : HumidorCigar) (count : ℤ) (price : Option Double)

/-- What `cigarsRepository.observe` shows as favourite. -/
def observed (cigarId : ℤ) (db : Database) : Bool :=
  ((db.cigarsTable.find? cigarId).map CigarsTable.favorites).getD false

/-- The query behind `cigarHumidorRepository.all()`. -/
def humidorsQuery (cigarId : ℤ) : Query HumidorCigar := (LocalRepository.cigarHumidors cigarId).unfiltered

/-- The list is read row by row while the database goes from `db₁` to `db₂`. -/
def EmittedBetween (cigarId : ℤ) (db₁ db₂ : Database) (humidors : List HumidorCigar) : Prop :=
  ∀ i : ℕ, humidors[i]?.map .ok = (humidorsQuery cigarId db₁)[i]? ∨
    humidors[i]?.map .ok = (humidorsQuery cigarId db₂)[i]?

/-- One call, run to its end, with the emissions that follow from it. Only a count change writes a
table of the list's query: first the stock row, which makes the list emit again, and last the
cigar's row. -/
inductive Step (entity : Cigar) : State → Call → State → Prop
  | favorite {st : State} {db' : Database} :
    (CigarsRepository.updateFavorite (!st.favorites) entity).Completes st.db db' →
    Step entity st .favorite { st with db := db', favorites := observed entity.rowid db' }
  | updateCigarRating {st : State} {rating : ℤ} {db' : Database} :
    (CigarsRepository.updateRating rating entity).Completes st.db db' →
    Step entity st (.updateCigarRating rating) { st with db := db', favorites := observed entity.rowid db' }
  | sameCount {st : State} {now : ℤ} {row : HumidorCigar} {count : ℤ} {price : Option Double} :
    row ∈ st.humidors → row.count = count → Step entity st (.updateCigarCount now row count price) st
  | updateCigarCount {st : State} {now : ℤ} {row : HumidorCigar} {count : ℤ} {price : Option Double}
      {db' : Database} {humidors : List HumidorCigar} :
    row ∈ st.humidors → row.count ≠ count →
    (CigarHumidorRepository.updateCount now row count price).Completes st.db db' →
    EmittedBetween entity.rowid (CigarHumidorRepository.countedRow row count st.db) db' humidors →
    Step entity st (.updateCigarCount now row count price)
      { db := db', favorites := observed entity.rowid db', humidors }

/-- The cigar is stored as the repository stores cigars, and both observers have emitted. -/
structure Opened (entity : Cigar) (st : State) : Prop where
  row : ∃ c : Cigar, st.db.cigarsTable.find? entity.rowid = some c.columns
  favorites : st.favorites = observed entity.rowid st.db
  humidors : EmittedBetween entity.rowid st.db st.db st.humidors

/-- The favourite mark and the rating that were set last. -/
def lastSet (start : CigarsTable) : List (State × Call) → Bool × Option ℤ
  | [] => (start.favorites, start.myrating)
  | (st, .favorite) :: trace => (!st.favorites, (lastSet start trace).2)
  | (_, .updateCigarRating rating) :: trace => ((lastSet start trace).1, some rating)
  | (_, .updateCigarCount _ _ _ _) :: trace => lastSet start trace

/-- No column of `CigarsTable` but `count` differs. -/
def OnlyCounts (db db' : Database) : Prop :=
  ∀ id, ∃ count, db'.cigarsTable.find? id = (db.cigarsTable.find? id).map fun r => { r with count }

def Call.ChangesCount : Call → Prop
  | .updateCigarCount _ _ _ _ => True
  | _ => False

/-- The row holds the edits set last, and no count change wrote another column. -/
structure EditsKept (entity : Cigar) (start : State) (trace : List (State × Call)) (st : State) : Prop where
  edits : ∀ r₀, start.db.cigarsTable.find? entity.rowid = some r₀ →
    ∃ r, st.db.cigarsTable.find? entity.rowid = some r ∧ (r.favorites, r.myrating) = lastSet r₀ trace
  counts : ∀ s ∈ trace, s.2.ChangesCount → ∀ st', Step entity s.1 s.2 st' → OnlyCounts s.1.db st'.db

/-- A count change uses a list entry whose cigar has the stored favourite mark and rating. -/
def Current (entity : Cigar) (st : State) : Call → Prop
  | .updateCigarCount _ row count _ => row.count = count ∨
      ∀ r, st.db.cigarsTable.find? entity.rowid = some r →
        row.cigar.favorites = r.favorites ∧ row.cigar.myrating = r.myrating
  | _ => True

/-! ### The cigars inside the list -/

theorem cigar_of_mapper {db : Database} {r : (ℤ × ℤ) × CigarHumidorTable} {e : HumidorCigar}
    (h : HumidorCigarsDatabase.mapper db r = .ok e) :
    ∃ row, db.cigarsTable.find? r.1.2 = some row ∧ e.cigar = cigarFactory r.1.2 row := by
  obtain ⟨humidor, cigar, -, hcig, rfl⟩ := rows_of_humidorCigarFactory h
  exact ⟨cigar, hcig, rfl⟩

theorem cigar_of_mem_query {cigarId : ℤ} {db : Database} {e : HumidorCigar}
    (h : .ok e ∈ humidorsQuery cigarId db) :
    ∃ row, db.cigarsTable.find? cigarId = some row ∧ e.cigar = cigarFactory cigarId row := by
  obtain ⟨r, hr, he⟩ := List.mem_map.mp h
  obtain ⟨-, hcond⟩ := List.mem_filter.mp ((perm_orderBy _ _ _).mem_iff.mp hr)
  have hid := (cigarHumidorsCond_default cigarId r).mp (of_decide_eq_true hcond)
  rw [← hid]
  exact cigar_of_mapper he

/-- Each cigar of an emitted list is one of the two rows the cigar has had. -/
theorem EmittedBetween.cigar {cigarId : ℤ} {db₁ db₂ : Database} {humidors : List HumidorCigar}
    (h : EmittedBetween cigarId db₁ db₂ humidors) {r₁ r₂ : CigarsTable}
    (h₁ : db₁.cigarsTable.find? cigarId = some r₁) (h₂ : db₂.cigarsTable.find? cigarId = some r₂)
    {e : HumidorCigar} (he : e ∈ humidors) :
    e.cigar = cigarFactory cigarId r₁ ∨ e.cigar = cigarFactory cigarId r₂ := by
  obtain ⟨i, hi⟩ := List.mem_iff_getElem?.mp he
  have hread := h i
  rw [hi] at hread
  rcases hread with hread | hread
  · left
    obtain ⟨row, hrow, hcigar⟩ := cigar_of_mem_query (List.mem_of_getElem? hread.symm)
    rw [h₁] at hrow
    cases hrow
    exact hcigar
  · right
    obtain ⟨row, hrow, hcigar⟩ := cigar_of_mem_query (List.mem_of_getElem? hread.symm)
    rw [h₂] at hrow
    cases hrow
    exact hcigar

/-- What a stored row is read as is written back as the same row. -/
theorem columns_cigarFactory (id : ℤ) {r : CigarsTable}
    (h : (CigarStrength.fromLong r.strength).toLong = r.strength) : (cigarFactory id r).columns = r := by
  have hrelations : (cigarFactory id r).relationsJson = r.relations := by
    cases hr : r.relations <;> simp [Cigar.relationsJson, cigarFactory, hr, encodeToString, decodeFromString]
  cases r
  simp only [Cigar.columns, cigarFactory, CigarsTable.mk.injEq, true_and] at h hrelations ⊢
  exact ⟨h, bindReal_readReal _, hrelations⟩

/-! ### One call -/

/-- The cigar is the row, but for the columns the calls write. -/
def SameButEdits (id : ℤ) (r : CigarsTable) (c : Cigar) : Prop :=
  ∃ favorites myrating count, c = cigarFactory id { r with favorites, myrating, count }

/-- The fields shown are current; the cigars of the list may have older edits. -/
structure Coherent (entity : Cigar) (st : State) (r : CigarsTable) : Prop where
  row : st.db.cigarsTable.find? entity.rowid = some r
  strength : (CigarStrength.fromLong r.strength).toLong = r.strength
  favorites : st.favorites = r.favorites
  humidors : ∀ e ∈ st.humidors, SameButEdits entity.rowid r e.cigar

/-- The cigar's row after a call. -/
def written (r : CigarsTable) : Call → CigarsTable
  | .favorite => { r with favorites := !r.favorites }
  | .updateCigarRating rating => { r with myrating := some rating }
  | .updateCigarCount _ row count _ =>
    if row.count = count then r
    else { r with favorites := row.cigar.favorites, myrating := row.cigar.myrating, count }

theorem Opened.coherent {entity : Cigar} {st : State} (h : Opened entity st) :
    ∃ r, Coherent entity st r := by
  obtain ⟨c, hrow⟩ := h.row
  refine ⟨c.columns, hrow, congrArg _ (CigarStrength.fromLong_toLong c.strength), ?_, fun e he => ?_⟩
  · rw [h.favorites, observed, hrow]
    rfl
  · have hcigar := (h.humidors.cigar hrow hrow he).elim id id
    exact ⟨c.favorites, c.myrating, c.count, hcigar⟩

section Calls
variable {entity : Cigar} {st st' : State} {r : CigarsTable} (hc : Coherent entity st r)
include hc

/-- A statement that writes the cigar's row and leaves the list as it is. -/
private theorem coherent_of_update {f : CigarsTable → CigarsTable} {db' : Database}
    (hdb : db'.cigarsTable = st.db.cigarsTable.update entity.rowid f)
    (hf : ∃ favorites myrating count, f r = { r with favorites, myrating, count }) :
    Coherent entity { st with db := db', favorites := observed entity.rowid db' } (f r) := by
  have hrow : db'.cigarsTable.find? entity.rowid = some (f r) := by
    rw [hdb]
    exact Table.find?_update_self f hc.row
  obtain ⟨favorites, myrating, count, hf⟩ := hf
  refine ⟨hrow, ?_, ?_, fun e he => ?_⟩
  · rw [hf]
    exact hc.strength
  · rw [observed, hrow]
    rfl
  · rw [hf]
    exact hc.humidors e he

/-- A count change writes the row as the list has it. -/
theorem cigarsTable_counted (now : ℤ) {row : HumidorCigar} (hmem : row ∈ st.humidors) (count : ℤ)
    (price : Option Double) :
    (CigarHumidorRepository.counted now row count price st.db).cigarsTable =
      st.db.cigarsTable.update entity.rowid fun _ =>
        { r with favorites := row.cigar.favorites, myrating := row.cigar.myrating, count } := by
  obtain ⟨favorites, myrating, count₀, hcigar⟩ := hc.humidors row hmem
  have hcolumns : ({ row.cigar with count } : Cigar).columns = { r with favorites, myrating, count } := by
    rw [hcigar]
    exact columns_cigarFactory entity.rowid (r := { r with favorites, myrating, count }) hc.strength
  have hid : row.cigar.rowid = entity.rowid := by rw [hcigar]; rfl
  have hfav : row.cigar.favorites = favorites := by rw [hcigar]; rfl
  have hrating : row.cigar.myrating = myrating := by rw [hcigar]; rfl
  rw [hfav, hrating, ← hcolumns, ← hid]
  rfl

/-- Everything a call does to the cigars. -/
theorem Step.cigars {c : Call} (h : Step entity st c st') :
    Coherent entity st' (written r c) ∧
      ∀ id ≠ entity.rowid, st'.db.cigarsTable.find? id = st.db.cigarsTable.find? id := by
  cases h with
  | @favorite db' hdone =>
    have hdb := hdone.unique (updateFavorite_emits (!st.favorites) entity st.db).completes
    subst hdb
    refine ⟨?_, fun id hid => Table.find?_update_of_ne _ hid⟩
    rw [written, ← hc.favorites]
    exact coherent_of_update hc (f := fun r => { r with favorites := !st.favorites }) rfl
      ⟨!st.favorites, r.myrating, r.count, rfl⟩
  | @updateCigarRating rating db' hdone =>
    have hdb := hdone.unique (updateRating_emits rating entity st.db).completes
    subst hdb
    refine ⟨?_, fun id hid => Table.find?_update_of_ne _ hid⟩
    exact coherent_of_update hc (f := fun r => { r with myrating := some rating }) rfl
      ⟨r.favorites, some rating, r.count, rfl⟩
  | sameCount hmem hcount =>
    rw [written, if_pos hcount]
    exact ⟨hc, fun _ _ => rfl⟩
  | @updateCigarCount now row count price db' humidors hmem hcount hdone hemitted =>
    have hdb : db' = CigarHumidorRepository.counted now row count price st.db :=
      ((StockOp.completes_iff st.db db' (.updateCount now row count price)).mp hdone).2
    subst hdb
    have htable := cigarsTable_counted hc now hmem count price
    have hrow := Table.find?_update_self (fun _ : CigarsTable =>
      { r with favorites := row.cigar.favorites, myrating := row.cigar.myrating, count }) hc.row
    rw [← AutoTable.toTable_update, ← htable] at hrow
    rw [written, if_neg hcount]
    refine ⟨⟨hrow, hc.strength, ?_, fun e he => ?_⟩, fun id hid => ?_⟩
    · change observed entity.rowid _ = _
      rw [observed, hrow]
      rfl
    · rcases hemitted.cigar hc.row hrow he with hcigar | hcigar
      · exact ⟨r.favorites, r.myrating, r.count, hcigar⟩
      · exact ⟨row.cigar.favorites, row.cigar.myrating, count, hcigar⟩
    · have hother := Table.find?_update_of_ne (t := st.db.cigarsTable.toTable) (fun _ : CigarsTable =>
        { r with favorites := row.cigar.favorites, myrating := row.cigar.myrating, count }) hid
      rw [← AutoTable.toTable_update, ← htable] at hother
      exact hother

theorem Step.onlyCounts_iff {c : Call} (h : Step entity st c st') (hcount : c.ChangesCount) :
    OnlyCounts st.db st'.db ↔ Current entity st c := by
  obtain ⟨hcoherent, hother⟩ := h.cigars hc
  cases c with
  | favorite => exact hcount.elim
  | updateCigarRating _ => exact hcount.elim
  | updateCigarCount now row count price =>
    have hrow := hcoherent.row
    rw [written] at hrow
    constructor
    · intro honly
      by_cases hsame : row.count = count
      · exact .inl hsame
      · right
        intro r₁ hr₁
        obtain ⟨n, hn⟩ := honly entity.rowid
        rw [hrow, if_neg hsame, hr₁, Option.map_some] at hn
        have he := Option.some.inj hn
        exact ⟨congrArg CigarsTable.favorites he, congrArg CigarsTable.myrating he⟩
    · intro hcurrent id
      by_cases hid : id = entity.rowid
      · subst hid
        rw [hrow, hc.row]
        by_cases hsame : row.count = count
        · exact ⟨r.count, congrArg some (if_pos hsame)⟩
        · obtain ⟨hfav, hrating⟩ := hcurrent.resolve_left hsame r hc.row
          refine ⟨count, congrArg some ?_⟩
          rw [if_neg hsame, hfav, hrating]
      · rw [hother id hid]
        cases st.db.cigarsTable.find? id with
        | none => exact ⟨0, rfl⟩
        | some x => exact ⟨x.count, rfl⟩

/-- A current call leaves the edits as they were set last. -/
theorem Step.edits {c : Call} (h : Step entity st c st') (hcurrent : Current entity st c) {r₀ : CigarsTable}
    {trace : List (State × Call)} (hlast : (r.favorites, r.myrating) = lastSet r₀ trace) :
    ((written r c).favorites, (written r c).myrating) = lastSet r₀ ((st, c) :: trace) := by
  cases c with
  | favorite =>
    rw [written, lastSet, ← hlast, hc.favorites]
  | updateCigarRating rating =>
    rw [written, lastSet, ← hlast]
  | updateCigarCount now row count price =>
    rw [written, lastSet, ← hlast]
    by_cases hsame : row.count = count
    · rw [if_pos hsame]
    · obtain ⟨hfav, hrating⟩ := hcurrent.resolve_left hsame r hc.row
      rw [if_neg hsame, hfav, hrating]

end Calls

/-! ### Runs -/

section Runs
variable {entity : Cigar} {start st : State} {trace : List (State × Call)} (hopened : Opened entity start)
  (run : Run (Step entity) start trace st)
include hopened run

theorem exists_coherent_of_run : ∃ r, Coherent entity st r := by
  refine run.invariant (P := fun st => ∃ r, Coherent entity st r) hopened.coherent ?_
  intro _ _ _ ⟨r, hc⟩ hstep
  exact ⟨_, (hstep.cigars hc).1⟩

theorem current_of_counts
    (h : ∀ s ∈ trace, s.2.ChangesCount → ∀ st', Step entity s.1 s.2 st' → OnlyCounts s.1.db st'.db) :
    ∀ s ∈ trace, Current entity s.1 s.2 := by
  induction run with
  | start => simp
  | @next trace st st' c run hstep ih =>
    rw [List.forall_mem_cons] at h ⊢
    obtain ⟨r, hc⟩ := exists_coherent_of_run hopened run
    refine ⟨?_, ih h.2⟩
    cases c with
    | favorite => trivial
    | updateCigarRating _ => trivial
    | updateCigarCount now row count price =>
      exact (hstep.onlyCounts_iff hc trivial).mp (h.1 trivial st' hstep)

theorem editsKept_of_current (h : ∀ s ∈ trace, Current entity s.1 s.2) : EditsKept entity start trace st := by
  induction run with
  | start =>
    refine ⟨fun r₀ hr₀ => ⟨r₀, hr₀, rfl⟩, ?_⟩
    simp
  | @next trace st st' c run hstep ih =>
    rw [List.forall_mem_cons] at h
    obtain ⟨hcurrent, hrest⟩ := h
    have hkept := ih hrest
    obtain ⟨r, hc⟩ := exists_coherent_of_run hopened run
    constructor
    · intro r₀ hr₀
      obtain ⟨r₁, hr₁, hlast⟩ := hkept.edits r₀ hr₀
      rw [hc.row] at hr₁
      cases hr₁
      exact ⟨_, (hstep.cigars hc).1.row, hstep.edits hc hcurrent hlast⟩
    · rw [List.forall_mem_cons]
      exact ⟨fun hcount _ hstep' => (hstep'.onlyCounts_iff hc hcount).mpr hcurrent, hkept.counts⟩

/-- The edits of a cigar survive the count changes of a run, and these write nothing else,
exactly when every count change uses a list entry with the stored favourite mark and rating. -/
theorem edits_kept_iff : EditsKept entity start trace st ↔ ∀ s ∈ trace, Current entity s.1 s.2 :=
  ⟨fun h => current_of_counts hopened run h.counts, editsKept_of_current hopened run⟩

end Runs

/-- A list read when the database had reached `db₂`. -/
theorem emittedBetween_of_query {cigarId : ℤ} (db₁ : Database) {db₂ : Database} {humidors : List HumidorCigar}
    (h : humidorsQuery cigarId db₂ = humidors.map .ok) : EmittedBetween cigarId db₁ db₂ humidors := by
  intro i
  right
  rw [h, List.getElem?_map]

/-- The screen of a cigar with ten pieces in one of two humidors. -/
def tenCigarsOpened : State where
  db := tenCigarsStored
  favorites := false
  humidors := [tenCigarsRow]

theorem opened_tenCigars : Opened tenCigarsRow.cigar tenCigarsOpened where
  row := ⟨{ emptyCigar with count := 10 }, by decide⟩
  favorites := by decide
  humidors := emittedBetween_of_query _ (by decide)

/-- The favourite mark toggled. -/
def toggled (st : State) : State :=
  let db' := CigarsDatabase.setFavorite (!st.favorites) 1 st.db
  { st with db := db', favorites := observed 1 db' }

theorem step_toggled (st : State) : Step tenCigarsRow.cigar st .favorite (toggled st) :=
  .favorite (updateFavorite_emits (!st.favorites) tenCigarsRow.cigar st.db).completes

/-- The count of the row set to seven, and the list read after it. -/
def countedSeven (st : State) : State :=
  let db' := CigarHumidorRepository.counted 0 tenCigarsRow 7 none st.db
  { db := db', favorites := observed 1 db'
    humidors := [{ tenCigarsRow with count := 7, cigar := { tenCigarsRow.cigar with count := 7 } }] }

theorem step_countedSeven {st : State} (hmem : tenCigarsRow ∈ st.humidors)
    (hgo : (StockOp.updateCount 0 tenCigarsRow 7 none).GoesThrough st.db)
    (hlist : humidorsQuery 1 (countedSeven st).db = (countedSeven st).humidors.map .ok) :
    Step tenCigarsRow.cigar st (.updateCigarCount 0 tenCigarsRow 7 none) (countedSeven st) :=
  .updateCigarCount hmem (by decide) (StockOp.completes_of_goesThrough hgo) (emittedBetween_of_query _ hlist)

theorem edits_kept_countedSeven : ∃ trace, Run (Step tenCigarsRow.cigar) tenCigarsOpened trace
    (countedSeven tenCigarsOpened) ∧ trace.length = 1 ∧
      EditsKept tenCigarsRow.cigar tenCigarsOpened trace (countedSeven tenCigarsOpened) := by
  have hstep : Step tenCigarsRow.cigar tenCigarsOpened _ (countedSeven tenCigarsOpened) :=
    step_countedSeven (by decide) (by decide) (by decide)
  have run := Run.start.next hstep
  refine ⟨_, run, rfl, (edits_kept_iff opened_tenCigars run).mpr ?_⟩
  refine List.forall_mem_singleton.mpr (.inr fun r hr => ?_)
  have hrow : tenCigarsOpened.db.cigarsTable.find? 1 = some { emptyCigar.columns with count := 10 } := by
    decide
  cases hr.symm.trans hrow
  exact ⟨rfl, rfl⟩

/-- The mark is set, then the count is changed with the list as it was: the mark is gone. -/
theorem countChange_undoes_favorite : Opened tenCigarsRow.cigar tenCigarsOpened ∧ ∃ trace r,
    Run (Step tenCigarsRow.cigar) tenCigarsOpened trace (countedSeven (toggled tenCigarsOpened)) ∧
      lastSet { emptyCigar.columns with count := 10 } trace = (true, some 0) ∧
      (countedSeven (toggled tenCigarsOpened)).db.cigarsTable.find? 1 = some r ∧ r.favorites = false := by
  have run := (Run.start.next (step_toggled tenCigarsOpened)).next
    (step_countedSeven (by decide) (by decide) (by decide))
  exact ⟨opened_tenCigars, _, { emptyCigar.columns with count := 7 }, run, by decide, by decide, rfl⟩

end CigarsDetailsScreenViewModel
end Cigars
