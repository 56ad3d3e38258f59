import Cigars.Mvvm.StockSession

/-! The list of humidors between a change of the stock and its next rest. What is on the list then was read while
the request was under way, each cigar before its last statement or after it. -/
namespace Cigars
open Coroutine Sql Transition

/-- A state with the cigars of one of two others. -/
def CigarsOf (db₁ db₂ db : Database) : Prop := db.cigarsTable = db₁.cigarsTable ∨ db.cigarsTable = db₂.cigarsTable

/-- Rows that were read while only the cigars changed. -/
theorem emittedBetween_of_parts {cigarId : ℤ} {db₁ db₂ : Database} {rows : List HumidorsRow}
    (hunwatched : Unwatched db₁ db₂) (haccurate : (humidorsRows cigarId).Accurate db₂ rows)
    (hparts : (humidorsRows cigarId).SecondParts (CigarsOf db₁ db₂) rows) :
    CigarsDetailsScreenViewModel.EmittedBetween cigarId db₁ db₂ (rows.map HumidorsRow.entry) := by
  intro i
  rw [humidorsQuery_eq, humidorsQuery_eq, ← hunwatched.same.keys, ← haccurate.keys]
  cases hi : rows[i]? with
  | none => simp [hi]
  | some r =>
    have hr := List.mem_of_getElem? hi
    have hfirst := haccurate.first r hr
    have hfirst' : (humidorsRows cigarId).first db₁ r.1 = some r.2.1 := by
      rw [← hunwatched.same.first r.1 (hunwatched.same.keys ▸ haccurate.mem_keys hr)]
      exact hfirst
    obtain ⟨db, hdb, hsecond⟩ := hparts r hr
    obtain ⟨c, hc, hcigar⟩ := find?_of_second hsecond
    simp only [List.getElem?_map, hi, Option.map_some, Option.some_inj]
    rcases hdb with hdb | hdb
    · rw [hdb] at hc
      have hget := getCigar_of_find? hc
      rw [← hcigar] at hget
      exact Or.inl (mapper_of_first hfirst' hget).symm
    · rw [hdb] at hc
      have hget := getCigar_of_find? hc
      rw [← hcigar] at hget
      exact Or.inr (mapper_of_first hfirst hget).symm

/-- The states that a count change goes through. -/
def CountStates (now : ℤ) (row : HumidorCigar) (count : ℤ) (price : Option Double) (db db' : Database) : Prop :=
  db' = db ∨ db' = CigarHumidorRepository.countedRow row count db ∨
    db' = CigarHumidorRepository.counted now row count price db

/-- The first statement of a count change leaves the cigars alone. -/
theorem CountStates.cigarsOf {now : ℤ} {row : HumidorCigar} {count : ℤ} {price : Option Double} {db db' : Database}
    (h : CountStates now row count price db db') :
    CigarsOf (CigarHumidorRepository.countedRow row count db) (CigarHumidorRepository.counted now row count price db)
      db' := by
  rcases h with rfl | rfl | rfl
  · exact Or.inl rfl
  · exact Or.inl rfl
  · exact Or.inr rfl

namespace StockSession

/-- What goes on by itself after a request has been started. -/
def Op.Internal : Op → Prop
  | .statement | .finish | .observer => True
  | .start _ | .mark | .write => False

section Idle
variable {cigarId : ℤ} {st st' : StockSession} {op : Op}

theorem not_step_of_idle (hidle : st.observer.Idle) (hrunning : st.running = none) (hinternal : op.Internal) :
    ¬ Step cigarId st op st' := by
  intro hstep
  cases hstep with
  | start _ _ _ => exact hinternal
  | statement hrunning' _ =>
    rw [hrunning] at hrunning'
    cases hrunning'
  | finish hrunning' =>
    rw [hrunning] at hrunning'
    cases hrunning'
  | mark _ _ => exact hinternal
  | write _ => exact hinternal
  | observer hobserver =>
    rw [hidle] at hobserver
    cases hobserver
  | delivered hobserver =>
    rw [hidle] at hobserver
    cases hobserver

/-- Every row that the list is to be read for can be read. -/
theorem readable_keys (hcigar : st.db.cigarsTable.contains cigarId = true) {r : (ℤ × ℤ) × CigarHumidorTable}
    (hr : r ∈ (humidorsRows cigarId).keys st.db) :
    (∃ humidor, (humidorsRows cigarId).first st.db r = some humidor) ∧
      ∃ cigar, (humidorsRows cigarId).second st.db r = some cigar := by
  have hid := (mem_humidorsRows hr).1
  obtain ⟨x, hx, rfl⟩ := List.mem_map.mp hr
  obtain ⟨hjoin, -⟩ := List.mem_filter.mp ((perm_orderBy _ _ _).mem_iff.mp hx)
  obtain ⟨c, hc⟩ := (Table.contains_iff _ _).mp hcigar
  rw [← hid] at hc
  refine ⟨⟨humidorFactory x.1.1.1 x.2, ?_⟩, cigarFactory x.1.1.2 c, ?_⟩
  · simp [humidorsRows, getHumidor_of_find? (mem_innerJoin.mp hjoin).2, Except.toOption]
  · simp [humidorsRows, getCigar_of_find? hc, Except.toOption]

/-- A reader that is left alone reads the rows one after the other. -/
theorem exists_run_scanning (hcigar : st.db.cigarsTable.contains cigarId = true)
    {todo : List ((ℤ × ℤ) × CigarHumidorTable)} (rows : List HumidorsRow)
    (hkeys : ∀ r ∈ todo, r ∈ (humidorsRows cigarId).keys st.db) :
    ∃ trace rows', Transition.Run (Step cigarId) { st with observer := ⟨false, .scanning todo rows⟩ } trace
      { st with observer := ⟨false, .scanning [] rows'⟩ } ∧ ∀ t ∈ trace, t.2 = .observer := by
  induction todo generalizing rows with
  | nil => exact ⟨[], rows, .start, List.forall_mem_nil _⟩
  | cons r todo ih =>
    obtain ⟨hr, htodo⟩ := List.forall_mem_cons.mp hkeys
    obtain ⟨⟨humidor, hfirst⟩, cigar, hsecond⟩ := readable_keys hcigar hr
    obtain ⟨trace, rows', hrun, htrace⟩ := ih (rows ++ [(r, humidor, cigar)]) htodo
    have hhalf : Step cigarId { st with observer := ⟨false, .scanning (r :: todo) rows⟩ } .observer
        { st with observer := ⟨false, .halfway r humidor todo rows⟩ } := .observer (.readFirst hfirst)
    have hread : Step cigarId { st with observer := ⟨false, .halfway r humidor todo rows⟩ } .observer
        { st with observer := ⟨false, .scanning todo (rows ++ [(r, humidor, cigar)])⟩ } :=
      .observer (.readSecond hsecond)
    refine ⟨_, rows', ((Transition.Run.start.next hhalf).next hread).trans hrun, ?_⟩
    simpa [or_imp, forall_and] using htrace

/-- A list that has been told of a change is at rest again in the end. -/
theorem exists_run_list (hcigar : st.db.cigarsTable.contains cigarId = true) (hobserver : st.observer = ⟨true, .idle⟩) :
    ∃ trace humidors, Transition.Run (Step cigarId) st trace { st with observer := ⟨false, .idle⟩, humidors } ∧
      ∀ t ∈ trace, t.2 = .observer := by
  obtain ⟨trace, rows, hrun, htrace⟩ := exists_run_scanning hcigar [] fun _ hr => hr
  have htake : Step cigarId st .observer { st with observer := ⟨false, .started⟩ } := .observer (hobserver ▸ .take)
  have hselect : Step cigarId { st with observer := ⟨false, .started⟩ } .observer
      { st with observer := ⟨false, .scanning ((humidorsRows cigarId).keys st.db) []⟩ } := .observer .select
  have hfinish : Step cigarId { st with observer := ⟨false, .scanning [] rows⟩ } .observer
      { st with observer := ⟨false, .holding rows⟩ } := .observer .finish
  have hdeliver : Step cigarId { st with observer := ⟨false, .holding rows⟩ } .observer
      { st with observer := ⟨false, .idle⟩, humidors := rows.map HumidorsRow.entry } := .delivered .deliver
  refine ⟨_, _, (((Transition.Run.start.next htake).next hselect).trans hrun).trans
    ((Transition.Run.start.next hfinish).next hdeliver), ?_⟩
  simpa [or_imp, forall_and] using htrace

theorem Step.db_eq_of_observer (hstep : Step cigarId st .observer st') : st'.db = st.db := by
  cases hstep with
  | observer _ => rfl
  | delivered _ => rfl

end Idle

section Counting
variable {cigarId now count : ℤ} {row : HumidorCigar} {price : Option Double} {db : Database} {st st' : StockSession}

theorem countStates_of_passes {path : List Database}
    (h : (StockOp.updateCount now row count price).program.Passes db path) :
    ∀ db' ∈ path, CountStates now row count price db db' := by
  intro db' hmem
  exact (CigarHumidorRepository.updateCount_halts (h.halts hmem)).imp_right (Or.imp_right And.right)

/-- While a count change is under way it can only end in its outcome, and as soon as the stock has changed
everything on the list was read, or will be, in the states of the request. -/
structure Counting (cigarId now : ℤ) (row : HumidorCigar) (count : ℤ) (price : Option Double) (db : Database)
    (st : StockSession) : Prop where
  state : CountStates now row count price db st.db
  ends : (st.running = none ∧ st.db = CigarHumidorRepository.counted now row count price db) ∨
    ∃ path, st.running = some path ∧ path.getLastD st.db = CigarHumidorRepository.counted now row count price db ∧
      ∀ db' ∈ path, CountStates now row count price db db'
  list : ∃ rows : List HumidorsRow, st.humidors = rows.map HumidorsRow.entry ∧
    Scan.Follows (humidorsRows cigarId) st.db st.observer rows ∧
    (st.db.cigarHumidorTable = db.cigarHumidorTable ∨
      Scan.ReadIn (humidorsRows cigarId) (CountStates now row count price db) st.observer rows)

theorem counting_start (hlists : Lists cigarId st) (hgo : (StockOp.updateCount now row count price).GoesThrough st.db)
    {path : List Database} (hpath : (StockOp.updateCount now row count price).program.Passes st.db path) :
    Counting cigarId now row count price st.db { st with running := some path } where
  state := Or.inl rfl
  ends := by
    refine Or.inr ⟨path, rfl, ?_, countStates_of_passes hpath⟩
    change path.getLastD st.db = _
    rw [hpath.getLastD, StockOp.program_run hgo]
    rfl
  list := by
    obtain ⟨rows, hrows, hfollows⟩ := hlists
    exact ⟨rows, hrows, hfollows, Or.inl rfl⟩

theorem Counting.step {op : Op} (h : Counting cigarId now row count price db st) (hinternal : op.Internal)
    (hstep : Step cigarId st op st') : Counting cigarId now row count price db st' := by
  obtain ⟨hstate, hends, rows, hrows, hfollows, hread⟩ := h
  cases hstep with
  | start _ _ _ => exact hinternal.elim
  | mark _ _ => exact hinternal.elim
  | write _ => exact hinternal.elim
  | @statement db' path observer hrunning htold =>
    rw [hrunning] at hends
    obtain ⟨hnone, -⟩ | ⟨_, hsome, hlast, hstates⟩ := hends
    · cases hnone
    cases hsome
    rw [List.getLastD_cons] at hlast
    have hpath := List.forall_mem_cons.mp hstates
    refine ⟨hpath.1, Or.inr ⟨path, rfl, hlast, hpath.2⟩, rows, hrows, htold.follows hfollows, ?_⟩
    rcases htold with rfl | ⟨rfl, hunwatched⟩
    · exact Or.inr (Scan.readIn_of_notified rfl)
    · exact hread.imp_left hunwatched.stock.trans
  | finish hrunning =>
    rw [hrunning] at hends
    obtain ⟨hnone, -⟩ | ⟨_, hsome, hlast, -⟩ := hends
    · cases hnone
    cases hsome
    exact ⟨hstate, Or.inl ⟨rfl, hlast⟩, rows, hrows, hfollows, hread⟩
  | observer hobserver =>
    exact ⟨hstate, hends, rows, hrows, hfollows.step hobserver, hread.imp_right fun h => h.step hstate hobserver⟩
  | delivered hobserver =>
    exact ⟨hstate, hends, _, rfl, hfollows.deliver hobserver, hread.imp_right fun h => h.deliver hobserver⟩

/-- An entry of a list at rest is a row of the stock. -/
theorem Lists.find?_of_mem (h : Lists cigarId st) (hidle : st.observer.Idle) (hrow : row ∈ st.humidors) :
    row.cigar.rowid = cigarId ∧
      ∃ r, st.db.cigarHumidorTable.find? (row.humidor.rowid, row.cigar.rowid) = some r ∧ r.count = row.count := by
  obtain ⟨rows, hrows, hfollows⟩ := h
  have haccurate := hfollows.accurate hidle
  rw [hrows] at hrow
  obtain ⟨r, hr, rfl⟩ := List.mem_map.mp hrow
  obtain ⟨hid, hfind⟩ := mem_humidorsRows (haccurate.mem_keys hr)
  obtain ⟨s, -, hs⟩ := hfollows.parts r hr
  have hkey : (r.2.1.rowid, r.2.2.rowid) = r.1.1 :=
    Prod.ext (rowid_of_first (haccurate.first r hr)) (rowid_of_second hs)
  refine ⟨(rowid_of_second hs).trans hid, r.1.2, ?_, rfl⟩
  change st.db.cigarHumidorTable.find? (r.2.1.rowid, r.2.2.rowid) = some r.1.2
  rw [hkey]
  exact hfind

/-- A count change with an entry of a list at rest that gives another count changes the stock. -/
theorem Lists.stock_ne (h : Lists cigarId st) (now : ℤ) (price : Option Double) (hidle : st.observer.Idle)
    (hrow : row ∈ st.humidors) (hcount : row.count ≠ count) :
    (CigarHumidorRepository.counted now row count price st.db).cigarHumidorTable ≠ st.db.cigarHumidorTable := by
  obtain ⟨-, r, hfind, hr⟩ := h.find?_of_mem hidle hrow
  intro hsame
  have hcounted : (CigarHumidorRepository.counted now row count price st.db).cigarHumidorTable.find?
      (row.humidor.rowid, row.cigar.rowid) = some { r with count } := Table.find?_update_self _ hfind
  rw [hsame, hfind] at hcounted
  exact hcount (hr.symm.trans (congrArg CigarHumidorTable.count (Option.some.inj hcounted)))

/-- Nothing is missing for a count change with an entry of a list at rest. -/
theorem Lists.goesThrough (h : Lists cigarId st) (now count : ℤ) (price : Option Double) (hidle : st.observer.Idle)
    (hrow : row ∈ st.humidors) (hcigar : st.db.cigarsTable.contains cigarId = true) :
    (StockOp.updateCount now row count price).GoesThrough st.db := by
  obtain ⟨hid, r, hfind, -⟩ := h.find?_of_mem hidle hrow
  refine ⟨(Table.contains_iff _ _).mpr ⟨r, hfind⟩, ?_⟩
  rw [hid]
  exact hcigar

theorem contains_of_countStates {db' : Database} (h : CountStates now row count price db db') (id : ℤ) :
    db'.cigarsTable.contains id = db.cigarsTable.contains id := by
  rcases h with rfl | rfl | rfl
  · rfl
  · rfl
  · exact Table.contains_update _ _ _ _

/-- At its end the list has been read between the first statement and the last. -/
theorem Counting.emitted (h : Counting cigarId now row count price db st) (hidle : st.observer.Idle)
    (hrunning : st.running = none)
    (hchanged : (CigarHumidorRepository.counted now row count price db).cigarHumidorTable ≠ db.cigarHumidorTable) :
    st.db = CigarHumidorRepository.counted now row count price db ∧
      CigarsDetailsScreenViewModel.EmittedBetween cigarId (CigarHumidorRepository.countedRow row count db) st.db
        st.humidors := by
  obtain ⟨-, hends, rows, hrows, hfollows, hread⟩ := h
  have hdb : st.db = CigarHumidorRepository.counted now row count price db := by
    rcases hends with ⟨-, hdb⟩ | ⟨path, hsome, -⟩
    · exact hdb
    · rw [hrunning] at hsome
      cases hsome
  rw [hdb] at hfollows hread ⊢
  rw [hrows]
  have hparts := (hread.resolve_left hchanged).shown hidle
  exact ⟨rfl, emittedBetween_of_parts ⟨rfl, rfl⟩ (hfollows.accurate hidle) (hparts.mono fun _ h => h.cigarsOf)⟩

end Counting

section Opening
variable {cigarId : ℤ} {db : Database} {st st' : StockSession}

/-- While nobody else is about, everything is read in the state that the screen was opened in. -/
structure Opening (cigarId : ℤ) (db : Database) (st : StockSession) : Prop where
  unchanged : st.db = db
  running : st.running = none
  list : ∃ rows : List HumidorsRow, st.humidors = rows.map HumidorsRow.entry ∧
    Scan.Follows (humidorsRows cigarId) db st.observer rows ∧
    Scan.ReadIn (humidorsRows cigarId) (fun db' => db' = db) st.observer rows

theorem opening_opened (cigarId : ℤ) (db : Database) : Opening cigarId db (opened db) where
  unchanged := rfl
  running := rfl
  list := ⟨[], rfl, Scan.follows_start, Scan.readIn_of_notified rfl⟩

theorem Opening.step {op : Op} (h : Opening cigarId db st) (hinternal : op.Internal) (hstep : Step cigarId st op st') :
    Opening cigarId db st' := by
  obtain ⟨hdb, hrunning, rows, hrows, hfollows, hread⟩ := h
  cases hstep with
  | start _ _ _ => exact hinternal.elim
  | mark _ _ => exact hinternal.elim
  | write _ => exact hinternal.elim
  | statement hsome _ =>
    rw [hrunning] at hsome
    cases hsome
  | finish hsome =>
    rw [hrunning] at hsome
    cases hsome
  | observer hobserver =>
    rw [hdb] at hobserver
    exact ⟨hdb, hrunning, rows, hrows, hfollows.step hobserver, hread.step rfl hobserver⟩
  | delivered hobserver =>
    rw [hdb] at hobserver
    exact ⟨hdb, hrunning, _, rfl, hfollows.deliver hobserver, hread.deliver hobserver⟩

/-- The first list at rest is what the query gives. -/
theorem Opening.emitted (h : Opening cigarId db st) (hidle : st.observer.Idle) :
    CigarsDetailsScreenViewModel.EmittedBetween cigarId db db st.humidors := by
  obtain ⟨-, -, rows, hrows, hfollows, hread⟩ := h
  rw [hrows]
  refine emittedBetween_of_parts ⟨rfl, rfl⟩ (hfollows.accurate hidle) ?_
  exact (hread.shown hidle).mono fun _ h => Or.inl (congrArg Database.cigarsTable h)

end Opening
end StockSession

end Cigars
