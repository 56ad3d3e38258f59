import Cigars.Stock.Runs
import Cigars.Transition.Run

/-! In every state a run reaches, stock rows and history rows name stored humidors and cigars, and all
counts are of type `Long`. -/
namespace Cigars
open Coroutine Sql Transition

structure References (db : Database) : Prop where
  stock : ∀ k r, db.cigarHumidorTable.find? k = some r →
    db.humidorsTable.contains k.1 = true ∧ db.cigarsTable.contains k.2 = true
  history : ∀ id r, db.historyTable.find? id = some r →
    db.humidorsTable.contains r.humidorTo = true ∧ db.humidorsTable.contains r.humidorFrom = true ∧
      ∀ c, r.cigarId = some c → db.cigarsTable.contains c = true

/-- Humidors and cigars stay, and every row that is new names stored ones. -/
theorem References.extend {db db' : Database} (h : References db)
    (humidors : ∀ x, db.humidorsTable.contains x = true → db'.humidorsTable.contains x = true)
    (cigars : ∀ x, db.cigarsTable.contains x = true → db'.cigarsTable.contains x = true)
    (stock : ∀ k r, db'.cigarHumidorTable.find? k = some r → db.cigarHumidorTable.contains k = true ∨
      db'.humidorsTable.contains k.1 = true ∧ db'.cigarsTable.contains k.2 = true)
    (history : ∀ id r, db'.historyTable.find? id = some r → db.historyTable.find? id = some r ∨
      db'.humidorsTable.contains r.humidorTo = true ∧ db'.humidorsTable.contains r.humidorFrom = true ∧
        ∀ c, r.cigarId = some c → db'.cigarsTable.contains c = true) : References db' where
  stock k r hr := by
    rcases stock k r hr with hold | hnew
    · obtain ⟨r₀, hr₀⟩ := (Table.contains_iff _ _).mp hold
      obtain ⟨hh, hc⟩ := h.stock k r₀ hr₀
      exact ⟨humidors _ hh, cigars _ hc⟩
    · exact hnew
  history id r hr := by
    rcases history id r hr with hold | hnew
    · obtain ⟨hto, hfrom, hc⟩ := h.history id r hold
      exact ⟨humidors _ hto, humidors _ hfrom, fun c he => cigars _ (hc c he)⟩
    · exact hnew

/-- The one history row that is new. -/
theorem find?_addHistory {db : Database} {entry : History} {id : ℤ} {r : HistoryTable}
    (h : (db.addHistory entry).historyTable.find? id = some r) :
    db.historyTable.find? id = some r ∨
      r.humidorTo = entry.humidorFrom.rowid ∧ r.humidorFrom = entry.humidorTo.rowid ∧
        r.cigarId = entry.cigar.map Cigar.rowid := by
  have h' := (AutoTable.find?_insert db.historyTable _ id).symm.trans h
  split_ifs at h' with hid
  · right
    cases h'
    exact ⟨rfl, rfl, rfl⟩
  · exact Or.inl h'

theorem contains_of_find?_putInRow [LongReading] {t : Table (ℤ × ℤ) CigarHumidorTable} {key k : ℤ × ℤ} {count : ℤ}
    {r : CigarHumidorTable} (h : (Database.putInRow key count t).find? k = some r) :
    t.contains k = true ∨ k = key := by
  by_cases hk : k = key
  · exact Or.inr hk
  · left
    rw [Database.find?_putInRow_of_ne count t hk] at h
    exact (Table.contains_iff _ _).mpr ⟨r, h⟩

theorem contains_of_find?_takeOut [LongReading] {db : Database} {src : HumidorCigar} {count : ℤ} {k : ℤ × ℤ}
    (h : (db.takeOut src count).cigarHumidorTable.contains k = true) :
    db.cigarHumidorTable.contains k = true := by
  unfold Database.takeOut at h
  split_ifs at h with hpart
  · exact (Table.contains_update _ _ _ _).symm.trans h
  · obtain ⟨r, hr⟩ := (Table.contains_iff _ _).mp h
    have hr' := (Table.find?_erase _ _ _).symm.trans hr
    split_ifs at hr'
    exact (Table.contains_iff _ _).mpr ⟨r, hr'⟩

@[simp] theorem takeOut_historyTable [LongReading] (src : HumidorCigar) (count : ℤ) (db : Database) :
    (db.takeOut src count).historyTable = db.historyTable := by
  unfold Database.takeOut
  split_ifs <;> rfl

/-! ### One write -/

section Writes
variable {db : Database} (h : References db)
include h

/-- An update changes no key of cigars and humidors. -/
theorem references_update {db' : Database}
    (humidors : ∀ x, db'.humidorsTable.contains x = db.humidorsTable.contains x)
    (cigars : ∀ x, db'.cigarsTable.contains x = db.cigarsTable.contains x)
    (stock : ∀ k, db'.cigarHumidorTable.contains k = true → db.cigarHumidorTable.contains k = true)
    (history : ∀ id r, db'.historyTable.find? id = some r → db.historyTable.find? id = some r) :
    References db' :=
  h.extend (fun x hx => (humidors x).trans hx) (fun x hx => (cigars x).trans hx)
    (fun k r hr => Or.inl (stock k ((Table.contains_iff _ _).mpr ⟨r, hr⟩))) fun id r hr => Or.inl (history id r hr)

theorem references_addCigarRow (c : Cigar) : References (db.addCigar c) :=
  h.extend (fun _ hx => hx) (fun _ hx => AutoTable.contains_insert_of_contains _ hx)
    (fun _ r hr => Or.inl ((Table.contains_iff _ _).mpr ⟨r, hr⟩)) fun _ _ hr => Or.inl hr

theorem references_addHumidorRow (entity : Humidor) : References (db.addHumidor entity) :=
  h.extend (fun _ hx => AutoTable.contains_insert_of_contains _ hx) (fun _ hx => hx)
    (fun _ r hr => Or.inl ((Table.contains_iff _ _).mpr ⟨r, hr⟩)) fun _ _ hr => Or.inl hr

theorem references_putIn [LongReading] {humidorId cigarId : ℤ} (count : ℤ)
    (hhumidor : db.humidorsTable.contains humidorId = true)
    (hcigar : db.cigarsTable.contains cigarId = true) : References (db.putIn humidorId cigarId count) := by
  refine h.extend (fun _ hx => hx) (fun _ hx => hx) (fun k r hr => ?_) fun _ _ hr => Or.inl hr
  rcases contains_of_find?_putInRow hr with hold | rfl
  · exact Or.inl hold
  · exact Or.inr ⟨hhumidor, hcigar⟩

theorem references_addHistory {entry : History}
    (hfrom : db.humidorsTable.contains entry.humidorFrom.rowid = true)
    (hto : db.humidorsTable.contains entry.humidorTo.rowid = true)
    (hcigar : ∀ c, entry.cigar = some c → db.cigarsTable.contains c.rowid = true) :
    References (db.addHistory entry) := by
  refine h.extend (fun _ hx => hx) (fun _ hx => hx)
    (fun _ r hr => Or.inl ((Table.contains_iff _ _).mpr ⟨r, hr⟩)) fun id r hr => ?_
  rcases find?_addHistory hr with hold | ⟨hrto, hrfrom, hrcigar⟩
  · exact Or.inl hold
  · right
    rw [hrto, hrfrom, hrcigar]
    refine ⟨hfrom, hto, ?_⟩
    intro c hc
    obtain ⟨cigar, hentry, rfl⟩ := Option.map_eq_some_iff.mp hc
    exact hcigar cigar hentry

theorem references_raiseTotal [LongReading] (humidorId count : ℤ) : References (db.raiseTotal humidorId count) :=
  references_update h (fun _ => Table.contains_update _ _ _ _) (fun _ => rfl) (fun _ hk => hk) fun _ _ hr => hr

theorem references_takeOut [LongReading] (src : HumidorCigar) (count : ℤ) : References (db.takeOut src count) := by
  apply references_update h
  · exact CigarHumidorRepository.takeOut_contains_humidor src count db
  · intro x
    rw [CigarHumidorRepository.takeOut_cigarsTable]
  · intro k hk
    exact contains_of_find?_takeOut hk
  · intro id r hr
    rw [takeOut_historyTable] at hr
    exact hr

end Writes

/-! ### One operation -/

section Steps
variable {db : Database} (h : References db)
include h

theorem references_addHumidor (now : ℤ) (entity : Humidor) :
    References (HumidorsRepository.added now entity db) := by
  have hnew : (db.addHumidor entity).humidorsTable.contains db.humidorsTable.nextRowid = true :=
    (Table.contains_iff _ _).mpr ⟨_, AutoTable.find?_insert_nextRowid _ _⟩
  apply references_addHistory (references_addHumidorRow h entity) hnew hnew
  intro c hc
  cases hc

theorem references_addCigar [LongReading] (now : ℤ) {cigar : Cigar} {humidor : Humidor}
    (hgo : CigarsRepository.AddGoesThrough cigar humidor db) :
    References (CigarsRepository.added now cigar humidor db) := by
  have hnew : (db.addCigar cigar).cigarsTable.contains db.cigarsTable.nextRowid = true :=
    (Table.contains_iff _ _).mpr ⟨_, AutoTable.find?_insert_nextRowid _ _⟩
  have hstock := references_putIn (references_addCigarRow h cigar) cigar.count hgo.target hnew
  apply references_raiseTotal
  apply references_addHistory hstock
  · exact hgo.target
  · exact hgo.target
  · intro c hc
    cases hc
    exact hnew

theorem references_updateCount [LongReading] (now : ℤ) {entity : HumidorCigar} (count : ℤ) (price : Option Double)
    (hrow : db.cigarHumidorTable.contains (entity.humidor.rowid, entity.cigar.rowid) = true) :
    References (CigarHumidorRepository.counted now entity count price db) := by
  obtain ⟨r, hr⟩ := (Table.contains_iff _ _).mp hrow
  obtain ⟨hhumidor, hcigar⟩ := h.stock _ _ hr
  have hcounted : References (CigarHumidorRepository.countedRow entity count db) :=
    references_update h (fun _ => rfl) (fun _ => rfl)
      (fun k hk => (Table.contains_update _ _ _ _).symm.trans hk) fun _ _ hr => hr
  have hentry : References ((CigarHumidorRepository.countedRow entity count db).addHistory
      (CigarHumidorRepository.updateCountEntry now entity count price)) := by
    apply references_addHistory hcounted
    · exact hhumidor
    · exact hhumidor
    · intro c hc
      cases hc
      exact hcigar
  exact references_update hentry (fun _ => rfl) (fun _ => Table.contains_update _ _ _ _) (fun _ hk => hk)
    fun _ _ hr => hr

theorem references_moveCigar [LongReading] (now : ℤ) {src : HumidorCigar} {dst : Humidor} {count : ℤ}
    (hgo : CigarHumidorRepository.MoveGoesThrough src dst count db) :
    References (CigarHumidorRepository.moved now src dst count db) := by
  obtain ⟨r, hr⟩ := (Table.contains_iff _ _).mp hgo.source
  obtain ⟨hhumidor, hcigar⟩ := h.stock _ _ hr
  have hhumidors := CigarHumidorRepository.takeOut_contains_humidor src count db
  have hcigars : (db.takeOut src count).cigarsTable.contains src.cigar.rowid = true := by
    rw [CigarHumidorRepository.takeOut_cigarsTable]
    exact hcigar
  have hstock := references_putIn (references_takeOut h src count) count ((hhumidors _).trans hgo.target) hcigars
  apply references_addHistory (references_raiseTotal hstock dst.rowid count)
  · exact (Table.contains_update _ _ _ _).trans ((hhumidors _).trans hhumidor)
  · exact (Table.contains_update _ _ _ _).trans ((hhumidors _).trans hgo.target)
  · intro c hc
    cases hc
    exact hcigars

end Steps

theorem references_empty (c h y i : ℤ) : References (Database.empty c h y i) where
  stock := by
    intro k r hr
    cases hr
  history := by
    intro id r hr
    cases hr

theorem references_outcome [LongReading] {db : Database} (h : References db) {op : StockOp} (hgo : op.GoesThrough db) :
    References (op.outcome db) := by
  cases op with
  | addHumidor now entity => exact references_addHumidor h now entity
  | addCigar now cigar humidor => exact references_addCigar h now hgo
  | updateCount now entity count price => exact references_updateCount h now count price hgo.1
  | moveCigar now src dst count => exact references_moveCigar h now hgo

/-! ### Counts -/

section Counts
variable [LongReading]

structure LongCounts (db : Database) : Prop where
  stock : db.cigarHumidorTable.All fun r => IsLong r.count
  humidors : db.humidorsTable.All fun r => IsLong r.count
  cigars : db.cigarsTable.All fun r => IsLong r.count

theorem longCounts_empty (c h y i : ℤ) : LongCounts (Database.empty c h y i) where
  stock := by
    intro k r hr
    cases hr
  humidors := by
    intro id r hr
    cases hr
  cigars := by
    intro id r hr
    cases hr

theorem all_putInRow {t : Table (ℤ × ℤ) CigarHumidorTable} (h : t.All fun r => IsLong r.count) (key : ℤ × ℤ)
    {count : ℤ} (hcount : IsLong count) : (Database.putInRow key count t).All fun r => IsLong r.count := by
  unfold Database.putInRow
  cases hr : t.find? key with
  | some r => exact h.update key fun _ _ => isLong_long _
  | none =>
    obtain ⟨t', ht⟩ := Table.exists_insert?_of_find?_none
      (⟨HumidorCigarsDatabase.nextRowid t, count⟩ : CigarHumidorTable) hr
    simp only [ht, Option.getD_some]
    exact h.of_insert? ht hcount

/-- The entity of an up-to-date row has a count of type `Long`. -/
theorem UpToDate.isLong {db : Database} {entity : HumidorCigar} (h : UpToDate db entity) (counts : LongCounts db) :
    IsLong entity.count := by
  obtain ⟨row, -, -, hrow, hcount, -⟩ := h.rows
  exact hcount ▸ counts.stock _ _ hrow

theorem LongCounts.isLong_stock {db : Database} (counts : LongCounts db) (h c : ℤ) : IsLong (db.stock h c) := by
  unfold Database.stock
  cases hrow : db.cigarHumidorTable.find? (h, c) with
  | none => exact isLong_zero
  | some row => exact counts.stock _ _ hrow

theorem longCounts_takeOut {db : Database} (counts : LongCounts db) (src : HumidorCigar) (count : ℤ) :
    LongCounts (db.takeOut src count) := by
  unfold Database.takeOut
  split_ifs
  · exact ⟨counts.stock.update _ fun _ _ => isLong_long _, counts.humidors.update _ fun _ _ => isLong_long _,
      counts.cigars⟩
  · exact ⟨counts.stock.erase _, counts.humidors, counts.cigars⟩

/-- The counts that an operation writes are `Long`s. -/
def StockOp.HasLongs : StockOp → Prop
  | addHumidor _ entity => IsLong entity.count
  | addCigar _ cigar _ => IsLong cigar.count
  | updateCount _ _ count _ => IsLong count
  | moveCigar _ _ _ count => IsLong count

theorem StockOp.Legal.hasLongs {db : Database} {op : StockOp} (legal : op.Legal db) (counts : LongCounts db) :
    op.HasLongs := by
  cases op with
  | addHumidor now entity => exact legal
  | addCigar now cigar humidor => exact legal.2
  | updateCount now entity count price => exact legal.2
  | moveCigar now src dst count =>
    obtain ⟨hup, -, hpos, hle⟩ := legal
    exact (hup.isLong counts).of_le hpos.le hle

theorem longCounts_outcome {db : Database} (counts : LongCounts db) {op : StockOp} (hlongs : op.HasLongs) :
    LongCounts (op.outcome db) := by
  cases op with
  | addHumidor now entity => exact ⟨counts.stock, AutoTable.all_insert counts.humidors hlongs, counts.cigars⟩
  | addCigar now cigar humidor =>
    exact ⟨all_putInRow counts.stock _ hlongs, counts.humidors.update _ fun _ _ => isLong_long _,
      AutoTable.all_insert counts.cigars hlongs⟩
  | updateCount now entity count price =>
    exact ⟨counts.stock.update _ fun _ _ => hlongs, counts.humidors, counts.cigars.update _ fun _ _ => hlongs⟩
  | moveCigar now src dst count =>
    have hout := longCounts_takeOut counts src count
    exact ⟨all_putInRow hout.stock _ hlongs, hout.humidors.update _ fun _ _ => isLong_long _, hout.cigars⟩

end Counts

/-! ### Runs -/

/-- What holds in every state a run reaches. -/
structure StockInvariant [LongReading] (db : Database) : Prop where
  references : References db
  counts : LongCounts db

section Runs
variable [LongReading] {c h y i : ℤ} {trace : List (Database × StockOp)} {db db' : Database} {op : StockOp}

theorem stockInvariant_empty (c h y i : ℤ) : StockInvariant (Database.empty c h y i) :=
  ⟨references_empty c h y i, longCounts_empty c h y i⟩

theorem StockInvariant.step (inv : StockInvariant db) (hstep : op.Step db db') : StockInvariant db' := by
  obtain ⟨legal, hgo, rfl⟩ := (StockOp.step_iff _ _ _).mp hstep
  exact ⟨references_outcome inv.references hgo, longCounts_outcome inv.counts (legal.hasLongs inv.counts)⟩

theorem stockInvariant_of_run (run : Run StockOp.Step (Database.empty c h y i) trace db) : StockInvariant db :=
  run.invariant (stockInvariant_empty c h y i) fun _ _ _ inv hstep => inv.step hstep

/-- Operations that can be performed one after the other make a run. -/
theorem StockOp.run_performed (ops : List StockOp)
    (hops : (replay StockOp.perform [] (Database.empty c h y i) ops).isSome = true) :
    Run StockOp.Step (Database.empty c h y i) ((replay StockOp.perform [] (Database.empty c h y i) ops).get hops).1
      ((replay StockOp.perform [] (Database.empty c h y i) ops).get hops).2 :=
  Run.performed (fun _ _ _ => StockOp.step_of_perform) ops hops

end Runs
end Cigars
