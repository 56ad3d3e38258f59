import Cigars.Stock.Moves

/-! The remainder an entry of the history records: the cigars of its kind that the call leaves in the
humidor it is about. -/
namespace Cigars
open Coroutine Sql

/-- A row of the history whose humidors and cigar are stored can be read. -/
theorem exists_history {db : Database} {id cigarId : ℤ} {row : HistoryTable}
    (hrow : db.historyTable.find? id = some row) (hid : row.cigarId = some cigarId)
    (hto : db.humidorsTable.contains row.humidorTo = true)
    (hfrom : db.humidorsTable.contains row.humidorFrom = true)
    (hcigar : db.cigarsTable.contains cigarId = true) :
    ∃ entry, historyTableQueries.get id none db = .ok entry := by
  obtain ⟨humTo, hto⟩ := (Table.contains_iff _ _).mp hto
  obtain ⟨humFrom, hfrom⟩ := (Table.contains_iff _ _).mp hfrom
  obtain ⟨cigar, hcigar⟩ := (Table.contains_iff _ _).mp hcigar
  rw [historyGet_of_find? hrow]
  unfold historyFactory
  rw [getHumidor_of_find? hto, getHumidor_of_find? hfrom, hid]
  simp only [getCigar_of_find? hcigar]
  exact ⟨_, rfl⟩

/-- One entry more, and the entry can be read and records what is left. -/
def RecordsRemainder (db db' : Database) : Prop :=
  ∃ id row entry cigar, db'.historyTable.rows = db.historyTable.rows ++ [(id, row)] ∧
    historyTableQueries.get id none db' = .ok entry ∧ entry.cigar = some cigar ∧
    entry.left = db'.stock entry.humidorFrom.rowid cigar.rowid

/-- What the entry says is what the row says, the humidors the other way round. -/
theorem recordsRemainder_iff {db db' : Database} {row : HistoryTable} {cigarId : ℤ}
    (htable : db'.historyTable = db.historyTable.insert row) (hid : row.cigarId = some cigarId)
    (hto : db'.humidorsTable.contains row.humidorTo = true)
    (hfrom : db'.humidorsTable.contains row.humidorFrom = true)
    (hcigar : db'.cigarsTable.contains cigarId = true) :
    RecordsRemainder db db' ↔ row.left = db'.stock row.humidorTo cigarId := by
  have hrow : db'.historyTable.find? db.historyTable.nextRowid = some row := by
    rw [htable, AutoTable.find?_insert_nextRowid]
  have hget := historyGet_of_find? hrow
  obtain ⟨entry, hentry⟩ := exists_history hrow hid hto hfrom hcigar
  obtain ⟨humTo, humFrom, cigar, hhumTo, -, hcigarId, heq⟩ := entry_of_historyFactory (hget ▸ hentry)
  rw [hid, Option.map_eq_some_iff] at hcigarId
  obtain ⟨c, hc, hcid⟩ := hcigarId
  constructor
  · rintro ⟨id, row', entry', cigar', hrows, hentry', hcigar', hleft⟩
    rw [htable, AutoTable.rows_insert, List.append_cancel_left_eq, List.singleton_inj, Prod.mk.injEq] at hrows
    rw [← hrows.1, hentry, Except.ok.injEq] at hentry'
    rw [← hentry', heq] at hcigar' hleft
    rw [hc] at hcigar'
    cases hcigar'
    rw [← hhumTo, ← hcid]
    exact hleft
  · intro hleft
    refine ⟨_, row, entry, c, ?_, hentry, ?_, ?_⟩
    · rw [htable, AutoTable.rows_insert]
    · rw [heq]
      exact hc
    · rw [heq, hcid]
      rw [← hhumTo] at hleft
      exact hleft

/-! ### The three calls -/

namespace StockOp

/-- The calls about cigars. -/
def OfCigars : StockOp → Prop
  | addHumidor _ _ => False
  | _ => True

/-- A move takes half of the cigars. -/
def Halves : StockOp → Prop
  | moveCigar _ src _ count => src.count = 2 * count
  | _ => True

instance : (op : StockOp) → Decidable op.Halves
  | addHumidor _ _ => isTrue trivial
  | addCigar _ _ _ => isTrue trivial
  | updateCount _ _ _ _ => isTrue trivial
  | moveCigar _ src _ count => inferInstanceAs (Decidable (src.count = 2 * count))

end StockOp

section Calls
variable {db : Database} {now count : ℤ}

theorem recordsRemainder_added {cigar : Cigar} {humidor : Humidor}
    (h : CigarsRepository.AddGoesThrough cigar humidor db) (hlong : IsLong cigar.count) :
    RecordsRemainder db (CigarsRepository.added now cigar humidor db) := by
  have hhumidor : (CigarsRepository.added now cigar humidor db).humidorsTable.contains humidor.rowid = true :=
    (Table.contains_update _ _ _ _).trans h.target
  have hcigar : (CigarsRepository.added now cigar humidor db).cigarsTable.contains db.cigarsTable.nextRowid = true :=
    (Table.contains_iff _ _).mpr ⟨cigar.columns, AutoTable.find?_insert_nextRowid db.cigarsTable cigar.columns⟩
  have htable : (CigarsRepository.added now cigar humidor db).historyTable = db.historyTable.insert
      ⟨cigar.count, now, cigar.count, bindReal cigar.price, HistoryType.addition.type, some db.cigarsTable.nextRowid,
        humidor.rowid, humidor.rowid⟩ := rfl
  rw [recordsRemainder_iff htable rfl hhumidor hhumidor hcigar]
  obtain ⟨r, hr, hcount⟩ := Database.find?_putInRow_self (humidor.rowid, db.cigarsTable.nextRowid) hlong
    db.cigarHumidorTable
  have hfind : (CigarsRepository.added now cigar humidor db).cigarHumidorTable.find?
      (humidor.rowid, db.cigarsTable.nextRowid) = some r := hr
  rw [h.free] at hcount
  unfold Database.stock
  rw [hfind, Option.map_some, Option.getD_some, hcount, Option.map_none, Option.getD_none, zero_add, hlong.long_eq]

theorem recordsRemainder_counted {entity : HumidorCigar} {price : Option Double} (h : UpToDate db entity) :
    RecordsRemainder db (CigarHumidorRepository.counted now entity count price db) := by
  obtain ⟨row, humidor, cigar, hrow, -, hhumidor, -, hcigar, -⟩ := h.rows
  have hhumidor' : (CigarHumidorRepository.counted now entity count price db).humidorsTable.contains
      entity.humidor.rowid = true := (Table.contains_iff _ _).mpr ⟨humidor, hhumidor⟩
  have hcigar' : (CigarHumidorRepository.counted now entity count price db).cigarsTable.contains
      entity.cigar.rowid = true :=
    (Table.contains_update _ _ _ _).trans ((Table.contains_iff _ _).mpr ⟨cigar, hcigar⟩)
  have htable : (CigarHumidorRepository.counted now entity count price db).historyTable = db.historyTable.insert
      ⟨long |long (entity.count - count)|, now, count, bindReal price,
        (if long (entity.count - count) < 0 then HistoryType.addition else .deletion).type, some entity.cigar.rowid,
        entity.humidor.rowid, entity.humidor.rowid⟩ := rfl
  rw [recordsRemainder_iff htable rfl hhumidor' hhumidor' hcigar']
  have hfind : (CigarHumidorRepository.counted now entity count price db).cigarHumidorTable.find?
      (entity.humidor.rowid, entity.cigar.rowid) = some { row with count } := Table.find?_update_self _ hrow
  unfold Database.stock
  rw [hfind, Option.map_some, Option.getD_some]

/-- A move records what it takes away. -/
theorem recordsRemainder_moved {src : HumidorCigar} {dst : Humidor} (hsrc : UpToDate db src)
    (hlong : IsLong src.count) (hdst : db.humidorsTable.contains dst.rowid = true)
    (hother : dst.rowid ≠ src.humidor.rowid) (hpos : 0 < count) (hle : count ≤ src.count) :
    RecordsRemainder db (CigarHumidorRepository.moved now src dst count db) ↔ src.count = 2 * count := by
  obtain ⟨row, humidor, cigar, hrow, -, hhumidor, -, hcigar, -⟩ := hsrc.rows
  have htable : (CigarHumidorRepository.moved now src dst count db).historyTable = db.historyTable.insert
      ⟨count, now, count, bindReal src.cigar.price, HistoryType.move.type, some src.cigar.rowid, src.humidor.rowid,
        dst.rowid⟩ := by
    change AutoTable.insert (db.takeOut src count).historyTable _ = _
    rw [takeOut_historyTable]
    rfl
  have hhumidors (id : ℤ) : (CigarHumidorRepository.moved now src dst count db).humidorsTable.contains id =
      db.humidorsTable.contains id :=
    (Table.contains_update _ _ _ _).trans (CigarHumidorRepository.takeOut_contains_humidor src count db id)
  have hfrom : (CigarHumidorRepository.moved now src dst count db).humidorsTable.contains src.humidor.rowid = true :=
    (hhumidors _).trans ((Table.contains_iff _ _).mpr ⟨humidor, hhumidor⟩)
  have hcigar' : (CigarHumidorRepository.moved now src dst count db).cigarsTable.contains src.cigar.rowid = true := by
    change (db.takeOut src count).cigarsTable.contains _ = true
    rw [CigarHumidorRepository.takeOut_cigarsTable]
    exact (Table.contains_iff _ _).mpr ⟨cigar, hcigar⟩
  rw [recordsRemainder_iff htable rfl hfrom ((hhumidors _).trans hdst) hcigar']
  have hkeys : ((src.humidor.rowid, src.cigar.rowid) : ℤ × ℤ) ≠ (dst.rowid, src.cigar.rowid) :=
    fun he => hother (congrArg Prod.fst he).symm
  have hstock : (CigarHumidorRepository.moved now src dst count db).stock src.humidor.rowid src.cigar.rowid =
      src.count - count := by
    have hfind : (CigarHumidorRepository.moved now src dst count db).cigarHumidorTable.find?
        (src.humidor.rowid, src.cigar.rowid) = _ :=
      (Database.find?_putInRow_of_ne count (db.takeOut src count).cigarHumidorTable hkeys).trans
        (Database.find?_takeOut_self hlong hpos.le hle)
    unfold Database.stock
    rw [hfind, hrow]
    by_cases hall : count = src.count
    · rw [if_pos hall, hall, sub_self]
      rfl
    · rw [if_neg hall]
      rfl
  rw [hstock]
  show count = src.count - count ↔ _
  omega

end Calls

/-- The entry a call appends records the cigars left behind, except that a move records the cigars it
moves: the two agree only when it moves half of them. -/
theorem recordsRemainder_iff_halves {db db' : Database} {op : StockOp} (hkind : op.OfCigars) (hlegal : op.Legal db)
    (hcounts : LongCounts db) (hdone : op.Completes db db') : RecordsRemainder db db' ↔ op.Halves := by
  obtain ⟨hgo, rfl⟩ := (StockOp.completes_iff _ _ _).mp hdone
  cases op with
  | addHumidor now entity => exact hkind.elim
  | addCigar now cigar humidor => exact iff_of_true (recordsRemainder_added hgo hlegal.2) trivial
  | updateCount now entity count price => exact iff_of_true (recordsRemainder_counted hlegal.1) trivial
  | moveCigar now src dst count =>
    obtain ⟨hsrc, hother, hpos, hle⟩ := hlegal
    exact recordsRemainder_moved hsrc (hsrc.isLong hcounts) hgo.target hother hpos hle

/-- Five of the ten cigars are moved. -/
theorem recordsRemainder_half : ∃ db', (StockOp.moveCigar 0 tenCigarsRow
    { emptyHumidor with rowid := 2, name := "B" } 5).Completes tenCigarsStored db' ∧
    RecordsRemainder tenCigarsStored db' := by
  let op := StockOp.moveCigar 0 tenCigarsRow { emptyHumidor with rowid := 2, name := "B" } 5
  have hkind : op.OfCigars := trivial
  have hdone : op.Completes tenCigarsStored (op.outcome tenCigarsStored) :=
    StockOp.completes_of_goesThrough (by decide)
  have hsome : (Transition.replay StockOp.perform [] (Database.empty 0 0 0 0) tenCigars).isSome = true := by decide
  have hcounts : LongCounts tenCigarsStored := (stockInvariant_of_run (StockOp.run_performed tenCigars hsome)).counts
  exact ⟨_, hdone, (recordsRemainder_iff_halves hkind (by decide) hcounts hdone).mpr (by decide)⟩

/-- Three of the ten cigars are moved: the entry says that three are left, and there are seven. -/
theorem not_recordsRemainder_three : ∃ db', (StockOp.moveCigar 0 tenCigarsRow
    { emptyHumidor with rowid := 2, name := "B" } 3).Completes tenCigarsStored db' ∧ db'.stock 1 1 = 7 ∧
    (db'.historyTable.rows.getLast?.map fun r => r.2.left) = some 3 ∧ ¬ RecordsRemainder tenCigarsStored db' := by
  refine ⟨_, StockOp.completes_of_goesThrough (by decide), by decide, by decide, fun h => ?_⟩
  have hsrc : UpToDate tenCigarsStored tenCigarsRow := by decide
  have hhalf := (recordsRemainder_moved hsrc (by decide) (by decide) (by decide) (by decide) (by decide)).mp h
  exact absurd hhalf (by decide)

end Cigars
