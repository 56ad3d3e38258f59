import Cigars.Stock.References
import Cigars.Stock.Totals

/-! What a completed move has done, row by row: the two rows it is about, every other row, and the
entry it leaves in the history. -/
namespace Cigars
open Coroutine Sql

/-! ### The two rows -/

namespace Database
variable {db : Database} {src : HumidorCigar} {count : ℤ} {key : ℤ × ℤ}

theorem find?_putInRow_self (key : ℤ × ℤ) {count : ℤ} (hcount : IsLong count)
    (t : Table (ℤ × ℤ) CigarHumidorTable) :
    ∃ r, (putInRow key count t).find? key = some r ∧
      r.count = long (((t.find? key).map CigarHumidorTable.count).getD 0 + count) := by
  unfold putInRow
  cases hr : t.find? key with
  | some r => exact ⟨_, Table.find?_update_self _ hr, rfl⟩
  | none =>
    obtain ⟨t', ht⟩ := Table.exists_insert?_of_find?_none
      (⟨HumidorCigarsDatabase.nextRowid t, count⟩ : CigarHumidorTable) hr
    simp only [ht, Option.getD_some]
    refine ⟨_, by rw [Table.find?_of_insert? ht, if_pos rfl], ?_⟩
    simp [hcount.long_eq]

theorem find?_takeOut_of_ne (h : key ≠ (src.humidor.rowid, src.cigar.rowid)) :
    (db.takeOut src count).cigarHumidorTable.find? key = db.cigarHumidorTable.find? key := by
  unfold takeOut
  split_ifs
  · exact Table.find?_update_of_ne _ h
  · change (Table.erase _ _).find? key = _
    rw [Table.find?_erase, if_neg h]

theorem find?_takeOut_self (hlong : IsLong src.count) (hnonneg : 0 ≤ count) (hle : count ≤ src.count) :
    (db.takeOut src count).cigarHumidorTable.find? (src.humidor.rowid, src.cigar.rowid) =
      if count = src.count then none
      else (db.cigarHumidorTable.find? (src.humidor.rowid, src.cigar.rowid)).map fun r =>
        { r with count := src.count - count } := by
  unfold takeOut
  by_cases hall : count = src.count
  · rw [if_neg (by omega), if_pos hall]
    change (Table.erase _ _).find? _ = _
    rw [Table.find?_erase, if_pos rfl]
  · rw [if_pos (by omega), if_neg hall]
    change (Table.update _ _ _).find? _ = _
    have hleft : long (src.count - count) = src.count - count := (hlong.of_le (by omega) (by omega)).long_eq
    rw [Table.find?_update, if_pos rfl, hleft]
    rfl

/-- What the rows say after `count` cigars are taken out. -/
theorem stock_takeOut (hup : UpToDate db src) (hlong : IsLong src.count) (hnonneg : 0 ≤ count)
    (hle : count ≤ src.count) (h c : ℤ) : (db.takeOut src count).stock h c =
      if (src.humidor.rowid, src.cigar.rowid) = (h, c) then src.count - count else db.stock h c := by
  obtain ⟨row, -, -, hrow, -⟩ := hup.rows
  unfold stock
  split_ifs with hkey
  · rw [← hkey, find?_takeOut_self hlong hnonneg hle, hrow]
    split_ifs with hall
    · rw [hall, sub_self]
      rfl
    · rfl
  · rw [find?_takeOut_of_ne (Ne.symm hkey)]

theorem stock_putIn (h' c' : ℤ) (hcount : IsLong count) (db : Database) (h c : ℤ) :
    (db.putIn h' c' count).stock h c =
      if (h', c') = (h, c) then long (db.stock h c + count) else db.stock h c := by
  unfold stock
  split_ifs with hkey
  · obtain ⟨r, hr, hrcount⟩ := find?_putInRow_self (h', c') hcount db.cigarHumidorTable
    change (((putInRow (h', c') count db.cigarHumidorTable).find? (h, c)).map CigarHumidorTable.count).getD 0 = _
    rw [← hkey, hr, Option.map_some, Option.getD_some, hrcount]
  · change (((putInRow (h', c') count db.cigarHumidorTable).find? (h, c)).map CigarHumidorTable.count).getD 0 = _
    rw [find?_putInRow_of_ne _ _ (Ne.symm hkey)]

@[simp] theorem takeOut_imagesTable (src : HumidorCigar) (count : ℤ) (db : Database) :
    (db.takeOut src count).imagesTable = db.imagesTable := by
  unfold takeOut
  split_ifs
  · rfl
  · rfl

/-- The total of the humidor moved from, as a partial move writes it. -/
theorem humidor_takeOut_self (h : UpToDate db src) (count : ℤ) :
    (db.takeOut src count).getHumidor src.humidor.rowid = .ok { src.humidor with
      count := if count < src.count then long (src.humidor.count - count) else src.humidor.count } := by
  obtain ⟨-, humidor, -, -, -, hhumidor, heq, -⟩ := h.rows
  unfold takeOut
  split_ifs with hpart
  · have hfind : (HumidorCigarsDatabase.update (long (src.count - count)) src.humidor.rowid src.cigar.rowid
        (HumidorsDatabase.updateCigarsCount (long (src.humidor.count - count)) src.humidor.rowid
          db)).humidorsTable.find? src.humidor.rowid =
            some { humidor with count := long (src.humidor.count - count) } :=
      Table.find?_update_self _ hhumidor
    rw [getHumidor_of_find? hfind]
    apply congrArg Except.ok
    rw [heq]
    rfl
  · have hfind : (HumidorCigarsDatabase.remove src.humidor.rowid src.cigar.rowid db).humidorsTable.find?
        src.humidor.rowid = some humidor := hhumidor
    rw [getHumidor_of_find? hfind]
    exact congrArg Except.ok heq.symm

end Database

/-! ### The move -/

/-- The humidor as it is stored. -/
def StoredHumidor (db : Database) (humidor : Humidor) : Prop := db.getHumidor humidor.rowid = .ok humidor

/-- The move has been made and nothing else has been changed. The entry is read back with the
humidors as they are then stored, that is, with the totals the move has written. -/
structure MoveDone (src : HumidorCigar) (dst : Humidor) (count : ℤ) (db db' : Database) : Prop where
  source : db'.cigarHumidorTable.find? (src.humidor.rowid, src.cigar.rowid) =
    if count = src.count then none
    else (db.cigarHumidorTable.find? (src.humidor.rowid, src.cigar.rowid)).map fun r =>
      { r with count := src.count - count }
  target : ∃ r, db'.cigarHumidorTable.find? (dst.rowid, src.cigar.rowid) = some r ∧
    r.count = long (db.stock dst.rowid src.cigar.rowid + count)
  otherRows : ∀ key, key ≠ (src.humidor.rowid, src.cigar.rowid) → key ≠ (dst.rowid, src.cigar.rowid) →
    db'.cigarHumidorTable.find? key = db.cigarHumidorTable.find? key
  cigarsTable : db'.cigarsTable = db.cigarsTable
  imagesTable : db'.imagesTable = db.imagesTable
  history : ∃ id row e, db'.historyTable.rows = db.historyTable.rows ++ [(id, row)] ∧
    historyTableQueries.get id none db' = .ok e ∧ e.rowid = id ∧ e.type = .move ∧ e.count = count ∧
    e.cigar = some src.cigar ∧
    e.humidorFrom = { src.humidor with
      count := if count < src.count then long (src.humidor.count - count) else src.humidor.count } ∧
    e.humidorTo = { dst with count := long (dst.count + count) }

section Moved
variable {db : Database} {src : HumidorCigar} {dst : Humidor} {count : ℤ}

theorem getHumidor_raiseTotal_of_ne {id : ℤ} (h : id ≠ dst.rowid) :
    (db.raiseTotal dst.rowid count).getHumidor id = db.getHumidor id := by
  unfold Database.getHumidor Database.raiseTotal
  rw [AutoTable.toTable_update, Table.find?_update_of_ne _ h]

theorem getHumidor_raiseTotal_self (h : StoredHumidor db dst) :
    (db.raiseTotal dst.rowid count).getHumidor dst.rowid = .ok { dst with count := long (dst.count + count) } := by
  unfold StoredHumidor Database.getHumidor at h
  unfold Database.getHumidor Database.raiseTotal
  cases hfind : db.humidorsTable.find? dst.rowid with
  | none =>
    rw [hfind] at h
    cases h
  | some r =>
    rw [hfind] at h
    have hdst : humidorFactory dst.rowid r = dst := Except.ok.inj h
    rw [AutoTable.toTable_update, Table.find?_update_self _ hfind, ← hdst]
    rfl

theorem storedHumidor_takeOut (hdst : StoredHumidor db dst) (hother : dst.rowid ≠ src.humidor.rowid) :
    StoredHumidor (db.takeOut src count) dst := by
  have hsame : (db.takeOut src count).humidorsTable.find? dst.rowid = db.humidorsTable.find? dst.rowid := by
    unfold Database.takeOut
    split_ifs
    · exact Table.find?_update_of_ne _ hother
    · rfl
  unfold StoredHumidor Database.getHumidor at hdst ⊢
  rw [hsame]
  exact hdst

/-- The entry of the move is read back with its humidors the right way round. -/
theorem history_moved (now count : ℤ) (hup : UpToDate db src) (hdst : StoredHumidor db dst)
    (hother : dst.rowid ≠ src.humidor.rowid) :
    ∃ e, historyTableQueries.get db.historyTable.nextRowid none
        (CigarHumidorRepository.moved now src dst count db) = .ok e ∧
      e.rowid = db.historyTable.nextRowid ∧ e.type = .move ∧ e.count = count ∧ e.cigar = some src.cigar ∧
      e.humidorFrom = { src.humidor with
        count := if count < src.count then long (src.humidor.count - count) else src.humidor.count } ∧
      e.humidorTo = { dst with count := long (dst.count + count) } := by
  obtain ⟨-, -, cigar, -, -, -, -, hcigar, hcigarEq⟩ := hup.rows
  let row : HistoryTable := ⟨count, now, count, bindReal src.cigar.price, HistoryType.move.type, some src.cigar.rowid,
    src.humidor.rowid, dst.rowid⟩
  let db' := CigarHumidorRepository.moved now src dst count db
  have hrow : db'.historyTable.find? db.historyTable.nextRowid = some row := by
    have htable : db'.historyTable = (db.takeOut src count).historyTable.insert row := rfl
    rw [htable, takeOut_historyTable, AutoTable.find?_insert_nextRowid]
  have hfrom : db'.getHumidor src.humidor.rowid = .ok { src.humidor with
      count := if count < src.count then long (src.humidor.count - count) else src.humidor.count } := by
    rw [← Database.humidor_takeOut_self hup count]
    exact getHumidor_raiseTotal_of_ne hother.symm
  have hto : db'.getHumidor dst.rowid = .ok { dst with count := long (dst.count + count) } := by
    have hstored : StoredHumidor (db.takeOut src count) dst := storedHumidor_takeOut hdst hother
    exact getHumidor_raiseTotal_self hstored
  have hcigar' : db'.getCigar src.cigar.rowid = .ok src.cigar := by
    have htable : db'.cigarsTable = db.cigarsTable := CigarHumidorRepository.takeOut_cigarsTable src count db
    unfold Database.getCigar
    rw [htable, hcigar]
    exact congrArg Except.ok hcigarEq.symm
  have hget := historyGet_of_find? hrow
  have hread : historyFactory db' db.historyTable.nextRowid row = .ok
      ⟨db.historyTable.nextRowid, count, now, count, readReal (bindReal src.cigar.price), .move, some src.cigar,
        { src.humidor with
          count := if count < src.count then long (src.humidor.count - count) else src.humidor.count },
        { dst with count := long (dst.count + count) }⟩ := by
    have hunfold : historyFactory db' db.historyTable.nextRowid row = (do
        let humTo ← db'.getHumidor src.humidor.rowid
        let humFrom ← db'.getHumidor dst.rowid
        let cigar ← some <$> db'.getCigar src.cigar.rowid
        return ⟨db.historyTable.nextRowid, count, now, count, readReal (bindReal src.cigar.price), .move, cigar, humTo,
          humFrom⟩) := rfl
    rw [hunfold, hfrom, hto, hcigar']
    rfl
  exact ⟨_, hget.trans hread, rfl, rfl, rfl, rfl, rfl, rfl⟩

theorem moveDone_moved (now : ℤ) (hup : UpToDate db src) (hlong : IsLong src.count) (hdst : StoredHumidor db dst)
    (hother : dst.rowid ≠ src.humidor.rowid) (hpos : 0 < count) (hle : count ≤ src.count) :
    MoveDone src dst count db (CigarHumidorRepository.moved now src dst count db) := by
  have hkeys : ((src.humidor.rowid, src.cigar.rowid) : ℤ × ℤ) ≠ (dst.rowid, src.cigar.rowid) :=
    fun he => hother (congrArg Prod.fst he).symm
  have htable : (CigarHumidorRepository.moved now src dst count db).cigarHumidorTable =
      Database.putInRow (dst.rowid, src.cigar.rowid) count (db.takeOut src count).cigarHumidorTable := rfl
  constructor
  · rw [htable, Database.find?_putInRow_of_ne _ _ hkeys, Database.find?_takeOut_self hlong hpos.le hle]
  · obtain ⟨r, hr, hcount⟩ := Database.find?_putInRow_self (dst.rowid, src.cigar.rowid) (hlong.of_le hpos.le hle)
      (db.takeOut src count).cigarHumidorTable
    rw [Database.find?_takeOut_of_ne hkeys.symm] at hcount
    exact ⟨r, hr, hcount⟩
  · intro key hsrc htarget
    rw [htable, Database.find?_putInRow_of_ne _ _ htarget, Database.find?_takeOut_of_ne hsrc]
  · exact CigarHumidorRepository.takeOut_cigarsTable src count db
  · exact Database.takeOut_imagesTable src count db
  · obtain ⟨e, he⟩ := history_moved now count hup hdst hother
    refine ⟨_, ?_, e, ?_, he⟩
    · exact ⟨count, now, count, bindReal src.cigar.price, HistoryType.move.type, some src.cigar.rowid,
        src.humidor.rowid, dst.rowid⟩
    · change (AutoTable.insert (db.takeOut src count).historyTable _).rows = _
      rw [takeOut_historyTable]
      rfl

end Moved

/-- A move that emits has done what it says, in the two rows and nowhere else in the stock, and
has recorded it. The count of the row moved to is added up in `Long`s, as are the two totals. -/
theorem moveCigar_done {db db' : Database} {back : Database → Database} {now : ℤ} {src : HumidorCigar}
    {dst : Humidor} {count : ℤ} (hsrc : UpToDate db src) (hlong : IsLong src.count) (hdst : StoredHumidor db dst)
    (hother : dst.rowid ≠ src.humidor.rowid) (hpos : 0 < count) (hle : count ≤ src.count)
    (hemits : (CigarHumidorRepository.moveCigar now src dst count).Emits db true db' back) :
    MoveDone src dst count db db' := by
  have hcompletes : (StockOp.moveCigar now src dst count).Completes db db' := hemits.completes
  obtain ⟨-, heq⟩ := (StockOp.completes_iff _ _ _).mp hcompletes
  rw [heq]
  exact moveDone_moved now hsrc hlong hdst hother hpos hle

/-- All ten cigars are moved to the second humidor. -/
theorem moveCigar_done_tenCigars : ∃ db' back,
    (CigarHumidorRepository.moveCigar 0 tenCigarsRow { emptyHumidor with rowid := 2, name := "B" } 10).Emits
      tenCigarsStored true db' back ∧
    MoveDone tenCigarsRow { emptyHumidor with rowid := 2, name := "B" } 10 tenCigarsStored db' ∧
    db'.stock 2 1 = 10 := by
  have hgo : (StockOp.moveCigar 0 tenCigarsRow { emptyHumidor with rowid := 2, name := "B" } 10).GoesThrough
      tenCigarsStored := by decide
  obtain ⟨back, hemits⟩ := CigarHumidorRepository.moveCigar_emits 10 0 hgo
  exact ⟨_, back, hemits,
    moveCigar_done (by decide) (by decide) rfl (by decide) (by decide) (by decide) hemits, by decide⟩

end Cigars
