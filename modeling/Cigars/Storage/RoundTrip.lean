import Cigars.Listing.Unfiltered

/-! What is read back after `add` and after `update`: cigars as they are, humidors without their
price and `other`, history entries with their direction. A column of type REAL keeps neither NaN nor the
sign of a zero. -/
namespace Cigars
open Coroutine Sql SQLDelightBaseRepository

/-- The number is read back from a column of type REAL as it was bound. -/
def Storable (x : Option Double) : Prop := x ≠ some .nan ∧ x ≠ some .negativeZero

theorem storable_iff (x : Option Double) : Storable x ↔ readReal (bindReal x) = x := (readReal_bindReal_iff x).symm

instance (x : Option Double) : Decidable (Storable x) := inferInstanceAs (Decidable (_ ∧ _))

/-! ### Cigars -/

/-- The cigar as it is stored. -/
def Cigar.stored (c : Cigar) : Cigar := { c with price := readReal (bindReal c.price) }

/-- The columns of a cigar are read back as the cigar. -/
theorem cigarFactory_columns (id : ℤ) (c : Cigar) : cigarFactory id c.columns = { c.stored with rowid := id } := by
  have hstrength : CigarStrength.fromLong c.strength.toLong = c.strength := CigarStrength.fromLong_toLong _
  have hrelations : c.relationsJson.map decodeFromString = c.relations := by
    unfold Cigar.relationsJson
    cases c.relations with
    | none => rfl
    | some relations => rfl
  unfold cigarFactory Cigar.columns Cigar.stored
  simp only [hstrength, hrelations]

theorem Cigar.stored_eq_iff (c : Cigar) (id : ℤ) :
    ({ c.stored with rowid := id } : Cigar) = { c with rowid := id } ↔ Storable c.price := by
  simp only [Cigar.stored, Cigar.mk.injEq, true_and, and_true, storable_iff]

/-- The cigar is read back, the same as it was exactly if its price is. -/
structure CigarKept (db : Database) (id : ℤ) (c : Cigar) : Prop where
  read : (getSync cigarsTableQueries id none).run db = (.ok { c.stored with rowid := id }, db)
  same : (getSync cigarsTableQueries id none).run db = (.ok { c with rowid := id }, db) ↔ Storable c.price

theorem cigarKept_of_find? {db : Database} {id : ℤ} {c : Cigar} (h : db.cigarsTable.find? id = some c.columns) :
    CigarKept db id c := by
  have hget : db.getCigar id = .ok { c.stored with rowid := id } := by
    rw [getCigar_of_find? h, cigarFactory_columns]
  have hread : (getSync cigarsTableQueries id none).run db = (.ok { c.stored with rowid := id }, db) :=
    Action.run_query_ok hget
  refine ⟨hread, ?_⟩
  rw [hread, Prod.mk.injEq, and_iff_left rfl, Except.ok.injEq, Cigar.stored_eq_iff]

/-- A new cigar is emitted with the id it is stored under, and is read back from there. -/
theorem cigar_added (c : Cigar) (hnew : c.rowid < 0) (db : Database) :
    ∃ id db' back, (add cigarsTableQueries c).Emits db { c with rowid := id } db' back ∧ CigarKept db' id c ∧
      db.cigarsTable.find? id = none ∧ ∀ k ≠ id, db'.cigarsTable.find? k = db.cigarsTable.find? k := by
  have hemits := add_emits cigarsTableQueries (isNew_of_neg cigarsTableQueries hnew)
    (show cigarsTableQueries.add c db = .ok (db.cigarsTable.nextRowid, db.addCigar c) from rfl)
    (Cigar.toString_eq _)
  have hfind : (db.addCigar c).cigarsTable.find? db.cigarsTable.nextRowid = some c.columns :=
    AutoTable.find?_insert_nextRowid _ _
  refine ⟨db.cigarsTable.nextRowid, db.addCigar c, _, hemits, cigarKept_of_find? hfind,
    AutoTable.find?_nextRowid _, ?_⟩
  intro k hk
  have hinsert := AutoTable.find?_insert db.cigarsTable c.columns k
  rw [if_neg hk] at hinsert
  exact hinsert

/-- A stored cigar is read back as updated. -/
theorem cigar_updated (c : Cigar) (db : Database) (hstored : db.cigarsTable.contains c.rowid = true) :
    ∃ db' back, (update cigarsTableQueries c).Emits db c db' back ∧ CigarKept db' c.rowid c ∧
      ∀ k ≠ c.rowid, db'.cigarsTable.find? k = db.cigarsTable.find? k := by
  have hemits := update_emits cigarsTableQueries c db (congrArg Except.ok hstored)
  obtain ⟨row, hrow⟩ := (Table.contains_iff _ _).mp hstored
  have hfind : (cigarsTableQueries.update c db).cigarsTable.find? c.rowid = some c.columns :=
    Table.find?_update_self _ hrow
  refine ⟨_, _, hemits, cigarKept_of_find? hfind, ?_⟩
  intro k hk
  exact Table.find?_update_of_ne _ hk

/-- A cigar survives storage, by `add` under a new id and by `update` under its own, exactly if its price is a
number that a REAL column keeps; all other fields always do. -/
theorem cigars_survive_iff :
    (∀ (c : Cigar) (db : Database), c.rowid < 0 →
      ∃ id db' back, (add cigarsTableQueries c).Emits db { c with rowid := id } db' back ∧ CigarKept db' id c ∧
        db.cigarsTable.find? id = none ∧ ∀ k ≠ id, db'.cigarsTable.find? k = db.cigarsTable.find? k) ∧
    ∀ (c : Cigar) (db : Database), db.cigarsTable.contains c.rowid = true →
      ∃ db' back, (update cigarsTableQueries c).Emits db c db' back ∧ CigarKept db' c.rowid c ∧
        ∀ k ≠ c.rowid, db'.cigarsTable.find? k = db.cigarsTable.find? k :=
  ⟨fun c db hnew => cigar_added c hnew db, fun c db hstored => cigar_updated c db hstored⟩

/-- Two favourites, one of them new; both have a price. -/
theorem cigars_survive_priced :
    (∃ id db' back, (add cigarsTableQueries { LocalRepository.favorite "A" with price := some 0 }).Emits
        (Database.empty 0 0 0 0) { LocalRepository.favorite "A" with rowid := id, price := some 0 } db' back ∧
      (getSync cigarsTableQueries id none).run db' =
        (.ok { LocalRepository.favorite "A" with rowid := id, price := some 0 }, db')) ∧
    ∃ db' back, (update cigarsTableQueries { emptyCigar with rowid := 2, price := some 0 }).Emits
        LocalRepository.twoFavorites { emptyCigar with rowid := 2, price := some 0 } db' back ∧
      (getSync cigarsTableQueries 2 none).run db' = (.ok { emptyCigar with rowid := 2, price := some 0 }, db') := by
  constructor
  · obtain ⟨id, db', back, hemits, hkept, -⟩ := cigars_survive_iff.1
      { LocalRepository.favorite "A" with price := some 0 } (Database.empty 0 0 0 0) (by decide)
    exact ⟨id, db', back, hemits, hkept.same.mpr (by decide)⟩
  · obtain ⟨db', back, hemits, hkept, -⟩ := cigars_survive_iff.2
      { emptyCigar with rowid := 2, price := some 0 } LocalRepository.twoFavorites (by decide)
    exact ⟨db', back, hemits, hkept.same.mpr (by decide)⟩

/-- A price that is not a number comes back as none. -/
theorem cigar_loses_nan : ∃ id db' back,
    (add cigarsTableQueries { emptyCigar with price := some .nan }).Emits (Database.empty 0 0 0 0)
      { emptyCigar with rowid := id, price := some .nan } db' back ∧
    (getSync cigarsTableQueries id none).run db' = (.ok { emptyCigar with rowid := id, price := none }, db') := by
  obtain ⟨id, db', back, hemits, hkept, -⟩ := cigar_added { emptyCigar with price := some .nan } (by decide)
    (Database.empty 0 0 0 0)
  exact ⟨id, db', back, hemits, hkept.read⟩

/-! ### Humidors -/

theorem getSync_humidor {db : Database} {id : ℤ} {r : HumidorsTable} (h : db.humidorsTable.find? id = some r) :
    (getSync humidorsTableQueries id none).run db = (.ok (humidorFactory id r), db) :=
  Action.run_query_ok (getHumidor_of_find? h)

/-- The columns of a humidor are read back as the humidor without its price and `other`. -/
theorem humidorFactory_columns (id : ℤ) (h : Humidor) : humidorFactory id h.columns =
    { h with rowid := id, humidity := readReal (bindReal h.humidity), price := none, other := none } := by
  unfold humidorFactory Humidor.columns
  cases h.autoOpen with
  | true => rfl
  | false => rfl

/-- The row an `UPDATE` leaves: price and `other` are those stored before. -/
theorem humidorFactory_updated (h : Humidor) (row : HumidorsTable) :
    humidorFactory h.rowid { h.columns with price := row.price, other := row.other } =
      { h with humidity := readReal (bindReal h.humidity), price := readReal row.price, other := row.other } := by
  have hcolumns := humidorFactory_columns h.rowid h
  unfold humidorFactory Humidor.columns at hcolumns ⊢
  simp only [Humidor.mk.injEq] at hcolumns ⊢
  simp only [readReal_none, true_and, and_true] at hcolumns ⊢
  exact hcolumns

theorem humidor_eq_iff (h : Humidor) (id : ℤ) {price : Option Double} {other : Option ℤ} :
    ({ h with rowid := id, humidity := readReal (bindReal h.humidity), price := price, other := other } : Humidor) =
      { h with rowid := id } ↔ price = h.price ∧ other = h.other ∧ Storable h.humidity := by
  simp only [Humidor.mk.injEq, true_and, storable_iff]
  exact and_left_comm.trans (and_congr_right fun _ => and_comm)

theorem humidor_added {now : ℤ} {h : Humidor} {db db' : Database}
    (hdone : (HumidorsRepository.add now h).Completes db db') :
    (getSync humidorsTableQueries db.humidorsTable.nextRowid none).run db' =
      (.ok { h with rowid := db.humidorsTable.nextRowid, humidity := readReal (bindReal h.humidity), price := none,
                    other := none }, db') := by
  obtain ⟨hgo, rfl⟩ := HumidorsRepository.goesThrough_of_completes hdone
  have hfind : (HumidorsRepository.added now h db).humidorsTable.find? db.humidorsTable.nextRowid =
      some h.columns := AutoTable.find?_insert_nextRowid _ _
  rw [getSync_humidor hfind, humidorFactory_columns]

theorem humidor_updated {h : Humidor} {db db' : Database} {row : HumidorsTable}
    (hrow : db.humidorsTable.find? h.rowid = some row) (hdone : (update humidorsTableQueries h).Completes db db') :
    (getSync humidorsTableQueries h.rowid none).run db' =
      (.ok { h with humidity := readReal (bindReal h.humidity), price := readReal row.price, other := row.other },
        db') ∧
    ∀ k ≠ h.rowid, db'.humidorsTable.find? k = db.humidorsTable.find? k := by
  obtain ⟨-, hdb'⟩ := update_of_completes humidorsTableQueries hdone
  have hfind : db'.humidorsTable.find? h.rowid =
      some { h.columns with price := row.price, other := row.other } := by
    rw [hdb']
    exact Table.find?_update_self _ hrow
  constructor
  · rw [getSync_humidor hfind, humidorFactory_updated]
  · intro k hk
    rw [hdb']
    exact Table.find?_update_of_ne _ hk

/-- A humidor is read back as added exactly when it has no price and no `other`, and as updated
exactly when these are the ones already stored; either way its humidity has to be a number that a REAL
column keeps. -/
theorem humidors_survive_iff (h : Humidor) (db db' : Database) :
    (∀ now : ℤ, h.rowid < 0 → (HumidorsRepository.add now h).Completes db db' →
      ((getSync humidorsTableQueries db.humidorsTable.nextRowid none).run db' =
        (.ok { h with rowid := db.humidorsTable.nextRowid }, db') ↔
          h.price = none ∧ h.other = none ∧ Storable h.humidity)) ∧
    ∀ row : HumidorsTable, db.humidorsTable.find? h.rowid = some row →
      (update humidorsTableQueries h).Completes db db' →
      ((getSync humidorsTableQueries h.rowid none).run db' = (.ok h, db') ↔
        readReal row.price = h.price ∧ row.other = h.other ∧ Storable h.humidity) ∧
      ∀ k ≠ h.rowid, db'.humidorsTable.find? k = db.humidorsTable.find? k := by
  constructor
  · intro now _ hdone
    rw [humidor_added hdone, Prod.mk.injEq, and_iff_left rfl, Except.ok.injEq, humidor_eq_iff,
      eq_comm, @eq_comm _ none h.other]
  · intro row hrow hdone
    obtain ⟨hread, hothers⟩ := humidor_updated hrow hdone
    refine ⟨?_, hothers⟩
    rw [hread, Prod.mk.injEq, and_iff_left rfl, Except.ok.injEq]
    exact humidor_eq_iff h h.rowid

/-- A humidor that was bought. -/
def boughtHumidor : Humidor := { emptyHumidor with name := "A", price := some (.ofRat FloatingPoint.binary64 100) }

def oneHumidor : Database := HumidorsRepository.added 0 boughtHumidor (Database.empty 0 0 0 0)

theorem add_boughtHumidor : (HumidorsRepository.add 0 boughtHumidor).Completes (Database.empty 0 0 0 0) oneHumidor :=
  (HumidorsRepository.add_emits 0 ⟨Or.inl (by decide), by decide⟩).completes

theorem update_boughtHumidor (price : Option Double) :
    (update humidorsTableQueries { boughtHumidor with rowid := 1, price := price }).Completes oneHumidor
      (humidorsTableQueries.update { boughtHumidor with rowid := 1, price := price } oneHumidor) :=
  (update_emits humidorsTableQueries _ _ rfl).completes

theorem humidors_survive_unpriced :
    ((getSync humidorsTableQueries 1 none).run oneHumidor ≠ (.ok { boughtHumidor with rowid := 1 }, oneHumidor)) ∧
    (getSync humidorsTableQueries 1 none).run
        (humidorsTableQueries.update { boughtHumidor with rowid := 1, price := none } oneHumidor) =
      (.ok { boughtHumidor with rowid := 1, price := none },
        humidorsTableQueries.update { boughtHumidor with rowid := 1, price := none } oneHumidor) := by
  constructor
  · intro h
    have hprice := ((humidors_survive_iff boughtHumidor _ _).1 0 (by decide) add_boughtHumidor).mp h
    exact absurd hprice.1 (by decide)
  · exact ((humidors_survive_iff _ _ _).2 _ rfl (update_boughtHumidor none)).1.mpr ⟨rfl, rfl, by decide⟩

/-- The price is lost when the humidor is added, and again when it is set later. -/
theorem humidor_loses_price :
    (HumidorsRepository.add 0 boughtHumidor).Completes (Database.empty 0 0 0 0) oneHumidor ∧
    (getSync humidorsTableQueries 1 none).run oneHumidor =
      (.ok { boughtHumidor with rowid := 1, price := none }, oneHumidor) ∧
    ∃ db', (update humidorsTableQueries { boughtHumidor with rowid := 1 }).Completes oneHumidor db' ∧
      (getSync humidorsTableQueries 1 none).run db' =
        (.ok { boughtHumidor with rowid := 1, price := none }, db') := by
  have hrow : oneHumidor.humidorsTable.find? 1 = some boughtHumidor.columns := AutoTable.find?_insert_nextRowid _ _
  have hupdate := update_boughtHumidor boughtHumidor.price
  have hread := (humidor_updated hrow hupdate).1
  exact ⟨add_boughtHumidor, humidor_added add_boughtHumidor, _, hupdate, hread⟩

/-! ### History -/

/-- The humidors and the cigar of the entry are stored. -/
def History.Stored (db : Database) (e : History) : Prop :=
  db.humidorsTable.contains e.humidorFrom.rowid = true ∧ db.humidorsTable.contains e.humidorTo.rowid = true ∧
    ∀ c, e.cigar = some c → db.cigarsTable.contains c.rowid = true

/-- The same data, the same cigar and the same direction. -/
structure SameEntry (e e' : History) : Prop where
  count : e'.count = e.count
  date : e'.date = e.date
  left : e'.left = e.left
  price : e'.price = e.price
  type : e'.type = e.type
  cigar : e'.cigar.map Cigar.rowid = e.cigar.map Cigar.rowid
  humidorFrom : e'.humidorFrom.rowid = e.humidorFrom.rowid
  humidorTo : e'.humidorTo.rowid = e.humidorTo.rowid

/-- The entry as it is stored. -/
def History.stored (e : History) : History := { e with price := readReal (bindReal e.price) }

/-- The row both `add` and `update` write. -/
def History.columns (e : History) : HistoryTable where
  count := e.count
  date := e.date
  left := e.left
  price := bindReal e.price
  type := e.type.type
  cigarId := e.cigar.map Cigar.rowid
  humidorTo := e.humidorFrom.rowid
  humidorFrom := e.humidorTo.rowid

theorem History.Stored.resolves {db : Database} {e : History} (h : e.Stored db) : e.columns.Resolves db := by
  obtain ⟨hfrom, hto, hcigar⟩ := h
  refine ⟨hfrom, hto, ?_⟩
  intro c hc
  obtain ⟨cigar, he, rfl⟩ := Option.map_eq_some_iff.mp hc
  exact hcigar cigar he

theorem historyFactory_columns {db : Database} {id : ℤ} {e e' : History}
    (h : historyFactory db id e.columns = .ok e') : e'.rowid = id ∧ SameEntry e.stored e' := by
  obtain ⟨humTo, humFrom, cigar, hto, hfrom, hcigar, rfl⟩ := entry_of_historyFactory h
  exact ⟨rfl, rfl, rfl, rfl, rfl, HistoryType.fromLong_type _, hcigar, hto, hfrom⟩

theorem allSync_humidorHistory (h : ℤ) (sorting : Option Sorting) (filter : Option FiltersList) (db : Database) :
    (LocalRepository.humidorHistory h).allSync sorting filter db =
      collectRows (HistoryDatabase.select (HistoryDatabase.ofHumidor h) (historyDirection sorting) db) :=
  allSync_of_all ((LocalRepository.all_eq_source (.humidorHistory h) sorting filter).trans rfl) db

/-- An entry is listed in the history of a humidor when its row names the humidor. -/
theorem mem_humidorHistory_iff {db : Database} {id h : ℤ} {row : HistoryTable} {e : History}
    (hrow : db.historyTable.find? id = some row) (hread : historyFactory db id row = .ok e)
    {sorting : Option Sorting} {filter : Option FiltersList} {rows : List History}
    (hrows : (LocalRepository.humidorHistory h).allSync sorting filter db = .ok rows) :
    e ∈ rows ↔ row.humidorTo = h ∨ row.humidorFrom = h := by
  have hmap := (collectRows_eq_ok_iff _ _).mp ((allSync_humidorHistory h sorting filter db).symm.trans hrows)
  have hmem : e ∈ rows ↔ (.ok e : Except Exn History) ∈
      HistoryDatabase.select (HistoryDatabase.ofHumidor h) (historyDirection sorting) db := by
    rw [hmap]
    exact (List.mem_map_of_injective fun _ _ => Except.ok.inj).symm
  rw [hmem, ← HistoryDatabase.ofHumidor_eq_true]
  unfold HistoryDatabase.select
  rw [List.mem_map]
  constructor
  · rintro ⟨r, hr, hre⟩
    obtain ⟨hr, hcond⟩ := List.mem_filter.mp ((perm_orderBy _ _ _).mem_iff.mp hr)
    -- The entry carries the id of its row.
    obtain ⟨_, _, _, -, -, -, he⟩ := entry_of_historyFactory hread
    obtain ⟨_, _, _, -, -, -, he'⟩ := entry_of_historyFactory hre
    have hid : r.1 = id := congrArg History.rowid (he'.symm.trans he)
    have hfind := (Table.mem_rows_iff _ _ _).mp hr
    rw [hid, hrow] at hfind
    cases hfind
    exact of_decide_eq_true hcond
  · intro hcond
    refine ⟨(id, row), ?_, hread⟩
    apply (perm_orderBy _ _ _).mem_iff.mpr
    exact List.mem_filter.mpr ⟨(Table.mem_rows_iff _ _ _).mpr hrow, decide_eq_true hcond⟩

/-- The entry is read back the same, and it is listed for its two humidors and no other. -/
structure EntryKept (db : Database) (id : ℤ) (e e' : History) : Prop where
  read : (getSync historyTableQueries id none).run db = (.ok e', db)
  same : SameEntry e e'
  listed : ∀ h sorting filter (rows : List History),
    (LocalRepository.humidorHistory h).allSync sorting filter db = .ok rows →
    (e' ∈ rows ↔ h = e.humidorFrom.rowid ∨ h = e.humidorTo.rowid)

/-- The entry is kept with its price as a REAL column keeps it. -/
structure EntryStored (db : Database) (id : ℤ) (e : History) : Prop where
  kept : ∃ e', EntryKept db id e.stored e'
  same : (∃ e', EntryKept db id e e') ↔ Storable e.price

theorem exists_entryKept {db : Database} {id : ℤ} {e : History}
    (hrow : db.historyTable.find? id = some e.columns) (hstored : e.Stored db) :
    ∃ e', EntryKept db id e.stored e' := by
  obtain ⟨e', he'⟩ := (historyFactory_ok_iff db id e.columns).mpr hstored.resolves
  have hget : historyTableQueries.get id none db = .ok e' := by
    change (executeAsOne (db.historyTable.find? id) >>= historyFactory db id) = _
    rw [hrow]
    exact he'
  refine ⟨e', Action.run_query_ok hget, (historyFactory_columns he').2, ?_⟩
  intro h sorting filter rows hrows
  have hmem : e' ∈ rows ↔ e.stored.humidorFrom.rowid = h ∨ e.stored.humidorTo.rowid = h :=
    mem_humidorHistory_iff hrow he' hrows
  rw [hmem, eq_comm, @eq_comm _ h e.stored.humidorTo.rowid]

theorem entryStored_of_find? {db : Database} {id : ℤ} {e : History}
    (hrow : db.historyTable.find? id = some e.columns) (hstored : e.Stored db) : EntryStored db id e := by
  obtain ⟨e', hkept⟩ := exists_entryKept hrow hstored
  refine ⟨⟨e', hkept⟩, ?_⟩
  rw [storable_iff]
  constructor
  · intro ⟨e'', hsame⟩
    -- The same row is read, so that both are the same entry.
    have hread := hkept.read.symm.trans hsame.read
    rw [Prod.mk.injEq, Except.ok.injEq] at hread
    calc readReal (bindReal e.price) = e'.price := hkept.same.price.symm
      _ = e''.price := congrArg History.price hread.1
      _ = e.price := hsame.same.price
  · intro hprice
    have heq : e.stored = e := by
      unfold History.stored
      rw [hprice]
    rw [heq] at hkept
    exact ⟨e', hkept⟩

/-- The history of a humidor can be read exactly when its rows name stored humidors and cigars. -/
theorem humidorHistory_readable_iff (h : ℤ) (sorting : Option Sorting) (filter : Option FiltersList)
    (db : Database) : (∃ rows, (LocalRepository.humidorHistory h).allSync sorting filter db = .ok rows) ↔
      (LocalRepository.humidorHistory h).Resolved db := by
  rw [allSync_humidorHistory]
  exact (exists_collectRows_select_iff _ _ _ _ _).trans (LocalRepository.humidorHistory_mapped_iff h db)

theorem historyAdd_completes_iff (e : History) (db db' : Database) :
    (HistoryRepository.add e).Completes db db' ↔
      (e.rowid < 0 ∨ db.historyTable.contains e.rowid = false) ∧ db' = db.addHistory e := by
  by_cases hnew : e.rowid < 0 ∨ db.historyTable.contains e.rowid = false
  · have hemits := add_emits historyTableQueries (isNew_true historyTableQueries rfl hnew)
      (show historyTableQueries.add e db = .ok (db.historyTable.nextRowid, db.addHistory e) from rfl) rfl
    constructor
    · intro h
      exact ⟨hnew, h.unique hemits.completes⟩
    · intro h
      rw [h.2]
      exact hemits.completes
  · obtain ⟨e', hfails⟩ := add_fails_of_stored historyTableQueries (isNew_false historyTableQueries rfl hnew)
    constructor
    · intro h
      exact absurd h hfails.not_completes
    · intro h
      exact absurd h.1 hnew

/-- An entry whose humidors and cigar are stored comes back with its data and its direction,
whether it was added or updated, and is listed for both of its humidors and no other; its price comes back
exactly if it is a number that a REAL column keeps. -/
theorem history_survives_iff :
    (∀ (e : History) (db : Database), e.Stored db →
      ((e.rowid < 0 ∨ db.historyTable.contains e.rowid = false) →
        ∃ db', (HistoryRepository.add e).Completes db db') ∧
      ∀ db', (HistoryRepository.add e).Completes db db' → EntryStored db' db.historyTable.nextRowid e) ∧
    (∀ (e : History) (db : Database), e.Stored db → db.historyTable.contains e.rowid = true →
      ∃ db', (update historyTableQueries e).Completes db db' ∧ EntryStored db' e.rowid e) ∧
    ∀ (h : ℤ) (sorting : Option Sorting) (filter : Option FiltersList) (db : Database),
      (∃ rows, (LocalRepository.humidorHistory h).allSync sorting filter db = .ok rows) ↔
        (LocalRepository.humidorHistory h).Resolved db := by
  refine ⟨?_, ?_, humidorHistory_readable_iff⟩
  · intro e db hstored
    constructor
    · intro hnew
      exact ⟨_, (historyAdd_completes_iff e db _).mpr ⟨hnew, rfl⟩⟩
    · intro db' hdone
      obtain ⟨-, rfl⟩ := (historyAdd_completes_iff e db db').mp hdone
      have hrow : (db.addHistory e).historyTable.find? db.historyTable.nextRowid = some e.columns :=
        AutoTable.find?_insert_nextRowid _ _
      exact entryStored_of_find? hrow hstored
  · intro e db hstored hcontains
    have hemits := update_emits historyTableQueries e db (congrArg Except.ok hcontains)
    obtain ⟨row, hrow⟩ := (Table.contains_iff _ _).mp hcontains
    have hrow' : (historyTableQueries.update e db).historyTable.find? e.rowid = some e.columns :=
      Table.find?_update_self _ hrow
    exact ⟨_, hemits.completes, entryStored_of_find? hrow' hstored⟩

def twoHumidors : Database := ((Database.empty 0 0 0 0).addHumidor boughtHumidor).addHumidor boughtHumidor

/-- Three cigars go from the first humidor to the second. -/
def threeMoved (price : Option Double) : History where
  rowid := -1
  count := 3
  date := 0
  left := 3
  price := price
  type := .move
  cigar := none
  humidorFrom := { boughtHumidor with rowid := 1 }
  humidorTo := { boughtHumidor with rowid := 2 }

theorem add_threeMoved (price : Option Double) : (HistoryRepository.add (threeMoved price)).Completes twoHumidors
    (twoHumidors.addHistory (threeMoved price)) :=
  (historyAdd_completes_iff (threeMoved price) twoHumidors _).mpr ⟨Or.inl (by decide : (-1 : ℤ) < 0), rfl⟩

theorem stored_threeMoved (price : Option Double) : (threeMoved price).Stored twoHumidors := by
  refine ⟨(by decide : twoHumidors.humidorsTable.contains 1 = true),
    (by decide : twoHumidors.humidorsTable.contains 2 = true), ?_⟩
  intro c hc
  cases hc

/-- The entry is added with a price and then updated with another one. -/
theorem history_survives_threeMoved :
    (HistoryRepository.add (threeMoved (some 0))).Completes twoHumidors
      (twoHumidors.addHistory (threeMoved (some 0))) ∧
    (∃ e', EntryKept (twoHumidors.addHistory (threeMoved (some 0))) 1 (threeMoved (some 0)) e') ∧
    ∃ db', (update historyTableQueries { threeMoved none with rowid := 1 }).Completes
      (twoHumidors.addHistory (threeMoved (some 0))) db' ∧
      ∃ e', EntryKept db' 1 { threeMoved none with rowid := 1 } e' := by
  have hadded := (history_survives_iff.1 (threeMoved (some 0)) twoHumidors (stored_threeMoved _)).2 _
    (add_threeMoved (some 0))
  have hstored : History.Stored (twoHumidors.addHistory (threeMoved (some 0)))
      { threeMoved none with rowid := 1 } := stored_threeMoved none
  obtain ⟨db', hupdate, hupdated⟩ := history_survives_iff.2.1 { threeMoved none with rowid := 1 } _ hstored (by decide)
  exact ⟨add_threeMoved _, hadded.same.mpr (by decide), db', hupdate, hupdated.same.mpr (by decide)⟩

/-- A price that is not a number comes back as none. -/
theorem history_loses_nan :
    (HistoryRepository.add (threeMoved (some .nan))).Completes twoHumidors
      (twoHumidors.addHistory (threeMoved (some .nan))) ∧
    ∃ e', (getSync historyTableQueries 1 none).run (twoHumidors.addHistory (threeMoved (some .nan))) =
      (.ok e', twoHumidors.addHistory (threeMoved (some .nan))) ∧ e'.price = none := by
  have hrow : (twoHumidors.addHistory (threeMoved (some .nan))).historyTable.find? 1 =
      some (threeMoved (some .nan)).columns := AutoTable.find?_insert_nextRowid _ _
  obtain ⟨e', hkept⟩ := exists_entryKept hrow (stored_threeMoved (some .nan))
  exact ⟨add_threeMoved _, e', hkept.read, hkept.same.price⟩

end Cigars
