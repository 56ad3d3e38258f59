import Cigars.Listing.Unfiltered
import Cigars.Rapid.Models
import Cigars.Stock.Runs

/-! Which stored cigars the unfiltered lists show, for tables filled by `CigarsRepository.add`. -/
namespace Cigars
open Coroutine Sql SQLDelightBaseRepository

/-- The cigar as added passes the default bounds. -/
structure Cigar.Visible (c : Cigar) : Prop where
  brand : c.brand.isSome = true
  country : c.country.isSome = true
  date : ∃ d, c.date = some d ∧ 0 ≤ d
  gauge : 0 ≤ c.gauge
  length : "%%" ≤ c.length

theorem columns_visible_iff (c : Cigar) : c.columns.Visible ↔ c.Visible :=
  ⟨fun h => ⟨h.brand, h.country, h.date, h.gauge, h.length⟩,
    fun h => ⟨h.brand, h.country, h.date, h.gauge, h.length, c.strength.toLong_nonneg⟩⟩

/-- A cigar from the online catalogue has no date. -/
theorem RapidCigar.toCigar_not_visible (r : RapidCigar) : ¬ r.toCigar.Visible := by
  intro h
  obtain ⟨d, hd, -⟩ := h.date
  cases hd

/-- The rows of the cigars and of the stock come from `CigarsRepository.add`, of these cigars, the
last one first. Other tables can change in between, as long as no humidor is deleted. -/
inductive Filled : List Cigar → Database → Prop
  | start {db : Database} : db.cigarsTable.rows = [] → db.cigarHumidorTable.rows = [] → Filled [] db
  | add {cigars : List Cigar} {db db' : Database} (now : ℤ) (cigar : Cigar) (humidor : Humidor) :
    Filled cigars db → (CigarsRepository.add now cigar humidor).Completes db db' →
      Filled (cigar :: cigars) db'
  | other {cigars : List Cigar} {db db' : Database} : Filled cigars db →
    db'.cigarsTable = db.cigarsTable → db'.cigarHumidorTable = db.cigarHumidorTable →
    (∀ x, db.humidorsTable.contains x = true → db'.humidorsTable.contains x = true) → Filled cigars db'

/-- What a completed `add` of a cigar leaves. -/
theorem gained_of_completes {now : ℤ} {cigar : Cigar} {humidor : Humidor} {db db' : Database}
    (h : (CigarsRepository.add now cigar humidor).Completes db db') :
    CigarsRepository.AddGoesThrough cigar humidor db ∧ CigarsRepository.Gained now cigar humidor db db' := by
  obtain ⟨hgo, rfl⟩ := (StockOp.completes_iff db db' (.addCigar now cigar humidor)).mp h
  exact ⟨hgo, CigarsRepository.added_gained now hgo⟩

theorem contains_of_mem_rows {κ ρ : Type} [DecidableEq κ] {t : Table κ ρ} {r : κ × ρ} (h : r ∈ t.rows) :
    t.contains r.1 = true :=
  (Table.contains_iff _ _).mpr ⟨r.2, (Table.mem_rows_iff t r.1 r.2).mp h⟩

/-- The stored rows are the columns of the added cigars. -/
theorem Filled.columns {cigars : List Cigar} {db : Database} (h : Filled cigars db) :
    db.cigarsTable.rows.map Prod.snd = cigars.reverse.map Cigar.columns := by
  induction h with
  | start hcigars hstock =>
    rw [hcigars]
    rfl
  | add now cigar humidor _ hadd ih =>
    obtain ⟨-, hgained⟩ := gained_of_completes hadd
    rw [hgained.cigars, List.map_append, ih, List.reverse_cons, List.map_append]
    rfl
  | other _ hcigars _ _ ih => rw [hcigars, ih]

/-- Every stock row names a stored humidor and a stored cigar. -/
theorem Filled.stock {cigars : List Cigar} {db : Database} (h : Filled cigars db) :
    ∀ r ∈ db.cigarHumidorTable.rows,
      db.humidorsTable.contains r.1.1 = true ∧ db.cigarsTable.contains r.1.2 = true := by
  induction h with
  | start hcigars hstock =>
    intro r hr
    rw [hstock] at hr
    exact absurd hr List.not_mem_nil
  | @add cigars db db' now cigar humidor _ hadd ih =>
    obtain ⟨hgo, hgained⟩ := gained_of_completes hadd
    have hhumidors (x : ℤ) : db'.humidorsTable.contains x = db.humidorsTable.contains x := by
      rw [hgained.humidors, AutoTable.toTable_update, Table.contains_update]
    have hcigars {x : ℤ × CigarsTable}
        (hx : x ∈ db.cigarsTable.rows ++ [(db.cigarsTable.nextRowid, cigar.columns)]) :
        db'.cigarsTable.contains x.1 = true := by
      rw [← hgained.cigars] at hx
      exact contains_of_mem_rows hx
    intro r hr
    rw [hgained.stock, List.mem_append, List.mem_singleton] at hr
    rcases hr with hr | rfl
    · obtain ⟨hhum, hcig⟩ := ih r hr
      obtain ⟨row, hrow⟩ := (Table.contains_iff _ _).mp hcig
      have hmem := List.mem_append_left [(db.cigarsTable.nextRowid, cigar.columns)]
        ((Table.mem_rows_iff _ _ _).mpr hrow)
      exact ⟨(hhumidors _).trans hhum, hcigars hmem⟩
    · exact ⟨(hhumidors _).trans hgo.target, hcigars (List.mem_append_right _ List.mem_cons_self)⟩
  | other _ hcigars hstock hhumidors ih =>
    intro r hr
    rw [hstock] at hr
    obtain ⟨hhum, hcig⟩ := ih r hr
    exact ⟨hhumidors _ hhum, hcigars ▸ hcig⟩

/-- Each stored cigar is in the list of cigars once. -/
def ListsCigars (db : Database) : Prop :=
  ∃ rows : List Cigar, LocalRepository.cigars.allSync none none db = .ok rows ∧
    rows.Perm (db.cigarsTable.rows.map fun r => cigarFactory r.1 r.2)

/-- Each stock row of the humidor is in its list once. -/
def ListsHumidor (humidorId : ℤ) (db : Database) : Prop :=
  ∃ rows : List HumidorCigar, (LocalRepository.humidorCigars humidorId).allSync none none db = .ok rows ∧
    (rows.map .ok).Perm ((db.cigarHumidorTable.rows.filter fun r => r.1.1 == humidorId).map
      (HumidorCigarsDatabase.mapper db))

theorem listsCigars_iff (db : Database) :
    ListsCigars db ↔ ∀ r ∈ db.cigarsTable.rows, r.2.Visible := by
  have hlist : LocalRepository.cigars.allSync none none db = .ok _ :=
    (LocalRepository.allSync_none _ db).trans (collectRows_map_comp_ok _ _)
  have hperm := (perm_orderBy .asc (fun r : ℤ × CigarsTable => cigarsSort "name" r.2)
    (whereTrue (fun r => defaultWhere.cond r.2) db.cigarsTable.rows)).map fun r => cigarFactory r.1 r.2
  constructor
  · rintro ⟨rows, hrows, hall⟩ r hr
    rw [hlist] at hrows
    cases hrows
    have hlength := (hperm.symm.trans hall).length_eq
    rw [List.length_map, List.length_map, whereTrue, List.length_filter_eq_length_iff] at hlength
    exact (cond_defaultWhere r.2).mp (of_decide_eq_true (hlength r hr))
  · intro hvisible
    refine ⟨_, hlist, hperm.trans (List.Perm.of_eq ?_)⟩
    rw [whereTrue, List.filter_eq_self.mpr]
    exact fun r hr => decide_eq_true ((cond_defaultWhere r.2).mpr (hvisible r hr))

theorem listsHumidor_of_visible {db : Database} (hvisible : ∀ r ∈ db.cigarsTable.rows, r.2.Visible)
    (hstock : ∀ r ∈ db.cigarHumidorTable.rows,
      db.humidorsTable.contains r.1.1 = true ∧ db.cigarsTable.contains r.1.2 = true) (humidorId : ℤ) :
    ListsHumidor humidorId db := by
  have hreadable : (LocalRepository.humidorCigars humidorId).Readable db := fun r hr _ _ => (hstock r hr).1
  obtain ⟨rows, hrows⟩ := (LocalRepository.exists_allSync_iff hvisible _).mpr hreadable
  refine ⟨rows, hrows, ?_⟩
  rw [LocalRepository.allSync_none, collectRows_eq_ok_iff] at hrows
  have hperm := (perm_orderBy .asc
    (fun r : ((ℤ × ℤ) × CigarHumidorTable) × CigarsTable => cigarsSort "name" r.2)
    (whereTrue (HumidorCigarsDatabase.humidorCigarsCond humidorId defaultWhere)
      (innerJoin db.cigarHumidorTable Prod.snd db.cigarsTable.toTable))).map
    fun r => HumidorCigarsDatabase.mapper db r.1
  refine (List.Perm.of_eq hrows.symm).trans (hperm.trans (List.Perm.of_eq ?_))
  rw [show (fun r : ((ℤ × ℤ) × CigarHumidorTable) × CigarsTable => HumidorCigarsDatabase.mapper db r.1) =
    HumidorCigarsDatabase.mapper db ∘ Prod.fst from rfl, ← List.map_map, map_fst_whereTrue_innerJoin]
  congr 1
  refine List.filter_congr fun r hr => ?_
  obtain ⟨x, hx⟩ := (Table.contains_iff _ _).mp (hstock r hr).2
  have hx' : x.Visible := LocalRepository.visible_of_find? hvisible hx
  rw [Bool.eq_iff_iff]
  simp [hx, humidorCigarsCond_default, hx']

theorem Filled.visible_iff {cigars : List Cigar} {db : Database} (h : Filled cigars db) :
    (∀ r ∈ db.cigarsTable.rows, r.2.Visible) ↔ ∀ c ∈ cigars, c.Visible := by
  rw [← List.forall_mem_map (f := Prod.snd) (P := CigarsTable.Visible), h.columns, List.forall_mem_map]
  simp only [List.mem_reverse, columns_visible_iff]

/-- Once a cigar of the online catalogue was added, the list of cigars is not complete. -/
theorem not_listsCigars_of_rapid {cigars : List Cigar} {db : Database} (h : Filled cigars db) (r : RapidCigar)
    (hr : r.toCigar ∈ cigars) : ¬ ListsCigars db := by
  rw [listsCigars_iff, h.visible_iff]
  exact fun hall => r.toCigar_not_visible (hall _ hr)

/-- The unfiltered lists show everything that was added exactly when every added cigar has a
brand, a country, a date and no text or number below the default bounds. -/
theorem lists_complete_iff {cigars : List Cigar} {db : Database} (h : Filled cigars db) :
    (ListsCigars db ∧ ∀ humidorId, ListsHumidor humidorId db) ↔ ∀ c ∈ cigars, c.Visible := by
  rw [← h.visible_iff]
  constructor
  · rintro ⟨hcigars, -⟩
    exact (listsCigars_iff db).mp hcigars
  · intro hvisible
    exact ⟨(listsCigars_iff db).mpr hvisible, listsHumidor_of_visible hvisible h.stock⟩

/-- A state with one humidor, and a cigar added to it. -/
def filledWith (c : Cigar) : Database :=
  CigarsRepository.added 0 c { emptyHumidor with rowid := 1 } ((Database.empty 0 0 0 0).addHumidor emptyHumidor)

theorem filled_filledWith {c : Cigar} (hc : c.rowid < 0) : Filled [c] (filledWith c) :=
  .add 0 c { emptyHumidor with rowid := 1 } (.start rfl rfl)
    (CigarsRepository.add_emits 0 c ⟨.inl hc, by decide, by decide, by decide⟩).completes

theorem lists_complete_favorite :
    Filled [LocalRepository.favorite "A"] (filledWith (LocalRepository.favorite "A")) ∧
      ListsCigars (filledWith (LocalRepository.favorite "A")) ∧
      ∀ humidorId, ListsHumidor humidorId (filledWith (LocalRepository.favorite "A")) := by
  have hfilled := filled_filledWith (show (LocalRepository.favorite "A").rowid < 0 by decide)
  refine ⟨hfilled, (lists_complete_iff hfilled).mpr (List.forall_mem_singleton.mpr ?_)⟩
  exact ⟨rfl, rfl, ⟨0, rfl, by decide⟩, by decide, by decide⟩

/-- A search result with every field filled in. -/
def searchResult : RapidCigar where
  cigarId := 1
  brandId := 1
  name := some "Robusto"
  length := some 5
  ringGauge := some 50
  country := some "Cuba"
  filler := some "Cuba"
  wrapper := some "Cuba"
  color := some "Maduro"
  strength := some "Full"
  brand := some "Cohiba"

/-- It is stored, and no list shows it. -/
theorem searchResult_not_listed : Filled [searchResult.toCigar] (filledWith searchResult.toCigar) ∧
    (filledWith searchResult.toCigar).cigarsTable.rows = [(1, searchResult.toCigar.columns)] ∧
    LocalRepository.cigars.allSync none none (filledWith searchResult.toCigar) = .ok ([] : List Cigar) ∧
    (LocalRepository.humidorCigars 1).allSync none none (filledWith searchResult.toCigar) =
      .ok ([] : List HumidorCigar) := by
  have hcigars : CigarsDatabase.allAsc defaultWhere "name" (filledWith searchResult.toCigar) = [] := by
    decide +kernel
  have hhumidor : HumidorCigarsDatabase.humidorCigars 1 defaultWhere "name"
      (filledWith searchResult.toCigar) = [] := by
    decide +kernel
  exact ⟨filled_filledWith (by decide), rfl,
    (LocalRepository.allSync_none _ _).trans (congrArg collectRows hcigars),
    (LocalRepository.allSync_none _ _).trans (congrArg collectRows hhumidor)⟩

end Cigars
