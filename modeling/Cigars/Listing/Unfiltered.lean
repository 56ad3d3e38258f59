import Cigars.Listing.Paging

/-! Lists without a filter, and the counts that go with them. The queries still compare eight
columns of a cigar with default bounds. -/
namespace Cigars
open Sql SQLDelightBaseRepository

/-- The bind arguments when there is no filter. -/
def defaultWhere : CigarsWhere := ⟨"%%", "%%", "%%", 0, "%%", 0, "%%", 0⟩

/-- No compared column is `NULL` or below its default bound. -/
structure CigarsTable.Visible (r : CigarsTable) : Prop where
  brand : r.brand.isSome = true
  country : r.country.isSome = true
  date : ∃ d, r.date = some d ∧ 0 ≤ d
  gauge : 0 ≤ r.gauge
  length : "%%" ≤ r.length
  strength : 0 ≤ r.strength

instance (r : CigarsTable) : Decidable r.Visible := decidable_of_iff
  (r.brand.isSome = true ∧ r.country.isSome = true ∧ (∃ d ∈ r.date, 0 ≤ d) ∧ 0 ≤ r.gauge ∧
    "%%" ≤ r.length ∧ 0 ≤ r.strength)
  ⟨fun h => ⟨h.1, h.2.1, h.2.2.1, h.2.2.2.1, h.2.2.2.2.1, h.2.2.2.2.2⟩,
    fun h => ⟨h.brand, h.country, h.date, h.gauge, h.length, h.strength⟩⟩

theorem cond_defaultWhere (r : CigarsTable) : defaultWhere.cond r = some true ↔ r.Visible := by
  have hge {α : Type} [LE α] [DecidableLE α] (v bound : α) : ge (some v) bound = some true ↔ bound ≤ v := by
    rw [ge_eq_true]
    exact ⟨fun ⟨_, he, h⟩ => Option.some.inj he ▸ h, fun h => ⟨v, rfl, h⟩⟩
  simp only [CigarsWhere.cond, defaultWhere, Truth.and_eq_true, like_anything, hge, ge_eq_true]
  constructor
  · rintro ⟨-, hbrand, hcountry, hdate, -, hgauge, hlength, hstrength⟩
    exact ⟨hbrand, hcountry, hdate, hgauge, hlength, hstrength⟩
  · intro h
    exact ⟨rfl, h.brand, h.country, h.date, rfl, h.gauge, h.length, h.strength⟩

/-! ### Joined rows -/

/-- The stock rows a joined query keeps. -/
theorem map_fst_whereTrue_innerJoin {ρ : Type} (stock : Table (ℤ × ℤ) CigarHumidorTable)
    (column : ℤ × ℤ → ℤ) (t : Table ℤ ρ) (cond : ((ℤ × ℤ) × CigarHumidorTable) × ρ → Truth) :
    (whereTrue cond (innerJoin stock column t)).map Prod.fst =
      stock.rows.filter fun r => (t.find? (column r.1)).any fun x => cond (r, x) = some true := by
  rw [whereTrue, innerJoin]
  induction stock.rows with
  | nil => rfl
  | cons r rows ih =>
    cases hx : t.find? (column r.1) with
    | none => simpa [List.filterMap_cons, List.filter_cons, hx] using ih
    | some x =>
      by_cases hcond : cond (r, x) = some true
      · simpa [List.filterMap_cons, List.filter_cons, hx, hcond] using ih
      · simpa [List.filterMap_cons, List.filter_cons, hx, hcond] using ih

theorem mem_innerJoin {ρ : Type} {stock : Table (ℤ × ℤ) CigarHumidorTable} {column : ℤ × ℤ → ℤ}
    {t : Table ℤ ρ} {r : ((ℤ × ℤ) × CigarHumidorTable) × ρ} :
    r ∈ innerJoin stock column t ↔ r.1 ∈ stock.rows ∧ t.find? (column r.1.1) = some r.2 := by
  rw [innerJoin, List.mem_filterMap]
  constructor
  · rintro ⟨a, ha, hr⟩
    obtain ⟨x, hx, rfl⟩ := Option.map_eq_some_iff.mp hr
    exact ⟨ha, hx⟩
  · rintro ⟨ha, hx⟩
    exact ⟨r.1, ha, Option.map_eq_some_iff.mpr ⟨r.2, hx, rfl⟩⟩

theorem countP_innerJoin {ρ : Type} (stock : Table (ℤ × ℤ) CigarHumidorTable) (column : ℤ × ℤ → ℤ)
    (t : Table ℤ ρ) (cond : ((ℤ × ℤ) × CigarHumidorTable) × ρ → Truth) :
    (innerJoin stock column t).countP (fun r => cond r = some true) =
      stock.rows.countP fun r => (t.find? (column r.1)).any fun x => cond (r, x) = some true := by
  rw [← length_map_whereTrue cond Prod.fst, map_fst_whereTrue_innerJoin, List.countP_eq_length_filter]

theorem cigarHumidorsCond_default (id : ℤ) (r : ((ℤ × ℤ) × CigarHumidorTable) × HumidorsTable) :
    HumidorCigarsDatabase.cigarHumidorsCond id "%%" "%%" r = some true ↔ r.1.1.2 = id := by
  simp [HumidorCigarsDatabase.cigarHumidorsCond, like_anything]

theorem humidorCigarsCond_default (id : ℤ) (r : ((ℤ × ℤ) × CigarHumidorTable) × CigarsTable) :
    HumidorCigarsDatabase.humidorCigarsCond id defaultWhere r = some true ↔
      r.1.1.1 = id ∧ r.2.Visible := by
  simp [HumidorCigarsDatabase.humidorCigarsCond, cond_defaultWhere]

theorem mapper_ok_iff (db : Database) (r : (ℤ × ℤ) × CigarHumidorTable) :
    (∃ entity, HumidorCigarsDatabase.mapper db r = .ok entity) ↔
      db.humidorsTable.contains r.1.1 = true ∧ db.cigarsTable.contains r.1.2 = true := by
  unfold HumidorCigarsDatabase.mapper humidorCigarFactory
  simp only [Table.contains]
  cases hhum : db.humidorsTable.find? r.1.1 with
  | none =>
    rw [getHumidor_of_none hhum]
    simp [bind, Except.bind]
  | some humidor =>
    rw [getHumidor_of_find? hhum]
    cases hcig : db.cigarsTable.find? r.1.2 with
    | none =>
      rw [getCigar_of_none hcig]
      simp [bind, Except.bind]
    | some cigar =>
      rw [getCigar_of_find? hcig]
      simp [bind, Except.bind, pure, Except.pure]

/-- The humidors and the cigar a history row names are stored. -/
def HistoryTable.Resolves (db : Database) (r : HistoryTable) : Prop :=
  db.humidorsTable.contains r.humidorTo = true ∧ db.humidorsTable.contains r.humidorFrom = true ∧
    ∀ c, r.cigarId = some c → db.cigarsTable.contains c = true

theorem historyFactory_ok_iff (db : Database) (id : ℤ) (r : HistoryTable) :
    (∃ entity, historyFactory db id r = .ok entity) ↔ r.Resolves db := by
  unfold historyFactory HistoryTable.Resolves
  simp only [Table.contains]
  cases hto : db.humidorsTable.find? r.humidorTo with
  | none =>
    rw [getHumidor_of_none hto]
    simp [bind, Except.bind]
  | some humTo =>
    rw [getHumidor_of_find? hto]
    cases hfrom : db.humidorsTable.find? r.humidorFrom with
    | none =>
      rw [getHumidor_of_none hfrom]
      simp [bind, Except.bind]
    | some humFrom =>
      rw [getHumidor_of_find? hfrom]
      cases hid : r.cigarId with
      | none => simp [bind, Except.bind, pure, Except.pure]
      | some c =>
        cases hcig : db.cigarsTable.find? c with
        | none => simp [bind, Except.bind, Functor.map, Except.map, getCigar_of_none hcig, hcig]
        | some cigar =>
          simp [bind, Except.bind, pure, Except.pure, Functor.map, Except.map, getCigar_of_find? hcig, hcig]

/-- A list can be read when no mapper throws. -/
theorem exists_collectRows_iff {α : Type} (rows : List (Except Exn α)) :
    (∃ as, collectRows rows = .ok as) ↔ ∀ r ∈ rows, ∃ a, r = .ok a := by
  simp only [collectRows_eq_ok_iff]
  constructor
  · rintro ⟨as, rfl⟩ r hr
    obtain ⟨a, -, rfl⟩ := List.mem_map.mp hr
    exact ⟨a, rfl⟩
  · intro h
    induction rows with
    | nil => exact ⟨[], rfl⟩
    | cons r rows ih =>
      obtain ⟨a, rfl⟩ := h r List.mem_cons_self
      obtain ⟨as, rfl⟩ := ih fun r' hr' => h r' (List.mem_cons_of_mem _ hr')
      exact ⟨a :: as, rfl⟩

theorem exists_collectRows_select_iff {ρ α : Type} (dir : Direction) (key : ρ → Value) (cond : ρ → Truth)
    (f : ρ → Except Exn α) (rows : List ρ) :
    (∃ as, collectRows ((orderBy dir key (whereTrue cond rows)).map f) = .ok as) ↔
      ∀ r ∈ rows, cond r = some true → ∃ a, f r = .ok a := by
  rw [exists_collectRows_iff, List.forall_mem_map]
  constructor
  · intro h r hr hcond
    refine h r ((perm_orderBy _ _ _).mem_iff.mpr ?_)
    exact List.mem_filter.mpr ⟨hr, decide_eq_true hcond⟩
  · intro h r hr
    obtain ⟨hr, hcond⟩ := List.mem_filter.mp ((perm_orderBy _ _ _).mem_iff.mp hr)
    exact h r hr (of_decide_eq_true hcond)

namespace LocalRepository

/-- The query behind an unfiltered list. -/
def unfiltered : (R : LocalRepository) → Query R.Entity
  | cigars => CigarsDatabase.allAsc defaultWhere "name"
  | favoriteCigars => CigarsDatabase.favoritesAllAsc defaultWhere "name"
  | humidors => HumidorsDatabase.allAsc "name"
  | cigarHumidors id => HumidorCigarsDatabase.cigarHumidors id "%%" "%%" "name"
  | humidorCigars id => HumidorCigarsDatabase.humidorCigars id defaultWhere "name"
  | cigarHistory id => HistoryDatabase.cigarHistoryDesc id
  | humidorHistory id => HistoryDatabase.humidorHistoryDesc id
  | cigarImages id => ImagesDatabase.cigarImages id
  | humidorImages id => ImagesDatabase.humidorImages id

theorem source_none (R : LocalRepository) : R.source none none = .ok R.unfiltered := by
  cases R <;> rfl

theorem allSync_none (R : LocalRepository) (db : Database) :
    R.allSync none none db = collectRows (R.unfiltered db) :=
  allSync_of_all ((all_eq_source R none none).trans (source_none R)) db

/-- Every row of the unfiltered list can be mapped: the rows it names are stored. -/
def Readable (R : LocalRepository) (db : Database) : Prop :=
  match R with
  | cigarHumidors cigarId => ∀ r ∈ db.cigarHumidorTable.rows, r.1.2 = cigarId →
      db.humidorsTable.contains r.1.1 = true → db.cigarsTable.contains r.1.2 = true
  | humidorCigars humidorId => ∀ r ∈ db.cigarHumidorTable.rows, r.1.1 = humidorId →
      db.cigarsTable.contains r.1.2 = true → db.humidorsTable.contains r.1.1 = true
  | cigarHistory id => ∀ r ∈ db.historyTable.rows, r.2.cigarId = some id → r.2.Resolves db
  | humidorHistory id => ∀ r ∈ db.historyTable.rows, r.2.humidorTo = id ∨ r.2.humidorFrom = id →
      r.2.Resolves db
  | _ => True

/-- As `Readable`, whatever cigars are stored: a row with a cigar that is not visible is not read. -/
def Resolved (R : LocalRepository) (db : Database) : Prop :=
  match R with
  | humidorCigars humidorId => ∀ r ∈ db.cigarHumidorTable.rows, r.1.1 = humidorId →
      ∀ x, db.cigarsTable.find? r.1.2 = some x → x.Visible → db.humidorsTable.contains r.1.1 = true
  | R => R.Readable db

theorem cigarHumidors_mapped_iff (id : ℤ) (db : Database) :
    (∀ r ∈ innerJoin db.cigarHumidorTable Prod.fst db.humidorsTable.toTable,
      HumidorCigarsDatabase.cigarHumidorsCond id "%%" "%%" r = some true →
        ∃ entity, HumidorCigarsDatabase.mapper db r.1 = .ok entity) ↔ (cigarHumidors id).Resolved db := by
  constructor
  · intro h r hr hid hhum
    obtain ⟨x, hx⟩ := (Table.contains_iff _ _).mp hhum
    have hok := h (r, x) (mem_innerJoin.mpr ⟨hr, hx⟩) ((cigarHumidorsCond_default _ _).mpr hid)
    exact ((mapper_ok_iff db r).mp hok).2
  · intro h r hr hcond
    obtain ⟨hr, hx⟩ := mem_innerJoin.mp hr
    have hhum := (Table.contains_iff _ _).mpr ⟨r.2, hx⟩
    exact (mapper_ok_iff db r.1).mpr ⟨hhum, h r.1 hr ((cigarHumidorsCond_default _ _).mp hcond) hhum⟩

theorem humidorCigars_mapped_iff (id : ℤ) (db : Database) :
    (∀ r ∈ innerJoin db.cigarHumidorTable Prod.snd db.cigarsTable.toTable,
      HumidorCigarsDatabase.humidorCigarsCond id defaultWhere r = some true →
        ∃ entity, HumidorCigarsDatabase.mapper db r.1 = .ok entity) ↔ (humidorCigars id).Resolved db := by
  constructor
  · intro h r hr hid x hx hvisible
    have hok := h (r, x) (mem_innerJoin.mpr ⟨hr, hx⟩) ((humidorCigarsCond_default _ _).mpr ⟨hid, hvisible⟩)
    exact ((mapper_ok_iff db r).mp hok).1
  · intro h r hr hcond
    obtain ⟨hr, hx⟩ := mem_innerJoin.mp hr
    obtain ⟨hid, hvisible⟩ := (humidorCigarsCond_default _ _).mp hcond
    have hcig := (Table.contains_iff _ _).mpr ⟨r.2, hx⟩
    exact (mapper_ok_iff db r.1).mpr ⟨h r.1 hr hid r.2 hx hvisible, hcig⟩

theorem cigarHistory_mapped_iff (id : ℤ) (db : Database) :
    (∀ r ∈ db.historyTable.rows, HistoryDatabase.ofCigar id r.2 = some true →
      ∃ entity, historyFactory db r.1 r.2 = .ok entity) ↔ (cigarHistory id).Resolved db :=
  forall₂_congr fun r _ =>
    imp_congr (HistoryDatabase.ofCigar_eq_true id r.2) (historyFactory_ok_iff db r.1 r.2)

theorem humidorHistory_mapped_iff (id : ℤ) (db : Database) :
    (∀ r ∈ db.historyTable.rows, HistoryDatabase.ofHumidor id r.2 = some true →
      ∃ entity, historyFactory db r.1 r.2 = .ok entity) ↔ (humidorHistory id).Resolved db :=
  forall₂_congr fun r _ =>
    imp_congr (HistoryDatabase.ofHumidor_eq_true id r.2) (historyFactory_ok_iff db r.1 r.2)

/-- The count query counts what the unfiltered list has. -/
def CountsTheList (R : LocalRepository) (db : Database) : Prop :=
  match R with
  | cigars => ∀ r ∈ db.cigarsTable.rows, r.2.favorites = false
  | cigarHumidors id => (db.cigarHumidorTable.rows.countP fun r => r.1.1 == id) =
      db.cigarHumidorTable.rows.countP fun r => r.1.2 == id && db.humidorsTable.contains r.1.1
  | humidorCigars id => (db.cigarHumidorTable.rows.countP fun r => r.1.2 == id) =
      db.cigarHumidorTable.rows.countP fun r => r.1.1 == id && db.cigarsTable.contains r.1.2
  | _ => True

section Agreement
variable {db : Database} (hvisible : ∀ r ∈ db.cigarsTable.rows, r.2.Visible)
include hvisible

theorem visible_of_find? {id : ℤ} {r : CigarsTable} (h : db.cigarsTable.find? id = some r) : r.Visible :=
  hvisible (id, r) ((Table.mem_rows_iff _ _ _).mpr h)

theorem resolved_iff_readable (R : LocalRepository) : R.Resolved db ↔ R.Readable db := by
  cases R with
  | humidorCigars id =>
    constructor
    · intro h r hr hid hcig
      obtain ⟨x, hx⟩ := (Table.contains_iff _ _).mp hcig
      exact h r hr hid x hx (visible_of_find? hvisible hx)
    · intro h r hr hid x hx _
      exact h r hr hid ((Table.contains_iff _ _).mpr ⟨x, hx⟩)
  | _ => exact Iff.rfl

theorem exists_allSync_iff (R : LocalRepository) :
    (∃ rows, R.allSync none none db = .ok rows) ↔ R.Readable db := by
  rw [allSync_none, ← resolved_iff_readable hvisible]
  cases R with
  | cigars | favoriteCigars | humidors | cigarImages id | humidorImages id =>
    exact iff_of_true ⟨_, collectRows_map_comp_ok _ _⟩ trivial
  | cigarHumidors id => exact (exists_collectRows_select_iff _ _ _ _ _).trans (cigarHumidors_mapped_iff id db)
  | humidorCigars id => exact (exists_collectRows_select_iff _ _ _ _ _).trans (humidorCigars_mapped_iff id db)
  | cigarHistory id => exact (exists_collectRows_select_iff _ _ _ _ _).trans (cigarHistory_mapped_iff id db)
  | humidorHistory id =>
    exact (exists_collectRows_select_iff _ _ _ _ _).trans (humidorHistory_mapped_iff id db)

theorem counted_eq_matched_iff (R : LocalRepository) :
    R.counted db = R.matched none db ↔ R.CountsTheList db := by
  have hcond : ∀ r ∈ db.cigarsTable.rows, defaultWhere.cond r.2 = some true := fun r hr =>
    (cond_defaultWhere _).mpr (hvisible r hr)
  cases R with
  | humidors | cigarHistory id | humidorHistory id | cigarImages id | humidorImages id =>
    exact iff_of_true rfl trivial
  | cigars =>
    have hmatched : cigars.matched none db = db.cigarsTable.rows.length :=
      List.countP_eq_length.mpr fun r hr => decide_eq_true (hcond r hr)
    rw [hmatched]
    refine List.countP_eq_length.trans ?_
    simp only [CountsTheList, beq_iff_eq]
  | favoriteCigars =>
    refine iff_of_true (List.countP_congr fun r hr => ?_) trivial
    have hfav : (CigarsDatabase.favoritesCond defaultWhere r.2 = some true) ↔ r.2.favorites = true := by
      rw [CigarsDatabase.favoritesCond_eq_true]
      exact and_iff_right (hcond r hr)
    exact (beq_iff_eq).trans (hfav.symm.trans decide_eq_true_iff.symm)
  | cigarHumidors id =>
    have hmatched : (cigarHumidors id).matched none db =
        db.cigarHumidorTable.rows.countP fun r => r.1.2 == id && db.humidorsTable.contains r.1.1 := by
      refine (countP_innerJoin _ _ _ (HumidorCigarsDatabase.cigarHumidorsCond id "%%" "%%")).trans
        (List.countP_congr fun r _ => ?_)
      simp [cigarHumidorsCond_default, Table.contains, Option.any_eq_true, Option.isSome_iff_exists, and_comm]
    rw [hmatched]
    exact Iff.rfl
  | humidorCigars id =>
    have hmatched : (humidorCigars id).matched none db =
        db.cigarHumidorTable.rows.countP fun r => r.1.1 == id && db.cigarsTable.contains r.1.2 := by
      refine (countP_innerJoin _ _ _ (HumidorCigarsDatabase.humidorCigarsCond id defaultWhere)).trans
        (List.countP_congr fun r _ => ?_)
      have hfind (x : CigarsTable) : db.cigarsTable.find? r.1.2 = some x → x.Visible :=
        visible_of_find? hvisible
      simp only [humidorCigarsCond_default, Table.contains, Option.any_eq_true, decide_eq_true_eq,
        Bool.and_eq_true, beq_iff_eq, Option.isSome_iff_exists]
      constructor
      · rintro ⟨x, hx, hid, -⟩
        exact ⟨hid, x, hx⟩
      · rintro ⟨hid, x, hx⟩
        exact ⟨x, hx, hid, hfind x hx⟩
    rw [hmatched]
    exact Iff.rfl

end Agreement

theorem count_eq (R : LocalRepository) (db : Database) : R.count db = .ok (R.counted db) := by
  cases R with
  | cigars => rfl
  | _ => exact pagingCount_eq _ db

/-- Where every cigar is visible, the list can be read and its length is the count exactly when
the rows it names are stored and the count query counts the same rows. -/
theorem count_eq_length_iff (R : LocalRepository) (db : Database)
    (hvisible : ∀ r ∈ db.cigarsTable.rows, r.2.Visible) :
    (∃ rows, R.allSync none none db = .ok rows ∧ R.count db = .ok rows.length) ↔
      R.Readable db ∧ R.CountsTheList db := by
  rw [← exists_allSync_iff hvisible, ← counted_eq_matched_iff hvisible]
  constructor
  · rintro ⟨rows, hrows, hcount⟩
    rw [count_eq, length_of_allSync hrows] at hcount
    exact ⟨⟨rows, hrows⟩, Except.ok.inj hcount⟩
  · rintro ⟨⟨rows, hrows⟩, hcount⟩
    refine ⟨rows, hrows, ?_⟩
    rw [count_eq, length_of_allSync hrows, hcount]

/-- A cigar in the humidor that has its number. -/
def inFirstHumidor : Database :=
  { ((Database.empty 0 0 0 0).addCigar (favorite "A")).addHumidor emptyHumidor with
    cigarHumidorTable := ⟨[((1, 1), ⟨1, 3⟩)], by decide⟩ }

theorem count_eq_length_inFirstHumidor :
    ∃ rows, (humidorCigars 1).allSync none none inFirstHumidor = .ok rows ∧
      (humidorCigars 1).count inFirstHumidor = .ok rows.length :=
  (count_eq_length_iff (humidorCigars 1) inFirstHumidor (by decide)).mpr
    ⟨by unfold Readable; decide, by unfold CountsTheList; decide⟩

/-- Two cigars are listed, none is counted. -/
theorem count_ne_length_twoFavorites : (∀ r ∈ twoFavorites.cigarsTable.rows, r.2.Visible) ∧
    cigars.allSync none none twoFavorites = .ok twoFavoritesList ∧ cigars.count twoFavorites = .ok 0 :=
  ⟨by decide, rfl, rfl⟩

end LocalRepository
end Cigars
