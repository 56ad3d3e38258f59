import Cigars.Listing.Unfiltered

/-! In which order a list comes when a sorting parameter is given. Cigars, favourites and
humidors follow the parameter; the contents of a humidor and the humidors of a cigar are always
ascending, and history has the flag negated. -/
namespace Cigars
open Sql SQLDelightBaseRepository

/-! ### The columns a list can be sorted by -/

def Cigar.columnValue (key : String) (c : Cigar) : Value :=
  if key = "name" then .text c.name
  else if key = "brand" then .ofText c.brand
  else if key = "country" then .ofText c.country
  else if key = "date" then .ofInteger c.date
  else if key = "cigar" then .text c.cigar
  else if key = "gauge" then .integer c.gauge
  else if key = "length" then .text c.length
  else if key = "strength" then .integer c.strength.toLong
  else if key = "rating" then .ofInteger c.rating
  else if key = "myrating" then .ofInteger c.myrating
  else .null

def Humidor.columnValue (key : String) (h : Humidor) : Value :=
  if key = "name" then .text h.name
  else if key = "brand" then .text h.brand
  else if key = "count" then .integer h.count
  else if key = "holds" then .integer h.holds
  else .null

/-- A stock row among the humidors of a cigar: the count is its own, not that of the humidor. -/
def HumidorCigar.columnValue (key : String) (hc : HumidorCigar) : Value :=
  if key = "count" then .integer hc.count else hc.humidor.columnValue key

namespace LocalRepository

/-- The keys the `ORDER BY` of the repository's queries lists. -/
def sortKeys : LocalRepository → List String
  | cigars | favoriteCigars | humidorCigars _ =>
    ["name", "brand", "country", "date", "cigar", "gauge", "length", "strength", "rating", "myrating"]
  | humidors => ["name", "count", "holds"]
  | cigarHumidors _ => ["name", "brand", "count"]
  | cigarHistory _ | humidorHistory _ => ["date"]
  | cigarImages _ | humidorImages _ => []

/-- The column of an entity that a key names. -/
def columnValue (key : String) : (R : LocalRepository) → R.Entity → Value
  | cigars => fun c : Cigar => c.columnValue key
  | favoriteCigars => fun c : Cigar => c.columnValue key
  | humidors => fun h : Humidor => h.columnValue key
  | cigarHumidors _ => fun hc : HumidorCigar => hc.columnValue key
  | humidorCigars _ => fun hc : HumidorCigar => hc.cigar.columnValue key
  | cigarHistory _ => fun h : History => .integer h.date
  | humidorHistory _ => fun h : History => .integer h.date
  | cigarImages _ => fun _ => .null
  | humidorImages _ => fun _ => .null

/-- The direction asked for: ascending when the parameter's value is true, otherwise descending. -/
def asked (sorting : Sorting) : Direction := if sorting.value then .asc else .desc

def Sorted (R : LocalRepository) (sorting : Sorting) (rows : List R.Entity) : Prop :=
  (rows.map (R.columnValue sorting.key)).Pairwise fun v w => (asked sorting).le v w = true

/-- The parameter is followed, or the rows listed do not differ in the column. -/
def DirectionKept (R : LocalRepository) (sorting : Sorting) (db : Database) : Prop :=
  match R with
  | cigarHumidors id => sorting.value = true ∨
      ∀ r ∈ innerJoin db.cigarHumidorTable Prod.fst db.humidorsTable.toTable, r.1.1.2 = id →
      ∀ s ∈ innerJoin db.cigarHumidorTable Prod.fst db.humidorsTable.toTable, s.1.1.2 = id →
        cigarHumidorsSort sorting.key r.1.2 r.2 = cigarHumidorsSort sorting.key s.1.2 s.2
  | humidorCigars id => sorting.value = true ∨
      ∀ r ∈ innerJoin db.cigarHumidorTable Prod.snd db.cigarsTable.toTable, r.1.1.1 = id → r.2.Visible →
      ∀ s ∈ innerJoin db.cigarHumidorTable Prod.snd db.cigarsTable.toTable, s.1.1.1 = id → s.2.Visible →
        (cigarFactory r.1.1.2 r.2).columnValue sorting.key =
          (cigarFactory s.1.1.2 s.2).columnValue sorting.key
  | cigarHistory id => ∀ r ∈ db.historyTable.rows, r.2.cigarId = some id →
      ∀ s ∈ db.historyTable.rows, s.2.cigarId = some id → r.2.date = s.2.date
  | humidorHistory id => ∀ r ∈ db.historyTable.rows, r.2.humidorTo = id ∨ r.2.humidorFrom = id →
      ∀ s ∈ db.historyTable.rows, s.2.humidorTo = id ∨ s.2.humidorFrom = id → r.2.date = s.2.date
  | _ => True

end LocalRepository

/-! ### One sorted query -/

section Select
variable {ρ α : Type} {dir : Direction} {key : ρ → Value} {cond : ρ → Truth} {f : ρ → Except Exn α}
  {rows : List ρ} (dir' : Direction) (col : α → Value)

/-- A query sorted in the direction `dir` is sorted in the direction `dir'` when these are the
same or the rows it keeps do not differ. The value shown may be coarser than the sort key. -/
theorem exists_sorted_iff (shown : ρ → Value)
    (hcol : ∀ r ∈ rows, cond r = some true → ∀ a, f r = .ok a → col a = shown r)
    (hmono : ∀ r ∈ rows, cond r = some true → ∀ s ∈ rows, cond s = some true →
      dir.le (key r) (key s) = true → dir.le (shown r) (shown s) = true) :
    (∃ as, collectRows ((orderBy dir key (whereTrue cond rows)).map f) = .ok as ∧
      (as.map col).Pairwise fun v w => dir'.le v w = true) ↔
    (∀ r ∈ rows, cond r = some true → ∃ a, f r = .ok a) ∧
      (dir' = dir ∨ ∀ r ∈ rows, cond r = some true → ∀ s ∈ rows, cond s = some true → shown r = shown s) := by
  have hmem : ∀ r, r ∈ orderBy dir key (whereTrue cond rows) ↔ r ∈ rows ∧ cond r = some true := by
    intro r
    rw [(perm_orderBy _ _ _).mem_iff, whereTrue, List.mem_filter, decide_eq_true_eq]
  -- Every list the query gives shows the same values, and they are sorted.
  have hshown : ∀ as, collectRows ((orderBy dir key (whereTrue cond rows)).map f) = .ok as →
      as.map col = (orderBy dir key (whereTrue cond rows)).map shown := by
    intro as has
    apply map_of_collectRows col shown _ has
    intro r hr
    obtain ⟨hr, hcond⟩ := (hmem r).mp hr
    exact hcol r hr hcond
  have hsorted : ((orderBy dir key (whereTrue cond rows)).map shown).Pairwise fun v w => dir.le v w = true := by
    rw [List.pairwise_map]
    apply List.Pairwise.imp_of_mem _ (pairwise_orderBy dir key (whereTrue cond rows))
    intro r s hr hs hle
    obtain ⟨hr, hrcond⟩ := (hmem r).mp hr
    obtain ⟨hs, hscond⟩ := (hmem s).mp hs
    exact hmono r hr hrcond s hs hscond hle
  have htied : (∀ v ∈ (orderBy dir key (whereTrue cond rows)).map shown,
      ∀ w ∈ (orderBy dir key (whereTrue cond rows)).map shown, v = w) ↔
      ∀ r ∈ rows, cond r = some true → ∀ s ∈ rows, cond s = some true → shown r = shown s := by
    simp only [List.forall_mem_map, hmem, and_imp]
  rw [← exists_collectRows_select_iff dir key cond f rows, ← htied, ← pairwise_le_iff hsorted]
  constructor
  · rintro ⟨as, has, hpair⟩
    rw [hshown as has] at hpair
    exact ⟨⟨as, has⟩, hpair⟩
  · rintro ⟨⟨as, has⟩, hpair⟩
    rw [← hshown as has] at hpair
    exact ⟨as, has, hpair⟩

/-- The same with the sort key itself shown. -/
theorem exists_sorted_iff_of_eq
    (hcol : ∀ r ∈ rows, cond r = some true → ∀ a, f r = .ok a → col a = key r) :
    (∃ as, collectRows ((orderBy dir key (whereTrue cond rows)).map f) = .ok as ∧
      (as.map col).Pairwise fun v w => dir'.le v w = true) ↔
    (∀ r ∈ rows, cond r = some true → ∃ a, f r = .ok a) ∧
      (dir' = dir ∨ ∀ r ∈ rows, cond r = some true → ∀ s ∈ rows, cond s = some true → key r = key s) :=
  exists_sorted_iff dir' col key hcol fun _ _ _ _ _ _ hle => hle

end Select

/-! ### The columns shown and the sort keys -/

theorem strength_le {m n : ℤ} (hm : 0 ≤ m) (hmn : m ≤ n) :
    (CigarStrength.fromLong m).toLong ≤ (CigarStrength.fromLong n).toLong := by
  have hmin : ∀ k : ℤ, 0 ≤ k → (CigarStrength.fromLong k).toLong = min k 5 := by
    intro k hk
    unfold CigarStrength.fromLong
    split_ifs with h0 h1 h2 h3 h4
    · subst h0; rfl
    · subst h1; rfl
    · subst h2; rfl
    · subst h3; rfl
    · subst h4; rfl
    · have h5 : 5 ≤ k := by omega
      exact (min_eq_right h5).symm
  rw [hmin m hm, hmin n (by omega)]
  omega

/-- The strength an entity shows may be coarser than the one stored; every other column is shown
as it is. -/
theorem le_columnValue {dir : Direction} {key : String} {i j : ℤ} {r s : CigarsTable}
    (hr : 0 ≤ r.strength) (hs : 0 ≤ s.strength)
    (hle : dir.le (cigarsSort key r) (cigarsSort key s) = true) :
    dir.le ((cigarFactory i r).columnValue key) ((cigarFactory j s).columnValue key) = true := by
  have hother : key ≠ "strength" → ∀ i r, (cigarFactory i r).columnValue key = cigarsSort key r := by
    intro hkey i r
    unfold Cigar.columnValue cigarsSort
    rw [if_neg hkey, if_neg hkey]
    rfl
  by_cases hkey : key = "strength"
  · subst hkey
    have hle' : dir.le (.integer r.strength) (.integer s.strength) = true := hle
    change dir.le (.integer _) (.integer _) = true
    cases dir with
    | asc => exact decide_eq_true (strength_le hr (of_decide_eq_true hle'))
    | desc => exact decide_eq_true (strength_le hs (of_decide_eq_true hle'))
  · rw [hother hkey, hother hkey]
    exact hle

theorem humidor_columnValue {key : String} (hkey : key ∈ LocalRepository.humidors.sortKeys) (i : ℤ)
    (r : HumidorsTable) : (humidorFactory i r).columnValue key = humidorsSort key r := by
  simp only [LocalRepository.sortKeys, List.mem_cons, List.not_mem_nil, or_false] at hkey
  rcases hkey with rfl | rfl | rfl
  · rfl
  · rfl
  · rfl

namespace LocalRepository

theorem cigars_sorted (sorting : Sorting) (cond : CigarsTable → Truth)
    (hcond : ∀ r, cond r = some true → r.Visible) (db : Database) :
    ∃ rows, collectRows (CigarsDatabase.select cond (asked sorting) sorting.key db) = .ok rows ∧
      (rows.map (Cigar.columnValue sorting.key)).Pairwise fun v w => (asked sorting).le v w = true := by
  apply (exists_sorted_iff (asked sorting) (Cigar.columnValue sorting.key)
    (fun r => (cigarFactory r.1 r.2).columnValue sorting.key) _ _).mpr
  · exact ⟨fun r _ _ => ⟨_, rfl⟩, Or.inl rfl⟩
  · intro r _ _ a ha
    cases ha
    rfl
  · intro r _ hr s _ hs hle
    exact le_columnValue (hcond r.2 hr).strength (hcond s.2 hs).strength hle

theorem humidors_sorted (sorting : Sorting) (hkey : sorting.key ∈ humidors.sortKeys) (db : Database) :
    ∃ rows, collectRows (HumidorsDatabase.select (asked sorting) sorting.key db) = .ok rows ∧
      (rows.map (Humidor.columnValue sorting.key)).Pairwise fun v w => (asked sorting).le v w = true := by
  have hall : whereTrue (fun _ => some true) db.humidorsTable.rows = db.humidorsTable.rows :=
    List.filter_eq_self.mpr fun _ _ => rfl
  unfold HumidorsDatabase.select
  rw [← hall]
  apply (exists_sorted_iff_of_eq (asked sorting) (Humidor.columnValue sorting.key) _).mpr
  · exact ⟨fun r _ _ => ⟨_, rfl⟩, Or.inl rfl⟩
  · intro r _ _ a ha
    cases ha
    exact humidor_columnValue hkey r.1 r.2

theorem asked_eq_asc_iff (sorting : Sorting) : asked sorting = .asc ↔ sorting.value = true := by
  unfold asked
  cases sorting.value <;> simp

theorem cigarHumidors_sorted_iff (id : ℤ) (sorting : Sorting) (hkey : sorting.key ∈ (cigarHumidors id).sortKeys)
    (db : Database) :
    (∃ rows, collectRows (HumidorCigarsDatabase.cigarHumidors id "%%" "%%" sorting.key db) = .ok rows ∧
      (rows.map (HumidorCigar.columnValue sorting.key)).Pairwise fun v w => (asked sorting).le v w = true) ↔
    (cigarHumidors id).Resolved db ∧ (cigarHumidors id).DirectionKept sorting db := by
  have hcol : ∀ r ∈ innerJoin db.cigarHumidorTable Prod.fst db.humidorsTable.toTable,
      HumidorCigarsDatabase.cigarHumidorsCond id "%%" "%%" r = some true →
      ∀ a, HumidorCigarsDatabase.mapper db r.1 = .ok a →
        a.columnValue sorting.key = cigarHumidorsSort sorting.key r.1.2 r.2 := by
    intro r hr _ a ha
    obtain ⟨-, hhum⟩ := mem_innerJoin.mp hr
    obtain ⟨humidor, cigar, hhum', -, rfl⟩ := rows_of_humidorCigarFactory ha
    rw [hhum] at hhum'
    cases hhum'
    simp only [sortKeys, List.mem_cons, List.not_mem_nil, or_false] at hkey
    rcases hkey with hkey | hkey | hkey
    · rw [hkey]; rfl
    · rw [hkey]; rfl
    · rw [hkey]; rfl
  apply (exists_sorted_iff_of_eq (asked sorting) (HumidorCigar.columnValue sorting.key) hcol).trans
  rw [cigarHumidors_mapped_iff, asked_eq_asc_iff]
  simp only [cigarHumidorsCond_default]
  exact Iff.rfl

theorem humidorCigars_sorted_iff (id : ℤ) (sorting : Sorting) (db : Database) :
    (∃ rows, collectRows (HumidorCigarsDatabase.humidorCigars id defaultWhere sorting.key db) = .ok rows ∧
      (rows.map fun hc => hc.cigar.columnValue sorting.key).Pairwise
        fun v w => (asked sorting).le v w = true) ↔
    (humidorCigars id).Resolved db ∧ (humidorCigars id).DirectionKept sorting db := by
  have hcol : ∀ r ∈ innerJoin db.cigarHumidorTable Prod.snd db.cigarsTable.toTable,
      HumidorCigarsDatabase.humidorCigarsCond id defaultWhere r = some true →
      ∀ a, HumidorCigarsDatabase.mapper db r.1 = .ok a →
        a.cigar.columnValue sorting.key = (cigarFactory r.1.1.2 r.2).columnValue sorting.key := by
    intro r hr _ a ha
    obtain ⟨-, hcig⟩ := mem_innerJoin.mp hr
    obtain ⟨humidor, cigar, -, hcig', rfl⟩ := rows_of_humidorCigarFactory ha
    rw [hcig] at hcig'
    cases hcig'
    rfl
  have hmono : ∀ r ∈ innerJoin db.cigarHumidorTable Prod.snd db.cigarsTable.toTable,
      HumidorCigarsDatabase.humidorCigarsCond id defaultWhere r = some true →
      ∀ s ∈ innerJoin db.cigarHumidorTable Prod.snd db.cigarsTable.toTable,
      HumidorCigarsDatabase.humidorCigarsCond id defaultWhere s = some true →
      Direction.asc.le (cigarsSort sorting.key r.2) (cigarsSort sorting.key s.2) = true →
      Direction.asc.le ((cigarFactory r.1.1.2 r.2).columnValue sorting.key)
        ((cigarFactory s.1.1.2 s.2).columnValue sorting.key) = true := by
    intro r _ hr s _ hs hle
    have hvisible := ((humidorCigarsCond_default _ _).mp hr).2
    have hvisible' := ((humidorCigarsCond_default _ _).mp hs).2
    exact le_columnValue hvisible.strength hvisible'.strength hle
  apply (exists_sorted_iff (asked sorting) (fun hc : HumidorCigar => hc.cigar.columnValue sorting.key)
    _ hcol hmono).trans
  rw [humidorCigars_mapped_iff, asked_eq_asc_iff]
  simp only [humidorCigarsCond_default, and_imp]
  exact Iff.rfl

theorem history_sorted_iff (sorting : Sorting) (cond : HistoryTable → Truth) (db : Database) :
    (∃ rows, collectRows (HistoryDatabase.select cond (historyDirection (some sorting)) db) = .ok rows ∧
      (rows.map fun h => Value.integer h.date).Pairwise fun v w => (asked sorting).le v w = true) ↔
    (∀ r ∈ db.historyTable.rows, cond r.2 = some true → ∃ entry, historyFactory db r.1 r.2 = .ok entry) ∧
      ∀ r ∈ db.historyTable.rows, cond r.2 = some true →
      ∀ s ∈ db.historyTable.rows, cond s.2 = some true → r.2.date = s.2.date := by
  have hcol : ∀ r ∈ db.historyTable.rows, cond r.2 = some true →
      ∀ h, historyFactory db r.1 r.2 = .ok h → Value.integer h.date = .integer r.2.date := by
    intro r _ _ h hh
    obtain ⟨humTo, humFrom, cigar, -, -, -, rfl⟩ := entry_of_historyFactory hh
    rfl
  have hne : ¬ asked sorting = historyDirection (some sorting) := by
    unfold asked historyDirection accenting
    cases hvalue : sorting.value <;> simp [hvalue]
  apply (exists_sorted_iff_of_eq (asked sorting) (fun h : History => Value.integer h.date) hcol).trans
  simp only [hne, false_or, Value.integer.injEq]

/-- The list is there and sorted as the parameter says exactly when the rows it names are stored
and the direction is kept. -/
theorem sorted_iff (R : LocalRepository) (sorting : Sorting) (hkey : sorting.key ∈ R.sortKeys) (db : Database) :
    (∃ rows, R.allSync (some sorting) none db = .ok rows ∧ R.Sorted sorting rows) ↔
      R.Resolved db ∧ R.DirectionKept sorting db := by
  have hall : ∀ query, R.source (some sorting) none = .ok query →
      R.allSync (some sorting) none db = executeAsList query db :=
    fun _ hquery => allSync_of_all ((all_eq_source R (some sorting) none).trans hquery) db
  cases R with
  | cigars =>
    obtain ⟨rows, hrows, hsorted⟩ :=
      cigars_sorted sorting defaultWhere.cond (fun r => (cond_defaultWhere r).mp) db
    exact iff_of_true ⟨rows, (hall _ rfl).trans hrows, hsorted⟩ ⟨trivial, trivial⟩
  | favoriteCigars =>
    have hcond : ∀ r, CigarsDatabase.favoritesCond defaultWhere r = some true → r.Visible := by
      intro r hr
      exact (cond_defaultWhere r).mp ((CigarsDatabase.favoritesCond_eq_true _ r).mp hr).1
    obtain ⟨rows, hrows, hsorted⟩ := cigars_sorted sorting _ hcond db
    exact iff_of_true ⟨rows, (hall _ rfl).trans hrows, hsorted⟩ ⟨trivial, trivial⟩
  | humidors =>
    obtain ⟨rows, hrows, hsorted⟩ := humidors_sorted sorting hkey db
    exact iff_of_true ⟨rows, (hall _ rfl).trans hrows, hsorted⟩ ⟨trivial, trivial⟩
  | cigarHumidors id =>
    rw [hall _ rfl]
    exact cigarHumidors_sorted_iff id sorting hkey db
  | humidorCigars id =>
    rw [hall _ rfl]
    exact humidorCigars_sorted_iff id sorting db
  | cigarHistory id =>
    rw [hall _ rfl]
    apply (history_sorted_iff sorting _ db).trans
    rw [cigarHistory_mapped_iff]
    simp only [HistoryDatabase.ofCigar_eq_true]
    exact Iff.rfl
  | humidorHistory id =>
    rw [hall _ rfl]
    apply (history_sorted_iff sorting _ db).trans
    rw [humidorHistory_mapped_iff]
    simp only [HistoryDatabase.ofHumidor_eq_true]
    exact Iff.rfl
  | cigarImages id => cases hkey
  | humidorImages id => cases hkey

instance (R : LocalRepository) (sorting : Sorting) (rows : List R.Entity) : Decidable (R.Sorted sorting rows) :=
  inferInstanceAs (Decidable (List.Pairwise _ _))

/-- One humidor and two cigars, added one after the other. -/
def twoAdded : Database :=
  CigarsRepository.added 2 (favorite "B") { emptyHumidor with rowid := 1 } <|
    CigarsRepository.added 1 (favorite "A") { emptyHumidor with rowid := 1 } <|
      (Database.empty 0 0 0 0).addHumidor emptyHumidor

theorem sorted_twoAdded : "name" ∈ cigars.sortKeys ∧
    ∃ rows, cigars.allSync (some ⟨"name", false⟩) none twoAdded = .ok rows ∧ cigars.Sorted ⟨"name", false⟩ rows :=
  ⟨by decide, (sorted_iff cigars ⟨"name", false⟩ (by decide) twoAdded).mpr ⟨trivial, trivial⟩⟩

/-- The contents asked for from the last name on come from the first on, and the history asked
for from the oldest entry on comes from the newest on. -/
theorem not_sorted_twoAdded :
    (∃ rows, (humidorCigars 1).allSync (some ⟨"name", false⟩) none twoAdded = .ok rows ∧
      rows.map ((humidorCigars 1).columnValue "name") = [.text "A", .text "B"] ∧
      ¬ (humidorCigars 1).Sorted ⟨"name", false⟩ rows) ∧
    ∃ rows, (humidorHistory 1).allSync (some ⟨"date", true⟩) none twoAdded = .ok rows ∧
      rows.map ((humidorHistory 1).columnValue "date") = [.integer 2, .integer 1] ∧
      ¬ (humidorHistory 1).Sorted ⟨"date", true⟩ rows := by
  constructor
  · exact ⟨_, rfl, by decide, by decide⟩
  · exact ⟨_, rfl, by decide, by decide⟩

end LocalRepository
end Cigars
