import Cigars.Listing.Paging

/-! The favourites are the cigars of the plain list that carry the flag, in the order of the plain
list, also after any number of toggles. -/
namespace Cigars
open Coroutine Sql SQLDelightBaseRepository

namespace LocalRepository

/-! ### The favourites query -/

theorem getSQLWhere_filterOf (T : Type) [SQLWhere T] (filter : Option FiltersList) {key : String}
    (hkey : key ≠ FAVORITES_ID) :
    getSQLWhere T (favoriteCigars.filterOf filter) key = getSQLWhere T filter key := by
  have hfind : (favoriteCigars.filterOf filter).bind (fun l => l.find? fun it => it.key == key) =
      filter.bind fun l => l.find? fun it => it.key == key := by
    have hne : (FAVORITES_ID == key) = false := beq_eq_false_iff_ne.mpr fun he => hkey he.symm
    cases filter with
    | none => simp [filterOf, hne]
    | some l => simp [filterOf, List.find?_append, hne]
  unfold getSQLWhere
  rw [hfind]

theorem cigarsWhere_filterOf (filter : Option FiltersList) :
    cigarsWhere (favoriteCigars.filterOf filter) = cigarsWhere filter := by
  unfold cigarsWhere
  rw [getSQLWhere_filterOf String filter (by decide : "name" ≠ FAVORITES_ID),
    getSQLWhere_filterOf String filter (by decide : "brand" ≠ FAVORITES_ID),
    getSQLWhere_filterOf String filter (by decide : "country" ≠ FAVORITES_ID),
    getSQLWhere_filterOf ℤ filter (by decide : "date" ≠ FAVORITES_ID),
    getSQLWhere_filterOf String filter (by decide : "cigar" ≠ FAVORITES_ID),
    getSQLWhere_filterOf ℤ filter (by decide : "gauge" ≠ FAVORITES_ID),
    getSQLWhere_filterOf String filter (by decide : "length" ≠ FAVORITES_ID),
    getSQLWhere_filterOf ℤ filter (by decide : "strength" ≠ FAVORITES_ID)]

/-- The favourites among the rows a plain query keeps, whether or not it keeps favourites only. -/
theorem filter_whereTrue_favorites (filter : Option FiltersList) (w : CigarsWhere)
    (rows : List (ℤ × CigarsTable)) :
    (whereTrue (fun r => cigarsCond filter w r.2) rows).filter (fun r => r.2.favorites) =
      whereTrue (fun r => CigarsDatabase.favoritesCond w r.2) rows := by
  unfold whereTrue
  rw [List.filter_filter]
  apply List.filter_congr
  intro r _
  rw [Bool.eq_iff_iff, Bool.and_eq_true, decide_eq_true_eq, decide_eq_true_eq]
  unfold cigarsCond
  split_ifs
  · rw [CigarsDatabase.favoritesCond_eq_true]
    tauto
  · rw [CigarsDatabase.favoritesCond_eq_true]
    tauto

/-- The cigars a listing query gives. -/
def selected (cond : CigarsTable → Truth) (sorting : Option Sorting) (db : Database) : List Cigar :=
  (orderBy (ascending sorting) (fun r => cigarsSort (sortKey sorting) r.2)
    (whereTrue (fun r => cond r.2) db.cigarsTable.rows)).map fun r => cigarFactory r.1 r.2

theorem executeAsList_select (cond : CigarsTable → Truth) (sorting : Option Sorting) (db : Database) :
    executeAsList (CigarsDatabase.select cond (ascending sorting) (sortKey sorting)) db =
      .ok (selected cond sorting db) := collectRows_map_comp_ok _ _

theorem allSync_cigars (sorting : Option Sorting) (filter : Option FiltersList) (db : Database) :
    cigars.allSync sorting filter db =
      (cigarsWhere filter).map fun w => selected (cigarsCond filter w) sorting db := by
  have hsource := all_eq_source cigars sorting filter
  unfold allSync SQLDelightBaseRepository.allSync
  rw [hsource]
  simp only [source]
  cases cigarsWhere filter with
  | error e => rfl
  | ok w => exact executeAsList_select _ sorting db

theorem selected_favorites (filter : Option FiltersList) (w : CigarsWhere) (sorting : Option Sorting)
    (db : Database) : selected (CigarsDatabase.favoritesCond w) sorting db =
      (selected (cigarsCond filter w) sorting db).filter Cigar.favorites := by
  unfold selected
  rw [← filter_whereTrue_favorites filter, ← filter_orderBy, List.filter_map]
  rfl

/-- The favourites are the plain list without the cigars that are none; both throw alike when the
filter has a value of the wrong type. -/
theorem allSync_favorites (sorting : Option Sorting) (filter : Option FiltersList) (db : Database) :
    favoriteCigars.allSync sorting filter db =
      (cigars.allSync sorting filter db).map (List.filter Cigar.favorites) := by
  have hsource := all_eq_source favoriteCigars sorting filter
  rw [allSync_cigars]
  unfold allSync SQLDelightBaseRepository.allSync
  rw [hsource]
  simp only [source, cigarsWhere_filterOf]
  cases cigarsWhere filter with
  | error e => rfl
  | ok w =>
    have hok := executeAsList_select (CigarsDatabase.favoritesCond w) sorting db
    rw [selected_favorites filter] at hok
    exact hok

/-! ### Toggles -/

/-- The calls of `updateFavorite` completed, one after the other. -/
def Toggled : Database → List (Bool × Cigar) → Database → Prop
  | db, [], db' => db' = db
  | db, (value, cigar) :: calls, db' =>
    ∃ db₁, (CigarsRepository.updateFavorite value cigar).Completes db db₁ ∧ Toggled db₁ calls db'

/-- The value of the last call for the cigar. -/
def lastCall (calls : List (Bool × Cigar)) (id : ℤ) : Option Bool :=
  (calls.reverse.find? fun call => call.2.rowid == id).map Prod.fst

theorem lastCall_cons (value : Bool) (cigar : Cigar) (calls : List (Bool × Cigar)) (id : ℤ) :
    lastCall ((value, cigar) :: calls) id =
      (lastCall calls id).or (if cigar.rowid = id then some value else none) := by
  unfold lastCall
  rw [List.reverse_cons, List.find?_append, Option.map_or]
  by_cases hid : cigar.rowid = id
  · simp [hid]
  · simp [hid]

/-- A first call writes the flag, and the others follow. -/
theorem Toggled.head {db db' : Database} {value : Bool} {cigar : Cigar} {calls : List (Bool × Cigar)}
    (h : Toggled db ((value, cigar) :: calls) db') :
    Toggled (CigarsDatabase.setFavorite value cigar.rowid db) calls db' := by
  obtain ⟨db₁, hfirst, hrest⟩ := h
  have hwrite := (updateFavorite_emits value cigar db).completes
  rw [Flow.Completes.unique hwrite hfirst]
  exact hrest

theorem Toggled.find?_eq {db db' : Database} {calls : List (Bool × Cigar)} (h : Toggled db calls db') (id : ℤ) :
    db'.cigarsTable.find? id = (db.cigarsTable.find? id).map fun r =>
      { r with favorites := (lastCall calls id).getD r.favorites } := by
  induction calls generalizing db with
  | nil =>
    have heq : db' = db := h
    rw [heq]
    cases db.cigarsTable.find? id with
    | none => rfl
    | some r => rfl
  | cons call calls ih =>
    obtain ⟨value, cigar⟩ := call
    have hset : (CigarsDatabase.setFavorite value cigar.rowid db).cigarsTable.find? id =
        if id = cigar.rowid then (db.cigarsTable.find? cigar.rowid).map fun r => { r with favorites := value }
        else db.cigarsTable.find? id := Table.find?_update _ _ _ _
    rw [ih h.head, hset, lastCall_cons]
    by_cases hid : id = cigar.rowid
    · rw [if_pos hid, if_pos hid.symm, hid, Option.map_map]
      cases lastCall calls cigar.rowid with
      | none => rfl
      | some last => rfl
    · rw [if_neg hid, if_neg fun he => hid he.symm, Option.or_none]

/-- A filter without the favourites parameter does not see the flag. -/
theorem cigarsCond_favorites {filter : Option FiltersList} (hfilter : hasParameter filter FAVORITES_ID = false)
    (w : CigarsWhere) (value : Bool) (r : CigarsTable) :
    cigarsCond filter w { r with favorites := value } = cigarsCond filter w r := by
  unfold cigarsCond
  rw [hfilter]
  rfl

/-- A toggle leaves the plain list with the same cigars in the same order. -/
theorem rowids_setFavorite {filter : Option FiltersList} (hfilter : hasParameter filter FAVORITES_ID = false)
    (w : CigarsWhere) (sorting : Option Sorting) (value : Bool) (id : ℤ) (db : Database) :
    (selected (cigarsCond filter w) sorting (CigarsDatabase.setFavorite value id db)).map Cigar.rowid =
      (selected (cigarsCond filter w) sorting db).map Cigar.rowid := by
  let toggle : ℤ × CigarsTable → ℤ × CigarsTable := fun r =>
    if r.1 = id then (r.1, { r.2 with favorites := value }) else r
  have hcond : ∀ r, cigarsCond filter w (toggle r).2 = cigarsCond filter w r.2 := by
    intro r
    dsimp only [toggle]
    split_ifs
    · exact cigarsCond_favorites hfilter w value r.2
    · rfl
  have hkey : ∀ r, cigarsSort (sortKey sorting) (toggle r).2 = cigarsSort (sortKey sorting) r.2 := by
    intro r
    dsimp only [toggle]
    split_ifs <;> rfl
  have hid : ∀ r, (toggle r).1 = r.1 := by
    intro r
    dsimp only [toggle]
    split_ifs <;> rfl
  have hwhere : whereTrue (fun r => cigarsCond filter w r.2) (db.cigarsTable.rows.map toggle) =
      (whereTrue (fun r => cigarsCond filter w r.2) db.cigarsTable.rows).map toggle := by
    unfold whereTrue
    rw [List.filter_map]
    simp only [Function.comp_def, hcond]
  have hrows : (CigarsDatabase.setFavorite value id db).cigarsTable.rows = db.cigarsTable.rows.map toggle := rfl
  unfold selected
  rw [hrows, hwhere, orderBy_map _ hkey, List.map_map, List.map_map, List.map_map]
  apply List.map_congr_left
  intro r _
  exact hid r

theorem Toggled.rowids {filter : Option FiltersList} (hfilter : hasParameter filter FAVORITES_ID = false)
    (sorting : Option Sorting) {db db' : Database} {calls : List (Bool × Cigar)} (h : Toggled db calls db') :
    (cigars.allSync sorting filter db').map (List.map Cigar.rowid) =
      (cigars.allSync sorting filter db).map (List.map Cigar.rowid) := by
  rw [allSync_cigars, allSync_cigars]
  cases cigarsWhere filter with
  | error e => rfl
  | ok w =>
    apply congrArg Except.ok
    induction calls generalizing db with
    | nil =>
      have heq : db' = db := h
      rw [heq]
    | cons call calls ih =>
      obtain ⟨value, cigar⟩ := call
      exact (ih h.head).trans (rowids_setFavorite hfilter w sorting value cigar.rowid db)

theorem exists_toggled (db : Database) (calls : List (Bool × Cigar)) : ∃ db', Toggled db calls db' := by
  induction calls generalizing db with
  | nil => exact ⟨db, rfl⟩
  | cons call calls ih =>
    obtain ⟨db', hrest⟩ := ih (CigarsDatabase.setFavorite call.1 call.2.rowid db)
    exact ⟨db', _, (updateFavorite_emits call.1 call.2 db).completes, hrest⟩

/-- The flag stored for a cigar. -/
def storedFavorite (db : Database) (id : ℤ) : Bool := (db.cigarsTable.find? id).any CigarsTable.favorites

/-- The flag a listed cigar shows: that of the last call, or the one stored before all calls. -/
theorem Toggled.favorites {db db' : Database} {calls : List (Bool × Cigar)} (h : Toggled db calls db')
    {cond : CigarsTable → Truth} {sorting : Option Sorting} {c : Cigar} (hc : c ∈ selected cond sorting db') :
    c.favorites = (lastCall calls c.rowid).getD (storedFavorite db c.rowid) := by
  obtain ⟨r, hr, rfl⟩ := List.mem_map.mp hc
  have hrow : r ∈ db'.cigarsTable.rows := List.mem_of_mem_filter ((perm_orderBy _ _ _).mem_iff.mp hr)
  have hfind := (Table.mem_rows_iff _ _ _).mp hrow
  rw [h.find?_eq] at hfind
  obtain ⟨r₀, hr₀, heq⟩ := Option.map_eq_some_iff.mp hfind
  have hstored : storedFavorite db r.1 = r₀.favorites := by
    unfold storedFavorite
    rw [hr₀]
    rfl
  change r.2.favorites = (lastCall calls r.1).getD (storedFavorite db r.1)
  rw [hstored, ← heq]

/-- The favourites view is the plain view restricted. After any calls of `updateFavorite` it has
the listed cigars whose last call had the value true or, without a call, were stored as
favourites; what the plain view lists does not change unless its filter asks for favourites. -/
theorem favorites_restrict (sorting : Option Sorting) (filter : Option FiltersList) (db : Database) :
    favoriteCigars.allSync sorting filter db =
      (cigars.allSync sorting filter db).map (List.filter Cigar.favorites) ∧
    ∀ calls : List (Bool × Cigar), (∃ db', Toggled db calls db') ∧ ∀ db', Toggled db calls db' →
      favoriteCigars.allSync sorting filter db' = (cigars.allSync sorting filter db').map
        (List.filter fun c : Cigar => (lastCall calls c.rowid).getD (storedFavorite db c.rowid)) ∧
      (hasParameter filter FAVORITES_ID = false →
        (cigars.allSync sorting filter db').map (List.map Cigar.rowid) =
          (cigars.allSync sorting filter db).map (List.map Cigar.rowid)) := by
  refine ⟨allSync_favorites sorting filter db, fun calls => ⟨exists_toggled db calls, ?_⟩⟩
  intro db' h
  refine ⟨?_, fun hfilter => h.rowids hfilter sorting⟩
  rw [allSync_favorites, allSync_cigars]
  cases cigarsWhere filter with
  | error e => rfl
  | ok w =>
    apply congrArg Except.ok
    apply List.filter_congr
    intro c hc
    exact h.favorites hc

/-- The first of two favourites is taken off: the other one is left. -/
theorem favorites_restrict_twoFavorites :
    Toggled twoFavorites [(false, { favorite "A" with rowid := 1 })]
        (CigarsDatabase.setFavorite false 1 twoFavorites) ∧
      favoriteCigars.allSync none none (CigarsDatabase.setFavorite false 1 twoFavorites) =
        .ok [{ favorite "B" with rowid := 2 }] := by
  have htoggled : Toggled twoFavorites [(false, { favorite "A" with rowid := 1 })]
      (CigarsDatabase.setFavorite false 1 twoFavorites) :=
    ⟨_, (updateFavorite_emits false _ twoFavorites).completes, rfl⟩
  exact ⟨htoggled, (((favorites_restrict none none twoFavorites).2 _).2 _ htoggled).1.trans rfl⟩

end LocalRepository
end Cigars
