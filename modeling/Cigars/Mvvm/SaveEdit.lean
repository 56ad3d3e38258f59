import Cigars.Repository.Adding
import Cigars.Text.Basic

/-! `onSaveEdit` of the two details screens. The entity that is saved is built anew from the fields
on the screen and the entity the screen was opened with. -/
namespace Cigars
open Coroutine Sql SQLDelightBaseRepository

/-! ### Cigars -/

/-- The entity, the humidor it is added to if it is new, and the fields on the screen. -/
structure CigarsDetailsScreenViewModel where
  entity : Cigar
  humidor : Option Humidor
  name : String
  brand : Option String
  country : Option String
  shape : String
  length : String
  gauge : ℤ
  wrapper : String
  binder : String
  filler : String
  strength : CigarStrength
  rating : Option ℤ
  myRating : Option ℤ
  favorites : Bool
  notes : Option String
  link : Option String
  count : ℤ
  price : Option Double

namespace CigarsDetailsScreenViewModel

/-- The constructor: every field starts with the value of the entity. -/
def opened (cigar : Cigar) (humidor : Option Humidor) : CigarsDetailsScreenViewModel where
  entity := cigar
  humidor := humidor
  name := cigar.name
  brand := cigar.brand
  country := cigar.country
  shape := cigar.cigar
  length := cigar.length
  gauge := cigar.gauge
  wrapper := cigar.wrapper
  binder := cigar.binder
  filler := cigar.filler
  strength := cigar.strength
  rating := cigar.rating
  myRating := cigar.myrating
  favorites := cigar.favorites
  notes := cigar.notes
  link := cigar.link
  count := cigar.count
  price := cigar.price

/-- `other` and `relations` are left to the defaults of the constructor. -/
def updated (vm : CigarsDetailsScreenViewModel) : Cigar where
  rowid := vm.entity.rowid
  name := vm.name
  brand := vm.brand
  country := vm.country
  date := vm.entity.date
  cigar := vm.shape
  wrapper := vm.wrapper
  binder := vm.binder
  gauge := vm.gauge
  length := vm.length
  strength := vm.strength
  rating := vm.rating
  myrating := vm.myRating
  notes := vm.notes
  filler := vm.filler
  link := vm.link
  count := vm.count
  shopping := vm.entity.shopping
  favorites := vm.favorites
  price := vm.entity.price

/-- A new cigar is added with the count and the price on the screen. -/
def onSaveEdit (now : ℤ) (vm : CigarsDetailsScreenViewModel) : DbAction Unit :=
  if vm.updated.rowid < 0 then
    match vm.humidor with
    | none => Action.throw .nullPointer
    | some humidor =>
      (CigarsRepository.add now { vm.updated with count := vm.count, price := vm.price } humidor).drain
  else (CigarsRepository.update vm.updated).drain

/-- The row with the fields on the screen in place of its own. -/
def edited (vm : CigarsDetailsScreenViewModel) (row : CigarsTable) : CigarsTable :=
  { row with
    name := vm.name
    brand := vm.brand
    country := vm.country
    cigar := vm.shape
    length := vm.length
    gauge := vm.gauge
    wrapper := vm.wrapper
    binder := vm.binder
    filler := vm.filler
    strength := vm.strength.toLong
    rating := vm.rating
    myrating := vm.myRating
    favorites := vm.favorites
    notes := vm.notes
    link := vm.link
    count := vm.count }

/-- The row has the fields on the screen and nothing else has changed. -/
structure OnlyEdited (vm : CigarsDetailsScreenViewModel) (id : ℤ) (row : CigarsTable) (db db' : Database) : Prop where
  row : db'.cigarsTable.find? id = some (vm.edited row)
  cigars : ∀ k ≠ id, db'.cigarsTable.find? k = db.cigarsTable.find? k
  humidors : db'.humidorsTable = db.humidorsTable
  stock : db'.cigarHumidorTable = db.cigarHumidorTable
  history : db'.historyTable = db.historyTable
  images : db'.imagesTable = db.imagesTable

/-- The row without the columns `onSaveEdit` has no value for. -/
def forgotten (row : CigarsTable) : CigarsTable := { row with other := none, relations := none }

theorem forgotten_eq_iff (row : CigarsTable) : forgotten row = row ↔ row.other = none ∧ row.relations = none := by
  constructor
  · intro heq
    have hother : none = row.other := congrArg CigarsTable.other heq
    have hrelations : none = row.relations := congrArg CigarsTable.relations heq
    exact ⟨hother.symm, hrelations.symm⟩
  · intro ⟨hother, hrelations⟩
    unfold forgotten
    rw [← hother, ← hrelations]

variable {vm : CigarsDetailsScreenViewModel} {id now : ℤ} {row : CigarsTable} {db db' : Database}

theorem columns_updated (hentity : vm.entity = cigarFactory id row) :
    vm.updated.columns = forgotten (vm.edited row) := by
  have hprice : bindReal (cigarFactory id row).price = row.price := bindReal_readReal row.price
  unfold updated Cigar.columns
  rw [hentity, hprice]
  rfl

theorem onSaveEdit_of_stored (now : ℤ) (hrow : db.cigarsTable.find? id = some row)
    (hentity : vm.entity = cigarFactory id row) (hid : 0 ≤ id) :
    (vm.onSaveEdit now).run db =
      (.ok (), { db with cigarsTable := db.cigarsTable.update id fun _ => forgotten (vm.edited row) }) := by
  have hrowid : vm.updated.rowid = id := congrArg Cigar.rowid hentity
  have hcontains : db.cigarsTable.contains vm.updated.rowid = true := by
    rw [hrowid, Table.contains_iff]
    exact ⟨row, hrow⟩
  have hupdate := update_emits cigarsTableQueries vm.updated db (congrArg Except.ok hcontains)
  have hwritten : cigarsTableQueries.update vm.updated db =
      { db with cigarsTable := db.cigarsTable.update id fun _ => forgotten (vm.edited row) } := by
    rw [← columns_updated hentity, ← hrowid]
    rfl
  unfold onSaveEdit
  rw [if_neg (by omega), ← hwritten]
  exact hupdate.completes.drain

theorem forgotten_eq_of_onlyEdited (hrow : db.cigarsTable.find? id = some row)
    (hentity : vm.entity = cigarFactory id row) (hid : 0 ≤ id) (hrun : (vm.onSaveEdit now).run db = (.ok (), db'))
    (hedited : OnlyEdited vm id row db db') : forgotten (vm.edited row) = vm.edited row := by
  have hsaved := onSaveEdit_of_stored now hrow hentity hid
  have hdb' := (Prod.mk.inj (hsaved.symm.trans hrun)).2
  have hstored : db'.cigarsTable.find? id = some (forgotten (vm.edited row)) := by
    rw [← hdb']
    exact Table.find?_update_self _ hrow
  exact Option.some.inj (hstored.symm.trans hedited.row)

/-- A cigar of a negative rowid is added as another one, which the history records. -/
theorem historyTable_ne_of_onSaveEdit (hrowid : vm.entity.rowid < 0)
    (hrun : (vm.onSaveEdit now).run db = (.ok (), db')) : db'.historyTable ≠ db.historyTable := by
  unfold onSaveEdit at hrun
  rw [if_pos (show vm.updated.rowid < 0 from hrowid)] at hrun
  cases hhumidor : vm.humidor with
  | none =>
    rw [hhumidor] at hrun
    cases hrun
  | some humidor =>
    rw [hhumidor] at hrun
    dsimp only at hrun
    obtain ⟨hgo, rfl⟩ := CigarsRepository.goesThrough_of_drain now _ hrun
    have hrows := (CigarsRepository.added_gained now hgo).history
    intro heq
    rw [heq] at hrows
    have hlength := congrArg List.length hrows
    simp at hlength

/-- Saving a stored cigar changes the fields on the screen and nothing else exactly if its row has no
relations and no `other`; if it has some, they are erased. -/
theorem onSaveEdit_onlyEdited_iff (now : ℤ) (hrow : db.cigarsTable.find? id = some row)
    (hentity : vm.entity = cigarFactory id row) :
    (∃ db', (vm.onSaveEdit now).run db = (.ok (), db') ∧ OnlyEdited vm id row db db') ↔
      0 ≤ id ∧ row.other = none ∧ row.relations = none := by
  have hrowid : vm.entity.rowid = id := congrArg Cigar.rowid hentity
  have hforgotten : forgotten (vm.edited row) = vm.edited row ↔ row.other = none ∧ row.relations = none :=
    forgotten_eq_iff (vm.edited row)
  constructor
  · intro ⟨db', hrun, hedited⟩
    have hid : 0 ≤ id := by
      by_contra hneg
      exact historyTable_ne_of_onSaveEdit (by omega) hrun hedited.history
    have hkept := forgotten_eq_of_onlyEdited hrow hentity hid hrun hedited
    exact ⟨hid, hforgotten.mp hkept⟩
  · intro ⟨hid, hnone⟩
    have hsaved := onSaveEdit_of_stored now hrow hentity hid
    rw [hforgotten.mpr hnone] at hsaved
    have hstored := Table.find?_update_self (fun _ => vm.edited row) hrow
    have hothers : ∀ k ≠ id,
        (db.cigarsTable.update id fun _ => vm.edited row).find? k = db.cigarsTable.find? k :=
      fun k hk => Table.find?_update_of_ne _ hk
    exact ⟨_, hsaved, hstored, hothers, rfl, rfl, rfl, rfl⟩

/-- The screen of the first cigar, with another name. -/
def renamed (cigar : Cigar) : CigarsDetailsScreenViewModel :=
  { opened (cigarFactory 1 cigar.columns) none with name := "Robusto" }

theorem onSaveEdit_onlyEdited_unrelated :
    (Database.empty 0 0 0 0 |>.addCigar emptyCigar).cigarsTable.find? 1 = some emptyCigar.columns ∧
      ∃ db', ((renamed emptyCigar).onSaveEdit 0).run (Database.empty 0 0 0 0 |>.addCigar emptyCigar) = (.ok (), db') ∧
        OnlyEdited (renamed emptyCigar) 1 emptyCigar.columns (Database.empty 0 0 0 0 |>.addCigar emptyCigar) db' :=
  ⟨by decide, (onSaveEdit_onlyEdited_iff 0 (by decide) rfl).mpr (by decide)⟩

/-- A cigar taken over from the online database remembers where it came from. -/
def imported : Cigar := { emptyCigar with relations := some [⟨"RapidAPI-Cigar", 7⟩] }

theorem not_onSaveEdit_onlyEdited_imported :
    (Database.empty 0 0 0 0 |>.addCigar imported).cigarsTable.find? 1 = some imported.columns ∧
      (renamed imported).entity = cigarFactory 1 imported.columns ∧
      ¬ ∃ db', ((renamed imported).onSaveEdit 0).run (Database.empty 0 0 0 0 |>.addCigar imported) = (.ok (), db') ∧
        OnlyEdited (renamed imported) 1 imported.columns (Database.empty 0 0 0 0 |>.addCigar imported) db' := by
  refine ⟨by decide, rfl, ?_⟩
  intro ⟨db', hrun, hedited⟩
  have hkept := forgotten_eq_of_onlyEdited (by decide) rfl (by decide) hrun hedited
  exact absurd hkept (by decide)

end CigarsDetailsScreenViewModel

/-! ### Humidors -/

/-- The fields of a humidor that can be edited. -/
structure HumidorFields where
  name : String
  brand : String
  holds : ℤ
  count : ℤ
  temperature : Option ℤ
  humidity : Option Double
  notes : Option String
  link : Option String
  deriving DecidableEq

def HumidorFields.of (humidor : Humidor) : HumidorFields where
  name := humidor.name
  brand := humidor.brand
  holds := humidor.holds
  count := humidor.count
  temperature := humidor.temperature
  humidity := humidor.humidity
  notes := humidor.notes
  link := humidor.link

structure HumidorDetailsScreenViewModel extends HumidorFields where
  entity : Humidor
  type : ℤ
  editing : Bool

namespace HumidorDetailsScreenViewModel

/-- The constructor: every field starts with the value of the entity. -/
def opened (humidor : Humidor) : HumidorDetailsScreenViewModel where
  toHumidorFields := HumidorFields.of humidor
  entity := humidor
  type := humidor.type
  editing := decide (humidor.rowid < 0)

/-- What the collector of `observe` does with a humidor the query emits. -/
def onObserved (vm : HumidorDetailsScreenViewModel) (it : Humidor) : HumidorDetailsScreenViewModel :=
  if vm.editing then vm else { vm with toHumidorFields := HumidorFields.of it, type := it.type }

def verifyFields (vm : HumidorDetailsScreenViewModel) : Bool :=
  isNotBlank vm.name && isNotBlank vm.brand && decide (0 < vm.holds)

def updated (vm : HumidorDetailsScreenViewModel) : Humidor where
  rowid := vm.entity.rowid
  name := vm.name
  brand := vm.brand
  holds := vm.holds
  count := vm.count
  temperature := vm.temperature
  humidity := vm.humidity
  notes := vm.notes
  link := vm.link

/-- `executeQuery` collects the flow of `add`. The flow of `update` is built and dropped: nobody
collects it. -/
def onSaveEdit (now : ℤ) (vm : HumidorDetailsScreenViewModel) : DbAction Unit :=
  if vm.entity.rowid < 0 then (HumidorsRepository.add now vm.updated).drain
  else
    have _flow : DbFlow Humidor := SQLDelightBaseRepository.update humidorsTableQueries vm.updated
    pure ()

/-- A view model opened on the stored humidor, once its observer has seen the row. -/
def fresh (id : ℤ) (db : Database) : Option HumidorDetailsScreenViewModel :=
  (db.humidorsTable.find? id).map fun row =>
    (opened (humidorFactory id row)).onObserved (humidorFactory id row)

/-- The row with the fields on the screen in place of its own. -/
def edited (fields : HumidorFields) (row : HumidorsTable) : HumidorsTable :=
  { row with
    name := fields.name
    brand := fields.brand
    holds := fields.holds
    count := fields.count
    temperature := fields.temperature
    humidity := bindReal fields.humidity
    notes := fields.notes
    link := fields.link }

/-- The row has the fields on the screen, its other columns as before, and the fields are shown again. -/
structure Saved (vm : HumidorDetailsScreenViewModel) (id : ℤ) (row : HumidorsTable) (db' : Database) : Prop where
  row : db'.humidorsTable.find? id = some (edited vm.toHumidorFields row)
  shown : (fresh id db').map toHumidorFields = some vm.toHumidorFields

variable {vm : HumidorDetailsScreenViewModel} {id now : ℤ} {row : HumidorsTable} {db db' : Database}

theorem fields_fresh (hrow : db.humidorsTable.find? id = some row) :
    (fresh id db).map toHumidorFields = some (HumidorFields.of (humidorFactory id row)) := by
  unfold fresh onObserved
  rw [hrow, Option.map_some, Option.map_some]
  split_ifs
  · rfl
  · rfl

theorem edited_of_humidorFactory (id : ℤ) (row : HumidorsTable) :
    edited (HumidorFields.of (humidorFactory id row)) row = row := by
  have hhumidity : bindReal (humidorFactory id row).humidity = row.humidity := bindReal_readReal row.humidity
  unfold edited HumidorFields.of
  rw [hhumidity]
  rfl

/-- The row of the humidor is never written. -/
theorem find?_of_onSaveEdit (hrow : db.humidorsTable.find? id = some row)
    (hrun : (vm.onSaveEdit now).run db = (.ok (), db')) : db'.humidorsTable.find? id = some row := by
  unfold onSaveEdit at hrun
  split_ifs at hrun with hnew
  · obtain ⟨-, rfl⟩ := HumidorsRepository.goesThrough_of_drain hrun
    exact AutoTable.find?_insert_of_find? _ hrow
  · have hsame : (Except.ok (), db) = (Except.ok (), db') := hrun
    rw [← (Prod.mk.inj hsame).2]
    exact hrow

/-- An edit of a stored humidor is saved only if it changes nothing. -/
theorem onSaveEdit_saved_iff (hrow : db.humidorsTable.find? id = some row)
    (_hentity : vm.entity = humidorFactory id row) (_hverified : vm.verifyFields = true)
    (hrun : (vm.onSaveEdit now).run db = (.ok (), db')) :
    Saved vm id row db' ↔ vm.toHumidorFields = HumidorFields.of (humidorFactory id row) := by
  have hstored := find?_of_onSaveEdit hrow hrun
  constructor
  · intro hsaved
    have hshown := hsaved.shown
    rw [fields_fresh hstored] at hshown
    exact (Option.some.inj hshown).symm
  · intro hfields
    have hedited : edited vm.toHumidorFields row = row := by
      rw [hfields, edited_of_humidorFactory]
    have hshown := fields_fresh hstored
    rw [← hfields] at hshown
    exact ⟨hedited.symm ▸ hstored, hshown⟩

/-- A stored humidor. -/
def cabinet : Humidor := { emptyHumidor with name := "Cabinet", brand := "Adorini", holds := 75 }

def cabinetStored : Database := (Database.empty 0 0 0 0).addHumidor cabinet

theorem onSaveEdit_saved_unchanged :
    Saved (opened (humidorFactory 1 cabinet.columns)) 1 cabinet.columns cabinetStored := by
  have hrow : cabinetStored.humidorsTable.find? 1 = some cabinet.columns := by decide
  have hrun : ((opened (humidorFactory 1 cabinet.columns)).onSaveEdit 0).run cabinetStored =
      (.ok (), cabinetStored) := rfl
  exact (onSaveEdit_saved_iff hrow rfl (by decide) hrun).mpr rfl

/-- The name is changed on the screen and saved: the row keeps the old one. -/
def cabinetRenamed : HumidorDetailsScreenViewModel :=
  { opened (humidorFactory 1 cabinet.columns) with name := "Desktop" }

theorem not_onSaveEdit_saved_renamed :
    cabinetStored.humidorsTable.find? 1 = some cabinet.columns ∧
      cabinetRenamed.entity = humidorFactory 1 cabinet.columns ∧ cabinetRenamed.verifyFields = true ∧
      (cabinetRenamed.onSaveEdit 0).run cabinetStored = (.ok (), cabinetStored) ∧
      ¬ Saved cabinetRenamed 1 cabinet.columns cabinetStored := by
  refine ⟨by decide, rfl, by decide, rfl, ?_⟩
  intro hsaved
  have hrow : some cabinet.columns = some (edited cabinetRenamed.toHumidorFields cabinet.columns) := hsaved.row
  exact absurd hrow (by decide)

end HumidorDetailsScreenViewModel
end Cigars
