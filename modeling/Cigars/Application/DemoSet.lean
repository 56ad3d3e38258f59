import Cigars.Collections.Basic
import Cigars.Coroutine.Variables
import Cigars.Repository.Batches
import Cigars.Repository.NewHumidors
import Cigars.Stock.References

/-! `createDemoSet` of the database and the start of the application, which runs it once. The flow of one
humidor has everything that belongs to it inside the transaction of its `add`. -/
namespace Cigars
open Coroutine Sql

/-- What a start of the application has beside the database: the preference, the state of the screen, and
the variables of `collectFirst` at the four places that call it. No call is entered again before it ends. -/
structure StartVars where
  isFirstStart : Bool
  initialized : Bool
  humidorImages : Flow.Collected CigarImage
  cigars : Flow.Collected Cigar
  cigarImages : Flow.Collected CigarImage
  reports : Flow.Collected (List CigarImage)

namespace StartVars

/-- At the start of the process. -/
def initial (isFirstStart : Bool) : StartVars := ⟨isFirstStart, false, ⟨0, []⟩, ⟨0, []⟩, ⟨0, []⟩, ⟨0, []⟩⟩

def humidorImagesVar : Variable StartVars (Flow.Collected CigarImage) where
  get := humidorImages
  set k t := { t with humidorImages := k }
  get_set _ _ := rfl
  set_set _ _ _ := rfl

def cigarsVar : Variable StartVars (Flow.Collected Cigar) where
  get := cigars
  set k t := { t with cigars := k }
  get_set _ _ := rfl
  set_set _ _ _ := rfl

def cigarImagesVar : Variable StartVars (Flow.Collected CigarImage) where
  get := cigarImages
  set k t := { t with cigarImages := k }
  get_set _ _ := rfl
  set_set _ _ _ := rfl

def reportsVar : Variable StartVars (Flow.Collected (List CigarImage)) where
  get := reports
  set k t := { t with reports := k }
  get_set _ _ := rfl
  set_set _ _ _ := rfl

end StartVars

/-! ### The batches among other variables -/

namespace SQLDelightBaseRepository
variable {ENTITY τ : Type}

def addAllAt (v : Variable τ (Flow.Collected ENTITY)) (add : ℤ → ENTITY → Flow (Database × τ) Exn ENTITY)
    (entities : List (ℤ × ENTITY)) : Flow (Database × τ) Exn (List ENTITY) := fun emit =>
  if entities.isEmpty then emit []
  else
    let list : List ENTITY := []
    Flow.collectFirstAt v ((Flow.asFlow entities).flatMapConcat fun entity => add entity.1 entity.2) entities.length
      fun _ => emit list

theorem addAllAt_collected (add : ℤ → ENTITY → Flow (Database × Flow.Collected ENTITY) Exn ENTITY)
    (entities : List (ℤ × ENTITY)) : addAllAt Flow.collected add entities = addAll add entities := rfl

end SQLDelightBaseRepository

namespace CigarsRepository
variable {τ : Type}

def addAllAt (v : Variable τ (Flow.Collected Cigar)) (cigars : List (ℤ × Cigar)) (humidor : Humidor) :
    Flow (Database × τ) Exn (List Cigar) :=
  if cigars.isEmpty then Flow.flowOf []
  else fun emit =>
    Flow.collectFirstAt v ((Flow.asFlow cigars).flatMapConcat fun it => addBeside it.1 it.2 humidor) cigars.length emit

theorem addAllAt_collected (cigars : List (ℤ × Cigar)) (humidor : Humidor) :
    addAllAt Flow.collected cigars humidor = addAll cigars humidor := rfl

end CigarsRepository

/-! ### The source -/

/-- `x!!`. -/
def notNull {α : Type} (x : Option α) : Except Exn α :=
  match x with
  | some a => .ok a
  | none => .error .nullPointer

/-- The three lists of the resource files, each humidor with the clock reading of its history entry.
`clock` has those of the cigars: by the humidor's rowid and the place in its batch. -/
structure DemoSet where
  humidors : List (ℤ × Humidor)
  cigars : List Cigar
  images : List CigarImage
  clock : ℤ → ℕ → ℤ
  imageData : String → Except Exn (Option (List UInt8))

namespace DemoSet
variable (demo : DemoSet)

/-- The copy of an image with its bytes, at the place it is for. -/
def copy (place : CigarImage → CigarImage) (it : CigarImage) : Except Exn CigarImage := do
  let notes ← notNull it.notes
  let bytes ← notNull (← demo.imageData notes)
  return { place it with rowid := -1, bytes, notes := none }

def humidorImages (h : Humidor) : Except Exn (List CigarImage) :=
  (demo.images.filter fun it => it.humidorId = h.other).mapM (demo.copy fun it => { it with humidorId := some h.rowid })

def cigarImages (cigar : Cigar) : Except Exn (List CigarImage) :=
  (demo.images.filter fun it => it.cigarId = cigar.myrating).mapM
    (demo.copy fun it => { it with cigarId := some cigar.rowid })

/-- The cigars of a humidor, each with its clock reading. -/
def cigarsIn (humidor : Humidor) : List (ℤ × Cigar) :=
  (((demo.cigars.filter fun it => it.other = humidor.other).map fun it => { it with rowid := -1 }).zipIdx).map
    fun it => (demo.clock humidor.rowid it.2, it.1)

/-- The images are stored by the base `add`, which has no clock. -/
def addImages (v : Variable StartVars (Flow.Collected CigarImage)) (images : List CigarImage) :
    Flow (Database × StartVars) Exn (List CigarImage) :=
  SQLDelightBaseRepository.addAllAt v (fun _ => SQLDelightBaseRepository.addBeside imagesTableQueries)
    (images.map fun it => (0, it))

def createDemoSet : Flow (Database × StartVars) Exn Bool := fun emit =>
  Flow.collectFirstAt StartVars.reportsVar
    ((((((Flow.asFlow demo.humidors).flatMapConcat fun it =>
      HumidorsRepository.addBeside it.1 it.2).flatMapConcat fun h =>
        Flow.after (Action.ofExcept (demo.humidorImages h)) fun images =>
          (addImages StartVars.humidorImagesVar images).flatMapConcat fun _ => Flow.flowOf h).flatMapConcat
      fun humidor => CigarsRepository.addAllAt StartVars.cigarsVar (demo.cigarsIn humidor) humidor).flatMapConcat
      fun it => Flow.asFlow it).flatMapConcat
      fun cigar => Flow.after (Action.ofExcept (demo.cigarImages cigar)) fun images =>
        addImages StartVars.cigarImagesVar images)
    demo.cigars.length fun _ => emit true

end DemoSet

namespace SqlDelightDatabase

/-- Five statements outside a transaction. -/
def reset : Action (Database × StartVars) Exn Unit := do
  Script.write fun s => ({ s.1 with cigarsTable := .empty s.1.cigarsTable.seq }, s.2)
  Script.write fun s => ({ s.1 with humidorsTable := .empty s.1.humidorsTable.seq }, s.2)
  Script.write fun s => ({ s.1 with imagesTable := .empty s.1.imagesTable.seq }, s.2)
  Script.write fun s => ({ s.1 with cigarHumidorTable := .empty }, s.2)
  Script.write fun s => ({ s.1 with historyTable := .empty s.1.historyTable.seq }, s.2)

end SqlDelightDatabase

namespace CigarsApplication

/-- The collector of the demo set's flow. -/
def created (_ : Bool) : Action (Database × StartVars) Exn Unit := do
  Script.write fun s => (s.1, { s.2 with isFirstStart := false })
  Script.write fun s => (s.1, { s.2 with initialized := true })

def launch (demo : DemoSet) : Action (Database × StartVars) Exn Unit := do
  let isFirstStart ← Script.read fun s => .ok s.2.isFirstStart
  if isFirstStart then do
    SqlDelightDatabase.reset
    demo.createDemoSet created
  else
    Script.write fun s => (s.1, { s.2 with initialized := true })

end CigarsApplication

/-! ### What the demo set is -/

def Database.addImage (image : CigarImage) (db : Database) : Database :=
  (ImagesDatabase.add image.bytes image.type image.image image.notes image.cigarId image.humidorId db).2

def Database.addImages (images : List CigarImage) (db : Database) : Database :=
  images.foldl (fun db image => db.addImage image) db

/-- The humidor under the rowid that its row will get. -/
def Humidor.numbered (humidor : Humidor) (db : Database) : Humidor :=
  { humidor with rowid := db.humidorsTable.nextRowid }

/-- The tables without their rows. The rowids stay used up. -/
def Database.cleared (db : Database) : Database :=
  .empty db.cigarsTable.seq db.humidorsTable.seq db.historyTable.seq db.imagesTable.seq

namespace DemoSet
variable (demo : DemoSet)

/-- The cigars as they are then stored, and the tables with them. -/
def addCigars (humidor : Humidor) : List (ℤ × Cigar) → Database → List Cigar × Database
  | [], db => ([], db)
  | it :: rest, db =>
    let added := addCigars humidor rest (CigarsRepository.added it.1 it.2 humidor db)
    (CigarsRepository.stored it.2 db :: added.1, added.2)

/-- A new humidor with its images, then its cigars. -/
def addContent (it : ℤ × Humidor) (images : List CigarImage) (db : Database) : List Cigar × Database :=
  addCigars (it.2.numbered db) (demo.cigarsIn (it.2.numbered db))
    ((HumidorsRepository.added it.1 it.2 db).addImages images)

def addCigarImages : List Cigar → Database → Except Exn Database
  | [], db => .ok db
  | cigar :: rest, db => do
    let images ← demo.cigarImages cigar
    addCigarImages rest (db.addImages images)

/-- One humidor with its images, its cigars and their images. -/
def fill (it : ℤ × Humidor) (db : Database) : Except Exn Database := do
  it.2.toString
  if 0 ≤ it.2.rowid ∧ db.humidorsTable.contains it.2.rowid = true then .error .cantInsert
  else do
    let images ← demo.humidorImages (it.2.numbered db)
    demo.addCigarImages (demo.addContent it images db).1 (demo.addContent it images db).2

/-- The humidors one by one, up to the first that cannot be filled. -/
def build : List (ℤ × Humidor) → Database → Except Exn Unit × Database
  | [], db => (.ok (), db)
  | it :: rest, db =>
    match demo.fill it db with
    | .ok db' => build rest db'
    | .error e => (.error e, db)

/-- How many cigars are put in the humidors. -/
def handled (humidors : List (ℤ × Humidor)) : ℕ := (humidors.map fun it => (demo.cigarsIn it.2).length).sum

end DemoSet

/-! ### The batches are what the flows do -/

namespace DemoSet
variable {demo : DemoSet}

private theorem minusOne : (-1 : ℤ) < 0 := by decide

theorem rowid_of_copy {place : CigarImage → CigarImage} {it image : CigarImage}
    (h : demo.copy place it = .ok image) : image.rowid < 0 := by
  unfold copy at h
  cases hnotes : notNull it.notes with
  | error e =>
    rw [hnotes] at h
    cases h
  | ok notes =>
    cases hdata : demo.imageData notes with
    | error e =>
      simp only [hnotes, bind, Except.bind, hdata] at h
      cases h
    | ok data =>
      cases hbytes : notNull data with
      | error e =>
        simp only [hnotes, bind, Except.bind, hdata, hbytes] at h
        cases h
      | ok bytes =>
        simp only [hnotes, bind, Except.bind, hdata, hbytes] at h
        cases h
        exact minusOne

theorem rowid_of_humidorImages {h : Humidor} {images : List CigarImage} (himages : demo.humidorImages h = .ok images) :
    ∀ image ∈ images, image.rowid < 0 := Collections.forall_of_mapM_ok (fun _ _ => rowid_of_copy) himages

theorem rowid_of_cigarImages {cigar : Cigar} {images : List CigarImage}
    (himages : demo.cigarImages cigar = .ok images) :
    ∀ image ∈ images, image.rowid < 0 := Collections.forall_of_mapM_ok (fun _ _ => rowid_of_copy) himages

theorem rowid_of_cigarsIn (demo : DemoSet) (humidor : Humidor) : ∀ it ∈ demo.cigarsIn humidor, it.2.rowid < 0 := by
  intro it hit
  obtain ⟨⟨cigar, i⟩, hmem, rfl⟩ := List.mem_map.mp hit
  obtain ⟨c, -, rfl⟩ := List.mem_map.mp (List.fst_mem_of_mem_zipIdx hmem)
  exact minusOne

theorem images_inTurn (images : List CigarImage) (hnew : ∀ image ∈ images, image.rowid < 0) (db : Database) :
    ∃ assigned, Flow.InTurn (fun it : ℤ × CigarImage => SQLDelightBaseRepository.add imagesTableQueries it.2) db
      (images.map fun it => (0, it)) assigned (db.addImages images) := by
  induction images generalizing db with
  | nil => exact ⟨[], .nil⟩
  | cons image images ih =>
    obtain ⟨assigned, hrest⟩ := ih (fun it hit => hnew it (List.mem_cons_of_mem _ hit)) (db.addImage image)
    have hisNew : (SQLDelightBaseRepository.isNew imagesTableQueries image).run db = (.ok true, db) :=
      SQLDelightBaseRepository.isNew_of_neg imagesTableQueries (hnew image List.mem_cons_self)
    have hadd := SQLDelightBaseRepository.add_emits imagesTableQueries hisNew rfl rfl
    exact ⟨_, .cons hadd hrest⟩

/-- An empty list is emitted once the images are stored. -/
theorem addImages_emits (v : Variable StartVars (Flow.Collected CigarImage)) {images : List CigarImage}
    (hnew : ∀ image ∈ images, image.rowid < 0) (db : Database) (t : StartVars) :
    ∃ t' back, (addImages v images).Emits (db, t) [] (db.addImages images, t') back ∧
      (t' = t ∨ ∃ k, t' = v.set k t) := by
  cases images with
  | nil => exact ⟨t, id, Flow.emits_flowOf [] (db, t), Or.inl rfl⟩
  | cons image images =>
    obtain ⟨assigned, hturn⟩ := images_inTurn (image :: images) hnew db
    obtain ⟨back, hemits⟩ := Flow.emits_collectFirstAt v
      (fun it : ℤ × CigarImage => SQLDelightBaseRepository.add_mirrors imagesTableQueries it.2) hturn
      (List.cons_ne_nil _ _) t
    exact ⟨_, back, fun emit => hemits fun _ => emit [], Or.inr ⟨_, rfl⟩⟩

section Cigars
variable {humidor : Humidor}

/-- What adding cigars to the humidor rests on and keeps. -/
structure Ready (humidor : Humidor) (db : Database) : Prop where
  references : References db
  target : db.humidorsTable.contains humidor.rowid = true

theorem Ready.goesThrough {db : Database} (h : Ready humidor db) (htext : humidor.toString = .ok ()) {cigar : Cigar}
    (hnew : cigar.rowid < 0) : CigarsRepository.AddGoesThrough cigar humidor db where
  new := Or.inl hnew
  free := by
    -- A row under the next rowid would name a cigar that is not stored.
    cases hrow : db.cigarHumidorTable.find? (humidor.rowid, db.cigarsTable.nextRowid) with
    | none => rfl
    | some r =>
      have hstored := (h.references.stock _ r hrow).2
      rw [(Table.contains_eq_false_iff _ _).mpr db.cigarsTable.find?_nextRowid] at hstored
      cases hstored
  text := htext
  target := h.target

theorem Ready.added {db : Database} (h : Ready humidor db) (htext : humidor.toString = .ok ()) (now : ℤ)
    {cigar : Cigar} (hnew : cigar.rowid < 0) : Ready humidor (CigarsRepository.added now cigar humidor db) where
  references := references_addCigar h.references now (h.goesThrough htext hnew)
  target := by
    rw [(CigarsRepository.added_gained now (h.goesThrough htext hnew)).humidors, AutoTable.toTable_update,
      Table.contains_update]
    exact h.target

theorem cigars_inTurn (htext : humidor.toString = .ok ()) {batch : List (ℤ × Cigar)}
    (hnew : ∀ it ∈ batch, it.2.rowid < 0) {db : Database} (h : Ready humidor db) :
    CigarsRepository.AddedInTurn humidor db batch (addCigars humidor batch db).1 (addCigars humidor batch db).2 ∧
      Ready humidor (addCigars humidor batch db).2 := by
  induction batch generalizing db with
  | nil => exact ⟨.nil, h⟩
  | cons it batch ih =>
    have hit := hnew it List.mem_cons_self
    have hadd := CigarsRepository.add_emits it.1 it.2 (h.goesThrough htext hit)
    obtain ⟨hturn, hready⟩ := ih (fun it hit => hnew it (List.mem_cons_of_mem _ hit)) (h.added htext it.1 hit)
    exact ⟨.cons hadd hturn, hready⟩

theorem length_addCigars (batch : List (ℤ × Cigar)) (db : Database) :
    (addCigars humidor batch db).1.length = batch.length := by
  induction batch generalizing db with
  | nil => rfl
  | cons it batch ih =>
    rw [addCigars, List.length_cons, List.length_cons, ih]

theorem addAllAt_emits {db db' : Database} {batch : List (ℤ × Cigar)} {emitted : List Cigar}
    (hturn : CigarsRepository.AddedInTurn humidor db batch emitted db') (t : StartVars) :
    ∃ t' back, (CigarsRepository.addAllAt StartVars.cigarsVar batch humidor).Emits (db, t) emitted (db', t') back ∧
      (t' = t ∨ ∃ k, t' = StartVars.cigarsVar.set k t) := by
  cases batch with
  | nil =>
    cases hturn
    exact ⟨t, id, Flow.emits_flowOf [] (db, t), Or.inl rfl⟩
  | cons it batch =>
    obtain ⟨back, hemits⟩ := Flow.emits_collectFirstAt StartVars.cigarsVar
      (fun it : ℤ × Cigar => CigarsRepository.add_mirrors it.1 it.2 humidor) hturn (List.cons_ne_nil _ _) t
    exact ⟨_, back, hemits, Or.inr ⟨_, rfl⟩⟩

end Cigars

theorem references_addImages {db : Database} (h : References db) (images : List CigarImage) :
    References (db.addImages images) := by
  induction images generalizing db with
  | nil => exact h
  | cons image images ih => exact ih ⟨h.stock, h.history⟩

theorem humidorsTable_addImages (images : List CigarImage) (db : Database) :
    (db.addImages images).humidorsTable = db.humidorsTable := by
  induction images generalizing db with
  | nil => rfl
  | cons image images ih => exact ih _

theorem references_addCigarImages {cigars : List Cigar} {db db' : Database} (h : References db)
    (himages : demo.addCigarImages cigars db = .ok db') : References db' := by
  induction cigars generalizing db with
  | nil =>
    cases himages
    exact h
  | cons cigar cigars ih =>
    rw [addCigarImages] at himages
    cases hload : demo.cigarImages cigar with
    | error e =>
      rw [hload] at himages
      cases himages
    | ok images =>
      rw [hload] at himages
      exact ih (references_addImages h images) himages

end DemoSet
end Cigars
