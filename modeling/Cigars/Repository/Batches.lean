import Cigars.Coroutine.Beside
import Cigars.Repository.Adding
import Cigars.Repository.Local

/-! `addAll` of the base repository and of the cigars' own. The flows of the single `add`s are collected
by `collectFirst`, whose variables lie beside the database; a batch lists each entity with the clock
reading of its history entry. -/
namespace Cigars
open Coroutine Sql

/-! ### The single `add`s beside variables -/

namespace SQLDelightBaseRepository
variable {ENTITY τ : Type} (wrapper : DatabaseQueries ENTITY)

def addBeside (entity : ENTITY) : Flow (Database × τ) Exn ENTITY :=
  Flow.after (isNew wrapper entity).beside fun new =>
    if new then
      Flow.inTransaction <|
        Flow.after (Action.statement (wrapper.add entity)).beside fun id =>
          Flow.after (Action.ofExcept (wrapper.toString (wrapper.withRowid entity id))) fun _ =>
            Flow.flowOf (wrapper.withRowid entity id)
    else Flow.after (Action.ofExcept (wrapper.toString entity)) fun _ => Flow.throwing .cantInsert

theorem add_mirrors (entity : ENTITY) :
    (add wrapper entity).Mirrors (addBeside wrapper entity : Flow (Database × τ) Exn ENTITY) := by
  apply Flow.Mirrors.after (Script.mirrors_beside _)
  intro new
  cases new with
  | true =>
    apply Flow.Mirrors.inTransaction
    apply Flow.Mirrors.after (Script.mirrors_beside _)
    intro id
    exact Flow.Mirrors.after (Action.mirrors_ofExcept _) fun _ => Flow.mirrors_flowOf _
  | false => exact Flow.Mirrors.after (Action.mirrors_ofExcept _) fun _ => Flow.mirrors_throwing _

end SQLDelightBaseRepository

namespace HumidorsRepository
variable {τ : Type}

def addBeside (now : ℤ) (entity : Humidor) : Flow (Database × τ) Exn Humidor :=
  (SQLDelightBaseRepository.addBeside humidorsTableQueries entity).map fun it => do
    (SQLDelightBaseRepository.addBeside historyTableQueries (additionEntry now it)).drain
    return it

theorem add_mirrors (now : ℤ) (entity : Humidor) :
    (add now entity).Mirrors (addBeside now entity : Flow (Database × τ) Exn Humidor) := by
  apply Flow.Mirrors.map (SQLDelightBaseRepository.add_mirrors humidorsTableQueries entity)
  intro it
  have hhistory := SQLDelightBaseRepository.add_mirrors (τ := τ) historyTableQueries (additionEntry now it)
  exact hhistory.drain.bind fun _ => Script.mirrors_pure it

end HumidorsRepository

namespace CigarsRepository
variable {τ : Type}

def addBeside (now : ℤ) (cigar : Cigar) (humidor : Humidor) : Flow (Database × τ) Exn Cigar :=
  (SQLDelightBaseRepository.addBeside cigarsTableQueries cigar).flatMapConcat fun cigar =>
    (((SQLDelightBaseRepository.addBeside cigarHumidorTableQueries
        { count := cigar.count, humidor, cigar }).flatMapConcat fun it =>
      SQLDelightBaseRepository.addBeside historyTableQueries (additionEntry now it)).flatMapConcat fun it =>
      Flow.after (HumidorsRepository.getSync it.humidorTo.rowid).beside fun humidorTo =>
        Flow.after (Script.write (HumidorsDatabase.updateCigarsCount (long (humidorTo.count + it.count))
          it.humidorTo.rowid)).beside fun _ => Flow.flowOf it.humidorTo.rowid).flatMapConcat
      fun _ => Flow.flowOf cigar

theorem add_mirrors (now : ℤ) (cigar : Cigar) (humidor : Humidor) :
    (add now cigar humidor).Mirrors (addBeside now cigar humidor : Flow (Database × τ) Exn Cigar) := by
  apply Flow.Mirrors.flatMapConcat (SQLDelightBaseRepository.add_mirrors cigarsTableQueries cigar)
  intro cigar
  refine Flow.Mirrors.flatMapConcat (Flow.Mirrors.flatMapConcat (Flow.Mirrors.flatMapConcat ?_ ?_) ?_) ?_
  · exact SQLDelightBaseRepository.add_mirrors cigarHumidorTableQueries _
  · exact fun it => SQLDelightBaseRepository.add_mirrors historyTableQueries _
  · intro it
    apply Flow.Mirrors.after (Script.mirrors_beside _)
    intro humidorTo
    exact Flow.Mirrors.after (Script.mirrors_beside _) fun _ => Flow.mirrors_flowOf _
  · exact fun _ => Flow.mirrors_flowOf cigar

end CigarsRepository

/-! ### The batches -/

namespace SQLDelightBaseRepository

/-- `add` is the repository's own. What is emitted is the `list` declared here, not the one that
`collectFirst` fills. -/
def addAll {ENTITY : Type} (add : ℤ → ENTITY → Flow (Database × Flow.Collected ENTITY) Exn ENTITY)
    (entities : List (ℤ × ENTITY)) : Flow (Database × Flow.Collected ENTITY) Exn (List ENTITY) := fun emit =>
  if entities.isEmpty then emit []
  else
    let list : List ENTITY := []
    Flow.collectFirst ((Flow.asFlow entities).flatMapConcat fun entity => add entity.1 entity.2) entities.length
      fun _ => emit list

end SQLDelightBaseRepository

namespace CigarsRepository

def addAll (cigars : List (ℤ × Cigar)) (humidor : Humidor) :
    Flow (Database × Flow.Collected Cigar) Exn (List Cigar) :=
  if cigars.isEmpty then Flow.flowOf []
  else fun emit =>
    Flow.collectFirst ((Flow.asFlow cigars).flatMapConcat fun it => addBeside it.1 it.2 humidor) cigars.length emit

/-- The cigars are added one by one. -/
abbrev AddedInTurn (humidor : Humidor) : Database → List (ℤ × Cigar) → List Cigar → Database → Prop :=
  Flow.InTurn fun it => add it.1 it.2 humidor

variable {humidor : Humidor} {db db' : Database} {batch : List (ℤ × Cigar)} {emitted : List Cigar}

theorem addAll_emits (hturn : AddedInTurn humidor db batch emitted db') (collected : Flow.Collected Cigar) :
    ∃ collected' back, (addAll batch humidor).Emits (db, collected) emitted (db', collected') back := by
  unfold addAll
  cases batch with
  | nil =>
    cases hturn
    exact ⟨collected, id, Flow.emits_flowOf [] (db, collected)⟩
  | cons it batch =>
    obtain ⟨back, hrun⟩ := Flow.run_collectFirst (fun it : ℤ × Cigar => add_mirrors it.1 it.2 humidor) hturn
      (List.cons_ne_nil _ _) collected
    exact ⟨_, back, hrun⟩

/-- The tables with a row more for each cigar, under the given rowids, and the humidor's total raised by
all counts; no cigars leave it unwritten. -/
structure BatchGained (humidor : Humidor) (batch : List (ℤ × Cigar)) (ids : List ℤ) (db db' : Database) : Prop where
  length : ids.length = batch.length
  nodup : ids.Nodup
  fresh : ∀ id ∈ ids, db.cigarsTable.contains id = false
  cigars : db'.cigarsTable.rows = db.cigarsTable.rows ++ List.zipWith (fun it id => (id, it.2.columns)) batch ids
  stock : ∃ rows, db'.cigarHumidorTable.rows = db.cigarHumidorTable.rows ++ rows ∧
    rows.map (fun r => (r.1, r.2.count)) =
      List.zipWith (fun it id => ((humidor.rowid, id), it.2.count)) batch ids
  history : ∃ rows, db'.historyTable.rows = db.historyTable.rows ++ rows ∧
    rows.map Prod.snd = List.zipWith (fun it id =>
      { count := it.2.count, date := it.1, left := it.2.count, price := bindReal it.2.price,
        type := HistoryType.addition.type, cigarId := some id, humidorTo := humidor.rowid,
        humidorFrom := humidor.rowid }) batch ids
  humidors : db'.humidorsTable = db.humidorsTable.update humidor.rowid fun r =>
    { r with count := if batch.isEmpty then r.count else long (r.count + (batch.map fun it => it.2.count).sum) }
  images : db'.imagesTable = db.imagesTable

theorem batchGained_nil (humidor : Humidor) (db : Database) : BatchGained humidor [] [] db db where
  length := rfl
  nodup := List.nodup_nil
  fresh := by simp
  cigars := by simp
  stock := ⟨[], by simp⟩
  history := ⟨[], by simp⟩
  humidors := by
    symm
    rw [AutoTable.update_eq_self_iff]
    intro r _
    simp
  images := rfl

theorem BatchGained.cons {now : ℤ} {cigar : Cigar} {ids : List ℤ} (hgo : AddGoesThrough cigar humidor db)
    (h : BatchGained humidor batch ids (added now cigar humidor db) db') :
    BatchGained humidor ((now, cigar) :: batch) (db.cigarsTable.nextRowid :: ids) db db' where
  length := by rw [List.length_cons, List.length_cons, h.length]
  nodup := by
    have hadded : (db.cigarsTable.insert cigar.columns).contains db.cigarsTable.nextRowid = true :=
      (Table.contains_iff _ _).mpr ⟨_, AutoTable.find?_insert_nextRowid db.cigarsTable cigar.columns⟩
    rw [List.nodup_cons]
    refine ⟨fun hid => ?_, h.nodup⟩
    have hfresh : (db.cigarsTable.insert cigar.columns).contains db.cigarsTable.nextRowid = false := h.fresh _ hid
    rw [hadded] at hfresh
    cases hfresh
  fresh := by
    intro id hid
    rcases List.mem_cons.mp hid with rfl | hid
    · rw [Table.contains_eq_false_iff]
      exact db.cigarsTable.find?_nextRowid
    · have hfresh : (db.cigarsTable.insert cigar.columns).contains id = false := h.fresh id hid
      rw [← Bool.not_eq_true]
      intro hold
      rw [AutoTable.contains_insert_of_contains cigar.columns hold] at hfresh
      cases hfresh
  cigars := by
    rw [h.cigars, (added_gained now hgo).cigars, List.append_assoc]
    rfl
  stock := by
    obtain ⟨rows, hrows, hmap⟩ := h.stock
    rw [(added_gained now hgo).stock, List.append_assoc] at hrows
    refine ⟨_, hrows, ?_⟩
    rw [List.map_append, hmap]
    rfl
  history := by
    obtain ⟨rows, hrows, hmap⟩ := h.history
    rw [(added_gained now hgo).history, List.append_assoc] at hrows
    refine ⟨_, hrows, ?_⟩
    rw [List.map_append, hmap]
    rfl
  humidors := by
    rw [h.humidors, (added_gained now hgo).humidors, AutoTable.update_update_self]
    cases batch with
    | nil => simp
    | cons it batch => simp [add_assoc]
  images := by rw [h.images, (added_gained now hgo).images]

theorem of_emits {now : ℤ} {cigar it : Cigar} {db₁ : Database} {back : Database → Database}
    (h : (add now cigar humidor).Emits db it db₁ back) :
    AddGoesThrough cigar humidor db ∧ it = stored cigar db ∧ db₁ = added now cigar humidor db := by
  have hgo := goesThrough_of_completes now cigar h.completes
  exact ⟨hgo, h.unique (add_emits now cigar hgo)⟩

theorem AddedInTurn.gained (hturn : AddedInTurn humidor db batch emitted db') :
    ∃ ids, emitted = List.zipWith (fun it id => { it.2 with rowid := id }) batch ids ∧
      BatchGained humidor batch ids db db' := by
  induction hturn with
  | nil => exact ⟨[], rfl, batchGained_nil humidor _⟩
  | cons hadd _ ih =>
    obtain ⟨hgo, rfl, rfl⟩ := of_emits hadd
    obtain ⟨ids, hemitted, hgained⟩ := ih
    refine ⟨_, ?_, hgained.cons hgo⟩
    rw [hemitted]
    rfl

/-- A batch of cigars is emitted as one list, with new rowids, and leaves the tables as the cigars added
one by one do. -/
theorem addAll_eq_inTurn (hturn : AddedInTurn humidor db batch emitted db') (collected : Flow.Collected Cigar) :
    (∃ collected' back, (addAll batch humidor).Emits (db, collected) emitted (db', collected') back) ∧
      ∃ ids, emitted = List.zipWith (fun it id => { it.2 with rowid := id }) batch ids ∧
        BatchGained humidor batch ids db db' :=
  ⟨addAll_emits hturn collected, hturn.gained⟩

/-- A stored humidor without cigars, and two cigars to put in. -/
def humidorA : Humidor := { emptyHumidor with rowid := 1, name := "A" }

def oneHumidor : Database := (Database.empty 0 0 0 0).addHumidor humidorA

def twoCigars : List (ℤ × Cigar) := [(0, { emptyCigar with count := 3 }), (1, { emptyCigar with count := 4 })]

theorem addAll_eq_inTurn_twoCigars : ∃ emitted db', AddedInTurn humidorA oneHumidor twoCigars emitted db' ∧
    emitted.map Cigar.rowid = [1, 2] ∧ ∃ collected' back,
      (addAll twoCigars humidorA).Emits (oneHumidor, ⟨0, []⟩) emitted (db', collected') back := by
  have hfirst : AddGoesThrough { emptyCigar with count := 3 } humidorA oneHumidor :=
    ⟨Or.inl (by decide), rfl, rfl, by decide⟩
  have hsecond : AddGoesThrough { emptyCigar with count := 4 } humidorA
      (added 0 { emptyCigar with count := 3 } humidorA oneHumidor) :=
    ⟨Or.inl (by decide), by decide, rfl, by decide⟩
  have hturn : AddedInTurn humidorA oneHumidor twoCigars _ _ :=
    .cons (add_emits 0 _ hfirst) (.cons (add_emits 1 _ hsecond) .nil)
  exact ⟨_, _, hturn, rfl, (addAll_eq_inTurn hturn ⟨0, []⟩).1⟩

end CigarsRepository

/-! ### The batches of the base repository -/

namespace LocalRepository

def queries : (R : LocalRepository) → DatabaseQueries R.Entity
  | cigars => cigarsTableQueries
  | favoriteCigars => cigarsTableQueries
  | humidors => humidorsTableQueries
  | cigarHumidors _ => cigarHumidorTableQueries
  | humidorCigars _ => cigarHumidorTableQueries
  | cigarHistory _ => historyTableQueries
  | humidorHistory _ => historyTableQueries
  | cigarImages _ => imagesTableQueries
  | humidorImages _ => imagesTableQueries

/-- Only the humidors override `add(entity)`. -/
def add : (R : LocalRepository) → ℤ → R.Entity → DbFlow R.Entity
  | humidors => HumidorsRepository.add
  | R => fun _ entity => SQLDelightBaseRepository.add R.queries entity

def addBeside (R : LocalRepository) {τ : Type} (now : ℤ) (entity : R.Entity) : Flow (Database × τ) Exn R.Entity :=
  match R with
  | humidors => HumidorsRepository.addBeside now entity
  | R => SQLDelightBaseRepository.addBeside R.queries entity

theorem add_mirrors (R : LocalRepository) {τ : Type} (now : ℤ) (entity : R.Entity) :
    (R.add now entity).Mirrors (R.addBeside now entity : Flow (Database × τ) Exn R.Entity) := by
  cases R with
  | humidors => exact HumidorsRepository.add_mirrors now entity
  | _ => exact SQLDelightBaseRepository.add_mirrors _ entity

def addAll (R : LocalRepository) (entities : List (ℤ × R.Entity)) :
    Flow (Database × Flow.Collected R.Entity) Exn (List R.Entity) :=
  SQLDelightBaseRepository.addAll R.addBeside entities

/-- The entities are added one by one. -/
abbrev AddedInTurn (R : LocalRepository) : Database → List (ℤ × R.Entity) → List R.Entity → Database → Prop :=
  Flow.InTurn fun it => R.add it.1 it.2

variable {R : LocalRepository} {db db' : Database} {entities : List (ℤ × R.Entity)} {assigned : List R.Entity}

/-- The entities are added, and an empty list is emitted. -/
theorem addAll_emits_nil (hturn : R.AddedInTurn db entities assigned db') (collected : Flow.Collected R.Entity) :
    ∃ collected' back, (R.addAll entities).Emits (db, collected) [] (db', collected') back := by
  unfold addAll SQLDelightBaseRepository.addAll
  cases entities with
  | nil =>
    cases hturn
    exact ⟨collected, id, Flow.emits_flowOf [] (db, collected)⟩
  | cons it entities =>
    obtain ⟨back, hrun⟩ := Flow.run_collectFirst (fun it : ℤ × R.Entity => R.add_mirrors it.1 it.2) hturn
      (List.cons_ne_nil _ _) collected
    exact ⟨_, back, fun emit => hrun fun _ => emit []⟩

/-- `addAll` emits one list, of the entities under the rowids that `add` has assigned to them, and each of
them is stored. -/
def Reports (R : LocalRepository) (entities : List (ℤ × R.Entity)) (assigned : List R.Entity) (db : Database)
    (collected : Flow.Collected R.Entity) : Prop :=
  ∃ db' collected' back, (R.addAll entities).Emits (db, collected) assigned (db', collected') back ∧
    ∀ entity ∈ assigned,
      R.queries.contains (R.queries.identity entity).1 (R.queries.identity entity).2 db' = .ok true

/-- Only the empty batch is reported: the list that is emitted is never filled. -/
theorem addAll_reports_iff (hturn : R.AddedInTurn db entities assigned db')
    (collected : Flow.Collected R.Entity) : R.Reports entities assigned db collected ↔ entities = [] := by
  obtain ⟨collected₁, back₁, hnil⟩ := addAll_emits_nil hturn collected
  constructor
  · rintro ⟨db₂, collected₂, back₂, hemits, -⟩
    have hassigned : assigned = [] := (hemits.unique hnil).1
    cases hturn with
    | nil => rfl
    | cons _ _ => cases hassigned
  · intro hempty
    subst hempty
    cases hturn
    exact ⟨db, collected₁, back₁, hnil, fun entity hentity => absurd hentity List.not_mem_nil⟩

theorem addAll_reports_none : (cigarImages 1).Reports [] [] (Database.empty 0 0 0 0) ⟨0, []⟩ :=
  (addAll_reports_iff (R := cigarImages 1) .nil ⟨0, []⟩).mpr rfl

/-- One image is stored as the first row, and the list emitted does not have it. -/
theorem not_addAll_reports_oneImage : ∃ image : CigarImage, image.rowid < 0 ∧
    ∃ db', (cigarImages 1).AddedInTurn (Database.empty 0 0 0 0) [(0, image)] [{ image with rowid := 1 }] db' ∧
      db'.imagesTable.contains 1 = true ∧
      ¬ (cigarImages 1).Reports [(0, image)] [{ image with rowid := 1 }] (Database.empty 0 0 0 0) ⟨0, []⟩ := by
  let image : CigarImage := { rowid := -1, bytes := [], cigarId := some 1 }
  have hnew : (SQLDelightBaseRepository.isNew imagesTableQueries image).run (Database.empty 0 0 0 0) =
      (.ok true, Database.empty 0 0 0 0) := SQLDelightBaseRepository.isNew_of_neg imagesTableQueries (by decide)
  have hadd := SQLDelightBaseRepository.add_emits imagesTableQueries hnew rfl rfl
  have hturn : (cigarImages 1).AddedInTurn (Database.empty 0 0 0 0) [(0, image)] _ _ := .cons hadd .nil
  refine ⟨image, by decide, _, hturn, rfl, ?_⟩
  rintro ⟨db₂, collected₂, back₂, hemits, -⟩
  obtain ⟨collected₁, back₁, hnil⟩ := addAll_emits_nil hturn ⟨0, []⟩
  cases (hemits.unique hnil).1

end LocalRepository
end Cigars
