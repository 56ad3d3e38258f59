import Cigars.Repository.Adding

/-! What a failed `updateCount` or `moveCigar` leaves behind. Only the steps after the history
`add` run inside a transaction; the writes before it stay when a later step throws and the
`catch` swallows the exception. -/
namespace Cigars
open Coroutine Sql

/-- A call that completes without emitting leaves the tables as they were. -/
def LeavesNoTrace {α : Type} (F : DbFlow α) (db : Database) : Prop :=
  ∀ db', F.Silent db db' → db' = db

theorem leavesNoTrace_of_emits {α : Type} {F : DbFlow α} {db db' : Database} {a : α}
    {back : Database → Database} (h : F.Emits db a db' back) : LeavesNoTrace F db := by
  intro db'' hs
  exact absurd h.completes hs.not_completes

theorem leavesNoTrace_iff_of_silent {α : Type} {F : DbFlow α} {db db' : Database}
    (h : F.Silent db db') : LeavesNoTrace F db ↔ db' = db := by
  constructor
  · intro hn
    exact hn db' h
  · intro he db'' h'
    exact (h'.unique h).trans he

namespace Database

/-- The total of the humidor, where it is stored, is `count`. -/
def TotalIs (db : Database) (humidorId count : ℤ) : Prop :=
  ∀ r, db.humidorsTable.find? humidorId = some r → r.count = count

/-- The row of the cigar in the humidor, where there is one, holds `count`. -/
def RowIs (db : Database) (humidorId cigarId count : ℤ) : Prop :=
  ∀ r, db.cigarHumidorTable.find? (humidorId, cigarId) = some r → r.count = count

/-- `count` more make no difference to the row of the cigar in the humidor, where there is one. -/
def RowKeeps [LongReading] (db : Database) (humidorId cigarId count : ℤ) : Prop :=
  ∀ r, db.cigarHumidorTable.find? (humidorId, cigarId) = some r → r.count = long (r.count + count)

end Database

theorem setTotal_eq_self_iff (t : AutoTable HumidorsTable) (id count : ℤ) :
    (t.update id fun r => { r with count }) = t ↔ ∀ r, t.find? id = some r → r.count = count := by
  rw [AutoTable.update_eq_self_iff]
  refine forall₂_congr fun r _ => ?_
  constructor
  · intro h
    exact (congrArg HumidorsTable.count h).symm
  · intro h
    rw [← h]

theorem setRow_eq_self_iff (t : Table (ℤ × ℤ) CigarHumidorTable) (key : ℤ × ℤ) (count : ℤ) :
    (t.update key fun r => { r with count }) = t ↔ ∀ r, t.find? key = some r → r.count = count := by
  rw [Table.update_eq_self_iff]
  refine forall₂_congr fun r _ => ?_
  constructor
  · intro h
    exact (congrArg CigarHumidorTable.count h).symm
  · intro h
    rw [← h]

theorem updateCigarsCount_eq_self_iff (count id : ℤ) (db : Database) :
    HumidorsDatabase.updateCigarsCount count id db = db ↔ db.TotalIs id count := by
  rw [Database.TotalIs, ← setTotal_eq_self_iff]
  constructor
  · intro h
    exact congrArg Database.humidorsTable h
  · intro h
    rw [HumidorsDatabase.updateCigarsCount, h]

theorem stockUpdate_eq_self_iff (count h c : ℤ) (db : Database) :
    HumidorCigarsDatabase.update count h c db = db ↔ db.RowIs h c count := by
  rw [Database.RowIs, ← setRow_eq_self_iff]
  constructor
  · intro he
    exact congrArg Database.cigarHumidorTable he
  · intro he
    rw [HumidorCigarsDatabase.update, he]

namespace CigarHumidorRepository

theorem updateCount_leavesNoTrace_iff [LongReading] (now : ℤ) (entity : HumidorCigar) (count : ℤ)
    (price : Option Double) (db : Database) :
    LeavesNoTrace (updateCount now entity count price) db ↔
      db.cigarHumidorTable.contains (entity.humidor.rowid, entity.cigar.rowid) = false ∨
      db.cigarsTable.contains entity.cigar.rowid = true ∨
      db.RowIs entity.humidor.rowid entity.cigar.rowid count := by
  cases hrow : db.cigarHumidorTable.contains (entity.humidor.rowid, entity.cigar.rowid) with
  | false =>
    have hs := updateCount_silent_of_no_row now count price hrow
    simp only [leavesNoTrace_iff_of_silent hs, true_or]
  | true =>
    cases hcigar : db.cigarsTable.contains entity.cigar.rowid with
    | true =>
      have he := leavesNoTrace_of_emits (updateCount_emits now count price hrow hcigar)
      simp only [he, true_or, or_true]
    | false =>
      have hs := updateCount_silent_of_no_cigar now count price hrow hcigar
      rw [leavesNoTrace_iff_of_silent hs, countedRow, stockUpdate_eq_self_iff]
      simp

/-- Two tables are written; the database is unchanged when both are. -/
private theorem withTables_eq_self_iff (db : Database) (humidors : AutoTable HumidorsTable)
    (rows : Table (ℤ × ℤ) CigarHumidorTable) :
    { db with humidorsTable := humidors, cigarHumidorTable := rows } = db ↔
      humidors = db.humidorsTable ∧ rows = db.cigarHumidorTable := by
  constructor
  · intro h
    exact ⟨congrArg Database.humidorsTable h, congrArg Database.cigarHumidorTable h⟩
  · rintro ⟨rfl, rfl⟩
    rfl

section Move
variable [LongReading] {src : HumidorCigar} {dst : Humidor} {count : ℤ} {db : Database}

private theorem takeOut_of_lt (h : count < src.count) : db.takeOut src count =
    HumidorCigarsDatabase.update (long (src.count - count)) src.humidor.rowid src.cigar.rowid
      (HumidorsDatabase.updateCigarsCount (long (src.humidor.count - count)) src.humidor.rowid db) :=
  if_pos h

private theorem takeOut_of_le (h : src.count ≤ count) : db.takeOut src count =
    HumidorCigarsDatabase.remove src.humidor.rowid src.cigar.rowid db :=
  if_neg (not_lt.mpr h)

theorem takeOut_eq_self_iff
    (hsrc : db.cigarHumidorTable.contains (src.humidor.rowid, src.cigar.rowid) = true) :
    db.takeOut src count = db ↔ count < src.count ∧
      db.TotalIs src.humidor.rowid (long (src.humidor.count - count)) ∧
      db.RowIs src.humidor.rowid src.cigar.rowid (long (src.count - count)) := by
  by_cases hpart : count < src.count
  · rw [takeOut_of_lt hpart]
    refine (withTables_eq_self_iff db _ _).trans ?_
    simp only [hpart, true_and]
    exact and_congr (setTotal_eq_self_iff _ _ _) (setRow_eq_self_iff _ _ _)
  · rw [takeOut_of_le (not_lt.mp hpart)]
    obtain ⟨r, hr⟩ := (Table.contains_iff _ _).mp hsrc
    have hne : HumidorCigarsDatabase.remove src.humidor.rowid src.cigar.rowid db ≠ db :=
      fun he => Table.erase_ne_self hr (congrArg Database.cigarHumidorTable he)
    simp only [hpart, false_and, iff_false]
    exact hne

/-- The stock rows after the source row was lowered and the target row raised. -/
private theorem putInRow_setRow_eq_self_iff (t : Table (ℤ × ℤ) CigarHumidorTable) {k k' : ℤ × ℤ}
    {left : ℤ} (hk : t.contains k = true) (hk' : t.contains k' = true) :
    Database.putInRow k' count (t.update k fun r => { r with count := left }) = t ↔
      if k' = k then ∀ r, t.find? k = some r → r.count = long (left + count)
      else (∀ r, t.find? k = some r → r.count = left) ∧
        ∀ r, t.find? k' = some r → r.count = long (r.count + count) := by
  obtain ⟨r, hr⟩ := (Table.contains_iff _ _).mp hk
  obtain ⟨r', hr'⟩ := (Table.contains_iff _ _).mp hk'
  unfold Database.putInRow
  by_cases he : k' = k
  · subst he
    rw [Table.find?_update_self _ hr, if_pos rfl]
    dsimp only
    rw [Table.update_update_self, setRow_eq_self_iff]
  · rw [Table.find?_update_of_ne _ he, hr', if_neg he]
    dsimp only
    rw [Table.update_update_eq_self_iff _ _ _ (Ne.symm he), setRow_eq_self_iff, setRow_eq_self_iff]
    simp only [hr', Option.some.injEq, forall_eq']

theorem putIn_takeOut_eq_self_iff
    (hsrc : db.cigarHumidorTable.contains (src.humidor.rowid, src.cigar.rowid) = true)
    (hdst : TargetRow src dst count db) :
    (db.takeOut src count).putIn dst.rowid src.cigar.rowid count = db ↔ count < src.count ∧
      db.TotalIs src.humidor.rowid (long (src.humidor.count - count)) ∧
      if dst.rowid = src.humidor.rowid then db.RowIs src.humidor.rowid src.cigar.rowid (long src.count)
      else db.RowIs src.humidor.rowid src.cigar.rowid (long (src.count - count)) ∧
        db.RowKeeps dst.rowid src.cigar.rowid count := by
  by_cases hpart : count < src.count
  · rw [takeOut_of_lt hpart]
    refine (withTables_eq_self_iff db _ _).trans ?_
    simp only [hpart, true_and]
    refine and_congr (setTotal_eq_self_iff _ _ _) ?_
    refine (putInRow_setRow_eq_self_iff _ hsrc hdst.1).trans ?_
    simp only [Prod.mk.injEq, and_true, long_long_add, sub_add_cancel]
    rfl
  · -- A full move erased the source row, which the target row is not.
    rw [takeOut_of_le (not_lt.mp hpart)]
    have hne : dst.rowid ≠ src.humidor.rowid := fun he => hpart (hdst.2 he)
    obtain ⟨r, hr⟩ := (Table.contains_iff _ _).mp hsrc
    simp only [hpart, false_and, iff_false]
    intro he
    have hrows : Database.putInRow (dst.rowid, src.cigar.rowid) count
        (db.cigarHumidorTable.erase (src.humidor.rowid, src.cigar.rowid)) = db.cigarHumidorTable :=
      congrArg Database.cigarHumidorTable he
    have hgone : (Database.putInRow (dst.rowid, src.cigar.rowid) count
        (db.cigarHumidorTable.erase (src.humidor.rowid, src.cigar.rowid))).find?
          (src.humidor.rowid, src.cigar.rowid) = none := by
      rw [Database.find?_putInRow_of_ne _ _ fun hk => hne (congrArg Prod.fst hk).symm, Table.find?_erase,
        if_pos rfl]
    rw [hrows, hr] at hgone
    cases hgone

/-- A move that throws leaves the tables as they were: what it wrote before the throw was
already there. -/
def MoveHarmless (src : HumidorCigar) (dst : Humidor) (count : ℤ) (db : Database) : Prop :=
  if db.cigarHumidorTable.contains (src.humidor.rowid, src.cigar.rowid) = true then
    count < src.count ∧ db.TotalIs src.humidor.rowid (long (src.humidor.count - count)) ∧
      if TargetRow src dst count db ∧ db.humidorsTable.contains dst.rowid = true ∧
          db.cigarsTable.contains src.cigar.rowid = true then
        if dst.rowid = src.humidor.rowid then db.RowIs src.humidor.rowid src.cigar.rowid (long src.count)
        else db.RowIs src.humidor.rowid src.cigar.rowid (long (src.count - count)) ∧
        db.RowKeeps dst.rowid src.cigar.rowid count
      else db.RowIs src.humidor.rowid src.cigar.rowid (long (src.count - count))
  else src.count ≤ count ∨ db.TotalIs src.humidor.rowid (long (src.humidor.count - count))

theorem moveLeaves_eq_self_iff : moveLeaves src dst count db = db ↔ MoveHarmless src dst count db := by
  unfold moveLeaves MoveHarmless
  by_cases hsrc : db.cigarHumidorTable.contains (src.humidor.rowid, src.cigar.rowid) = true
  · rw [if_pos hsrc, if_pos hsrc]
    by_cases hfound : TargetRow src dst count db ∧ db.humidorsTable.contains dst.rowid = true ∧
        db.cigarsTable.contains src.cigar.rowid = true
    · rw [if_pos hfound, if_pos hfound]
      exact putIn_takeOut_eq_self_iff hsrc hfound.1
    · rw [if_neg hfound, if_neg hfound]
      exact takeOut_eq_self_iff hsrc
  · rw [if_neg hsrc, if_neg hsrc]
    by_cases hpart : src.count > count
    · rw [if_pos hpart, updateCigarsCount_eq_self_iff, or_iff_right (not_le.mpr hpart)]
    · simp only [if_neg hpart, not_lt.mp hpart, true_or]

theorem moveCigar_leavesNoTrace_iff (now : ℤ) (src : HumidorCigar) (dst : Humidor) (count : ℤ)
    (db : Database) :
    LeavesNoTrace (moveCigar now src dst count) db ↔
      MoveGoesThrough src dst count db ∨ MoveHarmless src dst count db := by
  by_cases hgo : MoveGoesThrough src dst count db
  · obtain ⟨back, he⟩ := moveCigar_emits count now hgo
    simp only [leavesNoTrace_of_emits he, hgo, true_or]
  · rw [leavesNoTrace_iff_of_silent (moveCigar_silent count now hgo), moveLeaves_eq_self_iff,
      or_iff_right hgo]

/-- When a failed stock change leaves no trace. -/
theorem failed_stockChange_leavesNoTrace_iff (now : ℤ) (db : Database) :
    (∀ (entity : HumidorCigar) (count : ℤ) (price : Option Double),
      LeavesNoTrace (updateCount now entity count price) db ↔
        db.cigarHumidorTable.contains (entity.humidor.rowid, entity.cigar.rowid) = false ∨
        db.cigarsTable.contains entity.cigar.rowid = true ∨
        db.RowIs entity.humidor.rowid entity.cigar.rowid count) ∧
    (∀ (src : HumidorCigar) (dst : Humidor) (count : ℤ),
      LeavesNoTrace (moveCigar now src dst count) db ↔
        MoveGoesThrough src dst count db ∨ MoveHarmless src dst count db) :=
  ⟨fun entity count price => updateCount_leavesNoTrace_iff now entity count price db,
    fun src dst count => moveCigar_leavesNoTrace_iff now src dst count db⟩

end Move

/-- Ten cigars in the first of two humidors; the second has short notes. -/
def twoHumidors : Database :=
  let db := Database.empty 0 0 0 0
  let db := db.addHumidor { emptyHumidor with name := "A", count := 10 }
  let db := db.addHumidor { emptyHumidor with name := "B", notes := some "dry" }
  (db.addCigar { emptyCigar with count := 10 }).putIn 1 1 10

/-- Four of the ten cigars are gone: the log line of the insert throws on the notes. -/
theorem moveCigar_leaves_trace : ∃ src dst db',
    twoHumidors.getHumidor 2 = .ok dst ∧ findHumidorCigar 1 1 twoHumidors = .ok (some src) ∧
      (moveCigar 0 src dst 4).Silent twoHumidors db' ∧ db' ≠ twoHumidors ∧
      db'.stock 1 1 = 6 ∧ db'.stock 2 1 = 0 := by
  refine ⟨⟨10, { emptyHumidor with rowid := 1, name := "A", count := 10 },
    { emptyCigar with rowid := 1, count := 10, relations := none }, -1⟩,
    { emptyHumidor with rowid := 2, name := "B", notes := some "dry" }, _, by decide, by decide,
    moveCigar_silent 4 0 ?_, by decide, by decide, by decide⟩
  intro h
  exact absurd h.text (by decide)

end CigarHumidorRepository
end Cigars
