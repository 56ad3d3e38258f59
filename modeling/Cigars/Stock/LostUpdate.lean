import Cigars.Coroutine.Interleaving
import Cigars.Stock.Totals

/-! Two moves out of one row, both asked for with the same snapshot of it. Each writes a count
computed from the snapshot, so the one that writes last overwrites the other. -/
namespace Cigars
open Coroutine Sql

/-! ### What the repositories' operations keep -/

namespace SQLDelightBaseRepository
variable {ENTITY : Type} (wrapper : DatabaseQueries ENTITY) {P : Database → Prop}

theorem isNew_keeps (entity : ENTITY) : (isNew wrapper entity).Keeps P fun _ => True := by
  unfold isNew
  split_ifs with hneg
  · trivial
  · exact Script.Keeps.bind ((Action.keeps_query fun _ _ _ => trivial).mono fun _ (_ : True) => trivial)

theorem add_keeps {entity : ENTITY}
    (h : ∀ s id s', wrapper.add entity s = .ok (id, s') → P s → P s') :
    (add wrapper entity).Keeps P fun _ => True := by
  have hinsert : (insert wrapper entity).Keeps P fun _ => True := by
    refine Flow.Keeps.inTransaction (Flow.keeps_after (Action.keeps_statement h) fun id _ => ?_)
    exact Flow.keeps_after (Action.keeps_ofExcept _) fun _ _ => Flow.keeps_flowOf trivial
  refine Flow.keeps_after (isNew_keeps wrapper entity) fun new _ => ?_
  cases new with
  | true => exact hinsert
  | false => exact Flow.keeps_after (Action.keeps_ofExcept _) fun _ _ => Flow.keeps_throwing _ _

theorem update_keeps {entity : ENTITY} (h : ∀ s, P s → P (wrapper.update entity s)) :
    (update wrapper entity).Keeps P fun _ => True := by
  refine Flow.keeps_after (Q := fun _ => True) (Action.keeps_query fun _ _ _ => trivial) fun stored _ => ?_
  cases stored with
  | true => exact Flow.keeps_after (Action.keeps_write h) fun _ _ => Flow.keeps_flowOf trivial
  | false => exact Flow.keeps_after (Action.keeps_ofExcept _) fun _ _ => Flow.keeps_throwing _ _

end SQLDelightBaseRepository

/-- The stock row under `key` is there, with a count in `V`. -/
def HasRow (key : ℤ × ℤ) (V : ℤ → Prop) (db : Database) : Prop :=
  ∃ r, db.cigarHumidorTable.find? key = some r ∧ V r.count

namespace HasRow
variable {key : ℤ × ℤ} {V : ℤ → Prop} {db : Database}

theorem update_self {count : ℤ} (hV : V count) (h : HasRow key V db) :
    HasRow key V (HumidorCigarsDatabase.update count key.1 key.2 db) := by
  obtain ⟨r, hr, -⟩ := h
  exact ⟨_, Table.find?_update_self _ hr, hV⟩

theorem update_other {count humidorId cigarId : ℤ} (hne : (humidorId, cigarId) ≠ key)
    (h : HasRow key V db) : HasRow key V (HumidorCigarsDatabase.update count humidorId cigarId db) := by
  obtain ⟨r, hr, hV⟩ := h
  exact ⟨r, (Table.find?_update_of_ne _ hne.symm).trans hr, hV⟩

theorem add_other {count humidorId cigarId id : ℤ} {db' : Database} (hne : (humidorId, cigarId) ≠ key)
    (hadd : HumidorCigarsDatabase.add count humidorId cigarId db = .ok (id, db')) (h : HasRow key V db) :
    HasRow key V db' := by
  obtain ⟨r, hr, hV⟩ := h
  unfold HumidorCigarsDatabase.add at hadd
  cases ht : db.cigarHumidorTable.insert? (humidorId, cigarId)
      ⟨HumidorCigarsDatabase.nextRowid db.cigarHumidorTable, count⟩ with
  | none => rw [ht] at hadd; cases hadd
  | some t =>
    rw [ht] at hadd
    cases hadd
    refine ⟨r, ?_, hV⟩
    change t.find? key = some r
    rw [Table.find?_of_insert? ht, if_neg hne.symm, hr]

end HasRow

namespace CigarHumidorRepository
variable {src : HumidorCigar} {dst : Humidor} {count : ℤ} {V : ℤ → Prop}

/-- The key of the row moved from. -/
abbrev sourceKey (src : HumidorCigar) : ℤ × ℤ := (src.humidor.rowid, src.cigar.rowid)

theorem updateCigarsCount_keeps (humidor total : ℤ) (key : ℤ × ℤ) :
    (HumidorsRepository.updateCigarsCount humidor total).Keeps (HasRow key V) fun _ => True :=
  Flow.keeps_after (Action.keeps_write fun _ h => h) fun _ _ => Flow.keeps_flowOf trivial

theorem moveFrom_keeps (hpart : count < src.count) (hV : V (long (src.count - count))) :
    (moveFrom src count).Keeps (HasRow (sourceKey src) V) fun _ => True := by
  rw [moveFrom, if_pos hpart]
  refine (updateCigarsCount_keeps _ _ _).flatMapConcat fun _ _ => ?_
  refine Flow.Keeps.flatMapConcat (SQLDelightBaseRepository.update_keeps cigarHumidorTableQueries ?_)
    fun _ _ => Flow.keeps_flowOf trivial
  exact fun s h => HasRow.update_self hV h

theorem moveTo_keeps (hother : dst.rowid ≠ src.humidor.rowid) :
    (moveTo src dst count).Keeps (HasRow (sourceKey src) V) fun _ => True := by
  have hne : (dst.rowid, src.cigar.rowid) ≠ sourceKey src := fun he => hother (congrArg Prod.fst he)
  refine Flow.keeps_after (Q := fun toEntry => ∀ entry, toEntry = some entry →
    entry.humidor.rowid = dst.rowid ∧ entry.cigar.rowid = src.cigar.rowid) (Action.keeps_query ?_) ?_
  · rintro s toEntry hfind entry rfl
    obtain ⟨row, humidor, cigar, -, -, -, rfl⟩ := rows_of_findHumidorCigar hfind
    exact ⟨rfl, rfl⟩
  · intro toEntry hids
    cases toEntry with
    | none => exact SQLDelightBaseRepository.add_keeps _ fun s id s' hadd h => HasRow.add_other hne hadd h
    | some entry =>
      obtain ⟨hhum, hcig⟩ := hids entry rfl
      refine SQLDelightBaseRepository.update_keeps _ fun s h => ?_
      exact HasRow.update_other (show (entry.humidor.rowid, entry.cigar.rowid) ≠ _ by rwa [hhum, hcig]) h

theorem moveCigar_keeps (now : ℤ) (hpart : count < src.count) (hV : V (long (src.count - count)))
    (hother : dst.rowid ≠ src.humidor.rowid) :
    (moveCigar now src dst count).Keeps (HasRow (sourceKey src) V) fun _ => True := by
  have hFrom := moveFrom_keeps hpart hV
  have hTo : (moveTo src dst count).Keeps (HasRow (sourceKey src) V) fun _ => True := moveTo_keeps hother
  have hTotal : (moveTotal dst count).Keeps (HasRow (sourceKey src) V) fun _ => True :=
    Flow.keeps_after (Action.keeps_ofExcept _) fun _ _ =>
      Flow.keeps_after (Q := fun _ => True) (Action.keeps_query fun _ _ _ => trivial) fun _ _ =>
        updateCigarsCount_keeps _ _ _
  have hHistory : (HistoryRepository.add (moveEntry now src dst count)).Keeps
      (HasRow (sourceKey src) V) fun _ => True := by
    refine SQLDelightBaseRepository.add_keeps _ fun s id s' hadd h => ?_
    cases hadd
    exact h
  have hAll := ((hFrom.flatMapConcat fun _ _ => hTo).flatMapConcat fun _ _ => hTotal).flatMapConcat
    fun _ _ => hHistory
  have hCaught := hAll.catchError (fun _ => pure ()) fun _ => trivial
  exact hCaught.flatMapConcat fun _ _ => Flow.keeps_flowOf trivial

theorem update_secures (hV : V count) :
    (update (src.copy count)).Secures (HasRow (sourceKey src) fun _ => True) (HasRow (sourceKey src) V) := by
  refine Flow.secures_after_query fun s hs => ?_
  obtain ⟨r, hr, -⟩ := hs
  refine ⟨true, congrArg Except.ok ((Table.contains_iff _ _).mpr ⟨r, hr⟩), ?_⟩
  refine Flow.secures_after_write (.inl fun t ht => ?_)
  obtain ⟨r', hr', -⟩ := ht
  exact ⟨_, Table.find?_update_self _ hr', hV⟩

/-- While the row is there, a partial move gets to writing it. -/
theorem moveCigar_secures (now : ℤ) (hpart : count < src.count) (hV : V (long (src.count - count))) :
    (moveCigar now src dst count).Secures (HasRow (sourceKey src) fun _ => True)
      (HasRow (sourceKey src) V) := by
  have hFrom : (moveFrom src count).Secures (HasRow (sourceKey src) fun _ => True)
      (HasRow (sourceKey src) V) := by
    rw [moveFrom, if_pos hpart]
    change (Flow.after (Script.write _) fun _ => (update (src.copy (long (src.count - count)))).flatMapConcat
      fun _ => Flow.flowOf true).Secures _ _
    exact Flow.secures_after_write (.inr ((update_secures hV).flatMapConcat _))
  exact (((((hFrom.flatMapConcat _).flatMapConcat _).flatMapConcat _).catchError _).flatMapConcat _)

/-- Two moves asked for with the same snapshot of a row that holds enough for both. -/
structure TwoMoves (src : HumidorCigar) (dst₁ dst₂ : Humidor) (count₁ count₂ : ℤ) (db : Database) : Prop where
  stored : UpToDate db src
  long : IsLong src.count
  target₁ : db.humidorsTable.contains dst₁.rowid = true
  target₂ : db.humidorsTable.contains dst₂.rowid = true
  other₁ : dst₁.rowid ≠ src.humidor.rowid
  other₂ : dst₂.rowid ≠ src.humidor.rowid
  pos₁ : 0 < count₁
  pos₂ : 0 < count₂
  enough : count₁ + count₂ ≤ src.count

/-- Some interleaving of their steps brings both moves to their end, in `db'`. -/
def BothEnd (now₁ now₂ : ℤ) (src : HumidorCigar) (dst₁ dst₂ : Humidor) (count₁ count₂ : ℤ)
    (db db' : Database) : Prop :=
  ∃ schedule, Script.interleave schedule (moveCigar now₁ src dst₁ count₁).drain
    (moveCigar now₂ src dst₂ count₂).drain db = (.done (), .done (), db')

/-- A move that is not interrupted always ends: what it throws is caught. -/
theorem moveCigar_ends (now : ℤ) (src : HumidorCigar) (dst : Humidor) (count : ℤ) (db : Database) :
    ∃ db', (moveCigar now src dst count).drain.run db = (.ok (), db') := by
  by_cases h : MoveGoesThrough src dst count db
  · obtain ⟨back, he⟩ := moveCigar_emits count now h
    exact ⟨_, he.completes.drain⟩
  · exact ⟨_, (moveCigar_silent count now h).drain⟩

/-- However the steps of the two moves are interleaved, the row does not hold what is left after
both: it holds what one of them alone would leave. -/
theorem twoMoves_lose_update {src : HumidorCigar} {dst₁ dst₂ : Humidor} {count₁ count₂ : ℤ} {db : Database}
    (h : TwoMoves src dst₁ dst₂ count₁ count₂ db) (now₁ now₂ : ℤ) :
    (∃ db', BothEnd now₁ now₂ src dst₁ dst₂ count₁ count₂ db db') ∧
      ∀ db', BothEnd now₁ now₂ src dst₁ dst₂ count₁ count₂ db db' →
        (db'.stock src.humidor.rowid src.cigar.rowid = src.count - count₁ ∨
          db'.stock src.humidor.rowid src.cigar.rowid = src.count - count₂) ∧
        db'.stock src.humidor.rowid src.cigar.rowid ≠ src.count - count₁ - count₂ := by
  have hpart₁ : count₁ < src.count := by have := h.pos₂; have := h.enough; omega
  have hpart₂ : count₂ < src.count := by have := h.pos₁; have := h.enough; omega
  have hleft₁ : long (src.count - count₁) = src.count - count₁ :=
    (h.long.of_le (by omega) (by have := h.pos₁; omega)).long_eq
  have hleft₂ : long (src.count - count₂) = src.count - count₂ :=
    (h.long.of_le (by omega) (by have := h.pos₂; omega)).long_eq
  constructor
  · obtain ⟨db₁, h₁⟩ := moveCigar_ends now₁ src dst₁ count₁ db
    obtain ⟨db₂, h₂⟩ := moveCigar_ends now₂ src dst₂ count₂ db₁
    exact ⟨db₂, Script.exists_schedule h₁ h₂⟩
  · rintro db' ⟨schedule, hend⟩
    have hrow : HasRow (sourceKey src) (fun _ => True) db := by
      obtain ⟨row, _, _, hrow, _⟩ := h.stored.rows
      exact ⟨row, hrow, trivial⟩
    let V (v : ℤ) : Prop := v = src.count - count₁ ∨ v = src.count - count₂
    have hlast : HasRow (sourceKey src) V db' := by
      refine Script.interleave_secured (moveCigar_keeps now₁ hpart₁ trivial h.other₁).drain
        (moveCigar_keeps now₁ hpart₁ (.inl hleft₁) h.other₁).drain
        (moveCigar_keeps now₂ hpart₂ trivial h.other₂).drain
        (moveCigar_keeps now₂ hpart₂ (.inr hleft₂) h.other₂).drain hrow (.inr ?_) hend
      exact moveCigar_secures now₁ hpart₁ (.inl hleft₁) _
    obtain ⟨r, hr, hV⟩ := hlast
    have hstock : db'.stock src.humidor.rowid src.cigar.rowid = r.count := by
      rw [Database.stock, hr]
      rfl
    rw [hstock]
    have hpos₁ := h.pos₁
    have hpos₂ := h.pos₂
    refine ⟨hV, ?_⟩
    rcases hV with hV | hV <;> omega

/-- Ten cigars in the first of three humidors. -/
def threeHumidors : Database :=
  (StockOp.addHumidor 0 { emptyHumidor with name := "C" }).outcome tenCigarsStored

theorem twoMoves_lose_update_threeHumidors :
    (∃ db', BothEnd 0 0 tenCigarsRow { emptyHumidor with rowid := 2 } { emptyHumidor with rowid := 3 } 3 4
      threeHumidors db') ∧
    ∀ db', BothEnd 0 0 tenCigarsRow { emptyHumidor with rowid := 2 } { emptyHumidor with rowid := 3 } 3 4
      threeHumidors db' → (db'.stock 1 1 = 10 - 3 ∨ db'.stock 1 1 = 10 - 4) ∧ db'.stock 1 1 ≠ 10 - 3 - 4 :=
  twoMoves_lose_update
    ⟨by decide, by decide, by decide, by decide, by decide, by decide, by decide, by decide, by decide⟩ 0 0

/-- Three cigars and then four are moved out of ten: six stay and there are thirteen. -/
theorem twoMoves_make_three : ∃ db₁ db₂,
    (moveCigar 0 tenCigarsRow { emptyHumidor with rowid := 2 } 3).Completes threeHumidors db₁ ∧
    (moveCigar 0 tenCigarsRow { emptyHumidor with rowid := 3 } 4).Completes db₁ db₂ ∧
    BothEnd 0 0 tenCigarsRow { emptyHumidor with rowid := 2 } { emptyHumidor with rowid := 3 } 3 4
      threeHumidors db₂ ∧
    db₂.stock 1 1 = 6 ∧ threeHumidors.cigarSum 1 = 10 ∧ db₂.cigarSum 1 = 13 := by
  let first : StockOp := .moveCigar 0 tenCigarsRow { emptyHumidor with rowid := 2 } 3
  let second : StockOp := .moveCigar 0 tenCigarsRow { emptyHumidor with rowid := 3 } 4
  have h₁ : first.Completes threeHumidors (first.outcome threeHumidors) :=
    StockOp.completes_of_goesThrough (by decide)
  have h₂ : second.Completes (first.outcome threeHumidors) (second.outcome (first.outcome threeHumidors)) :=
    StockOp.completes_of_goesThrough (by decide)
  refine ⟨_, _, h₁, h₂, Script.exists_schedule (Flow.Completes.drain h₁) (Flow.Completes.drain h₂), ?_⟩
  decide

end CigarHumidorRepository
end Cigars
