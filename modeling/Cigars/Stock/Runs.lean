import Cigars.Repository.Adding

/-! The stock operations as steps from one database to the next. Each operation is given the arguments
its callers give it and completes; what it then writes is one explicit state. -/
namespace Cigars
open Coroutine Sql

/-- The entity is the row as currently stored. -/
def UpToDate (db : Database) (entity : HumidorCigar) : Prop :=
  findHumidorCigar entity.humidor.rowid entity.cigar.rowid db = .ok (some entity)

instance (db : Database) (entity : HumidorCigar) : Decidable (UpToDate db entity) :=
  inferInstanceAs (Decidable (_ = _))

/-- The stored rows behind an up-to-date entity. -/
theorem UpToDate.rows {db : Database} {entity : HumidorCigar} (h : UpToDate db entity) :
    ∃ row humidor cigar,
      db.cigarHumidorTable.find? (entity.humidor.rowid, entity.cigar.rowid) = some row ∧
      row.count = entity.count ∧
      db.humidorsTable.find? entity.humidor.rowid = some humidor ∧
      entity.humidor = humidorFactory entity.humidor.rowid humidor ∧
      db.cigarsTable.find? entity.cigar.rowid = some cigar ∧
      entity.cigar = cigarFactory entity.cigar.rowid cigar := by
  obtain ⟨row, humidor, cigar, hrow, hhum, hcig, he⟩ := rows_of_findHumidorCigar h
  exact ⟨row, humidor, cigar, hrow, (congrArg HumidorCigar.count he).symm, hhum,
    congrArg HumidorCigar.humidor he, hcig, congrArg HumidorCigar.cigar he⟩

inductive StockOp
  | addHumidor (now : ℤ) (entity : Humidor)
  | addCigar (now : ℤ) (cigar : Cigar) (humidor : Humidor)
  | updateCount (now : ℤ) (entity : HumidorCigar) (count : ℤ) (price : Option Double)
  | moveCigar (now : ℤ) (src : HumidorCigar) (dst : Humidor) (count : ℤ)
  deriving DecidableEq

namespace StockOp
variable [LongReading]

/-- How the callers use the operation. The counts they give are of type `Long`; that of a move is between
two of them. -/
def Legal (db : Database) : StockOp → Prop
  | addHumidor _ entity => IsLong entity.count
  | addCigar _ cigar humidor => ((cigar.rowid < 0 ∨ db.cigarsTable.contains cigar.rowid = false) ∧
      db.humidorsTable.contains humidor.rowid = true) ∧ IsLong cigar.count
  | updateCount _ entity count _ => UpToDate db entity ∧ IsLong count
  | moveCigar _ src dst count =>
      UpToDate db src ∧ dst.rowid ≠ src.humidor.rowid ∧ 0 < count ∧ count ≤ src.count

/-- The call emits and ends normally in `db'`. -/
def Completes (db : Database) (op : StockOp) (db' : Database) : Prop :=
  match op with
  | addHumidor now entity => (HumidorsRepository.add now entity).Completes db db'
  | addCigar now cigar humidor => (CigarsRepository.add now cigar humidor).Completes db db'
  | updateCount now entity count price =>
      (CigarHumidorRepository.updateCount now entity count price).Completes db db'
  | moveCigar now src dst count => (CigarHumidorRepository.moveCigar now src dst count).Completes db db'

/-- No step of the call throws. -/
def GoesThrough (db : Database) : StockOp → Prop
  | addHumidor _ entity => HumidorsRepository.AddGoesThrough entity db
  | addCigar _ cigar humidor => CigarsRepository.AddGoesThrough cigar humidor db
  | updateCount _ entity _ _ =>
      db.cigarHumidorTable.contains (entity.humidor.rowid, entity.cigar.rowid) = true ∧
      db.cigarsTable.contains entity.cigar.rowid = true
  | moveCigar _ src dst count => CigarHumidorRepository.MoveGoesThrough src dst count db

def outcome (db : Database) : StockOp → Database
  | addHumidor now entity => HumidorsRepository.added now entity db
  | addCigar now cigar humidor => CigarsRepository.added now cigar humidor db
  | updateCount now entity count price => CigarHumidorRepository.counted now entity count price db
  | moveCigar now src dst count => CigarHumidorRepository.moved now src dst count db

theorem completes_of_goesThrough {db : Database} {op : StockOp} (h : op.GoesThrough db) :
    op.Completes db (op.outcome db) := by
  cases op with
  | addHumidor now entity => exact (HumidorsRepository.add_emits now h).completes
  | addCigar now cigar humidor => exact (CigarsRepository.add_emits now cigar h).completes
  | updateCount now entity count price =>
    exact (CigarHumidorRepository.updateCount_emits now count price h.1 h.2).completes
  | moveCigar now src dst count =>
    obtain ⟨back, he⟩ := CigarHumidorRepository.moveCigar_emits count now h
    exact he.completes

theorem goesThrough_of_completes {db db' : Database} {op : StockOp} (h : op.Completes db db') :
    op.GoesThrough db := by
  by_contra hnot
  cases op with
  | addHumidor now entity => exact hnot (HumidorsRepository.goesThrough_of_completes h).1
  | addCigar now cigar humidor => exact hnot (CigarsRepository.goesThrough_of_completes now cigar h)
  | updateCount now entity count price =>
    cases hrow : db.cigarHumidorTable.contains (entity.humidor.rowid, entity.cigar.rowid) with
    | false => exact (CigarHumidorRepository.updateCount_silent_of_no_row now count price hrow).not_completes h
    | true =>
      have hcigar : db.cigarsTable.contains entity.cigar.rowid = false := by
        rw [← Bool.not_eq_true]
        exact fun hcigar => hnot ⟨hrow, hcigar⟩
      exact (CigarHumidorRepository.updateCount_silent_of_no_cigar now count price hrow hcigar).not_completes h
  | moveCigar now src dst count =>
    exact (CigarHumidorRepository.moveCigar_silent count now hnot).not_completes h

theorem Completes.unique {db db₁ db₂ : Database} {op : StockOp} (h₁ : op.Completes db db₁)
    (h₂ : op.Completes db db₂) : db₁ = db₂ := by
  cases op <;> exact Flow.Completes.unique h₁ h₂

theorem completes_iff (db db' : Database) (op : StockOp) :
    op.Completes db db' ↔ op.GoesThrough db ∧ db' = op.outcome db := by
  constructor
  · intro h
    have hgo := goesThrough_of_completes h
    exact ⟨hgo, h.unique (completes_of_goesThrough hgo)⟩
  · rintro ⟨hgo, rfl⟩
    exact completes_of_goesThrough hgo

instance (db : Database) : (op : StockOp) → Decidable (op.Legal db)
  | addHumidor _ entity => inferInstanceAs (Decidable (IsLong entity.count))
  | addCigar _ cigar _ => inferInstanceAs (Decidable (((_ ∨ _) ∧ _) ∧ IsLong cigar.count))
  | updateCount _ entity count _ => inferInstanceAs (Decidable (UpToDate db entity ∧ IsLong count))
  | moveCigar _ src _ _ => inferInstanceAs (Decidable (UpToDate db src ∧ _ ≠ _ ∧ _ < _ ∧ _ ≤ _))

instance (db : Database) : (op : StockOp) → Decidable (op.GoesThrough db)
  | addHumidor _ entity => decidable_of_iff
      ((entity.rowid < 0 ∨ db.humidorsTable.contains entity.rowid = false) ∧ entity.toString = .ok ())
      ⟨fun h => ⟨h.1, h.2⟩, fun h => ⟨h.new, h.text⟩⟩
  | addCigar _ cigar humidor => decidable_of_iff
      ((cigar.rowid < 0 ∨ db.cigarsTable.contains cigar.rowid = false) ∧
        db.cigarHumidorTable.find? (humidor.rowid, db.cigarsTable.nextRowid) = none ∧
        humidor.toString = .ok () ∧ db.humidorsTable.contains humidor.rowid = true)
      ⟨fun h => ⟨h.1, h.2.1, h.2.2.1, h.2.2.2⟩, fun h => ⟨h.new, h.free, h.text, h.target⟩⟩
  | updateCount _ _ _ _ => inferInstanceAs (Decidable (_ = _ ∧ _ = _))
  | moveCigar _ src dst count => decidable_of_iff
      (db.cigarHumidorTable.contains (src.humidor.rowid, src.cigar.rowid) = true ∧
        dst.toString = .ok () ∧ db.humidorsTable.contains dst.rowid = true ∧
        (CigarHumidorRepository.TargetRow src dst count db →
          db.cigarsTable.contains src.cigar.rowid = true))
      ⟨fun h => ⟨h.1, h.2.1, h.2.2.1, h.2.2.2⟩, fun h => ⟨h.source, h.text, h.target, h.cigar⟩⟩

/-- The operation is called as its callers do and completes. -/
def Step (db : Database) (op : StockOp) (db' : Database) : Prop := op.Legal db ∧ op.Completes db db'

theorem step_iff (db db' : Database) (op : StockOp) :
    op.Step db db' ↔ op.Legal db ∧ op.GoesThrough db ∧ db' = op.outcome db := by
  rw [Step, completes_iff]

/-- The step, where there is one. -/
def perform (db : Database) (op : StockOp) : Option Database :=
  if op.Legal db ∧ op.GoesThrough db then some (op.outcome db) else none

theorem step_of_perform {db db' : Database} {op : StockOp} (h : op.perform db = some db') : op.Step db db' := by
  unfold perform at h
  split_ifs at h with hgo
  exact (step_iff _ _ _).mpr ⟨hgo.1, hgo.2, (Option.some.inj h).symm⟩

end StockOp
end Cigars
