import Cigars.Ledger.Movement
import Cigars.Stock.References

/-! The stock rows as an inventory, what each operation moves, and the two denormalised totals:
`HumidorsTable.count` and `CigarsTable.count`. -/
namespace Cigars
open Coroutine Sql Ledger Transition

namespace Database

/-- The cigars in one humidor, added up over its stock rows. -/
def humidorSum (db : Database) (humidorId : ℤ) : ℤ :=
  db.cigarHumidorTable.sumBy fun k r => if k.1 = humidorId then r.count else 0

/-- The cigars of one kind, added up over all humidors. -/
def cigarSum (db : Database) (cigarId : ℤ) : ℤ :=
  db.cigarHumidorTable.sumBy fun k r => if k.2 = cigarId then r.count else 0

/-- The cigars of one kind in all humidors but one. -/
def elsewhere (db : Database) (humidorId cigarId : ℤ) : ℤ :=
  db.cigarHumidorTable.sumBy fun k r => if k.2 = cigarId ∧ k.1 ≠ humidorId then r.count else 0

theorem cigarSum_eq_stock_add (db : Database) (h c : ℤ) :
    db.cigarSum c = db.stock h c + db.elsewhere h c := by
  unfold cigarSum stock elsewhere
  rw [← Table.sumBy_key CigarHumidorTable.count (h, c) db.cigarHumidorTable, ← Table.sumBy_add]
  refine Table.sumBy_congr fun k r _ => ?_
  obtain ⟨h', c'⟩ := k
  by_cases hc : c' = c
  · by_cases hh : h' = h
    · simp [hc, hh]
    · simp [hc, hh]
  · simp [hc]

section Inventory
variable [LongReading]

/-- The stock rows as an inventory. -/
noncomputable def inventory (db : Database) : Inventory ℤ ℤ Residue :=
  db.cigarHumidorTable.sumBy fun k r => Finsupp.single k (r.count : Residue)

/-- A sum over some of the stock rows, wrapped around at the end or on the way. -/
private theorem cast_sumBy_ite (p : ℤ × ℤ → Prop) [DecidablePred p] (t : Table (ℤ × ℤ) CigarHumidorTable) :
    ((t.sumBy fun k r => if p k then r.count else 0 : ℤ) : Residue) =
      t.sumBy fun k r => if p k then (r.count : Residue) else 0 := by
  have hcast := Table.map_sumBy (Int.castAddHom Residue) (fun k r => if p k then r.count else 0) t
  simp only [Int.coe_castAddHom, apply_ite (Int.cast : ℤ → Residue), Int.cast_zero] at hcast
  exact hcast

theorem cast_humidorSum (db : Database) (h : ℤ) : (db.humidorSum h : Residue) = placeTotal h db.inventory := by
  rw [inventory, Table.map_sumBy]
  simp only [placeTotal_single]
  exact cast_sumBy_ite (fun k => k.1 = h) db.cigarHumidorTable

theorem cast_cigarSum (db : Database) (c : ℤ) : (db.cigarSum c : Residue) = kindTotal c db.inventory := by
  rw [inventory, Table.map_sumBy]
  simp only [kindTotal_single]
  exact cast_sumBy_ite (fun k => k.2 = c) db.cigarHumidorTable

theorem cast_stock (db : Database) (h c : ℤ) : (db.stock h c : Residue) = db.inventory (h, c) := by
  have hcell := Table.map_sumBy (Finsupp.applyAddHom ((h, c) : ℤ × ℤ))
    (fun k r => Finsupp.single k (r.count : Residue)) db.cigarHumidorTable
  simp only [Finsupp.applyAddHom_apply, Finsupp.single_apply] at hcell
  rw [inventory, hcell, ← cast_sumBy_ite, Table.sumBy_key, stock]

theorem sumBy_putInRow (key : ℤ × ℤ) (count : ℤ) (t : Table (ℤ × ℤ) CigarHumidorTable) :
    (putInRow key count t).sumBy (fun k r => Finsupp.single k (r.count : Residue)) =
      t.sumBy (fun k r => Finsupp.single k (r.count : Residue)) + Finsupp.single key (count : Residue) := by
  unfold putInRow
  cases hr : t.find? key with
  | some r =>
    dsimp only
    rw [Table.sumBy_update _ _ hr, ← Finsupp.single_sub, cast_long, Int.cast_add, add_sub_cancel_left]
  | none =>
    obtain ⟨t', ht⟩ := Table.exists_insert?_of_find?_none
      (⟨HumidorCigarsDatabase.nextRowid t, count⟩ : CigarHumidorTable) hr
    simp only [ht, Option.getD_some]
    rw [Table.sumBy_insert? _ ht]

theorem inventory_putIn (h c count : ℤ) (db : Database) :
    (db.putIn h c count).inventory = db.inventory + Finsupp.single (h, c) (count : Residue) :=
  sumBy_putInRow (h, c) count db.cigarHumidorTable

theorem inventory_update {db : Database} {h c : ℤ} {r : CigarHumidorTable} (count : ℤ)
    (hr : db.cigarHumidorTable.find? (h, c) = some r) :
    (HumidorCigarsDatabase.update count h c db).inventory =
      db.inventory + Finsupp.single (h, c) ((count : Residue) - r.count) := by
  rw [inventory, HumidorCigarsDatabase.update, Table.sumBy_update _ _ hr, ← Finsupp.single_sub]
  rfl

/-- From an up-to-date row, at most all of it, `count` cigars are taken out. -/
theorem inventory_takeOut {db : Database} {src : HumidorCigar} {count : ℤ} (h : UpToDate db src)
    (hle : count ≤ src.count) :
    (db.takeOut src count).inventory =
      db.inventory - Finsupp.single (src.humidor.rowid, src.cigar.rowid) (count : Residue) := by
  obtain ⟨row, -, -, hrow, hcount, -⟩ := h.rows
  unfold takeOut
  by_cases hpart : src.count > count
  · rw [if_pos hpart]
    have hrow' : (HumidorsDatabase.updateCigarsCount (long (src.humidor.count - count)) src.humidor.rowid
        db).cigarHumidorTable.find? (src.humidor.rowid, src.cigar.rowid) = some row := hrow
    have hneg : ((long (src.count - count) : ℤ) : Residue) - row.count = -(count : Residue) := by
      rw [cast_long, hcount, Int.cast_sub]
      ring
    rw [inventory_update _ hrow', hneg, Finsupp.single_neg, ← sub_eq_add_neg]
    rfl
  · have hall : count = row.count := by omega
    rw [if_neg hpart, inventory, HumidorCigarsDatabase.remove, Table.sumBy_erase _ hrow, hall]
    rfl

end Inventory
end Database

namespace StockOp
variable [LongReading]

/-- What the operation moves. -/
def movement (db : Database) : StockOp → Option (Movement ℤ ℤ Residue)
  | addHumidor _ _ => none
  | addCigar _ cigar humidor => some (.deposit humidor.rowid db.cigarsTable.nextRowid cigar.count)
  | updateCount _ entity count _ =>
    let c := long (entity.count - count)
    some (if c < 0 then .deposit entity.humidor.rowid entity.cigar.rowid (long |c| : ℤ)
      else .withdraw entity.humidor.rowid entity.cigar.rowid (long |c| : ℤ))
  | moveCigar _ src dst count =>
    some (.transfer src.humidor.rowid dst.rowid src.cigar.rowid count)

/-- What the operation adds to the inventory. -/
noncomputable def delta (db : Database) (op : StockOp) : Inventory ℤ ℤ Residue :=
  (op.movement db).elim 0 Movement.delta

/-- Up or down, a new count adds the difference. -/
theorem delta_updateCount (db : Database) (now : ℤ) (entity : HumidorCigar) (count : ℤ)
    (price : Option Double) : delta db (updateCount now entity count price) =
      Finsupp.single (entity.humidor.rowid, entity.cigar.rowid) ((count : Residue) - entity.count) := by
  change Movement.delta (if long (entity.count - count) < 0 then _ else _) = _
  by_cases hup : long (entity.count - count) < 0
  · rw [if_pos hup, abs_of_neg hup, Movement.delta, cast_long, Int.cast_neg, cast_long, Int.cast_sub, neg_sub]
  · rw [if_neg hup, abs_of_nonneg (not_lt.mp hup), Movement.delta, cast_long, cast_long, Int.cast_sub,
      ← Finsupp.single_neg, neg_sub]

/-- Every operation changes the stock rows by its movement. -/
theorem inventory_outcome {db : Database} {op : StockOp} (legal : op.Legal db) :
    (op.outcome db).inventory = db.inventory + op.delta db := by
  cases op with
  | addHumidor now entity => exact (add_zero _).symm
  | addCigar now cigar humidor =>
    exact Database.inventory_putIn humidor.rowid db.cigarsTable.nextRowid cigar.count (db.addCigar cigar)
  | updateCount now entity count price =>
    obtain ⟨row, -, -, hrow, hcount, -⟩ := legal.1.rows
    rw [delta_updateCount, ← hcount]
    exact Database.inventory_update count hrow
  | moveCigar now src dst count =>
    obtain ⟨hup, -, -, hle⟩ := legal
    have hput := Database.inventory_putIn dst.rowid src.cigar.rowid count (db.takeOut src count)
    rw [Database.inventory_takeOut hup hle] at hput
    refine hput.trans ?_
    rw [sub_add_eq_add_sub, add_sub_assoc]
    rfl

end StockOp

/-! ### The totals of the humidors -/

namespace Database

/-- `HumidorsTable.count`, none where the humidor is not stored. -/
def humidorTotal (db : Database) (humidorId : ℤ) : ℤ :=
  ((db.humidorsTable.find? humidorId).map HumidorsTable.count).getD 0

theorem humidorTotal_of_find? {db : Database} {h : ℤ} {r : HumidorsTable}
    (hr : db.humidorsTable.find? h = some r) : db.humidorTotal h = r.count := by
  rw [humidorTotal, hr, Option.map_some, Option.getD_some]

theorem humidorTotal_set {db : Database} {id : ℤ} {r : HumidorsTable} (count h : ℤ)
    (hr : db.humidorsTable.find? id = some r) :
    (HumidorsDatabase.updateCigarsCount count id db).humidorTotal h =
      if id = h then count else db.humidorTotal h := by
  unfold humidorTotal
  change ((Table.find? (db.humidorsTable.toTable.update id _) h).map _).getD 0 = _
  by_cases he : id = h
  · subst he
    rw [Table.find?_update_self _ hr, if_pos rfl]
    rfl
  · rw [Table.find?_update_of_ne _ (Ne.symm he), if_neg he]

theorem humidorTotal_addHumidor (entity : Humidor) (db : Database) (h : ℤ) :
    (db.addHumidor entity).humidorTotal h =
      db.humidorTotal h + if db.humidorsTable.nextRowid = h then entity.count else 0 := by
  unfold humidorTotal addHumidor
  rw [AutoTable.find?_insert]
  by_cases he : h = db.humidorsTable.nextRowid
  · rw [if_pos he, if_pos he.symm, he, AutoTable.find?_nextRowid]
    exact (zero_add _).symm
  · rw [if_neg he, if_neg (Ne.symm he), add_zero]

section Long
variable [LongReading]

/-- How far the stored total of the humidor is above its contents. -/
def humidorExcess (db : Database) (humidorId : ℤ) : Residue :=
  (db.humidorTotal humidorId : Residue) - db.humidorSum humidorId

theorem humidorTotal_raise {db : Database} {id : ℤ} (count h : ℤ)
    (hid : db.humidorsTable.contains id = true) :
    (db.raiseTotal id count).humidorTotal h =
      if id = h then long (db.humidorTotal h + count) else db.humidorTotal h := by
  obtain ⟨r, hr⟩ := (Table.contains_iff _ _).mp hid
  rw [← updateCigarsCount_eq_raiseTotal count hr, humidorTotal_set _ _ hr]
  split_ifs with he
  · rw [← he, humidorTotal_of_find? hr]
  · rfl

/-- A partial move lowers the total of the humidor moved from; a full move does not. -/
theorem humidorTotal_takeOut {db : Database} {src : HumidorCigar} (count h : ℤ) (hup : UpToDate db src) :
    (db.takeOut src count).humidorTotal h =
      if count < src.count ∧ src.humidor.rowid = h then long (db.humidorTotal h - count)
      else db.humidorTotal h := by
  obtain ⟨-, row, -, -, -, hrow, hhum, -⟩ := hup.rows
  have hcount : src.humidor.count = db.humidorTotal src.humidor.rowid := by
    rw [humidorTotal_of_find? hrow, hhum]
    rfl
  unfold takeOut
  by_cases hpart : src.count > count
  · rw [if_pos hpart]
    refine (humidorTotal_set (long (src.humidor.count - count)) h hrow).trans ?_
    by_cases he : src.humidor.rowid = h
    · rw [if_pos he, if_pos ⟨hpart, he⟩, hcount, he]
    · rw [if_neg he, if_neg fun hc => he hc.2]
  · rw [if_neg hpart, if_neg fun hc => hpart hc.1]
    rfl

end Long
end Database

namespace StockOp
variable [LongReading]

/-- What the operation adds to the excess of humidor `h`. -/
def leak (db : Database) (h : ℤ) : StockOp → Residue
  | addHumidor _ entity => if db.humidorsTable.nextRowid = h then (entity.count : Residue) else 0
  | addCigar _ _ _ => 0
  | updateCount _ entity count _ => if entity.humidor.rowid = h then (entity.count : Residue) - count else 0
  | moveCigar _ src _ count => if src.count ≤ count ∧ src.humidor.rowid = h then (count : Residue) else 0

theorem humidorExcess_outcome {db : Database} {op : StockOp} (legal : op.Legal db)
    (hgo : op.GoesThrough db) (h : ℤ) :
    (op.outcome db).humidorExcess h = db.humidorExcess h + op.leak db h := by
  have hsum : ((op.outcome db).humidorSum h : Residue) = db.humidorSum h + placeTotal h (op.delta db) := by
    rw [Database.cast_humidorSum, inventory_outcome legal, map_add, ← Database.cast_humidorSum]
  unfold Database.humidorExcess
  rw [hsum]
  cases op with
  | addHumidor now entity =>
    have htotal : (outcome db (addHumidor now entity)).humidorTotal h =
        db.humidorTotal h + if db.humidorsTable.nextRowid = h then entity.count else 0 :=
      Database.humidorTotal_addHumidor entity db h
    have hdelta : placeTotal h (delta db (addHumidor now entity)) = 0 := map_zero _
    rw [htotal, hdelta, leak]
    push_cast
    ring
  | addCigar now cigar humidor =>
    have htotal : (outcome db (addCigar now cigar humidor)).humidorTotal h =
        if humidor.rowid = h then long (db.humidorTotal h + cigar.count) else db.humidorTotal h :=
      Database.humidorTotal_raise cigar.count h
        (show (CigarsRepository.enrolled now cigar humidor db).humidorsTable.contains _ = true
          from hgo.target)
    have hdelta : placeTotal h (delta db (addCigar now cigar humidor)) =
        if humidor.rowid = h then (cigar.count : Residue) else 0 := placeTotal_single _ _ _
    rw [htotal, hdelta, leak]
    split_ifs
    · rw [cast_long, Int.cast_add]
      ring
    · ring
  | updateCount now entity count price =>
    have htotal : (outcome db (updateCount now entity count price)).humidorTotal h =
        db.humidorTotal h := rfl
    rw [htotal, delta_updateCount, placeTotal_single, leak]
    split_ifs <;> ring
  | moveCigar now src dst count =>
    have htotal : ((outcome db (moveCigar now src dst count)).humidorTotal h : Residue) =
        (db.humidorTotal h - if count < src.count ∧ src.humidor.rowid = h then (count : Residue) else 0) +
          if dst.rowid = h then (count : Residue) else 0 := by
      have hout := Database.humidorTotal_takeOut count h legal.1
      have hcontains : ((db.takeOut src count).putIn dst.rowid src.cigar.rowid count).humidorsTable.contains
          dst.rowid = true := (CigarHumidorRepository.takeOut_contains_humidor src count db dst.rowid).trans hgo.target
      have hraise := Database.humidorTotal_raise count h hcontains
      change (Database.humidorTotal (Database.raiseTotal _ _ _) h : Residue) = _
      rw [hraise]
      change (((if dst.rowid = h then long ((db.takeOut src count).humidorTotal h + count)
        else (db.takeOut src count).humidorTotal h) : ℤ) : Residue) = _
      rw [hout]
      split_ifs <;> simp
    have hdelta : placeTotal h (delta db (moveCigar now src dst count)) =
        (if dst.rowid = h then (count : Residue) else 0) - if src.humidor.rowid = h then (count : Residue) else 0 :=
      placeTotal_transfer _ _ _ _ _
    rw [htotal, hdelta, leak]
    by_cases hpart : count < src.count
    · simp only [hpart, true_and, not_le.mpr hpart, false_and, if_false]
      ring
    · simp only [hpart, false_and, if_false, not_lt.mp hpart, true_and]
      ring

/-- In every state a run reaches, the excess is what its steps leaked. -/
theorem humidorExcess_of_run {c h' y i : ℤ} {trace : List (Database × StockOp)} {db : Database}
    (run : Run Step (Database.empty c h' y i) trace db) (h : ℤ) :
    db.humidorExcess h = (trace.map fun s => s.2.leak s.1 h).sum := by
  induction run with
  | start => exact sub_self _
  | next run hstep ih =>
    obtain ⟨legal, hgo, rfl⟩ := (step_iff _ _ _).mp hstep
    rw [humidorExcess_outcome legal hgo, ih, List.map_cons, List.sum_cons, add_comm]

/-- A new humidor has no cigars; the operation changes no count by hand and moves no row away whole. -/
def KeepsHumidorTotals : StockOp → Prop
  | addHumidor _ entity => entity.count = 0
  | addCigar _ _ _ => True
  | updateCount _ entity count _ => count = entity.count
  | moveCigar _ src _ count => count < src.count

theorem keepsHumidorTotals_iff {db : Database} {op : StockOp} (counts : LongCounts db) (legal : op.Legal db) :
    op.KeepsHumidorTotals ↔ ∀ h, op.leak db h = 0 := by
  cases op with
  | addHumidor now entity =>
    have hzero := IsLong.eq_iff (show IsLong entity.count from legal) isLong_zero
    rw [Int.cast_zero] at hzero
    simp only [KeepsHumidorTotals, leak, hzero]
    constructor
    · intro hcount h
      rw [hcount, ite_self]
    · intro hl
      simpa using hl db.humidorsTable.nextRowid
  | addCigar now cigar humidor => simp [KeepsHumidorTotals, leak]
  | updateCount now entity count price =>
    have hsame := (legal.2.eq_iff (legal.1.isLong counts))
    simp only [KeepsHumidorTotals, leak, hsame]
    constructor
    · intro hc h
      rw [hc, sub_self, ite_self]
    · intro hl
      have hzero := hl entity.humidor.rowid
      rw [if_pos rfl] at hzero
      exact (sub_eq_zero.mp hzero).symm
  | moveCigar now src dst count =>
    obtain ⟨hup, -, hpos, hle⟩ := legal
    have hcount := (hup.isLong counts).of_le hpos.le hle
    simp only [KeepsHumidorTotals, leak]
    constructor
    · intro hlt h
      exact if_neg fun hc => absurd hlt (not_lt.mpr hc.1)
    · intro hl
      by_contra hnot
      have hzero := hl src.humidor.rowid
      rw [if_pos ⟨not_lt.mp hnot, rfl⟩, ← Int.cast_zero, ← hcount.eq_iff isLong_zero] at hzero
      omega

end StockOp

section HumidorTotals
variable [LongReading]

/-- `HumidorsTable.count` of every humidor is the sum over its stock rows. -/
def HumidorTotalsMatch (db : Database) : Prop :=
  ∀ h r, db.humidorsTable.find? h = some r → r.count = long (db.humidorSum h)

theorem humidorTotalsMatch_iff {db : Database} (inv : StockInvariant db) :
    HumidorTotalsMatch db ↔ ∀ h, db.humidorExcess h = 0 := by
  refine forall_congr' fun h => ?_
  unfold Database.humidorExcess
  rw [sub_eq_zero]
  cases hr : db.humidorsTable.find? h with
  | some r =>
    rw [Database.humidorTotal_of_find? hr]
    simp only [Option.some.injEq, forall_eq', (inv.counts.humidors h r hr).eq_long_iff]
  | none =>
    have hsum : db.humidorSum h = 0 := by
      refine Table.sumBy_eq_zero fun k r hk => if_neg ?_
      rintro rfl
      have hc := (inv.references.stock k r hk).1
      rw [Table.contains, hr] at hc
      cases hc
    rw [hsum, Database.humidorTotal, hr]
    simp

/-- The humidor totals are right in all states of a run exactly when all its steps keep them. -/
theorem humidorTotals_kept_iff {c h y i : ℤ} {trace : List (Database × StockOp)} {db : Database}
    (run : Run StockOp.Step (Database.empty c h y i) trace db) :
    (HumidorTotalsMatch db ∧ ∀ s ∈ trace, HumidorTotalsMatch s.1) ↔
      ∀ s ∈ trace, s.2.KeepsHumidorTotals := by
  refine run.kept_iff_of_invariant (I := StockInvariant) (Q := fun _ op => op.KeepsHumidorTotals)
    (stockInvariant_empty c h y i) (fun _ _ _ inv hstep => inv.step hstep) ?_ ?_
  · intro k r hr
    cases hr
  · intro db op db' inv hmatch hstep
    have hzero := (humidorTotalsMatch_iff inv).mp hmatch
    rw [humidorTotalsMatch_iff (inv.step hstep)]
    obtain ⟨legal, hgo, rfl⟩ := (StockOp.step_iff _ _ _).mp hstep
    rw [StockOp.keepsHumidorTotals_iff inv.counts legal]
    refine forall_congr' fun h => ?_
    rw [StockOp.humidorExcess_outcome legal hgo, hzero h, zero_add]

end HumidorTotals

instance : DecidablePred StockOp.KeepsHumidorTotals
  | .addHumidor _ _ => inferInstanceAs (Decidable (_ = _))
  | .addCigar _ _ _ => inferInstanceAs (Decidable True)
  | .updateCount _ _ _ _ => inferInstanceAs (Decidable (_ = _))
  | .moveCigar _ _ _ _ => inferInstanceAs (Decidable (_ < _))

/-- Two humidors, and ten cigars in the first. -/
def tenCigars : List StockOp :=
  [.addHumidor 0 { emptyHumidor with name := "A" }, .addHumidor 0 { emptyHumidor with name := "B" },
    .addCigar 0 { emptyCigar with count := 10 } { emptyHumidor with rowid := 1, name := "A" }]

/-- The row of the first humidor. -/
def tenCigarsRow : HumidorCigar :=
  ⟨10, { emptyHumidor with rowid := 1, name := "A", count := 10 },
    { emptyCigar with rowid := 1, count := 10 }, -1⟩

/-- The database then. -/
def tenCigarsStored : Database := tenCigars.foldl StockOp.outcome (Database.empty 0 0 0 0)

section Unbounded
-- In the runs that follow every `Long` is an integer without bounds.
local instance unboundedLongs : LongReading := .unbounded

theorem humidorTotals_kept_partialMove : ∃ trace db, Run StockOp.Step (Database.empty 0 0 0 0) trace db ∧
    trace.length = 4 ∧ HumidorTotalsMatch db ∧ ∀ s ∈ trace, HumidorTotalsMatch s.1 :=
  have run := StockOp.run_performed
    (tenCigars ++ [.moveCigar 0 tenCigarsRow { emptyHumidor with rowid := 2, name := "B" } 4]) (by decide)
  ⟨_, _, run, by decide, (humidorTotals_kept_iff run).mpr (by decide)⟩

/-- Moving all ten cigars away leaves the first humidor empty with a total of ten. -/
theorem humidorTotals_wrong_fullMove : ∃ trace db, Run StockOp.Step (Database.empty 0 0 0 0) trace db ∧
    db.humidorTotal 1 = 10 ∧ db.humidorSum 1 = 0 ∧ ¬ HumidorTotalsMatch db := by
  refine ⟨_, _, StockOp.run_performed
    (tenCigars ++ [.moveCigar 0 tenCigarsRow { emptyHumidor with rowid := 2, name := "B" } 10])
    (by decide), by decide, by decide, fun h => ?_⟩
  have h₁ := h 1 { emptyHumidor.columns with name := "A", count := 10 } (by decide)
  exact absurd h₁ (by decide)

end Unbounded

/-! ### The totals of the cigars -/

namespace Database

/-- `CigarsTable.count`, none where the cigar is not stored. -/
def cigarTotal (db : Database) (cigarId : ℤ) : ℤ :=
  ((db.cigarsTable.find? cigarId).map CigarsTable.count).getD 0

theorem cigarTotal_of_find? {db : Database} {c : ℤ} {r : CigarsTable}
    (hr : db.cigarsTable.find? c = some r) : db.cigarTotal c = r.count := by
  rw [cigarTotal, hr, Option.map_some, Option.getD_some]

theorem cigarTotal_addCigar (cigar : Cigar) (db : Database) (c : ℤ) :
    (db.addCigar cigar).cigarTotal c =
      db.cigarTotal c + if db.cigarsTable.nextRowid = c then cigar.count else 0 := by
  unfold cigarTotal addCigar
  rw [AutoTable.find?_insert]
  by_cases he : c = db.cigarsTable.nextRowid
  · rw [if_pos he, if_pos he.symm, he, AutoTable.find?_nextRowid]
    exact (zero_add _).symm
  · rw [if_neg he, if_neg (Ne.symm he), add_zero]

/-- `CigarsRepository.update` writes the count it is given. -/
theorem cigarTotal_update {cigar : Cigar} {db : Database} (c : ℤ)
    (h : db.cigarsTable.contains cigar.rowid = true) :
    (cigarsTableQueries.update cigar db).cigarTotal c =
      if cigar.rowid = c then cigar.count else db.cigarTotal c := by
  obtain ⟨r, hr⟩ := (Table.contains_iff _ _).mp h
  unfold cigarTotal
  change ((Table.find? (db.cigarsTable.toTable.update cigar.rowid _) c).map _).getD 0 = _
  by_cases he : cigar.rowid = c
  · rw [if_pos he, ← he, Table.find?_update_self _ hr]
    rfl
  · rw [if_neg he, Table.find?_update_of_ne _ (Ne.symm he)]

end Database

section CigarTotals
variable [LongReading]

/-- `CigarsTable.count` of every cigar is the sum over all humidors. -/
def CigarTotalsMatch (db : Database) : Prop :=
  ∀ c r, db.cigarsTable.find? c = some r → r.count = long (db.cigarSum c)

theorem cigarTotalsMatch_iff {db : Database} (inv : StockInvariant db) :
    CigarTotalsMatch db ↔ ∀ c, (db.cigarTotal c : Residue) = db.cigarSum c := by
  refine forall_congr' fun c => ?_
  cases hr : db.cigarsTable.find? c with
  | some r =>
    rw [Database.cigarTotal_of_find? hr]
    simp only [Option.some.injEq, forall_eq', (inv.counts.cigars c r hr).eq_long_iff]
  | none =>
    have hsum : db.cigarSum c = 0 := by
      refine Table.sumBy_eq_zero fun k r hk => if_neg ?_
      rintro rfl
      have hc := (inv.references.stock k r hk).2
      rw [Table.contains, hr] at hc
      cases hc
    rw [hsum, Database.cigarTotal, hr]
    simp

namespace StockOp

/-- A new count is set only where no other humidor holds cigars of the kind. -/
def KeepsCigarTotals (db : Database) : StockOp → Prop
  | addHumidor _ _ => True
  | addCigar _ _ _ => True
  | updateCount _ entity _ _ => long (db.elsewhere entity.humidor.rowid entity.cigar.rowid) = 0
  | moveCigar _ _ _ _ => True

theorem cast_cigarSum_outcome {db : Database} {op : StockOp} (legal : op.Legal db) (c : ℤ) :
    ((op.outcome db).cigarSum c : Residue) = db.cigarSum c + kindTotal c (op.delta db) := by
  rw [Database.cast_cigarSum, inventory_outcome legal, map_add, ← Database.cast_cigarSum]

theorem cigarTotals_outcome_iff {db : Database} {op : StockOp} (legal : op.Legal db)
    (hgo : op.GoesThrough db) (hmatch : ∀ c, (db.cigarTotal c : Residue) = db.cigarSum c) :
    (∀ c, ((op.outcome db).cigarTotal c : Residue) = (op.outcome db).cigarSum c) ↔ op.KeepsCigarTotals db := by
  simp only [cast_cigarSum_outcome legal]
  cases op with
  | addHumidor now entity =>
    refine iff_of_true (fun c => ?_) trivial
    have hdelta : kindTotal c (delta db (addHumidor now entity)) = 0 := map_zero _
    rw [hdelta, add_zero]
    exact hmatch c
  | addCigar now cigar humidor =>
    refine iff_of_true (fun c => ?_) trivial
    have hdelta : kindTotal c (delta db (addCigar now cigar humidor)) =
        if db.cigarsTable.nextRowid = c then (cigar.count : Residue) else 0 := kindTotal_single _ _ _
    have htotal : (outcome db (addCigar now cigar humidor)).cigarTotal c =
        db.cigarTotal c + if db.cigarsTable.nextRowid = c then cigar.count else 0 :=
      Database.cigarTotal_addCigar cigar db c
    rw [hdelta, htotal, ← hmatch c]
    push_cast
    rfl
  | updateCount now entity count price =>
    have htotal : ∀ c, (outcome db (updateCount now entity count price)).cigarTotal c =
        if entity.cigar.rowid = c then count else db.cigarTotal c :=
      fun c => Database.cigarTotal_update c hgo.2
    obtain ⟨row, -, -, hrow, hcount, -⟩ := legal.1.rows
    have hstock : db.stock entity.humidor.rowid entity.cigar.rowid = entity.count := by
      rw [Database.stock, hrow, ← hcount]
      rfl
    -- What the total lacks after the count is set are the cigars elsewhere.
    have hsum : (db.cigarSum entity.cigar.rowid : Residue) + ((count : Residue) - entity.count) =
        count + db.elsewhere entity.humidor.rowid entity.cigar.rowid := by
      rw [db.cigarSum_eq_stock_add entity.humidor.rowid, hstock, Int.cast_add]
      ring
    have hzero : long (db.elsewhere entity.humidor.rowid entity.cigar.rowid) = 0 ↔
        (db.elsewhere entity.humidor.rowid entity.cigar.rowid : Residue) = 0 := by
      rw [(isLong_long _).eq_iff isLong_zero, cast_long, Int.cast_zero]
    simp only [htotal, delta_updateCount, kindTotal_single, KeepsCigarTotals, hzero]
    constructor
    · intro hnew
      have hcigar := hnew entity.cigar.rowid
      rw [if_pos rfl, if_pos rfl, hsum] at hcigar
      exact left_eq_add.mp hcigar
    · intro helsewhere c
      by_cases he : entity.cigar.rowid = c
      · rw [if_pos he, if_pos he, ← he, hsum, helsewhere, add_zero]
      · rw [if_neg he, if_neg he, hmatch c, add_zero]
  | moveCigar now src dst count =>
    refine iff_of_true (fun c => ?_) trivial
    have hdelta : kindTotal c (delta db (moveCigar now src dst count)) = 0 :=
      kindTotal_transfer _ _ _ _ _
    have hsame : (outcome db (moveCigar now src dst count)).cigarsTable = db.cigarsTable :=
      CigarHumidorRepository.takeOut_cigarsTable src count db
    rw [hdelta, add_zero, ← hmatch c, Database.cigarTotal, hsame]
    rfl

end StockOp

/-- The cigar totals are right in all states of a run exactly when all its steps keep them. -/
theorem cigarTotals_kept_iff {c h y i : ℤ} {trace : List (Database × StockOp)} {db : Database}
    (run : Run StockOp.Step (Database.empty c h y i) trace db) :
    (CigarTotalsMatch db ∧ ∀ s ∈ trace, CigarTotalsMatch s.1) ↔
      ∀ s ∈ trace, s.2.KeepsCigarTotals s.1 := by
  refine run.kept_iff_of_invariant (I := StockInvariant) (Q := fun db op => op.KeepsCigarTotals db)
    (stockInvariant_empty c h y i) (fun _ _ _ inv hstep => inv.step hstep) ?_ ?_
  · intro k r hr
    cases hr
  · intro db op db' inv hmatch hstep
    have hsums := (cigarTotalsMatch_iff inv).mp hmatch
    rw [cigarTotalsMatch_iff (inv.step hstep)]
    obtain ⟨legal, hgo, rfl⟩ := (StockOp.step_iff _ _ _).mp hstep
    exact StockOp.cigarTotals_outcome_iff legal hgo hsums

instance (db : Database) : DecidablePred (StockOp.KeepsCigarTotals db)
  | .addHumidor _ _ => inferInstanceAs (Decidable True)
  | .addCigar _ _ _ => inferInstanceAs (Decidable True)
  | .updateCount _ _ _ _ => inferInstanceAs (Decidable (_ = _))
  | .moveCigar _ _ _ _ => inferInstanceAs (Decidable True)

end CigarTotals

section Unbounded
local instance unboundedLongs' : LongReading := .unbounded

theorem cigarTotals_kept_countBeforeMove : ∃ trace db, Run StockOp.Step (Database.empty 0 0 0 0) trace db ∧
    trace.length = 4 ∧ CigarTotalsMatch db ∧ ∀ s ∈ trace, CigarTotalsMatch s.1 :=
  have run := StockOp.run_performed (tenCigars ++ [.updateCount 0 tenCigarsRow 7 none]) (by decide)
  ⟨_, _, run, by decide, (cigarTotals_kept_iff run).mpr (by decide)⟩

/-- Four of the ten cigars moved and one added to the other six: eleven cigars, a total of seven. -/
theorem cigarTotals_wrong_countAfterMove : ∃ trace db, Run StockOp.Step (Database.empty 0 0 0 0) trace db ∧
    db.cigarTotal 1 = 7 ∧ db.cigarSum 1 = 11 ∧ ¬ CigarTotalsMatch db := by
  refine ⟨_, _, StockOp.run_performed
    (tenCigars ++ [.moveCigar 0 tenCigarsRow { emptyHumidor with rowid := 2, name := "B" } 4,
      .updateCount 0 ⟨6, { emptyHumidor with rowid := 1, name := "A", count := 6 },
        { emptyCigar with rowid := 1, count := 10 }, -1⟩ 7 none])
    (by decide), by decide, by decide, fun h => ?_⟩
  have h₁ := h 1 { emptyCigar.columns with count := 7 } (by decide)
  exact absurd h₁ (by decide)

end Unbounded
end Cigars
