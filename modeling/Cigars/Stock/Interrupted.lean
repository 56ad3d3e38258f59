import Cigars.Coroutine.Halting
import Cigars.Stock.History

/-! Stock operations that are killed or throw on their way. What such an operation can leave is a short
list, since a transaction is rolled back as a whole and everything downstream of an `add` is inside its
transaction. Over whole runs the stock then stays near what the history records. -/
namespace Cigars
open Coroutine Sql Ledger Transition

/-! ### Where the calls of the base repository stop -/

namespace SQLDelightBaseRepository
variable {ENTITY : Type} {wrapper : DatabaseQueries ENTITY} {entity : ENTITY} {s s' : Database}

theorem isNew_halts (h : (isNew wrapper entity).Halts s s') : s' = s := by
  unfold isNew at h
  split_ifs at h
  · exact Script.halts_pure h
  · rcases Action.halts_query_bind h with hstart | ⟨stored, -, hend⟩
    · exact hstart
    · exact Script.halts_pure hend

theorem add_halts {emit : ENTITY → DbAction Unit} (h : (add wrapper entity emit).Halts s s') :
    s' = s ∨ (add wrapper entity emit).run s = (.ok (), s') := by
  rcases (Script.halts_bind_iff _ _ _ _).mp h with hnew | ⟨new, s₁, hrun, hrest⟩
  · exact Or.inl (isNew_halts hnew)
  · obtain rfl := isNew_halts (Script.halts_of_run hrun)
    cases new with
    | true =>
      rcases Flow.halts_inTransaction hrest with hstart | hend
      · exact Or.inl hstart
      · right
        rw [add, Flow.after, Script.run_bind, hrun, Script.andThen_ok, if_pos rfl, insert, Flow.inTransaction,
          Script.run_atomically, hend]
        rfl
    | false =>
      rcases Action.halts_ofExcept_bind hrest with hstart | ⟨u, -, hend⟩
      · exact Or.inl hstart
      · exact Or.inl (Script.halts_raise hend)

theorem update_halts {emit : ENTITY → DbAction Unit} (h : (update wrapper entity emit).Halts s s') :
    s' = s ∨ wrapper.contains (wrapper.identity entity).1 (wrapper.identity entity).2 s = .ok true ∧
      (emit entity).Halts (wrapper.update entity s) s' := by
  rcases Action.halts_query_bind h with hstart | ⟨stored, hstored, hrest⟩
  · exact Or.inl hstart
  · cases stored with
    | true =>
      rcases Script.halts_write_bind hrest with hstart | hrest
      · exact Or.inl hstart
      · exact Or.inr ⟨hstored, hrest⟩
    | false =>
      rcases Action.halts_ofExcept_bind hrest with hstart | ⟨u, -, hend⟩
      · exact Or.inl hstart
      · exact Or.inl (Script.halts_raise hend)

theorem remove_halts {id : ℤ} {whereId : Option ℤ} {emit : Bool → DbAction Unit}
    (h : (remove wrapper id whereId emit).Halts s s') :
    s' = s ∨ ∃ s₁, wrapper.contains id whereId s = .ok true ∧ wrapper.remove id whereId s = .ok s₁ ∧
      (emit true).Halts s₁ s' := by
  rcases Action.halts_query_bind h with hstart | ⟨stored, hstored, hrest⟩
  · exact Or.inl hstart
  · cases stored with
    | true =>
      rcases Action.halts_statement_bind hrest with hstart | ⟨u, s₁, hremove, hrest⟩
      · exact Or.inl hstart
      · cases hs : wrapper.remove id whereId s with
        | error e =>
          rw [hs] at hremove
          cases hremove
        | ok s₂ =>
          rw [hs] at hremove
          cases hremove
          exact Or.inr ⟨s₁, hstored, rfl, hrest⟩
    | false => exact Or.inl (Script.halts_raise hrest)

end SQLDelightBaseRepository

open SQLDelightBaseRepository

/-! ### Where the operations stop -/

namespace HumidorsRepository

/-- Everything `add` does is in the transaction of the base `add`. -/
theorem add_halts {now : ℤ} {entity : Humidor} {db db' : Database} (h : (add now entity).drain.Halts db db') :
    db' = db ∨ AddGoesThrough entity db ∧ db' = added now entity db := by
  rcases SQLDelightBaseRepository.add_halts h with hstart | hend
  · exact Or.inl hstart
  · exact Or.inr (goesThrough_of_drain hend)

end HumidorsRepository

namespace CigarsRepository

theorem add_halts {now : ℤ} {cigar : Cigar} {humidor : Humidor} {db db' : Database}
    (h : (add now cigar humidor).drain.Halts db db') :
    db' = db ∨ AddGoesThrough cigar humidor db ∧ db' = added now cigar humidor db := by
  rcases SQLDelightBaseRepository.add_halts h with hstart | hend
  · exact Or.inl hstart
  · exact Or.inr (goesThrough_of_drain now cigar hend)

end CigarsRepository

namespace CigarHumidorRepository
variable {db db' : Database}

/-- The row is written first; the entry and the cigar's total come together. -/
theorem updateCount_halts {now : ℤ} {entity : HumidorCigar} {count : ℤ} {price : Option Double}
    (h : (updateCount now entity count price).drain.Halts db db') :
    db' = db ∨ db' = countedRow entity count db ∨
      (db.cigarHumidorTable.contains (entity.humidor.rowid, entity.cigar.rowid) = true ∧
        db.cigarsTable.contains entity.cigar.rowid = true) ∧ db' = counted now entity count price db := by
  obtain ⟨emit, hemit, hbody⟩ := Flow.halts_drain_catchError (fun _ _ _ => Script.halts_pure) h
  rcases update_halts hbody with hstart | ⟨hrow, hrest⟩
  · exact Or.inl hstart
  · right
    rcases SQLDelightBaseRepository.add_halts hrest with hstart | hend
    · exact Or.inl hstart
    · right
      have hentry := historyAdd_emits (updateCountEntry now entity count price) (countedRow entity count db)
        (by decide : (-1 : ℤ) < 0)
      let rest : DbFlow HumidorCigar :=
        ((HistoryRepository.add (updateCountEntry now entity count price)).flatMapConcat fun _ =>
          CigarsRepository.update { entity.cigar with count := count }).map fun _ => pure (entity.copy count)
      have hend : (rest emit).run (countedRow entity count db) = (.ok (), db') := hend
      cases hcigar : db.cigarsTable.contains entity.cigar.rowid with
      | true =>
        have htotal := update_emits cigarsTableQueries { entity.cigar with count := count }
          ((countedRow entity count db).addHistory (updateCountEntry now entity count price))
          (congrArg Except.ok hcigar)
        have hemits : rest.Emits _ _ _ _ := (hentry.flatMapConcat htotal).map rfl
        exact ⟨⟨Except.ok.inj hrow, rfl⟩, hemits.eq_of_run hemit hend⟩
      | false =>
        obtain ⟨e, htotal⟩ := update_fails cigarsTableQueries { entity.cigar with count := count }
          ((countedRow entity count db).addHistory (updateCountEntry now entity count price))
          (congrArg Except.ok hcigar)
        have hfails : rest.Fails _ _ _ := (hentry.flatMapConcat_fails htotal).map _
        exact absurd hend hfails.not_run

section Moving
variable {src : HumidorCigar} {dst : Humidor} {count : ℤ} {s s' : Database}

theorem moveFrom_halts {emit : Bool → DbAction Unit} (h : (moveFrom src count emit).Halts s s') :
    s' = s ∨ count < src.count ∧
        s' = HumidorsDatabase.updateCigarsCount (long (src.humidor.count - count)) src.humidor.rowid s ∨
      s.cigarHumidorTable.contains (src.humidor.rowid, src.cigar.rowid) = true ∧
        (emit true).Halts (s.takeOut src count) s' := by
  unfold moveFrom at h
  unfold Database.takeOut
  by_cases hpart : src.count > count
  · rw [if_pos hpart] at h ⊢
    rcases Script.halts_write_bind h with hstart | hrest
    · exact Or.inl hstart
    · rcases update_halts hrest with hlowered | ⟨hrow, hrest⟩
      · exact Or.inr (Or.inl ⟨hpart, hlowered⟩)
      · exact Or.inr (Or.inr ⟨Except.ok.inj hrow, hrest⟩)
  · rw [if_neg hpart] at h ⊢
    rcases remove_halts h with hstart | ⟨s₁, hrow, hremove, hrest⟩
    · exact Or.inl hstart
    · cases hremove
      exact Or.inr (Or.inr ⟨Except.ok.inj hrow, hrest⟩)

theorem find?_of_findHumidorCigar_none {humidorId cigarId : ℤ} (h : findHumidorCigar humidorId cigarId s = .ok none) :
    s.cigarHumidorTable.find? (humidorId, cigarId) = none := by
  unfold findHumidorCigar at h
  cases hrow : s.cigarHumidorTable.find? (humidorId, cigarId) with
  | none => rfl
  | some row =>
    rw [hrow] at h
    cases hread : humidorCigarFactory s row.count humidorId cigarId with
    | error e =>
      simp only [hread] at h
      cases h
    | ok entity =>
      simp only [hread] at h
      cases h

/-- Where the humidor has no row of the cigar yet, all that follows is in the transaction of `add`. -/
theorem moveTo_halts {emit : HumidorCigar → DbAction Unit} (h : (moveTo src dst count emit).Halts s s') :
    s' = s ∨
      s.cigarHumidorTable.find? (dst.rowid, src.cigar.rowid) = none ∧
        (add src.cigar dst count emit).run s = (.ok (), s') ∨
      (s.humidorsTable.contains dst.rowid = true ∧ s.cigarsTable.contains src.cigar.rowid = true) ∧
        ∃ it, (emit it).Halts (s.putIn dst.rowid src.cigar.rowid count) s' := by
  rcases Action.halts_query_bind h with hstart | ⟨found, hfound, hrest⟩
  · exact Or.inl hstart
  · have hfound : findHumidorCigar dst.rowid src.cigar.rowid s = .ok found := hfound
    cases found with
    | none =>
      rcases SQLDelightBaseRepository.add_halts hrest with hstart | hend
      · exact Or.inl hstart
      · exact Or.inr (Or.inl ⟨find?_of_findHumidorCigar_none hfound, hend⟩)
    | some entry =>
      obtain ⟨row, humidor, cigar, hrow, hhumidor, hcigar, rfl⟩ := rows_of_findHumidorCigar hfound
      rcases update_halts hrest with hstart | ⟨-, hrest⟩
      · exact Or.inl hstart
      · right
        right
        rw [putIn_of_some count hrow, Table.contains, Table.contains, hhumidor, hcigar]
        exact ⟨⟨rfl, rfl⟩, _, hrest⟩

theorem moveTotal_halts {emit : ℤ → DbAction Unit} (h : (moveTotal dst count emit).Halts s s') :
    s' = s ∨ (dst.toString = .ok () ∧ s.humidorsTable.contains dst.rowid = true) ∧
      (emit dst.rowid).Halts (s.raiseTotal dst.rowid count) s' := by
  rcases Action.halts_ofExcept_bind h with hstart | ⟨u, htext, hrest⟩
  · exact Or.inl hstart
  · rcases Action.halts_query_bind hrest with hstart | ⟨humidor, hget, hrest⟩
    · exact Or.inl hstart
    · rcases Script.halts_write_bind hrest with hstart | hrest
      · exact Or.inl hstart
      · right
        have hget : s.getHumidor dst.rowid = .ok humidor := hget
        cases hfind : s.humidorsTable.find? dst.rowid with
        | none =>
          rw [getHumidor_of_none hfind] at hget
          cases hget
        | some row =>
          rw [getHumidor_of_find? hfind] at hget
          cases hget
          refine ⟨⟨htext, (Table.contains_iff _ _).mpr ⟨row, hfind⟩⟩, ?_⟩
          rw [← updateCigarsCount_eq_raiseTotal count hfind]
          exact hrest

/-- The stages from the insert on, which come to their end together. -/
theorem moveInto_run {now : ℤ} {emit : History → DbAction Unit} (hemit : Flow.Takes emit)
    (hnone : s.cigarHumidorTable.find? (dst.rowid, src.cigar.rowid) = none)
    (hrun : Script.run ((((add src.cigar dst count).flatMapConcat fun _ => moveTotal dst count).flatMapConcat fun _ =>
      HistoryRepository.add (moveEntry now src dst count)) emit) s = (.ok (), s')) :
    (dst.toString = .ok () ∧ s.humidorsTable.contains dst.rowid = true) ∧
      s' = ((s.putIn dst.rowid src.cigar.rowid count).raiseTotal dst.rowid count).addHistory
        (moveEntry now src dst count) := by
  cases htext : dst.toString with
  | error e =>
    have hfails := stockAdd_fails_of_log src.cigar dst count s hnone htext
    exact absurd hrun ((hfails.flatMapConcat _).flatMapConcat _).not_run
  | ok u =>
    obtain ⟨rowid, hadd⟩ := stockAdd_emits src.cigar dst count s hnone htext
    cases hdst : s.humidorsTable.contains dst.rowid with
    | false =>
      obtain ⟨e, htotal⟩ := moveTotal_fails count
        (Or.inr (show (s.putIn dst.rowid src.cigar.rowid count).humidorsTable.contains dst.rowid = false from hdst))
      have hfails := hadd.flatMapConcat_fails (g := fun _ => moveTotal dst count) htotal
      exact absurd hrun (hfails.flatMapConcat _).not_run
    | true =>
      have htotal := moveTotal_emits count htext
        (show (s.putIn dst.rowid src.cigar.rowid count).humidorsTable.contains dst.rowid = true from hdst)
      have hentry := historyAdd_emits (moveEntry now src dst count)
        ((s.putIn dst.rowid src.cigar.rowid count).raiseTotal dst.rowid count) (by decide : (-1 : ℤ) < 0)
      have hraised := hadd.flatMapConcat (g := fun _ => moveTotal dst count) htotal
      have hall := hraised.flatMapConcat (g := fun _ => HistoryRepository.add (moveEntry now src dst count)) hentry
      exact ⟨⟨rfl, rfl⟩, hall.eq_of_run hemit hrun⟩

theorem moveCigar_halts {now : ℤ} (h : (moveCigar now src dst count).drain.Halts db db') :
    db' = db ∨ count < src.count ∧
        db' = HumidorsDatabase.updateCigarsCount (long (src.humidor.count - count)) src.humidor.rowid db ∨
      db' = db.takeOut src count ∨
      (db.humidorsTable.contains dst.rowid = true ∧ db.cigarsTable.contains src.cigar.rowid = true) ∧
        (db' = (db.takeOut src count).putIn dst.rowid src.cigar.rowid count ∨
          db' = ((db.takeOut src count).putIn dst.rowid src.cigar.rowid count).raiseTotal dst.rowid count) ∨
      MoveGoesThrough src dst count db ∧ db' = moved now src dst count db := by
  obtain ⟨emit, hemit, hbody⟩ := Flow.halts_drain_catchError (fun _ _ _ => Script.halts_pure)
    (show Script.Halts (Flow.drain (Flow.catchError _ _)) db db' from h)
  rcases moveFrom_halts hbody with hstart | hlowered | ⟨hsource, hrest⟩
  · exact Or.inl hstart
  · exact Or.inr (Or.inl hlowered)
  · refine Or.inr (Or.inr ?_)
    rcases moveTo_halts hrest with hout | ⟨hnone, hrun⟩ | ⟨⟨hdst, hcigar⟩, it, hrest⟩
    · exact Or.inl hout
    · -- The insert opens the transaction that the rest is in.
      obtain ⟨⟨htext, hdst⟩, hend⟩ := moveInto_run hemit hnone hrun
      refine Or.inr (Or.inr ⟨⟨hsource, htext, ?_, fun htarget => ?_⟩, hend⟩)
      · rwa [takeOut_contains_humidor] at hdst
      · rw [← takeOut_contains_row, Table.contains, hnone] at htarget
        cases htarget
    · rw [takeOut_contains_humidor] at hdst
      rw [takeOut_cigarsTable] at hcigar
      rcases moveTotal_halts hrest with hput | ⟨⟨htext, -⟩, hrest⟩
      · exact Or.inr (Or.inl ⟨⟨hdst, hcigar⟩, Or.inl hput⟩)
      · rcases SQLDelightBaseRepository.add_halts hrest with hraised | hrun
        · exact Or.inr (Or.inl ⟨⟨hdst, hcigar⟩, Or.inr hraised⟩)
        · have hentry := historyAdd_emits (moveEntry now src dst count)
            (((db.takeOut src count).putIn dst.rowid src.cigar.rowid count).raiseTotal dst.rowid count)
            (by decide : (-1 : ℤ) < 0)
          exact Or.inr (Or.inr ⟨⟨hsource, htext, hdst, fun _ => hcigar⟩, hentry.eq_of_run hemit hrun⟩)

end Moving
end CigarHumidorRepository

namespace StockOp

/-- The call, collected for nothing but its effect. -/
def program : StockOp → DbAction Unit
  | addHumidor now entity => (HumidorsRepository.add now entity).drain
  | addCigar now cigar humidor => (CigarsRepository.add now cigar humidor).drain
  | updateCount now entity count price => (CigarHumidorRepository.updateCount now entity count price).drain
  | moveCigar now src dst count => (CigarHumidorRepository.moveCigar now src dst count).drain

/-- What an operation that does not get to its end can leave. -/
def Partway (db db' : Database) : StockOp → Prop
  | addHumidor _ _ => db' = db
  | addCigar _ _ _ => db' = db
  | updateCount _ entity count _ => db' = db ∨ db' = CigarHumidorRepository.countedRow entity count db
  | moveCigar _ src dst count =>
    db' = db ∨ count < src.count ∧
        db' = HumidorsDatabase.updateCigarsCount (long (src.humidor.count - count)) src.humidor.rowid db ∨
      db' = db.takeOut src count ∨
      (db.humidorsTable.contains dst.rowid = true ∧ db.cigarsTable.contains src.cigar.rowid = true) ∧
        (db' = (db.takeOut src count).putIn dst.rowid src.cigar.rowid count ∨
          db' = ((db.takeOut src count).putIn dst.rowid src.cigar.rowid count).raiseTotal dst.rowid count)

/-- Wherever the operation stops. -/
theorem halts_cases {db db' : Database} {op : StockOp} (h : op.program.Halts db db') :
    op.Partway db db' ∨ op.GoesThrough db ∧ db' = op.outcome db := by
  cases op with
  | addHumidor now entity => exact HumidorsRepository.add_halts h
  | addCigar now cigar humidor => exact CigarsRepository.add_halts h
  | updateCount now entity count price =>
    rcases CigarHumidorRepository.updateCount_halts h with hstart | hrow | hend
    · exact Or.inl (Or.inl hstart)
    · exact Or.inl (Or.inr hrow)
    · exact Or.inr hend
  | moveCigar now src dst count =>
    rcases CigarHumidorRepository.moveCigar_halts h with hstart | hlowered | hout | hput | hend
    · exact Or.inl (Or.inl hstart)
    · exact Or.inl (Or.inr (Or.inl hlowered))
    · exact Or.inl (Or.inr (Or.inr (Or.inl hout)))
    · exact Or.inl (Or.inr (Or.inr (Or.inr hput)))
    · exact Or.inr hend

/-- What an unfinished operation may have done to the stock without recording it. -/
noncomputable def gaps : StockOp → List (Inventory ℤ ℤ ℤ)
  | addHumidor _ _ => [0]
  | addCigar _ _ _ => [0]
  | updateCount _ entity count _ =>
    [0, Finsupp.single (entity.humidor.rowid, entity.cigar.rowid) (count - entity.count)]
  | moveCigar _ src dst count =>
    [0, -Finsupp.single (src.humidor.rowid, src.cigar.rowid) count,
      (Movement.transfer src.humidor.rowid dst.rowid src.cigar.rowid count).delta]

theorem zero_mem_gaps (op : StockOp) : 0 ∈ op.gaps := by
  cases op with
  | addHumidor => exact List.mem_cons_self
  | addCigar => exact List.mem_cons_self
  | updateCount => exact List.mem_cons_self
  | moveCigar => exact List.mem_cons_self

/-- The cigars of kind `c` in humidor `h` that an unfinished operation may leave unaccounted for. -/
def reach (h c : ℤ) : StockOp → ℤ
  | addHumidor _ _ => 0
  | addCigar _ _ _ => 0
  | updateCount _ entity count _ =>
    if entity.humidor.rowid = h ∧ entity.cigar.rowid = c then |count - entity.count| else 0
  | moveCigar _ src dst count =>
    if (src.humidor.rowid = h ∨ dst.rowid = h) ∧ src.cigar.rowid = c then count else 0

/-- The cigars of kind `c` that an unfinished operation may have added without an entry. -/
def gain (c : ℤ) : StockOp → ℤ
  | updateCount _ entity count _ => if entity.cigar.rowid = c then max (count - entity.count) 0 else 0
  | _ => 0

/-- The cigars of kind `c` that an unfinished operation may have lost without an entry. -/
def loss (c : ℤ) : StockOp → ℤ
  | updateCount _ entity count _ => if entity.cigar.rowid = c then max (entity.count - count) 0 else 0
  | moveCigar _ src _ count => if src.cigar.rowid = c then count else 0
  | _ => 0

section Gaps
variable {db : Database} {op : StockOp} {gap : Inventory ℤ ℤ ℤ} (legal : op.Legal db) (hgap : gap ∈ op.gaps)
include legal hgap

theorem abs_gap_le (h c : ℤ) : |gap (h, c)| ≤ op.reach h c := by
  cases op with
  | addHumidor now entity =>
    cases List.mem_singleton.mp hgap
    simp [reach]
  | addCigar now cigar humidor =>
    cases List.mem_singleton.mp hgap
    simp [reach]
  | updateCount now entity count price =>
    simp only [gaps, List.mem_cons, List.not_mem_nil, or_false] at hgap
    rcases hgap with rfl | rfl
    · simp only [reach, Finsupp.coe_zero, Pi.zero_apply, abs_zero]
      split_ifs
      · exact abs_nonneg _
      · exact le_refl 0
    · simp only [reach, Finsupp.single_apply, Prod.mk.injEq]
      split_ifs <;> simp
  | moveCigar now src dst count =>
    have hpos : 0 < count := legal.2.2.1
    have hne : dst.rowid ≠ src.humidor.rowid := legal.2.1
    simp only [gaps, List.mem_cons, List.not_mem_nil, or_false] at hgap
    rcases hgap with rfl | rfl | rfl
    · simp only [reach, Finsupp.coe_zero, Pi.zero_apply, abs_zero]
      split_ifs <;> omega
    · simp only [reach, Finsupp.neg_apply, Finsupp.single_apply, Prod.mk.injEq, abs_neg]
      split_ifs with hcell hboth hboth
      · exact (abs_of_pos hpos).le
      · exact absurd ⟨Or.inl hcell.1, hcell.2⟩ hboth
      · rw [abs_zero]
        exact hpos.le
      · exact abs_zero.le
    · rw [Movement.delta_apply]
      simp only [reach]
      by_cases hc : src.cigar.rowid = c
      · by_cases hsrc : src.humidor.rowid = h
        · have hdst : dst.rowid ≠ h := fun hdst => hne (hdst.trans hsrc.symm)
          simp [hc, hsrc, hdst, abs_of_pos hpos]
        · by_cases hdst : dst.rowid = h
          · simp [hc, hsrc, hdst, abs_of_pos hpos]
          · simp [hc, hsrc, hdst]
      · simp [hc]

theorem kindTotal_gap (c : ℤ) : -op.loss c ≤ kindTotal c gap ∧ kindTotal c gap ≤ op.gain c := by
  cases op with
  | addHumidor now entity =>
    cases List.mem_singleton.mp hgap
    simp [loss, gain]
  | addCigar now cigar humidor =>
    cases List.mem_singleton.mp hgap
    simp [loss, gain]
  | updateCount now entity count price =>
    simp only [gaps, List.mem_cons, List.not_mem_nil, or_false] at hgap
    rcases hgap with rfl | rfl
    · rw [map_zero]
      simp only [loss, gain]
      split_ifs <;> omega
    · rw [kindTotal_single]
      simp only [loss, gain]
      split_ifs <;> omega
  | moveCigar now src dst count =>
    have hpos : 0 < count := legal.2.2.1
    simp only [gaps, List.mem_cons, List.not_mem_nil, or_false] at hgap
    rcases hgap with rfl | rfl | rfl
    · rw [map_zero]
      simp only [loss, gain]
      split_ifs <;> omega
    · rw [map_neg, kindTotal_single]
      simp only [loss, gain]
      split_ifs <;> omega
    · rw [kindTotal_transfer]
      simp only [loss, gain]
      split_ifs <;> omega

end Gaps

section Partway
variable {db db' : Database} {op : StockOp}

theorem references_of_partway (refs : References db) (h : op.Partway db db') : References db' := by
  cases op with
  | addHumidor now entity =>
    cases h
    exact refs
  | addCigar now cigar humidor =>
    cases h
    exact refs
  | updateCount now entity count price =>
    rcases h with rfl | rfl
    · exact refs
    · exact references_update refs (fun _ => rfl) (fun _ => rfl)
        (fun k hk => (Table.contains_update _ _ _ _).symm.trans hk) fun _ _ hr => hr
  | moveCigar now src dst count =>
    have hout := references_takeOut refs src count
    rcases h with rfl | ⟨-, rfl⟩ | rfl | ⟨⟨hdst, hcigar⟩, hput⟩
    · exact refs
    · exact references_update refs (fun _ => Table.contains_update _ _ _ _) (fun _ => rfl) (fun _ hk => hk)
        fun _ _ hr => hr
    · exact hout
    · rw [← CigarHumidorRepository.takeOut_contains_humidor src count] at hdst
      rw [← CigarHumidorRepository.takeOut_cigarsTable src count] at hcigar
      have hput' := references_putIn hout count hdst hcigar
      rcases hput with rfl | rfl
      · exact hput'
      · exact references_raiseTotal hput' dst.rowid count

theorem historyTable_of_partway (h : op.Partway db db') : db'.historyTable = db.historyTable := by
  cases op with
  | addHumidor now entity => rw [h]
  | addCigar now cigar humidor => rw [h]
  | updateCount now entity count price =>
    rcases h with rfl | rfl
    · rfl
    · rfl
  | moveCigar now src dst count =>
    have hout := takeOut_historyTable src count db
    rcases h with rfl | ⟨-, rfl⟩ | rfl | ⟨-, rfl | rfl⟩
    · rfl
    · rfl
    · exact hout
    · exact hout
    · exact hout

theorem longCounts_of_partway (counts : LongCounts db) (hlongs : op.HasLongs) (h : op.Partway db db') :
    LongCounts db' := by
  cases op with
  | addHumidor now entity =>
    cases h
    exact counts
  | addCigar now cigar humidor =>
    cases h
    exact counts
  | updateCount now entity count price =>
    rcases h with rfl | rfl
    · exact counts
    · exact ⟨counts.stock.update _ fun _ _ => hlongs, counts.humidors, counts.cigars⟩
  | moveCigar now src dst count =>
    have hout := longCounts_takeOut counts src count
    have hput : LongCounts ((db.takeOut src count).putIn dst.rowid src.cigar.rowid count) :=
      ⟨all_putInRow hout.stock _ hlongs, hout.humidors, hout.cigars⟩
    rcases h with rfl | ⟨-, rfl⟩ | rfl | ⟨-, rfl | rfl⟩
    · exact counts
    · exact ⟨counts.stock, counts.humidors.update _ fun _ _ => isLong_long _, counts.cigars⟩
    · exact hout
    · exact hput
    · exact ⟨hput.stock, hput.humidors.update _ fun _ _ => isLong_long _, hput.cigars⟩

theorem inventory_of_partway (legal : op.Legal db) (h : op.Partway db db') :
    ∃ gap ∈ op.gaps, db'.inventory = db.inventory + Inventory.map (Int.castAddHom Residue) gap := by
  have hnone : db.inventory = db.inventory + Inventory.map (Int.castAddHom Residue) 0 := by
    rw [map_zero, add_zero]
  cases op with
  | addHumidor now entity =>
    cases h
    exact ⟨0, List.mem_cons_self, hnone⟩
  | addCigar now cigar humidor =>
    cases h
    exact ⟨0, List.mem_cons_self, hnone⟩
  | updateCount now entity count price =>
    rcases h with rfl | rfl
    · exact ⟨0, List.mem_cons_self, hnone⟩
    · refine ⟨_, List.mem_cons_of_mem _ List.mem_cons_self, (inventory_outcome legal).trans ?_⟩
      simp only [delta_updateCount, Inventory.map_single, Int.coe_castAddHom, Int.cast_sub]
  | moveCigar now src dst count =>
    have hout := Database.inventory_takeOut legal.1 legal.2.2.2
    have hmoved : ((moveCigar now src dst count).outcome db).inventory = db.inventory +
        Inventory.map (Int.castAddHom Residue)
          (Movement.transfer src.humidor.rowid dst.rowid src.cigar.rowid count).delta := by
      rw [inventory_outcome legal, Movement.delta, map_sub, Inventory.map_single, Inventory.map_single]
      rfl
    rcases h with rfl | ⟨-, rfl⟩ | rfl | ⟨-, rfl | rfl⟩
    · exact ⟨0, List.mem_cons_self, hnone⟩
    · exact ⟨0, List.mem_cons_self, hnone⟩
    · refine ⟨_, List.mem_cons_of_mem _ List.mem_cons_self, ?_⟩
      rw [hout, map_neg, Inventory.map_single, sub_eq_add_neg]
      rfl
    · exact ⟨_, List.mem_cons_of_mem _ (List.mem_cons_of_mem _ List.mem_cons_self), hmoved⟩
    · exact ⟨_, List.mem_cons_of_mem _ (List.mem_cons_of_mem _ List.mem_cons_self), hmoved⟩

end Partway
end StockOp

/-! ### Whole runs -/

/-- The stock is what the history records and `drift` beyond it. -/
def Drifted (db : Database) (drift : Inventory ℤ ℤ ℤ) : Prop :=
  db.inventory = db.recorded + Inventory.map (Int.castAddHom Residue) drift

/-- An operation, and whether it gets to its end. -/
structure Attempt where
  op : StockOp
  finished : Bool

namespace Attempt

/-- The operation is called as the screens call it. It then emits and ends, or it stops somewhere because
the app is killed or a statement throws. -/
def Step (db : Database) (a : Attempt) (db' : Database) : Prop :=
  a.op.Legal db ∧ if a.finished = true then a.op.Completes db db' else a.op.program.Halts db db'

theorem step_cases {db db' : Database} {a : Attempt} (h : a.Step db db') :
    a.op.Legal db ∧ (a.op.GoesThrough db ∧ db' = a.op.outcome db ∨ a.finished = false ∧ a.op.Partway db db') := by
  obtain ⟨legal, hstep⟩ := h
  refine ⟨legal, ?_⟩
  cases hfinished : a.finished with
  | true =>
    rw [if_pos hfinished] at hstep
    exact Or.inl ((StockOp.completes_iff _ _ _).mp hstep)
  | false =>
    rw [if_neg (by rw [hfinished]; decide)] at hstep
    rcases StockOp.halts_cases hstep with hpartway | hend
    · exact Or.inr ⟨rfl, hpartway⟩
    · exact Or.inl hend

/-- An operation that gets to its end. -/
def perform (db : Database) (a : Attempt) : Option Database := if a.finished = true then a.op.perform db else none

theorem step_of_perform {db db' : Database} {a : Attempt} (h : a.perform db = some db') : a.Step db db' := by
  unfold perform at h
  split_ifs at h with hfinished
  obtain ⟨legal, hcompletes⟩ := StockOp.step_of_perform h
  exact ⟨legal, by rwa [if_pos hfinished]⟩

theorem stockInvariant_step {db db' : Database} {a : Attempt} (inv : StockInvariant db) (h : a.Step db db') :
    StockInvariant db' := by
  obtain ⟨legal, ⟨hgo, rfl⟩ | ⟨-, hpartway⟩⟩ := step_cases h
  · exact ⟨references_outcome inv.references hgo, longCounts_outcome inv.counts (legal.hasLongs inv.counts)⟩
  · exact ⟨StockOp.references_of_partway inv.references hpartway,
      StockOp.longCounts_of_partway inv.counts (legal.hasLongs inv.counts) hpartway⟩

/-- What an attempt may do to the stock without recording it: nothing when the operation gets to its end. -/
noncomputable def gaps (a : Attempt) : List (Inventory ℤ ℤ ℤ) := if a.finished = true then [0] else a.op.gaps

/-- What an attempt adds to a bound. -/
def unfinished (f : StockOp → ℤ) (a : Attempt) : ℤ := if a.finished = true then 0 else f a.op

theorem zero_mem_gaps (a : Attempt) : 0 ∈ a.gaps := by
  unfold gaps
  split_ifs
  · exact List.mem_cons_self
  · exact a.op.zero_mem_gaps

/-- Only an operation that does not get to its end moves the stock away from the history. -/
theorem drifted_step {db db' : Database} {a : Attempt} {drift : Inventory ℤ ℤ ℤ} (hdrift : Drifted db drift)
    (h : a.Step db db') : ∃ gap ∈ a.gaps, Drifted db' (drift + gap) := by
  unfold Drifted at hdrift ⊢
  obtain ⟨legal, ⟨-, rfl⟩ | ⟨hfinished, hpartway⟩⟩ := step_cases h
  · refine ⟨0, a.zero_mem_gaps, ?_⟩
    rw [StockOp.inventory_outcome legal, StockOp.recorded_outcome, hdrift, add_zero, add_right_comm]
  · obtain ⟨gap, hgap, hinventory⟩ := StockOp.inventory_of_partway legal hpartway
    have hrecorded : db'.recorded = db.recorded := by
      unfold Database.recorded Database.ledger
      rw [StockOp.historyTable_of_partway hpartway]
    refine ⟨gap, ?_, ?_⟩
    · rw [gaps, if_neg (by rw [hfinished]; decide)]
      exact hgap
    · rw [hinventory, hdrift, hrecorded, map_add, add_assoc]

section Gaps
variable {db : Database} {a : Attempt} {gap : Inventory ℤ ℤ ℤ} (legal : a.op.Legal db) (hgap : gap ∈ a.gaps)
include legal hgap

theorem abs_gap_le (h c : ℤ) : |gap (h, c)| ≤ a.unfinished (StockOp.reach h c) := by
  unfold gaps at hgap
  unfold unfinished
  split_ifs at hgap ⊢
  · rw [List.mem_singleton.mp hgap]
    exact abs_zero.le
  · exact StockOp.abs_gap_le legal hgap h c

theorem kindTotal_gap (c : ℤ) :
    -a.unfinished (StockOp.loss c) ≤ kindTotal c gap ∧ kindTotal c gap ≤ a.unfinished (StockOp.gain c) := by
  unfold gaps at hgap
  unfold unfinished
  split_ifs at hgap ⊢
  · rw [List.mem_singleton.mp hgap, map_zero]
    exact ⟨le_refl 0, le_refl 0⟩
  · exact StockOp.kindTotal_gap legal hgap c

end Gaps

/-- The drift is no more than the unfinished operations of the run allow. -/
structure Within (trace : List (Database × Attempt)) (drift : Inventory ℤ ℤ ℤ) : Prop where
  cells : ∀ h c, |drift (h, c)| ≤ (trace.map fun t => t.2.unfinished (StockOp.reach h c)).sum
  lost : ∀ c, -(trace.map fun t => t.2.unfinished (StockOp.loss c)).sum ≤ kindTotal c drift
  gained : ∀ c, kindTotal c drift ≤ (trace.map fun t => t.2.unfinished (StockOp.gain c)).sum

theorem within_zero : Within [] 0 where
  cells _ _ := abs_zero.le
  lost c := (map_zero (kindTotal c)).ge
  gained c := (map_zero (kindTotal c)).le

theorem Within.next {trace : List (Database × Attempt)} {drift gap : Inventory ℤ ℤ ℤ} {db : Database} {a : Attempt}
    (h : Within trace drift) (legal : a.op.Legal db) (hgap : gap ∈ a.gaps) :
    Within ((db, a) :: trace) (drift + gap) where
  cells x c := by
    have hsum : |(drift + gap) (x, c)| ≤ |drift (x, c)| + |gap (x, c)| := abs_add_le _ _
    have hdrift := h.cells x c
    have hstep := abs_gap_le legal hgap x c
    simp only [List.map_cons, List.sum_cons]
    omega
  lost c := by
    have hdrift := h.lost c
    have hstep := (kindTotal_gap legal hgap c).1
    simp only [List.map_cons, List.sum_cons, map_add]
    omega
  gained c := by
    have hdrift := h.gained c
    have hstep := (kindTotal_gap legal hgap c).2
    simp only [List.map_cons, List.sum_cons, map_add]
    omega

end Attempt

section Runs
variable {cigars humidors history images : ℤ} {trace : List (Database × Attempt)} {db : Database}
  (run : Run Attempt.Step (Database.empty cigars humidors history images) trace db)
include run

theorem stockInvariant_of_attempts : StockInvariant db :=
  run.invariant (stockInvariant_empty _ _ _ _) fun _ _ _ => Attempt.stockInvariant_step

/-- One drift accounts for the stock in all humidors. -/
theorem exists_drift : ∃ drift, Drifted db drift ∧ Attempt.Within trace drift := by
  induction run with
  | start =>
    refine ⟨0, ?_, Attempt.within_zero⟩
    have hempty := recorded_empty cigars humidors history images
    unfold Recorded at hempty
    rw [Drifted, hempty, map_zero, add_zero]
  | @next trace db db' a run hstep ih =>
    obtain ⟨drift, hdrift, hwithin⟩ := ih
    obtain ⟨gap, hgap, hdrift'⟩ := Attempt.drifted_step hdrift hstep
    exact ⟨drift + gap, hdrift', hwithin.next hstep.1 hgap⟩

/-- Whatever operations do not get to their end, every stored count is in `Long`s what the history records, off
by no more than what those of them that name the cell were to change there; and no row loses its references. -/
theorem stock_near_recorded (h c : ℤ) : References db ∧
    ∃ drift : ℤ, |drift| ≤ (trace.map fun t => t.2.unfinished (StockOp.reach h c)).sum ∧
      db.stock h c = long (db.ledger (h, c) + drift) := by
  obtain ⟨refs, counts⟩ := stockInvariant_of_attempts run
  obtain ⟨drift, hdrift, hwithin⟩ := exists_drift run
  refine ⟨refs, drift (h, c), hwithin.cells h c, ?_⟩
  rw [(counts.isLong_stock h c).eq_long_iff, Database.cast_stock, hdrift, Int.cast_add]
  rfl

/-- Operations that do not get to their end lose no more cigars than they were to move or to count off, and
only counts that go up can leave more than the history records: a move never duplicates a cigar. -/
theorem cigarSum_near_recorded (c : ℤ) :
    ∃ drift : ℤ, -(trace.map fun t => t.2.unfinished (StockOp.loss c)).sum ≤ drift ∧
      drift ≤ (trace.map fun t => t.2.unfinished (StockOp.gain c)).sum ∧
      long (db.cigarSum c) = long (kindTotal c db.ledger + drift) := by
  obtain ⟨drift, hdrift, hwithin⟩ := exists_drift run
  refine ⟨kindTotal c drift, hwithin.lost c, hwithin.gained c, ?_⟩
  rw [(isLong_long _).eq_long_iff, cast_long, Database.cast_cigarSum, hdrift, map_add, Database.recorded, kindTotal,
    total_map, total_map, Int.cast_add]
  rfl

omit run in
/-- Two humidors, ten cigars in the first, and a move of four that is killed after its second statement. -/
theorem killedMove_run : ∃ trace db, Run Attempt.Step (Database.empty 0 0 0 0) trace db ∧
    trace.length = 4 ∧ db.stock 1 1 = 6 ∧ db.stock 2 1 = 0 ∧ db.cigarSum 1 = 6 := by
  have hsome : (replay Attempt.perform [] (Database.empty 0 0 0 0)
      (tenCigars.map fun op => ⟨op, true⟩)).isSome = true := by
    decide
  have run : Run Attempt.Step (Database.empty 0 0 0 0) _ tenCigarsStored :=
    Run.performed (fun _ _ _ => Attempt.step_of_perform) _ hsome
  have hkilled : Attempt.Step tenCigarsStored
      ⟨.moveCigar 0 tenCigarsRow { emptyHumidor with rowid := 2, name := "B" } 4, false⟩
      (tenCigarsStored.takeOut tenCigarsRow 4) := by
    refine ⟨by decide, ?_⟩
    exact Or.inl (Or.inr ⟨(), _, rfl, Or.inr ⟨true, _, rfl, Or.inr ⟨(), _, rfl, Script.stops_self _ _⟩⟩⟩)
  exact ⟨_, _, run.next hkilled, rfl, by decide, by decide, by decide⟩

omit run in
theorem stock_near_recorded_killedMove : ∃ trace db, Run Attempt.Step (Database.empty 0 0 0 0) trace db ∧
    trace.length = 4 ∧ db.stock 1 1 = 6 ∧ db.stock 2 1 = 0 ∧ References db ∧
      ∃ drift : ℤ, |drift| ≤ (trace.map fun t => t.2.unfinished (StockOp.reach 1 1)).sum ∧
        db.stock 1 1 = long (db.ledger (1, 1) + drift) := by
  obtain ⟨trace, db, run, hlength, hsrc, hdst, -⟩ := killedMove_run
  exact ⟨trace, db, run, hlength, hsrc, hdst, stock_near_recorded run 1 1⟩

omit run in
theorem cigarSum_near_recorded_killedMove :
    ∃ trace db, Run Attempt.Step (Database.empty 0 0 0 0) trace db ∧ trace.length = 4 ∧ db.cigarSum 1 = 6 ∧
      ∃ drift : ℤ, -(trace.map fun t => t.2.unfinished (StockOp.loss 1)).sum ≤ drift ∧
        drift ≤ (trace.map fun t => t.2.unfinished (StockOp.gain 1)).sum ∧
        long (db.cigarSum 1) = long (kindTotal 1 db.ledger + drift) := by
  obtain ⟨trace, db, run, hlength, -, -, hsum⟩ := killedMove_run
  exact ⟨trace, db, run, hlength, hsum, cigarSum_near_recorded run 1⟩

end Runs
end Cigars
