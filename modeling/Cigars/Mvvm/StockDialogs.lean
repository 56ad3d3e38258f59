import Cigars.Stock.Moves
import Cigars.Transformations.Basic

/-! The two dialogs of the details screen that change the stock, from the text in their number
field on, and which counts they let through. -/
namespace Cigars
open Coroutine Sql Transition

namespace CigarDetailsScreen

/-- `isValid` of the move dialog; `compareTo` compares the rowids. -/
def isValid (src : Option HumidorCigar) (dst : Option Humidor) (count : ℤ) : Bool :=
  match src, dst with
  | some src, some dst => decide (src.count ≥ count) && decide (dst.rowid ≠ src.humidor.rowid)
  | _, _ => false

/-! ### The operations -/

/-- What the buttons of the two dialogs do, with the text of the number field. -/
inductive DialogOp
  | updateCigarCount (now : ℤ) (entity : HumidorCigar) (text : String) (price : Option Double)
  | moveCigar (now : ℤ) (src : HumidorCigar) (dst : Humidor) (text : String)

namespace DialogOp

def Admitted (db : Database) : DialogOp → Prop
  | updateCigarCount _ entity text _ => UpToDate db entity ∧ NumberVisualTransformation.validate text = true
  | moveCigar _ src dst text => UpToDate db src ∧ NumberVisualTransformation.validate text = true ∧
      ∃ count, toLong text = some count ∧ isValid (some src) (some dst) count = true

/-- The view model's function ends normally. `updateCigarCount` does nothing when the count is
the old one. -/
def Completes (db : Database) (op : DialogOp) (db' : Database) : Prop :=
  match op with
  | updateCigarCount now entity text price => ∃ count, toLong text = some count ∧
      if entity.count ≠ count then (CigarHumidorRepository.updateCount now entity count price).Completes db db'
      else db' = db
  | moveCigar now src dst text => ∃ count, toLong text = some count ∧
      (CigarHumidorRepository.moveCigar now src dst count).Completes db db'

def Step (db : Database) (op : DialogOp) (db' : Database) : Prop := op.Admitted db ∧ op.Completes db db'

/-- The number is not negative, and what is moved is covered by the total of the humidor it
leaves and does not make a count too large where it goes. -/
def Covered (db : Database) : DialogOp → Prop
  | updateCigarCount _ _ text _ => ∀ count, toLong text = some count → 0 ≤ count
  | moveCigar _ src dst text => ∀ count, toLong text = some count → 0 ≤ count ∧
      (count < src.count → count ≤ src.humidor.count) ∧
      db.stock dst.rowid src.cigar.rowid + count < longLimit ∧ db.humidorTotal dst.rowid + count < longLimit

end DialogOp

/-- A count as a `Long` that is not negative. -/
def NonNegative (n : ℤ) : Prop := 0 ≤ n ∧ n < longLimit

structure CountsNonNegative (db : Database) : Prop where
  stock : ∀ r ∈ db.cigarHumidorTable.rows, NonNegative r.2.count
  humidors : ∀ r ∈ db.humidorsTable.rows, NonNegative r.2.count
  history : ∀ r ∈ db.historyTable.rows, NonNegative r.2.count

theorem nonNegative_zero : NonNegative 0 := by
  unfold NonNegative longLimit
  omega

theorem NonNegative.isLong {n : ℤ} (h : NonNegative n) : IsLong n := by
  unfold NonNegative longLimit at h
  rw [isLong_kotlin_iff]
  omega

/-- A sum from `2 ^ 63` on comes out negative. -/
theorem nonNegative_long_add_iff {m n : ℤ} (hm : NonNegative m) (hn : NonNegative n) :
    NonNegative (long (m + n)) ↔ m + n < longLimit := by
  unfold NonNegative longLimit at hm hn
  have hlong := isLong_kotlin_iff.mp (isLong_long (m + n))
  rw [NonNegative, long_kotlin_nonneg_iff (by omega) (by omega)]
  exact and_iff_left hlong.2

private theorem forall_rows_iff {κ ρ : Type} [DecidableEq κ] (t : Table κ ρ) (g : ρ → ℤ) :
    (∀ r ∈ t.rows, NonNegative (g r.2)) ↔ ∀ k, NonNegative (((t.find? k).map g).getD 0) := by
  constructor
  · intro h k
    cases hk : t.find? k with
    | none => exact nonNegative_zero
    | some r => exact h (k, r) ((Table.mem_rows_iff _ _ _).mpr hk)
  · intro h r hr
    have hk := h r.1
    rw [(Table.mem_rows_iff _ _ _).mp hr] at hk
    exact hk

/-- A count that is not stored is zero, so the rows need not be named. -/
theorem countsNonNegative_iff (db : Database) :
    CountsNonNegative db ↔ (∀ h c, NonNegative (db.stock h c)) ∧ (∀ h, NonNegative (db.humidorTotal h)) ∧
      ∀ r ∈ db.historyTable.rows, NonNegative r.2.count := by
  have hstock := forall_rows_iff db.cigarHumidorTable CigarHumidorTable.count
  have hhumidors := forall_rows_iff db.humidorsTable.toTable HumidorsTable.count
  constructor
  · intro h
    exact ⟨fun hum c => hstock.mp h.stock (hum, c), hhumidors.mp h.humidors, h.history⟩
  · intro h
    exact ⟨hstock.mpr fun k => h.1 k.1 k.2, hhumidors.mpr h.2.1, h.2.2⟩

/-! ### What the operations do to the counts -/

theorem history_addHistory (db : Database) (entry : History) :
    (∀ r ∈ (db.addHistory entry).historyTable.rows, NonNegative r.2.count) ↔
      (∀ r ∈ db.historyTable.rows, NonNegative r.2.count) ∧ NonNegative entry.count := by
  have hrows : (db.addHistory entry).historyTable.rows = db.historyTable.rows ++ [_] := rfl
  rw [hrows, List.forall_mem_append, List.forall_mem_singleton]

theorem stock_counted {db : Database} {entity : HumidorCigar} (hup : UpToDate db entity) (now count : ℤ)
    (price : Option Double) (h c : ℤ) : (CigarHumidorRepository.counted now entity count price db).stock h c =
      if (h, c) = (entity.humidor.rowid, entity.cigar.rowid) then count else db.stock h c := by
  obtain ⟨row, -, -, hrow, -⟩ := hup.rows
  have hfind := Table.find?_update db.cigarHumidorTable (entity.humidor.rowid, entity.cigar.rowid) (h, c)
    fun r => { r with count }
  unfold Database.stock
  change Option.getD (Option.map _ (Table.find? (Table.update _ _ _) _)) _ = _
  rw [hfind]
  split_ifs with hkey
  · rw [hrow]
    rfl
  · rfl

theorem stock_moved {db : Database} {src : HumidorCigar} {count : ℤ} (hup : UpToDate db src)
    (hlong : IsLong src.count) (hnonneg : 0 ≤ count) (hle : count ≤ src.count) (now : ℤ) {dst : Humidor}
    (hne : dst.rowid ≠ src.humidor.rowid) (h c : ℤ) :
    (CigarHumidorRepository.moved now src dst count db).stock h c =
      if (dst.rowid, src.cigar.rowid) = (h, c) then long (db.stock h c + count)
      else if (src.humidor.rowid, src.cigar.rowid) = (h, c) then src.count - count else db.stock h c := by
  have hput := Database.stock_putIn dst.rowid src.cigar.rowid (hlong.of_le hnonneg hle) (db.takeOut src count) h c
  rw [Database.stock_takeOut hup hlong hnonneg hle] at hput
  refine Eq.trans hput (ite_congr rfl (fun hkey => ?_) fun _ => rfl)
  have hother : (src.humidor.rowid, src.cigar.rowid) ≠ (h, c) :=
    fun he => hne (congrArg Prod.fst (hkey.trans he.symm))
  rw [if_neg hother]

theorem humidorTotal_moved {db : Database} {src : HumidorCigar} {dst : Humidor} {count : ℤ}
    (hup : UpToDate db src) (hne : dst.rowid ≠ src.humidor.rowid)
    (hdst : db.humidorsTable.contains dst.rowid = true) (now h : ℤ) :
    (CigarHumidorRepository.moved now src dst count db).humidorTotal h =
      if dst.rowid = h then long (db.humidorTotal h + count)
      else if count < src.count ∧ src.humidor.rowid = h then long (db.humidorTotal h - count)
      else db.humidorTotal h := by
  have hcontains : ((db.takeOut src count).putIn dst.rowid src.cigar.rowid count).humidorsTable.contains
      dst.rowid = true := by
    rw [← hdst]
    exact CigarHumidorRepository.takeOut_contains_humidor src count db dst.rowid
  have hraise := Database.humidorTotal_raise count h hcontains
  have hout : ((db.takeOut src count).putIn dst.rowid src.cigar.rowid count).humidorTotal h = _ :=
    Database.humidorTotal_takeOut count h hup
  rw [hout] at hraise
  refine Eq.trans hraise (ite_congr rfl (fun hkey => ?_) fun _ => rfl)
  rw [if_neg fun hc => hne (hkey.trans hc.2.symm)]

theorem counted_nonNegative_iff {db : Database} (hdb : CountsNonNegative db) {entity : HumidorCigar}
    (hup : UpToDate db entity) {count : ℤ} (hlimit : count < longLimit) (now : ℤ) (price : Option Double) :
    CountsNonNegative (CigarHumidorRepository.counted now entity count price db) ↔ 0 ≤ count := by
  obtain ⟨row, -, -, hrow, hcount, -⟩ := hup.rows
  obtain ⟨hstock, htotal, hhistory⟩ := (countsNonNegative_iff db).mp hdb
  have hentity : NonNegative entity.count := by
    rw [← hcount]
    exact hdb.stock _ ((Table.mem_rows_iff _ _ _).mpr hrow)
  rw [countsNonNegative_iff]
  constructor
  · intro h
    have hnew := h.1 entity.humidor.rowid entity.cigar.rowid
    rw [stock_counted hup, if_pos rfl] at hnew
    exact hnew.1
  · intro h
    refine ⟨?_, htotal, ?_⟩
    · intro hum c
      rw [stock_counted hup]
      split_ifs
      · exact ⟨h, hlimit⟩
      · exact hstock hum c
    · apply (history_addHistory _ (CigarHumidorRepository.updateCountEntry now entity count price)).mpr
      refine ⟨hhistory, ?_⟩
      unfold NonNegative longLimit at hentity
      unfold longLimit at hlimit
      have hdiff : long (entity.count - count) = entity.count - count :=
        (isLong_kotlin_iff.mpr ⟨by omega, by omega⟩).long_eq
      have habs : NonNegative |entity.count - count| := by
        refine ⟨abs_nonneg _, ?_⟩
        unfold longLimit
        rw [abs_lt]
        omega
      unfold CigarHumidorRepository.updateCountEntry
      rw [hdiff]
      change NonNegative (long _)
      rw [habs.isLong.long_eq]
      exact habs

section Moved
variable {db : Database} {src : HumidorCigar} {dst : Humidor} {count : ℤ} (hup : UpToDate db src)
  (hne : dst.rowid ≠ src.humidor.rowid) (now : ℤ) (hcount : NonNegative count)
include hup hne hcount

theorem stock_moved_nonNegative_iff (hstock : ∀ hum c, NonNegative (db.stock hum c)) (hle : count ≤ src.count) :
    (∀ hum c, NonNegative ((CigarHumidorRepository.moved now src dst count db).stock hum c)) ↔
      db.stock dst.rowid src.cigar.rowid + count < longLimit := by
  obtain ⟨row, -, -, hrow, hrowCount, -⟩ := hup.rows
  have hsrc : NonNegative src.count := by
    have hcell := hstock src.humidor.rowid src.cigar.rowid
    unfold Database.stock at hcell
    rw [hrow, Option.map_some, Option.getD_some, hrowCount] at hcell
    exact hcell
  rw [← nonNegative_long_add_iff (hstock dst.rowid src.cigar.rowid) hcount]
  constructor
  · intro h
    have hrowDst := h dst.rowid src.cigar.rowid
    rw [stock_moved hup hsrc.isLong hcount.1 hle now hne, if_pos rfl] at hrowDst
    exact hrowDst
  · intro hrowDst hum c
    rw [stock_moved hup hsrc.isLong hcount.1 hle now hne]
    split_ifs with hd hs
    · cases hd
      exact hrowDst
    · unfold NonNegative at hsrc hcount ⊢
      omega
    · exact hstock hum c

theorem total_moved_nonNegative_iff (htotal : ∀ hum, NonNegative (db.humidorTotal hum))
    (hdst : db.humidorsTable.contains dst.rowid = true) :
    (∀ hum, NonNegative ((CigarHumidorRepository.moved now src dst count db).humidorTotal hum)) ↔
      (count < src.count → count ≤ src.humidor.count) ∧ db.humidorTotal dst.rowid + count < longLimit := by
  obtain ⟨-, humidor, -, -, -, hhum, hhumidor, -⟩ := hup.rows
  have hsrcTotal : db.humidorTotal src.humidor.rowid = src.humidor.count := by
    rw [Database.humidorTotal_of_find? hhum, hhumidor]
    rfl
  -- A difference of two counts is within the range of `Long`.
  have hlowered : long (db.humidorTotal src.humidor.rowid - count) = src.humidor.count - count := by
    have hold := htotal src.humidor.rowid
    unfold NonNegative longLimit at hold hcount
    rw [hsrcTotal] at hold ⊢
    exact (isLong_kotlin_iff.mpr ⟨by omega, by omega⟩).long_eq
  rw [← nonNegative_long_add_iff (htotal dst.rowid) hcount]
  constructor
  · intro h
    have htotalDst := h dst.rowid
    rw [humidorTotal_moved hup hne hdst, if_pos rfl] at htotalDst
    refine ⟨?_, htotalDst⟩
    intro hpart
    have htotalSrc := h src.humidor.rowid
    rw [humidorTotal_moved hup hne hdst, if_neg hne, if_pos ⟨hpart, rfl⟩, hlowered] at htotalSrc
    unfold NonNegative at htotalSrc
    omega
  · intro ⟨hcovered, htotalDst⟩ hum
    rw [humidorTotal_moved hup hne hdst]
    split_ifs with hd hs
    · cases hd
      exact htotalDst
    · have hroom := hcovered hs.1
      have hold := htotal src.humidor.rowid
      rw [← hs.2, hlowered]
      rw [hsrcTotal] at hold
      unfold NonNegative at hold hcount ⊢
      omega
    · exact htotal hum

end Moved

theorem history_moved_nonNegative_iff {db : Database} (src : HumidorCigar) (dst : Humidor) (count now : ℤ)
    (hhistory : ∀ r ∈ db.historyTable.rows, NonNegative r.2.count) :
    (∀ r ∈ (CigarHumidorRepository.moved now src dst count db).historyTable.rows, NonNegative r.2.count) ↔
      NonNegative count := by
  have htable : (((db.takeOut src count).putIn dst.rowid src.cigar.rowid count).raiseTotal
      dst.rowid count).historyTable = db.historyTable := takeOut_historyTable src count db
  unfold CigarHumidorRepository.moved
  rw [history_addHistory, htable]
  exact and_iff_right hhistory

theorem moved_nonNegative_iff {db : Database} (hdb : CountsNonNegative db) {src : HumidorCigar} {dst : Humidor}
    (hup : UpToDate db src) {count : ℤ} (hlimit : count < longLimit) (hle : count ≤ src.count)
    (hne : dst.rowid ≠ src.humidor.rowid) (hdst : db.humidorsTable.contains dst.rowid = true) (now : ℤ) :
    CountsNonNegative (CigarHumidorRepository.moved now src dst count db) ↔ 0 ≤ count ∧
      (count < src.count → count ≤ src.humidor.count) ∧
      db.stock dst.rowid src.cigar.rowid + count < longLimit ∧
      db.humidorTotal dst.rowid + count < longLimit := by
  obtain ⟨hstock, htotal, hhistory⟩ := (countsNonNegative_iff db).mp hdb
  rw [countsNonNegative_iff, history_moved_nonNegative_iff src dst count now hhistory]
  constructor
  · intro ⟨hstock', htotal', hmoved⟩
    have hrowDst := (stock_moved_nonNegative_iff hup hne now hmoved hstock hle).mp hstock'
    obtain ⟨hcovered, htotalDst⟩ := (total_moved_nonNegative_iff hup hne now hmoved htotal hdst).mp htotal'
    exact ⟨hmoved.1, hcovered, hrowDst, htotalDst⟩
  · intro ⟨hnonneg, hcovered, hrowDst, htotalDst⟩
    have hcount : NonNegative count := ⟨hnonneg, hlimit⟩
    have hstock' := (stock_moved_nonNegative_iff hup hne now hcount hstock hle).mpr hrowDst
    have htotal' := (total_moved_nonNegative_iff hup hne now hcount htotal hdst).mpr ⟨hcovered, htotalDst⟩
    exact ⟨hstock', htotal', hnonneg, hlimit⟩

/-- One dialog keeps the counts from becoming negative exactly when what it moves is covered. -/
theorem DialogOp.Step.nonNegative_iff {db db' : Database} {op : DialogOp} (hstep : op.Step db db')
    (hdb : CountsNonNegative db) : CountsNonNegative db' ↔ op.Covered db := by
  obtain ⟨hadmitted, hdone⟩ := hstep
  cases op with
  | updateCigarCount now entity text price =>
    obtain ⟨hup, -⟩ := hadmitted
    obtain ⟨count, htext, hdone⟩ := hdone
    have hcovered : Covered db (updateCigarCount now entity text price) ↔ 0 ≤ count := by
      unfold Covered
      simp only [htext, Option.some.injEq, forall_eq']
    rw [hcovered]
    split_ifs at hdone with hchanged
    · have hdb' := ((StockOp.completes_iff db db' (.updateCount now entity count price)).mp hdone).2
      rw [hdb']
      exact counted_nonNegative_iff hdb hup (lt_longLimit_of_toLong htext) now price
    · -- The old count is stored, so it is not negative.
      obtain ⟨row, -, -, hrow, hcount, -⟩ := hup.rows
      have hold := hdb.stock _ ((Table.mem_rows_iff _ _ _).mpr hrow)
      rw [hdone]
      apply iff_of_true hdb
      rw [← not_not.mp hchanged, ← hcount]
      exact hold.1
  | moveCigar now src dst text =>
    obtain ⟨hup, -, count, htext, hvalid⟩ := hadmitted
    obtain ⟨count', htext', hdone⟩ := hdone
    rw [htext] at htext'
    cases htext'
    have hcovered : Covered db (moveCigar now src dst text) ↔ 0 ≤ count ∧
        (count < src.count → count ≤ src.humidor.count) ∧
        db.stock dst.rowid src.cigar.rowid + count < longLimit ∧
        db.humidorTotal dst.rowid + count < longLimit := by
      unfold Covered
      simp only [htext, Option.some.injEq, forall_eq']
    obtain ⟨hle, hne⟩ := (Bool.and_eq_true _ _).mp hvalid
    obtain ⟨hgo, hdb'⟩ := (StockOp.completes_iff db db' (.moveCigar now src dst count)).mp hdone
    rw [hcovered, hdb']
    exact moved_nonNegative_iff hdb hup (lt_longLimit_of_toLong htext) (of_decide_eq_true hle)
      (of_decide_eq_true hne) hgo.target now

/-- The counts stay non-negative through a run of the dialogs exactly when every step of it is
covered. -/
theorem counts_nonNegative_iff {db₀ : Database} (h₀ : CountsNonNegative db₀)
    {trace : List (Database × DialogOp)} {db : Database}
    (run : Run (fun db op db' => DialogOp.Step db op db') db₀ trace db) :
    (CountsNonNegative db ∧ ∀ s ∈ trace, CountsNonNegative s.1) ↔ ∀ s ∈ trace, s.2.Covered s.1 :=
  run.kept_iff h₀ fun _ _ _ hdb hstep => hstep.nonNegative_iff hdb

instance (n : ℤ) : Decidable (NonNegative n) := inferInstanceAs (Decidable (_ ∧ _))

instance (db : Database) : Decidable (CountsNonNegative db) := decidable_of_iff
  ((∀ r ∈ db.cigarHumidorTable.rows, NonNegative r.2.count) ∧
    (∀ r ∈ db.humidorsTable.rows, NonNegative r.2.count) ∧ ∀ r ∈ db.historyTable.rows, NonNegative r.2.count)
  ⟨fun h => ⟨h.1, h.2.1, h.2.2⟩, fun h => ⟨h.stock, h.humidors, h.history⟩⟩

/-- The count dialog on the row of ten. -/
theorem step_tenCigarsRow {text : String} {count : ℤ} (htext : toLong text = some count)
    (hvalid : NumberVisualTransformation.validate text = true) (hne : tenCigarsRow.count ≠ count) :
    DialogOp.Step tenCigarsStored (.updateCigarCount 0 tenCigarsRow text none)
      (CigarHumidorRepository.counted 0 tenCigarsRow count none tenCigarsStored) := by
  have hdone : StockOp.Completes tenCigarsStored (.updateCount 0 tenCigarsRow count none)
      (CigarHumidorRepository.counted 0 tenCigarsRow count none tenCigarsStored) :=
    StockOp.completes_of_goesThrough ⟨by decide, by decide⟩
  refine ⟨⟨by decide, hvalid⟩, count, htext, ?_⟩
  rw [if_pos hne]
  exact hdone

theorem counts_nonNegative_seven : CountsNonNegative tenCigarsStored ∧
    CountsNonNegative (CigarHumidorRepository.counted 0 tenCigarsRow 7 none tenCigarsStored) := by
  have hseven : toLong "7" = some 7 := by decide
  have hstep := step_tenCigarsRow hseven (by decide) (by decide)
  have hcovered : ∀ s ∈ [(tenCigarsStored, DialogOp.updateCigarCount 0 tenCigarsRow "7" none)], s.2.Covered s.1 := by
    intro s hs
    cases List.mem_singleton.mp hs
    intro count hcount
    cases hseven.symm.trans hcount
    decide
  exact ⟨by decide, ((counts_nonNegative_iff (by decide) (Run.start.next hstep)).mpr hcovered).1⟩

/-- The field takes `-5`, and so does the count. -/
theorem negative_count_stored : CountsNonNegative tenCigarsStored ∧
    NumberVisualTransformation.validate "-5" = true ∧
    DialogOp.Step tenCigarsStored (.updateCigarCount 0 tenCigarsRow "-5" none)
      (CigarHumidorRepository.counted 0 tenCigarsRow (-5) none tenCigarsStored) ∧
    (CigarHumidorRepository.counted 0 tenCigarsRow (-5) none tenCigarsStored).stock 1 1 = -5 ∧
    ¬ CountsNonNegative (CigarHumidorRepository.counted 0 tenCigarsRow (-5) none tenCigarsStored) :=
  ⟨by decide, by decide, step_tenCigarsRow (by decide) (by decide) (by decide), by decide, by decide⟩

end CigarDetailsScreen
end Cigars
