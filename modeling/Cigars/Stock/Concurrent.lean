import Cigars.Coroutine.Pool
import Cigars.Repository.Adding
import Mathlib.Algebra.Order.Group.Multiset

/-! Requests of the screens that run at the same time. Two of them can spoil each other when they
write the same row; requests whose rows are apart end as if they had come one after the other,
however their statements are interleaved. The order of the history and SQLite's own rowids in the stock
table are left open. -/
namespace Cigars
open Coroutine Sql

/-! ### The cells of the database -/

/-- The rows by their keys, and what no request here writes. -/
inductive Cell
  | stock (humidorId cigarId : ℤ)
  | cigar (id : ℤ)
  | humidor (id : ℤ)
  | rest

/-- A stock row is its count; `rest` holds the keys of the two other tables in storage order, their
sequence numbers, and the images. -/
def Cell.Value : Cell → Type
  | stock _ _ => Option ℤ
  | cigar _ => Option CigarsTable
  | humidor _ => Option HumidorsTable
  | rest => (List ℤ × ℤ) × (List ℤ × ℤ) × AutoTable ImagesTable

namespace Database

def cell (db : Database) : (k : Cell) → k.Value
  | .stock humidorId cigarId => (db.cigarHumidorTable.find? (humidorId, cigarId)).map CigarHumidorTable.count
  | .cigar id => db.cigarsTable.find? id
  | .humidor id => db.humidorsTable.find? id
  | .rest => ((db.cigarsTable.rows.map Prod.fst, db.cigarsTable.seq),
      (db.humidorsTable.rows.map Prod.fst, db.humidorsTable.seq), db.imagesTable)

/-- The history entries without their order and their rowids. -/
def entries (db : Database) : Multiset HistoryTable := ↑(db.historyTable.rows.map Prod.snd)

def layout : Layout Database Cell Cell.Value (Multiset HistoryTable) := ⟨cell, entries⟩

/-- The same data, but for the order of the history and the rowids of the stock table. -/
structure SameData (db db' : Database) : Prop where
  cigars : db.cigarsTable = db'.cigarsTable
  humidors : db.humidorsTable = db'.humidorsTable
  images : db.imagesTable = db'.imagesTable
  stock : ∀ key, (db.cigarHumidorTable.find? key).map CigarHumidorTable.count =
    (db'.cigarHumidorTable.find? key).map CigarHumidorTable.count
  history : (db.historyTable.rows.map Prod.snd).Perm (db'.historyTable.rows.map Prod.snd)

variable {db db' : Database}

/-- Rows are determined by their keys in order and the lookups. -/
private theorem rows_eq_of_find? {ρ : Type} {t t' : Table ℤ ρ} (hkeys : t.rows.map Prod.fst = t'.rows.map Prod.fst)
    (hfind : ∀ k, t.find? k = t'.find? k) : t.rows = t'.rows := by
  apply List.ext_getElem
  · have hlength := congrArg List.length hkeys
    rwa [List.length_map, List.length_map] at hlength
  · intro i hi hi'
    have hkey : t.rows[i].1 = t'.rows[i].1 := by
      have hget := congrArg (·[i]?) hkeys
      simpa [hi, hi'] using hget
    have hrow := (Table.mem_rows_iff t t.rows[i].1 t.rows[i].2).mp (List.getElem_mem hi)
    have hrow' := (Table.mem_rows_iff t' t'.rows[i].1 t'.rows[i].2).mp (List.getElem_mem hi')
    rw [hfind, hkey, hrow'] at hrow
    exact Prod.ext hkey (Option.some.inj hrow).symm

private theorem table_eq {ρ : Type} {t t' : AutoTable ρ} (hkeys : t.rows.map Prod.fst = t'.rows.map Prod.fst)
    (hseq : t.seq = t'.seq) (hfind : ∀ k, t.find? k = t'.find? k) : t = t' := by
  ext1
  · exact rows_eq_of_find? hkeys hfind
  · exact hseq

theorem sameData_of_cells (hcell : ∀ k, db.cell k = db'.cell k) (hentries : db.entries = db'.entries) :
    SameData db db' := by
  have hrest := Prod.mk.inj (hcell .rest)
  have hcigars := Prod.mk.inj hrest.1
  have hhumidors := Prod.mk.inj (Prod.mk.inj hrest.2).1
  exact {
    cigars := table_eq hcigars.1 hcigars.2 fun id => hcell (.cigar id)
    humidors := table_eq hhumidors.1 hhumidors.2 fun id => hcell (.humidor id)
    images := (Prod.mk.inj hrest.2).2
    stock := fun key => hcell (.stock key.1 key.2)
    history := Multiset.coe_eq_coe.mp hentries }

/-! ### What the statements write -/

section Statements
variable {A : Set Cell} {s t : Database}

private theorem stock_ne {humidorId cigarId h c : ℤ} (hk : Cell.stock h c ≠ .stock humidorId cigarId) :
    (h, c) ≠ (humidorId, cigarId) := by
  intro heq
  cases heq
  exact hk rfl

theorem moves_updateStock (count humidorId cigarId : ℤ) (hw : .stock humidorId cigarId ∈ A)
    (hst : layout.AgreeOn A s t) :
    layout.Moves A s (HumidorCigarsDatabase.update count humidorId cigarId s) t
      (HumidorCigarsDatabase.update count humidorId cigarId t) := by
  refine Layout.moves_of_write (w := .stock humidorId cigarId) (d := 0) ?_ ?_ (fun s => (add_zero _).symm) hw hst
  · intro s k hk
    cases k with
    | stock h c => exact congrArg (Option.map _) (Table.find?_update_of_ne _ (stock_ne hk))
    | _ => rfl
  · intro s t hcell
    have hcount : ∀ db : Database, (HumidorCigarsDatabase.update count humidorId cigarId db).cell
        (.stock humidorId cigarId) = (db.cell (.stock humidorId cigarId)).map fun _ => count := by
      intro db
      change Option.map _ (Table.find? (Table.update _ _ _) _) = Option.map _ (Option.map _ _)
      rw [Table.find?_update, if_pos rfl, Option.map_map, Option.map_map]
      rfl
    exact (hcount s).trans ((congrArg (Option.map fun _ => count) hcell).trans (hcount t).symm)

theorem moves_removeStock (humidorId cigarId : ℤ) (hw : .stock humidorId cigarId ∈ A) (hst : layout.AgreeOn A s t) :
    layout.Moves A s (HumidorCigarsDatabase.remove humidorId cigarId s) t
      (HumidorCigarsDatabase.remove humidorId cigarId t) := by
  refine Layout.moves_of_write (w := .stock humidorId cigarId) (d := 0) ?_ ?_ (fun s => (add_zero _).symm) hw hst
  · intro s k hk
    cases k with
    | stock h c =>
      have hfind := Table.find?_erase s.cigarHumidorTable (humidorId, cigarId) (h, c)
      rw [if_neg (stock_ne hk)] at hfind
      exact congrArg (Option.map _) hfind
    | _ => rfl
  · intro s t _
    have hnone : ∀ db : Database, (HumidorCigarsDatabase.remove humidorId cigarId db).cell
        (.stock humidorId cigarId) = (none : Option ℤ) := by
      intro db
      change Option.map _ (Table.find? (Table.erase _ _) _) = none
      rw [Table.find?_erase, if_pos rfl]
      rfl
    exact (hnone s).trans (hnone t).symm

/-- An insert of a stock row: refused when the row is there, otherwise only that row is new. -/
theorem addStock_cases (count humidorId cigarId : ℤ) (db : Database) :
    (∃ id db', HumidorCigarsDatabase.add count humidorId cigarId db = .ok (id, db') ∧
        db.cell (.stock humidorId cigarId) = (none : Option ℤ) ∧
        db'.cell (.stock humidorId cigarId) = some count ∧
        (∀ k, k ≠ .stock humidorId cigarId → db'.cell k = db.cell k) ∧ db'.entries = db.entries) ∨
      (HumidorCigarsDatabase.add count humidorId cigarId db = .error .uniqueConstraint ∧
        db.cell (.stock humidorId cigarId) ≠ (none : Option ℤ)) := by
  unfold HumidorCigarsDatabase.add
  cases hfind : db.cigarHumidorTable.find? (humidorId, cigarId) with
  | none =>
    left
    obtain ⟨table, htable⟩ := Table.exists_insert?_of_find?_none
      (⟨HumidorCigarsDatabase.nextRowid db.cigarHumidorTable, count⟩ : CigarHumidorTable) hfind
    rw [htable]
    refine ⟨_, _, rfl, congrArg (Option.map _) hfind, ?_, ?_, rfl⟩
    · change Option.map _ (table.find? (humidorId, cigarId)) = some count
      rw [Table.find?_of_insert? htable, if_pos rfl]
      rfl
    · intro k hk
      cases k with
      | stock h c =>
        change Option.map _ (table.find? (h, c)) = Option.map _ _
        rw [Table.find?_of_insert? htable, if_neg (stock_ne hk)]
      | _ => rfl
  | some row =>
    right
    have hnone := (Table.insert?_eq_none_iff db.cigarHumidorTable (humidorId, cigarId)
      ⟨HumidorCigarsDatabase.nextRowid db.cigarHumidorTable, count⟩).mpr ((Table.contains_iff _ _).mpr ⟨row, hfind⟩)
    rw [hnone]
    refine ⟨rfl, ?_⟩
    change Option.map _ (Table.find? _ _) ≠ none
    rw [hfind]
    exact Option.some_ne_none _

theorem moves_updateCigar (id : ℤ) (f : CigarsTable → CigarsTable) (hw : .cigar id ∈ A) (hst : layout.AgreeOn A s t) :
    layout.Moves A s { s with cigarsTable := s.cigarsTable.update id f } t
      { t with cigarsTable := t.cigarsTable.update id f } := by
  refine Layout.moves_of_write (f := fun db : Database => { db with cigarsTable := db.cigarsTable.update id f })
    (w := .cigar id) (d := 0) ?_ ?_ (fun s => (add_zero _).symm) hw hst
  · intro s k hk
    cases k with
    | cigar id' => exact Table.find?_update_of_ne f fun heq => hk (congrArg Cell.cigar heq)
    | rest => exact congrArg (fun keys => ((keys, _), _, _)) (Table.map_fst_update s.cigarsTable.toTable id f)
    | _ => rfl
  · intro s t hcell
    have hfind : ∀ db : Database, ({ db with cigarsTable := db.cigarsTable.update id f } : Database).cell (.cigar id) =
        (db.cell (.cigar id)).map f := fun db => (Table.find?_update _ id id f).trans (if_pos rfl)
    exact (hfind s).trans ((congrArg (Option.map f) hcell).trans (hfind t).symm)

theorem moves_updateHumidor (id : ℤ) (f : HumidorsTable → HumidorsTable) (hw : .humidor id ∈ A)
    (hst : layout.AgreeOn A s t) :
    layout.Moves A s { s with humidorsTable := s.humidorsTable.update id f } t
      { t with humidorsTable := t.humidorsTable.update id f } := by
  refine Layout.moves_of_write (f := fun db : Database => { db with humidorsTable := db.humidorsTable.update id f })
    (w := .humidor id) (d := 0) ?_ ?_ (fun s => (add_zero _).symm) hw hst
  · intro s k hk
    cases k with
    | humidor id' => exact Table.find?_update_of_ne f fun heq => hk (congrArg Cell.humidor heq)
    | rest => exact congrArg (fun keys => (_, (keys, _), _)) (Table.map_fst_update s.humidorsTable.toTable id f)
    | _ => rfl
  · intro s t hcell
    have hfind : ∀ db : Database,
        ({ db with humidorsTable := db.humidorsTable.update id f } : Database).cell (.humidor id) =
          (db.cell (.humidor id)).map f := fun db => (Table.find?_update _ id id f).trans (if_pos rfl)
    exact (hfind s).trans ((congrArg (Option.map f) hcell).trans (hfind t).symm)

theorem entries_insert (row : HistoryTable) (db : Database) :
    ({ db with historyTable := db.historyTable.insert row } : Database).entries = db.entries + {row} := by
  change ((db.historyTable.rows ++ [_]).map Prod.snd : Multiset HistoryTable) = _
  rw [List.map_append, ← Multiset.coe_add]
  rfl

theorem moves_insertHistory (row : HistoryTable) (hst : layout.AgreeOn A s t) :
    layout.Moves A s { s with historyTable := s.historyTable.insert row } t
      { t with historyTable := t.historyTable.insert row } where
  agree := hst
  left _ _ := rfl
  right _ _ := rfl
  log := ⟨{row}, entries_insert row s, entries_insert row t⟩

end Statements
end Database

/-! ### What the repositories' operations touch -/

open Database

namespace SQLDelightBaseRepository
variable {ENTITY : Type} (wrapper : DatabaseQueries ENTITY) {A : Set Cell}

/-- A new entity is inserted whatever the tables hold; its rowid is all that can differ. -/
theorem add_local {entity : ENTITY} (hnew : wrapper.rowid entity < 0)
    (hadd : ∀ s t, layout.AgreeOn A s t →
      (∃ id s' id' t', wrapper.add entity s = .ok (id, s') ∧ wrapper.add entity t = .ok (id', t') ∧
        layout.Moves A s s' t t') ∨ ∃ e, wrapper.add entity s = .error e ∧ wrapper.add entity t = .error e)
    (hlog : ∀ id, wrapper.toString (wrapper.withRowid entity id) = wrapper.toString entity) :
    (add wrapper entity).Local layout A (add wrapper entity) fun _ _ => True := by
  have hisNew : (isNew wrapper entity).Local layout A (isNew wrapper entity) fun a b => a = b ∧ a = true := by
    unfold isNew
    rw [if_pos hnew]
    exact ⟨rfl, rfl⟩
  refine Flow.local_after hisNew fun new new' hnew => ?_
  obtain ⟨rfl, rfl⟩ := hnew
  apply Flow.Local.inTransaction
  refine Flow.local_after (Q := fun _ _ => True) (Action.local_statement fun s t hst => ?_) fun id id' _ => ?_
  · rcases hadd s t hst with ⟨id, s', id', t', hs, ht, hmoves⟩ | herror
    · exact Or.inl ⟨id, s', id', t', hs, ht, hmoves, trivial⟩
    · exact Or.inr herror
  · rw [hlog id, hlog id']
    exact Flow.local_after (Action.local_ofExcept _) fun _ _ _ => Flow.local_flowOf trivial

theorem contains_local {id : ℤ} {whereId : Option ℤ}
    (h : ∀ s t, layout.AgreeOn A s t → wrapper.contains id whereId s = wrapper.contains id whereId t) :
    (contains wrapper id whereId).Local layout A (contains wrapper id whereId) Eq :=
  (Action.local_query h fun _ _ _ => trivial).mono fun _ _ hab => hab.1

theorem update_local {entity : ENTITY}
    (hcontains : ∀ s t, layout.AgreeOn A s t →
      wrapper.contains (wrapper.identity entity).1 (wrapper.identity entity).2 s =
        wrapper.contains (wrapper.identity entity).1 (wrapper.identity entity).2 t)
    (hupdate : ∀ s t, layout.AgreeOn A s t →
      layout.Moves A s (wrapper.update entity s) t (wrapper.update entity t)) :
    (update wrapper entity).Local layout A (update wrapper entity) fun _ _ => True := by
  refine Flow.local_after (contains_local wrapper hcontains) fun stored stored' hstored => ?_
  cases hstored
  cases stored with
  | true => exact Flow.local_after (Action.local_write hupdate) fun _ _ _ => Flow.local_flowOf trivial
  | false => exact Flow.local_after (Action.local_ofExcept _) fun _ _ _ => Flow.local_throwing _

theorem remove_local {id : ℤ} {whereId : Option ℤ} {f : Database → Database}
    (hcontains : ∀ s t, layout.AgreeOn A s t → wrapper.contains id whereId s = wrapper.contains id whereId t)
    (hf : ∀ s, wrapper.remove id whereId s = .ok (f s))
    (hremove : ∀ s t, layout.AgreeOn A s t → layout.Moves A s (f s) t (f t)) :
    (remove wrapper id whereId).Local layout A (remove wrapper id whereId) fun _ _ => True := by
  refine Flow.local_after (contains_local wrapper hcontains) fun stored stored' hstored => ?_
  cases hstored
  cases stored with
  | true =>
    refine Flow.local_after (Q := fun _ _ => True) (Action.local_statement fun s t hst => ?_)
      fun _ _ _ => Flow.local_flowOf trivial
    left
    rw [hf s, hf t]
    exact ⟨(), f s, (), f t, rfl, rfl, hremove s t hst, trivial⟩
  | false => exact Flow.local_throwing _

end SQLDelightBaseRepository

section Reads
variable {A : Set Cell} {s t : Database}

theorem contains_stock_of_agree {humidorId cigarId : ℤ} (hw : .stock humidorId cigarId ∈ A)
    (hst : layout.AgreeOn A s t) :
    s.cigarHumidorTable.contains (humidorId, cigarId) = t.cigarHumidorTable.contains (humidorId, cigarId) := by
  have hsome := congrArg Option.isSome (show s.cell (.stock humidorId cigarId) = t.cell _ from hst _ hw)
  rwa [Database.cell, Database.cell, Option.isSome_map, Option.isSome_map] at hsome

theorem getHumidor_of_agree {id : ℤ} (hw : .humidor id ∈ A) (hst : layout.AgreeOn A s t) :
    s.getHumidor id = t.getHumidor id := by
  have hrow : s.humidorsTable.find? id = t.humidorsTable.find? id := hst _ hw
  rw [Database.getHumidor, Database.getHumidor, hrow]

theorem findHumidorCigar_of_agree {humidorId cigarId : ℤ} (hstock : .stock humidorId cigarId ∈ A)
    (hhumidor : .humidor humidorId ∈ A) (hcigar : .cigar cigarId ∈ A) (hst : layout.AgreeOn A s t) :
    findHumidorCigar humidorId cigarId s = findHumidorCigar humidorId cigarId t := by
  have hrow : (s.cigarHumidorTable.find? (humidorId, cigarId)).map CigarHumidorTable.count =
      (t.cigarHumidorTable.find? (humidorId, cigarId)).map CigarHumidorTable.count := hst _ hstock
  have hread : ∀ count,
      humidorCigarFactory s count humidorId cigarId = humidorCigarFactory t count humidorId cigarId := by
    intro count
    have hcigarRow : s.cigarsTable.find? cigarId = t.cigarsTable.find? cigarId := hst _ hcigar
    have hget : s.getCigar cigarId = t.getCigar cigarId := by
      rw [Database.getCigar, Database.getCigar, hcigarRow]
    unfold humidorCigarFactory
    rw [getHumidor_of_agree hhumidor hst, hget]
  unfold findHumidorCigar
  cases hs : s.cigarHumidorTable.find? (humidorId, cigarId) with
  | none =>
    cases ht : t.cigarHumidorTable.find? (humidorId, cigarId) with
    | none => rfl
    | some r =>
      rw [hs, ht] at hrow
      cases hrow
  | some r =>
    cases ht : t.cigarHumidorTable.find? (humidorId, cigarId) with
    | none =>
      rw [hs, ht] at hrow
      cases hrow
    | some r' =>
      rw [hs, ht] at hrow
      have hcount : r.count = r'.count := Option.some.inj hrow
      dsimp only
      rw [hcount, hread]

end Reads

theorem HistoryRepository.add_local {A : Set Cell} {entry : History} (hnew : entry.rowid < 0) :
    (HistoryRepository.add entry).Local layout A (HistoryRepository.add entry) fun _ _ => True := by
  refine SQLDelightBaseRepository.add_local historyTableQueries hnew (fun s t hst => ?_) fun _ => rfl
  exact Or.inl ⟨_, _, _, _, rfl, rfl, moves_insertHistory _ hst⟩

theorem CigarsRepository.update_local {A : Set Cell} {cigar : Cigar} (hw : .cigar cigar.rowid ∈ A) :
    (CigarsRepository.update cigar).Local layout A (CigarsRepository.update cigar) fun _ _ => True := by
  refine SQLDelightBaseRepository.update_local cigarsTableQueries (fun s t hst => ?_) fun s t hst => ?_
  · have hrow : s.cigarsTable.find? cigar.rowid = t.cigarsTable.find? cigar.rowid := hst _ hw
    exact congrArg (fun row => Except.ok row.isSome) hrow
  · exact moves_updateCigar _ _ hw hst

theorem HumidorsRepository.updateCigarsCount_local {A : Set Cell} {humidor : ℤ} (hw : .humidor humidor ∈ A)
    (count : ℤ) :
    (updateCigarsCount humidor count).Local layout A (updateCigarsCount humidor count) fun _ _ => True :=
  Flow.local_after (Action.local_write fun _ _ hst => moves_updateHumidor _ _ hw hst)
    fun _ _ _ => Flow.local_flowOf trivial

namespace CigarHumidorRepository
variable {A : Set Cell}

theorem update_local {entity : HumidorCigar} (hw : .stock entity.humidor.rowid entity.cigar.rowid ∈ A) :
    (update entity).Local layout A (update entity) fun _ _ => True := by
  refine SQLDelightBaseRepository.update_local cigarHumidorTableQueries (fun s t hst => ?_) fun s t hst => ?_
  · exact congrArg Except.ok (contains_stock_of_agree hw hst)
  · exact moves_updateStock _ _ _ hw hst

theorem remove_local {cigar : Cigar} {src : Humidor} (hw : .stock src.rowid cigar.rowid ∈ A) :
    (remove cigar src).Local layout A (remove cigar src) fun _ _ => True := by
  refine SQLDelightBaseRepository.remove_local cigarHumidorTableQueries (fun s t hst => ?_) (fun s => rfl)
    fun s t hst => ?_
  · exact congrArg Except.ok (contains_stock_of_agree hw hst)
  · exact moves_removeStock _ _ hw hst

theorem add_local {cigar : Cigar} {humidor : Humidor} (count : ℤ) (hw : .stock humidor.rowid cigar.rowid ∈ A) :
    (add cigar humidor count).Local layout A (add cigar humidor count) fun _ _ => True := by
  have hnew : (-1 : ℤ) < 0 := by decide
  refine SQLDelightBaseRepository.add_local cigarHumidorTableQueries hnew (fun s t hst => ?_) fun id => ?_
  · have hcell : s.cell (.stock humidor.rowid cigar.rowid) = t.cell (.stock humidor.rowid cigar.rowid) := hst _ hw
    rcases addStock_cases count humidor.rowid cigar.rowid s with ⟨id, s', hs, hnone, hnew, hother, hlog⟩ | ⟨hs, hsome⟩
    · rcases addStock_cases count humidor.rowid cigar.rowid t with
        ⟨id', t', ht, -, hnew', hother', hlog'⟩ | ⟨-, hsome'⟩
      · left
        refine ⟨id, s', id', t', hs, ht, ?_, ?_, ?_, 0, ?_, ?_⟩
        · intro k hk
          by_cases hkw : k = .stock humidor.rowid cigar.rowid
          · subst hkw
            exact hnew.trans hnew'.symm
          · exact (hother k hkw).trans ((hst k hk).trans (hother' k hkw).symm)
        · exact fun k hk => (hother k fun hkw => hk (hkw ▸ hw)).symm
        · exact fun k hk => (hother' k fun hkw => hk (hkw ▸ hw)).symm
        · exact hlog.trans (add_zero _).symm
        · exact hlog'.trans (add_zero _).symm
      · exact absurd (hcell.symm.trans hnone) hsome'
    · rcases addStock_cases count humidor.rowid cigar.rowid t with ⟨id', t', ht, hnone', -⟩ | ⟨ht, -⟩
      · exact absurd (hcell.trans hnone') hsome
      · exact Or.inr ⟨_, hs, ht⟩
  · rfl

end CigarHumidorRepository

/-! ### The requests -/

/-- What the screens ask the repositories to write. -/
inductive Request
  | updateCount (now : ℤ) (entity : HumidorCigar) (count : ℤ) (price : Option Double)
  | moveCigar (now : ℤ) (src : HumidorCigar) (dst : Humidor) (count : ℤ)
  | updateFavorite (value : Bool) (cigar : Cigar)
  | updateRating (value : ℤ) (cigar : Cigar)
  | updateCigar (cigar : Cigar)

namespace Request

def program : Request → DbAction Unit
  | updateCount now entity count price => (CigarHumidorRepository.updateCount now entity count price).drain
  | moveCigar now src dst count => (CigarHumidorRepository.moveCigar now src dst count).drain
  | updateFavorite value cigar => (CigarsRepository.updateFavorite value cigar).drain
  | updateRating value cigar => (CigarsRepository.updateRating value cigar).drain
  | updateCigar cigar => (CigarsRepository.update cigar).drain

/-- The rows the request reads or writes. -/
def footprint : Request → Set Cell
  | updateCount _ entity _ _ => {.stock entity.humidor.rowid entity.cigar.rowid, .cigar entity.cigar.rowid}
  | moveCigar _ src dst _ => {.stock src.humidor.rowid src.cigar.rowid, .stock dst.rowid src.cigar.rowid,
      .humidor src.humidor.rowid, .humidor dst.rowid, .cigar src.cigar.rowid}
  | updateFavorite _ cigar | updateRating _ cigar | updateCigar cigar => {.cigar cigar.rowid}

end Request

namespace CigarHumidorRepository

theorem updateCount_local (now : ℤ) (entity : HumidorCigar) (count : ℤ) (price : Option Double) :
    (updateCount now entity count price).Local layout (Request.updateCount now entity count price).footprint
      (updateCount now entity count price) fun _ _ => True := by
  have hnew : (-1 : ℤ) < 0 := by decide
  have hupdate : (update (entity.copy count)).Local layout (Request.updateCount now entity count price).footprint
      (update (entity.copy count)) fun _ _ => True := update_local (Set.mem_insert _ _)
  refine Flow.Local.catchError (Flow.Local.flatMapConcat hupdate fun _ _ _ => ?_) fun _ => trivial
  refine Flow.Local.map (Q := fun _ _ => True) ?_ fun _ _ _ => trivial
  refine Flow.Local.flatMapConcat (HistoryRepository.add_local hnew) fun _ _ _ => ?_
  exact CigarsRepository.update_local (Set.mem_insert_of_mem _ rfl)

section Moving
variable {src : HumidorCigar} {dst : Humidor} {count : ℤ}

theorem moveFrom_local (hstock : .stock src.humidor.rowid src.cigar.rowid ∈ A)
    (hhumidor : .humidor src.humidor.rowid ∈ A) :
    (moveFrom src count).Local layout A (moveFrom src count) fun _ _ => True := by
  unfold moveFrom
  split_ifs with hpart
  · refine Flow.Local.flatMapConcat (HumidorsRepository.updateCigarsCount_local hhumidor _) fun _ _ _ => ?_
    have hupdate : (update (src.copy (long (src.count - count)))).Local layout A
        (update (src.copy (long (src.count - count)))) fun _ _ => True := update_local hstock
    exact hupdate.flatMapConcat fun _ _ _ => Flow.local_flowOf trivial
  · exact remove_local hstock

theorem moveTo_local (hstock : .stock dst.rowid src.cigar.rowid ∈ A) (hhumidor : .humidor dst.rowid ∈ A)
    (hcigar : .cigar src.cigar.rowid ∈ A) :
    (moveTo src dst count).Local layout A (moveTo src dst count) fun _ _ => True := by
  -- The entry found has the ids it was looked up with.
  refine Flow.local_after (Action.local_query (Q := fun toEntry => ∀ entry, toEntry = some entry →
    entry.humidor.rowid = dst.rowid ∧ entry.cigar.rowid = src.cigar.rowid) ?_ ?_) fun toEntry toEntry' hentry => ?_
  · exact fun s t hst => findHumidorCigar_of_agree hstock hhumidor hcigar hst
  · intro s toEntry hfind entry hsome
    rw [hsome] at hfind
    obtain ⟨row, humidor, cigar, -, -, -, rfl⟩ := rows_of_findHumidorCigar hfind
    exact ⟨rfl, rfl⟩
  · obtain ⟨rfl, hids⟩ := hentry
    cases toEntry with
    | none => exact add_local count hstock
    | some entry =>
      obtain ⟨hhum, hcig⟩ := hids entry rfl
      exact update_local (by rwa [HumidorCigar.copy, hhum, hcig])

theorem moveTotal_local (hhumidor : .humidor dst.rowid ∈ A) :
    (moveTotal dst count).Local layout A (moveTotal dst count) fun _ _ => True := by
  refine Flow.local_after (Action.local_ofExcept _) fun _ _ _ => ?_
  refine Flow.local_after (Action.local_query (Q := fun _ => True)
    (fun s t hst => getHumidor_of_agree hhumidor hst) fun _ _ _ => trivial) fun humidor humidor' heq => ?_
  obtain ⟨rfl, -⟩ := heq
  exact HumidorsRepository.updateCigarsCount_local hhumidor _

theorem moveCigar_local (now : ℤ) (src : HumidorCigar) (dst : Humidor) (count : ℤ) :
    (moveCigar now src dst count).Local layout (Request.moveCigar now src dst count).footprint
      (moveCigar now src dst count) fun _ _ => True := by
  have hnew : (-1 : ℤ) < 0 := by decide
  have hmem : ∀ k ∈ [Cell.stock src.humidor.rowid src.cigar.rowid, .stock dst.rowid src.cigar.rowid,
      .humidor src.humidor.rowid, .humidor dst.rowid, .cigar src.cigar.rowid],
      k ∈ (Request.moveCigar now src dst count).footprint := by
    intro k hk
    simpa [Request.footprint] using hk
  refine Flow.Local.flatMapConcat (Q := fun _ _ => True) (Flow.Local.catchError ?_ fun _ => trivial)
    fun _ _ _ => Flow.local_flowOf trivial
  refine Flow.Local.flatMapConcat (Q := fun _ _ => True) ?_ fun _ _ _ => HistoryRepository.add_local hnew
  refine Flow.Local.flatMapConcat (Q := fun _ _ => True) ?_ fun _ _ _ => moveTotal_local (hmem _ (by simp))
  refine Flow.Local.flatMapConcat (Q := fun _ _ => True) ?_ fun _ _ _ =>
    moveTo_local (hmem _ (by simp)) (hmem _ (by simp)) (hmem _ (by simp))
  exact moveFrom_local (hmem _ (by simp)) (hmem _ (by simp))

end Moving
end CigarHumidorRepository

theorem Request.program_local (r : Request) :
    r.program.Local layout r.footprint r.program fun _ _ => True := by
  have hcigar : ∀ (cigar : Cigar) (f : CigarsTable → CigarsTable),
      (Script.write (fun db : Database => { db with cigarsTable := db.cigarsTable.update cigar.rowid f }) :
        DbAction Unit).Local layout {.cigar cigar.rowid} (Script.write _) Eq :=
    fun cigar f => Action.local_write fun s t hst => moves_updateCigar cigar.rowid f rfl hst
  cases r with
  | updateCount now entity count price => exact (CigarHumidorRepository.updateCount_local now entity count price).drain
  | moveCigar now src dst count => exact (CigarHumidorRepository.moveCigar_local now src dst count).drain
  | updateFavorite value cigar =>
    exact (Flow.local_after (hcigar cigar _) fun _ _ _ => Flow.local_flowOf (Q := fun _ _ => True) trivial).drain
  | updateRating value cigar =>
    exact (Flow.local_after (hcigar cigar _) fun _ _ _ => Flow.local_flowOf (Q := fun _ _ => True) trivial).drain
  | updateCigar cigar => exact (CigarsRepository.update_local (A := {.cigar cigar.rowid}) rfl).drain

/-- Any number of requests that touch no row in common: however their statements are interleaved, once
all have ended the data is what they leave one after the other, in any order. -/
theorem requests_serializable {ι : Type} [Fintype ι] [DecidableEq ι] (requests : ι → Request)
    (hapart : ∀ i j, i ≠ j → ∀ k ∈ (requests i).footprint, k ∉ (requests j).footprint) (db : Database)
    {schedule : List ι} (hended : ((Pool.mk (fun i => (requests i).program) db).run schedule).Ended)
    {order : List ι} (hnodup : order.Nodup) (hall : ∀ i, i ∈ order) :
    SameData ((Pool.mk (fun i => (requests i).program) db).run schedule).state
      (Pool.serial (fun i => (requests i).program) order db) := by
  obtain ⟨hcell, hentries⟩ := Pool.serializable (L := layout) (fun i => (requests i).program_local) hapart hended
    hnodup hall
  exact sameData_of_cells hcell hentries

/-- Five cigars of one kind and seven of another in the first of two humidors. -/
def twoKinds : Database :=
  ((((((Database.empty 0 0 0 0).addHumidor { emptyHumidor with name := "A" }).addHumidor
    { emptyHumidor with name := "B" }).addCigar emptyCigar).addCigar emptyCigar).putIn 1 1 5).putIn 1 2 7

/-- Eight of the first kind are counted while three of the second are moved to the other humidor. -/
def countAndMove : Bool → Request
  | false => .updateCount 0 ⟨5, { emptyHumidor with rowid := 1 }, { emptyCigar with rowid := 1 }, -1⟩ 8 none
  | true => .moveCigar 0 ⟨7, { emptyHumidor with rowid := 1 }, { emptyCigar with rowid := 2 }, -1⟩
      { emptyHumidor with rowid := 2 } 3

theorem countAndMove_apart :
    ∀ i j, i ≠ j → ∀ k ∈ (countAndMove i).footprint, k ∉ (countAndMove j).footprint := by
  have hapart : ∀ k ∈ (countAndMove false).footprint, k ∉ (countAndMove true).footprint := by
    intro k hk hk'
    rcases hk with rfl | rfl <;> simp [countAndMove, Request.footprint] at hk'
  intro i j hij k hk hk'
  cases i with
  | false =>
    cases j with
    | false => exact hij rfl
    | true => exact hapart k hk hk'
  | true =>
    cases j with
    | false => exact hapart k hk' hk
    | true => exact hij rfl

theorem requests_serializable_countAndMove :
    ((Pool.mk (fun i => (countAndMove i).program) twoKinds).run
      (List.replicate 12 [false, true]).flatten).Ended ∧
    SameData ((Pool.mk (fun i => (countAndMove i).program) twoKinds).run
        (List.replicate 12 [false, true]).flatten).state
      (Pool.serial (fun i => (countAndMove i).program) [true, false] twoKinds) := by
  have hended : ((Pool.mk (fun i => (countAndMove i).program) twoKinds).run
      (List.replicate 12 [false, true]).flatten).Ended := by
    intro i
    cases i with
    | false => exact ⟨.ok (), rfl⟩
    | true => exact ⟨.ok (), rfl⟩
  exact ⟨hended, requests_serializable countAndMove countAndMove_apart twoKinds hended (by decide) (by decide)⟩

end Cigars
