import Cigars.Listing.Favorites
import Cigars.Search.FilterCollection

/-! A pager over the cigars whose filter is a list of parameter objects. Every load asks the
objects for their values, so an edit between two loads changes what the rest of the list is cut
out of. -/
namespace Cigars
open Heap Sql Transition SQLDelightBaseRepository

/-- What the local function `queryProvider` of `CigarsTableQueries.paging` holds on to. -/
structure CigarsPager where
  sorting : Option Sorting
  filter : Option (List Ref)
  args : Args

namespace CigarsPager

/-- The filter as a load reads it. -/
def values (pager : CigarsPager) (ps : Parameters) : Option FiltersList := pager.filter.map ps.contents

/-- `QueryPagingSource.load`. -/
def load (pager : CigarsPager) (db : Database) (ps : Parameters) (loadSize offset : ℕ) :
    Except Exn (Page Cigar) := do
  let count ← SQLDelightBaseRepository.count CigarsTableQueries pager.args db
  Sql.load (loadRows CigarsTableQueries pager.sorting (pager.values ps) pager.args db) count loadSize offset

/-- The objects, the pages loaded so far, the last one first, and the key of the next page. -/
structure State where
  objects : Parameters
  pages : List (ℕ × Page Cigar)
  nextKey : Option ℕ

def opened (ps : Parameters) : State := ⟨ps, [], some 0⟩

inductive Op
  | load (loadSize : ℕ)
  | set (p : Ref) (text : String)

/-- A load that fails adds no page. -/
inductive Step (toDouble : String → Option ℚ) (pager : CigarsPager) (db : Database) :
    State → Op → State → Prop
  | load {st : State} {loadSize offset : ℕ} {page : Page Cigar} :
    st.nextKey = some offset → pager.load db st.objects loadSize offset = .ok page →
    Step toDouble pager db st (.load loadSize)
      { st with pages := (loadSize, page) :: st.pages, nextKey := page.nextKey }
  | set {st : State} {p : Ref} {text : String} : p ∈ pager.filter.getD [] →
    Step toDouble pager db st (.set p text)
      { st with objects := st.objects.modify p (FilterParameter.set toDouble text) }

/-- The pages are those of the list for the values `ps`: loaded with the same sizes, they are the
same, and they begin that list. -/
structure OneFilter (pager : CigarsPager) (db : Database) (ps : Parameters) (st : State) : Prop where
  pages : Loaded (pager.load db ps) st.pages st.nextKey
  list : ∀ rows : List Cigar, LocalRepository.cigars.allSync pager.sorting (pager.values ps) db = .ok rows →
    pageRows st.pages <+: rows

/-- The two states of the objects let the same stored cigars through. -/
def SameCigars (pager : CigarsPager) (db : Database) (ps ps' : Parameters) : Prop :=
  ∃ w w' : CigarsWhere, cigarsWhere (pager.values ps) = .ok w ∧ cigarsWhere (pager.values ps') = .ok w' ∧
    ∀ r ∈ db.cigarsTable.rows,
      cigarsCond (pager.values ps) w r.2 = some true ↔ cigarsCond (pager.values ps') w' r.2 = some true

/-- When a page is loaded, the filter lets the same cigars through as it did at the start. -/
def Unchanged (pager : CigarsPager) (db : Database) (ps : Parameters) (st : State) : Op → Prop
  | .load _ => pager.SameCigars db st.objects ps
  | .set _ _ => True

/-! ### What a load reads -/

section Load
variable {pager : CigarsPager} {db : Database} {ps ps' : Parameters}

theorem exists_count (pager : CigarsPager) (db : Database) (ps : Parameters) : ∃ count, pager.load db ps =
    Sql.load (loadRows CigarsTableQueries pager.sorting (pager.values ps) pager.args db) count :=
  ⟨_, rfl⟩

theorem loadRows_of_allSync {rows : List Cigar}
    (h : LocalRepository.cigars.allSync pager.sorting (pager.values ps) db = .ok rows) (limit offset : ℕ) :
    loadRows CigarsTableQueries pager.sorting (pager.values ps) pager.args db limit offset =
      .ok (limitOffset limit offset rows) :=
  LocalRepository.loadRows_eq h limit offset

theorem SameCigars.selected_eq {w w' : CigarsWhere}
    (h : ∀ r ∈ db.cigarsTable.rows,
      cigarsCond (pager.values ps) w r.2 = some true ↔ cigarsCond (pager.values ps') w' r.2 = some true) :
    LocalRepository.selected (cigarsCond (pager.values ps) w) pager.sorting db =
      LocalRepository.selected (cigarsCond (pager.values ps') w') pager.sorting db := by
  have hrows : whereTrue (fun r : ℤ × CigarsTable => cigarsCond (pager.values ps) w r.2) db.cigarsTable.rows =
      whereTrue (fun r => cigarsCond (pager.values ps') w' r.2) db.cigarsTable.rows := by
    apply List.filter_congr
    intro r hr
    rw [decide_eq_decide]
    exact h r hr
  unfold LocalRepository.selected
  rw [hrows]

theorem SameCigars.load_eq (h : pager.SameCigars db ps ps') (limit offset : ℕ) :
    pager.load db ps limit offset = pager.load db ps' limit offset := by
  obtain ⟨w, w', hw, hw', hrows⟩ := h
  have hlist : LocalRepository.cigars.allSync pager.sorting (pager.values ps) db =
      .ok (LocalRepository.selected (cigarsCond (pager.values ps') w') pager.sorting db) := by
    rw [LocalRepository.allSync_cigars, hw, ← selected_eq hrows]
    rfl
  have hlist' : LocalRepository.cigars.allSync pager.sorting (pager.values ps') db =
      .ok (LocalRepository.selected (cigarsCond (pager.values ps') w') pager.sorting db) := by
    rw [LocalRepository.allSync_cigars, hw']
    rfl
  have hload : loadRows CigarsTableQueries pager.sorting (pager.values ps) pager.args db =
      loadRows CigarsTableQueries pager.sorting (pager.values ps') pager.args db := by
    funext l o
    rw [loadRows_of_allSync hlist, loadRows_of_allSync hlist']
  unfold load
  rw [hload]

/-- Pages loaded with fixed values begin the list for these values. -/
theorem oneFilter_of_loaded {st : State} (h : Loaded (pager.load db ps) st.pages st.nextKey) :
    OneFilter pager db ps st := by
  refine ⟨h, fun rows hrows => ?_⟩
  obtain ⟨count, hload⟩ := exists_count pager db ps
  rw [hload] at h
  exact (h.pageRows_begin (loadRows_of_allSync hrows)).1

end Load

/-! ### Runs -/

theorem Step.loaded {toDouble : String → Option ℚ} {pager : CigarsPager} {db : Database} {ps : Parameters}
    {st st' : State} {op : Op} (h : Loaded (pager.load db ps) st.pages st.nextKey)
    (hsame : pager.Unchanged db ps st op) (hstep : Step toDouble pager db st op st') :
    Loaded (pager.load db ps) st'.pages st'.nextKey := by
  cases hstep with
  | load hkey hload =>
    rw [hkey] at h
    have hload' := (SameCigars.load_eq hsame _ _).symm.trans hload
    exact h.next hload'
  | set _ => exact h

/-- While no page is loaded under values that select other cigars, the pages are those of the list
for the values at the start. -/
theorem oneFilter_of_unchanged (toDouble : String → Option ℚ) (pager : CigarsPager) (db : Database)
    (ps : Parameters) {trace : List (State × Op)} {st : State}
    (run : Run (Step toDouble pager db) (opened ps) trace st)
    (hsame : ∀ t ∈ trace, pager.Unchanged db ps t.1 t.2) : OneFilter pager db ps st := by
  have hloaded : Loaded (pager.load db ps) st.pages st.nextKey :=
    run.kept (P := fun st => Loaded (pager.load db ps) st.pages st.nextKey) Loaded.start
      (fun _ _ _ h hcond hstep => hstep.loaded h hcond) hsame
  exact oneFilter_of_loaded hloaded

def partagas : Cigar := { LocalRepository.favorite "Partagas" with favorites := false }

def sixteenCigars : Database :=
  (List.range 16).foldl (fun db _ => db.addCigar partagas) (Database.empty 0 0 0 0)

/-- The filter form of the list, as it is when `paging` is called. -/
def emptyForm : FilterCollection.State :=
  FilterCollection.opened .cigarFilterParameters FilterCollection.noObjects

def byName : CigarsPager :=
  ⟨some ⟨"name", true⟩, some emptyForm.form.selectedParams, LocalRepository.cigars.pagingArgs⟩

/-- The objects after a text was typed into the name field. -/
def nameTyped (text : String) : Parameters :=
  emptyForm.objects.modify 0 (FilterParameter.set (fun _ => none) text)

def fifteenPage : Page Cigar := ⟨(List.range 15).map fun i => { partagas with rowid := i + 1 }, some 15⟩

theorem load_fifteenPage : byName.load sixteenCigars emptyForm.objects 15 0 = .ok fifteenPage := by
  rfl

/-- The first load is of three pages, the text is typed, and one more page is loaded. -/
theorem run_nameTyped {text : String} {page : Page Cigar}
    (hload : byName.load sixteenCigars (nameTyped text) 5 15 = .ok page) :
    Run (Step (fun _ => none) byName sixteenCigars) (opened emptyForm.objects)
      [(⟨nameTyped text, [(15, fifteenPage)], some 15⟩, .load 5),
        (⟨emptyForm.objects, [(15, fifteenPage)], some 15⟩, .set 0 text),
        (opened emptyForm.objects, .load 15)]
      ⟨nameTyped text, [(5, page), (15, fifteenPage)], page.nextKey⟩ := by
  have hset : (0 : Ref) ∈ byName.filter.getD [] := by decide
  exact ((Run.start.next (.load rfl load_fifteenPage)).next (.set hset)).next (.load rfl hload)

/-- A text that all the cigars match changes nothing. -/
theorem oneFilter_matchingText : ∃ st,
    pageRows st.pages = (List.range 16).map (fun i => { partagas with rowid := (i : ℤ) + 1 }) ∧
      OneFilter byName sixteenCigars emptyForm.objects st := by
  have hload : byName.load sixteenCigars (nameTyped "Part") 5 15 =
      .ok ⟨[{ partagas with rowid := 16 }], none⟩ := by rfl
  have hstart : byName.SameCigars sixteenCigars emptyForm.objects emptyForm.objects :=
    ⟨_, _, rfl, rfl, fun _ _ => Iff.rfl⟩
  have htyped : byName.SameCigars sixteenCigars (nameTyped "Part") emptyForm.objects :=
    ⟨_, _, rfl, rfl, by decide⟩
  refine ⟨_, ?_, oneFilter_of_unchanged (fun _ => none) byName sixteenCigars emptyForm.objects
    (run_nameTyped hload) ?_⟩
  · rfl
  · simp only [List.forall_mem_cons]
    exact ⟨htyped, trivial, hstart, fun t ht => absurd ht List.not_mem_nil⟩

/-- Two letters typed after the first load: they are too few for the list to be loaded anew, but the
next page is empty, and the sixteenth cigar is never shown. -/
theorem last_cigar_skipped : ∃ trace st,
    Run (Step (fun _ => none) byName sixteenCigars) (opened emptyForm.objects) trace st ∧
      ¬ OneFilter byName sixteenCigars emptyForm.objects st := by
  have hload : byName.load sixteenCigars (nameTyped "Co") 5 15 = .ok ⟨[], none⟩ := by rfl
  refine ⟨_, _, run_nameTyped hload, fun h => ?_⟩
  obtain ⟨_, offset, hfirst, hsecond⟩ := h.pages.of_cons
  have hoffset : some offset = some 15 := hfirst.of_cons.1
  rw [Option.some.inj hoffset] at hsecond
  have hrows := congrArg (Except.map fun page : Page Cigar => page.rows.length) hsecond
  exact absurd (Except.ok.inj hrows) (show ¬ 1 = 0 by decide)

end CigarsPager
end Cigars
