import Cigars.Coroutine.Observing
import Cigars.Mvvm.SaveEdit
import Cigars.Storage.RoundTrip
import Cigars.Transition.Run

/-! The details screen of a cigar from its opening on: its observers, the user who edits, saves and cancels,
and everybody who writes the database besides. What an observer hands on while the user edits is dropped. The
coroutine that a save starts runs before the user's next action. -/
namespace Cigars
open Coroutine Sql SQLDelightBaseRepository

namespace CigarsDetailsScreenViewModel

/-- What the collector of `observe` copies from the cigar. The price is not among it. -/
def shown (it : Cigar) (vm : CigarsDetailsScreenViewModel) : CigarsDetailsScreenViewModel :=
  { vm with
    name := it.name
    brand := it.brand
    country := it.country
    shape := it.cigar
    length := it.length
    gauge := it.gauge
    wrapper := it.wrapper
    binder := it.binder
    filler := it.filler
    strength := it.strength
    rating := it.rating
    myRating := it.myrating
    favorites := it.favorites
    notes := it.notes
    link := it.link
    count := it.count }

def verifyFields (vm : CigarsDetailsScreenViewModel) : Bool :=
  isNotBlank vm.name && (vm.brand.map isNotBlank == some true) && (vm.country.map isNotBlank == some true) &&
    isNotBlank vm.length && vm.gauge != 0 && isNotBlank vm.wrapper && isNotBlank vm.binder && isNotBlank vm.filler

/-- The fields on the screen are those of the cigar. -/
def Shows (it : Cigar) (vm : CigarsDetailsScreenViewModel) : Prop := vm.shown it = vm

theorem shows_shown (it : Cigar) (vm : CigarsDetailsScreenViewModel) : (vm.shown it).Shows it := rfl

/-- What is saved is what is on the screen. -/
theorem shows_updated (id : ℤ) (price : Option Double) (vm : CigarsDetailsScreenViewModel) :
    vm.Shows (cigarFactory id { vm.updated with count := vm.count, price := price }.columns) := by
  rw [cigarFactory_columns]
  rfl

end CigarsDetailsScreenViewModel

/-- The cigar that `add` emits is stored under its rowid. -/
theorem CigarsRepository.find?_of_emits {now : ℤ} {cigar it : Cigar} {humidor : Humidor} {db db' : Database}
    {back : Database → Database} (h : (CigarsRepository.add now cigar humidor).Emits db it db' back) :
    ∃ row, db'.cigarsTable.find? it.rowid = some row := by
  have hgo := CigarsRepository.goesThrough_of_completes now cigar h.completes
  obtain ⟨rfl, rfl⟩ := h.unique (CigarsRepository.add_emits now cigar hgo)
  exact ⟨_, AutoTable.find?_insert_nextRowid _ _⟩

/-- The view model with its database. `observers` are the jobs of `cigarsRepository.observe`, and `left` is set
once the screen has been asked to close. -/
structure EditSession where
  db : Database
  vm : CigarsDetailsScreenViewModel
  editing : Bool
  observing : Bool
  observers : List (Reader Cigar)
  left : Bool

namespace EditSession

def rowid (s : EditSession) : ℤ := s.vm.entity.rowid

def opened (cigar : Cigar) (humidor : Option Humidor) (db : Database) : EditSession where
  db := db
  vm := .opened cigar humidor
  editing := decide (cigar.rowid < 0)
  observing := false
  observers := []
  left := false

def observe (s : EditSession) : EditSession := { s with observers := Reader.start :: s.observers }

def observeObject (s : EditSession) : EditSession :=
  if 0 ≤ s.rowid ∧ s.observing = false then { s.observe with observing := true } else s

def onBackPress (s : EditSession) : EditSession := { s with left := true }

def onCancelEdit (s : EditSession) : EditSession :=
  { (if 0 ≤ s.rowid ∧ s.observing = false then s.observeObject else s.onBackPress) with editing := false }

/-- The collector of `observe`. -/
def onObserved (it : Cigar) (s : EditSession) : EditSession :=
  if s.editing = true then s else { s with vm := s.vm.shown it }

/-- A statement on `CigarsTable` notifies every observer. -/
def written (db' : Database) (s : EditSession) : EditSession :=
  { s with db := db', observers := s.observers.map Reader.notify }

/-- The end of a save of a stored cigar. -/
def saved (db' : Database) (s : EditSession) : EditSession := { s.written db' with editing := false }

/-- The end of a save of a new one, which is stored as `it`. -/
def addedAs (it : Cigar) (db' : Database) (s : EditSession) : EditSession :=
  { (s.written db').observe with vm := { s.vm with entity := it }, editing := false }

inductive Op
  | observeObject
  | edit
  | type (vm : CigarsDetailsScreenViewModel)
  | onCancelEdit
  | onSaveEdit (now : ℤ)
  | write
  | observer

/-- The cigar is stored. -/
def Stored (s : EditSession) (it : Cigar) : Prop := ∃ row, s.db.cigarsTable.find? s.rowid = some row ∧
  it = cigarFactory s.rowid row

inductive Step : EditSession → Op → EditSession → Prop
  | observeObject {s : EditSession} : Step s .observeObject s.observeObject
  | edit {s : EditSession} : s.editing = false → Step s .edit { s with editing := true }
  -- The text fields are enabled while editing.
  | type {s : EditSession} {vm : CigarsDetailsScreenViewModel} : s.editing = true → vm.entity = s.vm.entity →
    vm.humidor = s.vm.humidor → Step s (.type vm) { s with vm }
  | onCancelEdit {s : EditSession} : s.editing = true → Step s .onCancelEdit s.onCancelEdit
  | saveStored {s : EditSession} {now : ℤ} {db' : Database} : s.editing = true → s.vm.verifyFields = true →
    0 ≤ s.rowid → (CigarsRepository.update s.vm.updated).Completes s.db db' →
    Step s (.onSaveEdit now) (s.saved db')
  -- `addCigar` calls back from inside the flow with the cigar as it is stored; SQLite counts rowids up from 1.
  | saveNew {s : EditSession} {now : ℤ} {humidor : Humidor} {it : Cigar} {db' : Database} {back : Database → Database} :
    s.editing = true → s.vm.verifyFields = true → s.rowid < 0 → s.vm.humidor = some humidor → 0 ≤ it.rowid →
    (CigarsRepository.add now { s.vm.updated with count := s.vm.count, price := s.vm.price } humidor).Emits s.db it
      db' back →
    Step s (.onSaveEdit now) (s.addedAs it db')
  -- `favorite`, the dialogs and the other screens; nobody removes the cigar.
  | write {s : EditSession} {db' : Database} :
    (s.db.cigarsTable.contains s.rowid = true → db'.cigarsTable.contains s.rowid = true) →
    Step s .write (s.written db')
  | writeElsewhere {s : EditSession} {db' : Database} : db'.cigarsTable = s.db.cigarsTable →
    Step s .write { s with db := db' }
  | observer {s : EditSession} {as bs : List (Reader Cigar)} {r r' : Reader Cigar} {it : Cigar} :
    s.observers = as ++ r :: bs → s.Stored it → Reader.Step it r none r' →
    Step s .observer { s with observers := as ++ r' :: bs }
  | delivered {s : EditSession} {as bs : List (Reader Cigar)} {r r' : Reader Cigar} {it value : Cigar} :
    s.observers = as ++ r :: bs → s.Stored it → Reader.Step it r (some value) r' →
    Step s .observer (onObserved value { s with observers := as ++ r' :: bs })

/-- No observer has anything to do. -/
def AtRest (s : EditSession) : Prop := ∀ r ∈ s.observers, r.Idle

/-- What holds of every session that is stored. -/
structure Coherent (s : EditSession) (it : Cigar) : Prop where
  stored : s.Stored it
  current : ∀ r ∈ s.observers, r.Current it
  follows : s.editing = false → s.left = false → s.observers ≠ [] → s.vm.Shows it ∨ OnItsWay it s.observers

/-- Nothing observes a cigar before it is stored. -/
structure Sound (s : EditSession) : Prop where
  new : s.rowid < 0 → s.observers = [] ∧ s.observing = false
  coherent : 0 ≤ s.rowid → ∃ it, s.Coherent it
  observers : s.observers.length ≤ 1 + s.observing.toNat

section Steps
variable {s s' : EditSession} {it : Cigar}

theorem Stored.unique {it' : Cigar} (h : s.Stored it) (h' : s.Stored it') : it' = it := by
  obtain ⟨row, hrow, rfl⟩ := h
  obtain ⟨row', hrow', rfl⟩ := h'
  rw [Option.some.inj (hrow.symm.trans hrow')]

theorem stored_of_contains (h : s.db.cigarsTable.contains s.rowid = true) : ∃ it, s.Stored it := by
  obtain ⟨row, hrow⟩ := (Table.contains_iff _ _).mp h
  exact ⟨_, row, hrow, rfl⟩

theorem Stored.contains (h : s.Stored it) : s.db.cigarsTable.contains s.rowid = true := by
  obtain ⟨row, hrow, -⟩ := h
  exact (Table.contains_iff _ _).mpr ⟨row, hrow⟩

/-- One more observer has its first notification. -/
theorem Coherent.observe (h : s.Coherent it) : s.observe.Coherent it where
  stored := h.stored
  current := by
    intro r hr
    rcases List.mem_cons.mp hr with rfl | hr
    · exact Reader.current_start
    · exact h.current r hr
  follows _ _ _ := Or.inr onItsWay_start

/-- A write of the table notifies every observer, so that the cigar is on its way. -/
theorem onItsWay_written (db' : Database) (it : Cigar) (h : (s.written db').observers ≠ []) :
    OnItsWay it (s.written db').observers := by
  refine onItsWay_notify fun hnil => h ?_
  rw [written, hnil]
  rfl

theorem coherent_written {db' : Database} (h : (s.written db').Stored it) : (s.written db').Coherent it where
  stored := h
  current := current_map_notify
  follows _ _ hobserved := Or.inr (onItsWay_written db' it hobserved)

theorem Sound.coherent_of_observers (h : s.Sound) (hobservers : s.observers ≠ []) : ∃ it, s.Coherent it := by
  apply h.coherent
  by_contra hneg
  exact hobservers (h.new (not_le.mp hneg)).1

theorem Sound.of_rowid (hnew : s.rowid < 0 → s'.observers = [] ∧ s'.observing = false) (hrowid : s'.rowid = s.rowid)
    (hcoherent : 0 ≤ s.rowid → ∃ it, s'.Coherent it) (hobservers : s'.observers.length ≤ 1 + s'.observing.toNat) :
    s'.Sound where
  new h := hnew (by omega)
  coherent h := hcoherent (by omega)
  observers := hobservers

theorem Sound.observeObject (h : s.Sound) : s.observeObject.Sound := by
  unfold EditSession.observeObject
  split_ifs with hcond
  · obtain ⟨it, hit⟩ := h.coherent hcond.1
    have hlength := h.observers
    rw [hcond.2] at hlength
    exact {
      new := fun hneg => absurd hneg (not_lt.mpr hcond.1)
      coherent := fun _ => ⟨it, hit.observe.stored, hit.observe.current, hit.observe.follows⟩
      observers := Nat.succ_le_succ hlength }
  · exact h

theorem Sound.edit (h : s.Sound) : ({ s with editing := true } : EditSession).Sound where
  new := h.new
  coherent h₀ := by
    obtain ⟨it, hit⟩ := h.coherent h₀
    exact ⟨it, hit.stored, hit.current, fun hediting => nomatch hediting⟩
  observers := h.observers

theorem Sound.type {vm : CigarsDetailsScreenViewModel} (h : s.Sound) (hediting : s.editing = true)
    (hentity : vm.entity = s.vm.entity) : ({ s with vm } : EditSession).Sound := by
  have hrowid : ({ s with vm } : EditSession).rowid = s.rowid := congrArg Cigar.rowid hentity
  refine Sound.of_rowid h.new hrowid (fun h₀ => ?_) h.observers
  obtain ⟨it, ⟨row, hrow, rfl⟩, hcurrent, -⟩ := h.coherent h₀
  refine ⟨_, ⟨row, ?_, ?_⟩, hcurrent, fun hnot => ?_⟩
  · rw [hrowid]
    exact hrow
  · rw [hrowid]
  · rw [hediting] at hnot
    cases hnot

/-- A cancelled edit is left on the screen, which is closed or observed anew. -/
theorem Sound.onCancelEdit (h : s.Sound) : s.onCancelEdit.Sound := by
  unfold EditSession.onCancelEdit EditSession.observeObject
  split_ifs with hcond
  · obtain ⟨it, hit⟩ := h.coherent hcond.1
    have hlength := h.observers
    rw [hcond.2] at hlength
    exact {
      new := fun hneg => absurd hneg (not_lt.mpr hcond.1)
      coherent := fun _ => ⟨it, hit.observe.stored, hit.observe.current, fun _ _ _ => Or.inr onItsWay_start⟩
      observers := Nat.succ_le_succ hlength }
  · refine ⟨h.new, fun h₀ => ?_, h.observers⟩
    obtain ⟨it, hit⟩ := h.coherent h₀
    exact ⟨it, hit.stored, hit.current, fun _ hleft => nomatch hleft⟩

theorem Sound.written {db' : Database} (h : s.Sound)
    (hstored : s.db.cigarsTable.contains s.rowid = true → db'.cigarsTable.contains s.rowid = true) :
    (s.written db').Sound where
  new hneg := by
    obtain ⟨hnil, hobserving⟩ := h.new hneg
    refine ⟨?_, hobserving⟩
    rw [EditSession.written, hnil]
    rfl
  coherent h₀ := by
    obtain ⟨it, hit⟩ := h.coherent h₀
    have hcontains : (s.written db').db.cigarsTable.contains (s.written db').rowid = true := hstored hit.stored.contains
    obtain ⟨it', hit'⟩ := stored_of_contains hcontains
    exact ⟨it', coherent_written hit'⟩
  observers := by
    rw [EditSession.written, List.length_map]
    exact h.observers

theorem Sound.saved {db' : Database} (h : s.Sound) (h₀ : 0 ≤ s.rowid)
    (hupdate : (CigarsRepository.update s.vm.updated).Completes s.db db') : (s.saved db').Sound := by
  obtain ⟨hcontains, rfl⟩ := update_of_completes cigarsTableQueries hupdate
  have hkept : (cigarsTableQueries.update s.vm.updated s.db).cigarsTable.contains s.rowid = true :=
    (Table.contains_update _ _ _ _).trans (Except.ok.inj hcontains)
  have hwritten := h.written fun _ => hkept
  obtain ⟨it, hit⟩ := hwritten.coherent h₀
  refine ⟨hwritten.new, fun _ => ⟨it, hit.stored, hit.current, fun _ _ hobserved => ?_⟩, hwritten.observers⟩
  exact Or.inr (onItsWay_written (cigarsTableQueries.update s.vm.updated s.db) it hobserved)

/-- A new cigar gets its first observer with the rowid it is stored under. -/
theorem Sound.addedAs {db' : Database} (h : s.Sound) (hneg : s.rowid < 0) (h₀ : 0 ≤ it.rowid) {row : CigarsTable}
    (hrow : db'.cigarsTable.find? it.rowid = some row) : (s.addedAs it db').Sound := by
  obtain ⟨hnil, hobserving⟩ := h.new hneg
  have hobservers : (s.addedAs it db').observers = [Reader.start] := by
    simp only [EditSession.addedAs, EditSession.observe, EditSession.written, hnil, List.map_nil]
  refine ⟨fun hneg' => absurd hneg' (not_lt.mpr h₀), fun _ => ⟨cigarFactory it.rowid row, ?_⟩, ?_⟩
  · refine ⟨⟨row, hrow, rfl⟩, ?_, fun _ _ _ => Or.inr onItsWay_start⟩
    intro r hr
    rw [hobservers, List.mem_singleton] at hr
    rw [hr]
    exact Reader.current_start
  · rw [hobservers]
    exact Nat.le_add_right 1 _

theorem Sound.observer {as bs : List (Reader Cigar)} {r r' : Reader Cigar} {o : Option Cigar} (h : s.Sound)
    (hobservers : s.observers = as ++ r :: bs) (hstored : s.Stored it) (hstep : Reader.Step it r o r')
    {vm : CigarsDetailsScreenViewModel} (hentity : vm.entity = s.vm.entity)
    (hfollows : s.editing = false → s.left = false → vm.Shows it ∨ OnItsWay it (as ++ r' :: bs)) :
    ({ s with vm, observers := as ++ r' :: bs } : EditSession).Sound := by
  have hrowid : ({ s with vm, observers := as ++ r' :: bs } : EditSession).rowid = s.rowid :=
    congrArg Cigar.rowid hentity
  have hlength := h.observers
  rw [hobservers, List.length_append, List.length_cons] at hlength
  refine Sound.of_rowid (s := s) (fun hneg => ?_) hrowid (fun h₀ => ?_) ?_
  · have hnil := (h.new hneg).1
    rw [hobservers] at hnil
    exact absurd hnil (by simp)
  · obtain ⟨it₀, hit⟩ := h.coherent h₀
    obtain rfl := hit.stored.unique hstored
    obtain ⟨row, hrow, hfactory⟩ := hit.stored
    have hcurrent := hit.current
    rw [hobservers] at hcurrent
    refine ⟨it, ⟨row, ?_, ?_⟩, current_step hcurrent hstep, fun hediting hleft _ => hfollows hediting hleft⟩
    · rw [hrowid]
      exact hrow
    · rw [hrowid]
      exact hfactory
  · rw [List.length_append, List.length_cons]
    exact hlength

theorem Sound.step {op : Op} (h : s.Sound) (hstep : Step s op s') : s'.Sound := by
  cases hstep with
  | observeObject => exact h.observeObject
  | edit _ => exact h.edit
  | type hediting hentity _ => exact h.type hediting hentity
  | onCancelEdit _ => exact h.onCancelEdit
  | saveStored _ _ h₀ hupdate => exact h.saved h₀ hupdate
  | saveNew _ _ hneg _ h₀ hadd =>
    obtain ⟨row, hrow⟩ := CigarsRepository.find?_of_emits hadd
    exact h.addedAs hneg h₀ hrow
  | write hstored => exact h.written hstored
  | writeElsewhere hsame =>
    refine ⟨h.new, fun h₀ => ?_, h.observers⟩
    obtain ⟨it, ⟨row, hrow, hfactory⟩, hcurrent, hfollows⟩ := h.coherent h₀
    refine ⟨it, ⟨row, ?_, hfactory⟩, hcurrent, hfollows⟩
    rw [hsame]
    exact hrow
  | @observer as bs r r' it hobservers hstored hreader =>
    refine h.observer hobservers hstored hreader rfl fun hediting hleft => ?_
    obtain ⟨it₀, hit⟩ := h.coherent_of_observers (by rw [hobservers]; simp)
    obtain rfl := hit.stored.unique hstored
    have hfollows := hit.follows hediting hleft
    rw [hobservers] at hfollows
    rcases hfollows (by simp) with hshows | hway
    · exact Or.inl hshows
    · exact Or.inr (hway.step hreader)
  | @delivered as bs r r' it value hobservers hstored hreader =>
    unfold onObserved
    by_cases hediting : s.editing = true
    · rw [if_pos hediting]
      refine h.observer hobservers hstored hreader rfl fun hnot => ?_
      rw [hediting] at hnot
      cases hnot
    · rw [if_neg hediting]
      refine h.observer hobservers hstored hreader rfl fun _ _ => ?_
      obtain ⟨it₀, hit⟩ := h.coherent_of_observers (by rw [hobservers]; simp)
      obtain rfl := hit.stored.unique hstored
      have hcurrent := hit.current r (by rw [hobservers]; simp)
      rcases hcurrent.deliver hreader with rfl | hpending
      · exact Or.inl (CigarsDetailsScreenViewModel.shows_shown _ _)
      · exact Or.inr (onItsWay_of_mem hpending)

/-- What happens while the user edits and does not change `p`. -/
def Op.Within {β : Type} (p : CigarsDetailsScreenViewModel → β) (s : EditSession) : Op → Prop
  | .type vm => p vm = p s.vm
  | .edit | .onCancelEdit | .onSaveEdit _ => False
  | .observeObject | .write | .observer => True

theorem step_of_within {β : Type} {p : CigarsDetailsScreenViewModel → β} {op : Op} (hstep : Step s op s')
    (hwithin : op.Within p s) (hediting : s.editing = true) :
    s'.editing = true ∧ p s'.vm = p s.vm ∧ s'.rowid = s.rowid := by
  cases hstep with
  | observeObject =>
    unfold EditSession.observeObject
    split_ifs
    · exact ⟨hediting, rfl, rfl⟩
    · exact ⟨hediting, rfl, rfl⟩
  | edit _ => exact hwithin.elim
  | type _ hentity _ => exact ⟨hediting, hwithin, congrArg Cigar.rowid hentity⟩
  | onCancelEdit _ => exact hwithin.elim
  | saveStored _ _ _ _ => exact hwithin.elim
  | saveNew _ _ _ _ _ _ => exact hwithin.elim
  | write _ => exact ⟨hediting, rfl, rfl⟩
  | writeElsewhere _ => exact ⟨hediting, rfl, rfl⟩
  | observer _ _ _ => exact ⟨hediting, rfl, rfl⟩
  | delivered _ _ _ =>
    unfold onObserved
    rw [if_pos hediting]
    exact ⟨hediting, rfl, rfl⟩

/-- A save of a stored cigar leaves in the table what is on the screen. -/
theorem shows_of_save {now : ℤ} (h₀ : 0 ≤ s.rowid) (hstep : Step s (.onSaveEdit now) s') :
    s'.vm = s.vm ∧ s'.rowid = s.rowid ∧ ∃ it, s'.Stored it ∧ s'.vm.Shows it := by
  cases hstep with
  | saveStored _ _ _ hupdate =>
    obtain ⟨hcontains, rfl⟩ := update_of_completes cigarsTableQueries hupdate
    obtain ⟨row, hrow⟩ := (Table.contains_iff _ _).mp (Except.ok.inj hcontains)
    have hfind : (cigarsTableQueries.update s.vm.updated s.db).cigarsTable.find? s.rowid = some s.vm.updated.columns :=
      Table.find?_update_self _ hrow
    exact ⟨rfl, rfl, _, ⟨_, hfind, rfl⟩, CigarsDetailsScreenViewModel.shows_updated s.rowid s.vm.entity.price s.vm⟩
  | saveNew _ _ hneg _ _ _ => exact absurd h₀ (not_le.mpr hneg)

/-- A single observer that has been told of a write hands on the stored cigar. -/
theorem exists_run_observer (hobservers : s.observers = [⟨true, .idle⟩]) (hstored : s.Stored it) :
    ∃ trace, Transition.Run Step s trace (onObserved it { s with observers := [⟨false, .idle⟩] }) ∧
      ∀ t ∈ trace, t.2 = .observer := by
  have htake : Step s .observer { s with observers := [⟨false, .reading⟩] } :=
    @Step.observer s [] [] _ _ it hobservers hstored .take
  have hread : Step { s with observers := [⟨false, .reading⟩] } .observer
      { s with observers := [⟨false, .holding it⟩] } :=
    @Step.observer { s with observers := [⟨false, .reading⟩] } [] [] _ _ it rfl hstored .read
  have hdeliver : Step { s with observers := [⟨false, .holding it⟩] } .observer
      (onObserved it { s with observers := [⟨false, .idle⟩] }) :=
    @Step.delivered { s with observers := [⟨false, .holding it⟩] } [] [] _ _ it it rfl hstored .deliver
  exact ⟨_, ((Transition.Run.start.next htake).next hread).next hdeliver, by simp⟩

end Steps

/-- A cigar all of whose fields are filled in. -/
def robusto : Cigar :=
  { emptyCigar with rowid := 1, name := "Robusto", brand := some "Cohiba", country := some "Cuba", length := "4 7/8",
                    gauge := 50, wrapper := "Cuba", binder := "Cuba", filler := "Cuba" }

def robustoStored : Database := (Database.empty 0 0 0 0).addCigar robusto

/-- Its screen with one observer. -/
def watched (r : Reader Cigar) : EditSession :=
  { opened robusto none robustoStored with observing := true, observers := [r] }

/-- The observer has handed on the row. -/
def caughtUp : EditSession := watched ⟨false, .idle⟩

theorem caughtUp_run : ∃ trace, Transition.Run Step (opened robusto none robustoStored) trace caughtUp := by
  have hstored : (watched .start).Stored (cigarFactory 1 robusto.columns) := ⟨robusto.columns, rfl, rfl⟩
  have hobserve : Step (opened robusto none robustoStored) .observeObject (watched .start) := .observeObject
  obtain ⟨trace, hobserver, -⟩ := exists_run_observer rfl hstored
  exact ⟨_, (Transition.Run.start.next hobserve).trans hobserver⟩

/-- Somebody marks the cigar as a favourite, while it is edited or not. -/
def marked (editing : Bool) : EditSession :=
  ({ caughtUp with editing } : EditSession).written (CigarsDatabase.setFavorite true 1 robustoStored)

section Runs
variable {cigar : Cigar} {humidor : Option Humidor} {db : Database} {trace : List (EditSession × Op)} {s : EditSession}
  (hcigar : 0 ≤ cigar.rowid → db.cigarsTable.contains cigar.rowid = true)
  (run : Transition.Run Step (opened cigar humidor db) trace s)
include hcigar run

theorem sound_of_run : s.Sound := by
  refine run.invariant ?_ fun _ _ _ h hstep => h.step hstep
  refine ⟨fun _ => ⟨rfl, rfl⟩, fun h₀ => ?_, Nat.zero_le _⟩
  obtain ⟨row, hrow⟩ := (Table.contains_iff _ _).mp (hcigar h₀)
  refine ⟨_, ⟨row, hrow, rfl⟩, fun r hr => ?_, fun _ _ hobserved => absurd rfl hobserved⟩
  cases hr

theorem shows_of_atRest (hleft : s.left = false) (hediting : s.editing = false) (hobserved : s.observers ≠ [])
    (hrest : s.AtRest) : ∃ it, s.Stored it ∧ s.vm.Shows it := by
  obtain ⟨it, hit⟩ := (sound_of_run hcigar run).coherent_of_observers hobserved
  rcases hit.follows hediting hleft hobserved with hshows | hway
  · exact ⟨it, hit.stored, hshows⟩
  · exact absurd hway (not_onItsWay_of_idle hrest)

/-- However the user's actions, the observers and the other writers interleave: a screen that is observed, not
being edited and not closed shows the stored cigar as soon as its observers have nothing left to do, and it
never has more than two of them. -/
theorem shows_stored_at_rest : s.observers.length ≤ 2 ∧
    (s.left = false → s.editing = false → s.observers ≠ [] → s.AtRest → ∃ it, s.Stored it ∧ s.vm.Shows it) := by
  have hlength := (sound_of_run hcigar run).observers
  exact ⟨hlength.trans (Nat.add_le_add_left (Bool.toNat_le _) 1), shows_of_atRest hcigar run⟩

omit hcigar run in
/-- The mark that somebody has set arrives on the screen. -/
theorem shows_stored_at_rest_marked : ∃ trace s, Transition.Run Step (opened robusto none robustoStored) trace s ∧
    caughtUp.vm.favorites = false ∧ s.vm.favorites = true ∧ s.observers.length ≤ 2 ∧
    ∃ it, s.Stored it ∧ s.vm.Shows it := by
  obtain ⟨trace, run⟩ := caughtUp_run
  have hmark : Step caughtUp .write (marked false) := .write fun _ => by decide
  have hstored : (marked false).Stored (cigarFactory 1 { robusto.columns with favorites := true }) :=
    ⟨{ robusto.columns with favorites := true }, rfl, rfl⟩
  obtain ⟨trace', hobserver, -⟩ := exists_run_observer rfl hstored
  have run := (run.next hmark).trans hobserver
  obtain ⟨hlength, hshows⟩ := shows_stored_at_rest (fun _ => by decide) run
  refine ⟨_, _, run, rfl, rfl, hlength, hshows rfl rfl (List.cons_ne_nil _ _) fun r hr => ?_⟩
  exact List.mem_singleton.mp hr

/-- A save gives a field that the user did not touch the value it had in the table when the editing began, if
the screen was at rest then: what others have written there meanwhile is undone. -/
theorem save_restores_untouched {β : Type} (p : CigarsDetailsScreenViewModel → β) (hleft : s.left = false)
    (hediting : s.editing = false) (hobserved : s.observers ≠ []) (hrest : s.AtRest) {s₁ s₂ : EditSession}
    {steps : List (EditSession × Op)} {now : ℤ} (session : Transition.Run Step { s with editing := true } steps s₁)
    (huntouched : ∀ t ∈ steps, t.2.Within p t.1) (hsave : Step s₁ (.onSaveEdit now) s₂) :
    s₂.rowid = s.rowid ∧ ∃ it it', s.Stored it ∧ s₂.Stored it' ∧ p (s₂.vm.shown it') = p (s.vm.shown it) := by
  obtain ⟨it, hstored, hshows⟩ := shows_of_atRest hcigar run hleft hediting hobserved hrest
  have h₀ : 0 ≤ s.rowid := by
    by_contra hneg
    exact hobserved ((sound_of_run hcigar run).new (not_le.mp hneg)).1
  have hkept : s₁.editing = true ∧ p s₁.vm = p s.vm ∧ s₁.rowid = s.rowid := by
    refine session.kept (P := fun x => x.editing = true ∧ p x.vm = p s.vm ∧ x.rowid = s.rowid)
      (Q := fun x op => op.Within p x) ⟨rfl, rfl, rfl⟩ ?_ huntouched
    intro x op x' hx hwithin hstep
    obtain ⟨hediting', hp, hrowid⟩ := step_of_within hstep hwithin hx.1
    exact ⟨hediting', hp.trans hx.2.1, hrowid.trans hx.2.2⟩
  obtain ⟨hvm, hrowid, it', hstored', hshows'⟩ := shows_of_save (by omega) hsave
  refine ⟨hrowid.trans hkept.2.2, it, it', hstored, hstored', ?_⟩
  rw [hshows', hshows, hvm]
  exact hkept.2.1

omit hcigar run in
/-- The save takes the mark off again. -/
theorem save_restores_untouched_favorite : ∃ s₂, Step (marked true) (.onSaveEdit 0) s₂ ∧
    ∃ it it', caughtUp.Stored it ∧ s₂.Stored it' ∧ (s₂.vm.shown it').favorites = (caughtUp.vm.shown it).favorites := by
  obtain ⟨trace, run⟩ := caughtUp_run
  have hmark : Step { caughtUp with editing := true } .write (marked true) := .write fun _ => by decide
  have hupdate := update_emits cigarsTableQueries (marked true).vm.updated (marked true).db rfl
  have hsave : Step (marked true) (.onSaveEdit 0) ((marked true).saved _) :=
    .saveStored rfl (by decide) (by decide) hupdate.completes
  have hrestores := save_restores_untouched (fun _ => by decide) run (fun vm => vm.favorites) rfl rfl (by decide)
    (fun r hr => List.mem_singleton.mp hr) (Transition.Run.start.next hmark) (fun t ht => ?_) hsave
  · exact ⟨_, hsave, hrestores.2⟩
  · cases List.mem_singleton.mp ht
    trivial

end Runs
end EditSession
end Cigars
