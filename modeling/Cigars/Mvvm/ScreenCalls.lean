import Cigars.Mvvm.CountedList
import Cigars.Mvvm.DetailsScreen

/-! Calls of the view model on a settled screen with nobody else about. Whatever the screen offers comes to its end
and leaves the screen settled, and all that is seen of it there, the database, the favourite mark and the list, is
what one step of `CigarsDetailsScreenViewModel` makes of it. -/
namespace Cigars
open Coroutine Sql Transition

namespace DetailsScreen

/-! ### Calls -/

/-- What the calls see of the screen. -/
def view (s : DetailsScreen) : CigarsDetailsScreenViewModel.State where
  db := s.first.db
  favorites := s.first.vm.favorites
  humidors := s.second.humidors

/-- A state of the screen that was opened for the cigar. -/
def Reached (cigar : Cigar) (humidor : Option Humidor) (db : Database) (s : DetailsScreen) : Prop :=
  ∃ trace, Run (Step cigar.rowid) (opened cigar humidor db) trace s

/-- What goes on by itself. -/
def Internal : Op → Prop
  | .first .observer | .both .write .statement => True
  | .second op => op.Internal
  | _ => False

theorem internal_second {op : Op} {op' : StockSession.Op} (h : Internal op) (hop : op.second? = some op') :
    op'.Internal := by
  unfold Internal at h
  split at h
  · cases hop
  · cases hop
    trivial
  · cases hop
    exact h
  · exact h.elim

/-- Left to itself, the screen comes from one state to the other. -/
def GoesOn (cigarId : ℤ) (s s' : DetailsScreen) : Prop :=
  ∃ trace, Run (Step cigarId) s trace s' ∧ ∀ t ∈ trace, Internal t.2

theorem GoesOn.refl (cigarId : ℤ) (s : DetailsScreen) : GoesOn cigarId s s := ⟨[], .start, List.forall_mem_nil _⟩

theorem GoesOn.trans {cigarId : ℤ} {s s₁ s' : DetailsScreen} (h : GoesOn cigarId s s₁) (h' : GoesOn cigarId s₁ s') :
    GoesOn cigarId s s' := by
  obtain ⟨trace, run, hinternal⟩ := h
  obtain ⟨trace', run', hinternal'⟩ := h'
  exact ⟨_, run.trans run', List.forall_mem_append.mpr ⟨hinternal', hinternal⟩⟩

/-- What the list does meanwhile goes on by itself too. -/
theorem GoesOn.run_second {cigarId : ℤ} {s s' : DetailsScreen} (h : GoesOn cigarId s s') :
    ∃ steps, Run (StockSession.Step cigarId) s.second steps s'.second ∧ ∀ t ∈ steps, t.2.Internal := by
  obtain ⟨trace, run, hinternal⟩ := h
  refine ⟨_, Shared.run_second run, Shared.forall_secondSteps fun t ht op hop => ?_⟩
  exact internal_second (hinternal t ht) hop

/-- The first step of a call. -/
inductive Begins (entity : Cigar) (s : DetailsScreen) : CigarsDetailsScreenViewModel.Call → DetailsScreen → Prop
  | favorite {s' : DetailsScreen} : Step entity.rowid s (.both .write .mark) s' →
    (CigarsRepository.updateFavorite (!s.first.vm.favorites) entity).Completes s.first.db s'.first.db →
    Begins entity s .favorite s'
  | updateCigarRating {rating : ℤ} {s' : DetailsScreen} : Step entity.rowid s (.both .write .mark) s' →
    (CigarsRepository.updateRating rating entity).Completes s.first.db s'.first.db →
    Begins entity s (.updateCigarRating rating) s'
  | sameCount {now : ℤ} {row : HumidorCigar} {count : ℤ} {price : Option Double} :
    row ∈ s.second.humidors → row.count = count → Begins entity s (.updateCigarCount now row count price) s
  | updateCigarCount {now : ℤ} {row : HumidorCigar} {count : ℤ} {price : Option Double} {s' : DetailsScreen} :
    row.count ≠ count → (StockOp.updateCount now row count price).GoesThrough s.first.db →
    Step entity.rowid s (.second (.start (.updateCount now row count price))) s' →
    Begins entity s (.updateCigarCount now row count price) s'

/-- A call from a settled screen to a settled screen with nobody else about. -/
structure Calls (entity : Cigar) (s : DetailsScreen) (call : CigarsDetailsScreenViewModel.Call) (s' : DetailsScreen) :
    Prop where
  settled : s.Settled
  settled' : s'.Settled
  run : ∃ s₁, Begins entity s call s₁ ∧ GoesOn entity.rowid s₁ s'

theorem Begins.run {entity : Cigar} {s s' : DetailsScreen} {call : CigarsDetailsScreenViewModel.Call}
    (h : Begins entity s call s') : ∃ trace, Run (Step entity.rowid) s trace s' := by
  cases h with
  | favorite hstep _ => exact ⟨_, Run.start.next hstep⟩
  | updateCigarRating hstep _ => exact ⟨_, Run.start.next hstep⟩
  | sameCount _ _ => exact ⟨_, Run.start⟩
  | updateCigarCount _ _ hstep => exact ⟨_, Run.start.next hstep⟩

/-- Nothing goes on in a list at rest. -/
theorem GoesOn.second_eq {cigarId : ℤ} {s s' : DetailsScreen} (h : GoesOn cigarId s s')
    (hidle : s.second.observer.Idle) (hrunning : s.second.running = none) : s'.second = s.second := by
  obtain ⟨steps, run, hinternal⟩ := h.run_second
  refine run.kept (P := fun st => st = s.second) (Q := fun _ op => op.Internal) rfl ?_ hinternal
  rintro st op st' rfl hop hstep
  exact absurd hstep (StockSession.not_step_of_idle hidle hrunning hop)

/-- A write of the cigar's row leaves the list at rest. -/
theorem second_of_mark {cigarId : ℤ} {s s' : DetailsScreen} (hstep : Step cigarId s (.both .write .mark) s') :
    s'.second.observer = s.second.observer ∧ s'.second.running = s.second.running ∧
      s'.second.humidors = s.second.humidors := by
  cases hstep with
  | both _ _ hmark _ =>
    cases hmark
    exact ⟨rfl, rfl, rfl⟩

section Calls
variable {cigar : Cigar} {humidor : Option Humidor} {db : Database} {s s' : DetailsScreen}
  {call : CigarsDetailsScreenViewModel.Call}

theorem Reached.calls (reached : Reached cigar humidor db s) (h : Calls cigar s call s') :
    Reached cigar humidor db s' := by
  obtain ⟨before, hbefore⟩ := reached
  obtain ⟨s₁, hbegins, steps, hsteps, -⟩ := h.run
  obtain ⟨first, hfirst⟩ := hbegins.run
  exact ⟨_, (hbefore.trans hfirst).trans hsteps⟩

variable (h₀ : 0 ≤ cigar.rowid) (hcigar : db.cigarsTable.contains cigar.rowid = true)
include h₀ hcigar

theorem favorites_of_settled (reached : Reached cigar humidor db s) (hs : s.Settled) :
    s.first.vm.favorites = CigarsDetailsScreenViewModel.observed cigar.rowid s.first.db := by
  obtain ⟨trace, run⟩ := reached
  obtain ⟨it, ⟨row, hrow, hit⟩, hshows, -⟩ := stored_of_settled h₀ hcigar run hs
  rw [(observed_of_run h₀ run).rowid] at hrow
  rw [CigarsDetailsScreenViewModel.observed, hrow, ← hshows, hit]
  rfl

/-- After a step that leaves the list at rest, the favourite mark on the screen becomes the stored one. -/
theorem view_of_idle {s₁ : DetailsScreen} (hidle : s₁.second.observer.Idle) (hrunning : s₁.second.running = none)
    (h : GoesOn cigar.rowid s₁ s') (hs' : s'.Settled) (reached : Reached cigar humidor db s') :
    s'.view = ⟨s₁.first.db, CigarsDetailsScreenViewModel.observed cigar.rowid s₁.first.db, s₁.second.humidors⟩ := by
  have hsecond := h.second_eq hidle hrunning
  have hdb : s'.first.db = s₁.first.db := by rw [s'.same, hsecond, s₁.same]
  rw [view, favorites_of_settled h₀ hcigar reached hs', hdb, hsecond]

omit h₀ hcigar in
/-- What a count change leaves in the database and on the list. -/
theorem counted_of_goesOn {now count : ℤ} {row : HumidorCigar} {price : Option Double} {s₁ : DetailsScreen}
    (reached : Reached cigar humidor db s) (hs : s.Settled) (hcount : row.count ≠ count)
    (hgo : (StockOp.updateCount now row count price).GoesThrough s.first.db)
    (hstart : Step cigar.rowid s (.second (.start (.updateCount now row count price))) s₁)
    (h : GoesOn cigar.rowid s₁ s') (hs' : s'.Settled) :
    row ∈ s.second.humidors ∧ s'.first.db = CigarHumidorRepository.counted now row count price s.first.db ∧
      CigarsDetailsScreenViewModel.EmittedBetween cigar.rowid
        (CigarHumidorRepository.countedRow row count s.first.db) s'.first.db s'.second.humidors := by
  obtain ⟨before, hbefore⟩ := reached
  obtain ⟨steps, run, hinternal⟩ := h.run_second
  rw [s.same] at hgo ⊢
  rw [s'.same]
  cases hstart with
  | second hstart _ =>
    cases hstart with
    | start _ hoffers hpath =>
      have hend := run.kept
        (P := StockSession.Counting cigar.rowid now row count price s.second.db) (Q := fun _ op => op.Internal)
        (StockSession.counting_start (lists hbefore) hgo hpath) (fun _ _ _ h hop hstep => h.step hop hstep) hinternal
      have hchanged := (lists hbefore).stock_ne now price hs.list hoffers.1 hcount
      exact ⟨hoffers.1, hend.emitted hs'.list hs'.running hchanged⟩

/-- A call on the screen is a call as `CigarsDetailsScreenViewModel.Step` has it. -/
theorem step_of_calls (reached : Reached cigar humidor db s) (h : Calls cigar s call s') :
    CigarsDetailsScreenViewModel.Step cigar s.view call s'.view := by
  have reached' := reached.calls h
  obtain ⟨hs, hs', s₁, hbegins, hgoes⟩ := h
  cases hbegins with
  | favorite hstep hdone =>
    obtain ⟨hobserver, hrunning, hhumidors⟩ := second_of_mark hstep
    have hview := view_of_idle h₀ hcigar (hobserver ▸ hs.list) (hrunning.trans hs.running) hgoes hs' reached'
    rw [hview, hhumidors]
    exact .favorite hdone
  | updateCigarRating hstep hdone =>
    obtain ⟨hobserver, hrunning, hhumidors⟩ := second_of_mark hstep
    have hview := view_of_idle h₀ hcigar (hobserver ▸ hs.list) (hrunning.trans hs.running) hgoes hs' reached'
    rw [hview, hhumidors]
    exact .updateCigarRating hdone
  | sameCount hmem hcount =>
    have hview := view_of_idle h₀ hcigar hs.list hs.running hgoes hs' reached'
    rw [hview, ← favorites_of_settled h₀ hcigar reached hs]
    exact .sameCount hmem hcount
  | updateCigarCount hcount hgo hstep =>
    obtain ⟨hmem, hdb, hemitted⟩ := counted_of_goesOn reached hs hcount hgo hstep hgoes hs'
    have hdone := StockOp.completes_of_goesThrough hgo
    have hview : s'.view = ⟨s'.first.db, CigarsDetailsScreenViewModel.observed cigar.rowid s'.first.db,
        s'.second.humidors⟩ := by
      rw [view, favorites_of_settled h₀ hcigar reached' hs']
    rw [hdb] at hemitted hview
    rw [hview]
    exact .updateCigarCount hmem hcount hdone hemitted

/-- And so are runs of calls. -/
theorem run_of_calls (reached : Reached cigar humidor db s)
    {calls : List (DetailsScreen × CigarsDetailsScreenViewModel.Call)} (run : Run (Calls cigar) s calls s') :
    Run (CigarsDetailsScreenViewModel.Step cigar) s.view (calls.map (Prod.map view id)) s'.view := by
  induction run with
  | start => exact .start
  | next hrun hstep ih =>
    have hreached := hrun.invariant reached fun _ _ _ h hcalls => h.calls hcalls
    exact ih.next (step_of_calls h₀ hcigar hreached hstep)

/-- A screen that settles with nobody else about is one that the calls can begin on. -/
theorem opened_of_goesOn (h : GoesOn cigar.rowid (opened cigar humidor db) s) (hs : s.Settled)
    (hrow : ∃ c : Cigar, db.cigarsTable.find? cigar.rowid = some c.columns) :
    CigarsDetailsScreenViewModel.Opened cigar s.view := by
  obtain ⟨steps, run, hinternal⟩ := h.run_second
  have hopening := run.kept (P := StockSession.Opening cigar.rowid db) (Q := fun _ op => op.Internal)
    (StockSession.opening_opened cigar.rowid db) (fun _ _ _ h hop hstep => h.step hop hstep) hinternal
  have hdb : s.first.db = db := s.same.trans hopening.unchanged
  obtain ⟨trace, hrun, -⟩ := h
  have hfavorites := favorites_of_settled h₀ hcigar ⟨trace, hrun⟩ hs
  refine ⟨?_, hfavorites, ?_⟩
  · change ∃ c : Cigar, s.first.db.cigarsTable.find? cigar.rowid = some c.columns
    rw [hdb]
    exact hrow
  · change CigarsDetailsScreenViewModel.EmittedBetween cigar.rowid s.first.db s.first.db s.second.humidors
    rw [hdb]
    exact hopening.emitted hs.list

/-- The edits of a cigar survive all calls of a screen that is used alone if every count change uses an entry with
the stored favourite mark and rating. -/
theorem editsKept_of_calls (hopen : GoesOn cigar.rowid (opened cigar humidor db) s) (hs : s.Settled)
    (hrow : ∃ c : Cigar, db.cigarsTable.find? cigar.rowid = some c.columns)
    {calls : List (DetailsScreen × CigarsDetailsScreenViewModel.Call)} (run : Run (Calls cigar) s calls s')
    (hcurrent : ∀ t ∈ calls, CigarsDetailsScreenViewModel.Current cigar t.1.view t.2) :
    CigarsDetailsScreenViewModel.EditsKept cigar s.view (calls.map (Prod.map view id)) s'.view := by
  have hopened := opened_of_goesOn h₀ hcigar hopen hs hrow
  obtain ⟨trace, hrun, -⟩ := hopen
  refine CigarsDetailsScreenViewModel.editsKept_of_current hopened (run_of_calls h₀ hcigar ⟨trace, hrun⟩ run) ?_
  rw [List.forall_mem_map]
  exact hcurrent

end Calls

/-! ### Every call comes to its end -/

/-- Nobody edits and nobody is reading, though the observers may have been told to. -/
structure Quiet (s : DetailsScreen) : Prop where
  editing : s.first.editing = false
  left : s.first.left = false
  fields : ∃ notified, s.first.observers = [⟨notified, .idle⟩]
  list : s.second.observer.phase = .idle

/-- What the screen and its dialogs offer. -/
def Offered (s : DetailsScreen) : CigarsDetailsScreenViewModel.Call → Prop
  | .updateCigarCount _ row count _ => row ∈ s.second.humidors ∧ IsLong count
  | .favorite | .updateCigarRating _ => True

section Progress
variable {cigarId : ℤ} {s : DetailsScreen}

theorem Settled.quiet (hs : s.Settled) (hobserved : s.first.Observed cigarId) : s.Quiet where
  editing := hs.editing
  left := hs.left
  fields := ⟨false, hobserved.atRest_iff.mp hs.fields⟩
  list := congrArg Scan.phase hs.list

/-- The fields come to rest. -/
theorem Quiet.exists_goesOn_fields (hs : s.Quiet) {it : Cigar} (hstored : s.first.Stored it) :
    ∃ s', GoesOn cigarId s s' ∧ s'.second = s.second ∧ s'.first.editing = false ∧ s'.first.left = false ∧
      s'.first.AtRest := by
  obtain ⟨notified, hobservers⟩ := hs.fields
  have hrest (e : EditSession) (he : e.observers = [⟨false, .idle⟩]) : e.AtRest := by
    intro r hr
    rw [he] at hr
    exact List.mem_singleton.mp hr
  cases notified with
  | false => exact ⟨s, .refl _ _, rfl, hs.editing, hs.left, hrest _ hobservers⟩
  | true =>
    obtain ⟨steps, hrun, hops⟩ := EditSession.exists_run_observer hobservers hstored
    have hsame : ∀ a op b, op = EditSession.Op.observer → EditSession.Step a op b → b.db = a.db := by
      rintro a op b rfl hstep
      rcases hstep.db_eq_or with hdb | hop | ⟨now, hop⟩
      · exact hdb
      · cases hop
      · cases hop
    obtain ⟨trace, s', run, hfirst, hsecond, htrace⟩ := Shared.exists_run_first hsame hrun hops
    have hshown : s'.first = { s.first with observers := [⟨false, .idle⟩], vm := s.first.vm.shown it } :=
      hfirst.trans (if_neg (by simp [hs.editing]))
    refine ⟨s', ⟨trace, run, fun t ht => ?_⟩, hsecond, ?_, ?_, hrest _ (by rw [hshown])⟩
    · obtain ⟨op, rfl, hop⟩ := htrace t ht
      rw [hop]
      trivial
    · rw [hshown]
      exact hs.editing
    · rw [hshown]
      exact hs.left

/-- The list comes to rest. -/
theorem Quiet.exists_goesOn_list (hs : s.Quiet) (hcigar : s.first.db.cigarsTable.contains cigarId = true) :
    ∃ s', GoesOn cigarId s s' ∧ s'.first = s.first ∧ s'.second.running = s.second.running ∧
      s'.second.observer.Idle := by
  have hobserver : s.second.observer = ⟨s.second.observer.notified, .idle⟩ := by rw [← hs.list]
  cases hn : s.second.observer.notified with
  | false =>
    rw [hn] at hobserver
    exact ⟨s, .refl _ _, rfl, rfl, hobserver⟩
  | true =>
    rw [hn] at hobserver
    rw [s.same] at hcigar
    obtain ⟨steps, humidors, hrun, hops⟩ := StockSession.exists_run_list hcigar hobserver
    obtain ⟨trace, s', run, hfirst, hsecond, htrace⟩ := Shared.exists_run_second
      (Q := fun op => op = StockSession.Op.observer) (fun _ _ _ hop hstep => (hop ▸ hstep).db_eq_of_observer) hrun hops
    refine ⟨s', ⟨trace, run, fun t ht => ?_⟩, hfirst, by rw [hsecond], by rw [hsecond]; rfl⟩
    obtain ⟨op, rfl, hop⟩ := htrace t ht
    rw [hop]
    trivial

theorem Quiet.exists_settled (hs : s.Quiet) (hrunning : s.second.running = none)
    (hcigar : s.first.db.cigarsTable.contains cigarId = true) (hrowid : s.first.rowid = cigarId) :
    ∃ s', GoesOn cigarId s s' ∧ s'.Settled := by
  obtain ⟨s₁, hlist, hfirst, hrunning₁, hidle⟩ := hs.exists_goesOn_list hcigar
  rw [← hrowid] at hcigar
  obtain ⟨it, hstored⟩ := EditSession.stored_of_contains hcigar
  have hquiet : s₁.Quiet := by
    refine ⟨?_, ?_, ?_, congrArg Scan.phase hidle⟩
    · rw [hfirst]
      exact hs.editing
    · rw [hfirst]
      exact hs.left
    · rw [hfirst]
      exact hs.fields
  rw [← hfirst] at hstored
  obtain ⟨s', hfields, hsecond, hediting, hleft, hrest⟩ := hquiet.exists_goesOn_fields hstored
  refine ⟨s', hlist.trans hfields, hediting, hleft, hrest, ?_, ?_⟩
  · rw [hsecond]
    exact hidle
  · rw [hsecond, hrunning₁]
    exact hrunning

/-- The statements of a request that never removes the cigar are executed one after the other. -/
theorem Quiet.exists_goesOn_statements {path : List Database} (hs : s.Quiet) (hrunning : s.second.running = some path)
    (hpath : ∀ db' ∈ path, db'.cigarsTable.contains s.first.rowid = true) :
    ∃ s', GoesOn cigarId s s' ∧ s'.Quiet ∧ s'.second.running = none ∧ s'.first.db = path.getLastD s.first.db ∧
      s'.first.rowid = s.first.rowid := by
  induction path generalizing s with
  | nil =>
    have hfinish : StockSession.Step cigarId s.second .finish { s.second with running := none } := .finish hrunning
    refine ⟨_, ⟨_, Run.start.next (.second hfinish rfl), ?_⟩, ⟨hs.editing, hs.left, hs.fields, hs.list⟩, rfl, rfl, rfl⟩
    exact List.forall_mem_singleton.mpr trivial
  | cons db' path ih =>
    obtain ⟨hmem, hrest⟩ := List.forall_mem_cons.mp hpath
    obtain ⟨notified, hobservers⟩ := hs.fields
    let s₁ : DetailsScreen := ⟨s.first.written db',
      { s.second with db := db', observer := s.second.observer.notify, running := some path }, rfl⟩
    have hwrite : EditSession.Step s.first .write s₁.first := .write fun _ => hmem
    have hstatement : StockSession.Step cigarId s.second .statement s₁.second := .statement hrunning (Or.inl rfl)
    have hquiet : s₁.Quiet := by
      refine ⟨hs.editing, hs.left, ⟨true, ?_⟩, hs.list⟩
      change s.first.observers.map Reader.notify = _
      rw [hobservers]
      rfl
    obtain ⟨s', hgoes, hquiet', hrunning', hdb, hrowid⟩ := ih hquiet rfl hrest
    have hfirst : GoesOn cigarId s s₁ :=
      ⟨_, Run.start.next (.both trivial hwrite hstatement rfl), List.forall_mem_singleton.mpr trivial⟩
    refine ⟨s', hfirst.trans hgoes, hquiet', hrunning', ?_, hrowid⟩
    rw [List.getLastD_cons]
    exact hdb

/-- A write of the cigar's row. -/
theorem exists_marked (hs : s.Settled) (hobserved : s.first.Observed cigarId) {f : CigarsTable → CigarsTable}
    (hf : ∀ r, IsLong r.count → IsLong (f r).count) :
    ∃ s', Step cigarId s (.both .write .mark) s' ∧ s'.Quiet ∧ s'.second.running = none ∧
      s'.first.db = { s.first.db with cigarsTable := s.first.db.cigarsTable.update cigarId f } ∧
      s'.first.rowid = cigarId := by
  let s' : DetailsScreen := ⟨s.first.written { s.first.db with cigarsTable := s.first.db.cigarsTable.update cigarId f },
    { s.second with db := { s.second.db with cigarsTable := s.second.db.cigarsTable.update cigarId f } },
    by rw [← s.same]; rfl⟩
  have hwrite : EditSession.Step s.first .write s'.first :=
    .write fun h => (Table.contains_update _ _ _ _).trans h
  have hquiet : s'.Quiet := by
    refine ⟨hs.editing, hs.left, ⟨true, ?_⟩, congrArg Scan.phase hs.list⟩
    change s.first.observers.map Reader.notify = _
    rw [hobserved.atRest_iff.mp hs.fields]
    rfl
  exact ⟨s', .both trivial hwrite (.mark hs.running hf) s'.same, hquiet, hs.running, rfl, hobserved.rowid⟩

end Progress

section Progress
variable {cigar : Cigar} {humidor : Option Humidor} {db : Database} {s : DetailsScreen}
  {call : CigarsDetailsScreenViewModel.Call}

/-- A call that writes the cigar's row. -/
theorem exists_calls_of_marked (hs : s.Settled) (hobserved : s.first.Observed cigar.rowid)
    (hcontains : s.first.db.cigarsTable.contains cigar.rowid = true) {f : CigarsTable → CigarsTable}
    (hf : ∀ r, IsLong r.count → IsLong (f r).count)
    (hbegins : ∀ s₁, Step cigar.rowid s (.both .write .mark) s₁ →
      s₁.first.db = { s.first.db with cigarsTable := s.first.db.cigarsTable.update cigar.rowid f } →
      Begins cigar s call s₁) : ∃ s', Calls cigar s call s' := by
  obtain ⟨s₁, hstep, hquiet, hrunning, hdb, hrowid⟩ := exists_marked hs hobserved hf
  have hkept : s₁.first.db.cigarsTable.contains cigar.rowid = true := by
    rw [hdb]
    exact (Table.contains_update _ _ _ _).trans hcontains
  obtain ⟨s', hgoes, hs'⟩ := hquiet.exists_settled hrunning hkept hrowid
  exact ⟨s', hs, hs', s₁, hbegins s₁ hstep hdb, hgoes⟩

/-- A count change with an entry of the list. -/
theorem exists_calls_of_counted {now count : ℤ} {row : HumidorCigar} {price : Option Double} (hs : s.Settled)
    (hobserved : s.first.Observed cigar.rowid) (hcontains : s.first.db.cigarsTable.contains cigar.rowid = true)
    (hlists : StockSession.Lists cigar.rowid s.second) (hmem : row ∈ s.second.humidors) (hlong : IsLong count)
    (hcount : row.count ≠ count) : ∃ s', Calls cigar s (.updateCigarCount now row count price) s' := by
  have hcontains' : s.second.db.cigarsTable.contains cigar.rowid = true := s.same ▸ hcontains
  have hgo := hlists.goesThrough now count price hs.list hmem hcontains'
  obtain ⟨path, hpath⟩ := (StockOp.updateCount now row count price).program.exists_passes s.second.db
  let s₁ : DetailsScreen := ⟨s.first, { s.second with running := some path }, s.same⟩
  have hrequest : StockSession.Step cigar.rowid s.second (.start (.updateCount now row count price)) s₁.second :=
    .start hs.running ⟨hmem, hlong⟩ hpath
  have hstart : Step cigar.rowid s (.second (.start (.updateCount now row count price))) s₁ := .second hrequest rfl
  have hquiet : s₁.Quiet := ⟨hs.editing, hs.left, (hs.quiet hobserved).fields, (hs.quiet hobserved).list⟩
  have hkept : ∀ db' ∈ path, db'.cigarsTable.contains s.first.rowid = true := by
    intro db' hdb'
    rw [hobserved.rowid, StockSession.contains_of_countStates (StockSession.countStates_of_passes hpath db' hdb')]
    exact hcontains'
  obtain ⟨s₂, hstatements, hquiet₂, hrunning₂, hdb₂, hrowid₂⟩ := hquiet.exists_goesOn_statements rfl hkept
  have hcontains₂ : s₂.first.db.cigarsTable.contains cigar.rowid = true := by
    have hend : s₂.first.db = path.getLastD s.second.db := s.same ▸ hdb₂
    rw [hend, hpath.getLastD, StockOp.program_run hgo]
    exact (StockSession.contains_of_countStates (Or.inr (Or.inr rfl)) _).trans hcontains'
  obtain ⟨s', hgoes, hs'⟩ := hquiet₂.exists_settled hrunning₂ hcontains₂ (hrowid₂.trans hobserved.rowid)
  exact ⟨s', hs, hs', s₁, .updateCigarCount hcount (s.same ▸ hgo) hstart, hstatements.trans hgoes⟩

/-- Whatever a settled screen offers can be called, and the screen settles again. -/
theorem exists_calls (h₀ : 0 ≤ cigar.rowid) (hcigar : db.cigarsTable.contains cigar.rowid = true)
    (reached : Reached cigar humidor db s) (hs : s.Settled) (hcall : s.Offered call) :
    ∃ s', Calls cigar s call s' := by
  obtain ⟨trace, run⟩ := reached
  have hobserved := observed_of_run h₀ run
  obtain ⟨it, hstored, -⟩ := stored_of_settled h₀ hcigar run hs
  have hcontains : s.first.db.cigarsTable.contains cigar.rowid = true := hobserved.rowid ▸ hstored.contains
  cases call with
  | favorite =>
    refine exists_calls_of_marked hs hobserved hcontains (f := fun r => { r with favorites := !s.first.vm.favorites })
      (fun _ h => h) fun s₁ hstep hdb => .favorite hstep ?_
    rw [hdb]
    exact (updateFavorite_emits _ _ _).completes
  | updateCigarRating rating =>
    refine exists_calls_of_marked hs hobserved hcontains (f := fun r => { r with myrating := some rating })
      (fun _ h => h) fun s₁ hstep hdb => .updateCigarRating hstep ?_
    rw [hdb]
    exact (updateRating_emits _ _ _).completes
  | updateCigarCount now row count price =>
    obtain ⟨hmem, hlong⟩ := hcall
    by_cases hcount : row.count = count
    · exact ⟨s, hs, hs, s, .sameCount hmem hcount, .refl _ _⟩
    · exact exists_calls_of_counted hs hobserved hcontains (lists run) hmem hlong hcount

end Progress

end DetailsScreen
end Cigars
