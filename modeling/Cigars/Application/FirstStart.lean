import Cigars.Application.DemoSet
import Cigars.Transition.Run

/-! The first start of the application against the sequential meaning of the demo set, and starts that are
stopped on their way. -/
namespace Cigars
open Coroutine Sql

/-! ### One humidor -/

namespace HumidorsRepository
variable {entity : Humidor} {db : Database}

theorem add_fails_of_toString (now : ℤ) {e : Exn} (he : entity.toString = .error e) :
    (add now entity).Fails db e db := by
  by_cases hnew : entity.rowid < 0 ∨ db.humidorsTable.contains entity.rowid = false
  · have hisNew : (SQLDelightBaseRepository.isNew humidorsTableQueries entity).run db = (.ok true, db) :=
      SQLDelightBaseRepository.isNew_true humidorsTableQueries rfl hnew
    exact (SQLDelightBaseRepository.add_fails_of_log humidorsTableQueries hisNew rfl he).map _
  · have hisNew : (SQLDelightBaseRepository.isNew humidorsTableQueries entity).run db = (.ok false, db) :=
      SQLDelightBaseRepository.isNew_false humidorsTableQueries rfl hnew
    have hlog := Flow.fails_after (Action.run_ofExcept_error db he)
      fun _ => (Flow.throwing .cantInsert : DbFlow Humidor)
    exact (Flow.Fails.after hisNew hlog).map _

theorem add_fails_of_contains (now : ℤ) (htext : entity.toString = .ok ()) (hrowid : 0 ≤ entity.rowid)
    (hstored : db.humidorsTable.contains entity.rowid = true) : (add now entity).Fails db .cantInsert db := by
  have hnot : ¬ (entity.rowid < 0 ∨ db.humidorsTable.contains entity.rowid = false) := by
    rintro (hneg | hfree)
    · omega
    · rw [hstored] at hfree
      cases hfree
  have hisNew : (SQLDelightBaseRepository.isNew humidorsTableQueries entity).run db = (.ok false, db) :=
    SQLDelightBaseRepository.isNew_false humidorsTableQueries rfl hnot
  have hthrow : (Flow.after (Action.ofExcept entity.toString) fun _ =>
      (Flow.throwing .cantInsert : DbFlow Humidor)).Fails db .cantInsert db :=
    Flow.Fails.after (Action.run_ofExcept_ok db htext) (Flow.fails_throwing _ _)
  exact (Flow.Fails.after hisNew hthrow).map _

end HumidorsRepository

namespace DemoSet
variable {demo : DemoSet}

/-- The flow of one humidor. -/
def content (demo : DemoSet) (it : ℤ × Humidor) : Flow (Database × StartVars) Exn (List CigarImage) :=
  ((((HumidorsRepository.addBeside it.1 it.2).flatMapConcat fun h =>
    Flow.after (Action.ofExcept (demo.humidorImages h)) fun images =>
      (addImages StartVars.humidorImagesVar images).flatMapConcat fun _ => Flow.flowOf h).flatMapConcat
    fun humidor => CigarsRepository.addAllAt StartVars.cigarsVar (demo.cigarsIn humidor) humidor).flatMapConcat
    fun it => Flow.asFlow it).flatMapConcat
    fun cigar => Flow.after (Action.ofExcept (demo.cigarImages cigar)) fun images =>
      addImages StartVars.cigarImagesVar images

theorem createDemoSet_eq (demo : DemoSet) (emit : Bool → Action (Database × StartVars) Exn Unit) :
    demo.createDemoSet emit = Flow.collectFirstAt StartVars.reportsVar
      ((Flow.asFlow demo.humidors).flatMapConcat demo.content) demo.cigars.length fun _ => emit true := rfl

/-- The four ways of `fill`. -/
theorem fill_cases (demo : DemoSet) (it : ℤ × Humidor) (db : Database) :
    (∃ e, it.2.toString = .error e ∧ demo.fill it db = .error e) ∨
    (it.2.toString = .ok () ∧ (0 ≤ it.2.rowid ∧ db.humidorsTable.contains it.2.rowid = true) ∧
      demo.fill it db = .error .cantInsert) ∨
    HumidorsRepository.AddGoesThrough it.2 db ∧
      ((∃ e, demo.humidorImages (it.2.numbered db) = .error e ∧
        demo.fill it db = .error e) ∨
      ∃ images, demo.humidorImages (it.2.numbered db) = .ok images ∧
        demo.fill it db = demo.addCigarImages (demo.addContent it images db).1
          (demo.addContent it images db).2) := by
  unfold fill
  cases htext : it.2.toString with
  | error e => exact Or.inl ⟨e, rfl, rfl⟩
  | ok u =>
    right
    by_cases hstored : 0 ≤ it.2.rowid ∧ db.humidorsTable.contains it.2.rowid = true
    · left
      exact ⟨rfl, hstored, if_pos hstored⟩
    · right
      have hgo : HumidorsRepository.AddGoesThrough it.2 db := by
        refine ⟨?_, htext⟩
        rw [not_and_or, Bool.not_eq_true] at hstored
        rcases hstored with hneg | hfree
        · exact Or.inl (by omega)
        · exact Or.inr hfree
      refine ⟨hgo, ?_⟩
      simp only [bind, Except.bind, if_neg hstored]
      cases himages : demo.humidorImages (it.2.numbered db) with
      | error e => exact Or.inl ⟨e, rfl, rfl⟩
      | ok images => exact Or.inr ⟨images, rfl, rfl⟩

/-- Only variables of `addAll` differ. -/
structure SameReport (t t' : StartVars) : Prop where
  isFirstStart : t'.isFirstStart = t.isFirstStart
  initialized : t'.initialized = t.initialized
  reports : t'.reports = t.reports

theorem SameReport.trans {t₁ t₂ t₃ : StartVars} (h : SameReport t₁ t₂) (h' : SameReport t₂ t₃) : SameReport t₁ t₃ :=
  ⟨h'.isFirstStart.trans h.isFirstStart, h'.initialized.trans h.initialized, h'.reports.trans h.reports⟩

/-- `k` more cigars are handled: the `n`-th of them sets the two flags. -/
structure Reported (n k : ℕ) (t t' : StartVars) : Prop where
  count : t'.reports.count = t.reports.count + k
  isFirstStart : t'.isFirstStart =
    if t.reports.count < n ∧ n ≤ t.reports.count + k then false else t.isFirstStart
  initialized : t'.initialized = if t.reports.count < n ∧ n ≤ t.reports.count + k then true else t.initialized

theorem SameReport.reported {n : ℕ} {t t' : StartVars} (h : SameReport t t') : Reported n 0 t t' where
  count := by rw [h.reports, Nat.add_zero]
  isFirstStart := by rw [if_neg (by omega), h.isFirstStart]
  initialized := by rw [if_neg (by omega), h.initialized]

theorem Reported.trans {n k₁ k₂ : ℕ} {t₁ t₂ t₃ : StartVars} (h : Reported n k₁ t₁ t₂) (h' : Reported n k₂ t₂ t₃) :
    Reported n (k₁ + k₂) t₁ t₃ := by
  have hcount := h.count
  have hcount' := h'.count
  have hfirst := h'.isFirstStart
  have hinit := h'.initialized
  rw [h.isFirstStart, hcount] at hfirst
  rw [h.initialized, hcount] at hinit
  refine ⟨by omega, ?_, ?_⟩
  · rw [hfirst]
    split_ifs <;> first | rfl | omega
  · rw [hinit]
    split_ifs <;> first | rfl | omega

/-- The block of `collectFirst` with the application's collector. -/
def reportBlock (n : ℕ) : List CigarImage → Action (Database × StartVars) Exn Unit :=
  Flow.collectFirstBlockAt StartVars.reportsVar n fun _ => CigarsApplication.created true

theorem reportBlock_run (n : ℕ) (value : List CigarImage) (db : Database) (t : StartVars) :
    ∃ t', (reportBlock n value).run (db, t) = (.ok (), db, t') ∧ Reported n 1 t t' := by
  unfold reportBlock
  rw [Flow.run_collectFirstBlockAt]
  have hcount : (StartVars.reportsVar.get t).count = t.reports.count := rfl
  rw [hcount]
  by_cases hn : t.reports.count + 1 = n
  · rw [if_pos hn]
    have hcond : t.reports.count < n ∧ n ≤ t.reports.count + 1 := by omega
    exact ⟨_, rfl, rfl, (if_pos hcond).symm, (if_pos hcond).symm⟩
  · rw [if_neg hn]
    have hcond : ¬ (t.reports.count < n ∧ n ≤ t.reports.count + 1) := by omega
    exact ⟨_, rfl, rfl, (if_neg hcond).symm, (if_neg hcond).symm⟩

section Images
variable (demo) (n : ℕ)

/-- The flow behind the cigars of one humidor. -/
def cigarContent (cigar : Cigar) : Flow (Database × StartVars) Exn (List CigarImage) :=
  Flow.after (Action.ofExcept (demo.cigarImages cigar)) fun images => addImages StartVars.cigarImagesVar images

theorem cigarContent_run (cigars : List Cigar) (db : Database) (t : StartVars) :
    (∀ db', demo.addCigarImages cigars db = .ok db' → ∃ t',
      ((Flow.asFlow cigars).flatMapConcat (cigarContent demo) (reportBlock n)).run (db, t) = (.ok (), db', t') ∧
        Reported n cigars.length t t') ∧
    ∀ e, demo.addCigarImages cigars db = .error e → ∃ s',
      ((Flow.asFlow cigars).flatMapConcat (cigarContent demo) (reportBlock n)).run (db, t) = (.error ⟨0, e⟩, s') := by
  induction cigars generalizing db t with
  | nil =>
    constructor
    · intro db' hdb'
      cases hdb'
      exact ⟨t, rfl, SameReport.reported ⟨rfl, rfl, rfl⟩⟩
    · intro e he
      cases he
  | cons cigar cigars ih =>
    have hrun : ((Flow.asFlow (cigar :: cigars)).flatMapConcat (cigarContent demo) (reportBlock n)).run (db, t) =
        Script.andThen (fun _ => (Flow.asFlow cigars).flatMapConcat (cigarContent demo) (reportBlock n))
          ((cigarContent demo cigar (reportBlock n)).run (db, t)) := Script.run_bind _ _ _
    rw [hrun, addCigarImages]
    cases himages : demo.cigarImages cigar with
    | error e =>
      have hthrows : (cigarContent demo cigar).Fails (db, t) e (db, t) :=
        Flow.fails_after (Action.run_ofExcept_error _ himages) _
      rw [hthrows]
      constructor
      · intro db' hdb'
        cases hdb'
      · intro e' he'
        cases he'
        exact ⟨_, rfl⟩
    | ok images =>
      obtain ⟨t₁, back, hadd, hset⟩ := addImages_emits StartVars.cigarImagesVar (rowid_of_cigarImages himages) db t
      have hsame : SameReport t t₁ := by
        rcases hset with rfl | ⟨k, rfl⟩
        · exact ⟨rfl, rfl, rfl⟩
        · exact ⟨rfl, rfl, rfl⟩
      have hemits : (cigarContent demo cigar).Emits (db, t) [] (db.addImages images, t₁) back :=
        hadd.after (Action.run_ofExcept_ok _ himages)
      obtain ⟨t₂, hblock, hreported⟩ := reportBlock_run n [] (db.addImages images) t₁
      rw [hemits, hblock]
      obtain ⟨hok, herror⟩ := ih (db.addImages images) t₂
      constructor
      · intro db' hdb'
        obtain ⟨t₃, hrest, hreported'⟩ := hok db' hdb'
        refine ⟨t₃, hrest, ?_⟩
        have hall := (hsame.reported.trans hreported).trans hreported'
        rw [Nat.zero_add, Nat.add_comm] at hall
        exact hall
      · intro e he
        exact herror e he

end Images

/-! ### The whole content of one humidor -/

theorem isNew_stops {entity : Humidor} {s s' : Database × StartVars}
    (h : (SQLDelightBaseRepository.isNew humidorsTableQueries entity).beside.Stops s s') : s' = s := by
  unfold SQLDelightBaseRepository.isNew at h
  split_ifs at h
  · exact h
  · rcases h with h | ⟨b, s₁, hread, h⟩
    · exact h
    · cases hread
      exact h

/-- Everything that belongs to a humidor is in the transaction of its `add`. -/
theorem content_allOrNothing (demo : DemoSet) (it : ℤ × Humidor) : (demo.content it).AllOrNothing := by
  have hadd : (SQLDelightBaseRepository.addBeside humidorsTableQueries it.2 :
      Flow (Database × StartVars) Exn Humidor).AllOrNothing := by
    apply Flow.allOrNothing_after fun _ _ => isNew_stops
    intro new
    cases new with
    | true => exact Flow.allOrNothing_inTransaction _
    | false =>
      refine Flow.allOrNothing_after (fun s s' hstops => ?_) fun _ => Flow.allOrNothing_throwing _
      change (Action.ofExcept it.2.toString).Stops s s' at hstops
      cases htext : it.2.toString with
      | ok u =>
        rw [htext] at hstops
        exact hstops
      | error e =>
        rw [htext] at hstops
        exact hstops
  exact ((((hadd.map _).flatMapConcat _).flatMapConcat _).flatMapConcat _).flatMapConcat _

theorem ready_added (it : ℤ × Humidor) {db : Database} (h : References db) (images : List CigarImage) :
    Ready (it.2.numbered db)
      ((HumidorsRepository.added it.1 it.2 db).addImages images) where
  references := references_addImages (references_addHumidor h it.1 it.2) images
  target := by
    rw [humidorsTable_addImages]
    exact (Table.contains_iff _ _).mpr
      ⟨it.2.columns, AutoTable.find?_insert_nextRowid db.humidorsTable it.2.columns⟩

section Content
variable {it : ℤ × Humidor} {db : Database} (t : StartVars)

/-- The flow of one humidor up to the list of its cigars. -/
def opening (demo : DemoSet) (it : ℤ × Humidor) : Flow (Database × StartVars) Exn (List Cigar) :=
  ((HumidorsRepository.addBeside it.1 it.2).flatMapConcat fun h =>
    Flow.after (Action.ofExcept (demo.humidorImages h)) fun images =>
      (addImages StartVars.humidorImagesVar images).flatMapConcat fun _ => Flow.flowOf h).flatMapConcat
    fun humidor => CigarsRepository.addAllAt StartVars.cigarsVar (demo.cigarsIn humidor) humidor

theorem content_eq (demo : DemoSet) (it : ℤ × Humidor)
    (emit : List CigarImage → Action (Database × StartVars) Exn Unit) :
    demo.content it emit = demo.opening it fun cigars =>
      (Flow.asFlow cigars).flatMapConcat (cigarContent demo) emit := rfl

theorem opening_emits (href : References db) (hgo : HumidorsRepository.AddGoesThrough it.2 db)
    {images : List CigarImage}
    (himages : demo.humidorImages (it.2.numbered db) = .ok images) :
    ∃ t' back, (demo.opening it).Emits (db, t) (demo.addContent it images db).1
      ((demo.addContent it images db).2, t') back ∧ SameReport t t' := by
  obtain ⟨back₁, hadd⟩ := (HumidorsRepository.add_mirrors it.1 it.2).emits (HumidorsRepository.add_emits it.1 hgo) t
  obtain ⟨t₂, back₂, himagesAdded, hset₂⟩ := addImages_emits StartVars.humidorImagesVar
    (rowid_of_humidorImages himages) (HumidorsRepository.added it.1 it.2 db) t
  have hemit := himagesAdded.flatMapConcat (g := fun _ => Flow.flowOf (it.2.numbered db)) (Flow.emits_flowOf _ _)
  have hsecond : (Flow.after (Action.ofExcept (demo.humidorImages (it.2.numbered db))) fun images =>
      (addImages StartVars.humidorImagesVar images).flatMapConcat fun _ => Flow.flowOf (it.2.numbered db)).Emits
        (HumidorsRepository.added it.1 it.2 db, t) (it.2.numbered db)
        ((HumidorsRepository.added it.1 it.2 db).addImages images, t₂) _ :=
    hemit.after (Action.run_ofExcept_ok _ himages)
  have htext : (it.2.numbered db).toString = .ok () := hgo.text
  obtain ⟨hturn, -⟩ := cigars_inTurn htext (rowid_of_cigarsIn demo _) (ready_added it href images)
  obtain ⟨t₃, back₃, hcigars, hset₃⟩ := addAllAt_emits hturn t₂
  refine ⟨t₃, _, (hadd.flatMapConcat hsecond).flatMapConcat hcigars, ?_⟩
  have hsame₂ : SameReport t t₂ := by
    rcases hset₂ with rfl | ⟨k, rfl⟩
    · exact ⟨rfl, rfl, rfl⟩
    · exact ⟨rfl, rfl, rfl⟩
  have hsame₃ : SameReport t₂ t₃ := by
    rcases hset₃ with rfl | ⟨k, rfl⟩
    · exact ⟨rfl, rfl, rfl⟩
    · exact ⟨rfl, rfl, rfl⟩
  exact hsame₂.trans hsame₃

theorem length_cigarsIn (demo : DemoSet) (humidor : Humidor) (rowid : ℤ) :
    (demo.cigarsIn { humidor with rowid }).length = (demo.cigarsIn humidor).length := by
  simp [cigarsIn]

/-- A humidor that can be filled is filled, and its cigars are counted. -/
theorem content_run_ok (n : ℕ) (href : References db) {db' : Database} (hfill : demo.fill it db = .ok db') :
    ∃ t', (demo.content it (reportBlock n)).run (db, t) = (.ok (), db', t') ∧
      Reported n (demo.cigarsIn it.2).length t t' ∧ References db' := by
  rcases demo.fill_cases it db with ⟨e, -, he⟩ | ⟨-, -, he⟩ | ⟨hgo, ⟨e, -, he⟩ | ⟨images, himages, hok⟩⟩
  · rw [he] at hfill
    cases hfill
  · rw [he] at hfill
    cases hfill
  · rw [he] at hfill
    cases hfill
  · rw [hfill] at hok
    obtain ⟨t₁, back, hopening, hsame⟩ := opening_emits t href hgo himages
    obtain ⟨t₂, hrest, hreported⟩ := (cigarContent_run demo n _ _ t₁).1 db' hok.symm
    refine ⟨t₂, ?_, ?_, ?_⟩
    · rw [content_eq, hopening, hrest]
      rfl
    · have hall := hsame.reported.trans hreported
      rw [Nat.zero_add, addContent, length_addCigars, Humidor.numbered, length_cigarsIn] at hall
      exact hall
    · have htext : (it.2.numbered db).toString = .ok () := hgo.text
      obtain ⟨-, hready⟩ := cigars_inTurn htext (rowid_of_cigarsIn demo _) (ready_added it href images)
      exact references_addCigarImages hready.references hok.symm

/-- A humidor that cannot be filled leaves no trace. -/
theorem content_run_error (n : ℕ) (href : References db) {e : Exn} (hfill : demo.fill it db = .error e) :
    ∃ t', (demo.content it (reportBlock n)).run (db, t) = (.error ⟨0, e⟩, db, t') := by
  suffices hthrow : ∃ s', (demo.content it (reportBlock n)).run (db, t) = (.error ⟨0, e⟩, s') by
    obtain ⟨⟨db', t'⟩, hrun⟩ := hthrow
    obtain ⟨vars, hstops⟩ := Script.stops_of_error hrun
    rcases demo.content_allOrNothing it _ _ _ hstops with hsame | hend
    · cases hsame
      exact ⟨t', hrun⟩
    · rw [hrun] at hend
      cases hend
  rcases demo.fill_cases it db with ⟨e', htext, he⟩ | ⟨htext, ⟨hrowid, hstored⟩, he⟩ | ⟨hgo, ⟨e', himages, he⟩ |
    ⟨images, himages, hok⟩⟩
  · rw [he] at hfill
    cases hfill
    have hfails : (HumidorsRepository.add it.1 it.2).Fails db e db :=
      HumidorsRepository.add_fails_of_toString it.1 htext
    exact ⟨_, (HumidorsRepository.add_mirrors it.1 it.2).throws hfails t _⟩
  · rw [he] at hfill
    cases hfill
    have hfails : (HumidorsRepository.add it.1 it.2).Fails db .cantInsert db :=
      HumidorsRepository.add_fails_of_contains it.1 htext hrowid hstored
    exact ⟨_, (HumidorsRepository.add_mirrors it.1 it.2).throws hfails t _⟩
  · rw [he] at hfill
    cases hfill
    obtain ⟨back, hadd⟩ := (HumidorsRepository.add_mirrors it.1 it.2).emits (HumidorsRepository.add_emits it.1 hgo) t
    have hload : (Flow.after (Action.ofExcept
        (demo.humidorImages (it.2.numbered db))) fun images =>
          (addImages StartVars.humidorImagesVar images).flatMapConcat fun _ =>
            Flow.flowOf (it.2.numbered db)).Fails
          (HumidorsRepository.added it.1 it.2 db, t) e (HumidorsRepository.added it.1 it.2 db, t) :=
      Flow.fails_after (Action.run_ofExcept_error _ himages) _
    have hthrows := (hadd.flatMapConcat_fails (g := fun h =>
      Flow.after (Action.ofExcept (demo.humidorImages h)) fun images =>
        (addImages StartVars.humidorImagesVar images).flatMapConcat fun _ => Flow.flowOf h) hload).flatMapConcat
      fun humidor => CigarsRepository.addAllAt StartVars.cigarsVar (demo.cigarsIn humidor) humidor
    exact ⟨_, hthrows _⟩
  · rw [hfill] at hok
    obtain ⟨t₁, back, hopening, -⟩ := opening_emits t href hgo himages
    obtain ⟨s', hrest⟩ := (cigarContent_run demo n _ _ t₁).2 e hok.symm
    refine ⟨back s', ?_⟩
    rw [content_eq, hopening, hrest]
    rfl

end Content

/-! ### All humidors -/

/-- The humidors one after the other are `build`. -/
theorem humidors_run (demo : DemoSet) (n : ℕ) (humidors : List (ℤ × Humidor)) {db : Database} (href : References db)
    (t : StartVars) :
    ∃ t', ((Flow.asFlow humidors).flatMapConcat demo.content (reportBlock n)).run (db, t) =
        ((demo.build humidors db).1.mapError (⟨0, ·⟩), (demo.build humidors db).2, t') ∧
      ((demo.build humidors db).1 = .ok () → Reported n (demo.handled humidors) t t') := by
  induction humidors generalizing db t with
  | nil => exact ⟨t, rfl, fun _ => SameReport.reported ⟨rfl, rfl, rfl⟩⟩
  | cons it humidors ih =>
    have hrun : ((Flow.asFlow (it :: humidors)).flatMapConcat demo.content (reportBlock n)).run (db, t) =
        Script.andThen (fun _ => (Flow.asFlow humidors).flatMapConcat demo.content (reportBlock n))
          ((demo.content it (reportBlock n)).run (db, t)) := Script.run_bind _ _ _
    rw [hrun, build]
    cases hfill : demo.fill it db with
    | error e =>
      obtain ⟨t', herror⟩ := content_run_error t n href hfill
      rw [herror]
      exact ⟨t', rfl, fun h => by cases h⟩
    | ok db' =>
      obtain ⟨t₁, hok, hreported, href'⟩ := content_run_ok t n href hfill
      rw [hok]
      obtain ⟨t₂, hrest, hreported'⟩ := ih href' t₁
      refine ⟨t₂, hrest, fun hend => ?_⟩
      have hall := hreported.trans (hreported' hend)
      rw [handled, List.map_cons, List.sum_cons]
      exact hall

end DemoSet

namespace SqlDelightDatabase

theorem reset_run (db : Database) (t : StartVars) : reset.run (db, t) = (.ok (), db.cleared, t) := rfl

end SqlDelightDatabase

namespace CigarsApplication

theorem launch_run (demo : DemoSet) (db : Database) :
    (launch demo).run (db, .initial true) =
      ((Flow.asFlow demo.humidors).flatMapConcat demo.content (DemoSet.reportBlock demo.cigars.length)).run
        (db.cleared, .initial true) := by
  have hfirst : ((db, StartVars.initial true) : Database × StartVars).2.isFirstStart = true := rfl
  unfold launch
  rw [Script.run_bind, Script.run_read, Script.andThen_ok, if_pos hfirst, Script.run_bind,
    SqlDelightDatabase.reset_run, Script.andThen_ok, DemoSet.createDemoSet_eq]
  exact Script.run_bind _ _ _

/-- The first start of the application empties the tables and fills them humidor by humidor. If a humidor
cannot be filled the start throws and what is left are the humidors before it, each with all that belongs
to it. At the end the preference and the screen say that the demo set is there exactly if as many
cigars were handled as the demo set has, and there is at least one. -/
theorem launch_builds (demo : DemoSet) (db : Database) :
    ∃ t', (launch demo).run (db, .initial true) =
        ((demo.build demo.humidors db.cleared).1.mapError (⟨0, ·⟩), (demo.build demo.humidors db.cleared).2, t') ∧
      ((demo.build demo.humidors db.cleared).1 = .ok () →
        (t'.isFirstStart = false ↔ 0 < demo.cigars.length ∧ demo.cigars.length ≤ demo.handled demo.humidors) ∧
        t'.initialized = !t'.isFirstStart) := by
  have href : References db.cleared := references_empty _ _ _ _
  obtain ⟨t', hrun, hreported⟩ := demo.humidors_run demo.cigars.length demo.humidors href (.initial true)
  rw [launch_run]
  refine ⟨t', hrun, fun hend => ?_⟩
  have hfirst := (hreported hend).isFirstStart
  have hinit := (hreported hend).initialized
  have hcount : (StartVars.initial true).reports.count = 0 := rfl
  rw [hcount, Nat.zero_add] at hfirst hinit
  by_cases hn : 0 < demo.cigars.length ∧ demo.cigars.length ≤ demo.handled demo.humidors
  · rw [if_pos hn] at hfirst hinit
    rw [hfirst, hinit]
    exact ⟨iff_of_true rfl hn, rfl⟩
  · rw [if_neg hn] at hfirst hinit
    rw [hfirst, hinit]
    exact ⟨iff_of_false (by decide) hn, rfl⟩

end CigarsApplication
end Cigars
