import Cigars.Application.FirstStart
import Cigars.Collections.Basic
import Cigars.Stock.Totals

/-! Starts of the application that are killed at any point, one after the other. The preference is written
inside the transaction of the humidor whose cigars complete the demo set. -/
namespace Cigars
open Coroutine Sql Transition

/-! ### The preference is only cleared -/

/-- The preference is never set again. -/
def StaysCleared (t t' : StartVars) : Prop := t.isFirstStart = false → t'.isFirstStart = false

theorem staysCleared_refl (t : StartVars) : StaysCleared t t := fun h => h

theorem staysCleared_trans (t₁ t₂ t₃ : StartVars) (h : StaysCleared t₁ t₂) (h' : StaysCleared t₂ t₃) :
    StaysCleared t₁ t₃ := fun hcleared => h' (h hcleared)

namespace SQLDelightBaseRepository
variable {ENTITY : Type} (wrapper : DatabaseQueries ENTITY)

theorem isNew_uncaught (entity : ENTITY) : (isNew wrapper entity).Uncaught := by
  unfold isNew
  split_ifs
  · trivial
  · exact fun _ => trivial

theorem addBeside_along (entity : ENTITY) :
    (addBeside wrapper entity : Flow (Database × StartVars) Exn ENTITY).Along StaysCleared := by
  refine Flow.along_after ((isNew_uncaught wrapper entity).along_beside staysCleared_refl) fun new => ?_
  have hstatement : (Action.statement (wrapper.add entity) : DbAction ℤ).Uncaught := fun _ => trivial
  cases new with
  | true =>
    apply Flow.Along.inTransaction
    refine Flow.along_after (hstatement.along_beside staysCleared_refl) fun id => ?_
    exact Flow.along_after (Action.along_ofExcept _) fun _ => Flow.along_flowOf _
  | false => exact Flow.along_after (Action.along_ofExcept _) fun _ => Flow.along_throwing _

end SQLDelightBaseRepository

theorem HumidorsRepository.addBeside_along (now : ℤ) (entity : Humidor) :
    (addBeside now entity : Flow (Database × StartVars) Exn Humidor).Along StaysCleared := by
  refine (SQLDelightBaseRepository.addBeside_along humidorsTableQueries entity).map fun it => ?_
  exact (SQLDelightBaseRepository.addBeside_along historyTableQueries _).drain.bind fun _ => trivial

theorem CigarsRepository.addBeside_along (now : ℤ) (cigar : Cigar) (humidor : Humidor) :
    (addBeside now cigar humidor : Flow (Database × StartVars) Exn Cigar).Along StaysCleared := by
  refine (SQLDelightBaseRepository.addBeside_along cigarsTableQueries cigar).flatMapConcat fun cigar => ?_
  refine Flow.Along.flatMapConcat (Flow.Along.flatMapConcat (Flow.Along.flatMapConcat ?_ ?_) ?_) ?_
  · exact SQLDelightBaseRepository.addBeside_along cigarHumidorTableQueries _
  · exact fun it => SQLDelightBaseRepository.addBeside_along historyTableQueries _
  · intro it
    have hget : (HumidorsRepository.getSync it.humidorTo.rowid).Uncaught := fun _ => trivial
    refine Flow.along_after (hget.along_beside staysCleared_refl) fun humidorTo => ?_
    have hwrite : (Script.write (HumidorsDatabase.updateCigarsCount (long (humidorTo.count + it.count))
        it.humidorTo.rowid) : DbAction Unit).Uncaught := fun _ => trivial
    exact Flow.along_after (hwrite.along_beside staysCleared_refl) fun _ => Flow.along_flowOf _
  · exact fun _ => Flow.along_flowOf _

namespace DemoSet

theorem addImages_along {v : Variable StartVars (Flow.Collected CigarImage)}
    (hv : ∀ k t, StaysCleared t (v.set k t)) (images : List CigarImage) : (addImages v images).Along StaysCleared := by
  intro emit hemit
  unfold addImages SQLDelightBaseRepository.addAllAt
  dsimp only
  split_ifs
  · exact hemit []
  · refine Flow.Along.collectFirstAt ?_ staysCleared_refl hv _ _ fun _ => hemit []
    exact (Flow.along_asFlow _).flatMapConcat fun it => SQLDelightBaseRepository.addBeside_along imagesTableQueries _

theorem addAllAt_along (cigars : List (ℤ × Cigar)) (humidor : Humidor) :
    (CigarsRepository.addAllAt StartVars.cigarsVar cigars humidor).Along StaysCleared := by
  cases cigars with
  | nil => exact Flow.along_flowOf []
  | cons it cigars =>
    have hadd : ((Flow.asFlow (it :: cigars)).flatMapConcat fun it =>
        CigarsRepository.addBeside it.1 it.2 humidor : Flow (Database × StartVars) Exn Cigar).Along StaysCleared :=
      (Flow.along_asFlow _).flatMapConcat fun it => CigarsRepository.addBeside_along it.1 it.2 humidor
    exact hadd.collectFirstAt staysCleared_refl (v := StartVars.cigarsVar) (fun _ _ h => h) _

theorem content_along (demo : DemoSet) (it : ℤ × Humidor) : (demo.content it).Along StaysCleared := by
  refine Flow.Along.flatMapConcat (Flow.Along.flatMapConcat (Flow.Along.flatMapConcat (Flow.Along.flatMapConcat
    ?_ ?_) ?_) ?_) ?_
  · exact HumidorsRepository.addBeside_along it.1 it.2
  · intro h
    refine Flow.along_after (Action.along_ofExcept _) fun images => ?_
    exact (addImages_along (fun _ _ h => h) images).flatMapConcat fun _ => Flow.along_flowOf h
  · exact fun humidor => addAllAt_along _ humidor
  · exact fun cigars => Flow.along_asFlow cigars
  · exact fun cigar => Flow.along_after (Action.along_ofExcept _) fun images => addImages_along (fun _ _ h => h) images

theorem reportBlock_along (n : ℕ) (value : List CigarImage) : (reportBlock n value).Along StaysCleared := by
  have hset : (Script.write fun s : Database × StartVars =>
      (s.1, StartVars.reportsVar.set ((StartVars.reportsVar.get s.2).push value) s.2) :
      Action (Database × StartVars) Exn Unit).Along StaysCleared := Script.along_write fun _ h => h
  refine hset.bind fun _ => (Script.along_read _ staysCleared_refl).bind fun collected => ?_
  split_ifs
  · have hfirst : (Script.write fun s : Database × StartVars => (s.1, { s.2 with isFirstStart := false }) :
        Action (Database × StartVars) Exn Unit).Along StaysCleared := Script.along_write fun _ _ => rfl
    have hshown : (Script.write fun s : Database × StartVars => (s.1, { s.2 with initialized := true }) :
        Action (Database × StartVars) Exn Unit).Along StaysCleared := Script.along_write fun _ h => h
    exact hfirst.bind fun _ => hshown
  · trivial

/-! ### A demo set that can be built -/

/-- The texts are long enough for the log, the humidors are new and empty, the cigars' counts are of type
`Long`, and every image is there. -/
structure Complete (demo : DemoSet) : Prop where
  new : ∀ it ∈ demo.humidors, it.2.rowid < 0
  text : ∀ it ∈ demo.humidors, it.2.TextsReachTen
  empty : ∀ it ∈ demo.humidors, it.2.count = 0
  counts : ∀ cigar ∈ demo.cigars, IsLong cigar.count
  image : ∀ image ∈ demo.images, ∃ notes bytes, image.notes = some notes ∧ demo.imageData notes = .ok (some bytes)

variable {demo : DemoSet}

section Complete
variable (hdemo : demo.Complete)
include hdemo

theorem Complete.copies (place : CigarImage → CigarImage) (p : CigarImage → Bool) :
    ∃ images, (demo.images.filter p).mapM (demo.copy place) = .ok images := by
  refine Collections.exists_mapM_ok fun it hit => ?_
  obtain ⟨notes, bytes, hnotes, hdata⟩ := hdemo.image it (List.mem_of_mem_filter hit)
  refine ⟨{ place it with rowid := -1, bytes, notes := none }, ?_⟩
  rw [copy, hnotes]
  simp only [notNull, bind, Except.bind, hdata]
  rfl

theorem Complete.addCigarImages (cigars : List Cigar) (db : Database) :
    ∃ db', demo.addCigarImages cigars db = .ok db' := by
  induction cigars generalizing db with
  | nil => exact ⟨db, rfl⟩
  | cons cigar cigars ih =>
    obtain ⟨images, himages⟩ := hdemo.copies (fun it => { it with cigarId := some cigar.rowid })
      fun it => it.cigarId = cigar.myrating
    obtain ⟨db', hrest⟩ := ih (db.addImages images)
    refine ⟨db', ?_⟩
    rw [DemoSet.addCigarImages, cigarImages, himages]
    exact hrest

theorem Complete.fill {it : ℤ × Humidor} (hit : it ∈ demo.humidors) (db : Database) :
    ∃ db', demo.fill it db = .ok db' := by
  have htext := (Humidor.toString_eq_ok_iff it.2).mpr (hdemo.text it hit)
  rcases demo.fill_cases it db with ⟨e, he, -⟩ | ⟨-, ⟨hrowid, -⟩, -⟩ | ⟨-, ⟨e, himages, -⟩ | ⟨images, -, hfill⟩⟩
  · rw [htext] at he
    cases he
  · have hnew := hdemo.new it hit
    omega
  · obtain ⟨images, hok⟩ := hdemo.copies (fun i => { i with humidorId := some (it.2.numbered db).rowid })
      fun i => i.humidorId = (it.2.numbered db).other
    rw [humidorImages, hok] at himages
    cases himages
  · rw [hfill]
    exact hdemo.addCigarImages _ _

end Complete

theorem build_append (demo : DemoSet) {done : List (ℤ × Humidor)} {db db₁ : Database}
    (hdone : demo.build done db = (.ok (), db₁)) (rest : List (ℤ × Humidor)) :
    demo.build (done ++ rest) db = demo.build rest db₁ := by
  induction done generalizing db with
  | nil =>
    cases hdone
    rfl
  | cons it done ih =>
    rw [List.cons_append, build]
    rw [build] at hdone
    cases hfill : demo.fill it db with
    | error e =>
      rw [hfill] at hdone
      cases hdone
    | ok db' =>
      rw [hfill] at hdone
      exact ih hdone

theorem handled_append (demo : DemoSet) (xs ys : List (ℤ × Humidor)) :
    demo.handled (xs ++ ys) = demo.handled xs + demo.handled ys := by
  simp [handled]

theorem cigarsIn_of_handled {humidors : List (ℤ × Humidor)} (hnone : demo.handled humidors = 0) :
    ∀ it ∈ humidors, demo.cigarsIn it.2 = [] := by
  induction humidors with
  | nil => simp
  | cons it humidors ih =>
    rw [handled, List.map_cons, List.sum_cons] at hnone
    have hrest : demo.handled humidors = 0 := Nat.eq_zero_of_add_eq_zero_left hnone
    rw [List.forall_mem_cons]
    exact ⟨List.length_eq_zero_iff.mp (Nat.eq_zero_of_add_eq_zero_right hnone), ih hrest⟩

/-! ### The totals of what is built -/

/-- The rows name stored humidors and cigars, all counts are of type `Long`, and all totals are right. -/
structure Balanced (db : Database) : Prop where
  invariant : StockInvariant db
  humidors : ∀ h, db.humidorExcess h = 0
  cigars : ∀ c, (db.cigarTotal c : Residue) = db.cigarSum c

theorem balanced_outcome {db : Database} (h : Balanced db) (op : StockOp) (legal : op.Legal db)
    (hgo : op.GoesThrough db) (hhumidors : op.KeepsHumidorTotals) (hcigars : op.KeepsCigarTotals db) :
    Balanced (op.outcome db) where
  invariant := ⟨references_outcome h.invariant.references hgo,
    longCounts_outcome h.invariant.counts (legal.hasLongs h.invariant.counts)⟩
  humidors id := by
    rw [StockOp.humidorExcess_outcome legal hgo, h.humidors,
      (StockOp.keepsHumidorTotals_iff h.invariant.counts legal).mp hhumidors, add_zero]
  cigars := (StockOp.cigarTotals_outcome_iff legal hgo h.cigars).mpr hcigars

theorem balanced_addImages {db : Database} (h : Balanced db) (images : List CigarImage) :
    Balanced (db.addImages images) := by
  induction images generalizing db with
  | nil => exact h
  | cons image images ih =>
    obtain ⟨references, counts⟩ := h.invariant
    exact ih ⟨⟨⟨references.stock, references.history⟩, ⟨counts.stock, counts.humidors, counts.cigars⟩⟩, h.humidors,
      h.cigars⟩

theorem balanced_addCigars {humidor : Humidor} (htext : humidor.toString = .ok ()) {batch : List (ℤ × Cigar)}
    (hnew : ∀ it ∈ batch, it.2.rowid < 0) (hcounts : ∀ it ∈ batch, IsLong it.2.count) {db : Database}
    (h : Balanced db) (htarget : db.humidorsTable.contains humidor.rowid = true) :
    Balanced (addCigars humidor batch db).2 := by
  induction batch generalizing db with
  | nil => exact h
  | cons it batch ih =>
    have hit := hnew it List.mem_cons_self
    have hready : Ready humidor db := ⟨h.invariant.references, htarget⟩
    have hgo := hready.goesThrough htext hit
    have hadded : Balanced (CigarsRepository.added it.1 it.2 humidor db) :=
      balanced_outcome h (.addCigar it.1 it.2 humidor) ⟨⟨hgo.new, hgo.target⟩, hcounts it List.mem_cons_self⟩ hgo
        trivial trivial
    exact ih (fun it hit => hnew it (List.mem_cons_of_mem _ hit))
      (fun it hit => hcounts it (List.mem_cons_of_mem _ hit)) hadded (hready.added htext it.1 hit).target

theorem isLong_of_cigarsIn (hcounts : ∀ cigar ∈ demo.cigars, IsLong cigar.count) (humidor : Humidor) :
    ∀ it ∈ demo.cigarsIn humidor, IsLong it.2.count := by
  intro it hit
  obtain ⟨⟨cigar, i⟩, hmem, rfl⟩ := List.mem_map.mp hit
  obtain ⟨c, hc, rfl⟩ := List.mem_map.mp (List.fst_mem_of_mem_zipIdx hmem)
  exact hcounts c (List.mem_of_mem_filter hc)

theorem balanced_addCigarImages {cigars : List Cigar} {db db' : Database} (h : Balanced db)
    (himages : demo.addCigarImages cigars db = .ok db') : Balanced db' := by
  induction cigars generalizing db with
  | nil =>
    cases himages
    exact h
  | cons cigar cigars ih =>
    rw [addCigarImages] at himages
    cases hload : demo.cigarImages cigar with
    | error e =>
      rw [hload] at himages
      cases himages
    | ok images =>
      rw [hload] at himages
      exact ih (balanced_addImages h images) himages

theorem balanced_fill (hcounts : ∀ cigar ∈ demo.cigars, IsLong cigar.count) {it : ℤ × Humidor} {db db' : Database}
    (h : Balanced db) (hzero : it.2.count = 0) (hfill : demo.fill it db = .ok db') : Balanced db' := by
  rcases demo.fill_cases it db with ⟨e, -, he⟩ | ⟨-, -, he⟩ | ⟨hgo, ⟨e, -, he⟩ | ⟨images, -, hok⟩⟩
  · rw [he] at hfill
    cases hfill
  · rw [he] at hfill
    cases hfill
  · rw [he] at hfill
    cases hfill
  · have hhumidor : Balanced (HumidorsRepository.added it.1 it.2 db) :=
      balanced_outcome h (.addHumidor it.1 it.2) (by rw [StockOp.Legal, hzero]; exact isLong_zero) hgo hzero trivial
    have htext : (it.2.numbered db).toString = .ok () := hgo.text
    have hcontent : Balanced (demo.addContent it images db).2 :=
      balanced_addCigars htext (rowid_of_cigarsIn demo _) (isLong_of_cigarsIn hcounts _)
        (balanced_addImages hhumidor images) (ready_added it h.invariant.references images).target
    rw [hok] at hfill
    exact balanced_addCigarImages hcontent hfill

theorem balanced_cleared (db : Database) : Balanced db.cleared :=
  ⟨stockInvariant_empty _ _ _ _, fun _ => sub_self _, fun _ => rfl⟩

/-- The humidors of a complete demo set are built, and the totals are right then. -/
theorem Complete.build_spec (hdemo : demo.Complete) {humidors : List (ℤ × Humidor)}
    (hsub : ∀ it ∈ humidors, it ∈ demo.humidors) {db : Database} (h : Balanced db) :
    ∃ db', demo.build humidors db = (.ok (), db') ∧ Balanced db' := by
  induction humidors generalizing db with
  | nil => exact ⟨db, rfl, h⟩
  | cons it humidors ih =>
    have hit := hsub it List.mem_cons_self
    obtain ⟨db₁, hfill⟩ := hdemo.fill hit db
    obtain ⟨db', hrest, hbalanced⟩ := ih (fun x hx => hsub x (List.mem_cons_of_mem _ hx))
      (balanced_fill hdemo.counts h (hdemo.empty it hit) hfill)
    refine ⟨db', ?_, hbalanced⟩
    rw [build, hfill]
    exact hrest

end DemoSet

/-! ### One start -/

namespace CigarsApplication
variable {demo : DemoSet}

/-- The humidors up to some point, built on emptied tables. With the next one all cigars of the demo set
are handled. -/
def Left (demo : DemoSet) (used db' : Database) : Prop :=
  ∃ done rest, demo.humidors = done ++ rest ∧ demo.build done used.cleared = (.ok (), db') ∧
    demo.cigars.length ≤ demo.handled (done ++ rest.take 1)

theorem reset_stops {s s' : Database × StartVars} (h : SqlDelightDatabase.reset.Stops s s') : s'.2 = s.2 := by
  have halong : SqlDelightDatabase.reset.Along Eq := by
    unfold SqlDelightDatabase.reset
    refine Script.Along.bind (Script.along_write fun _ => rfl) fun _ => ?_
    refine Script.Along.bind (Script.along_write fun _ => rfl) fun _ => ?_
    refine Script.Along.bind (Script.along_write fun _ => rfl) fun _ => ?_
    refine Script.Along.bind (Script.along_write fun _ => rfl) fun _ => ?_
    exact Script.along_write fun _ => rfl
  have hrun : SqlDelightDatabase.reset.run s = (.ok (), s.1.cleared, s.2) := SqlDelightDatabase.reset_run s.1 s.2
  have hend := halong.of_stops (fun _ => rfl) (fun _ _ _ => Eq.trans) h hrun
  exact hend

/-- Wherever the flows of the humidors stop: if the preference is cleared, the tables are `Left`. -/
theorem humidors_stop (hdemo : demo.Complete) (used : Database) {s' : Database × StartVars}
    (hstops : ((Flow.asFlow demo.humidors).flatMapConcat demo.content
      (DemoSet.reportBlock demo.cigars.length)).Stops (used.cleared, .initial true) s')
    (hcleared : s'.2.isFirstStart = false) : Left demo used s'.1 := by
  obtain ⟨done, rest, s₁, hsplit, hrun, hwhere⟩ := Flow.stops_asFlow hstops
  have hsub : ∀ it ∈ done, it ∈ demo.humidors := fun it hit => hsplit ▸ List.mem_append_left rest hit
  obtain ⟨db₁, hbuild, hbalanced⟩ := hdemo.build_spec hsub (DemoSet.balanced_cleared used)
  obtain ⟨t₁, hdone, hreported⟩ := demo.humidors_run demo.cigars.length done
    (DemoSet.balanced_cleared used).invariant.references (.initial true)
  rw [hbuild] at hdone hreported
  have hs₁ : s₁ = (db₁, t₁) := (Prod.mk.inj (hrun.symm.trans hdone)).2
  subst hs₁
  have hreported := hreported rfl
  have hcount : t₁.reports.count = demo.handled done := hreported.count.trans (Nat.zero_add _)
  -- Before the next humidor the preference is cleared only if all cigars have been handled.
  have hbefore : t₁.isFirstStart = false → demo.cigars.length ≤ demo.handled done := by
    intro hfalse
    have hfirst := hreported.isFirstStart
    rw [hfalse] at hfirst
    by_contra hmore
    rw [if_neg fun h => hmore (h.2.trans_eq (Nat.zero_add _))] at hfirst
    cases hfirst
  rcases hwhere with rfl | ⟨it, rest', rfl, hit⟩
  · refine ⟨done, rest, hsplit, hbuild, ?_⟩
    rw [demo.handled_append]
    have := hbefore hcleared
    omega
  · have hmem : it ∈ demo.humidors := hsplit ▸ List.mem_append_right done List.mem_cons_self
    obtain ⟨db₂, hfill⟩ := hdemo.fill hmem db₁
    obtain ⟨t₂, hcontent, hreported₂, -⟩ :=
      DemoSet.content_run_ok t₁ demo.cigars.length hbalanced.invariant.references hfill
    have hhandled : demo.handled (done ++ [it]) = demo.handled done + (demo.cigarsIn it.2).length := by
      rw [demo.handled_append]
      rfl
    have hafter : t₂.isFirstStart = false → demo.cigars.length ≤ demo.handled (done ++ [it]) := by
      intro hfalse
      have hfirst := hreported₂.isFirstStart
      rw [hfalse, hcount] at hfirst
      rw [hhandled]
      by_contra hmore
      rw [if_neg fun h => hmore h.2] at hfirst
      have := hbefore hfirst.symm
      omega
    rcases demo.content_allOrNothing it _ _ _ hit with hsame | hend
    · have halong := demo.content_along it _ (DemoSet.reportBlock_along demo.cigars.length)
      have hmove := halong.of_stops staysCleared_refl staysCleared_trans hit hcontent
      rw [hsame]
      exact ⟨done, it :: rest', hsplit, hbuild, hafter (hmove hcleared)⟩
    · obtain ⟨-, rfl⟩ := Prod.mk.inj (hend.symm.trans hcontent)
      refine ⟨done ++ [it], rest', ?_, ?_, ?_⟩
      · rw [hsplit, List.append_assoc]
        rfl
      · rw [demo.build_append hbuild, DemoSet.build, hfill]
        rfl
      · have := hafter hcleared
        rw [demo.handled_append]
        omega

theorem launch_stops (hdemo : demo.Complete) (used : Database) {s' : Database × StartVars}
    (hstops : (launch demo).Stops (used, .initial true) s') (hcleared : s'.2.isFirstStart = false) :
    Left demo used s'.1 := by
  have hfirst : ((used, StartVars.initial true) : Database × StartVars).2.isFirstStart = true := rfl
  rcases (Script.stops_bind_iff _ _ _ _).mp hstops with hread | ⟨b, s₁, hread, hstops₁⟩
  · rcases hread with rfl | ⟨b, s₁, hread, rfl⟩
    · cases hcleared
    · cases hread
      cases hcleared
  · rw [Script.run_read] at hread
    cases hread
    rw [if_pos hfirst] at hstops₁
    rcases (Script.stops_bind_iff _ _ _ _).mp hstops₁ with hreset | ⟨u, s₂, hreset, hdemoSet⟩
    · rw [reset_stops hreset] at hcleared
      cases hcleared
    · rw [SqlDelightDatabase.reset_run] at hreset
      cases hreset
      rw [DemoSet.createDemoSet_eq] at hdemoSet
      rcases (Script.stops_bind_iff _ _ _ _).mp hdemoSet with hstart | ⟨u, s₃, hstart, hhumidors⟩
      · rcases hstart with rfl | ⟨u, s₃, hstart, rfl⟩
        · cases hcleared
        · cases hstart
          cases hcleared
      · cases hstart
        exact humidors_stop hdemo used hhumidors hcleared

/-- A later start touches nothing that is kept. -/
theorem launch_stops_of_cleared (demo : DemoSet) {db : Database} {s' : Database × StartVars}
    (hstops : (launch demo).Stops (db, .initial false) s') : s'.1 = db ∧ s'.2.isFirstStart = false := by
  have hfirst : ¬ ((db, StartVars.initial false) : Database × StartVars).2.isFirstStart = true :=
    Bool.false_ne_true
  rcases (Script.stops_bind_iff _ _ _ _).mp hstops with hread | ⟨b, s₁, hread, hstops₁⟩
  · rcases hread with rfl | ⟨b, s₁, hread, rfl⟩
    · exact ⟨rfl, rfl⟩
    · cases hread
      exact ⟨rfl, rfl⟩
  · rw [Script.run_read] at hread
    cases hread
    rw [if_neg hfirst] at hstops₁
    rcases hstops₁ with rfl | ⟨u, s₁, hwrite, rfl⟩
    · exact ⟨rfl, rfl⟩
    · cases hwrite
      exact ⟨rfl, rfl⟩

/-! ### Any number of starts -/

/-- A start from the tables and the preference as they were left, up to where it is stopped. -/
def Start (demo : DemoSet) (s : Database × Bool) (_ : Unit) (s' : Database × Bool) : Prop :=
  ∃ t, (launch demo).Stops (s.1, .initial s.2) (s'.1, t) ∧ s'.2 = t.isFirstStart

/-- However often the application is started and stopped: once the preference is cleared, the tables hold one
demo set and nothing else. All totals are right in it, and at most the humidor that completes the demo set is
missing, with those behind it, which have no cigars. -/
theorem starts_leave_demoSet (hdemo : demo.Complete) (hall : demo.handled demo.humidors = demo.cigars.length)
    (db : Database) {trace : List ((Database × Bool) × Unit)} {s : Database × Bool}
    (run : Run (Start demo) (db, true) trace s) (hcleared : s.2 = false) :
    ∃ used done rest, demo.humidors = done ++ rest ∧ demo.build done (Database.cleared used) = (.ok (), s.1) ∧
      (∀ it ∈ rest.tail, demo.cigarsIn it.2 = []) ∧
      References s.1 ∧ HumidorTotalsMatch s.1 ∧ CigarTotalsMatch s.1 := by
  have hleft : s.2 = false → ∃ used, Left demo used s.1 := by
    refine run.invariant (P := fun s => s.2 = false → ∃ used, Left demo used s.1) (fun h => by cases h) ?_
    rintro ⟨db, isFirstStart⟩ op s' ih ⟨t, hstops, hflag⟩ hfalse
    cases isFirstStart with
    | true => exact ⟨db, launch_stops hdemo db hstops (hflag.symm.trans hfalse)⟩
    | false =>
      obtain ⟨hdb, -⟩ := launch_stops_of_cleared demo hstops
      rw [hdb]
      exact ih rfl
  obtain ⟨used, done, rest, hsplit, hbuild, hhandled⟩ := hleft hcleared
  have hsub : ∀ it ∈ done, it ∈ demo.humidors := fun it hit => hsplit ▸ List.mem_append_left rest hit
  obtain ⟨db', hbuild', hbalanced⟩ := hdemo.build_spec hsub (DemoSet.balanced_cleared used)
  obtain ⟨-, rfl⟩ := Prod.mk.inj (hbuild.symm.trans hbuild')
  refine ⟨used, done, rest, hsplit, hbuild, ?_, hbalanced.invariant.references,
    (humidorTotalsMatch_iff hbalanced.invariant).mpr hbalanced.humidors,
    (cigarTotalsMatch_iff hbalanced.invariant).mpr hbalanced.cigars⟩
  have htail : demo.handled rest.tail = 0 := by
    have hsum : demo.handled (done ++ rest.take 1) + demo.handled rest.tail = demo.handled demo.humidors := by
      rw [hsplit, ← demo.handled_append, List.append_assoc, ← List.drop_one, List.take_append_drop]
    omega
  exact DemoSet.cigarsIn_of_handled htail

/-- Two humidors, the second with a cigar that has an image. -/
def smallDemoSet : DemoSet where
  humidors := [(0, { emptyHumidor with other := some 0 }), (0, { emptyHumidor with other := some 1 })]
  cigars := [{ emptyCigar with count := 10, myrating := some 0, other := some 1 }]
  images := [{ rowid := 0, bytes := [], notes := some "top_1_cigar", cigarId := some 0, humidorId := some (-1) }]
  clock _ _ := 0
  imageData _ := .ok (some [1])

theorem smallDemoSet_complete : smallDemoSet.Complete where
  new := by decide
  text := by
    intro it hit
    rw [← Humidor.toString_eq_ok_iff]
    revert it
    decide
  empty := by decide
  counts := by decide
  image := by
    intro image hit
    cases List.mem_singleton.mp hit
    exact ⟨_, _, rfl, rfl⟩

theorem starts_leave_demoSet_small : ∃ db', Run (Start smallDemoSet) (Database.empty 0 0 0 0, true)
      [((Database.empty 0 0 0 0, true), ())] (db', false) ∧
    ∃ used done rest, smallDemoSet.humidors = done ++ rest ∧
      smallDemoSet.build done (Database.cleared used) = (.ok (), db') ∧
      (∀ it ∈ rest.tail, smallDemoSet.cigarsIn it.2 = []) ∧
      References db' ∧ HumidorTotalsMatch db' ∧ CigarTotalsMatch db' := by
  have hrun : (launch smallDemoSet).run (Database.empty 0 0 0 0, .initial true) = (.ok (), _, _) := rfl
  have hstart : Start smallDemoSet (Database.empty 0 0 0 0, true) () (_, false) :=
    ⟨_, Script.stops_of_run hrun, rfl⟩
  have run := Run.start.next hstart
  exact ⟨_, run, starts_leave_demoSet smallDemoSet_complete rfl _ run rfl⟩

/-! ### The one gap -/

/-- The first humidor with which `n` cigars are handled. -/
theorem exists_completing (demo : DemoSet) (n c : ℕ) (humidors : List (ℤ × Humidor)) (hc : c < n)
    (hn : n ≤ c + demo.handled humidors) :
    ∃ done it rest, humidors = done ++ it :: rest ∧ c + demo.handled done < n ∧
      n ≤ c + demo.handled done + (demo.cigarsIn it.2).length := by
  induction humidors generalizing c with
  | nil =>
    have hzero : demo.handled [] = 0 := rfl
    omega
  | cons it humidors ih =>
    have hcons : demo.handled (it :: humidors) = (demo.cigarsIn it.2).length + demo.handled humidors := by
      rw [DemoSet.handled, List.map_cons, List.sum_cons]
      rfl
    by_cases hit : n ≤ c + (demo.cigarsIn it.2).length
    · exact ⟨[], it, humidors, rfl, hc, hit⟩
    · obtain ⟨done, it', rest, rfl, hless, hreach⟩ := ih (c + (demo.cigarsIn it.2).length) (by omega) (by omega)
      have hdone : demo.handled (it :: done) = (demo.cigarsIn it.2).length + demo.handled done := by
        rw [DemoSet.handled, List.map_cons, List.sum_cons]
        rfl
      refine ⟨it :: done, it', rest, rfl, ?_, ?_⟩
      · omega
      · omega

theorem content_commitsLast (demo : DemoSet) {it : ℤ × Humidor} (hnew : it.2.rowid < 0) (s : Database × StartVars) :
    (demo.content it).CommitsLast s := by
  have hisNew : (SQLDelightBaseRepository.isNew humidorsTableQueries it.2).beside.run s = (.ok true, s) := by
    have hmirror : (SQLDelightBaseRepository.isNew humidorsTableQueries it.2).beside.run (s.1, s.2) = _ :=
      Script.mirrors_beside _ s.1 s.2
    rw [SQLDelightBaseRepository.isNew_of_neg humidorsTableQueries hnew] at hmirror
    exact hmirror
  have hadd : (SQLDelightBaseRepository.addBeside humidorsTableQueries it.2 :
      Flow (Database × StartVars) Exn Humidor).CommitsLast s :=
    Flow.CommitsLast.after hisNew (Flow.commitsLast_inTransaction _ s)
  exact ((((hadd.map _).flatMapConcat _).flatMapConcat _).flatMapConcat _).flatMapConcat _

/-- From every database there is a point at which a kill leaves the preference cleared and a humidor with
cigars missing, and no later start brings it back. -/
theorem launch_loses_humidor (hdemo : demo.Complete) (hall : demo.handled demo.humidors = demo.cigars.length)
    (hsome : demo.cigars ≠ []) (db : Database) :
    ∃ lost, Start demo (db, true) () (lost, false) ∧
      (∃ done it rest, demo.humidors = done ++ it :: rest ∧ demo.cigarsIn it.2 ≠ [] ∧
        demo.build done db.cleared = (.ok (), lost)) ∧
      ∀ trace s, Run (Start demo) (lost, false) trace s → s = (lost, false) := by
  have hpos : 0 < demo.cigars.length := List.length_pos_of_ne_nil hsome
  obtain ⟨done, it, rest, hsplit, hless, hreach⟩ := exists_completing demo demo.cigars.length 0 demo.humidors hpos
    (by omega)
  have hsub : ∀ it ∈ done, it ∈ demo.humidors := fun it hit => hsplit ▸ List.mem_append_left _ hit
  have hmem : it ∈ demo.humidors := hsplit ▸ List.mem_append_right done List.mem_cons_self
  obtain ⟨db₁, hbuild, hbalanced⟩ := hdemo.build_spec hsub (DemoSet.balanced_cleared db)
  obtain ⟨t₁, hdone, hreported⟩ := demo.humidors_run demo.cigars.length done
    (DemoSet.balanced_cleared db).invariant.references (.initial true)
  rw [hbuild] at hdone hreported
  have hcount : t₁.reports.count = 0 + demo.handled done := (hreported rfl).count
  obtain ⟨db₂, hfill⟩ := hdemo.fill hmem db₁
  obtain ⟨t₂, hcontent, hreported₂, -⟩ :=
    DemoSet.content_run_ok t₁ demo.cigars.length hbalanced.invariant.references hfill
  have hcleared : t₂.isFirstStart = false := by
    rw [hreported₂.isFirstStart, hcount]
    exact if_pos ⟨hless, hreach⟩
  -- The kill comes when the content is written and its transaction is not yet committed.
  have hlast := content_commitsLast demo (hdemo.new it hmem) (db₁, t₁) _ _ hcontent
  have hhumidors := Flow.stops_asFlow_append rest hdone hlast
  rw [← hsplit] at hhumidors
  refine ⟨db₁, ⟨t₂, ?_, hcleared.symm⟩, ⟨done, it, rest, hsplit, ?_, hbuild⟩, ?_⟩
  · refine (Script.stops_bind_iff _ _ _ _).mpr (Or.inr ⟨true, (db, .initial true), rfl, ?_⟩)
    rw [if_pos rfl]
    refine (Script.stops_bind_iff _ _ _ _).mpr (Or.inr ⟨(), _, SqlDelightDatabase.reset_run _ _, ?_⟩)
    exact (Script.stops_bind_iff _ _ _ _).mpr (Or.inr ⟨(), _, rfl, hhumidors⟩)
  · intro hnone
    rw [hnone, List.length_nil] at hreach
    omega
  · intro trace s run
    refine run.invariant (P := fun s => s = (db₁, false)) rfl ?_
    rintro s op ⟨db', isFirstStart⟩ rfl ⟨t, hstops, hflag⟩
    obtain ⟨hdb, hfalse⟩ := launch_stops_of_cleared demo hstops
    rw [Prod.mk.injEq]
    exact ⟨hdb, hflag.trans hfalse⟩

theorem launch_loses_humidor_small : ∃ lost, Start smallDemoSet (Database.empty 0 0 0 0, true) () (lost, false) ∧
    (∃ done it rest, smallDemoSet.humidors = done ++ it :: rest ∧ smallDemoSet.cigarsIn it.2 ≠ [] ∧
      smallDemoSet.build done (Database.empty 0 0 0 0).cleared = (.ok (), lost)) ∧
    ∀ trace s, Run (Start smallDemoSet) (lost, false) trace s → s = (lost, false) :=
  launch_loses_humidor smallDemoSet_complete rfl (by decide) (Database.empty 0 0 0 0)

end CigarsApplication
end Cigars
