import Cigars.Mvvm.EditSession
import Cigars.Mvvm.StockSession
import Cigars.Transition.Shared

/-! The details screen of a stored cigar as a whole: its fields and its list of humidors over one database. What
the user saves and what the requests write reaches both. -/
namespace Cigars
open Coroutine Sql Transition SQLDelightBaseRepository

/-! ### The fields -/

namespace EditSession
variable {s s' : EditSession} {op : Op}

theorem observeObject_db (s : EditSession) : s.observeObject.db = s.db := by
  unfold observeObject
  split_ifs <;> rfl

theorem onCancelEdit_db (s : EditSession) : s.onCancelEdit.db = s.db := by
  unfold onCancelEdit
  split_ifs
  · exact observeObject_db s
  · rfl

theorem onObserved_db (it : Cigar) (s : EditSession) : (onObserved it s).db = s.db := by
  unfold onObserved
  split_ifs <;> rfl

/-- Only saves and the writes of others change the database. -/
theorem Step.db_eq_or (hstep : Step s op s') : s'.db = s.db ∨ op = .write ∨ ∃ now, op = .onSaveEdit now := by
  cases hstep with
  | observeObject => exact Or.inl (observeObject_db s)
  | edit _ => exact Or.inl rfl
  | type _ _ _ => exact Or.inl rfl
  | onCancelEdit _ => exact Or.inl (onCancelEdit_db s)
  | saveStored _ _ _ _ => exact Or.inr (Or.inr ⟨_, rfl⟩)
  | saveNew _ _ _ _ _ _ => exact Or.inr (Or.inr ⟨_, rfl⟩)
  | write _ => exact Or.inr (Or.inl rfl)
  | writeElsewhere _ => exact Or.inr (Or.inl rfl)
  | observer _ _ _ => exact Or.inl rfl
  | delivered _ _ _ => exact Or.inl (onObserved_db _ _)

/-- The screen of a stored cigar with its observer. -/
structure Observed (id : ℤ) (s : EditSession) : Prop where
  rowid : s.rowid = id
  observing : s.observing = true
  observers : ∃ r, s.observers = [r]

theorem Observed.ne_nil {id : ℤ} (h : Observed id s) : s.observers ≠ [] := by
  obtain ⟨r, hr⟩ := h.observers
  rw [hr]
  exact List.cons_ne_nil _ _

theorem Observed.atRest_iff {id : ℤ} (h : Observed id s) : s.AtRest ↔ s.observers = [⟨false, .idle⟩] := by
  obtain ⟨r, hr⟩ := h.observers
  simp [AtRest, Reader.Idle, hr]

theorem Observed.written {id : ℤ} (h : Observed id s) (db' : Database) : Observed id (s.written db') := by
  obtain ⟨r, hr⟩ := h.observers
  exact ⟨h.rowid, h.observing, r.notify, congrArg (List.map Reader.notify) hr⟩

theorem Observed.replaced {id : ℤ} (h : Observed id s) {as bs : List (Reader Cigar)} {r : Reader Cigar}
    (hsplit : s.observers = as ++ r :: bs) (r' : Reader Cigar) :
    Observed id { s with observers := as ++ r' :: bs } := by
  obtain ⟨r₀, hr₀⟩ := h.observers
  rw [hr₀] at hsplit
  obtain ⟨rfl, hbs⟩ | ⟨-, hnil⟩ := List.append_eq_singleton_iff.mp hsplit.symm
  · rw [(List.cons.inj hbs).2]
    exact ⟨h.rowid, h.observing, r', rfl⟩
  · cases hnil

theorem Observed.step {id : ℤ} (h₀ : 0 ≤ id) (h : Observed id s) (hstep : Step s op s') : Observed id s' := by
  cases hstep with
  | observeObject =>
    rw [EditSession.observeObject, if_neg (by simp [h.observing])]
    exact h
  | edit _ => exact ⟨h.rowid, h.observing, h.observers⟩
  | type _ hentity _ => exact ⟨(congrArg Cigar.rowid hentity).trans h.rowid, h.observing, h.observers⟩
  | onCancelEdit _ =>
    rw [EditSession.onCancelEdit, if_neg (by simp [h.observing])]
    exact ⟨h.rowid, h.observing, h.observers⟩
  | @saveStored now db' _ _ _ _ => exact ⟨h.rowid, h.observing, (h.written db').observers⟩
  | saveNew _ _ hneg _ _ _ => exact absurd (h.rowid ▸ h₀) (not_le.mpr hneg)
  | write _ => exact h.written _
  | writeElsewhere _ => exact ⟨h.rowid, h.observing, h.observers⟩
  | observer hsplit _ _ => exact h.replaced hsplit _
  | delivered hsplit _ _ =>
    unfold onObserved
    split_ifs
    · exact h.replaced hsplit _
    · exact ⟨h.rowid, h.observing, (h.replaced hsplit _).observers⟩

/-- A save is the view model's `onSaveEdit`, run to its end. -/
theorem Step.onSaveEdit_run {now : ℤ} (hstep : Step s (.onSaveEdit now) s') :
    (s.vm.onSaveEdit now).run s.db = (.ok (), s'.db) := by
  unfold CigarsDetailsScreenViewModel.onSaveEdit
  cases hstep with
  | saveStored _ _ h₀ hupdate =>
    have hstored : ¬ s.vm.updated.rowid < 0 := not_lt.mpr h₀
    rw [if_neg hstored]
    exact hupdate.drain
  | saveNew _ _ hneg hhumidor _ hadd =>
    have hnew : s.vm.updated.rowid < 0 := hneg
    rw [if_pos hnew, hhumidor]
    exact hadd.completes.drain

end EditSession

/-! ### The screen -/

/-- The fields and the list of one view model. -/
abbrev DetailsScreen : Type := Shared EditSession.db StockSession.db

namespace DetailsScreen

/-- A save and a write of others are writes for the list. -/
def Joint : EditSession.Op → StockSession.Op → Prop
  | .write, .statement | .write, .mark | .write, .write | .onSaveEdit _, .mark | .onSaveEdit _, .write => True
  | _, _ => False

abbrev Op : Type := Shared.Op EditSession.Op StockSession.Op

abbrev Step (cigarId : ℤ) : DetailsScreen → Op → DetailsScreen → Prop :=
  Shared.Step EditSession.Step (StockSession.Step cigarId) Joint

/-- `observe` starts both observers. -/
def opened (cigar : Cigar) (humidor : Option Humidor) (db : Database) : DetailsScreen where
  first := (EditSession.opened cigar humidor db).observeObject
  second := StockSession.opened db
  same := EditSession.observeObject_db _

/-- The user is not editing, no request is running and the observers have nothing left to do. -/
structure Settled (s : DetailsScreen) : Prop where
  editing : s.first.editing = false
  left : s.first.left = false
  fields : s.first.AtRest
  list : s.second.observer.Idle
  running : s.second.running = none

/-- Whatever happens to the fields can happen beside the list. -/
theorem exists_run_of_edit {cigarId : ℤ} {s₀ : DetailsScreen} {steps : List (EditSession × EditSession.Op)}
    {e : EditSession} (run : Run EditSession.Step s₀.first steps e) :
    ∃ trace s, Run (Step cigarId) s₀ trace s ∧ s.first = e ∧ Shared.firstSteps trace = steps := by
  refine Shared.exists_run_of_first ?_ run
  intro s op a hstep
  by_cases hdb : a.db = s.first.db
  · exact ⟨_, _, .first hstep hdb, rfl, rfl⟩
  · let s' : DetailsScreen := ⟨a, { s.second with db := a.db, observer := s.second.observer.notify }, rfl⟩
    have hwrite : StockSession.Step cigarId s.second .write s'.second := .write (Or.inl rfl)
    rcases hstep.db_eq_or with hsame | rfl | ⟨now, rfl⟩
    · exact absurd hsame hdb
    · exact ⟨.both .write .write, s', .both trivial hstep hwrite rfl, rfl, rfl⟩
    · exact ⟨.both (.onSaveEdit now) .write, s', .both trivial hstep hwrite rfl, rfl, rfl⟩

section Runs
variable {cigar : Cigar} {humidor : Option Humidor} {db : Database} (h₀ : 0 ≤ cigar.rowid)
  (hcigar : db.cigarsTable.contains cigar.rowid = true) {trace : List (DetailsScreen × Op)} {s : DetailsScreen}
  (run : Run (Step cigar.rowid) (opened cigar humidor db) trace s)
include run

theorem edit_run : ∃ steps, Run EditSession.Step (EditSession.opened cigar humidor db) steps s.first :=
  ⟨_, (Run.start.next .observeObject).trans (Shared.run_first run)⟩

theorem lists : StockSession.Lists cigar.rowid s.second := StockSession.lists_of_run (Shared.run_second run)

include h₀

theorem observed_of_run : s.first.Observed cigar.rowid := by
  refine (Shared.run_first run).invariant ?_ fun _ _ _ h hstep => h.step h₀ hstep
  change ((EditSession.opened cigar humidor db).observeObject).Observed cigar.rowid
  rw [EditSession.observeObject, if_pos ⟨h₀, rfl⟩]
  exact ⟨rfl, rfl, .start, rfl⟩

include hcigar

/-- However the user, the requests, the observers and all other writers interleave: the fields and the list of a
settled screen are those of one cigar, the one that is stored, but for the cigar inside the entries. -/
theorem stored_of_settled (hs : s.Settled) : ∃ it, s.first.Stored it ∧ s.first.vm.Shows it ∧
    (s.second.humidors.map fun e => .ok { e with cigar := it }) =
      CigarsDetailsScreenViewModel.humidorsQuery cigar.rowid s.first.db ∧
    ∀ e ∈ s.second.humidors, e.cigar.rowid = cigar.rowid := by
  obtain ⟨steps, hedit⟩ := edit_run run
  have hobserved := observed_of_run h₀ run
  obtain ⟨it, hstored, hshows⟩ :=
    EditSession.shows_of_atRest (fun _ => hcigar) hedit hs.left hs.editing hobserved.ne_nil hs.fields
  obtain ⟨row, hrow, hit⟩ := hstored
  rw [hobserved.rowid] at hrow hit
  have hget : s.second.db.getCigar cigar.rowid = .ok it := by
    rw [hit, ← s.same]
    exact getCigar_of_find? hrow
  rw [s.same]
  refine ⟨it, ⟨row, ?_, ?_⟩, hshows, (lists run).of_idle hs.list hget⟩
  · rw [hobserved.rowid]
    exact hrow
  · rw [hobserved.rowid]
    exact hit

end Runs

end DetailsScreen
end Cigars
