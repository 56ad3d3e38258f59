import Cigars.Collections.KeyedSet
import Mathlib.Data.List.Find
import Mathlib.Logic.Function.Basic

/-! Keyed sets that several parties share. Each party replaces one element in steps of its own: it
adds the element, and if the set has one with that key already, it removes that one and adds again.
The others may move between any two of these steps. -/
namespace Collections

namespace KeyedSet
variable {α κ : Type} {key : α → κ} [DecidableEq κ] {s : KeyedSet key} {a x : α} {k : κ}

/-- The element with the key. -/
def lookup (s : KeyedSet key) (k : κ) : Option α := s.elements.find? fun x => decide (key x = k)

theorem lookup_eq_some : s.lookup k = some x ↔ x ∈ s.elements ∧ key x = k := by
  unfold lookup
  constructor
  · intro h
    have hkey := List.find?_some h
    exact ⟨List.mem_of_find?_eq_some h, of_decide_eq_true hkey⟩
  · intro h
    obtain ⟨hx, hkey⟩ := h
    obtain ⟨y, hy⟩ : ∃ y, (s.elements.find? fun x => decide (key x = k)) = some y :=
      Option.isSome_iff_exists.mp (List.find?_isSome.mpr ⟨x, hx, decide_eq_true hkey⟩)
    have hykey := List.find?_some hy
    have hxy : x = y := List.inj_on_of_nodup_map s.keys hx (List.mem_of_find?_eq_some hy)
      (hkey.trans (of_decide_eq_true hykey).symm)
    rw [hy, hxy]

theorem lookup_eq_none : s.lookup k = none ↔ k ∉ s.elements.map key := by
  rw [← not_iff_not, not_not, ← ne_eq, Option.ne_none_iff_exists', List.mem_map]
  exact exists_congr fun x => lookup_eq_some

theorem lookup_remove : (s.remove a).lookup k = if key a = k then none else s.lookup k := by
  by_cases hk : key a = k
  · rw [if_pos hk, lookup_eq_none, ← hk]
    exact key_notMem_remove
  · rw [if_neg hk]
    apply Option.ext
    intro x
    rw [lookup_eq_some, lookup_eq_some, mem_remove, and_assoc]
    refine and_congr_right fun _ => and_iff_right_of_imp fun hx heq => ?_
    exact hk (heq ▸ hx)

theorem lookup_add : (s.add a).2.lookup k = if key a = k then some ((s.lookup k).getD a) else s.lookup k := by
  by_cases hstored : key a ∈ s.elements.map key
  · rw [add_of_stored hstored]
    by_cases hk : key a = k
    · obtain ⟨x, hx⟩ : ∃ x, s.lookup k = some x :=
        Option.ne_none_iff_exists'.mp fun hnone => lookup_eq_none.mp hnone (hk ▸ hstored)
      rw [if_pos hk, hx, Option.getD_some]
    · rw [if_neg hk]
  · have hmem : ∀ x, (s.add a).2.lookup k = some x ↔ (x = a ∨ x ∈ s.elements) ∧ key x = k := fun x => by
      rw [lookup_eq_some, mem_add_of_new hstored]
    by_cases hk : key a = k
    · have hnone : s.lookup k = none := lookup_eq_none.mpr (hk ▸ hstored)
      rw [if_pos hk, hnone, Option.getD_none, hmem]
      exact ⟨Or.inl rfl, hk⟩
    · rw [if_neg hk]
      apply Option.ext
      intro x
      rw [hmem, lookup_eq_some]
      refine and_congr_left fun hx => or_iff_right_of_imp fun hxa => ?_
      exact absurd (hxa ▸ hx) hk

theorem add_fst_eq : (s.add a).1 = (s.lookup (key a)).isNone := by
  apply Bool.eq_iff_iff.mpr
  rw [add_fst, Option.isNone_iff_eq_none, lookup_eq_none]

/-- What a condition on the key leaves of the set. -/
theorem filter_key (s : KeyedSet key) (k : κ) :
    (s.elements.filter fun x => decide (key x = k)) = (s.lookup k).toList := by
  cases hk : s.lookup k with
  | none =>
    refine List.filter_eq_nil_iff.mpr fun x hx hkey => lookup_eq_none.mp hk ?_
    exact List.mem_map.mpr ⟨x, hx, of_decide_eq_true hkey⟩
  | some a =>
    obtain ⟨ha, hkey⟩ := lookup_eq_some.mp hk
    refine filter_eq_singleton s.nodup ha fun x hx => ?_
    rw [decide_eq_true_eq]
    constructor
    · intro hx'
      exact List.inj_on_of_nodup_map s.keys hx ha (hx'.trans hkey.symm)
    · intro hxa
      exact hxa ▸ hkey

end KeyedSet

namespace Replacing
variable {ι υ α κ : Type} {key : α → κ} [DecidableEq ι] [DecidableEq υ] [DecidableEq κ]

/-- The step a party takes next. -/
inductive Phase
  | adding
  | removing
  | readding
  | ended
  deriving DecidableEq

def Phase.next (a : α) (s : KeyedSet key) : Phase → Phase × KeyedSet key
  | adding => (if (s.add a).1 then ended else removing, (s.add a).2)
  | removing => (readding, s.remove a)
  | readding => (ended, (s.add a).2)
  | ended => (ended, s)

/-- What a step does to the element under the key of `a`. -/
inductive CellStep (a : α) : Phase → Option α → Phase → Option α → Prop
  | added : CellStep a .adding none .ended (some a)
  | found (x : α) : CellStep a .adding (some x) .removing (some x)
  | removed (c : Option α) : CellStep a .removing c .readding none
  | readded (c : Option α) : CellStep a .readding c .ended (some (c.getD a))
  | rest (c : Option α) : CellStep a .ended c .ended c

theorem CellStep.ne_adding {a : α} {p p' : Phase} {c c' : Option α} (h : CellStep a p c p' c') : p' ≠ .adding := by
  cases h <;> nofun

theorem CellStep.ended {a : α} {p p' : Phase} {c c' : Option α} (h : CellStep a p c p' c') (hp : p = .ended) :
    p' = .ended := by
  cases h <;> trivial

theorem Phase.cellStep_next (a : α) (s : KeyedSet key) (phase : Phase) :
    CellStep a phase (s.lookup (key a)) (phase.next a s).1 ((phase.next a s).2.lookup (key a)) := by
  cases phase with
  | adding =>
    simp only [next]
    rw [KeyedSet.lookup_add, if_pos rfl, KeyedSet.add_fst_eq]
    cases s.lookup (key a) with
    | none => exact .added
    | some x => exact .found x
  | removing =>
    simp only [next]
    rw [KeyedSet.lookup_remove, if_pos rfl]
    exact .removed _
  | readding =>
    simp only [next]
    rw [KeyedSet.lookup_add, if_pos rfl]
    exact .readded _
  | ended => exact .rest _

theorem Phase.lookup_next {a : α} {k : κ} (hk : key a ≠ k) (s : KeyedSet key) (phase : Phase) :
    (phase.next a s).2.lookup k = s.lookup k := by
  cases phase with
  | adding => exact KeyedSet.lookup_add.trans (if_neg hk)
  | removing => exact KeyedSet.lookup_remove.trans (if_neg hk)
  | readding => exact KeyedSet.lookup_add.trans (if_neg hk)
  | ended => rfl

/-- Where each party stands, and the sets by their addresses. -/
structure System (ι υ : Type) {α κ : Type} (key : α → κ) where
  phases : ι → Phase
  sets : υ → KeyedSet key

namespace System

/-- `calls` has the address and the element of each party. -/
def turn (calls : ι → υ × α) (sys : System ι υ key) (i : ι) : System ι υ key :=
  let next := (sys.phases i).next (calls i).2 (sys.sets (calls i).1)
  ⟨Function.update sys.phases i next.1, Function.update sys.sets (calls i).1 next.2⟩

def run (calls : ι → υ × α) (sys : System ι υ key) (schedule : List ι) : System ι υ key :=
  schedule.foldl (turn calls) sys

omit [DecidableEq ι] [DecidableEq υ] in
/-- The element with the key at the address. -/
def cell (sys : System ι υ key) (u : υ) (k : κ) : Option α := (sys.sets u).lookup k

end System

omit [DecidableEq ι] [DecidableEq υ] [DecidableEq κ] in
/-- The party replaces the element with the key at the address. -/
def Targets (key : α → κ) (calls : ι → υ × α) (u : υ) (k : κ) (i : ι) : Prop :=
  (calls i).1 = u ∧ key (calls i).2 = k

variable {calls : ι → υ × α} {sys start : System ι υ key} {u : υ} {k : κ} {i : ι}

theorem phases_turn_of_ne {j : ι} (hj : j ≠ i) : (sys.turn calls i).phases j = sys.phases j :=
  Function.update_of_ne hj _ _

theorem cellStep_turn (hi : Targets key calls u k i) :
    CellStep (calls i).2 (sys.phases i) (sys.cell u k) ((sys.turn calls i).phases i)
      ((sys.turn calls i).cell u k) := by
  obtain ⟨rfl, rfl⟩ := hi
  unfold System.cell System.turn
  dsimp only
  rw [Function.update_self, Function.update_self]
  exact Phase.cellStep_next _ _ _

theorem cell_turn (hi : ¬Targets key calls u k i) : (sys.turn calls i).cell u k = sys.cell u k := by
  unfold System.cell System.turn
  dsimp only
  by_cases hu : (calls i).1 = u
  · rw [← hu, Function.update_self]
    exact Phase.lookup_next (fun hk => hi ⟨hu, hk⟩) _ _
  · rw [Function.update_of_ne fun heq => hu heq.symm]

theorem phase_turn_ne_adding : (sys.turn calls i).phases i ≠ .adding :=
  (cellStep_turn ⟨rfl, rfl⟩).ne_adding

theorem phase_turn_of_ended (h : sys.phases i = .ended) : (sys.turn calls i).phases i = .ended :=
  (cellStep_turn ⟨rfl, rfl⟩).ended h

theorem phases_run_of_notMem {schedule : List ι} (h : i ∉ schedule) :
    (sys.run calls schedule).phases i = sys.phases i := by
  induction schedule generalizing sys with
  | nil => rfl
  | cons j schedule ih =>
    have hij : i ≠ j := List.ne_of_not_mem_cons h
    exact (ih (List.not_mem_of_not_mem_cons h)).trans (phases_turn_of_ne hij)

/-! ### What a run leaves of the past -/

/-- An element is still the one found at the start, and then no party that had not begun is past
its removal, or it is that of a party that had not ended. -/
def Held (calls : ι → υ × α) (u : υ) (k : κ) (start sys : System ι υ key) (x : α) : Prop :=
  (start.cell u k = some x ∧ ∀ i, Targets key calls u k i → start.phases i = .adding →
    sys.phases i = .adding ∨ sys.phases i = .removing) ∨
  ∃ i, Targets key calls u k i ∧ start.phases i ≠ .ended ∧ x = (calls i).2

/-- `sys` as it can be some steps after `start`. A key without an element is being added again, or
nobody has moved. -/
structure Since (calls : ι → υ × α) (u : υ) (k : κ) (start sys : System ι υ key) : Prop where
  begun : ∀ i, sys.phases i = .adding → start.phases i = .adding
  stopped : ∀ i, start.phases i = .ended → sys.phases i = .ended
  held : ∀ x, sys.cell u k = some x → Held calls u k start sys x
  missing : sys.cell u k = none →
    (∃ i, Targets key calls u k i ∧ sys.phases i = .readding) ∨
    (start.cell u k = none ∧ ∀ i, Targets key calls u k i → sys.phases i = start.phases i)

omit [DecidableEq ι] [DecidableEq υ] in
theorem since_self : Since calls u k start start where
  begun := fun _ h => h
  stopped := fun _ h => h
  held := fun _ hx => .inl ⟨hx, fun _ _ h => .inl h⟩
  missing := fun hnone => .inr ⟨hnone, fun _ _ => rfl⟩

theorem Since.begun_turn (h : Since calls u k start sys) (j : ι)
    (hj : (sys.turn calls i).phases j = .adding) : start.phases j = .adding := by
  by_cases hji : j = i
  · exact absurd (hji ▸ hj) phase_turn_ne_adding
  · rw [phases_turn_of_ne hji] at hj
    exact h.begun j hj

theorem Since.stopped_turn (h : Since calls u k start sys) (j : ι) (hj : start.phases j = .ended) :
    (sys.turn calls i).phases j = .ended := by
  by_cases hji : j = i
  · exact hji ▸ phase_turn_of_ended (hji ▸ h.stopped j hj)
  · rw [phases_turn_of_ne hji]
    exact h.stopped j hj

/-- An element stays as it was found when the party that moves had begun, or finds it. -/
theorem Held.turn {x : α} (h : Held calls u k start sys x)
    (hphase : sys.phases i = .adding ∨ sys.phases i = .removing →
      (sys.turn calls i).phases i = .removing) : Held calls u k start (sys.turn calls i) x := by
  refine h.imp_left fun hold => ⟨hold.1, fun j hj hadding => ?_⟩
  by_cases hji : j = i
  · rw [hji] at hj hadding ⊢
    exact .inr (hphase (hold.2 i hj hadding))
  · rw [phases_turn_of_ne hji]
    exact hold.2 j hj hadding

theorem Since.held_turn (h : Since calls u k start sys) (hi : Targets key calls u k i) (x : α)
    (hx : (sys.turn calls i).cell u k = some x) : Held calls u k start (sys.turn calls i) x := by
  have hstep : CellStep (calls i).2 (sys.phases i) (sys.cell u k) ((sys.turn calls i).phases i)
      ((sys.turn calls i).cell u k) := cellStep_turn hi
  have hown : sys.phases i ≠ .ended → start.phases i ≠ .ended := fun hne heq => hne (h.stopped i heq)
  have hkept := fun hcell => (h.held x hcell).turn (i := i)
  rw [hx] at hstep
  generalize sys.phases i = phase at hstep hown hkept
  generalize (sys.turn calls i).phases i = phase' at hstep hkept
  generalize sys.cell u k = c at hstep hkept
  cases hstep with
  | added => exact .inr ⟨i, hi, hown nofun, rfl⟩
  | found => exact hkept rfl fun _ => rfl
  | readded =>
    cases c with
    | none => exact .inr ⟨i, hi, hown nofun, rfl⟩
    | some y => exact hkept rfl nofun
  | rest => exact hkept rfl nofun

theorem Since.missing_turn (h : Since calls u k start sys) (hi : Targets key calls u k i)
    (hnone : (sys.turn calls i).cell u k = none) :
    (∃ j, Targets key calls u k j ∧ (sys.turn calls i).phases j = .readding) ∨
    (start.cell u k = none ∧ ∀ j, Targets key calls u k j →
      (sys.turn calls i).phases j = start.phases j) := by
  have hstep : CellStep (calls i).2 (sys.phases i) (sys.cell u k) ((sys.turn calls i).phases i)
      ((sys.turn calls i).cell u k) := cellStep_turn hi
  rw [hnone] at hstep
  generalize hphase : sys.phases i = phase at hstep
  generalize hphase' : (sys.turn calls i).phases i = phase' at hstep
  generalize hcell : sys.cell u k = c at hstep
  cases hstep with
  | removed => exact .inl ⟨i, hi, hphase'⟩
  | rest =>
    have hsame : ∀ j, (sys.turn calls i).phases j = sys.phases j := by
      intro j
      by_cases hji : j = i
      · rw [hji, hphase, hphase']
      · exact phases_turn_of_ne hji
    simp only [hsame]
    exact h.missing hcell

theorem Since.turn (h : Since calls u k start sys) (i : ι) : Since calls u k start (sys.turn calls i) := by
  by_cases hi : Targets key calls u k i
  · exact ⟨h.begun_turn, h.stopped_turn, h.held_turn hi, h.missing_turn hi⟩
  · -- Another key is replaced.
    have hphases : ∀ j, Targets key calls u k j → (sys.turn calls i).phases j = sys.phases j :=
      fun j hj => phases_turn_of_ne fun hji => hi (hji ▸ hj)
    refine ⟨h.begun_turn, h.stopped_turn, fun x hx => ?_, fun hnone => ?_⟩
    · rw [cell_turn hi] at hx
      refine (h.held x hx).imp_left fun hold => ⟨hold.1, fun j hj hadding => ?_⟩
      rw [hphases j hj]
      exact hold.2 j hj hadding
    · rw [cell_turn hi] at hnone
      rcases h.missing hnone with ⟨j, hj, hphase⟩ | ⟨hstart, hsame⟩
      · exact .inl ⟨j, hj, (hphases j hj).trans hphase⟩
      · exact .inr ⟨hstart, fun j hj => (hphases j hj).trans (hsame j hj)⟩

theorem Since.run (h : Since calls u k start sys) (schedule : List ι) :
    Since calls u k start (sys.run calls schedule) := by
  induction schedule generalizing sys with
  | nil => exact h
  | cons i schedule ih => exact ih (h.turn i)

omit [DecidableEq ι] [DecidableEq υ] in
/-- When all have ended, a key that a party replaces which had not begun at the start has the
element of a party that had not ended at the start. -/
theorem Since.cell_of_ended (h : Since calls u k start sys) (hended : ∀ i, sys.phases i = .ended)
    (hi : Targets key calls u k i) (hstart : start.phases i = .adding) :
    ∃ j, Targets key calls u k j ∧ start.phases j ≠ .ended ∧ sys.cell u k = some (calls j).2 := by
  cases hcell : sys.cell u k with
  | none =>
    rcases h.missing hcell with ⟨j, -, hj⟩ | ⟨-, hsame⟩
    · rw [hended j] at hj
      cases hj
    · have hphase := hsame i hi
      rw [hended i, hstart] at hphase
      cases hphase
  | some x =>
    rcases h.held x hcell with ⟨-, hold⟩ | ⟨j, hj, hphase, hx⟩
    · rcases hold i hi hstart with hphase | hphase
      · rw [hended i] at hphase
        cases hphase
      · rw [hended i] at hphase
        cases hphase
    · exact ⟨j, hj, hphase, congrArg some hx⟩

theorem cell_run_of_no_target (h : ∀ i, ¬Targets key calls u k i) (schedule : List ι) :
    (sys.run calls schedule).cell u k = sys.cell u k := by
  induction schedule generalizing sys with
  | nil => rfl
  | cons i schedule ih => exact ih.trans (cell_turn (h i))

end Replacing
end Collections
