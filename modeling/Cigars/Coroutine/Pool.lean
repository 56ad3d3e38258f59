import Cigars.Coroutine.Locality
import Mathlib.Algebra.BigOperators.Group.Finset.Basic
import Mathlib.Data.Fintype.BigOperators

/-! Any number of programs on one state, step by step in any order. If each is local to cells of its
own, all orders end alike: each program finds its cells as if it ran alone. -/
namespace Coroutine

/-- Programs side by side and the state they share. -/
structure Pool (ι σ ε α : Type) where
  programs : ι → Script σ ε α
  state : σ

namespace Pool
variable {ι σ ε κ M α : Type} [DecidableEq ι]

/-- One program takes a step; one that has ended lets its turn pass. -/
def turn (pool : Pool ι σ ε α) (i : ι) : Pool ι σ ε α :=
  match (pool.programs i).step pool.state with
  | some (p, s) => ⟨Function.update pool.programs i p, s⟩
  | none => pool

def run (pool : Pool ι σ ε α) (schedule : List ι) : Pool ι σ ε α := schedule.foldl turn pool

omit [DecidableEq ι] in
def Ended (pool : Pool ι σ ε α) : Prop := ∀ i, ∃ r, pool.programs i = Script.liftExcept r

/-- The programs one after the other. -/
def serial (programs : ι → Script σ ε α) (order : List ι) (s : σ) : σ :=
  order.foldl (fun s i => ((programs i).run s).2) s

theorem turn_of_step {pool : Pool ι σ ε α} {i : ι} {p : Script σ ε α} {s : σ}
    (h : (pool.programs i).step pool.state = some (p, s)) :
    pool.turn i = ⟨Function.update pool.programs i p, s⟩ := by
  unfold turn
  rw [h]

theorem turn_of_ended {pool : Pool ι σ ε α} {i : ι} (h : (pool.programs i).step pool.state = none) :
    pool.turn i = pool := by
  unfold turn
  rw [h]

theorem run_append (pool : Pool ι σ ε α) (schedule schedule' : List ι) :
    pool.run (schedule ++ schedule') = (pool.run schedule).run schedule' := List.foldl_append

/-! ### What every step keeps -/

theorem turn_keeps {P : σ → Prop} {pool : Pool ι σ ε α} (h : ∀ i, (pool.programs i).Keeps P fun _ => True) (i : ι) :
    (P pool.state → P (pool.turn i).state) ∧ ∀ j, ((pool.turn i).programs j).Keeps P fun _ => True := by
  cases hstep : (pool.programs i).step pool.state with
  | none =>
    rw [turn_of_ended hstep]
    exact ⟨id, h⟩
  | some r =>
    obtain ⟨hP, hrest⟩ := (h i).step hstep
    rw [turn_of_step hstep]
    refine ⟨hP, fun j => ?_⟩
    by_cases hji : j = i
    · rw [hji]
      dsimp only
      rw [Function.update_self]
      exact hrest
    · dsimp only
      rw [Function.update_of_ne hji]
      exact h j

/-- What no program breaks holds at every point of every schedule. -/
theorem run_keeps {P : σ → Prop} {pool : Pool ι σ ε α} (h : ∀ i, (pool.programs i).Keeps P fun _ => True)
    (schedule : List ι) : (P pool.state → P (pool.run schedule).state) ∧
      ∀ i, ((pool.run schedule).programs i).Keeps P fun _ => True := by
  induction schedule generalizing pool with
  | nil => exact ⟨id, h⟩
  | cons i schedule ih =>
    obtain ⟨hP, hprograms⟩ := turn_keeps h i
    obtain ⟨hP', hrest⟩ := ih hprograms
    exact ⟨fun hs => hP' (hP hs), hrest⟩

/-! ### One after the other is one of the schedules -/

theorem exists_turns {a b : Script σ ε α × σ} (h : Script.Leads a b) (i : ι) (programs : ι → Script σ ε α) :
    ∃ schedule, (Pool.mk (Function.update programs i a.1) a.2).run schedule =
      ⟨Function.update programs i b.1, b.2⟩ := by
  induction h using Relation.ReflTransGen.head_induction_on with
  | refl => exact ⟨[], rfl⟩
  | @head a c hstep _ ih =>
    obtain ⟨schedule, hschedule⟩ := ih
    refine ⟨i :: schedule, ?_⟩
    have hturn : (Pool.mk (Function.update programs i a.1) a.2).turn i =
        ⟨Function.update programs i c.1, c.2⟩ := by
      rw [turn_of_step (p := c.1) (s := c.2), Function.update_idem]
      dsimp only
      rw [Function.update_self]
      exact hstep
    rw [← hschedule, ← hturn]
    rfl

/-- The programs of `order` are run to their ends in turn; the others stay as they are. -/
theorem exists_schedule (programs : ι → Script σ ε α) {order : List ι} (hnodup : order.Nodup)
    (pool : Pool ι σ ε α) (hpool : ∀ i ∈ order, pool.programs i = programs i) :
    ∃ schedule, (pool.run schedule).state = serial programs order pool.state ∧
      (∀ i ∈ order, ∃ r, (pool.run schedule).programs i = Script.liftExcept r) ∧
      ∀ i ∉ order, (pool.run schedule).programs i = pool.programs i := by
  induction order generalizing pool with
  | nil => exact ⟨[], rfl, by simp, fun _ _ => rfl⟩
  | cons i order ih =>
    obtain ⟨hi, hrest⟩ := List.nodup_cons.mp hnodup
    obtain ⟨first, hfirst⟩ := exists_turns (Script.leads_run (programs i) pool.state) i pool.programs
    have hstart : Pool.mk (Function.update pool.programs i (programs i)) pool.state = pool := by
      rw [← hpool i (List.mem_cons_self ..), Function.update_eq_self]
    rw [hstart] at hfirst
    have hkept : ∀ j ∈ order, (pool.run first).programs j = programs j := by
      intro j hj
      have hji : j ≠ i := fun heq => hi (heq ▸ hj)
      rw [hfirst, ← hpool j (List.mem_cons_of_mem _ hj)]
      exact Function.update_of_ne hji _ _
    obtain ⟨second, hstate, hended, hothers⟩ := ih hrest (pool.run first) hkept
    refine ⟨first ++ second, ?_, ?_, ?_⟩
    · rw [run_append, hstate, hfirst]
      rfl
    · intro j hj
      rw [run_append]
      rcases List.mem_cons.mp hj with rfl | hj
      · refine ⟨((programs j).run pool.state).1, ?_⟩
        rw [hothers j hi, hfirst]
        exact Function.update_self _ _ _
      · exact hended j hj
    · intro j hj
      rw [List.mem_cons, not_or] at hj
      obtain ⟨hji, hj⟩ := hj
      rw [run_append, hothers j hj, hfirst]
      exact Function.update_of_ne hji _ _

/-! ### Programs with cells of their own -/

variable [Fintype ι] [AddCommMonoid M] {ν : κ → Type} {L : Layout σ κ ν M} {A : ι → Set κ}
  {programs : ι → Script σ ε α} {start : σ} {pool : Pool ι σ ε α}

/-- Every program stands where it would stand if it had run alone from `start`, with `q` left to do in
the state `t`. Beside what the programs have added to the log nothing else has changed. -/
structure Underway (L : Layout σ κ ν M) (A : ι → Set κ) (programs : ι → Script σ ε α) (start : σ)
    (pool : Pool ι σ ε α) (added : ι → M) : Prop where
  alone : ∀ i, ∃ q t, (pool.programs i).Local L (A i) q (fun _ _ => True) ∧ L.AgreeOn (A i) pool.state t ∧
    q.run t = (programs i).run start ∧ L.log t = L.log start + added i
  rest : L.AgreeOn (⋃ i, A i)ᶜ pool.state start
  log : L.log pool.state = L.log start + ∑ i, added i

omit [DecidableEq ι] in
theorem underway_start (hlocal : ∀ i, (programs i).Local L (A i) (programs i) fun _ _ => True) :
    Underway L A programs start ⟨programs, start⟩ fun _ => 0 where
  alone i := ⟨programs i, start, hlocal i, .refl _ _, rfl, (add_zero _).symm⟩
  rest := .refl _ _
  log := by simp

theorem Underway.turn (hapart : ∀ i j, i ≠ j → ∀ k ∈ A i, k ∉ A j) {added : ι → M}
    (h : Underway L A programs start pool added) (i : ι) :
    ∃ added', Underway L A programs start (pool.turn i) added' := by
  obtain ⟨q, t, hlocal, hagree, hrun, hlog⟩ := h.alone i
  rcases hlocal.step hagree with ⟨hended, -⟩ | ⟨p', s', q', t', hp, hq, hmoves, hlocal'⟩
  · rw [turn_of_ended hended]
    exact ⟨added, h⟩
  · obtain ⟨d, hs', ht'⟩ := hmoves.log
    rw [turn_of_step hp]
    refine ⟨added + Pi.single i d, ?_, ?_, ?_⟩
    · intro j
      by_cases hj : j = i
      · subst hj
        refine ⟨q', t', ?_, hmoves.agree, ?_, ?_⟩
        · dsimp only
          rw [Function.update_self]
          exact hlocal'
        · rw [← Script.run_eq_of_step hq, hrun]
        · rw [Pi.add_apply, Pi.single_eq_same, ht', hlog, add_assoc]
      · obtain ⟨qj, tj, hlocalj, hagreej, hrunj, hlogj⟩ := h.alone j
        refine ⟨qj, tj, ?_, ?_, hrunj, ?_⟩
        · dsimp only
          rw [Function.update_of_ne hj]
          exact hlocalj
        · intro k hk
          have hout : k ∉ A i := hapart j i hj k hk
          rw [← hagreej k hk]
          exact (hmoves.left k hout).symm
        · rw [Pi.add_apply, Pi.single_eq_of_ne hj, add_zero]
          exact hlogj
    · intro k hk
      have hout : k ∉ A i := fun hin => hk (Set.mem_iUnion.mpr ⟨i, hin⟩)
      rw [← h.rest k hk]
      exact (hmoves.left k hout).symm
    · have hsum : ∑ j, (added + Pi.single i d : ι → M) j = ∑ j, added j + d := by
        simp only [Pi.add_apply, Finset.sum_add_distrib, Finset.sum_pi_single', Finset.mem_univ, if_true]
      dsimp only
      rw [hs', h.log, hsum, add_assoc]

theorem Underway.run (hapart : ∀ i j, i ≠ j → ∀ k ∈ A i, k ∉ A j) {added : ι → M}
    (h : Underway L A programs start pool added) (schedule : List ι) :
    ∃ added', Underway L A programs start (pool.run schedule) added' := by
  induction schedule generalizing pool added with
  | nil => exact ⟨added, h⟩
  | cons i schedule ih =>
    obtain ⟨added', h'⟩ := h.turn hapart i
    exact ih h'

/-- Each program leaves its own cells as it does alone, the log has what each of them adds alone, and
nothing else has changed. -/
structure Outcome (L : Layout σ κ ν M) (A : ι → Set κ) (programs : ι → Script σ ε α) (start s : σ) : Prop where
  own : ∀ i, L.AgreeOn (A i) s ((programs i).run start).2
  rest : L.AgreeOn (⋃ i, A i)ᶜ s start
  log : ∃ added : ι → M, (∀ i, L.log ((programs i).run start).2 = L.log start + added i) ∧
    L.log s = L.log start + ∑ i, added i

omit [DecidableEq ι] in
theorem Underway.outcome {added : ι → M} (h : Underway L A programs start pool added) (hended : pool.Ended) :
    Outcome L A programs start pool.state := by
  -- A program that has ended stands at the end of its run alone.
  have halone : ∀ i, L.AgreeOn (A i) pool.state ((programs i).run start).2 ∧
      L.log ((programs i).run start).2 = L.log start + added i := by
    intro i
    obtain ⟨q, t, hlocal, hagree, hrun, hlog⟩ := h.alone i
    obtain ⟨r, hr⟩ := hended i
    rw [hr] at hlocal
    have hq : q.step t = none := by
      rcases hlocal.step hagree with ⟨-, hq⟩ | ⟨p', s', q', t', hp, -⟩
      · exact hq
      · rw [Script.step_liftExcept] at hp
        cases hp
    obtain ⟨r', rfl⟩ := Script.exists_eq_liftExcept_of_step hq
    rw [← hrun, Script.run_liftExcept]
    exact ⟨hagree, hlog⟩
  exact ⟨fun i => (halone i).1, h.rest, added, fun i => (halone i).2, h.log⟩

omit [DecidableEq ι] in
/-- The outcome is determined, up to what no program can see. -/
theorem Outcome.unique [IsLeftCancelAdd M] {s₁ s₂ : σ} (h₁ : Outcome L A programs start s₁)
    (h₂ : Outcome L A programs start s₂) : (∀ k, L.cell s₁ k = L.cell s₂ k) ∧ L.log s₁ = L.log s₂ := by
  constructor
  · intro k
    by_cases hk : ∃ i, k ∈ A i
    · obtain ⟨i, hi⟩ := hk
      rw [h₁.own i k hi, h₂.own i k hi]
    · have hout : k ∈ (⋃ i, A i)ᶜ := fun hin => hk (Set.mem_iUnion.mp hin)
      rw [h₁.rest k hout, h₂.rest k hout]
  · obtain ⟨added₁, hadded₁, hlog₁⟩ := h₁.log
    obtain ⟨added₂, hadded₂, hlog₂⟩ := h₂.log
    have hadded : added₁ = added₂ := by
      funext i
      exact add_left_cancel ((hadded₁ i).symm.trans (hadded₂ i))
    rw [hlog₁, hlog₂, hadded]

/-- However the programs are interleaved, they end as if they ran one after the other, in any order. -/
theorem serializable [IsLeftCancelAdd M] (hlocal : ∀ i, (programs i).Local L (A i) (programs i) fun _ _ => True)
    (hapart : ∀ i j, i ≠ j → ∀ k ∈ A i, k ∉ A j) {schedule : List ι}
    (hended : ((Pool.mk programs start).run schedule).Ended) {order : List ι} (hnodup : order.Nodup)
    (hall : ∀ i, i ∈ order) :
    (∀ k, L.cell ((Pool.mk programs start).run schedule).state k = L.cell (serial programs order start) k) ∧
      L.log ((Pool.mk programs start).run schedule).state = L.log (serial programs order start) := by
  have hstart : Underway L A programs start ⟨programs, start⟩ fun _ => 0 := underway_start hlocal
  obtain ⟨added, hunderway⟩ := hstart.run hapart schedule
  obtain ⟨inTurn, hstate, hends, -⟩ := exists_schedule programs hnodup ⟨programs, start⟩ fun _ _ => rfl
  obtain ⟨added', hunderway'⟩ := hstart.run hapart inTurn
  have hserial := hunderway'.outcome fun i => hends i (hall i)
  rw [hstate] at hserial
  exact (hunderway.outcome hended).unique hserial

end Pool
end Coroutine
