import Mathlib.Algebra.Ring.Int.Defs

/-! Runs of a labelled transition relation, with the rules for invariants and for properties that
a step keeps under a condition only. -/
namespace Transition

variable {σ ω : Type} {step : σ → ω → σ → Prop} {s₀ : σ}

/-- A run from `s₀`: the steps taken, the last one first, each with the state it was taken in,
and the state reached. -/
inductive Run (step : σ → ω → σ → Prop) (s₀ : σ) : List (σ × ω) → σ → Prop
  | start : Run step s₀ [] s₀
  | next {trace : List (σ × ω)} {s s' : σ} {op : ω} :
    Run step s₀ trace s → step s op s' → Run step s₀ ((s, op) :: trace) s'

theorem Run.trans {trace trace' : List (σ × ω)} {s s' : σ} (run : Run step s₀ trace s)
    (run' : Run step s trace' s') : Run step s₀ (trace' ++ trace) s' := by
  induction run' with
  | start => exact run
  | next _ hstep ih => exact ih.next hstep

/-- A step that is possible again and again. -/
theorem Run.repeated {state : ℕ → σ} (op : ω) (hstep : ∀ k, step (state k) op (state (k + 1)))
    {trace : List (σ × ω)} (run : Run step s₀ trace (state 0)) (n : ℕ) :
    ∃ steps, Run step s₀ (steps ++ trace) (state n) ∧ ∀ t ∈ steps, t.2 = op ∧ ∃ k < n, t.1 = state k := by
  induction n with
  | zero => exact ⟨[], run, nofun⟩
  | succ n ih =>
    obtain ⟨steps, hrun, hsteps⟩ := ih
    refine ⟨(state n, op) :: steps, hrun.next (hstep n), fun t ht => ?_⟩
    rcases List.mem_cons.mp ht with rfl | hmem
    · exact ⟨rfl, n, Nat.lt_succ_self n, rfl⟩
    · obtain ⟨hop, k, hk, hstate⟩ := hsteps t hmem
      exact ⟨hop, k, Nat.lt_succ_of_lt hk, hstate⟩

/-- What holds at the start and is kept by every step holds in every state reached. -/
theorem Run.invariant {P : σ → Prop} (start : P s₀) (next : ∀ s op s', P s → step s op s' → P s')
    {trace : List (σ × ω)} {s : σ} (run : Run step s₀ trace s) : P s := by
  induction run with
  | start => exact start
  | next run hstep ih => exact next _ _ _ ih hstep

/-- What holds at the start and is kept by every step that meets a condition holds in every state
reached by such steps. -/
theorem Run.kept {P : σ → Prop} {Q : σ → ω → Prop} (start : P s₀)
    (next : ∀ s op s', P s → Q s op → step s op s' → P s')
    {trace : List (σ × ω)} {s : σ} (run : Run step s₀ trace s) (h : ∀ t ∈ trace, Q t.1 t.2) : P s := by
  induction run with
  | start => exact start
  | next run hstep ih =>
    have hcond := List.forall_mem_cons.mp h
    exact next _ _ _ (ih hcond.2) hcond.1 hstep

/-- If, where an invariant holds, every step keeps `P` under the condition `Q`, and only then, then
`P` holds in all states of a run exactly when all its steps meet `Q`. -/
theorem Run.kept_iff_of_invariant {I P : σ → Prop} {Q : σ → ω → Prop} (invariant : I s₀)
    (keep : ∀ s op s', I s → step s op s' → I s') (start : P s₀)
    (next : ∀ s op s', I s → P s → step s op s' → (P s' ↔ Q s op))
    {trace : List (σ × ω)} {s : σ} (run : Run step s₀ trace s) :
    (P s ∧ ∀ t ∈ trace, P t.1) ↔ ∀ t ∈ trace, Q t.1 t.2 := by
  induction run with
  | start => simp [start]
  | @next trace s s' op run hstep ih =>
    have hI : I s := run.invariant invariant keep
    have hnext := fun hs => next s op s' hI hs hstep
    simp only [List.forall_mem_cons]
    constructor
    · intro h
      obtain ⟨hs', hs, htrace⟩ := h
      exact ⟨(hnext hs).mp hs', ih.mp ⟨hs, htrace⟩⟩
    · intro h
      obtain ⟨hs, htrace⟩ := ih.mpr h.2
      exact ⟨(hnext hs).mpr h.1, hs, htrace⟩

theorem Run.kept_iff {P : σ → Prop} {Q : σ → ω → Prop} (start : P s₀)
    (next : ∀ s op s', P s → step s op s' → (P s' ↔ Q s op))
    {trace : List (σ × ω)} {s : σ} (run : Run step s₀ trace s) :
    (P s ∧ ∀ t ∈ trace, P t.1) ↔ ∀ t ∈ trace, Q t.1 t.2 :=
  run.kept_iff_of_invariant (I := fun _ => True) trivial (fun _ _ _ _ _ => trivial) start
    fun s op s' _ => next s op s'

/-- If, where an invariant holds, `P` holds after a step exactly when it held before and the step
meets `Q`, then `P` holds at the end of a run exactly when all its steps meet `Q`. -/
theorem Run.holds_iff_of_invariant {I P : σ → Prop} {Q : σ → ω → Prop} (invariant : I s₀)
    (keep : ∀ s op s', I s → step s op s' → I s') (start : P s₀)
    (next : ∀ s op s', I s → step s op s' → (P s' ↔ P s ∧ Q s op))
    {trace : List (σ × ω)} {s : σ} (run : Run step s₀ trace s) : P s ↔ ∀ t ∈ trace, Q t.1 t.2 := by
  induction run with
  | start => simp [start]
  | @next trace s s' op run hstep ih =>
    have hI : I s := run.invariant invariant keep
    rw [next s op s' hI hstep, ih, List.forall_mem_cons]
    exact and_comm

/-- A run whose steps all meet a condition is a run of the steps that do. -/
theorem Run.restrict {Q : σ → ω → Prop} {trace : List (σ × ω)} {s : σ} (run : Run step s₀ trace s)
    (h : ∀ t ∈ trace, Q t.1 t.2) : Run (fun s op s' => step s op s' ∧ Q s op) s₀ trace s := by
  induction run with
  | start => exact .start
  | next run hstep ih =>
    have hcond := List.forall_mem_cons.mp h
    exact (ih hcond.2).next ⟨hstep, hcond.1⟩

/-- Steps of one relation that are steps of another. -/
theorem Run.mono {step' : σ → ω → σ → Prop} (h : ∀ s op s', step s op s' → step' s op s')
    {trace : List (σ × ω)} {s : σ} (run : Run step s₀ trace s) : Run step' s₀ trace s := by
  induction run with
  | start => exact .start
  | next _ hstep ih => exact ih.next (h _ _ _ hstep)

/-- The steps taken and the state reached when the operations are performed in turn. -/
def replay (perform : σ → ω → Option σ) (trace : List (σ × ω)) (s : σ) : List ω → Option (List (σ × ω) × σ)
  | [] => some (trace, s)
  | op :: ops => (perform s op).bind fun s' => replay perform ((s, op) :: trace) s' ops

theorem Run.replay {perform : σ → ω → Option σ} {trace trace' : List (σ × ω)} {s s' : σ}
    (run : Run (fun s op s' => perform s op = some s') s₀ trace s) (ops : List ω)
    (h : replay perform trace s ops = some (trace', s')) :
    Run (fun s op s' => perform s op = some s') s₀ trace' s' := by
  induction ops generalizing trace s with
  | nil =>
    cases h
    exact run
  | cons op ops ih =>
    obtain ⟨s₁, hstep, hrest⟩ := Option.bind_eq_some_iff.mp h
    exact ih (run.next hstep) hrest

/-- All operations can be performed in turn. -/
theorem Run.performed {perform : σ → ω → Option σ} (sound : ∀ s op s', perform s op = some s' → step s op s')
    (ops : List ω) (h : (Transition.replay perform [] s₀ ops).isSome = true) :
    Run step s₀ ((Transition.replay perform [] s₀ ops).get h).1 ((Transition.replay perform [] s₀ ops).get h).2 :=
  (Run.start.replay ops (Option.some_get h).symm).mono sound

end Transition
