import Cigars.Transition.Run

/-! Two systems that have a part of their states in common. A step that leaves the common part as it is can be
taken by one of them alone. A step that changes it is a step of both. -/
namespace Transition

variable {σ τ δ ω υ : Type}

/-- States of the two systems that agree on what they share. -/
structure Shared (p : σ → δ) (q : τ → δ) where
  first : σ
  second : τ
  same : p first = q second

namespace Shared

inductive Op (ω υ : Type)
  | first (op : ω)
  | second (op : υ)
  | both (op : ω) (op' : υ)

variable {p : σ → δ} {q : τ → δ}

/-- A step of the first system, of the second, or of both; `joint` says which steps can be one. -/
inductive Step (step : σ → ω → σ → Prop) (step' : τ → υ → τ → Prop) (joint : ω → υ → Prop) :
    Shared p q → Op ω υ → Shared p q → Prop
  | first {s : Shared p q} {op : ω} {a : σ} : step s.first op a → (h : p a = p s.first) →
    Step step step' joint s (.first op) ⟨a, s.second, h.trans s.same⟩
  | second {s : Shared p q} {op : υ} {b : τ} : step' s.second op b → (h : q b = q s.second) →
    Step step step' joint s (.second op) ⟨s.first, b, s.same.trans h.symm⟩
  | both {s : Shared p q} {op : ω} {op' : υ} {a : σ} {b : τ} : joint op op' → step s.first op a →
    step' s.second op' b → (h : p a = q b) → Step step step' joint s (.both op op') ⟨a, b, h⟩

/-- What the first system does in a step. -/
def Op.first? : Op ω υ → Option ω
  | first op | both op _ => some op
  | second _ => none

def Op.second? : Op ω υ → Option υ
  | second op | both _ op => some op
  | first _ => none

/-- The steps that the first system takes part in. -/
def firstSteps (trace : List (Shared p q × Op ω υ)) : List (σ × ω) :=
  trace.filterMap fun t => t.2.first?.map (Prod.mk t.1.first)

def secondSteps (trace : List (Shared p q × Op ω υ)) : List (τ × υ) :=
  trace.filterMap fun t => t.2.second?.map (Prod.mk t.1.second)

theorem forall_secondSteps {P : τ × υ → Prop} {trace : List (Shared p q × Op ω υ)}
    (h : ∀ t ∈ trace, ∀ op, t.2.second? = some op → P (t.1.second, op)) : ∀ t ∈ secondSteps trace, P t := by
  intro t ht
  obtain ⟨⟨s, op⟩, hmem, hmap⟩ := List.mem_filterMap.mp ht
  obtain ⟨op', hop, rfl⟩ := Option.map_eq_some_iff.mp hmap
  exact h _ hmem op' hop

section Runs
variable {step : σ → ω → σ → Prop} {step' : τ → υ → τ → Prop} {joint : ω → υ → Prop} {s₀ s : Shared p q}
  {trace : List (Shared p q × Op ω υ)}

/-- What the first system does in a run is a run of its own. -/
theorem run_first (run : Run (Step step step' joint) s₀ trace s) : Run step s₀.first (firstSteps trace) s.first := by
  induction run with
  | start => exact .start
  | next _ hstep ih =>
    cases hstep with
    | first hfirst _ => exact ih.next hfirst
    | second _ _ => exact ih
    | both _ hfirst _ _ => exact ih.next hfirst

theorem run_second (run : Run (Step step step' joint) s₀ trace s) :
    Run step' s₀.second (secondSteps trace) s.second := by
  induction run with
  | start => exact .start
  | next _ hstep ih =>
    cases hstep with
    | first _ _ => exact ih
    | second hsecond _ => exact ih.next hsecond
    | both _ _ hsecond _ => exact ih.next hsecond

/-- If the second system can take part in every step of the first, then every run of the first is what it does in
some run of both. -/
theorem exists_run_of_first
    (follow : ∀ (s : Shared p q) op a, step s.first op a →
      ∃ op' s', Step step step' joint s op' s' ∧ s'.first = a ∧ op'.first? = some op)
    {steps : List (σ × ω)} {a : σ} (run : Run step s₀.first steps a) :
    ∃ trace s, Run (Step step step' joint) s₀ trace s ∧ s.first = a ∧ firstSteps trace = steps := by
  induction run with
  | start => exact ⟨[], s₀, .start, rfl, rfl⟩
  | next _ hstep ih =>
    obtain ⟨trace, s, hrun, rfl, hsteps⟩ := ih
    obtain ⟨op', s', hstep', hfirst, hop⟩ := follow s _ _ hstep
    refine ⟨(s, op') :: trace, s', hrun.next hstep', hfirst, ?_⟩
    rw [firstSteps, List.filterMap_cons_some (by rw [hop]; rfl)]
    exact congrArg _ hsteps

/-- A run of the first system that leaves the common part alone needs nothing from the second. -/
theorem exists_run_first {Q : ω → Prop} (hsame : ∀ a op b, Q op → step a op b → p b = p a)
    {steps : List (σ × ω)} {a : σ} (run : Run step s₀.first steps a) (h : ∀ t ∈ steps, Q t.2) :
    ∃ trace s, Run (Step step step' joint) s₀ trace s ∧ s.first = a ∧ s.second = s₀.second ∧
      ∀ t ∈ trace, ∃ op, Q op ∧ t.2 = .first op := by
  induction run with
  | start => exact ⟨[], s₀, .start, rfl, rfl, List.forall_mem_nil _⟩
  | next _ hstep ih =>
    obtain ⟨hop, hsteps⟩ := List.forall_mem_cons.mp h
    obtain ⟨trace, s, hrun, rfl, hsecond, htrace⟩ := ih hsteps
    refine ⟨_, _, hrun.next (.first hstep (hsame _ _ _ hop hstep)), rfl, hsecond, ?_⟩
    exact List.forall_mem_cons.mpr ⟨⟨_, hop, rfl⟩, htrace⟩

theorem exists_run_second {Q : υ → Prop} (hsame : ∀ a op b, Q op → step' a op b → q b = q a)
    {steps : List (τ × υ)} {b : τ} (run : Run step' s₀.second steps b) (h : ∀ t ∈ steps, Q t.2) :
    ∃ trace s, Run (Step step step' joint) s₀ trace s ∧ s.first = s₀.first ∧ s.second = b ∧
      ∀ t ∈ trace, ∃ op, Q op ∧ t.2 = .second op := by
  induction run with
  | start => exact ⟨[], s₀, .start, rfl, rfl, List.forall_mem_nil _⟩
  | next _ hstep ih =>
    obtain ⟨hop, hsteps⟩ := List.forall_mem_cons.mp h
    obtain ⟨trace, s, hrun, hfirst, rfl, htrace⟩ := ih hsteps
    refine ⟨_, _, hrun.next (.second hstep (hsame _ _ _ hop hstep)), hfirst, rfl, ?_⟩
    exact List.forall_mem_cons.mpr ⟨⟨_, hop, rfl⟩, htrace⟩

end Runs
end Shared
end Transition
