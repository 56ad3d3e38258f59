import Cigars.Coroutine.Script
import Mathlib.Data.Nat.Notation

/-! Cold flows in continuation form. A flow is handed its collector and calls it inside
whatever the flow itself has open, so a transaction around an `emit` covers all that happens
downstream. `Emits`, `Fails` and `Silent` say how a flow ends from a given state whatever the
collector does, with one rule for each operator. -/
namespace Coroutine

/-- An exception in flight. `depth` counts the `catch` operators that must let it pass because
it was thrown downstream of them. -/
structure Raised (ε : Type) where
  depth : ℕ
  exn : ε
  deriving DecidableEq

/-- The steps of a coroutine. -/
abbrev Action (σ ε α : Type) : Type 1 := Script σ (Raised ε) α

def Flow (σ ε α : Type) : Type 1 := (α → Action σ ε Unit) → Action σ ε Unit

variable {σ ε α β γ : Type}

namespace Action

def throw (e : ε) : Action σ ε α := .raise ⟨0, e⟩

/-- A computation that reads nothing and may throw. -/
def ofExcept (x : Except ε α) : Action σ ε α := .liftExcept (x.mapError (⟨0, ·⟩))

/-- One `SELECT`. -/
def query (f : σ → Except ε α) : Action σ ε α := .read fun s => (f s).mapError (⟨0, ·⟩)

/-- One statement that writes and may be refused. -/
def statement (f : σ → Except ε (α × σ)) : Action σ ε α :=
  .stmt (fun s => (f s).mapError (⟨0, ·⟩)) .done

theorem run_ofExcept_ok {x : Except ε α} {a : α} (s : σ) (h : x = .ok a) :
    (ofExcept x : Action σ ε α).run s = (.ok a, s) := by
  rw [h]; rfl

theorem run_ofExcept_error {x : Except ε α} {e : ε} (s : σ) (h : x = .error e) :
    (ofExcept x : Action σ ε α).run s = (.error ⟨0, e⟩, s) := by
  rw [h]; rfl

theorem run_query_ok {f : σ → Except ε α} {s : σ} {a : α} (h : f s = .ok a) :
    (query f).run s = (.ok a, s) := by
  rw [query, Script.run_read, h]; rfl

theorem run_query_error {f : σ → Except ε α} {s : σ} {e : ε} (h : f s = .error e) :
    (query f).run s = (.error ⟨0, e⟩, s) := by
  rw [query, Script.run_read, h]; rfl

theorem run_statement_ok {f : σ → Except ε (α × σ)} {s s' : σ} {a : α} (h : f s = .ok (a, s')) :
    (statement f).run s = (.ok a, s') := by
  simp only [statement, Script.run, h]; rfl

theorem run_statement_error {f : σ → Except ε (α × σ)} {s : σ} {e : ε} (h : f s = .error e) :
    (statement f).run s = (.error ⟨0, e⟩, s) := by
  simp only [statement, Script.run, h]; rfl

end Action

namespace Flow

def flowOf (a : α) : Flow σ ε α := fun emit => emit a

def flatMapConcat (F : Flow σ ε α) (g : α → Flow σ ε β) : Flow σ ε β :=
  fun emit => F fun a => g a emit

/-- `map` with a suspending transform. -/
def map (F : Flow σ ε α) (f : α → Action σ ε β) : Flow σ ε β :=
  fun emit => F fun a => do emit (← f a)

/-- Suspending code that ends by choosing the flow to continue with. -/
def after (act : Action σ ε α) (g : α → Flow σ ε β) : Flow σ ε β :=
  fun emit => act >>= fun a => g a emit

def throwing (e : ε) : Flow σ ε α := fun _ => Action.throw e

/-- Collects `F` inside one transaction. -/
def inTransaction (F : Flow σ ε α) : Flow σ ε α := fun emit => (F emit).atomically

/-- Run to completion and drop the values. -/
def drain (F : Flow σ ε α) : Action σ ε Unit := F fun _ => pure ()

/-- Handles what was thrown upstream; what the collector throws passes through. -/
def catchError (F : Flow σ ε α) (handler : ε → Action σ ε Unit) : Flow σ ε α := fun emit =>
  (F fun a => (emit a).catching fun r => .raise ⟨r.depth + 1, r.exn⟩).catching fun r =>
    match r.depth with
    | 0 => handler r.exn
    | d + 1 => .raise ⟨d, r.exn⟩

/-- From `s` the flow hands `a` to its collector in state `s'` and adds nothing afterwards.
If the collector throws in state `t` the flow leaves `back t`. -/
def Emits (F : Flow σ ε α) (s : σ) (a : α) (s' : σ) (back : σ → σ) : Prop :=
  ∀ emit, (F emit).run s = Script.settle back ((emit a).run s')

/-- From `s` the flow throws in state `s'` before it calls its collector. -/
def Throws (F : Flow σ ε α) (s : σ) (r : Raised ε) (s' : σ) : Prop := ∀ emit, (F emit).run s = (.error r, s')

/-- From `s` the flow throws `e` in state `s'` before it calls its collector. -/
def Fails (F : Flow σ ε α) (s : σ) (e : ε) (s' : σ) : Prop :=
  ∀ emit, (F emit).run s = (.error ⟨0, e⟩, s')

/-- From `s` the flow completes in state `s'` without calling its collector. -/
def Silent (F : Flow σ ε α) (s s' : σ) : Prop :=
  ∀ emit, (F emit).run s = (.ok (), s')

/-- The flow hands a value to its collector, which takes it, and ends normally in `s'`. -/
def Completes (F : Flow σ ε α) (s s' : σ) : Prop := ∃ a back, F.Emits s a s' back

theorem Emits.completes {F : Flow σ ε α} {s s' : σ} {a : α} {back : σ → σ}
    (h : F.Emits s a s' back) : F.Completes s s' := ⟨a, back, h⟩

theorem Completes.drain {F : Flow σ ε α} {s s' : σ} (h : F.Completes s s') :
    F.drain.run s = (.ok (), s') := by
  obtain ⟨a, back, h⟩ := h
  exact h fun _ => pure ()

theorem Completes.eq_of_drain {F : Flow σ ε α} {s s₁ s₂ : σ} (h₁ : F.Completes s s₁)
    (h₂ : F.drain.run s = (.ok (), s₂)) : s₁ = s₂ :=
  (Prod.mk.inj (h₁.drain.symm.trans h₂)).2

theorem Completes.unique {F : Flow σ ε α} {s s₁ s₂ : σ} (h₁ : F.Completes s s₁)
    (h₂ : F.Completes s s₂) : s₁ = s₂ := h₁.eq_of_drain h₂.drain

theorem Silent.drain {F : Flow σ ε α} {s s' : σ} (h : F.Silent s s') :
    F.drain.run s = (.ok (), s') := h fun _ => pure ()

theorem Silent.unique {F : Flow σ ε α} {s s₁ s₂ : σ} (h₁ : F.Silent s s₁) (h₂ : F.Silent s s₂) :
    s₁ = s₂ :=
  (Prod.mk.inj (h₁.drain.symm.trans h₂.drain)).2

theorem Throws.drain {F : Flow σ ε α} {s s' : σ} {r : Raised ε} (h : F.Throws s r s') :
    F.drain.run s = (.error r, s') := h fun _ => pure ()

/-- A flow that throws does not run to its end. -/
theorem Throws.not_drain {F : Flow σ ε α} {s s₁ s₂ : σ} {r : Raised ε} (h : F.Throws s r s₁) :
    F.drain.run s ≠ (.ok (), s₂) := by
  intro hrun
  rw [h.drain] at hrun
  cases (Prod.mk.inj hrun).1

theorem Fails.not_drain {F : Flow σ ε α} {s s₁ s₂ : σ} {e : ε} (h : F.Fails s e s₁) :
    F.drain.run s ≠ (.ok (), s₂) := Throws.not_drain h

theorem Fails.not_completes {F : Flow σ ε α} {s s₁ s₂ : σ} {e : ε} (h₁ : F.Fails s e s₁) :
    ¬ F.Completes s s₂ := fun h₂ => h₁.not_drain h₂.drain

theorem Silent.not_completes [Nonempty ε] {F : Flow σ ε α} {s s₁ s₂ : σ} (h₁ : F.Silent s s₁) :
    ¬ F.Completes s s₂ := by
  rintro ⟨a, back, h₂⟩
  obtain ⟨e⟩ := ‹Nonempty ε›
  have h := (h₁ fun _ => Action.throw e).symm.trans (h₂ fun _ => Action.throw e)
  cases (Prod.mk.inj h).1

/-- A flow hands on only one value. -/
theorem Emits.unique [Nonempty ε] {F : Flow σ ε α} {s s₁ s₂ : σ} {a₁ a₂ : α} {back₁ back₂ : σ → σ}
    (h₁ : F.Emits s a₁ s₁ back₁) (h₂ : F.Emits s a₂ s₂ back₂) : a₁ = a₂ ∧ s₁ = s₂ := by
  refine ⟨?_, h₁.completes.unique h₂.completes⟩
  classical
  obtain ⟨e⟩ := ‹Nonempty ε›
  by_cases ha : a₂ = a₁
  · exact ha.symm
  · -- A collector that refuses only the first value tells the two apart.
    have heq := (h₁ fun a => if a = a₁ then Action.throw e else pure ()).symm.trans
      (h₂ fun a => if a = a₁ then Action.throw e else pure ())
    rw [if_pos rfl, if_neg ha] at heq
    cases (Prod.mk.inj heq).1

theorem emits_flowOf (a : α) (s : σ) : (flowOf a : Flow σ ε α).Emits s a s id := by
  intro emit
  exact (Script.settle_id _).symm

theorem fails_throwing (e : ε) (s : σ) : (throwing e : Flow σ ε α).Fails s e s := fun _ => rfl

theorem Emits.after {act : Action σ ε α} {g : α → Flow σ ε β} {s s₁ s₂ : σ} {a : α} {b : β}
    {back : σ → σ} (h₁ : act.run s = (.ok a, s₁)) (h₂ : (g a).Emits s₁ b s₂ back) :
    (Flow.after act g).Emits s b s₂ back := by
  intro emit
  rw [Flow.after, Script.run_bind, h₁, Script.andThen_ok, h₂]

theorem throws_after {act : Action σ ε α} {g : α → Flow σ ε β} {s s₁ : σ} {r : Raised ε}
    (h : act.run s = (.error r, s₁)) : (Flow.after act g).Throws s r s₁ := by
  intro emit
  rw [Flow.after, Script.run_bind, h, Script.andThen_error]

theorem Throws.after {act : Action σ ε α} {g : α → Flow σ ε β} {s s₁ s₂ : σ} {a : α} {r : Raised ε}
    (h₁ : act.run s = (.ok a, s₁)) (h₂ : (g a).Throws s₁ r s₂) : (Flow.after act g).Throws s r s₂ := by
  intro emit
  rw [Flow.after, Script.run_bind, h₁, Script.andThen_ok, h₂]

theorem Fails.after {act : Action σ ε α} {g : α → Flow σ ε β} {s s₁ s₂ : σ} {a : α} {e : ε}
    (h₁ : act.run s = (.ok a, s₁)) (h₂ : (g a).Fails s₁ e s₂) :
    (Flow.after act g).Fails s e s₂ := Throws.after h₁ h₂

theorem fails_after {act : Action σ ε α} {s s₁ : σ} {e : ε} (h : act.run s = (.error ⟨0, e⟩, s₁))
    (g : α → Flow σ ε β) : (Flow.after act g).Fails s e s₁ := throws_after h

theorem Emits.inTransaction {F : Flow σ ε α} {s s' : σ} {a : α} {back : σ → σ}
    (h : F.Emits s a s' back) : F.inTransaction.Emits s a s' fun _ => s := by
  intro emit
  rw [Flow.inTransaction, Script.run_atomically, h, Script.settle_settle]
  rfl

theorem Throws.inTransaction {F : Flow σ ε α} {s s' : σ} {r : Raised ε} (h : F.Throws s r s') :
    F.inTransaction.Throws s r s := by
  intro emit
  rw [Flow.inTransaction, Script.run_atomically, h, Script.settle_error]

theorem Fails.inTransaction {F : Flow σ ε α} {s s' : σ} {e : ε} (h : F.Fails s e s') :
    F.inTransaction.Fails s e s := Throws.inTransaction h

theorem Emits.flatMapConcat {F : Flow σ ε α} {g : α → Flow σ ε β} {s s₁ s₂ : σ} {a : α} {b : β}
    {back₁ back₂ : σ → σ} (h₁ : F.Emits s a s₁ back₁) (h₂ : (g a).Emits s₁ b s₂ back₂) :
    (F.flatMapConcat g).Emits s b s₂ (back₁ ∘ back₂) := by
  intro emit
  rw [Flow.flatMapConcat, h₁, h₂, Script.settle_settle]

theorem Emits.flatMapConcat_throws {F : Flow σ ε α} {g : α → Flow σ ε β} {s s₁ s₂ : σ} {a : α}
    {r : Raised ε} {back : σ → σ} (h₁ : F.Emits s a s₁ back) (h₂ : (g a).Throws s₁ r s₂) :
    (F.flatMapConcat g).Throws s r (back s₂) := by
  intro emit
  rw [Flow.flatMapConcat, h₁, h₂, Script.settle_error]

theorem Emits.flatMapConcat_fails {F : Flow σ ε α} {g : α → Flow σ ε β} {s s₁ s₂ : σ} {a : α}
    {e : ε} {back : σ → σ} (h₁ : F.Emits s a s₁ back) (h₂ : (g a).Fails s₁ e s₂) :
    (F.flatMapConcat g).Fails s e (back s₂) := h₁.flatMapConcat_throws h₂

theorem Throws.flatMapConcat {F : Flow σ ε α} {s s' : σ} {r : Raised ε} (h : F.Throws s r s')
    (g : α → Flow σ ε β) : (F.flatMapConcat g).Throws s r s' :=
  fun _ => h _

theorem Fails.flatMapConcat {F : Flow σ ε α} {s s' : σ} {e : ε} (h : F.Fails s e s')
    (g : α → Flow σ ε β) : (F.flatMapConcat g).Fails s e s' := Throws.flatMapConcat h g

theorem Silent.flatMapConcat {F : Flow σ ε α} {s s' : σ} (h : F.Silent s s')
    (g : α → Flow σ ε β) : (F.flatMapConcat g).Silent s s' :=
  fun _ => h _

theorem Emits.map {F : Flow σ ε α} {f : α → Action σ ε β} {s s₁ s₂ : σ} {a : α} {b : β}
    {back : σ → σ} (h₁ : F.Emits s a s₁ back) (h₂ : (f a).run s₁ = (.ok b, s₂)) :
    (F.map f).Emits s b s₂ back := by
  intro emit
  rw [Flow.map, h₁, Script.run_bind, h₂, Script.andThen_ok]

theorem Emits.map_throws {F : Flow σ ε α} {f : α → Action σ ε β} {s s₁ s₂ : σ} {a : α} {r : Raised ε}
    {back : σ → σ} (h₁ : F.Emits s a s₁ back) (h₂ : (f a).run s₁ = (.error r, s₂)) :
    (F.map f).Throws s r (back s₂) := by
  intro emit
  rw [Flow.map, h₁, Script.run_bind, h₂, Script.andThen_error, Script.settle_error]

theorem Throws.map {F : Flow σ ε α} {s s' : σ} {r : Raised ε} (h : F.Throws s r s')
    (f : α → Action σ ε β) : (F.map f).Throws s r s' :=
  fun _ => h _

theorem Fails.map {F : Flow σ ε α} {s s' : σ} {e : ε} (h : F.Fails s e s')
    (f : α → Action σ ε β) : (F.map f).Fails s e s' := Throws.map h f

theorem Emits.catchError {F : Flow σ ε α} {s s' : σ} {a : α} {back : σ → σ} (h : F.Emits s a s' back)
    (handler : ε → Action σ ε Unit) : (F.catchError handler).Emits s a s' back := by
  intro emit
  rw [Flow.catchError, Script.run_catching, h, Script.run_catching]
  rcases (emit a).run s' with ⟨r | u, t⟩ <;> rfl

theorem Fails.catchError {F : Flow σ ε α} {s s₁ s₂ : σ} {e : ε} (h : F.Fails s e s₁)
    {handler : ε → Action σ ε Unit} (hh : (handler e).run s₁ = (.ok (), s₂)) :
    (F.catchError handler).Silent s s₂ := by
  intro emit
  rw [Flow.catchError, Script.run_catching, h]
  exact hh

end Flow
end Coroutine
