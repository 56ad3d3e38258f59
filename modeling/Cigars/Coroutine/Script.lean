import Mathlib.Tactic.Basic

/-! Programs of atomic statements on one shared state: exceptions, handlers, and transactions
that restore the state when their body throws. -/
namespace Coroutine

/-- `stmt` runs one statement, which either throws and changes nothing or returns a value and
the next state. A `transaction` inside a transaction joins it: a throw crosses both. -/
inductive Script (σ ε : Type) : Type → Type 1
  | done {α : Type} : α → Script σ ε α
  | raise {α : Type} : ε → Script σ ε α
  | stmt {α β : Type} : (σ → Except ε (β × σ)) → (β → Script σ ε α) → Script σ ε α
  | transaction {α β : Type} : Script σ ε β → (β → Script σ ε α) → Script σ ε α
  | tryCatch {α β : Type} : Script σ ε β → (ε → Script σ ε β) → (β → Script σ ε α) → Script σ ε α

namespace Script
variable {σ ε α β : Type}

def bind : Script σ ε α → (α → Script σ ε β) → Script σ ε β
  | done a, f => f a
  | raise e, _ => raise e
  | stmt g k, f => stmt g fun b => (k b).bind f
  | transaction p k, f => transaction p fun b => (k b).bind f
  | tryCatch p h k, f => tryCatch p h fun b => (k b).bind f

instance : Monad (Script σ ε) where
  pure := done
  bind := bind

/-- A statement that reads. -/
def read (f : σ → Except ε α) : Script σ ε α := stmt (fun s => (f s).map (·, s)) done

/-- A statement that writes and cannot throw. -/
def write (f : σ → σ) : Script σ ε Unit := stmt (fun s => .ok ((), f s)) done

def atomically (p : Script σ ε α) : Script σ ε α := transaction p done

def catching (p : Script σ ε α) (h : ε → Script σ ε α) : Script σ ε α := tryCatch p h done

def liftExcept : Except ε α → Script σ ε α
  | .ok a => done a
  | .error e => raise e

/-- Run alone. Outside a transaction the statements before a throw keep their effect. -/
def run : {α : Type} → Script σ ε α → σ → Except ε α × σ
  | _, done a, s => (.ok a, s)
  | _, raise e, s => (.error e, s)
  | _, stmt f k, s =>
    match f s with
    | .ok (b, s') => (k b).run s'
    | .error e => (.error e, s)
  | _, transaction p k, s =>
    match p.run s with
    | (.ok b, s') => (k b).run s'
    | (.error e, _) => (.error e, s)
  | _, tryCatch p h k, s =>
    match p.run s with
    | (.ok b, s') => (k b).run s'
    | (.error e, s') =>
      match (h e).run s' with
      | (.ok b, s'') => (k b).run s''
      | (.error e', s'') => (.error e', s'')

/-- Continue a finished run. -/
def andThen (f : α → Script σ ε β) : Except ε α × σ → Except ε β × σ
  | (.ok a, s) => (f a).run s
  | (.error e, s) => (.error e, s)

@[simp] theorem andThen_ok (f : α → Script σ ε β) (a : α) (s : σ) :
    andThen f (.ok a, s) = (f a).run s := rfl

@[simp] theorem andThen_error (f : α → Script σ ε β) (e : ε) (s : σ) :
    andThen f (.error e, s) = (.error e, s) := rfl

@[simp] theorem run_bind (p : Script σ ε α) (f : α → Script σ ε β) (s : σ) :
    (p >>= f).run s = andThen f (p.run s) := by
  change (p.bind f).run s = _
  induction p generalizing s with
  | done a => rfl
  | raise e => rfl
  | stmt g k ih =>
    simp only [bind, run]
    cases g s with
    | error e => rfl
    | ok r => exact ih r.1 f r.2
  | transaction p k _ ih =>
    simp only [bind, run]
    rcases p.run s with ⟨e | b, s'⟩
    · rfl
    · exact ih b f s'
  | tryCatch p h k _ _ ih =>
    simp only [bind, run]
    rcases p.run s with ⟨e | b, s'⟩
    · dsimp only
      rcases (h e).run s' with ⟨e' | b, s''⟩
      · rfl
      · exact ih b f s''
    · exact ih b f s'

theorem run_read (f : σ → Except ε α) (s : σ) : (read f).run s = (f s, s) := by
  simp only [read, run]
  cases f s <;> rfl

@[simp] theorem run_write (f : σ → σ) (s : σ) : (write f : Script σ ε Unit).run s = (.ok (), f s) := rfl

/-- Keep a normal end; after a throw put `back` in place of the state reached. -/
def settle (back : σ → σ) : Except ε α × σ → Except ε α × σ
  | (.ok a, s) => (.ok a, s)
  | (.error e, s) => (.error e, back s)

@[simp] theorem settle_error (back : σ → σ) (e : ε) (s : σ) :
    settle back ((.error e, s) : Except ε α × σ) = (.error e, back s) := rfl

theorem settle_settle (f g : σ → σ) (r : Except ε α × σ) :
    settle f (settle g r) = settle (f ∘ g) r := by
  rcases r with ⟨e | a, s⟩ <;> rfl

@[simp] theorem settle_id (r : Except ε α × σ) : settle id r = r := by
  rcases r with ⟨e | a, s⟩ <;> rfl

@[simp] theorem run_atomically (p : Script σ ε α) (s : σ) :
    (atomically p).run s = settle (fun _ => s) (p.run s) := by
  simp only [atomically, run]
  rcases p.run s with ⟨e | a, s'⟩ <;> rfl

theorem run_catching (p : Script σ ε α) (h : ε → Script σ ε α) (s : σ) :
    (catching p h).run s =
      match p.run s with
      | (.ok a, s') => (.ok a, s')
      | (.error e, s') => (h e).run s' := by
  simp only [catching, run]
  rcases p.run s with ⟨e | a, s'⟩
  · dsimp only
    rcases (h e).run s' with ⟨e' | b, s''⟩ <;> rfl
  · rfl

end Script
end Coroutine
