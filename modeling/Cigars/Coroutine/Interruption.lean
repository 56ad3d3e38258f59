import Cigars.Coroutine.Beside

/-! Programs that stop on their way, because they are killed or because they throw. The first component
of the state is kept by a database: what an open transaction has written to it is lost. The second holds
variables, which no transaction covers. -/
namespace Coroutine

variable {σ ρ τ ε α β : Type}

namespace Script

/-- What may be left of `s` when the script stops at some point, its end included. -/
def Stops : {α : Type} → Script (ρ × τ) ε α → ρ × τ → ρ × τ → Prop
  | _, done _, s, s' => s' = s
  | _, raise _, s, s' => s' = s
  | _, stmt f k, s, s' => s' = s ∨ ∃ b s₁, f s = .ok (b, s₁) ∧ (k b).Stops s₁ s'
  | _, transaction p k, s, s' =>
    (s'.1 = s.1 ∧ ∃ data, p.Stops s (data, s'.2)) ∨ ∃ b s₁, p.run s = (.ok b, s₁) ∧ (k b).Stops s₁ s'
  | _, tryCatch p h k, s, s' =>
    p.Stops s s' ∨ (∃ b s₁, p.run s = (.ok b, s₁) ∧ (k b).Stops s₁ s') ∨
      ∃ e s₁, p.run s = (.error e, s₁) ∧ ((h e).Stops s₁ s' ∨
        ∃ b s₂, (h e).run s₁ = (.ok b, s₂) ∧ (k b).Stops s₂ s')

theorem stops_self (p : Script (ρ × τ) ε α) (s : ρ × τ) : p.Stops s s := by
  induction p with
  | done b => rfl
  | raise e => rfl
  | stmt f k _ => exact Or.inl rfl
  | transaction p k ihp _ => exact Or.inl ⟨rfl, s.1, ihp⟩
  | tryCatch p h k ihp _ _ => exact Or.inl ihp

theorem stops_of_run {p : Script (ρ × τ) ε α} {s s' : ρ × τ} {a : α} (h : p.run s = (.ok a, s')) :
    p.Stops s s' := by
  induction p generalizing s with
  | done b => exact (Prod.mk.inj h).2.symm
  | raise e => cases (Prod.mk.inj h).1
  | stmt f k ih =>
    simp only [run] at h
    cases hf : f s with
    | error e =>
      rw [hf] at h
      cases (Prod.mk.inj h).1
    | ok r =>
      rw [hf] at h
      exact Or.inr ⟨r.1, r.2, hf, ih r.1 h⟩
  | transaction p k _ ih =>
    simp only [run] at h
    rcases hp : p.run s with ⟨e | b, s₁⟩
    · rw [hp] at h
      cases (Prod.mk.inj h).1
    · rw [hp] at h
      exact Or.inr ⟨b, s₁, hp, ih b h⟩
  | tryCatch p handler k _ _ ih =>
    simp only [run] at h
    rcases hp : p.run s with ⟨e | b, s₁⟩
    · rw [hp] at h
      dsimp only at h
      rcases hh : (handler e).run s₁ with ⟨e' | b, s₂⟩
      · rw [hh] at h
        cases (Prod.mk.inj h).1
      · rw [hh] at h
        exact Or.inr (Or.inr ⟨e, s₁, hp, Or.inr ⟨b, s₂, hh, ih b h⟩⟩)
    · rw [hp] at h
      exact Or.inr (Or.inl ⟨b, s₁, hp, ih b h⟩)

/-- A throw is a stop, as far as the database is concerned. -/
theorem stops_of_error {p : Script (ρ × τ) ε α} {s s' : ρ × τ} {e : ε} (h : p.run s = (.error e, s')) :
    ∃ vars, p.Stops s (s'.1, vars) := by
  induction p generalizing s s' e with
  | done b => cases (Prod.mk.inj h).1
  | raise e' =>
    rw [← (Prod.mk.inj h).2]
    exact ⟨s.2, rfl⟩
  | stmt f k ih =>
    simp only [run] at h
    cases hf : f s with
    | error e' =>
      rw [hf] at h
      rw [← (Prod.mk.inj h).2]
      exact ⟨s.2, Or.inl rfl⟩
    | ok r =>
      rw [hf] at h
      obtain ⟨vars, hstops⟩ := ih r.1 h
      exact ⟨vars, Or.inr ⟨r.1, r.2, hf, hstops⟩⟩
  | transaction p k ihp ih =>
    simp only [run] at h
    rcases hp : p.run s with ⟨e' | b, s₁⟩
    · rw [hp] at h
      obtain ⟨vars, hstops⟩ := ihp hp
      rw [← (Prod.mk.inj h).2]
      exact ⟨vars, Or.inl ⟨rfl, _, hstops⟩⟩
    · rw [hp] at h
      obtain ⟨vars, hstops⟩ := ih b h
      exact ⟨vars, Or.inr ⟨b, s₁, hp, hstops⟩⟩
  | tryCatch p handler k ihp ihh ih =>
    simp only [run] at h
    rcases hp : p.run s with ⟨e₁ | b, s₁⟩
    · rw [hp] at h
      dsimp only at h
      rcases hh : (handler e₁).run s₁ with ⟨e₂ | b, s₂⟩
      · rw [hh] at h
        obtain ⟨vars, hstops⟩ := ihh e₁ hh
        rw [← (Prod.mk.inj h).2]
        exact ⟨vars, Or.inr (Or.inr ⟨e₁, s₁, hp, Or.inl hstops⟩)⟩
      · rw [hh] at h
        obtain ⟨vars, hstops⟩ := ih b h
        exact ⟨vars, Or.inr (Or.inr ⟨e₁, s₁, hp, Or.inr ⟨b, s₂, hh, hstops⟩⟩)⟩
    · rw [hp] at h
      obtain ⟨vars, hstops⟩ := ih b h
      exact ⟨vars, Or.inr (Or.inl ⟨b, s₁, hp, hstops⟩)⟩

/-- Either the first part stops or it has run to its end and the second one stops. -/
theorem stops_bind_iff (p : Script (ρ × τ) ε α) (f : α → Script (ρ × τ) ε β) (s s' : ρ × τ) :
    (p >>= f).Stops s s' ↔ p.Stops s s' ∨ ∃ a s₁, p.run s = (.ok a, s₁) ∧ (f a).Stops s₁ s' := by
  change (p.bind f).Stops s s' ↔ _
  constructor
  · intro h
    induction p generalizing s with
    | done a => exact Or.inr ⟨a, s, rfl, h⟩
    | raise e => exact Or.inl h
    | stmt g k ih =>
      rcases h with h | ⟨b, s₁, hg, h⟩
      · exact Or.inl (Or.inl h)
      · rcases ih b f s₁ h with h | ⟨a, s₂, hrun, h⟩
        · exact Or.inl (Or.inr ⟨b, s₁, hg, h⟩)
        · exact Or.inr ⟨a, s₂, by simp only [run, hg, hrun], h⟩
    | transaction p k _ ih =>
      rcases h with h | ⟨b, s₁, hp, h⟩
      · exact Or.inl (Or.inl h)
      · rcases ih b f s₁ h with h | ⟨a, s₂, hrun, h⟩
        · exact Or.inl (Or.inr ⟨b, s₁, hp, h⟩)
        · exact Or.inr ⟨a, s₂, by simp only [run, hp, hrun], h⟩
    | tryCatch p handler k _ _ ih =>
      rcases h with h | ⟨b, s₁, hp, h⟩ | ⟨e, s₁, hp, h | ⟨b, s₂, hh, h⟩⟩
      · exact Or.inl (Or.inl h)
      · rcases ih b f s₁ h with h | ⟨a, s₂, hrun, h⟩
        · exact Or.inl (Or.inr (Or.inl ⟨b, s₁, hp, h⟩))
        · exact Or.inr ⟨a, s₂, by simp only [run, hp, hrun], h⟩
      · exact Or.inl (Or.inr (Or.inr ⟨e, s₁, hp, Or.inl h⟩))
      · rcases ih b f s₂ h with h | ⟨a, s₃, hrun, h⟩
        · exact Or.inl (Or.inr (Or.inr ⟨e, s₁, hp, Or.inr ⟨b, s₂, hh, h⟩⟩))
        · exact Or.inr ⟨a, s₃, by simp only [run, hp, hh, hrun], h⟩
  · intro h
    induction p generalizing s with
    | done a =>
      rcases h with rfl | ⟨b, s₁, hrun, h⟩
      · exact stops_self _ _
      · cases hrun
        exact h
    | raise e =>
      rcases h with h | ⟨b, s₁, hrun, -⟩
      · exact h
      · cases hrun
    | stmt g k ih =>
      rcases h with (h | ⟨b, s₁, hg, h⟩) | ⟨a, s₂, hrun, h⟩
      · exact Or.inl h
      · exact Or.inr ⟨b, s₁, hg, ih b f s₁ (Or.inl h)⟩
      · simp only [run] at hrun
        cases hg : g s with
        | error e =>
          rw [hg] at hrun
          cases (Prod.mk.inj hrun).1
        | ok r =>
          rw [hg] at hrun
          exact Or.inr ⟨r.1, r.2, hg, ih r.1 f r.2 (Or.inr ⟨a, s₂, hrun, h⟩)⟩
    | transaction p k _ ih =>
      rcases h with (h | ⟨b, s₁, hp, h⟩) | ⟨a, s₂, hrun, h⟩
      · exact Or.inl h
      · exact Or.inr ⟨b, s₁, hp, ih b f s₁ (Or.inl h)⟩
      · simp only [run] at hrun
        rcases hp : p.run s with ⟨e | b, s₁⟩
        · rw [hp] at hrun
          cases (Prod.mk.inj hrun).1
        · rw [hp] at hrun
          exact Or.inr ⟨b, s₁, hp, ih b f s₁ (Or.inr ⟨a, s₂, hrun, h⟩)⟩
    | tryCatch p handler k _ _ ih =>
      rcases h with (h | ⟨b, s₁, hp, h⟩ | ⟨e, s₁, hp, h | ⟨b, s₂, hh, h⟩⟩) | ⟨a, s₂, hrun, h⟩
      · exact Or.inl h
      · exact Or.inr (Or.inl ⟨b, s₁, hp, ih b f s₁ (Or.inl h)⟩)
      · exact Or.inr (Or.inr ⟨e, s₁, hp, Or.inl h⟩)
      · exact Or.inr (Or.inr ⟨e, s₁, hp, Or.inr ⟨b, s₂, hh, ih b f s₂ (Or.inl h)⟩⟩)
      · simp only [run] at hrun
        rcases hp : p.run s with ⟨e | b, s₁⟩
        · rw [hp] at hrun
          dsimp only at hrun
          rcases hh : (handler e).run s₁ with ⟨e' | b, s₃⟩
          · rw [hh] at hrun
            cases (Prod.mk.inj hrun).1
          · rw [hh] at hrun
            exact Or.inr (Or.inr ⟨e, s₁, hp, Or.inr ⟨b, s₃, hh, ih b f s₃ (Or.inr ⟨a, s₂, hrun, h⟩)⟩⟩)
        · rw [hp] at hrun
          exact Or.inr (Or.inl ⟨b, s₁, hp, ih b f s₁ (Or.inr ⟨a, s₂, hrun, h⟩)⟩)

/-! ### What the variables go through -/

/-- Nothing is caught. -/
def Uncaught : {α : Type} → Script σ ε α → Prop
  | _, done _ => True
  | _, raise _ => True
  | _, stmt _ k => ∀ b, (k b).Uncaught
  | _, transaction p k => p.Uncaught ∧ ∀ b, (k b).Uncaught
  | _, tryCatch _ _ _ => False

theorem Uncaught.bind {p : Script σ ε α} {f : α → Script σ ε β} (hp : p.Uncaught) (hf : ∀ a, (f a).Uncaught) :
    (p >>= f).Uncaught := by
  change (p.bind f).Uncaught
  induction p with
  | done a => exact hf a
  | raise e => trivial
  | stmt g k ih => exact fun b => ih b (hp b) hf
  | transaction p k _ ih => exact ⟨hp.1, fun b => ih b (hp.2 b) hf⟩
  | tryCatch p h k _ _ _ => exact hp.elim

/-- Every statement moves the variables along `R`, and nothing is caught: a handler would go on from
variables that a transaction has rolled back. -/
def Along (R : τ → τ → Prop) : {α : Type} → Script (ρ × τ) ε α → Prop
  | _, done _ => True
  | _, raise _ => True
  | _, stmt f k => (∀ s b s', f s = .ok (b, s') → R s.2 s'.2) ∧ ∀ b, (k b).Along R
  | _, transaction p k => p.Along R ∧ ∀ b, (k b).Along R
  | _, tryCatch _ _ _ => False

variable {R : τ → τ → Prop}

theorem Along.bind {p : Script (ρ × τ) ε α} {f : α → Script (ρ × τ) ε β} (hp : p.Along R)
    (hf : ∀ a, (f a).Along R) : (p >>= f).Along R := by
  change (p.bind f).Along R
  induction p with
  | done a => exact hf a
  | raise e => trivial
  | stmt g k ih => exact ⟨hp.1, fun b => ih b (hp.2 b) hf⟩
  | transaction p k _ ih => exact ⟨hp.1, fun b => ih b (hp.2 b) hf⟩
  | tryCatch p h k _ _ _ => exact hp.elim

theorem Uncaught.along_beside {p : Script ρ ε α} (hp : p.Uncaught) (hR : ∀ t, R t t) :
    (p.beside : Script (ρ × τ) ε α).Along R := by
  induction p with
  | done a => trivial
  | raise e => trivial
  | stmt f k ih =>
    refine ⟨fun s b s' hs => ?_, fun b => ih b (hp b)⟩
    dsimp only at hs
    cases hf : f s.1 with
    | error e =>
      rw [hf] at hs
      cases hs
    | ok r =>
      rw [hf] at hs
      cases hs
      exact hR s.2
  | transaction p k ihp ih => exact ⟨ihp hp.1, fun b => ih b (hp.2 b)⟩
  | tryCatch p h k _ _ _ => exact hp.elim

theorem along_write {f : ρ × τ → ρ × τ} (h : ∀ s, R s.2 (f s).2) :
    (write f : Script (ρ × τ) ε Unit).Along R := by
  refine ⟨fun s b s' hs => ?_, fun b => trivial⟩
  cases hs
  exact h s

theorem along_read (f : ρ × τ → Except ε α) (hR : ∀ t, R t t) : (read f).Along R := by
  refine ⟨fun s b s' hs => ?_, fun b => trivial⟩
  dsimp only at hs
  cases hf : f s with
  | error e =>
    rw [hf] at hs
    cases hs
  | ok a =>
    rw [hf] at hs
    cases hs
    exact hR s.2

section Order
variable (hR : ∀ t, R t t) (htrans : ∀ t₁ t₂ t₃, R t₁ t₂ → R t₂ t₃ → R t₁ t₃) {p : Script (ρ × τ) ε α}
  {s s₁ : ρ × τ} {a : α}
include hR htrans

theorem Along.run (h : p.Along R) (hrun : p.run s = (.ok a, s₁)) : R s.2 s₁.2 := by
  induction p generalizing s s₁ with
  | done b =>
    cases hrun
    exact hR s.2
  | raise e => cases hrun
  | stmt f k ih =>
    simp only [Script.run] at hrun
    cases hf : f s with
    | error e =>
      rw [hf] at hrun
      cases hrun
    | ok r =>
      rw [hf] at hrun
      exact htrans _ _ _ (h.1 s r.1 r.2 hf) (ih r.1 (h.2 r.1) hrun)
  | transaction p k ihp ih =>
    simp only [Script.run] at hrun
    rcases hp : p.run s with ⟨e | b, s₂⟩
    · rw [hp] at hrun
      cases hrun
    · rw [hp] at hrun
      exact htrans _ _ _ (ihp h.1 hp) (ih b (h.2 b) hrun)
  | tryCatch p handler k _ _ _ => exact h.elim

/-- From where the script stops to where it would have ended the variables move along `R`. -/
theorem Along.of_stops {s' : ρ × τ} (h : p.Along R) (hstops : p.Stops s s') (hrun : p.run s = (.ok a, s₁)) :
    R s'.2 s₁.2 := by
  induction p generalizing s s₁ s' with
  | done b =>
    cases hrun
    cases hstops
    exact hR s.2
  | raise e => cases hrun
  | stmt f k ih =>
    rcases hstops with rfl | ⟨b, s₂, hf, hstops⟩
    · exact h.run hR htrans hrun
    · simp only [Script.run, hf] at hrun
      exact ih b (h.2 b) hstops hrun
  | transaction p k ihp ih =>
    rcases hstops with ⟨-, data, hstops⟩ | ⟨b, s₂, hp, hstops⟩
    · simp only [Script.run] at hrun
      rcases hp : p.run s with ⟨e | b, s₂⟩
      · rw [hp] at hrun
        cases hrun
      · rw [hp] at hrun
        have hbody := ihp h.1 hstops hp
        exact htrans _ _ _ hbody ((h.2 b).run hR htrans hrun)
    · simp only [Script.run, hp] at hrun
      exact ih b (h.2 b) hstops hrun
  | tryCatch p handler k _ _ _ => exact h.elim

end Order
end Script

/-! ### Flows -/

namespace Flow
variable {R : τ → τ → Prop}

/-- Where the flow stops, with whatever happens downstream, the database is as it was before or the flow
has come to its end. -/
def AllOrNothing (F : Flow (ρ × τ) ε α) : Prop :=
  ∀ emit s s', (F emit).Stops s s' → s'.1 = s.1 ∨ (F emit).run s = (.ok (), s')

theorem allOrNothing_inTransaction (F : Flow (ρ × τ) ε α) : F.inTransaction.AllOrNothing := by
  intro emit s s' hstops
  rcases hstops with ⟨hdata, -⟩ | ⟨u, s₁, hrun, rfl⟩
  · exact Or.inl hdata
  · right
    rw [Flow.inTransaction, Script.run_atomically, hrun]
    rfl

theorem allOrNothing_throwing (e : ε) : (throwing e : Flow (ρ × τ) ε α).AllOrNothing := by
  intro emit s s' hstops
  left
  cases hstops
  rfl

theorem AllOrNothing.flatMapConcat {F : Flow (ρ × τ) ε α} (hF : F.AllOrNothing) (g : α → Flow (ρ × τ) ε β) :
    (F.flatMapConcat g).AllOrNothing := fun _ => hF _

theorem AllOrNothing.map {F : Flow (ρ × τ) ε α} (hF : F.AllOrNothing) (f : α → Action (ρ × τ) ε β) :
    (F.map f).AllOrNothing := fun _ => hF _

/-- The code before the flow only reads. -/
theorem allOrNothing_after {act : Action (ρ × τ) ε α} {g : α → Flow (ρ × τ) ε β}
    (hact : ∀ s s', act.Stops s s' → s' = s) (hg : ∀ a, (g a).AllOrNothing) :
    (Flow.after act g).AllOrNothing := by
  intro emit s s' hstops
  rcases (Script.stops_bind_iff _ _ _ _).mp hstops with hread | ⟨a, s₁, hrun, hrest⟩
  · rw [hact s s' hread]
    exact Or.inl rfl
  · obtain rfl := hact s s₁ (Script.stops_of_run hrun)
    rcases hg a emit s₁ s' hrest with hdata | hend
    · exact Or.inl hdata
    · right
      rw [Flow.after, Script.run_bind, hrun]
      exact hend

/-- A stop right before the end leaves the database as it was before, with the variables as at the end. -/
def CommitsLast (F : Flow (ρ × τ) ε α) (s : ρ × τ) : Prop :=
  ∀ emit s', (F emit).run s = (.ok (), s') → (F emit).Stops s (s.1, s'.2)

theorem commitsLast_inTransaction (F : Flow (ρ × τ) ε α) (s : ρ × τ) : F.inTransaction.CommitsLast s := by
  intro emit s' hrun
  rw [Flow.inTransaction, Script.run_atomically] at hrun
  rcases hbody : (F emit).run s with ⟨e | u, s₁⟩
  · rw [hbody] at hrun
    cases hrun
  · rw [hbody] at hrun
    cases hrun
    exact Or.inl ⟨rfl, s'.1, Script.stops_of_run hbody⟩

theorem CommitsLast.after {act : Action (ρ × τ) ε α} {g : α → Flow (ρ × τ) ε β} {s : ρ × τ} {a : α}
    (hact : act.run s = (.ok a, s)) (hg : (g a).CommitsLast s) : (Flow.after act g).CommitsLast s := by
  intro emit s' hrun
  rw [Flow.after, Script.run_bind, hact, Script.andThen_ok] at hrun
  exact (Script.stops_bind_iff _ _ _ _).mpr (Or.inr ⟨a, s, hact, hg emit s' hrun⟩)

theorem CommitsLast.flatMapConcat {F : Flow (ρ × τ) ε α} {s : ρ × τ} (hF : F.CommitsLast s)
    (g : α → Flow (ρ × τ) ε β) : (F.flatMapConcat g).CommitsLast s := fun _ => hF _

theorem CommitsLast.map {F : Flow (ρ × τ) ε α} {s : ρ × τ} (hF : F.CommitsLast s)
    (f : α → Action (ρ × τ) ε β) : (F.map f).CommitsLast s := fun _ => hF _

/-- The flows of a list, one after the other: those before the one that stops have come to their ends. -/
theorem stops_asFlow {F : α → Flow (ρ × τ) ε β} {emit : β → Action (ρ × τ) ε Unit} {xs : List α} {s s' : ρ × τ}
    (hstops : ((asFlow xs).flatMapConcat F emit).Stops s s') :
    ∃ ys zs s₁, xs = ys ++ zs ∧ ((asFlow ys).flatMapConcat F emit).run s = (.ok (), s₁) ∧
      (s' = s₁ ∨ ∃ z zs', zs = z :: zs' ∧ (F z emit).Stops s₁ s') := by
  induction xs generalizing s with
  | nil => exact ⟨[], [], s, rfl, rfl, Or.inl hstops⟩
  | cons x xs ih =>
    rcases (Script.stops_bind_iff _ _ _ _).mp hstops with hstops | ⟨u, s₁, hrun, hstops⟩
    · exact ⟨[], x :: xs, s, rfl, rfl, Or.inr ⟨x, xs, rfl, hstops⟩⟩
    · obtain ⟨ys, zs, s₂, rfl, hys, hstops⟩ := ih hstops
      refine ⟨x :: ys, zs, s₂, rfl, ?_, hstops⟩
      exact (Script.run_bind _ _ _).trans (by rw [hrun]; exact hys)

theorem stops_asFlow_append {F : α → Flow (ρ × τ) ε β} {emit : β → Action (ρ × τ) ε Unit} {ys : List α} {z : α}
    (zs : List α) {s s₁ s' : ρ × τ} (hys : ((asFlow ys).flatMapConcat F emit).run s = (.ok (), s₁))
    (hz : (F z emit).Stops s₁ s') : ((asFlow (ys ++ z :: zs)).flatMapConcat F emit).Stops s s' := by
  induction ys generalizing s with
  | nil =>
    cases hys
    exact (Script.stops_bind_iff _ _ _ _).mpr (Or.inl hz)
  | cons y ys ih =>
    have hbind : Script.andThen (fun _ => (asFlow ys).flatMapConcat F emit) ((F y emit).run s) = (.ok (), s₁) :=
      (Script.run_bind _ _ _).symm.trans hys
    rcases hy : (F y emit).run s with ⟨e | u, s₂⟩
    · rw [hy] at hbind
      cases hbind
    · rw [hy] at hbind
      exact (Script.stops_bind_iff _ _ _ _).mpr (Or.inr ⟨u, s₂, hy, ih hbind⟩)

/-- Every statement moves the variables along `R`, if those of the collector do. -/
def Along (R : τ → τ → Prop) (F : Flow (ρ × τ) ε α) : Prop :=
  ∀ emit, (∀ a, (emit a).Along R) → (F emit).Along R

theorem along_flowOf (a : α) : (flowOf a : Flow (ρ × τ) ε α).Along R := fun _ hemit => hemit a

theorem along_throwing (e : ε) : (throwing e : Flow (ρ × τ) ε α).Along R := fun _ _ => trivial

theorem along_after {act : Action (ρ × τ) ε α} {g : α → Flow (ρ × τ) ε β} (hact : act.Along R)
    (hg : ∀ a, (g a).Along R) : (Flow.after act g).Along R :=
  fun emit hemit => hact.bind fun a => hg a emit hemit

theorem Along.flatMapConcat {F : Flow (ρ × τ) ε α} {g : α → Flow (ρ × τ) ε β} (hF : F.Along R)
    (hg : ∀ a, (g a).Along R) : (F.flatMapConcat g).Along R :=
  fun emit hemit => hF _ fun a => hg a emit hemit

theorem Along.map {F : Flow (ρ × τ) ε α} {f : α → Action (ρ × τ) ε β} (hF : F.Along R)
    (hf : ∀ a, (f a).Along R) : (F.map f).Along R :=
  fun _ hemit => hF _ fun a => (hf a).bind hemit

theorem Along.inTransaction {F : Flow (ρ × τ) ε α} (hF : F.Along R) : F.inTransaction.Along R :=
  fun emit hemit => ⟨hF emit hemit, fun _ => trivial⟩

theorem Along.drain {F : Flow (ρ × τ) ε α} (hF : F.Along R) : F.drain.Along R := hF _ fun _ => trivial

theorem along_asFlow (xs : List α) : (asFlow xs : Flow (ρ × τ) ε α).Along R := by
  intro emit hemit
  induction xs with
  | nil => trivial
  | cons x xs ih => exact (hemit x).bind fun _ => ih

end Flow

theorem Action.along_ofExcept {R : τ → τ → Prop} (x : Except ε α) :
    (Action.ofExcept x : Action (ρ × τ) ε α).Along R := by
  cases x with
  | ok a => trivial
  | error e => trivial

end Coroutine
