import Cigars.Coroutine.Interruption
import Cigars.Coroutine.Locality

/-! Programs that stop on their way, where the whole state is kept by a database. -/
namespace Coroutine

variable {σ τ ε α β : Type}

namespace Script

theorem beside_bind (p : Script σ ε α) (f : α → Script σ ε β) :
    ((p >>= f).beside : Script (σ × τ) ε β) = p.beside >>= fun a => (f a).beside := by
  change (p.bind f).beside = p.beside.bind fun a => (f a).beside
  induction p with
  | done a => rfl
  | raise e => rfl
  | stmt g k ih => simp only [bind, beside, ih]
  | transaction p k _ ih => simp only [bind, beside, ih]
  | tryCatch p h k _ _ ih => simp only [bind, beside, ih]

theorem run_beside_ok_iff (p : Script σ ε α) (s s' : σ) (a : α) (t t' : Unit) :
    p.beside.run (s, t) = (.ok a, s', t') ↔ p.run s = (.ok a, s') := by
  rw [mirrors_beside p s t]
  rcases p.run s with ⟨e | b, s₁⟩ <;> simp

theorem run_beside_error_iff (p : Script σ ε α) (s s' : σ) (e : ε) (t t' : Unit) :
    p.beside.run (s, t) = (.error e, s', t') ↔ p.run s = (.error e, s') := by
  rw [mirrors_beside p s t]
  rcases p.run s with ⟨e | b, s₁⟩ <;> simp

/-- What may be left of `s` when the script is killed or throws at some point, or has come to its end. -/
def Halts (p : Script σ ε α) (s s' : σ) : Prop := (p.beside : Script (σ × Unit) ε α).Stops (s, ()) (s', ())

variable {p : Script σ ε α} {s s' : σ}

theorem halts_pure {a : α} (h : (pure a : Script σ ε α).Halts s s') : s' = s := congrArg Prod.fst h

theorem halts_raise {e : ε} (h : (raise e : Script σ ε α).Halts s s') : s' = s := congrArg Prod.fst h

theorem halts_of_run {a : α} (h : p.run s = (.ok a, s')) : p.Halts s s' :=
  stops_of_run ((run_beside_ok_iff p s s' a () ()).mpr h)

theorem halts_of_error {e : ε} (h : p.run s = (.error e, s')) : p.Halts s s' := by
  obtain ⟨t, hstops⟩ := stops_of_error ((run_beside_error_iff p s s' e () ()).mpr h)
  exact hstops

theorem halts_bind_iff (p : Script σ ε α) (f : α → Script σ ε β) (s s' : σ) :
    (p >>= f).Halts s s' ↔ p.Halts s s' ∨ ∃ a s₁, p.run s = (.ok a, s₁) ∧ (f a).Halts s₁ s' := by
  unfold Halts
  rw [beside_bind, stops_bind_iff]
  refine or_congr_right (exists_congr fun a => ?_)
  constructor
  · rintro ⟨⟨s₁, t⟩, hrun, hstops⟩
    exact ⟨s₁, (run_beside_ok_iff p s s₁ a () t).mp hrun, hstops⟩
  · rintro ⟨s₁, hrun, hstops⟩
    exact ⟨(s₁, ()), (run_beside_ok_iff p s s₁ a () ()).mpr hrun, hstops⟩

/-- Whoever stops after a step has stopped on the way. -/
theorem halts_of_step {p' : Script σ ε α} {s₁ : σ} (hstep : p.step s = some (p', s₁)) (h : p'.Halts s₁ s') :
    p.Halts s s' := by
  induction p generalizing s₁ s' with
  | done a => cases hstep
  | raise e => cases hstep
  | stmt f k _ =>
    simp only [Script.step] at hstep
    cases hf : f s with
    | error e =>
      rw [hf] at hstep
      cases hstep
      exact Or.inl h
    | ok r =>
      rw [hf] at hstep
      cases hstep
      exact Or.inr ⟨r.1, (r.2, ()), by simp [hf, Except.map], h⟩
  | transaction p k _ _ =>
    simp only [Script.step] at hstep
    rcases hp : p.run s with ⟨e | b, t⟩
    · rw [hp] at hstep
      cases hstep
      rw [halts_raise h]
      exact stops_self _ _
    · rw [hp] at hstep
      cases hstep
      exact Or.inr ⟨b, (s₁, ()), (run_beside_ok_iff p s s₁ b () ()).mpr hp, h⟩
  | tryCatch p g k ihp _ _ =>
    rcases step_tryCatch hstep with ⟨p₁, hp, rfl⟩ | ⟨b, rfl, rfl, rfl⟩ | ⟨e, rfl, rfl, rfl⟩
    · have hrun := run_eq_of_step hp
      rcases h with hbody | ⟨b, ⟨s₂, t⟩, hok, hrest⟩ | ⟨e, ⟨s₂, t⟩, herror, hrest⟩
      · exact Or.inl (ihp hp hbody)
      · rw [run_beside_ok_iff, ← hrun] at hok
        exact Or.inr (Or.inl ⟨b, (s₂, ()), (run_beside_ok_iff p s s₂ b () ()).mpr hok, hrest⟩)
      · rw [run_beside_error_iff, ← hrun] at herror
        exact Or.inr (Or.inr ⟨e, (s₂, ()), (run_beside_error_iff p s s₂ e () ()).mpr herror, hrest⟩)
    · exact Or.inr (Or.inl ⟨b, (s₁, ()), rfl, h⟩)
    · refine Or.inr (Or.inr ⟨e, (s₁, ()), rfl, ?_⟩)
      rcases (halts_bind_iff (g e) k s₁ s').mp h with hhandler | ⟨b, s₂, hok, hrest⟩
      · exact Or.inl hhandler
      · exact Or.inr ⟨b, (s₂, ()), (run_beside_ok_iff (g e) s₁ s₂ b () ()).mpr hok, hrest⟩

/-- The states that a program goes through are among those it may stop in. -/
theorem Passes.halts {path : List σ} (h : p.Passes s path) (hs' : s' ∈ path) : p.Halts s s' := by
  induction path generalizing p s with
  | nil => cases hs'
  | cons s₁ path ih =>
    obtain ⟨p', hstep, hpath⟩ := h
    rcases List.mem_cons.mp hs' with rfl | hs'
    · exact halts_of_step hstep (stops_self _ _)
    · exact halts_of_step hstep (ih hpath hs')

/-- A transaction is rolled back or has come to its end. -/
theorem halts_atomically (h : (atomically p).Halts s s') : s' = s ∨ ∃ a, p.run s = (.ok a, s') := by
  rcases h with ⟨hdata, -⟩ | ⟨a, ⟨s₁, t⟩, hrun, hend⟩
  · exact Or.inl hdata
  · cases hend
    exact Or.inr ⟨a, (run_beside_ok_iff p s s' a () ()).mp hrun⟩

theorem halts_catching {handler : ε → Script σ ε α} (h : (catching p handler).Halts s s') :
    p.Halts s s' ∨ ∃ e s₁, p.run s = (.error e, s₁) ∧ (handler e).Halts s₁ s' := by
  rcases h with hbody | ⟨a, s₁, hrun, hend⟩ | ⟨e, ⟨s₁, t⟩, hrun, hhandler | ⟨a, s₂, hrun', hend⟩⟩
  · exact Or.inl hbody
  · cases hend
    exact Or.inl (halts_of_run ((run_beside_ok_iff p s s' a () ()).mp hrun))
  · exact Or.inr ⟨e, s₁, (run_beside_error_iff p s s₁ e () t).mp hrun, hhandler⟩
  · cases hend
    refine Or.inr ⟨e, s₁, (run_beside_error_iff p s s₁ e () t).mp hrun, ?_⟩
    exact halts_of_run ((run_beside_ok_iff (handler e) s₁ s' a t ()).mp hrun')

/-- Before the statement, or after it. -/
theorem halts_write_bind {f : σ → σ} {k : Unit → Script σ ε α} (h : (write f >>= k).Halts s s') :
    s' = s ∨ (k ()).Halts (f s) s' := by
  rcases h with hstart | ⟨u, s₁, hf, hrest⟩
  · exact Or.inl (congrArg Prod.fst hstart)
  · cases hf
    exact Or.inr hrest

end Script

namespace Action
variable {s s' : σ}

theorem halts_ofExcept_bind {x : Except ε α} {k : α → Action σ ε β} (h : (ofExcept x >>= k).Halts s s') :
    s' = s ∨ ∃ a, x = .ok a ∧ (k a).Halts s s' := by
  cases x with
  | ok a => exact Or.inr ⟨a, rfl, h⟩
  | error e => exact Or.inl (Script.halts_raise h)

theorem halts_statement_bind {f : σ → Except ε (α × σ)} {k : α → Action σ ε β}
    (h : (statement f >>= k).Halts s s') : s' = s ∨ ∃ a s₁, f s = .ok (a, s₁) ∧ (k a).Halts s₁ s' := by
  rcases h with hstart | ⟨a, ⟨s₁, t⟩, hf, hrest⟩
  · exact Or.inl (congrArg Prod.fst hstart)
  · cases hs : f s with
    | error e =>
      simp only [hs] at hf
      cases hf
    | ok r =>
      simp only [hs] at hf
      cases hf
      exact Or.inr ⟨_, _, rfl, hrest⟩

theorem halts_query_bind {f : σ → Except ε α} {k : α → Action σ ε β} (h : (query f >>= k).Halts s s') :
    s' = s ∨ ∃ a, f s = .ok a ∧ (k a).Halts s s' := by
  rcases h with hstart | ⟨a, s₁, hf, hrest⟩
  · exact Or.inl (congrArg Prod.fst hstart)
  · cases hs : f s with
    | error e =>
      simp only [hs] at hf
      cases hf
    | ok b =>
      simp only [hs] at hf
      cases hf
      exact Or.inr ⟨_, rfl, hrest⟩

end Action

namespace Flow
variable {F : Flow σ ε α} {emit : α → Action σ ε Unit} {s s' : σ}

theorem halts_inTransaction (h : (F.inTransaction emit).Halts s s') : s' = s ∨ (F emit).run s = (.ok (), s') := by
  rcases Script.halts_atomically h with hstart | ⟨u, hrun⟩
  · exact Or.inl hstart
  · exact Or.inr hrun

/-- With a handler that leaves the state alone, what is thrown and caught is one more way to stop. -/
theorem halts_catchError {handler : ε → Action σ ε Unit} (hhandler : ∀ e s s', (handler e).Halts s s' → s' = s)
    (h : (F.catchError handler emit).Halts s s') :
    (F fun a => (emit a).catching fun r => .raise ⟨r.depth + 1, r.exn⟩).Halts s s' := by
  rcases Script.halts_catching h with hbody | ⟨⟨depth, e⟩, s₁, hrun, hhandled⟩
  · exact hbody
  · have hend : s' = s₁ := by
      cases depth with
      | zero => exact hhandler e s₁ s' hhandled
      | succ d => exact Script.halts_raise hhandled
    rw [hend]
    exact Script.halts_of_error hrun

/-- The collector takes every value and leaves the state alone. -/
def Takes (emit : α → Action σ ε Unit) : Prop := ∀ a s, (emit a).run s = (.ok (), s)

theorem halts_drain_catchError {handler : ε → Action σ ε Unit}
    (hhandler : ∀ e s s', (handler e).Halts s s' → s' = s) (h : (F.catchError handler).drain.Halts s s') :
    ∃ emit, Takes emit ∧ (F emit).Halts s s' :=
  ⟨_, fun _ _ => rfl, halts_catchError hhandler h⟩

theorem Emits.eq_of_run {a : α} {s₁ : σ} {back : σ → σ} (h : F.Emits s a s₁ back) (hemit : Takes emit)
    (hrun : (F emit).run s = (.ok (), s')) : s' = s₁ := by
  rw [h emit, hemit a s₁] at hrun
  exact (Prod.mk.inj hrun).2.symm

theorem Fails.not_run {e : ε} {s₁ : σ} (h : F.Fails s e s₁) : (F emit).run s ≠ (.ok (), s') := by
  intro hrun
  rw [h emit] at hrun
  cases (Prod.mk.inj hrun).1

end Flow
end Coroutine
