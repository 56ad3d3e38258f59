import Cigars.Coroutine.Interleaving
import Mathlib.Algebra.Group.Defs
import Mathlib.Data.Set.Basic

/-! Programs that act on some cells of the state only. What a program can see of a state are the
values of its cells; beside them there is a log that statements add to and never read. `Local` compares
two programs that differ at most in values that decide nothing, such as the position of a log entry:
from states that agree on the cells of `A` both take the same way, change nothing outside `A` and add
the same to the log. -/
namespace Coroutine

/-- The cells of a state and its log. -/
structure Layout (σ κ : Type) (ν : κ → Type) (M : Type) where
  cell : σ → (k : κ) → ν k
  log : σ → M

namespace Layout
variable {σ κ M : Type} {ν : κ → Type} (L : Layout σ κ ν M)

def AgreeOn (A : Set κ) (s t : σ) : Prop := ∀ k ∈ A, L.cell s k = L.cell t k

variable {L}

theorem AgreeOn.refl (A : Set κ) (s : σ) : L.AgreeOn A s s := fun _ _ => rfl

theorem AgreeOn.trans {A : Set κ} {s t u : σ} (h₁ : L.AgreeOn A s t) (h₂ : L.AgreeOn A t u) : L.AgreeOn A s u :=
  fun k hk => (h₁ k hk).trans (h₂ k hk)

variable [AddCommMonoid M]

/-- A move from `s` to `s'` and one from `t` to `t'` that do the same to the cells of `A`, nothing to
the others, and add the same to the log. -/
structure Moves (L : Layout σ κ ν M) (A : Set κ) (s s' t t' : σ) : Prop where
  agree : L.AgreeOn A s' t'
  left : L.AgreeOn Aᶜ s s'
  right : L.AgreeOn Aᶜ t t'
  log : ∃ d, L.log s' = L.log s + d ∧ L.log t' = L.log t + d

theorem Moves.refl {A : Set κ} {s t : σ} (h : L.AgreeOn A s t) : L.Moves A s s t t where
  agree := h
  left := .refl _ _
  right := .refl _ _
  log := ⟨0, (add_zero _).symm, (add_zero _).symm⟩

theorem Moves.trans {A : Set κ} {s s₁ s₂ t t₁ t₂ : σ} (h₁ : L.Moves A s s₁ t t₁) (h₂ : L.Moves A s₁ s₂ t₁ t₂) :
    L.Moves A s s₂ t t₂ where
  agree := h₂.agree
  left := h₁.left.trans h₂.left
  right := h₁.right.trans h₂.right
  log := by
    obtain ⟨d₁, hs₁, ht₁⟩ := h₁.log
    obtain ⟨d₂, hs₂, ht₂⟩ := h₂.log
    exact ⟨d₁ + d₂, by rw [hs₂, hs₁, add_assoc], by rw [ht₂, ht₁, add_assoc]⟩

/-- Writes of one cell that look at no other, and add `d` to the log. -/
theorem moves_of_write {f : σ → σ} {w : κ} {d : M} (hother : ∀ s k, k ≠ w → L.cell (f s) k = L.cell s k)
    (hwrite : ∀ s t, L.cell s w = L.cell t w → L.cell (f s) w = L.cell (f t) w)
    (hlog : ∀ s, L.log (f s) = L.log s + d) {A : Set κ} (hw : w ∈ A) {s t : σ} (hst : L.AgreeOn A s t) :
    L.Moves A s (f s) t (f t) where
  agree := by
    intro k hk
    by_cases hkw : k = w
    · subst hkw
      exact hwrite s t (hst k hk)
    · rw [hother s k hkw, hother t k hkw]
      exact hst k hk
  left k hk := (hother s k fun hkw => hk (hkw ▸ hw)).symm
  right k hk := (hother t k fun hkw => hk (hkw ▸ hw)).symm
  log := ⟨d, hlog s, hlog t⟩

end Layout

variable {σ ε κ M α β γ δ : Type} {ν : κ → Type} [AddCommMonoid M] {L : Layout σ κ ν M} {A : Set κ}

namespace Script

/-- From states that agree on `A` the two programs take the same steps, throw the same, and end with
values that `R` holds of. -/
def Local (L : Layout σ κ ν M) (A : Set κ) :
    {α β : Type} → Script σ ε α → Script σ ε β → (α → β → Prop) → Prop
  | _, _, done a, done b, R => R a b
  | _, _, raise e, raise e', _ => e = e'
  | _, _, stmt f k, stmt g l, R => ∀ s t, L.AgreeOn A s t →
      (∃ b s' c t', f s = .ok (b, s') ∧ g t = .ok (c, t') ∧ L.Moves A s s' t t' ∧ (k b).Local L A (l c) R) ∨
        ∃ e, f s = .error e ∧ g t = .error e
  | _, _, transaction p k, transaction q l, R => p.Local L A q fun b c => (k b).Local L A (l c) R
  | _, _, tryCatch p h k, tryCatch q g l, R =>
    (p.Local L A q fun b c => (k b).Local L A (l c) R) ∧
      ∀ e, (h e).Local L A (g e) fun b c => (k b).Local L A (l c) R
  | _, _, _, _, _ => False

theorem Local.mono {p : Script σ ε α} {q : Script σ ε β} {R R' : α → β → Prop} (h : p.Local L A q R)
    (hR : ∀ a b, R a b → R' a b) : p.Local L A q R' := by
  induction p generalizing β with
  | done a =>
    cases q with
    | done b => exact hR a b h
    | _ => exact False.elim h
  | raise e =>
    cases q with
    | raise e' => exact h
    | _ => exact False.elim h
  | stmt f k ih =>
    cases q with
    | stmt g l =>
      intro s t hst
      rcases h s t hst with ⟨b, s', c, t', hf, hg, hmoves, hrest⟩ | herror
      · exact Or.inl ⟨b, s', c, t', hf, hg, hmoves, ih b hrest hR⟩
      · exact Or.inr herror
    | _ => exact False.elim h
  | transaction p k ihp ih =>
    cases q with
    | transaction q l => exact ihp h fun b c hbc => ih b hbc hR
    | _ => exact False.elim h
  | tryCatch p g k ihp ihg ih =>
    cases q with
    | tryCatch q g' l =>
      exact ⟨ihp h.1 fun b c hbc => ih b hbc hR, fun e => ihg e (h.2 e) fun b c hbc => ih b hbc hR⟩
    | _ => exact False.elim h

theorem Local.bind {p : Script σ ε α} {q : Script σ ε β} {f : α → Script σ ε γ} {g : β → Script σ ε δ}
    {R : γ → δ → Prop} (h : p.Local L A q fun a b => (f a).Local L A (g b) R) :
    (p.bind f).Local L A (q.bind g) R := by
  induction p generalizing β with
  | done a =>
    cases q with
    | done b => exact h
    | _ => exact False.elim h
  | raise e =>
    cases q with
    | raise e' => exact h
    | _ => exact False.elim h
  | stmt f' k ih =>
    cases q with
    | stmt g' l =>
      intro s t hst
      rcases h s t hst with ⟨b, s', c, t', hf, hg, hmoves, hrest⟩ | herror
      · exact Or.inl ⟨b, s', c, t', hf, hg, hmoves, ih b hrest⟩
      · exact Or.inr herror
    | _ => exact False.elim h
  | transaction p k _ ih =>
    cases q with
    | transaction q l =>
      have hbody : p.Local L A q fun b c => (k b).Local L A (l c) fun a b => (f a).Local L A (g b) R := h
      exact hbody.mono fun b c hbc => ih b hbc
    | _ => exact False.elim h
  | tryCatch p h' k _ _ ih =>
    cases q with
    | tryCatch q g' l =>
      exact ⟨h.1.mono fun b c hbc => ih b hbc, fun e => (h.2 e).mono fun b c hbc => ih b hbc⟩
    | _ => exact False.elim h

/-- Two runs end alike: both with a value or both with the same exception. -/
def EndAlike (L : Layout σ κ ν M) (A : Set κ) (R : α → β → Prop) (s t : σ) (x : Except ε α × σ) (y : Except ε β × σ) :
    Prop :=
  L.Moves A s x.2 t y.2 ∧ ((∃ a b, x.1 = .ok a ∧ y.1 = .ok b ∧ R a b) ∨ ∃ e, x.1 = .error e ∧ y.1 = .error e)

theorem EndAlike.after {R : α → β → Prop} {s s' t t' : σ} {x : Except ε α × σ} {y : Except ε β × σ}
    (hmoves : L.Moves A s s' t t') (h : EndAlike L A R s' t' x y) : EndAlike L A R s t x y :=
  ⟨hmoves.trans h.1, h.2⟩

theorem Local.run {p : Script σ ε α} {q : Script σ ε β} {R : α → β → Prop} (h : p.Local L A q R) {s t : σ}
    (hst : L.AgreeOn A s t) : EndAlike L A R s t (p.run s) (q.run t) := by
  induction p generalizing β s t with
  | done a =>
    cases q with
    | done b => exact ⟨.refl hst, Or.inl ⟨a, b, rfl, rfl, h⟩⟩
    | _ => exact False.elim h
  | raise e =>
    cases q with
    | raise e' =>
      cases (show e = e' from h)
      exact ⟨.refl hst, Or.inr ⟨e, rfl, rfl⟩⟩
    | _ => exact False.elim h
  | stmt f k ih =>
    cases q with
    | stmt g l =>
      rcases h s t hst with ⟨b, s', c, t', hf, hg, hmoves, hrest⟩ | ⟨e, hf, hg⟩
      · simp only [Script.run, hf, hg]
        exact (ih b hrest hmoves.agree).after hmoves
      · simp only [Script.run, hf, hg]
        exact ⟨.refl hst, Or.inr ⟨e, rfl, rfl⟩⟩
    | _ => exact False.elim h
  | transaction p k ihp ih =>
    cases q with
    | transaction q l =>
      obtain ⟨hmoves, hends⟩ := ihp h hst
      rcases hp : p.run s with ⟨x, s'⟩
      rcases hq : q.run t with ⟨y, t'⟩
      rw [hp, hq] at hmoves hends
      rcases hends with ⟨b, c, rfl, rfl, hrest⟩ | ⟨e, rfl, rfl⟩
      · simp only [Script.run, hp, hq]
        exact (ih b hrest hmoves.agree).after hmoves
      · simp only [Script.run, hp, hq]
        exact ⟨.refl hst, Or.inr ⟨e, rfl, rfl⟩⟩
    | _ => exact False.elim h
  | tryCatch p g k ihp ihg ih =>
    cases q with
    | tryCatch q g' l =>
      obtain ⟨hmoves, hends⟩ := ihp h.1 hst
      rcases hp : p.run s with ⟨x, s'⟩
      rcases hq : q.run t with ⟨y, t'⟩
      rw [hp, hq] at hmoves hends
      rcases hends with ⟨b, c, rfl, rfl, hrest⟩ | ⟨e, rfl, rfl⟩
      · simp only [Script.run, hp, hq]
        exact (ih b hrest hmoves.agree).after hmoves
      · obtain ⟨hmoves', hends'⟩ := ihg e (h.2 e) hmoves.agree
        rcases hg : (g e).run s' with ⟨x', s''⟩
        rcases hg' : (g' e).run t' with ⟨y', t''⟩
        rw [hg, hg'] at hmoves' hends'
        rcases hends' with ⟨b, c, rfl, rfl, hrest⟩ | ⟨e', rfl, rfl⟩
        · simp only [Script.run, hp, hq, hg, hg']
          exact (ih b hrest hmoves'.agree).after (hmoves.trans hmoves')
        · simp only [Script.run, hp, hq, hg, hg']
          exact ⟨hmoves.trans hmoves', Or.inr ⟨e', rfl, rfl⟩⟩
    | _ => exact False.elim h

/-- Only a program that has ended has no next step. -/
theorem exists_eq_liftExcept_of_step {p : Script σ ε α} {s : σ} (h : p.step s = none) : ∃ r, p = liftExcept r := by
  induction p with
  | done a => exact ⟨.ok a, rfl⟩
  | raise e => exact ⟨.error e, rfl⟩
  | stmt f k _ =>
    simp only [Script.step] at h
    cases hf : f s with
    | error e => rw [hf] at h; cases h
    | ok r => rw [hf] at h; cases h
  | transaction p k _ _ =>
    simp only [Script.step] at h
    rcases hp : p.run s with ⟨e | b, t⟩
    · rw [hp] at h; cases h
    · rw [hp] at h; cases h
  | tryCatch p g k ihp _ _ =>
    simp only [Script.step] at h
    cases hp : p.step s with
    | some r => rw [hp] at h; cases h
    | none =>
      obtain ⟨r, rfl⟩ := ihp hp
      cases r with
      | error e => cases h
      | ok b => cases h

@[simp] theorem step_liftExcept (r : Except ε α) (s : σ) : (liftExcept r : Script σ ε α).step s = none := by
  cases r <;> rfl

theorem run_liftExcept (r : Except ε α) (s : σ) : (liftExcept r : Script σ ε α).run s = (r, s) := by
  cases r <;> rfl

/-- A step leads on to the same end. -/
theorem run_eq_of_step {p p' : Script σ ε α} {s s' : σ} (h : p.step s = some (p', s')) : p.run s = p'.run s' := by
  induction p generalizing s' with
  | done a => cases h
  | raise e => cases h
  | stmt f k _ =>
    simp only [Script.step] at h
    cases hf : f s with
    | error e => rw [hf] at h; cases h; simp only [Script.run, hf]
    | ok r => rw [hf] at h; cases h; simp only [Script.run, hf]
  | transaction p k _ _ =>
    simp only [Script.step] at h
    rcases hp : p.run s with ⟨e | b, t⟩
    · rw [hp] at h; cases h; simp only [Script.run, hp]
    · rw [hp] at h; cases h; simp only [Script.run, hp]
  | tryCatch p g k ihp _ _ =>
    rcases step_tryCatch h with ⟨p₁, hp, rfl⟩ | ⟨b, rfl, rfl, rfl⟩ | ⟨e, rfl, rfl, rfl⟩
    · simp only [Script.run, ihp hp]
    · rfl
    · have hbind := run_bind (g e) k s'
      change (tryCatch (raise e) g k).run s' = ((g e) >>= k).run s'
      rw [hbind]
      simp only [Script.run]
      rcases (g e).run s' with ⟨e' | b, t⟩ <;> rfl

/-- The states that the program goes through, step by step, when it runs alone from `s`. -/
def Passes : Script σ ε α → σ → List σ → Prop
  | p, s, [] => p.step s = none
  | p, s, s' :: path => ∃ p', p.step s = some (p', s') ∧ p'.Passes s' path

/-- The last of them is where it ends. -/
theorem Passes.getLastD {p : Script σ ε α} {s : σ} {path : List σ} (h : p.Passes s path) :
    path.getLastD s = (p.run s).2 := by
  induction path generalizing p s with
  | nil =>
    obtain ⟨r, rfl⟩ := exists_eq_liftExcept_of_step h
    rw [run_liftExcept]
    rfl
  | cons s' path ih =>
    obtain ⟨p', hstep, hpath⟩ := h
    rw [run_eq_of_step hstep, ← ih hpath, List.getLastD_cons]

theorem Leads.exists_passes {a b : Script σ ε α × σ} (h : Leads a b) (hend : b.1.step b.2 = none) :
    ∃ path, a.1.Passes a.2 path := by
  induction h using Relation.ReflTransGen.head_induction_on with
  | refl => exact ⟨[], hend⟩
  | @head a next hstep _ ih =>
    obtain ⟨path, hpath⟩ := ih
    exact ⟨next.2 :: path, next.1, hstep, hpath⟩

/-- Every program comes to its end. -/
theorem exists_passes (p : Script σ ε α) (s : σ) : ∃ path, p.Passes s path :=
  (leads_run p s).exists_passes (step_liftExcept _ _)

/-- Both programs have ended, or both take a step. -/
theorem Local.step {p : Script σ ε α} {q : Script σ ε β} {R : α → β → Prop} (h : p.Local L A q R) {s t : σ}
    (hst : L.AgreeOn A s t) :
    (p.step s = none ∧ q.step t = none) ∨
      ∃ p' s' q' t', p.step s = some (p', s') ∧ q.step t = some (q', t') ∧ L.Moves A s s' t t' ∧
        p'.Local L A q' R := by
  induction p generalizing β with
  | done a =>
    cases q with
    | done b => exact Or.inl ⟨rfl, rfl⟩
    | _ => exact False.elim h
  | raise e =>
    cases q with
    | raise e' => exact Or.inl ⟨rfl, rfl⟩
    | _ => exact False.elim h
  | stmt f k _ =>
    cases q with
    | stmt g l =>
      right
      rcases h s t hst with ⟨b, s', c, t', hf, hg, hmoves, hrest⟩ | ⟨e, hf, hg⟩
      · simp only [Script.step, hf, hg]
        exact ⟨_, _, _, _, rfl, rfl, hmoves, hrest⟩
      · simp only [Script.step, hf, hg]
        exact ⟨_, _, _, _, rfl, rfl, .refl hst, rfl⟩
    | _ => exact False.elim h
  | transaction p k _ _ =>
    cases q with
    | transaction q l =>
      right
      have hbody : p.Local L A q fun b c => (k b).Local L A (l c) R := h
      obtain ⟨hmoves, hends⟩ := hbody.run hst
      rcases hp : p.run s with ⟨x, s'⟩
      rcases hq : q.run t with ⟨y, t'⟩
      rw [hp, hq] at hmoves hends
      rcases hends with ⟨b, c, rfl, rfl, hrest⟩ | ⟨e, rfl, rfl⟩
      · simp only [Script.step, hp, hq]
        exact ⟨_, _, _, _, rfl, rfl, hmoves, hrest⟩
      · simp only [Script.step, hp, hq]
        exact ⟨_, _, _, _, rfl, rfl, .refl hst, rfl⟩
    | _ => exact False.elim h
  | tryCatch p g k ihp _ _ =>
    cases q with
    | tryCatch q g' l =>
      right
      rcases ihp h.1 with ⟨hp, hq⟩ | ⟨p', s', q', t', hp, hq, hmoves, hrest⟩
      · -- The body has ended, in the same way in both programs.
        obtain ⟨x, rfl⟩ := exists_eq_liftExcept_of_step hp
        obtain ⟨y, rfl⟩ := exists_eq_liftExcept_of_step hq
        cases x with
        | ok b =>
          cases y with
          | ok c => exact ⟨_, _, _, _, rfl, rfl, .refl hst, h.1⟩
          | error e => exact False.elim h.1
        | error e =>
          cases y with
          | ok c => exact False.elim h.1
          | error e' =>
            cases (show e = e' from h.1)
            exact ⟨_, _, _, _, rfl, rfl, .refl hst, (h.2 e).bind⟩
      · simp only [Script.step, hp, hq]
        exact ⟨_, _, _, _, rfl, rfl, hmoves, hrest, h.2⟩
    | _ => exact False.elim h

end Script

/-! ### Rules for flows -/

namespace Action

theorem local_query {f : σ → Except ε α} {Q : α → Prop} (h : ∀ s t, L.AgreeOn A s t → f s = f t)
    (hQ : ∀ s a, f s = .ok a → Q a) : (query f).Local L A (query f) fun a b => a = b ∧ Q a := by
  intro s t hst
  dsimp only
  rw [h s t hst]
  cases hf : f t with
  | ok a => exact Or.inl ⟨a, s, a, t, rfl, rfl, .refl hst, rfl, hQ t a hf⟩
  | error e => exact Or.inr ⟨⟨0, e⟩, rfl, rfl⟩

theorem local_statement {f : σ → Except ε (α × σ)} {R : α → α → Prop}
    (h : ∀ s t, L.AgreeOn A s t →
      (∃ a s' b t', f s = .ok (a, s') ∧ f t = .ok (b, t') ∧ L.Moves A s s' t t' ∧ R a b) ∨
        ∃ e, f s = .error e ∧ f t = .error e) : (statement f).Local L A (statement f) R := by
  intro s t hst
  rcases h s t hst with ⟨a, s', b, t', hs, ht, hmoves, hR⟩ | ⟨e, hs, ht⟩
  · exact Or.inl ⟨a, s', b, t', congrArg (Except.mapError _) hs, congrArg (Except.mapError _) ht, hmoves, hR⟩
  · exact Or.inr ⟨⟨0, e⟩, congrArg (Except.mapError _) hs, congrArg (Except.mapError _) ht⟩

theorem local_write {f : σ → σ} (h : ∀ s t, L.AgreeOn A s t → L.Moves A s (f s) t (f t)) :
    (Script.write f : Action σ ε Unit).Local L A (Script.write f) Eq :=
  fun s t hst => Or.inl ⟨(), f s, (), f t, rfl, rfl, h s t hst, rfl⟩

theorem local_ofExcept (x : Except ε α) : (ofExcept x : Action σ ε α).Local L A (ofExcept x) Eq := by
  cases x <;> rfl

end Action

namespace Flow
variable {F F' : Flow σ ε α} {g g' : α → Flow σ ε β} {Q : α → α → Prop} {R : β → β → Prop}

/-- The two flows take the same steps and hand on values that `R` holds of. -/
def Local (L : Layout σ κ ν M) (A : Set κ) (F F' : Flow σ ε α) (R : α → α → Prop) : Prop :=
  ∀ emit emit', (∀ a b, R a b → (emit a).Local L A (emit' b) fun _ _ => True) →
    (F emit).Local L A (F' emit') fun _ _ => True

theorem local_flowOf {a b : α} (h : Q a b) : (flowOf a : Flow σ ε α).Local L A (flowOf b) Q :=
  fun _ _ hemit => hemit a b h

theorem local_throwing (e : ε) : (throwing e : Flow σ ε α).Local L A (throwing e) Q := fun _ _ _ => rfl

theorem local_after {act act' : Action σ ε α} (hact : act.Local L A act' Q)
    (hg : ∀ a b, Q a b → (g a).Local L A (g' b) R) : (after act g).Local L A (after act' g') R :=
  fun emit emit' hemit => Script.Local.bind (hact.mono fun a b hab => hg a b hab emit emit' hemit)

theorem Local.flatMapConcat (hF : F.Local L A F' Q) (hg : ∀ a b, Q a b → (g a).Local L A (g' b) R) :
    (F.flatMapConcat g).Local L A (F'.flatMapConcat g') R :=
  fun emit emit' hemit => hF _ _ fun a b hab => hg a b hab emit emit' hemit

theorem Local.map {f f' : α → Action σ ε β} (hF : F.Local L A F' Q)
    (hf : ∀ a b, Q a b → (f a).Local L A (f' b) R) : (F.map f).Local L A (F'.map f') R :=
  fun _ _ hemit => hF _ _ fun a b hab => Script.Local.bind ((hf a b hab).mono hemit)

theorem Local.inTransaction (hF : F.Local L A F' Q) : F.inTransaction.Local L A F'.inTransaction Q :=
  fun emit emit' hemit => (hF emit emit' hemit).mono fun _ _ _ => trivial

theorem Local.catchError (hF : F.Local L A F' Q) {handler : ε → Action σ ε Unit}
    (hh : ∀ e, (handler e).Local L A (handler e) fun _ _ => True) :
    (F.catchError handler).Local L A (F'.catchError handler) Q := by
  intro emit emit' hemit
  refine ⟨(hF _ _ fun a b hab => ?_).mono fun _ _ _ => trivial, fun r => ?_⟩
  · exact ⟨(hemit a b hab).mono fun _ _ _ => trivial, fun _ => rfl⟩
  · cases hd : r.depth with
    | zero =>
      simp only [hd]
      exact (hh r.exn).mono fun _ _ _ => trivial
    | succ d =>
      simp only [hd]
      rfl

theorem Local.drain (hF : F.Local L A F' Q) : F.drain.Local L A F'.drain fun _ _ => True :=
  hF _ _ fun _ _ _ => trivial

end Flow
end Coroutine
