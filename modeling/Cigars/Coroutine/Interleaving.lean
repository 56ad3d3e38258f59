import Cigars.Coroutine.Flow
import Mathlib.Logic.Relation

/-! Two programs on one state, step by step in any order. A step is one statement or one whole
transaction. `Keeps` says what no step breaks, `Secures` that a property is reached on every path
before the program ends, whatever the other program does in between. -/
namespace Coroutine
namespace Script
variable {σ ε α β γ : Type}

theorem bind_assoc (p : Script σ ε α) (f : α → Script σ ε β) (g : β → Script σ ε γ) :
    (p.bind f).bind g = p.bind fun a => (f a).bind g := by
  induction p with
  | done a => rfl
  | raise e => rfl
  | stmt h k ih => exact congrArg (stmt h) (funext fun b => ih b f)
  | transaction p k _ ih => exact congrArg (transaction p) (funext fun b => ih b f)
  | tryCatch p h k _ _ ih => exact congrArg (tryCatch p h) (funext fun b => ih b f)

/-- The next step; `none` when the program has ended. -/
def step : {α : Type} → Script σ ε α → σ → Option (Script σ ε α × σ)
  | _, done _, _ => none
  | _, raise _, _ => none
  | _, stmt f k, s =>
    match f s with
    | .ok (b, s') => some (k b, s')
    | .error e => some (raise e, s)
  | _, transaction p k, s =>
    match p.run s with
    | (.ok b, s') => some (k b, s')
    | (.error e, _) => some (raise e, s)
  | _, tryCatch p h k, s =>
    match p.step s with
    | some (p', s') => some (tryCatch p' h k, s')
    | none =>
      match p with
      | done b => some (k b, s)
      | raise e => some ((h e).bind k, s)
      | _ => none

/-- Everything a step of a handler block can be. -/
theorem step_tryCatch {p : Script σ ε β} {g : ε → Script σ ε β} {k : β → Script σ ε α} {q : Script σ ε α}
    {s t : σ} (h : (p.tryCatch g k).step s = some (q, t)) :
    (∃ p', p.step s = some (p', t) ∧ q = p'.tryCatch g k) ∨
      (∃ b, p = done b ∧ q = k b ∧ t = s) ∨ ∃ e, p = raise e ∧ q = (g e).bind k ∧ t = s := by
  simp only [step] at h
  cases hp : p.step s with
  | some r =>
    rw [hp] at h
    cases h
    exact .inl ⟨r.1, rfl, rfl⟩
  | none =>
    rw [hp] at h
    cases p with
    | done b => cases h; exact .inr (.inl ⟨b, rfl, rfl, rfl⟩)
    | raise e => cases h; exact .inr (.inr ⟨e, rfl, rfl, rfl⟩)
    | stmt _ _ => cases h
    | transaction _ _ => cases h
    | tryCatch _ _ _ => cases h

/-- The first program steps where the schedule says `true`, the second where it says `false`; a
program that has ended lets its turns pass. -/
def interleave : List Bool → Script σ ε α → Script σ ε β → σ → Script σ ε α × Script σ ε β × σ
  | [], p, q, s => (p, q, s)
  | true :: schedule, p, q, s =>
    match p.step s with
    | some (p', s') => interleave schedule p' q s'
    | none => interleave schedule p q s
  | false :: schedule, p, q, s =>
    match q.step s with
    | some (q', s') => interleave schedule p q' s'
    | none => interleave schedule p q s

/-! ### Running alone is one of the schedules -/

theorem step_bind {p p' : Script σ ε α} {s s' : σ} (h : p.step s = some (p', s'))
    (f : α → Script σ ε β) : (p.bind f).step s = some (p'.bind f, s') := by
  cases p with
  | done a => cases h
  | raise e => cases h
  | stmt g k =>
    simp only [step, bind] at h ⊢
    cases hg : g s with
    | error e => rw [hg] at h; cases h; rfl
    | ok r => rw [hg] at h; cases h; rfl
  | transaction p k =>
    simp only [step, bind] at h ⊢
    rcases hp : p.run s with ⟨e | b, t⟩
    · rw [hp] at h; cases h; rfl
    · rw [hp] at h; cases h; rfl
  | tryCatch p g k =>
    rcases step_tryCatch h with ⟨p₁, hp, rfl⟩ | ⟨b, rfl, rfl, rfl⟩ | ⟨e, rfl, rfl, rfl⟩
    · simp only [step, bind, hp]
    · rfl
    · exact congrArg some (congrArg (·, s') (bind_assoc _ _ _).symm)

/-- Some steps lead from one program and state to another. -/
abbrev Leads (a b : Script σ ε α × σ) : Prop :=
  Relation.ReflTransGen (fun a b => a.1.step a.2 = some b) a b

theorem Leads.bind {p p' : Script σ ε α} {s s' : σ} (h : Leads (p, s) (p', s'))
    (f : α → Script σ ε β) : Leads (p.bind f, s) (p'.bind f, s') := by
  refine Relation.ReflTransGen.lift (fun a : Script σ ε α × σ => (a.1.bind f, a.2)) ?_ _ _ h
  intro a b hstep
  exact step_bind hstep f

theorem Leads.tryCatch {p p' : Script σ ε α} {s s' : σ} (h : Leads (p, s) (p', s'))
    (g : ε → Script σ ε α) (k : α → Script σ ε β) :
    Leads (p.tryCatch g k, s) (p'.tryCatch g k, s') := by
  refine Relation.ReflTransGen.lift (fun a : Script σ ε α × σ => (a.1.tryCatch g k, a.2)) ?_ _ _ h
  intro a b hstep
  change (a.1.tryCatch g k).step a.2 = some (b.1.tryCatch g k, b.2)
  simp only [step, show a.1.step a.2 = some b from hstep]

/-- A program that is never interrupted ends as `run` says. -/
theorem leads_run (p : Script σ ε α) (s : σ) : Leads (p, s) (liftExcept (p.run s).1, (p.run s).2) := by
  induction p generalizing s with
  | done a => exact .refl
  | raise e => exact .refl
  | stmt f k ih =>
    cases hf : f s with
    | error e =>
      refine .head (b := (raise e, s)) (by simp only [step, hf]) ?_
      simpa only [run, hf] using .refl
    | ok r =>
      refine .head (b := (k r.1, r.2)) (by simp only [step, hf]) ?_
      simpa only [run, hf] using ih r.1 r.2
  | transaction p k _ ih =>
    rcases hp : p.run s with ⟨e | b, t⟩
    · refine .head (b := (raise e, s)) (by simp only [step, hp]) ?_
      simpa only [run, hp] using .refl
    · refine .head (b := (k b, t)) (by simp only [step, hp]) ?_
      simpa only [run, hp] using ih b t
  | tryCatch p g k ihp ihg ihk =>
    have hbody := (ihp s).tryCatch g k
    rcases hp : p.run s with ⟨e | b, t⟩
    · rw [hp] at hbody
      have hcaught : Leads ((raise e : Script σ ε _).tryCatch g k, t) ((g e).bind k, t) := .single rfl
      have hhandler := (ihg e t).bind k
      refine hbody.trans (hcaught.trans (hhandler.trans ?_))
      rcases hg : (g e).run t with ⟨e' | b, t'⟩
      · simpa only [run, hp, hg] using .refl
      · simpa only [run, hp, hg, liftExcept, Script.bind] using ihk b t'
    · rw [hp] at hbody
      have hended : Leads ((done b : Script σ ε _).tryCatch g k, t) (k b, t) := .single rfl
      refine hbody.trans (hended.trans ?_)
      simpa only [run, hp] using ihk b t

theorem Leads.interleave_left {a b : Script σ ε α × σ} (h : Leads a b) (q : Script σ ε β) :
    ∃ first, ∀ schedule, interleave (first ++ schedule) a.1 q a.2 = interleave schedule b.1 q b.2 := by
  induction h using Relation.ReflTransGen.head_induction_on with
  | refl => exact ⟨[], fun _ => rfl⟩
  | head hstep _ ih =>
    obtain ⟨first, hfirst⟩ := ih
    refine ⟨true :: first, fun schedule => ?_⟩
    rw [← hfirst schedule, List.cons_append, interleave, hstep]

theorem Leads.interleave_right {a b : Script σ ε β × σ} (h : Leads a b) (p : Script σ ε α) :
    ∃ first, ∀ schedule, interleave (first ++ schedule) p a.1 a.2 = interleave schedule p b.1 b.2 := by
  induction h using Relation.ReflTransGen.head_induction_on with
  | refl => exact ⟨[], fun _ => rfl⟩
  | head hstep _ ih =>
    obtain ⟨first, hfirst⟩ := ih
    refine ⟨false :: first, fun schedule => ?_⟩
    rw [← hfirst schedule, List.cons_append, interleave, hstep]

/-- The first program to its end, then the second. -/
theorem exists_schedule {p : Script σ ε α} {q : Script σ ε β} {s s₁ s₂ : σ} {a : α} {b : β}
    (hp : p.run s = (.ok a, s₁)) (hq : q.run s₁ = (.ok b, s₂)) :
    ∃ schedule, interleave schedule p q s = (done a, done b, s₂) := by
  have hleft := leads_run p s
  have hright := leads_run q s₁
  rw [hp] at hleft
  rw [hq] at hright
  obtain ⟨first, hfirst⟩ := hleft.interleave_left q
  obtain ⟨second, hsecond⟩ := hright.interleave_right (done a : Script σ ε α)
  refine ⟨first ++ (second ++ []), ?_⟩
  exact (hfirst _).trans (hsecond [])

/-! ### What every step keeps -/

/-- No step of the program breaks `P`, and if it ends normally its value satisfies `Q`. -/
def Keeps (P : σ → Prop) : {α : Type} → Script σ ε α → (α → Prop) → Prop
  | _, done a, Q => Q a
  | _, raise _, _ => True
  | _, stmt f k, Q => ∀ s b s', f s = .ok (b, s') → (P s → P s') ∧ (k b).Keeps P Q
  | _, transaction p k, Q => p.Keeps P fun b => (k b).Keeps P Q
  | _, tryCatch p h k, Q =>
    p.Keeps P (fun b => (k b).Keeps P Q) ∧ ∀ e, (h e).Keeps P fun b => (k b).Keeps P Q

variable {P : σ → Prop}

theorem Keeps.mono {p : Script σ ε α} {Q Q' : α → Prop} (h : p.Keeps P Q) (hQ : ∀ a, Q a → Q' a) :
    p.Keeps P Q' := by
  induction p with
  | done a => exact hQ a h
  | raise e => trivial
  | stmt g k ih =>
    intro s b s' hg
    obtain ⟨hP, hk⟩ := h s b s' hg
    exact ⟨hP, ih b hk hQ⟩
  | transaction p k ihp ih => exact ihp h fun b hb => ih b hb hQ
  | tryCatch p g k ihp ihg ih =>
    exact ⟨ihp h.1 fun b hb => ih b hb hQ, fun e => ihg e (h.2 e) fun b hb => ih b hb hQ⟩

theorem Keeps.bind {p : Script σ ε α} {f : α → Script σ ε β} {Q : β → Prop}
    (h : p.Keeps P fun a => (f a).Keeps P Q) : (p.bind f).Keeps P Q := by
  induction p with
  | done a => exact h
  | raise e => trivial
  | stmt g k ih =>
    intro s b s' hg
    obtain ⟨hP, hk⟩ := h s b s' hg
    exact ⟨hP, ih b hk⟩
  | transaction p k _ ih =>
    have hp : p.Keeps P fun b => (k b).Keeps P fun a => (f a).Keeps P Q := h
    exact hp.mono fun b hb => ih b hb
  | tryCatch p g k _ _ ih => exact ⟨h.1.mono fun b hb => ih b hb, fun e => (h.2 e).mono fun b hb => ih b hb⟩

theorem Keeps.run {p : Script σ ε α} {Q : α → Prop} (h : p.Keeps P Q) (s : σ) :
    (P s → P (p.run s).2) ∧ ∀ a, (p.run s).1 = .ok a → Q a := by
  induction p generalizing s with
  | done a => exact ⟨id, fun _ ha => Except.ok.inj ha ▸ h⟩
  | raise e => exact ⟨id, fun _ ha => by cases ha⟩
  | stmt g k ih =>
    cases hg : g s with
    | error e =>
      simp only [Script.run, hg]
      exact ⟨id, fun _ ha => by cases ha⟩
    | ok r =>
      simp only [Script.run, hg]
      obtain ⟨hP, hk⟩ := h s r.1 r.2 hg
      obtain ⟨hP', hQ⟩ := ih r.1 hk r.2
      exact ⟨fun hs => hP' (hP hs), hQ⟩
  | transaction p k ihp ih =>
    obtain ⟨hP, hk⟩ := ihp h s
    rcases hp : p.run s with ⟨e | b, t⟩
    · simp only [Script.run, hp]
      exact ⟨id, fun _ ha => by cases ha⟩
    · simp only [Script.run, hp] at hP hk ⊢
      obtain ⟨hP', hQ⟩ := ih b (hk b rfl) t
      exact ⟨fun hs => hP' (hP hs), hQ⟩
  | tryCatch p g k ihp ihg ih =>
    obtain ⟨hP, hk⟩ := ihp h.1 s
    rcases hp : p.run s with ⟨e | b, t⟩
    · obtain ⟨hPg, hkg⟩ := ihg e (h.2 e) t
      rcases hg : (g e).run t with ⟨e' | b, t'⟩
      · simp only [Script.run, hp, hg] at hP hPg ⊢
        exact ⟨fun hs => hPg (hP hs), fun _ ha => by cases ha⟩
      · simp only [Script.run, hp, hg] at hP hPg hkg ⊢
        obtain ⟨hP', hQ⟩ := ih b (hkg b rfl) t'
        exact ⟨fun hs => hP' (hPg (hP hs)), hQ⟩
    · simp only [Script.run, hp] at hP hk ⊢
      obtain ⟨hP', hQ⟩ := ih b (hk b rfl) t
      exact ⟨fun hs => hP' (hP hs), hQ⟩

theorem Keeps.step {p p' : Script σ ε α} {Q : α → Prop} (h : p.Keeps P Q) {s s' : σ}
    (hstep : p.step s = some (p', s')) : (P s → P s') ∧ p'.Keeps P Q := by
  induction p generalizing s' with
  | done a => cases hstep
  | raise e => cases hstep
  | stmt g k _ =>
    simp only [Script.step] at hstep
    cases hg : g s with
    | error e => rw [hg] at hstep; cases hstep; exact ⟨id, trivial⟩
    | ok r => rw [hg] at hstep; cases hstep; exact h s r.1 r.2 hg
  | transaction p k _ _ =>
    simp only [Script.step] at hstep
    have hbody : p.Keeps P fun b => (k b).Keeps P Q := h
    obtain ⟨hP, hk⟩ := hbody.run s
    rcases hp : p.run s with ⟨e | b, t⟩
    · rw [hp] at hstep; cases hstep; exact ⟨id, trivial⟩
    · rw [hp] at hstep hP hk; cases hstep; exact ⟨hP, hk b rfl⟩
  | tryCatch p g k ihp _ _ =>
    rcases step_tryCatch hstep with ⟨p₁, hp, rfl⟩ | ⟨b, rfl, rfl, rfl⟩ | ⟨e, rfl, rfl, rfl⟩
    · obtain ⟨hP, hkeeps⟩ := ihp h.1 hp
      exact ⟨hP, hkeeps, h.2⟩
    · exact ⟨id, h.1⟩
    · exact ⟨id, (h.2 e).bind⟩

/-! ### What is reached before the end -/

/-- From states in `J`, every path passes a step after which `K` holds, before it ends or throws. -/
def Secures (J K : σ → Prop) : {α : Type} → Script σ ε α → Prop
  | _, done _ => False
  | _, raise _ => False
  | _, stmt f k => ∀ s, J s → ∃ b s', f s = .ok (b, s') ∧ (K s' ∨ (k b).Secures J K)
  | _, transaction p k => ∀ s, J s → ∃ b s', p.run s = (.ok b, s') ∧ (K s' ∨ (k b).Secures J K)
  | _, tryCatch p _ _ => p.Secures J K

variable {J K : σ → Prop}

theorem Secures.step {p p' : Script σ ε α} (h : p.Secures J K) {s s' : σ} (hJ : J s)
    (hstep : p.step s = some (p', s')) : K s' ∨ p'.Secures J K := by
  induction p generalizing s' with
  | done a => cases hstep
  | raise e => cases hstep
  | stmt g k _ =>
    obtain ⟨b, t, hg, hnext⟩ := h s hJ
    simp only [Script.step, hg] at hstep
    cases hstep
    exact hnext
  | transaction p k _ _ =>
    obtain ⟨b, t, hp, hnext⟩ := h s hJ
    simp only [Script.step, hp] at hstep
    cases hstep
    exact hnext
  | tryCatch p g k ihp _ _ =>
    rcases step_tryCatch hstep with ⟨p₁, hp, rfl⟩ | ⟨b, rfl, -, -⟩ | ⟨e, rfl, -, -⟩
    · exact ihp h hp
    · exact h.elim
    · exact h.elim

/-- If both programs keep `J` and `K`, the first has `K` when it ends, in every interleaving. -/
theorem interleave_secured {p : Script σ ε α} {q : Script σ ε β} {Q : α → Prop} {R : β → Prop}
    (hpJ : p.Keeps J Q) (hpK : p.Keeps K Q) (hqJ : q.Keeps J R) (hqK : q.Keeps K R)
    {s : σ} (hJ : J s) (h : K s ∨ p.Secures J K) {schedule : List Bool} {a : α} {q' : Script σ ε β} {s' : σ}
    (hend : interleave schedule p q s = (done a, q', s')) : K s' := by
  induction schedule generalizing p q s with
  | nil =>
    cases hend
    exact h.resolve_right id
  | cons turn schedule ih =>
    cases turn with
    | true =>
      rw [interleave] at hend
      cases hstep : p.step s with
      | none =>
        rw [hstep] at hend
        exact ih hpJ hpK hqJ hqK hJ h hend
      | some r =>
        rw [hstep] at hend
        obtain ⟨hJ', hpJ'⟩ := hpJ.step hstep
        obtain ⟨hK', hpK'⟩ := hpK.step hstep
        have h' : K r.2 ∨ r.1.Secures J K := h.elim (fun hK => .inl (hK' hK)) fun hs => hs.step hJ hstep
        exact ih hpJ' hpK' hqJ hqK (hJ' hJ) h' hend
    | false =>
      rw [interleave] at hend
      cases hstep : q.step s with
      | none =>
        rw [hstep] at hend
        exact ih hpJ hpK hqJ hqK hJ h hend
      | some r =>
        rw [hstep] at hend
        obtain ⟨hJ', hqJ'⟩ := hqJ.step hstep
        obtain ⟨hK', hqK'⟩ := hqK.step hstep
        exact ih hpJ hpK hqJ' hqK' (hJ' hJ) (h.imp_left hK') hend

end Script

/-! ### Rules for flows -/

variable {σ ε α β : Type} {P J K : σ → Prop}

namespace Action

theorem keeps_query {f : σ → Except ε α} {Q : α → Prop} (h : ∀ s a, f s = .ok a → Q a) :
    (query f).Keeps P Q := by
  intro s b s' hf
  dsimp only at hf
  cases hs : f s with
  | error e => rw [hs] at hf; cases hf
  | ok a => rw [hs] at hf; cases hf; exact ⟨id, h s _ hs⟩

theorem keeps_statement {f : σ → Except ε (α × σ)} (h : ∀ s a s', f s = .ok (a, s') → P s → P s') :
    (statement f).Keeps P fun _ => True := by
  intro s b s' hf
  dsimp only at hf
  cases hs : f s with
  | error e => rw [hs] at hf; cases hf
  | ok r => rw [hs] at hf; cases hf; exact ⟨h s _ _ hs, trivial⟩

theorem keeps_write {f : σ → σ} (h : ∀ s, P s → P (f s)) :
    (Script.write f : Action σ ε Unit).Keeps P fun _ => True := by
  intro s b s' hf
  cases hf
  exact ⟨h s, trivial⟩

theorem keeps_ofExcept (x : Except ε α) : (ofExcept x : Action σ ε α).Keeps P fun _ => True := by
  cases x <;> trivial

end Action

namespace Flow

/-- The flow's own steps keep `P`, and it hands out values that satisfy `Q`. -/
def Keeps (P : σ → Prop) (F : Flow σ ε α) (Q : α → Prop) : Prop :=
  ∀ emit, (∀ a, Q a → (emit a).Keeps P fun _ => True) → (F emit).Keeps P fun _ => True

theorem keeps_flowOf {a : α} {Q : α → Prop} (h : Q a) : (flowOf a : Flow σ ε α).Keeps P Q :=
  fun _ hemit => hemit a h

theorem keeps_throwing (e : ε) (Q : α → Prop) : (throwing e : Flow σ ε α).Keeps P Q :=
  fun _ _ => trivial

theorem keeps_after {act : Action σ ε α} {g : α → Flow σ ε β} {Q : α → Prop} {R : β → Prop}
    (hact : act.Keeps P Q) (hg : ∀ a, Q a → (g a).Keeps P R) : (after act g).Keeps P R :=
  fun emit hemit => Script.Keeps.bind (hact.mono fun a ha => hg a ha emit hemit)

theorem Keeps.flatMapConcat {F : Flow σ ε α} {g : α → Flow σ ε β} {Q : α → Prop} {R : β → Prop}
    (hF : F.Keeps P Q) (hg : ∀ a, Q a → (g a).Keeps P R) : (F.flatMapConcat g).Keeps P R :=
  fun emit hemit => hF _ fun a ha => hg a ha emit hemit

theorem Keeps.map {F : Flow σ ε α} {f : α → Action σ ε β} {Q : α → Prop} {R : β → Prop} (hF : F.Keeps P Q)
    (hf : ∀ a, Q a → (f a).Keeps P R) : (F.map f).Keeps P R :=
  fun _ hemit => hF _ fun a ha => Script.Keeps.bind ((hf a ha).mono hemit)

theorem Keeps.inTransaction {F : Flow σ ε α} {Q : α → Prop} (hF : F.Keeps P Q) :
    F.inTransaction.Keeps P Q :=
  fun emit hemit => (hF emit hemit).mono fun _ _ => trivial

theorem Keeps.catchError {F : Flow σ ε α} {Q : α → Prop} (hF : F.Keeps P Q)
    (handler : ε → Action σ ε Unit) (hh : ∀ e, (handler e).Keeps P fun _ => True) :
    (F.catchError handler).Keeps P Q := by
  intro emit hemit
  refine ⟨(hF _ fun a ha => ?_).mono fun _ _ => trivial, fun r => ?_⟩
  · exact ⟨(hemit a ha).mono fun _ _ => trivial, fun _ => trivial⟩
  · cases hd : r.depth with
    | zero =>
      simp only [hd]
      exact (hh r.exn).mono fun _ _ => trivial
    | succ d =>
      simp only [hd]
      trivial

theorem Keeps.drain {F : Flow σ ε α} {Q : α → Prop} (hF : F.Keeps P Q) : F.drain.Keeps P fun _ => True :=
  hF _ fun _ _ => trivial

/-- `K` is reached before the collector is called and before anything is thrown. -/
def Secures (J K : σ → Prop) (F : Flow σ ε α) : Prop := ∀ emit, (F emit).Secures J K

theorem secures_after_query {f : σ → Except ε α} {g : α → Flow σ ε β}
    (h : ∀ s, J s → ∃ a, f s = .ok a ∧ (g a).Secures J K) : (after (Action.query f) g).Secures J K := by
  intro emit s hs
  obtain ⟨a, hf, hg⟩ := h s hs
  have hread : ((f s).mapError fun e => (⟨0, e⟩ : Raised ε)).map (·, s) = .ok (a, s) := by
    rw [hf]
    rfl
  exact ⟨a, s, hread, .inr (hg emit)⟩

/-- The write itself, or what comes after it. -/
theorem secures_after_write {f : σ → σ} {g : Unit → Flow σ ε β}
    (h : (∀ s, J s → K (f s)) ∨ (g ()).Secures J K) : (after (Script.write f) g).Secures J K :=
  fun emit s hs => ⟨(), f s, rfl, h.imp (fun hK => hK s hs) fun hg => hg emit⟩

theorem Secures.flatMapConcat {F : Flow σ ε α} (h : F.Secures J K) (g : α → Flow σ ε β) :
    (F.flatMapConcat g).Secures J K :=
  fun _ => h _

theorem Secures.catchError {F : Flow σ ε α} (h : F.Secures J K) (handler : ε → Action σ ε Unit) :
    (F.catchError handler).Secures J K :=
  fun _ => h _

end Flow
end Coroutine
