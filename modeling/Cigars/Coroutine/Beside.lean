import Cigars.Coroutine.Flow

/-! Variables of a running coroutine beside the state that its statements act on. A script or a flow
that knows only the state is mirrored by one that leaves the variables alone, with one rule for each
operator. `collectFirst` keeps its counter and its list in such variables. -/
namespace Coroutine

variable {σ τ ε α β : Type}

namespace Script

/-- The same statements on the first component. -/
def beside : {α : Type} → Script σ ε α → Script (σ × τ) ε α
  | _, done a => done a
  | _, raise e => raise e
  | _, stmt f k => stmt (fun s => (f s.1).map fun r => (r.1, r.2, s.2)) fun b => (k b).beside
  | _, transaction p k => transaction p.beside fun b => (k b).beside
  | _, tryCatch p h k => tryCatch p.beside (fun e => (h e).beside) fun b => (k b).beside

/-- `q` does to the first component what `p` does to the state, and leaves the second as it is. -/
def Mirrors (p : Script σ ε α) (q : Script (σ × τ) ε α) : Prop :=
  ∀ s t, q.run (s, t) = ((p.run s).1, (p.run s).2, t)

theorem mirrors_pure (a : α) : (pure a : Script σ ε α).Mirrors (pure a : Script (σ × τ) ε α) := fun _ _ => rfl

theorem mirrors_beside (p : Script σ ε α) : p.Mirrors (p.beside : Script (σ × τ) ε α) := by
  induction p with
  | done a => exact fun _ _ => rfl
  | raise e => exact fun _ _ => rfl
  | stmt f k ih =>
    intro s t
    simp only [beside, run]
    cases hf : f s with
    | error e => rfl
    | ok r => exact ih r.1 r.2 t
  | transaction p k ihp ihk =>
    intro s t
    simp only [beside, run]
    rw [ihp s t]
    rcases p.run s with ⟨e | b, s'⟩
    · rfl
    · exact ihk b s' t
  | tryCatch p h k ihp ihh ihk =>
    intro s t
    simp only [beside, run]
    rw [ihp s t]
    rcases p.run s with ⟨e | b, s'⟩
    · dsimp only
      rw [ihh e s' t]
      rcases (h e).run s' with ⟨e' | b, s''⟩
      · rfl
      · exact ihk b s'' t
    · exact ihk b s' t

theorem Mirrors.bind {p : Script σ ε α} {q : Script (σ × τ) ε α} {f : α → Script σ ε β} {g : α → Script (σ × τ) ε β}
    (hp : p.Mirrors q) (hf : ∀ a, (f a).Mirrors (g a)) : (p >>= f).Mirrors (q >>= g) := by
  intro s t
  rw [run_bind, run_bind, hp s t]
  rcases p.run s with ⟨e | a, s'⟩
  · rfl
  · exact hf a s' t

theorem andThen_pure (r : Except ε Unit × σ) : andThen (fun _ => (pure () : Script σ ε Unit)) r = r := by
  rcases r with ⟨e | u, s⟩
  · rfl
  · rfl

end Script

theorem Action.mirrors_ofExcept (x : Except ε α) :
    (Action.ofExcept x : Action σ ε α).Mirrors (Action.ofExcept x : Action (σ × τ) ε α) := by
  intro s t
  cases x with
  | ok a => rfl
  | error e => rfl

namespace Flow

/-- From every state either both flows hand on the same value or both throw the same, with the same
effect on the state and none on what is beside it. -/
def Mirrors (F : Flow σ ε α) (G : Flow (σ × τ) ε α) : Prop :=
  ∀ s t, (∃ a s' back back', F.Emits s a s' back ∧ G.Emits (s, t) a (s', t) back' ∧
      ∀ u, back' (u, t) = (back u, t)) ∨
    ∃ r s', F.Throws s r s' ∧ G.Throws (s, t) r (s', t)

/-! ### Operators -/

theorem mirrors_flowOf (a : α) : (flowOf a : Flow σ ε α).Mirrors (flowOf a : Flow (σ × τ) ε α) := by
  intro s t
  left
  exact ⟨a, s, id, id, emits_flowOf a s, emits_flowOf a (s, t), fun _ => rfl⟩

theorem mirrors_throwing (e : ε) : (throwing e : Flow σ ε α).Mirrors (throwing e : Flow (σ × τ) ε α) := by
  intro s t
  right
  exact ⟨⟨0, e⟩, s, fails_throwing e s, fails_throwing e (s, t)⟩

section Operators
variable {F : Flow σ ε α} {F' : Flow (σ × τ) ε α} {g : α → Flow σ ε β} {g' : α → Flow (σ × τ) ε β}

theorem Mirrors.after {act : Action σ ε α} {act' : Action (σ × τ) ε α} (hact : act.Mirrors act')
    (hg : ∀ a, (g a).Mirrors (g' a)) : (Flow.after act g).Mirrors (Flow.after act' g') := by
  intro s t
  have hrun' := hact s t
  cases hrun : act.run s with
  | mk result s₁ =>
    rw [hrun] at hrun'
    cases result with
    | error r => exact Or.inr ⟨r, s₁, throws_after hrun, throws_after hrun'⟩
    | ok a =>
      rcases hg a s₁ t with ⟨b, s₂, back, back', h, h', hback⟩ | ⟨r, s₂, h, h'⟩
      · exact Or.inl ⟨b, s₂, back, back', h.after hrun, h'.after hrun', hback⟩
      · exact Or.inr ⟨r, s₂, h.after hrun, h'.after hrun'⟩

theorem Mirrors.inTransaction (hF : F.Mirrors F') : F.inTransaction.Mirrors F'.inTransaction := by
  intro s t
  rcases hF s t with ⟨a, s₁, back, back', h, h', -⟩ | ⟨r, s₁, h, h'⟩
  · exact Or.inl ⟨a, s₁, _, _, h.inTransaction, h'.inTransaction, fun _ => rfl⟩
  · exact Or.inr ⟨r, s, h.inTransaction, h'.inTransaction⟩

theorem Mirrors.flatMapConcat (hF : F.Mirrors F') (hg : ∀ a, (g a).Mirrors (g' a)) :
    (F.flatMapConcat g).Mirrors (F'.flatMapConcat g') := by
  intro s t
  rcases hF s t with ⟨a, s₁, back₁, back₁', h₁, h₁', hback₁⟩ | ⟨r, s₁, h, h'⟩
  · rcases hg a s₁ t with ⟨b, s₂, back₂, back₂', h₂, h₂', hback₂⟩ | ⟨r, s₂, h₂, h₂'⟩
    · left
      refine ⟨b, s₂, _, _, h₁.flatMapConcat h₂, h₁'.flatMapConcat h₂', fun u => ?_⟩
      rw [Function.comp_apply, hback₂, hback₁, Function.comp_apply]
    · right
      have hthrows := h₁'.flatMapConcat_throws h₂'
      rw [hback₁] at hthrows
      exact ⟨r, back₁ s₂, h₁.flatMapConcat_throws h₂, hthrows⟩
  · exact Or.inr ⟨r, s₁, h.flatMapConcat _, h'.flatMapConcat _⟩

theorem Mirrors.map {f : α → Action σ ε β} {f' : α → Action (σ × τ) ε β} (hF : F.Mirrors F')
    (hf : ∀ a, (f a).Mirrors (f' a)) : (F.map f).Mirrors (F'.map f') := by
  intro s t
  rcases hF s t with ⟨a, s₁, back, back', h, h', hback⟩ | ⟨r, s₁, h, h'⟩
  · have hrun' := hf a s₁ t
    cases hrun : (f a).run s₁ with
    | mk result s₂ =>
      rw [hrun] at hrun'
      cases result with
      | error r =>
        right
        have hthrows := h'.map_throws hrun'
        rw [hback] at hthrows
        exact ⟨r, back s₂, h.map_throws hrun, hthrows⟩
      | ok b => exact Or.inl ⟨b, s₂, back, back', h.map hrun, h'.map hrun', hback⟩
  · exact Or.inr ⟨r, s₁, h.map _, h'.map _⟩

theorem Mirrors.drain (hF : F.Mirrors F') : F.drain.Mirrors F'.drain := by
  intro s t
  rcases hF s t with ⟨a, s₁, back, back', h, h', -⟩ | ⟨r, s₁, h, h'⟩
  · rw [h.completes.drain]
    exact h'.completes.drain
  · rw [h.drain]
    exact h'.drain

end Operators

/-- What a flow hands on, its mirror hands on. -/
theorem Mirrors.emits [Nonempty ε] {F : Flow σ ε α} {F' : Flow (σ × τ) ε α} {s s₁ : σ} {a : α} {back : σ → σ}
    (hF : F.Mirrors F') (h : F.Emits s a s₁ back) (t : τ) : ∃ back', F'.Emits (s, t) a (s₁, t) back' := by
  rcases hF s t with ⟨b, s₂, back₂, back', h₂, h', -⟩ | ⟨r, s₂, hthrows, -⟩
  · obtain ⟨rfl, rfl⟩ := h.unique h₂
    exact ⟨back', h'⟩
  · exact absurd h.completes.drain hthrows.not_drain

/-- What a flow throws, its mirror throws. -/
theorem Mirrors.throws {F : Flow σ ε α} {F' : Flow (σ × τ) ε α} {s s₁ : σ} {r : Raised ε} (hF : F.Mirrors F')
    (h : F.Throws s r s₁) (t : τ) : F'.Throws (s, t) r (s₁, t) := by
  rcases hF s t with ⟨b, s₂, back₂, back', h₂, -, -⟩ | ⟨r₂, s₂, h₂, h'⟩
  · exact absurd h₂.completes.drain h.not_drain
  · obtain ⟨hr, rfl⟩ := Prod.mk.inj (h₂.drain.symm.trans h.drain)
    cases hr
    exact h'

/-! ### Collecting the values of several flows -/

/-- The flows of the elements emit and end one after the other: what they hand on, and the state they
leave. -/
inductive InTurn (F : α → Flow σ ε β) : σ → List α → List β → σ → Prop
  | nil {s : σ} : InTurn F s [] [] s
  | cons {s s₁ s₂ : σ} {x : α} {xs : List α} {y : β} {ys : List β} {back : σ → σ} :
    (F x).Emits s y s₁ back → InTurn F s₁ xs ys s₂ → InTurn F s (x :: xs) (y :: ys) s₂

def asFlow : List α → Flow σ ε α
  | [] => fun _ => pure ()
  | a :: as => fun emit => do
    emit a
    asFlow as emit

/-- The variables of `collectFirst`. -/
structure Collected (β : Type) where
  count : ℕ
  list : List β

def Collected.push (collected : Collected β) (value : β) : Collected β :=
  ⟨collected.count + 1, collected.list ++ [value]⟩

/-- The block that `collectFirst` runs for every value. -/
def collectFirstBlock (n : ℕ) (collector : List β → Action (σ × Collected β) ε Unit) (value : β) :
    Action (σ × Collected β) ε Unit := do
  Script.write fun s => (s.1, s.2.push value)
  let collected ← Script.read fun s => .ok s.2
  if collected.count = n then collector collected.list else pure ()

/-- Hands the values to the collector in one list as soon as there are `n` of them. -/
def collectFirst (F : Flow (σ × Collected β) ε β) (n : ℕ) (collector : List β → Action (σ × Collected β) ε Unit) :
    Action (σ × Collected β) ε Unit := do
  Script.write fun s => (s.1, ⟨0, []⟩)
  F (collectFirstBlock n collector)

theorem run_collectFirstBlock (n : ℕ) (collector : List β → Action (σ × Collected β) ε Unit) (value : β) (s : σ)
    (collected : Collected β) :
    (collectFirstBlock n collector value).run (s, collected) =
      if collected.count + 1 = n then
        (collector (collected.list ++ [value])).run (s, collected.push value)
      else (.ok (), s, collected.push value) := by
  unfold collectFirstBlock
  rw [Script.run_bind, Script.run_write, Script.andThen_ok, Script.run_bind, Script.run_read, Script.andThen_ok]
  change Script.run (if collected.count + 1 = n then collector (collected.list ++ [value]) else pure ())
    (s, collected.push value) = _
  by_cases hn : collected.count + 1 = n
  · rw [if_pos hn, if_pos hn]
  · rw [if_neg hn, if_neg hn]
    rfl

variable [Nonempty ε] {F : α → Flow σ ε β} {F' : α → Flow (σ × Collected β) ε β}

/-- The last flow is still open when the collector gets the list. -/
theorem run_flatMapConcat_collectFirstBlock (hF : ∀ x, (F x).Mirrors (F' x)) {s s' : σ} {xs : List α} {ys : List β}
    (hturn : InTurn F s xs ys s') (hxs : xs ≠ []) {n : ℕ} (collected : Collected β)
    (hn : collected.count + xs.length = n) :
    ∃ back, ∀ collector, ((asFlow xs).flatMapConcat F' (collectFirstBlock n collector)).run (s, collected) =
      Script.settle back ((collector (collected.list ++ ys)).run (s', ⟨n, collected.list ++ ys⟩)) := by
  induction hturn generalizing collected with
  | nil => exact absurd rfl hxs
  | @cons s s₁ s₂ x xs y ys back hx hrest ih =>
    obtain ⟨back', hx'⟩ := (hF x).emits hx collected
    have hrun (collector : List β → Action (σ × Collected β) ε Unit) :
        ((asFlow (x :: xs)).flatMapConcat F' (collectFirstBlock n collector)).run (s, collected) =
          Script.andThen (fun _ => (asFlow xs).flatMapConcat F' (collectFirstBlock n collector))
            (Script.settle back' ((collectFirstBlock n collector y).run (s₁, collected))) := by
      rw [← hx']
      exact Script.run_bind _ _ _
    rw [List.length_cons] at hn
    cases hrest with
    | nil =>
      refine ⟨back', fun collector => ?_⟩
      have hlast : collected.count + 1 = n := hn
      rw [hrun, run_collectFirstBlock, if_pos hlast, ← hlast]
      exact Script.andThen_pure _
    | cons hx₂ hrest₂ =>
      rw [List.length_cons] at hn
      have hmore : collected.count + 1 ≠ n := by omega
      obtain ⟨back₂, hrest⟩ := ih (List.cons_ne_nil _ _) (collected.push y) (by simp [Collected.push]; omega)
      refine ⟨back₂, fun collector => ?_⟩
      rw [hrun, run_collectFirstBlock, if_neg hmore, List.append_cons]
      exact hrest collector

/-- The collector gets what the flows hand on one after the other. -/
theorem run_collectFirst (hF : ∀ x, (F x).Mirrors (F' x)) {s s' : σ} {xs : List α} {ys : List β}
    (hturn : InTurn F s xs ys s') (hxs : xs ≠ []) (collected : Collected β) :
    ∃ back, ∀ collector, (collectFirst ((asFlow xs).flatMapConcat F') xs.length collector).run (s, collected) =
      Script.settle back ((collector ys).run (s', ⟨xs.length, ys⟩)) := by
  obtain ⟨back, hrun⟩ := run_flatMapConcat_collectFirstBlock hF hturn hxs ⟨0, []⟩ (Nat.zero_add _)
  refine ⟨back, fun collector => ?_⟩
  unfold collectFirst
  rw [Script.run_bind, Script.run_write, Script.andThen_ok]
  exact hrun collector

end Flow
end Coroutine
