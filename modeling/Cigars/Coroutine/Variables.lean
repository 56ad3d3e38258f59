import Cigars.Coroutine.Interruption

/-! `collectFirst` of a coroutine that has other variables beside the counter and the list. -/
namespace Coroutine

/-- One of the variables beside the state. -/
structure Variable (τ κ : Type) where
  get : τ → κ
  set : κ → τ → τ
  get_set : ∀ k t, get (set k t) = k
  set_set : ∀ k k' t, set k (set k' t) = set k t

namespace Flow
variable {σ τ ε α β : Type}

/-- The block that `collectFirst` runs for every value. -/
def collectFirstBlockAt (v : Variable τ (Collected β)) (n : ℕ) (collector : List β → Action (σ × τ) ε Unit)
    (value : β) : Action (σ × τ) ε Unit := do
  Script.write fun s => (s.1, v.set ((v.get s.2).push value) s.2)
  let collected ← Script.read fun s => .ok (v.get s.2)
  if collected.count = n then collector collected.list else pure ()

/-- Hands the values to the collector in one list as soon as there are `n` of them. -/
def collectFirstAt (v : Variable τ (Collected β)) (F : Flow (σ × τ) ε β) (n : ℕ)
    (collector : List β → Action (σ × τ) ε Unit) : Action (σ × τ) ε Unit := do
  Script.write fun s => (s.1, v.set ⟨0, []⟩ s.2)
  F (collectFirstBlockAt v n collector)

/-- With no other variable. -/
def collected : Variable (Collected β) (Collected β) where
  get := id
  set k _ := k
  get_set _ _ := rfl
  set_set _ _ _ := rfl

theorem collectFirstAt_collected (F : Flow (σ × Collected β) ε β) (n : ℕ)
    (collector : List β → Action (σ × Collected β) ε Unit) :
    collectFirstAt collected F n collector = collectFirst F n collector := rfl

section Run
variable (v : Variable τ (Collected β)) (n : ℕ)

theorem run_collectFirstBlockAt (collector : List β → Action (σ × τ) ε Unit) (value : β) (s : σ) (t : τ) :
    (collectFirstBlockAt v n collector value).run (s, t) =
      if (v.get t).count + 1 = n then
        (collector ((v.get t).list ++ [value])).run (s, v.set ((v.get t).push value) t)
      else (.ok (), s, v.set ((v.get t).push value) t) := by
  unfold collectFirstBlockAt
  rw [Script.run_bind, Script.run_write, Script.andThen_ok, Script.run_bind, Script.run_read, Script.andThen_ok]
  dsimp only
  rw [v.get_set, Collected.push]
  dsimp only
  by_cases hn : (v.get t).count + 1 = n
  · rw [if_pos hn, if_pos hn]
  · rw [if_neg hn, if_neg hn]
    rfl

variable [Nonempty ε] {F : α → Flow σ ε β} {F' : α → Flow (σ × τ) ε β}

private theorem run_collectFirstBlockAt_inTurn (hF : ∀ x, (F x).Mirrors (F' x)) {s s' : σ} {xs : List α} {ys : List β}
    (hturn : InTurn F s xs ys s') (hxs : xs ≠ []) (t : τ) (hn : (v.get t).count + xs.length = n) :
    ∃ back, ∀ collector, ((asFlow xs).flatMapConcat F' (collectFirstBlockAt v n collector)).run (s, t) =
      Script.settle back ((collector ((v.get t).list ++ ys)).run (s', v.set ⟨n, (v.get t).list ++ ys⟩ t)) := by
  induction hturn generalizing t with
  | nil => exact absurd rfl hxs
  | @cons s s₁ s₂ x xs y ys back hx hrest ih =>
    obtain ⟨back', hx'⟩ := (hF x).emits hx t
    have hrun (collector : List β → Action (σ × τ) ε Unit) :
        ((asFlow (x :: xs)).flatMapConcat F' (collectFirstBlockAt v n collector)).run (s, t) =
          Script.andThen (fun _ => (asFlow xs).flatMapConcat F' (collectFirstBlockAt v n collector))
            (Script.settle back' ((collectFirstBlockAt v n collector y).run (s₁, t))) := by
      rw [← hx']
      exact Script.run_bind _ _ _
    rw [List.length_cons] at hn
    cases hrest with
    | nil =>
      refine ⟨back', fun collector => ?_⟩
      have hlast : (v.get t).count + 1 = n := hn
      rw [hrun, run_collectFirstBlockAt, if_pos hlast, ← hlast]
      exact Script.andThen_pure _
    | cons hx₂ hrest₂ =>
      rw [List.length_cons] at hn
      have hmore : (v.get t).count + 1 ≠ n := by omega
      obtain ⟨back₂, hrest⟩ := ih (List.cons_ne_nil _ _) (v.set ((v.get t).push y) t)
        (by rw [v.get_set, List.length_cons, Collected.push]; dsimp only; omega)
      refine ⟨back₂, fun collector => ?_⟩
      rw [hrun, run_collectFirstBlockAt, if_neg hmore, List.append_cons]
      rw [v.get_set] at hrest
      refine (hrest collector).trans ?_
      rw [v.set_set]
      rfl

/-- The collector gets what the flows hand on one after the other. -/
theorem emits_collectFirstAt (hF : ∀ x, (F x).Mirrors (F' x)) {s s' : σ} {xs : List α} {ys : List β}
    (hturn : InTurn F s xs ys s') (hxs : xs ≠ []) (t : τ) :
    ∃ back, Emits (fun emit => collectFirstAt v ((asFlow xs).flatMapConcat F') xs.length emit) (s, t) ys
      (s', v.set ⟨xs.length, ys⟩ t) back := by
  obtain ⟨back, hrun⟩ := run_collectFirstBlockAt_inTurn v xs.length hF hturn hxs (v.set ⟨0, []⟩ t)
    (by rw [v.get_set, Nat.zero_add])
  refine ⟨back, fun collector => ?_⟩
  dsimp only
  unfold collectFirstAt
  rw [Script.run_bind, Script.run_write, Script.andThen_ok]
  refine (hrun collector).trans ?_
  rw [v.get_set, v.set_set]
  rfl

end Run

/-- Counting moves the variables along `R` if setting the counter does. -/
theorem Along.collectFirstAt {R : τ → τ → Prop} {F : Flow (σ × τ) ε β} (hF : F.Along R) (hR : ∀ t, R t t)
    {v : Variable τ (Collected β)} (hv : ∀ k t, R t (v.set k t)) (n : ℕ) :
    Along R fun emit : List β → Action (σ × τ) ε Unit => Flow.collectFirstAt v F n emit := by
  intro emit hemit
  have hstart : (Script.write fun s : σ × τ => (s.1, v.set ⟨0, []⟩ s.2) : Action (σ × τ) ε Unit).Along R :=
    Script.along_write fun s => hv _ s.2
  refine hstart.bind fun _ => hF _ fun value => ?_
  have hcount : (Script.write fun s : σ × τ => (s.1, v.set ((v.get s.2).push value) s.2) :
      Action (σ × τ) ε Unit).Along R := Script.along_write fun s => hv _ s.2
  refine hcount.bind fun _ => (Script.along_read _ hR).bind fun collected => ?_
  by_cases hn : collected.count = n
  · rw [if_pos hn]
    exact hemit _
  · rw [if_neg hn]
    trivial

end Flow
end Coroutine
