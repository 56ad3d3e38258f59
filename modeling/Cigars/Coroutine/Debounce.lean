import Cigars.Coroutine.Channel
import Cigars.Transition.Run

/-! A conflated channel read through `debounce`: an element is delivered once no other one has
followed it for the length of a timeout. The channel, the producer that empties it and the timer
move one at a time; time passes in between. -/
namespace Coroutine

/-- `transit` has left the channel and is not received yet; `held` is the element received last with
the time its timeout ends. -/
structure Debounce (α : Type) where
  now : ℕ
  channel : Conflated α
  transit : Option α
  held : Option (α × ℕ)
  deriving DecidableEq

namespace Debounce
variable {α : Type} {timeout : ℕ}

inductive Event
  | take
  | pass
  | fire
  | elapse
  deriving DecidableEq

def empty : Debounce α := ⟨0, .empty, none, none⟩

def send (a : α) (d : Debounce α) : Debounce α := { d with channel := d.channel.trySend a }

/-- The state after an event, with what it delivers; `none` if the event cannot happen. -/
def step (timeout : ℕ) (d : Debounce α) : Event → Option (Debounce α × Option α)
  | .take =>
    match d.transit, d.channel.receive? with
    | none, some (a, c) => some ({ d with channel := c, transit := some a }, none)
    | _, _ => none
  | .pass =>
    match d.transit with
    | some a => some ({ d with transit := none, held := some (a, d.now + timeout) }, none)
    | none => none
  | .fire =>
    match d.held with
    | some (a, due) => if due ≤ d.now then some ({ d with held := none }, some a) else none
    | none => none
  | .elapse => some ({ d with now := d.now + 1 }, none)

variable {d d' : Debounce α} {e : Event} {out : Option α}

/-- Everything a step can be. -/
theorem step_cases (h : d.step timeout e = some (d', out)) :
    (∃ a, e = .take ∧ d.transit = none ∧ d.channel.pending = some a ∧ out = none ∧
      d' = { d with channel := .empty, transit := some a }) ∨
    (∃ a, e = .pass ∧ d.transit = some a ∧ out = none ∧
      d' = { d with transit := none, held := some (a, d.now + timeout) }) ∨
    (∃ a due, e = .fire ∧ d.held = some (a, due) ∧ due ≤ d.now ∧ out = some a ∧ d' = { d with held := none }) ∨
    (e = .elapse ∧ out = none ∧ d' = { d with now := d.now + 1 }) := by
  cases e with
  | take =>
    simp only [step] at h
    split at h
    · next a c htransit hreceive =>
      obtain ⟨hpending, rfl⟩ := Conflated.receive?_eq_some_iff.mp hreceive
      cases h
      exact .inl ⟨a, rfl, htransit, hpending, rfl, rfl⟩
    · cases h
  | pass =>
    simp only [step] at h
    split at h
    · next a htransit =>
      cases h
      exact .inr (.inl ⟨a, rfl, htransit, rfl, rfl⟩)
    · cases h
  | fire =>
    simp only [step] at h
    split at h
    · next a due hheld =>
      by_cases hdue : due ≤ d.now
      · rw [if_pos hdue] at h
        cases h
        exact .inr (.inr (.inl ⟨a, due, rfl, hheld, hdue, rfl, rfl⟩))
      · rw [if_neg hdue] at h
        cases h
    · cases h
  | elapse =>
    cases h
    exact .inr (.inr (.inr ⟨rfl, rfl, rfl⟩))

/-! ### The newest element -/

/-- The element sent last that has not been delivered. -/
def newest (d : Debounce α) : Option α := d.channel.pending.or (d.transit.or (d.held.map Prod.fst))

@[simp] theorem newest_send (a : α) (d : Debounce α) : (d.send a).newest = some a := rfl

/-- A delivery either leaves a newer element behind or has delivered the newest. -/
theorem newest_step (h : d.step timeout e = some (d', out)) :
    d'.newest = d.newest ∨ (d'.newest = none ∧ d.newest = out ∧ out ≠ none) := by
  rcases step_cases h with ⟨a, -, htransit, hpending, -, rfl⟩ | ⟨a, -, htransit, -, rfl⟩ |
    ⟨a, due, -, hheld, -, rfl, rfl⟩ | ⟨-, -, rfl⟩
  · left
    unfold newest
    rw [htransit, hpending]
    rfl
  · left
    unfold newest
    rw [htransit]
    rfl
  · unfold newest
    cases d.channel.pending with
    | some b => exact .inl rfl
    | none =>
      cases d.transit with
      | some b => exact .inl rfl
      | none =>
        rw [hheld]
        exact .inr ⟨rfl, rfl, nofun⟩
  · exact .inl rfl

/-- `v` is the newest element, or nothing is left to deliver and `Q` holds. -/
def Current (d : Debounce α) (v : α) (Q : Prop) : Prop := d.newest = some v ∨ (d.newest = none ∧ Q)

theorem current_send (v : α) (d : Debounce α) (Q : Prop) : (d.send v).Current v Q := .inl rfl

theorem Current.imp {v : α} {Q Q' : Prop} (h : d.Current v Q) (himp : Q → Q') : d.Current v Q' :=
  Or.imp_right (And.imp_right himp) h

theorem Current.silent {v : α} {Q : Prop} (h : d.Current v Q) (hstep : d.step timeout e = some (d', none)) :
    d'.Current v Q := by
  rcases newest_step hstep with hsame | ⟨-, -, hout⟩
  · unfold Current
    rw [hsame]
    exact h
  · exact absurd rfl hout

/-- The delivery of `v` itself has to establish `Q`. -/
theorem Current.delivered {v a : α} {Q Q' : Prop} (h : d.Current v Q)
    (hstep : d.step timeout e = some (d', some a)) (hQ : a = v → Q') : d'.Current v Q' := by
  have hfires : d.newest ≠ none := by
    rcases step_cases hstep with ⟨_, -, -, -, hout, -⟩ | ⟨_, -, -, hout, -⟩ | ⟨a, due, -, hheld, -⟩ | ⟨-, hout, -⟩
    · cases hout
    · cases hout
    · unfold newest
      rw [hheld]
      cases d.channel.pending <;> cases d.transit <;> nofun
    · cases hout
  rcases h with hnewest | ⟨hnone, -⟩
  · rcases newest_step hstep with hsame | ⟨hnone, hout, -⟩
    · exact .inl (hsame.trans hnewest)
    · rw [hnewest] at hout
      exact .inr ⟨hnone, hQ (Option.some.inj hout).symm⟩
  · exact absurd hnone hfires

/-! ### Time -/

/-- An event other than the passing of time is possible. -/
def Ready (d : Debounce α) : Prop :=
  d.channel.pending ≠ none ∨ d.transit ≠ none ∨ ∃ a due, d.held = some (a, due) ∧ due ≤ d.now

/-- Nothing has waited, `last` being the time of the last `send`. -/
structure OnTime (timeout last : ℕ) (d : Debounce α) : Prop where
  past : last ≤ d.now
  unread : d.channel.pending ≠ none ∨ d.transit ≠ none → d.now = last
  due : ∀ a due, d.held = some (a, due) → due ≤ last + timeout

theorem onTime_empty : OnTime timeout 0 (empty : Debounce α) where
  past := Nat.le_refl _
  unread := fun _ => rfl
  due := nofun

theorem OnTime.send {last : ℕ} (h : OnTime timeout last d) (a : α) : OnTime timeout d.now (d.send a) where
  past := Nat.le_refl _
  unread := fun _ => rfl
  due := fun b due hheld => by
    have hdue := h.due b due hheld
    have hpast := h.past
    omega

theorem OnTime.step {last : ℕ} (h : OnTime timeout last d) (hstep : d.step timeout e = some (d', out))
    (hprompt : e = .elapse → ¬d.Ready) : OnTime timeout last d' := by
  rcases step_cases hstep with ⟨a, -, -, hpending, -, rfl⟩ | ⟨a, -, htransit, -, rfl⟩ |
    ⟨a, due, -, hheld, -, -, rfl⟩ | ⟨he, -, rfl⟩
  · have hnow : d.now = last := h.unread (.inl (hpending ▸ Option.some_ne_none a))
    exact ⟨h.past, fun _ => hnow, h.due⟩
  · have hnow : d.now = last := h.unread (.inr (htransit ▸ Option.some_ne_none a))
    refine ⟨h.past, fun _ => hnow, fun b due hheld => ?_⟩
    cases hheld
    omega
  · exact ⟨h.past, h.unread, nofun⟩
  · refine ⟨Nat.le_succ_of_le h.past, fun hunread => ?_, h.due⟩
    exact absurd (Or.imp_right Or.inl hunread) (hprompt he)

/-- One timeout after the last `send` everything is delivered. -/
theorem OnTime.newest_eq_none {last : ℕ} (h : OnTime timeout last d) (hready : ¬d.Ready)
    (htime : last + timeout ≤ d.now) : d.newest = none := by
  have hpending : d.channel.pending = none := Classical.byContradiction fun hne => hready (.inl hne)
  have htransit : d.transit = none := Classical.byContradiction fun hne => hready (.inr (.inl hne))
  have hheld : d.held = none := by
    cases hd : d.held with
    | none => rfl
    | some p =>
      have hdue := h.due p.1 p.2 hd
      exact absurd (.inr (.inr ⟨p.1, p.2, hd, by omega⟩)) hready
  unfold newest
  rw [hpending, htransit, hheld]
  rfl

/-! ### Systems that send -/

section Runs
open Transition
variable {σ ω : Type} {flow : σ → Debounce α} {event : ω → Option Event} {sends : ω → Bool}
  {next : σ → ω → σ → Prop} {s₀ s : σ} {trace : List (σ × ω)}

/-- The time of the last step that sends. -/
def lastSend (flow : σ → Debounce α) (sends : ω → Bool) : List (σ × ω) → ℕ
  | [] => 0
  | (s, op) :: trace => if sends op then (flow s).now else lastSend flow sends trace

/-- Time passes only where no other event is possible. -/
def Prompt (flow : σ → Debounce α) (event : ω → Option Event) (trace : List (σ × ω)) : Prop :=
  ∀ t ∈ trace, event t.2 = some .elapse → ¬(flow t.1).Ready

theorem lastSend_append {steps : List (σ × ω)} (h : ∀ t ∈ steps, sends t.2 = false) :
    lastSend flow sends (steps ++ trace) = lastSend flow sends trace := by
  induction steps with
  | nil => rfl
  | cons t steps ih =>
    obtain ⟨hhead, htail⟩ := List.forall_mem_cons.mp h
    rw [List.cons_append, lastSend, hhead, if_neg Bool.false_ne_true, ih htail]

/-- Nothing is possible where nothing is left. -/
theorem not_ready_of_newest (h : d.newest = none) : ¬d.Ready := by
  unfold newest at h
  rw [Option.or_eq_none_iff, Option.or_eq_none_iff, Option.map_eq_none_iff] at h
  rintro (hpending | htransit | ⟨a, due, hheld, -⟩)
  · exact hpending h.1
  · exact htransit h.2.1
  · rw [h.2.2] at hheld
    cases hheld

theorem prompt_of_ne (h : ∀ t ∈ trace, event t.2 ≠ some .elapse) : Prompt flow event trace :=
  fun t ht helapse => absurd helapse (h t ht)

/-- Waiting for the end of a timeout, with nothing left to read, is prompt. -/
theorem Prompt.waited {steps : List (σ × ω)} {n : ℕ} (h : Prompt flow event trace)
    (hsteps : ∀ t ∈ steps, ∃ k < n, ∃ a, flow t.1 = ⟨k, .empty, none, some (a, n)⟩) :
    Prompt flow event (steps ++ trace) := by
  intro t ht helapse
  rcases List.mem_append.mp ht with hstep | hmem
  · obtain ⟨k, hk, a, hflow⟩ := hsteps t hstep
    rw [hflow]
    rintro (hpending | htransit | ⟨b, due, hheld, hdue⟩)
    · exact hpending rfl
    · exact htransit rfl
    · cases hheld
      exact absurd hdue (Nat.not_le.mpr hk)
  · exact h t hmem helapse

theorem Prompt.step {op : ω} (h : Prompt flow event trace) (hop : event op ≠ some .elapse) :
    Prompt flow event ((s, op) :: trace) :=
  List.forall_mem_cons.mpr ⟨fun helapse => absurd helapse hop, h⟩

/-- The steps of a system send, or are events, or leave the flow alone. -/
structure Drives (timeout : ℕ) (flow : σ → Debounce α) (event : ω → Option Event) (sends : ω → Bool)
    (next : σ → ω → σ → Prop) : Prop where
  send : ∀ s op s', next s op s' → sends op = true → ∃ a, flow s' = (flow s).send a
  other : ∀ s op s', next s op s' → sends op = false →
    flow s' = flow s ∨ ∃ e out, event op = some e ∧ (flow s).step timeout e = some (flow s', out)

theorem Drives.onTime (h : Drives timeout flow event sends next) (hstart : flow s₀ = empty)
    (run : Run next s₀ trace s) (hprompt : Prompt flow event trace) :
    OnTime timeout (lastSend flow sends trace) (flow s) := by
  induction run with
  | start =>
    rw [hstart]
    exact onTime_empty
  | @next trace s s' op run hstep ih =>
    have hrest := List.forall_mem_cons.mp hprompt
    unfold lastSend
    cases hop : sends op with
    | true =>
      obtain ⟨a, ha⟩ := h.send s op s' hstep hop
      rw [if_pos rfl, ha]
      exact (ih hrest.2).send a
    | false =>
      rw [if_neg Bool.false_ne_true]
      rcases h.other s op s' hstep hop with hsame | ⟨e, out, he, hflow⟩
      · rw [hsame]
        exact ih hrest.2
      · exact (ih hrest.2).step hflow fun helapse => hrest.1 (he.trans (congrArg some helapse))

end Runs
end Debounce
end Coroutine
