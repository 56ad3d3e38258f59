import Cigars.Collections.KeyedSet
import Cigars.Coroutine.Channel
import Cigars.Transition.Run

/-! The events of the screens. `sendEvent` puts an event into a conflated channel; the job started
with the view model receives it and calls every registered listener. -/
namespace Cigars
open Coroutine Transition

/-- `input` is the value last set, `channel` feeds the observing job. -/
structure ObservableValue (T : Type) where
  input : T
  channel : Conflated T

def ObservableValue.create {T : Type} (defaultValue : T) : ObservableValue T := ⟨defaultValue, .empty⟩

/-- The setter of `value`. -/
def ObservableValue.set {T : Type} (value : T) (o : ObservableValue T) : ObservableValue T :=
  ⟨value, o.channel.trySend value⟩

namespace ActionsViewModel
variable {E C : Type}

/-- The view model with the event its job has received and not yet passed on. `sent` and `calls`
record the calls of `sendEvent` and of the listeners. -/
structure State (E C : Type) where
  events : ObservableValue (Option E)
  eventListeners : List (String × C)
  received : Option (Option E)
  sent : List E
  calls : List ((String × C) × E)

inductive Op (E C : Type)
  | observeEvents (tag : String) (onEach : C)
  | removeObserver (tag : String)
  | sendEvent (event : E)
  | receive
  | dispatch
  deriving DecidableEq

/-- The callback of the job: every listener is called, unless the value is null. -/
def propagate (eventListeners : List (String × C)) (it : Option E) : List ((String × C) × E) :=
  match it with
  | none => []
  | some event => eventListeners.map fun entry => (entry, event)

def Op.perform (st : State E C) : Op E C → Option (State E C)
  | observeEvents tag onEach =>
    if st.eventListeners.any fun entry => entry.1 == tag then some st
    else some { st with eventListeners := st.eventListeners ++ [(tag, onEach)] }
  | removeObserver tag =>
    some { st with eventListeners := st.eventListeners.filter fun entry => entry.1 != tag }
  | sendEvent event =>
    some { st with events := st.events.set (some event), sent := st.sent ++ [event] }
  | receive =>
    match st.received, st.events.channel.receive? with
    | none, some (it, channel) =>
      some { st with events := { st.events with channel }, received := some it }
    | _, _ => none
  | dispatch =>
    match st.received with
    | some it => some { st with received := none, calls := st.calls ++ propagate st.eventListeners it }
    | none => none

def Op.Step (st : State E C) (op : Op E C) (st' : State E C) : Prop := op.perform st = some st'

/-- The view model with its job running and the listeners registered. -/
def created (eventListeners : List (String × C)) : State E C :=
  ⟨.create none, eventListeners, none, [], []⟩

/-- The job has received and passed on everything. -/
def Drained (st : State E C) : Prop := st.received = none ∧ st.events.channel.pending = none

/-! ### One listener -/

namespace State
variable (st : State E C) (tag : String)

/-- The events the listener has been called with. -/
def calledWith : List E := (st.calls.filter fun call => call.1.1 == tag).map Prod.snd

/-- What has come out of the channel for the listener. -/
def taken : List (Option E) := (st.calledWith tag).map some ++ st.received.toList

end State

/-- A listener that is registered, and what the job is about to call it with. -/
structure Wired (tag : String) (onEach : C) (st : State E C) : Prop where
  tags : (st.eventListeners.map Prod.fst).Nodup
  registered : (tag, onEach) ∈ st.eventListeners
  callback : ∀ call ∈ st.calls, call.1.1 = tag → call.1.2 = onEach
  received : ∀ it, st.received = some it → it.isSome = true
  pending : ∀ it, st.events.channel.pending = some it → it.isSome = true

variable {tag : String} {onEach : C} {st st' : State E C} {op : Op E C}

theorem Wired.created {eventListeners : List (String × C)} (htags : (eventListeners.map Prod.fst).Nodup)
    (hentry : (tag, onEach) ∈ eventListeners) : Wired tag onEach (created eventListeners : State E C) where
  tags := htags
  registered := hentry
  callback := fun _ hcall => absurd hcall List.not_mem_nil
  received := fun _ h => by cases h
  pending := fun _ h => by cases h

theorem Wired.eq_of_tag (h : Wired tag onEach st) {entry : String × C} (hentry : entry ∈ st.eventListeners)
    (htag : entry.1 = tag) : entry = (tag, onEach) :=
  List.inj_on_of_nodup_map h.tags hentry h.registered htag

/-- The listener is called once for every event passed on. -/
theorem Wired.filter_propagate (h : Wired tag onEach st) (event : E) :
    (propagate st.eventListeners (some event)).filter (fun call => call.1.1 == tag) =
      [((tag, onEach), event)] := by
  have hone : st.eventListeners.filter (fun entry => entry.1 == tag) = [(tag, onEach)] := by
    apply Collections.filter_eq_singleton (List.Nodup.of_map _ h.tags) h.registered
    intro entry hentry
    rw [beq_iff_eq]
    constructor
    · exact h.eq_of_tag hentry
    · intro heq
      rw [heq]
  unfold propagate
  rw [List.filter_map]
  exact congrArg (List.map fun entry => (entry, event)) hone

/-! ### Steps -/

/-- A listener whose tag is taken is not registered. -/
theorem Op.observeEvents_step {tag' : String} {onEach' : C} (hstep : (Op.observeEvents tag' onEach').Step st st') :
    st' = st ∨ ((∀ entry ∈ st.eventListeners, entry.1 ≠ tag') ∧
      st' = { st with eventListeners := st.eventListeners ++ [(tag', onEach')] }) := by
  unfold Step at hstep
  rw [perform] at hstep
  split_ifs at hstep with hany
  · exact Or.inl (Option.some.inj hstep).symm
  · refine Or.inr ⟨?_, (Option.some.inj hstep).symm⟩
    intro entry hentry heq
    exact hany (List.any_eq_true.mpr ⟨entry, hentry, by rw [heq, beq_self_eq_true]⟩)

theorem Wired.observeEvents (h : Wired tag onEach st) (tag' : String) (onEach' : C)
    (hstep : (Op.observeEvents tag' onEach').Step st st') : Wired tag onEach st' := by
  rcases Op.observeEvents_step hstep with rfl | ⟨hfresh, rfl⟩
  · exact h
  · refine { h with tags := ?_, registered := List.mem_append_left _ h.registered }
    rw [List.map_append, List.nodup_append]
    refine ⟨h.tags, List.nodup_singleton _, ?_⟩
    intro a ha b hb heq
    obtain ⟨entry, hentry, rfl⟩ := List.mem_map.mp ha
    rw [List.map_singleton, List.mem_singleton] at hb
    exact hfresh entry hentry (heq.trans hb)

theorem Wired.removeObserver (h : Wired tag onEach st) {tag' : String} (hother : tag' ≠ tag)
    (hstep : (Op.removeObserver tag').Step st st') : Wired tag onEach st' := by
  cases hstep
  have hsub : (st.eventListeners.filter fun entry => entry.1 != tag').Sublist st.eventListeners :=
    List.filter_sublist
  refine { h with tags := (hsub.map Prod.fst).nodup h.tags, registered := ?_ }
  exact List.mem_filter.mpr ⟨h.registered, bne_iff_ne.mpr hother.symm⟩

/-- What a step of the job does: it takes the event out of the channel, or calls the listeners. -/
theorem Op.receive_step (hstep : Op.receive.Step st st') : ∃ it channel, st.received = none ∧
    st.events.channel.receive? = some (it, channel) ∧
    st' = { st with events := { st.events with channel }, received := some it } := by
  unfold Step perform at hstep
  cases hreceived : st.received with
  | some it =>
    rw [hreceived] at hstep
    cases hstep
  | none =>
    cases hreceive : st.events.channel.receive? with
    | none =>
      rw [hreceived, hreceive] at hstep
      cases hstep
    | some taken =>
      rw [hreceived, hreceive] at hstep
      exact ⟨taken.1, taken.2, rfl, rfl, (Option.some.inj hstep).symm⟩

theorem Op.dispatch_step (hstep : Op.dispatch.Step st st') : ∃ it, st.received = some it ∧
    st' = { st with received := none, calls := st.calls ++ propagate st.eventListeners it } := by
  unfold Step perform at hstep
  cases hreceived : st.received with
  | none =>
    rw [hreceived] at hstep
    cases hstep
  | some it =>
    rw [hreceived] at hstep
    exact ⟨it, rfl, (Option.some.inj hstep).symm⟩

theorem Wired.step (h : Wired tag onEach st) (hstep : op.Step st st') (hkeep : op ≠ .removeObserver tag) :
    Wired tag onEach st' := by
  cases op with
  | observeEvents tag' onEach' => exact h.observeEvents tag' onEach' hstep
  | removeObserver tag' =>
    have hother : tag' ≠ tag := fun heq => hkeep (by rw [heq])
    exact h.removeObserver hother hstep
  | sendEvent event =>
    cases hstep
    refine { h with pending := ?_ }
    intro it hit
    rw [← Option.some.inj hit]
    rfl
  | receive =>
    obtain ⟨it, channel, -, hreceive, rfl⟩ := Op.receive_step hstep
    obtain ⟨hpending, rfl⟩ := Conflated.receive?_eq_some_iff.mp hreceive
    refine { h with received := ?_, pending := fun _ hnone => by cases hnone }
    intro it' hit
    rw [← Option.some.inj hit]
    exact h.pending it hpending
  | dispatch =>
    obtain ⟨it, hreceived, rfl⟩ := Op.dispatch_step hstep
    refine { h with callback := ?_, received := fun _ hnone => by cases hnone }
    intro call hcall htag
    rcases List.mem_append.mp hcall with hold | hnew
    · exact h.callback call hold htag
    · cases it with
      | none => cases hnew
      | some event =>
        obtain ⟨entry, hentry, rfl⟩ := List.mem_map.mp hnew
        rw [h.eq_of_tag hentry htag]

/-- Either an event is sent, or the events on their way stay the same. -/
theorem Wired.traffic (h : Wired tag onEach st) (hstep : op.Step st st') :
    (∃ event, op = .sendEvent event ∧ st'.events.channel = st.events.channel.trySend (some event) ∧
      st'.taken tag = st.taken tag ∧ st'.sent = st.sent ++ [event]) ∨
    ((∀ event, op ≠ .sendEvent event) ∧ st'.sent = st.sent ∧
      st'.taken tag ++ st'.events.channel.pending.toList = st.taken tag ++ st.events.channel.pending.toList) := by
  cases op with
  | observeEvents tag' onEach' =>
    right
    rcases Op.observeEvents_step hstep with rfl | ⟨-, rfl⟩
    · exact ⟨(fun _ he => by cases he), rfl, rfl⟩
    · exact ⟨(fun _ he => by cases he), rfl, rfl⟩
  | removeObserver tag' =>
    cases hstep
    exact Or.inr ⟨(fun _ he => by cases he), rfl, rfl⟩
  | sendEvent event =>
    cases hstep
    exact Or.inl ⟨event, rfl, rfl, rfl, rfl⟩
  | receive =>
    right
    obtain ⟨it, channel, hreceived, hreceive, rfl⟩ := Op.receive_step hstep
    refine ⟨(fun _ he => by cases he), rfl, ?_⟩
    have htaken : st.taken tag = (st.calledWith tag).map some := by
      unfold State.taken
      rw [hreceived, Option.toList_none, List.append_nil]
    rw [htaken, ← Conflated.receive?_traffic hreceive]
    rfl
  | dispatch =>
    right
    obtain ⟨it, hreceived, rfl⟩ := Op.dispatch_step hstep
    refine ⟨(fun _ he => by cases he), rfl, ?_⟩
    obtain ⟨event, rfl⟩ := Option.isSome_iff_exists.mp (h.received it hreceived)
    have hcalled : State.calledWith { st with
        received := none, calls := st.calls ++ propagate st.eventListeners (some event) } tag =
          st.calledWith tag ++ [event] := by
      unfold State.calledWith
      rw [List.filter_append, List.map_append, h.filter_propagate event]
      rfl
    unfold State.taken
    rw [hcalled, hreceived]
    simp

/-! ### Runs -/

/-- A send finds the channel empty. -/
def Op.Unhurried (st : State E C) : Op E C → Prop
  | sendEvent _ => st.events.channel.pending = none
  | _ => True

instance (st : State E C) (op : Op E C) : Decidable (op.Unhurried st) :=
  match op with
  | .sendEvent _ => inferInstanceAs (Decidable (_ = none))
  | .observeEvents _ _ | .removeObserver _ | .receive | .dispatch => inferInstanceAs (Decidable True)

theorem Op.unhurried_of_other (hother : ∀ event, op ≠ .sendEvent event) : op.Unhurried st := by
  cases op with
  | sendEvent event => exact absurd rfl (hother event)
  | observeEvents | removeObserver | receive | dispatch => exact trivial

def State.Accounted (tag : String) (st : State E C) : Prop :=
  st.events.channel.Accounted (st.taken tag) (st.sent.map some)

def State.Lossless (tag : String) (st : State E C) : Prop :=
  st.events.channel.Lossless (st.taken tag) (st.sent.map some)

theorem Wired.accounted_step (h : Wired tag onEach st) (hst : st.Accounted tag) (hstep : op.Step st st') :
    st'.Accounted tag := by
  unfold State.Accounted
  rcases h.traffic hstep with ⟨event, -, hchannel, htaken, hsent⟩ | ⟨-, hsent, htraffic⟩
  · rw [hchannel, htaken, hsent, List.map_append]
    exact Conflated.Accounted.trySend hst
  · unfold Conflated.Accounted
    rw [hsent, htraffic]
    exact hst

theorem Wired.lossless_step_iff (h : Wired tag onEach st) (hst : st.Accounted tag) (hstep : op.Step st st') :
    st'.Lossless tag ↔ st.Lossless tag ∧ op.Unhurried st := by
  unfold State.Lossless
  rcases h.traffic hstep with ⟨event, rfl, hchannel, htaken, hsent⟩ | ⟨hother, hsent, htraffic⟩
  · rw [hchannel, htaken, hsent, List.map_append]
    exact Conflated.lossless_trySend_iff hst
  · unfold Conflated.Lossless
    rw [hsent, htraffic]
    exact ⟨fun hall => ⟨hall, Op.unhurried_of_other hother⟩, fun hall => hall.1⟩

theorem Drained.lossless_iff (hdrained : Drained st) (tag : String) :
    st.Lossless tag ↔ st.calledWith tag = st.sent := by
  obtain ⟨hreceived, hpending⟩ := hdrained
  unfold State.Lossless Conflated.Lossless State.taken
  simp only [hreceived, hpending, Option.toList_none, List.append_nil]
  exact (List.map_injective_iff.mpr fun _ _ heq => Option.some.inj heq).eq_iff

theorem Wired.filter_calls (h : Wired tag onEach st) :
    st.calls.filter (fun call => call.1.1 == tag) =
      (st.calledWith tag).map fun event => ((tag, onEach), event) := by
  unfold State.calledWith
  rw [List.map_map]
  refine (List.map_id _).symm.trans (List.map_congr_left ?_)
  intro call hcall
  obtain ⟨hmem, htag⟩ := List.mem_filter.mp hcall
  rw [beq_iff_eq] at htag
  have honEach := h.callback call hmem htag
  rw [← htag, ← honEach]
  rfl

/-- Once the job has passed on everything, a listener that stayed registered has been called with
every event sent, once and in order, exactly when no event was sent while another one was waiting. -/
theorem events_delivered_iff {eventListeners : List (String × C)} (htags : (eventListeners.map Prod.fst).Nodup)
    {tag : String} {onEach : C} (hentry : (tag, onEach) ∈ eventListeners)
    {trace : List (State E C × Op E C)} {st : State E C} (run : Run Op.Step (created eventListeners) trace st)
    (hkept : ∀ t ∈ trace, t.2 ≠ .removeObserver tag) (hdrained : Drained st) :
    st.calls.filter (fun call => call.1.1 == tag) = st.sent.map (fun event => ((tag, onEach), event)) ↔
      ∀ t ∈ trace, t.2.Unhurried t.1 := by
  have hrestricted := run.restrict (Q := fun _ op => op ≠ .removeObserver tag) hkept
  have hstart : Wired tag onEach (created eventListeners : State E C) ∧
      (created eventListeners : State E C).Accounted tag :=
    ⟨Wired.created htags hentry, Nat.zero_le _⟩
  have hlossless : st.Lossless tag ↔ ∀ t ∈ trace, t.2.Unhurried t.1 := by
    refine hrestricted.holds_iff_of_invariant (I := fun st => Wired tag onEach st ∧ st.Accounted tag)
      (P := State.Lossless tag) (Q := fun st op => op.Unhurried st) hstart ?_ rfl ?_
    · rintro s op s' ⟨hwired, haccounted⟩ ⟨hstep, hkeep⟩
      exact ⟨hwired.step hstep hkeep, hwired.accounted_step haccounted hstep⟩
    · rintro s op s' ⟨hwired, haccounted⟩ ⟨hstep, -⟩
      exact hwired.lossless_step_iff haccounted hstep
  have hwired : Wired tag onEach st :=
    hrestricted.invariant (P := Wired tag onEach) hstart.1 fun _ _ _ h hstep => h.step hstep.1 hstep.2
  rw [hwired.filter_calls, ← hlossless, hdrained.lossless_iff]
  have hinj : Function.Injective fun event : E => ((tag, onEach), event) := fun _ _ heq => (Prod.mk.inj heq).2
  exact (List.map_injective_iff.mpr hinj).eq_iff

/-- Two events, the second one sent after the first one has been received. -/
def unhurried : List (Op ℕ Unit) := [.sendEvent 1, .receive, .sendEvent 2, .dispatch, .receive, .dispatch]

theorem events_delivered_two : ∃ trace st, Run Op.Step (created [("screen", ())]) trace st ∧ Drained st ∧
    st.sent = [1, 2] ∧ st.calls.filter (fun call => call.1.1 == "screen") =
      st.sent.map fun event => (("screen", ()), event) := by
  have run := Run.start.replay unhurried
    (rfl : replay Op.perform [] (created [("screen", ())]) unhurried = some (_, _))
  have hdelivered := events_delivered_iff (by decide) List.mem_cons_self run (by decide) ⟨rfl, rfl⟩
  exact ⟨_, _, run, ⟨rfl, rfl⟩, rfl, hdelivered.mpr (by decide)⟩

/-- Two events sent before the job has received the first one. -/
def hurried : List (Op ℕ Unit) := [.sendEvent 1, .sendEvent 2, .receive, .dispatch]

/-- The first event never reaches the listener. -/
theorem event_lost : ∃ trace st, Run Op.Step (created [("screen", ())]) trace st ∧ Drained st ∧
    (∀ t ∈ trace, t.2 ≠ .removeObserver "screen") ∧ st.sent = [1, 2] ∧
    st.calls = [(("screen", ()), 2)] := by
  have run := Run.start.replay hurried
    (rfl : replay Op.perform [] (created [("screen", ())]) hurried = some (_, _))
  exact ⟨_, _, run, ⟨rfl, rfl⟩, by decide, rfl, rfl⟩

end ActionsViewModel
end Cigars
