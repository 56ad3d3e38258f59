import Mathlib.Data.List.Basic

/-! A stored value that readers follow. Every write leaves each reader a notification, which is not kept
twice. A reader takes its notification, reads the value and hands on what it has read, with other steps
in between. -/
namespace Coroutine

variable {V : Type}

inductive Reader.Phase (V : Type)
  | idle
  | reading
  | holding (value : V)

structure Reader (V : Type) where
  notified : Bool
  phase : Reader.Phase V

namespace Reader

/-- A reader begins with a first notification of its own. -/
def start : Reader V := ⟨true, .idle⟩

def notify (r : Reader V) : Reader V := { r with notified := true }

/-- One step of a reader while `v` is stored, and what it hands on. -/
inductive Step (v : V) : Reader V → Option V → Reader V → Prop
  | take : Step v ⟨true, .idle⟩ none ⟨false, .reading⟩
  | read {notified : Bool} : Step v ⟨notified, .reading⟩ none ⟨notified, .holding v⟩
  | deliver {notified : Bool} {value : V} : Step v ⟨notified, .holding value⟩ (some value) ⟨notified, .idle⟩

def Idle (r : Reader V) : Prop := r = ⟨false, .idle⟩

/-- What the reader holds is the stored value, or it is going to read again. -/
def Current (v : V) (r : Reader V) : Prop := ∀ value, r.phase = .holding value → value = v ∨ r.notified = true

/-- The reader is going to hand on the stored value. -/
def Pending (v : V) (r : Reader V) : Prop := r.notified = true ∨ r.phase = .reading ∨ r.phase = .holding v

variable {v : V} {r r' : Reader V} {value : V}

theorem current_start : (start : Reader V).Current v := by
  intro value h
  cases h

theorem current_notify : r.notify.Current v := fun _ _ => Or.inr rfl

theorem Current.step {o : Option V} (h : r.Current v) (hstep : Step v r o r') : r'.Current v := by
  intro value hphase
  cases hstep with
  | take => cases hphase
  | read =>
    cases hphase
    exact Or.inl rfl
  | deliver => cases hphase

theorem Pending.step (h : r.Pending v) (hstep : Step v r none r') : r'.Pending v := by
  cases hstep with
  | take => exact Or.inr (Or.inl rfl)
  | read => exact Or.inr (Or.inr rfl)

/-- What is handed on is the stored value unless that is still to come. -/
theorem Current.deliver (h : r.Current v) (hstep : Step v r (some value) r') : value = v ∨ r'.Pending v := by
  cases hstep
  rcases h value rfl with hvalue | hnotified
  · exact Or.inl hvalue
  · exact Or.inr (Or.inl hnotified)

theorem Idle.not_pending (h : r.Idle) : ¬ r.Pending v := by
  rw [h]
  intro hpending
  rcases hpending with h | h | h <;> cases h

end Reader

/-! ### Several readers -/

/-- One of the readers is going to hand on the stored value. -/
def OnItsWay (v : V) (rs : List (Reader V)) : Prop := ∃ r ∈ rs, r.Pending v

section Readers
variable {v v' : V} {rs as bs : List (Reader V)} {r r' : Reader V}

theorem onItsWay_notify (h : rs ≠ []) : OnItsWay v (rs.map Reader.notify) := by
  obtain ⟨r, hr⟩ := List.exists_mem_of_ne_nil rs h
  exact ⟨r.notify, List.mem_map_of_mem hr, Or.inl rfl⟩

theorem onItsWay_start : OnItsWay v (Reader.start :: rs) := ⟨Reader.start, List.mem_cons_self, Or.inl rfl⟩

theorem OnItsWay.step (h : OnItsWay v (as ++ r :: bs)) (hstep : Reader.Step v r none r') :
    OnItsWay v (as ++ r' :: bs) := by
  obtain ⟨x, hx, hpending⟩ := h
  rcases List.mem_append.mp hx with hx | hx
  · exact ⟨x, List.mem_append_left _ hx, hpending⟩
  · rcases List.mem_cons.mp hx with rfl | hx
    · exact ⟨r', List.mem_append_right _ List.mem_cons_self, hpending.step hstep⟩
    · exact ⟨x, List.mem_append_right _ (List.mem_cons_of_mem _ hx), hpending⟩

theorem onItsWay_of_mem (h : r.Pending v) : OnItsWay v (as ++ r :: bs) :=
  ⟨r, List.mem_append_right _ List.mem_cons_self, h⟩

theorem not_onItsWay_of_idle (h : ∀ r ∈ rs, r.Idle) : ¬ OnItsWay v rs :=
  fun ⟨r, hr, hpending⟩ => (h r hr).not_pending hpending

theorem current_step {o : Option V} (h : ∀ x ∈ as ++ r :: bs, x.Current v) (hstep : Reader.Step v r o r') :
    ∀ x ∈ as ++ r' :: bs, x.Current v := by
  intro x hx
  rcases List.mem_append.mp hx with hx | hx
  · exact h x (List.mem_append_left _ hx)
  · rcases List.mem_cons.mp hx with rfl | hx
    · exact (h r (List.mem_append_right _ List.mem_cons_self)).step hstep
    · exact h x (List.mem_append_right _ (List.mem_cons_of_mem _ hx))

theorem current_map_notify : ∀ x ∈ rs.map Reader.notify, x.Current v := by
  intro x hx
  obtain ⟨r, -, rfl⟩ := List.mem_map.mp hx
  exact Reader.current_notify

end Readers
end Coroutine
