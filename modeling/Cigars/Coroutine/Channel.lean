import Mathlib.Data.Nat.Notation

/-! A conflated channel: it keeps the most recent element that has not been received, and sending
never waits. -/
namespace Coroutine

structure Conflated (α : Type) where
  pending : Option α
  deriving DecidableEq

namespace Conflated
variable {α : Type}

def empty : Conflated α := ⟨none⟩

/-- An element that is still there is dropped. -/
def trySend (a : α) (_ : Conflated α) : Conflated α := ⟨some a⟩

/-- The element and the channel without it; the receiver waits while there is none. -/
def receive? (c : Conflated α) : Option (α × Conflated α) := c.pending.map fun a => (a, empty)

theorem receive?_eq_some_iff {c c' : Conflated α} {a : α} :
    c.receive? = some (a, c') ↔ c.pending = some a ∧ c' = empty := by
  unfold receive?
  cases c.pending with
  | none => simp
  | some x =>
    simp only [Option.map_some, Option.some.injEq, Prod.mk.injEq]
    exact and_congr_right fun _ => eq_comm

/-- What has been taken out of the channel and what is still in it is everything sent, in order. -/
def Lossless (c : Conflated α) (taken sent : List α) : Prop := taken ++ c.pending.toList = sent

/-- No more can come out than was put in. -/
def Accounted (c : Conflated α) (taken sent : List α) : Prop :=
  (taken ++ c.pending.toList).length ≤ sent.length

section Traffic
variable {c c' : Conflated α} {taken sent : List α} {a : α}

theorem Accounted.trySend (h : c.Accounted taken sent) : (c.trySend a).Accounted taken (sent ++ [a]) := by
  unfold Accounted at h ⊢
  have hpending : (c.trySend a).pending.toList = [a] := rfl
  rw [hpending]
  simp only [List.length_append, List.length_singleton] at h ⊢
  omega

/-- A send loses nothing exactly when nothing was lost before and the channel is empty. -/
theorem lossless_trySend_iff (h : c.Accounted taken sent) :
    (c.trySend a).Lossless taken (sent ++ [a]) ↔ c.Lossless taken sent ∧ c.pending = none := by
  have hpending : (c.trySend a).pending.toList = [a] := rfl
  unfold Lossless
  rw [hpending]
  constructor
  · intro hall
    have htaken : taken = sent := List.append_cancel_right hall
    cases hc : c.pending with
    | none => exact ⟨by simpa using htaken, rfl⟩
    | some x =>
      unfold Accounted at h
      rw [hc, htaken, List.length_append] at h
      have hone : (some x).toList.length = 1 := rfl
      omega
  · rintro ⟨hall, hnone⟩
    rw [hnone] at hall
    simp only [Option.toList_none, List.append_nil] at hall
    rw [hall]

theorem receive?_traffic (h : c.receive? = some (a, c')) :
    (taken ++ [a]) ++ c'.pending.toList = taken ++ c.pending.toList := by
  obtain ⟨hpending, rfl⟩ := receive?_eq_some_iff.mp h
  rw [hpending]
  simp [empty]

end Traffic
end Conflated
end Coroutine
