import Cigars.Collections.Basic
import Cigars.Transition.Run
import Mathlib.Data.List.Basic
import Mathlib.Data.Nat.Notation

/-! The loading flag of the database view models. All jobs share one flag; a job sets it when it
starts and clears it with every value it delivers. -/
namespace Cigars
open Transition

namespace DatabaseViewModel

/-- The two ways to run a flow. -/
inductive Call
  | executeQuery
  | execute
  deriving DecidableEq

/-- `waiting` until the first value; `cancelled` once `executeQuery` has had its value. -/
inductive Phase
  | waiting
  | delivered
  | cancelled
  | ended
  deriving DecidableEq

structure Job where
  call : Call
  phase : Phase
  deriving DecidableEq

structure State where
  loading : Bool
  jobs : List Job
  deriving DecidableEq

inductive Op
  | start (call : Call)
  | emit (job : ℕ)
  | finish (job : ℕ)
  deriving DecidableEq

/-- The collector's block, up to the callback. -/
def Job.collect (job : Job) : Option Phase :=
  match job.call, job.phase with
  | .executeQuery, .waiting => some .cancelled
  | .execute, .waiting => some .delivered
  | .execute, .delivered => some .delivered
  | _, _ => none

/-- A flow that has ended, with or without an exception, ends its job and clears nothing. -/
def Op.perform (st : State) : Op → Option State
  | start call => some ⟨true, st.jobs ++ [⟨call, .waiting⟩]⟩
  | emit i => do
    let job ← st.jobs[i]?
    let phase ← job.collect
    return ⟨false, st.jobs.set i { job with phase }⟩
  | finish i => do
    let job ← st.jobs[i]?
    if job.phase = .ended then none
    else return ⟨st.loading, st.jobs.set i { job with phase := .ended }⟩

def Op.Step (st : State) (op : Op) (st' : State) : Prop := op.perform st = some st'

def created : State := ⟨false, []⟩

/-- The job has neither delivered a value nor ended. -/
def Job.isWaiting (job : Job) : Bool := job.phase == .waiting

/-- The flag is set exactly while some job is waiting. -/
def Truthful (st : State) : Prop := st.loading = st.jobs.any Job.isWaiting

instance (st : State) : Decidable (Truthful st) := inferInstanceAs (Decidable (_ = _))

/-- Some job other than the `i`-th one is waiting. -/
def State.othersWaiting (st : State) (i : ℕ) : Bool := (st.jobs.eraseIdx i).any Job.isWaiting

/-- A value is delivered while no other job is waiting, and a job that ends without a value ends
while another one is. -/
def Op.Tidy (st : State) : Op → Prop
  | start _ => True
  | emit i => st.othersWaiting i = false
  | finish i => (st.jobs[i]?.any Job.isWaiting = true) → st.othersWaiting i = true

instance (st : State) (op : Op) : Decidable (op.Tidy st) :=
  match op with
  | .start _ => inferInstanceAs (Decidable True)
  | .emit _ => inferInstanceAs (Decidable (_ = _))
  | .finish _ => inferInstanceAs (Decidable (_ → _))

section Jobs
variable {st : State} {i : ℕ} {job : Job}

/-- The jobs are the `i`-th one and the others. -/
theorem any_isWaiting (hjob : st.jobs[i]? = some job) :
    st.jobs.any Job.isWaiting = (job.isWaiting || st.othersWaiting i) := by
  obtain ⟨hi, heq⟩ := List.getElem?_eq_some_iff.mp hjob
  have hset := Collections.any_set Job.isWaiting hi job
  rw [← heq, List.set_getElem_self] at hset
  rw [hset, heq]
  rfl

theorem any_isWaiting_set (hjob : st.jobs[i]? = some job) {job' : Job} (hdone : job'.isWaiting = false) :
    (st.jobs.set i job').any Job.isWaiting = st.othersWaiting i := by
  obtain ⟨hi, -⟩ := List.getElem?_eq_some_iff.mp hjob
  rw [Collections.any_set Job.isWaiting hi job', hdone]
  rfl

theorem Job.isWaiting_collect {phase : Phase} (h : job.collect = some phase) :
    ({ job with phase } : Job).isWaiting = false := by
  unfold collect at h
  split at h
  · cases h
    rfl
  · cases h
    rfl
  · cases h
    rfl
  · cases h

end Jobs

/-- A step of a truthful state leads to a truthful one exactly when it is tidy. -/
theorem Op.Step.truthful_iff {st st' : State} {op : Op} (hst : Truthful st) (hstep : op.Step st st') :
    Truthful st' ↔ op.Tidy st := by
  unfold Truthful at hst ⊢
  cases op with
  | start call =>
    cases hstep
    simp [Tidy, Job.isWaiting]
  | emit i =>
    obtain ⟨job, hjob, hrest⟩ := Option.bind_eq_some_iff.mp hstep
    obtain ⟨phase, hphase, hdone⟩ := Option.bind_eq_some_iff.mp hrest
    cases hdone
    show false = _ ↔ st.othersWaiting i = false
    rw [any_isWaiting_set hjob (Job.isWaiting_collect hphase)]
    exact eq_comm
  | finish i =>
    obtain ⟨job, hjob, hrest⟩ := Option.bind_eq_some_iff.mp hstep
    split_ifs at hrest
    cases hrest
    show st.loading = _ ↔ (st.jobs[i]?.any Job.isWaiting = true → st.othersWaiting i = true)
    rw [any_isWaiting_set hjob rfl, hst, any_isWaiting hjob, hjob, Option.any_some]
    cases job.isWaiting with
    | true =>
      rw [Bool.true_or]
      exact ⟨fun h _ => h.symm, fun h => (h rfl).symm⟩
    | false =>
      rw [Bool.false_or]
      simp

/-- The flag is truthful in all states of a run exactly when all its steps are tidy. -/
theorem loadingState_truthful_iff {trace : List (State × Op)} {st : State}
    (run : Run Op.Step created trace st) :
    (Truthful st ∧ ∀ t ∈ trace, Truthful t.1) ↔ ∀ t ∈ trace, t.2.Tidy t.1 := by
  have hstart : Truthful created := rfl
  apply run.kept_iff (Q := fun st op => op.Tidy st) hstart
  intro s op s' hs hstep
  exact Op.Step.truthful_iff hs hstep

/-- One job after the other, each with a value before its end. -/
def oneByOne : List Op := [.start .executeQuery, .emit 0, .finish 0, .start .execute, .emit 1, .emit 1, .finish 1]

theorem loadingState_truthful_oneByOne : ∃ trace st, Run Op.Step created trace st ∧ trace.length = 7 ∧
    Truthful st ∧ ∀ t ∈ trace, Truthful t.1 := by
  have run := Run.start.replay oneByOne (rfl : replay Op.perform [] created oneByOne = some (_, _))
  exact ⟨_, _, run, rfl, (loadingState_truthful_iff run).mpr (by decide)⟩

def withoutValue : List Op := [.start .execute, .finish 0]

def overlapped : List Op := [.start .executeQuery, .start .execute, .emit 0]

/-- A flow that ends without a value leaves the flag set; a value of one job clears it while
another one waits. -/
theorem loadingState_lies :
    (∃ trace st, Run Op.Step created trace st ∧ st.loading = true ∧ st.jobs = [⟨.execute, .ended⟩]) ∧
    ∃ trace st, Run Op.Step created trace st ∧ st.loading = false ∧
      st.jobs = [⟨.executeQuery, .cancelled⟩, ⟨.execute, .waiting⟩] := by
  have empty := Run.start.replay withoutValue (rfl : replay Op.perform [] created withoutValue = some (_, _))
  have overlapping := Run.start.replay overlapped (rfl : replay Op.perform [] created overlapped = some (_, _))
  exact ⟨⟨_, _, empty, rfl, rfl⟩, ⟨_, _, overlapping, rfl, rfl⟩⟩

end DatabaseViewModel
end Cigars
