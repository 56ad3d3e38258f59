import Mathlib.Data.List.Basic

/-! A list that is read row by row while others write. One statement finds the rows, two more read the parts of
each row. Whoever changes the rows or their first parts leaves the reader a notification, which is not kept
twice; nobody reports a change of the second parts. -/
namespace Coroutine

/-- What the statements of the reader give in a state; a part that is not there cannot be read. -/
structure RowSource (σ κ α β : Type) where
  keys : σ → List κ
  first : σ → κ → Option α
  second : σ → κ → Option β

variable {σ κ α β : Type}

namespace RowSource

/-- Two states with the same rows and the same first parts. -/
structure Same (S : RowSource σ κ α β) (s t : σ) : Prop where
  keys : S.keys t = S.keys s
  first : ∀ k ∈ S.keys s, S.first t k = S.first s k

/-- The first parts of the rows are those stored. -/
def FirstParts (S : RowSource σ κ α β) (s : σ) (rows : List (κ × α × β)) : Prop :=
  ∀ row ∈ rows, S.first s row.1 = some row.2.1

/-- The rows are those stored, but for their second parts. -/
structure Accurate (S : RowSource σ κ α β) (s : σ) (rows : List (κ × α × β)) : Prop where
  keys : rows.map Prod.fst = S.keys s
  first : S.FirstParts s rows

/-- The second parts of the rows were stored in states of `P`. -/
def SecondParts (S : RowSource σ κ α β) (P : σ → Prop) (rows : List (κ × α × β)) : Prop :=
  ∀ row ∈ rows, ∃ s, P s ∧ S.second s row.1 = some row.2.2

variable {S : RowSource σ κ α β} {s t : σ}

theorem Same.firstParts (h : S.Same s t) {rows : List (κ × α × β)} {todo : List κ}
    (hkeys : rows.map Prod.fst ++ todo = S.keys s) (hrows : S.FirstParts s rows) : S.FirstParts t rows := by
  intro row hrow
  have hmem : row.1 ∈ S.keys s := by
    rw [← hkeys]
    exact List.mem_append_left _ (List.mem_map_of_mem hrow)
  rw [h.first row.1 hmem]
  exact hrows row hrow

theorem firstParts_nil : S.FirstParts s [] := List.forall_mem_nil _

theorem SecondParts.mono {P Q : σ → Prop} {rows : List (κ × α × β)} (h : S.SecondParts P rows)
    (hPQ : ∀ s, P s → Q s) : S.SecondParts Q rows := by
  intro row hrow
  obtain ⟨s, hs, hsecond⟩ := h row hrow
  exact ⟨s, hPQ s hs, hsecond⟩

theorem secondParts_nil {P : σ → Prop} : S.SecondParts P [] := List.forall_mem_nil _

theorem Accurate.mem_keys {rows : List (κ × α × β)} (h : S.Accurate s rows) {row : κ × α × β} (hrow : row ∈ rows) :
    row.1 ∈ S.keys s := by
  rw [← h.keys]
  exact List.mem_map_of_mem hrow

theorem Same.accurate (h : S.Same s t) {rows : List (κ × α × β)} (hrows : S.Accurate s rows) : S.Accurate t rows := by
  have hkeys : rows.map Prod.fst ++ [] = S.keys s := (List.append_nil _).trans hrows.keys
  exact ⟨hrows.keys.trans h.keys.symm, h.firstParts hkeys hrows.first⟩

end RowSource

/-- Where the reader is: `scanning` still has to read the rows `todo`, `halfway` has read the first part of a row. -/
inductive Scan.Phase (κ α β : Type)
  | idle
  | started
  | scanning (todo : List κ) (rows : List (κ × α × β))
  | halfway (k : κ) (a : α) (todo : List κ) (rows : List (κ × α × β))
  | holding (rows : List (κ × α × β))

structure Scan (κ α β : Type) where
  notified : Bool
  phase : Scan.Phase κ α β

namespace Scan

/-- A reader begins with a first notification of its own. -/
def start : Scan κ α β := ⟨true, .idle⟩

def notify (r : Scan κ α β) : Scan κ α β := { r with notified := true }

/-- One step of the reader in state `s`, and the list it hands on. -/
inductive Step (S : RowSource σ κ α β) (s : σ) : Scan κ α β → Option (List (κ × α × β)) → Scan κ α β → Prop
  | take : Step S s ⟨true, .idle⟩ none ⟨false, .started⟩
  | select {n : Bool} : Step S s ⟨n, .started⟩ none ⟨n, .scanning (S.keys s) []⟩
  | readFirst {n : Bool} {k : κ} {a : α} {todo : List κ} {rows : List (κ × α × β)} : S.first s k = some a →
    Step S s ⟨n, .scanning (k :: todo) rows⟩ none ⟨n, .halfway k a todo rows⟩
  | readSecond {n : Bool} {k : κ} {a : α} {b : β} {todo : List κ} {rows : List (κ × α × β)} : S.second s k = some b →
    Step S s ⟨n, .halfway k a todo rows⟩ none ⟨n, .scanning todo (rows ++ [(k, a, b)])⟩
  | finish {n : Bool} {rows : List (κ × α × β)} : Step S s ⟨n, .scanning [] rows⟩ none ⟨n, .holding rows⟩
  | deliver {n : Bool} {rows : List (κ × α × β)} : Step S s ⟨n, .holding rows⟩ (some rows) ⟨n, .idle⟩

def Idle (r : Scan κ α β) : Prop := r = ⟨false, .idle⟩

/-- What has been read so far. -/
def Phase.rows : Phase κ α β → List (κ × α × β)
  | idle | started => []
  | scanning _ rows | halfway _ _ _ rows | holding rows => rows

/-- What has been read so far is what is stored. -/
def Phase.Fresh (S : RowSource σ κ α β) (s : σ) : Phase κ α β → Prop
  | idle | started => True
  | scanning todo rows => rows.map Prod.fst ++ todo = S.keys s ∧ S.FirstParts s rows
  | halfway k a todo rows => rows.map Prod.fst ++ k :: todo = S.keys s ∧ S.first s k = some a ∧ S.FirstParts s rows
  | holding rows => S.Accurate s rows

/-- What the reader has read is what is stored, or it is going to read again; and what it has handed on last,
`shown`, is what is stored when it has nothing left to do. -/
structure Follows (S : RowSource σ κ α β) (s : σ) (r : Scan κ α β) (shown : List (κ × α × β)) : Prop where
  fresh : r.notified = true ∨ r.phase.Fresh S s
  accurate : r.Idle → S.Accurate s shown
  partsRead : S.SecondParts (fun _ => True) r.phase.rows
  parts : S.SecondParts (fun _ => True) shown

/-- What the reader has read since its last notification was read in states of `P`, and so was what it has handed
on when it has nothing left to do. -/
structure ReadIn (S : RowSource σ κ α β) (P : σ → Prop) (r : Scan κ α β) (shown : List (κ × α × β)) : Prop where
  reading : r.notified = true ∨ S.SecondParts P r.phase.rows
  shown : r.Idle → S.SecondParts P shown

variable {S : RowSource σ κ α β} {s t : σ} {r r' : Scan κ α β} {shown rows : List (κ × α × β)}

theorem not_idle_of_notified (h : r.notified = true) : ¬ r.Idle := by
  intro hidle
  rw [hidle] at h
  cases h

theorem follows_start : Follows S s start [] where
  fresh := Or.inl rfl
  accurate hidle := absurd hidle (not_idle_of_notified rfl)
  partsRead := RowSource.secondParts_nil
  parts := RowSource.secondParts_nil

/-- A write that the reader is told of. -/
theorem Follows.notify (h : Follows S s r shown) : Follows S t r.notify shown where
  fresh := Or.inl rfl
  accurate hidle := absurd hidle (not_idle_of_notified rfl)
  partsRead := h.partsRead
  parts := h.parts

theorem Phase.Fresh.same {phase : Phase κ α β} (h : phase.Fresh S s) (hsame : S.Same s t) : phase.Fresh S t := by
  cases phase with
  | idle => trivial
  | started => trivial
  | scanning todo rows => exact ⟨h.1.trans hsame.keys.symm, hsame.firstParts h.1 h.2⟩
  | halfway k a todo rows =>
    obtain ⟨hkeys, hfirst, hrows⟩ := h
    have hk : k ∈ S.keys s := by
      rw [← hkeys]
      exact List.mem_append_right _ List.mem_cons_self
    exact ⟨hkeys.trans hsame.keys.symm, (hsame.first k hk).trans hfirst, hsame.firstParts hkeys hrows⟩
  | holding rows => exact hsame.accurate h

/-- A write that the reader is not told of. -/
theorem Follows.same (h : Follows S s r shown) (hsame : S.Same s t) : Follows S t r shown where
  fresh := h.fresh.imp id fun hfresh => hfresh.same hsame
  accurate hidle := hsame.accurate (h.accurate hidle)
  partsRead := h.partsRead
  parts := h.parts

theorem Phase.Fresh.step {n n' : Bool} {phase phase' : Phase κ α β} (h : phase.Fresh S s)
    (hstep : Step S s ⟨n, phase⟩ none ⟨n', phase'⟩) : phase'.Fresh S s := by
  cases hstep with
  | take => trivial
  | select => exact ⟨rfl, RowSource.firstParts_nil⟩
  | readFirst hfirst => exact ⟨h.1, hfirst, h.2⟩
  | @readSecond _ k a b todo rows _ =>
    obtain ⟨hkeys, hfirst, hrows⟩ := h
    refine ⟨?_, fun row hrow => ?_⟩
    · rw [List.map_append, List.append_assoc]
      exact hkeys
    · rcases List.mem_append.mp hrow with hrow | hrow
      · exact hrows row hrow
      · rw [List.mem_singleton.mp hrow]
        exact hfirst
  | finish => exact ⟨(List.append_nil _).symm.trans h.1, h.2⟩

/-- Only a notification that is taken makes a reader forget that it was notified. -/
theorem Step.notified_or_fresh (hstep : Step S s r none r') (h : r.notified = true ∨ r.phase.Fresh S s) :
    r'.notified = true ∨ r'.phase.Fresh S s := by
  obtain ⟨n, phase⟩ := r
  obtain ⟨n', phase'⟩ := r'
  rcases h with hn | hfresh
  · cases hstep with
    | take => exact Or.inr trivial
    | select => exact Or.inl hn
    | readFirst _ => exact Or.inl hn
    | readSecond _ => exact Or.inl hn
    | finish => exact Or.inl hn
  · exact Or.inr (hfresh.step hstep)

theorem Step.secondParts {P : σ → Prop} {o : Option (List (κ × α × β))} (hstep : Step S s r o r') (hs : P s)
    (h : S.SecondParts P r.phase.rows) : S.SecondParts P r'.phase.rows := by
  cases hstep with
  | take => exact h
  | select => exact RowSource.secondParts_nil
  | readFirst _ => exact h
  | readSecond hsecond =>
    intro row hrow
    rcases List.mem_append.mp hrow with hrow | hrow
    · exact h row hrow
    · rw [List.mem_singleton.mp hrow]
      exact ⟨s, hs, hsecond⟩
  | finish => exact h
  | deliver => exact RowSource.secondParts_nil

theorem Follows.step (h : Follows S s r shown) (hstep : Step S s r none r') : Follows S s r' shown where
  fresh := hstep.notified_or_fresh h.fresh
  accurate hidle := by
    rw [hidle] at hstep
    cases hstep
  partsRead := hstep.secondParts trivial h.partsRead
  parts := h.parts

theorem Follows.deliver (h : Follows S s r shown) (hstep : Step S s r (some rows) r') : Follows S s r' rows := by
  have hread := hstep.secondParts trivial h.partsRead
  cases hstep with
  | deliver =>
    refine ⟨Or.inr trivial, fun hidle => ?_, hread, h.partsRead⟩
    rcases h.fresh with hn | hfresh
    · exact absurd hidle (not_idle_of_notified hn)
    · exact hfresh

section ReadIn
variable {P : σ → Prop}

/-- A reader that has been told of a write will read everything again. -/
theorem readIn_of_notified (h : r.notified = true) : ReadIn S P r shown where
  reading := Or.inl h
  shown hidle := absurd hidle (not_idle_of_notified h)

theorem ReadIn.step (h : ReadIn S P r shown) (hs : P s) (hstep : Step S s r none r') : ReadIn S P r' shown where
  reading := by
    rcases h.reading with hn | hread
    · cases hstep with
      | take => exact Or.inr RowSource.secondParts_nil
      | select => exact Or.inl hn
      | readFirst _ => exact Or.inl hn
      | readSecond _ => exact Or.inl hn
      | finish => exact Or.inl hn
    · exact Or.inr (hstep.secondParts hs hread)
  shown hidle := by
    rw [hidle] at hstep
    cases hstep

theorem ReadIn.deliver (h : ReadIn S P r shown) (hstep : Step S s r (some rows) r') : ReadIn S P r' rows := by
  cases hstep with
  | deliver =>
    refine ⟨Or.inr RowSource.secondParts_nil, fun hidle => ?_⟩
    rcases h.reading with hn | hread
    · exact absurd hidle (not_idle_of_notified hn)
    · exact hread

end ReadIn
end Scan
end Coroutine
