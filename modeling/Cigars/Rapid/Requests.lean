import Cigars.Collections.SortedBy
import Cigars.Search.FilterCollection
import Cigars.Text.Utf16

/-! The request the online search keeps. It is used again as long as the filter asks for the same;
its fields are copies, so the screens can go on changing the parameters they hold. -/
namespace Cigars
open Collections Heap Transition

/-! ### Comparing filters -/

/-- The order of `String.compareTo`. -/
def FilterParameter.sortKey (p : FilterParameter FilterValue) : List ℕ := Text.utf16 p.key

def Parameters.compareFilterParameters (ps : Parameters) (list1 list2 : List Ref) : Bool :=
  if list1.length ≠ list2.length then false
  else
    let sorted1 := sortedBy (fun it => (ps.read it).sortKey) list1
    let sorted2 := sortedBy (fun it => (ps.read it).sortKey) list2
    (sorted1.zip sorted2).all fun p => ps.equals p.1 p.2

theorem Parameters.equals_iff (ps : Parameters) (a b : Ref) : ps.equals a b = true ↔ ps.read a = ps.read b := by
  unfold equals
  rw [Bool.or_eq_true, Bool.and_eq_true, beq_iff_eq, beq_iff_eq, beq_iff_eq]
  constructor
  · rintro (heq | ⟨hkey, hvalue⟩)
    · rw [heq]
    · cases ha : ps.read a
      cases hb : ps.read b
      simp_all
  · intro h
    rw [h]
    exact Or.inr ⟨rfl, rfl⟩

/-- The comparison is one of the sorted lists. -/
theorem Parameters.compareFilterParameters_iff_sorted (ps : Parameters) (list1 list2 : List Ref) :
    ps.compareFilterParameters list1 list2 = true ↔
      sortedBy FilterParameter.sortKey (ps.contents list1) = sortedBy FilterParameter.sortKey (ps.contents list2) := by
  have hsorted (l : List Ref) : (sortedBy (fun it => (ps.read it).sortKey) l).map ps.read =
      sortedBy FilterParameter.sortKey (ps.contents l) := map_sortedBy FilterParameter.sortKey ps.read l
  have hlength (l : List Ref) : (sortedBy (fun it => (ps.read it).sortKey) l).length = l.length :=
    (perm_sortedBy _ l).length_eq
  unfold compareFilterParameters
  by_cases hne : list1.length ≠ list2.length
  · rw [if_pos hne]
    refine ⟨fun h => absurd h Bool.false_ne_true, fun heq => ?_⟩
    have hperm := (perm_of_sortedBy_eq heq).length_eq
    rw [ps.length_contents, ps.length_contents] at hperm
    exact absurd hperm hne
  · have hboth : list1.length = list2.length := by omega
    rw [if_neg hne, all_zip_iff (f := ps.read) ps.equals_iff (by rw [hlength, hlength, hboth]), hsorted, hsorted]

theorem FilterParameter.sortKey_inj {p q : FilterParameter FilterValue} : p.sortKey = q.sortKey ↔ p.key = q.key :=
  ⟨fun h => Text.utf16_injective h, fun h => congrArg Text.utf16 h⟩

/-- The comparison is up to the order of the parameters. -/
theorem Parameters.compareFilterParameters_iff {ps : Parameters} {list1 list2 : List Ref}
    (hkeys : ((ps.contents list1).map FilterParameter.key).Nodup) :
    ps.compareFilterParameters list1 list2 = true ↔ (ps.contents list2).Perm (ps.contents list1) := by
  rw [ps.compareFilterParameters_iff_sorted, List.perm_comm]
  apply sortedBy_eq_iff
  intro p hp q hq hkey
  exact List.inj_on_of_nodup_map hkeys hp hq (FilterParameter.sortKey_inj.mp hkey)

/-! ### The repository -/

/-- A request: which object it is, and the parameters it was created with. -/
structure GetCigarsRequest where
  number : ℕ
  fields : List Ref
  deriving DecidableEq

/-- The parameter objects, those the screens hold, and the repository. -/
structure RapidCigarsRepository where
  objects : Parameters
  parameters : List Ref
  created : ℕ
  request : Option GetCigarsRequest

namespace RapidCigarsRepository

def start (objects : Parameters) : RapidCigarsRepository := ⟨objects, [], 0, none⟩

/-- `request = GetCigarsRequest(filter.map { it.copy() })`. -/
def newRequest (filter : List Ref) (s : RapidCigarsRepository) : GetCigarsRequest × RapidCigarsRepository :=
  let copies := s.objects.alloc (s.objects.contents filter)
  let request : GetCigarsRequest := ⟨s.created, copies.2⟩
  (request, { s with objects := copies.1, created := s.created + 1, request := some request })

def requestFor (filter : List Ref) (s : RapidCigarsRepository) : GetCigarsRequest × RapidCigarsRepository :=
  match s.request with
  | none => s.newRequest filter
  | some request =>
    if !s.objects.compareFilterParameters filter request.fields then s.newRequest filter else (request, s)

inductive Failure
  | noSuchElement
  deriving DecidableEq

/-- The request whose pages are returned; there is none for a filter that is `null`. -/
def paging (filter : Option (List Ref)) (s : RapidCigarsRepository) :
    Except Failure (Option GetCigarsRequest × RapidCigarsRepository) :=
  match filter with
  | none => .ok (none, s)
  -- `filter.first()` throws.
  | some [] => .error .noSuchElement
  | some (first :: rest) =>
    let used := s.requestFor (first :: rest)
    .ok (some used.1, used.2)

/-- `all` and `allSync`. -/
def all (filter : Option (List Ref)) (s : RapidCigarsRepository) :
    Option GetCigarsRequest × RapidCigarsRepository :=
  match filter with
  | none => (none, s)
  | some filter =>
    let used := s.requestFor filter
    (some used.1, used.2)

/-! ### Runs -/

/-- What the screens do: create a parameter, change one they hold, and search by some of them. -/
inductive Call
  | newParameter (p : FilterParameter FilterValue)
  | set (p : Ref) (v : String)
  | paging (filter : Option (List Ref))
  | all (filter : Option (List Ref))

/-- `none` if the screens do not hold the parameters. -/
def Call.perform (toDouble : String → Option ℚ) (s : RapidCigarsRepository) : Call → Option RapidCigarsRepository
  | newParameter p =>
    let created := s.objects.alloc [p]
    some { s with objects := created.1, parameters := created.2 ++ s.parameters }
  | set p v =>
    if p ∈ s.parameters then some { s with objects := s.objects.modify p (FilterParameter.set toDouble v) }
    else none
  | paging filter =>
    if ∀ p ∈ filter.getD [], p ∈ s.parameters then
      match s.paging filter with
      | .ok result => some result.2
      | .error _ => some s
    else none
  | all filter => if ∀ p ∈ filter.getD [], p ∈ s.parameters then some (s.all filter).2 else none

def Step (toDouble : String → Option ℚ) (s : RapidCigarsRepository) (call : Call) (s' : RapidCigarsRepository) :
    Prop := call.perform toDouble s = some s'

variable {toDouble : String → Option ℚ} {s s' : RapidCigarsRepository} {call : Call}

theorem requestFor_cases (filter : List Ref) (s : RapidCigarsRepository) :
    (∃ kept, s.request = some kept ∧ s.objects.compareFilterParameters filter kept.fields = true ∧
      s.requestFor filter = (kept, s)) ∨
    ((∀ kept, s.request = some kept → ¬s.objects.compareFilterParameters filter kept.fields = true) ∧
      s.requestFor filter = s.newRequest filter) := by
  unfold requestFor
  cases hrequest : s.request with
  | none =>
    right
    refine ⟨fun kept hkept => ?_, rfl⟩
    cases hkept
  | some request =>
    cases hsame : s.objects.compareFilterParameters filter request.fields with
    | true =>
      left
      exact ⟨request, rfl, hsame, by simp only [hsame, Bool.not_true, Bool.false_eq_true, if_false]⟩
    | false =>
      right
      refine ⟨fun kept hkept => ?_, by simp only [hsame, Bool.not_false, if_true]⟩
      cases hkept
      rw [hsame]
      exact Bool.false_ne_true

/-- A step creates a parameter, changes one the screens hold, creates a request, or does nothing. -/
theorem Step.cases (h : Step toDouble s call s') :
    (∃ p, s' = { s with
      objects := (s.objects.alloc [p]).1, parameters := (s.objects.alloc [p]).2 ++ s.parameters }) ∨
    (∃ p ∈ s.parameters, ∃ v, s' = { s with objects := s.objects.modify p (FilterParameter.set toDouble v) }) ∨
    (∃ filter, s' = (s.newRequest filter).2) ∨ s' = s := by
  have hsearch (filter : List Ref) : (∃ f, (s.requestFor filter).2 = (s.newRequest f).2) ∨
      (s.requestFor filter).2 = s := by
    obtain ⟨kept, -, -, heq⟩ | ⟨-, heq⟩ := requestFor_cases filter s
    · exact Or.inr (by rw [heq])
    · exact Or.inl ⟨filter, by rw [heq]⟩
  unfold Step at h
  cases call with
  | newParameter p =>
    cases h
    exact Or.inl ⟨p, rfl⟩
  | set p v =>
    obtain ⟨hp, hs'⟩ := Option.ite_none_right_eq_some.mp h
    cases hs'
    exact Or.inr (Or.inl ⟨p, hp, v, rfl⟩)
  | paging filter =>
    obtain ⟨-, hs'⟩ := Option.ite_none_right_eq_some.mp h
    match filter with
    | none =>
      cases hs'
      exact Or.inr (Or.inr (Or.inr rfl))
    | some [] =>
      cases hs'
      exact Or.inr (Or.inr (Or.inr rfl))
    | some (first :: rest) =>
      cases hs'
      exact Or.inr (Or.inr (hsearch (first :: rest)))
  | all filter =>
    obtain ⟨-, hs'⟩ := Option.ite_none_right_eq_some.mp h
    cases filter with
    | none =>
      cases hs'
      exact Or.inr (Or.inr (Or.inr rfl))
    | some filter =>
      cases hs'
      exact Or.inr (Or.inr (hsearch filter))

/-- Objects that exist and that the screens do not hold. -/
def Private (refs : List Ref) (s : RapidCigarsRepository) : Prop :=
  ∀ p ∈ refs, p < s.objects.next ∧ p ∉ s.parameters

/-- Nothing the screens do changes them. -/
theorem Private.step {refs : List Ref} (h : Private refs s) (hstep : Step toDouble s call s') :
    Private refs s' ∧ s'.objects.contents refs = s.objects.contents refs := by
  obtain ⟨p, rfl⟩ | ⟨p, hp, v, rfl⟩ | ⟨filter, rfl⟩ | rfl := hstep.cases
  · constructor
    · intro a ha
      obtain ⟨hlt, hnot⟩ := h a ha
      refine ⟨Nat.lt_of_lt_of_le hlt (Nat.le_add_right _ _), fun hmem => ?_⟩
      rcases List.mem_append.mp hmem with hnew | hold
      · exact absurd (Store.mem_alloc.mp hnew).1 (Nat.not_le.mpr hlt)
      · exact hnot hold
    · exact List.map_congr_left fun a ha => Store.read_alloc (h a ha).1 _
  · refine ⟨h, List.map_congr_left fun a ha => ?_⟩
    have hne : a ≠ p := fun heq => (h a ha).2 (heq ▸ hp)
    exact Store.read_modify_of_ne hne _
  · constructor
    · intro a ha
      obtain ⟨hlt, hnot⟩ := h a ha
      exact ⟨Nat.lt_of_lt_of_le hlt (Nat.le_add_right _ _), hnot⟩
    · exact List.map_congr_left fun a ha => Store.read_alloc (h a ha).1 _
  · exact ⟨h, rfl⟩

theorem Private.run {refs : List Ref} {later : RapidCigarsRepository}
    {trace : List (RapidCigarsRepository × Call)} (h : Private refs s)
    (run : Run (Step toDouble) s trace later) : later.objects.contents refs = s.objects.contents refs := by
  have hinv : Private refs later ∧ later.objects.contents refs = s.objects.contents refs := by
    apply run.invariant
      (P := fun later => Private refs later ∧ later.objects.contents refs = s.objects.contents refs)
    · exact ⟨h, rfl⟩
    · intro s₁ call s₂ hs₁ hstep
      obtain ⟨hprivate, hcontents⟩ := hs₁.1.step hstep
      exact ⟨hprivate, hcontents.trans hs₁.2⟩
  exact hinv.2

/-- The screens hold objects that exist, and none of the request's fields. -/
structure Isolated (s : RapidCigarsRepository) : Prop where
  held : ∀ p ∈ s.parameters, p < s.objects.next
  fields : ∀ request, s.request = some request → Private request.fields s
  number : ∀ request, s.request = some request → request.number < s.created

theorem Isolated.private_newRequest (h : Isolated s) (filter : List Ref) :
    Private (s.newRequest filter).1.fields (s.newRequest filter).2 := by
  intro p hp
  obtain ⟨hge, hlt⟩ := Store.mem_alloc.mp hp
  refine ⟨hlt, fun hmem => ?_⟩
  exact absurd hge (Nat.not_le.mpr (h.held p hmem))

theorem Isolated.step (h : Isolated s) (hstep : Step toDouble s call s') : Isolated s' := by
  have hfields : ∀ request, s.request = some request → Private request.fields s' := fun request hrequest =>
    ((h.fields request hrequest).step hstep).1
  obtain ⟨p, rfl⟩ | ⟨p, hp, v, rfl⟩ | ⟨filter, rfl⟩ | rfl := hstep.cases
  · refine ⟨?_, hfields, h.number⟩
    intro a ha
    rcases List.mem_append.mp ha with hnew | hold
    · exact (Store.mem_alloc.mp hnew).2
    · exact Nat.lt_of_lt_of_le (h.held a hold) (Nat.le_add_right _ _)
  · exact ⟨h.held, hfields, h.number⟩
  · refine ⟨?_, ?_, ?_⟩
    · intro a ha
      exact Nat.lt_of_lt_of_le (h.held a ha) (Nat.le_add_right _ _)
    · intro request hrequest
      cases hrequest
      exact h.private_newRequest filter
    · intro request hrequest
      cases hrequest
      exact Nat.lt_succ_self s.created
  · exact h

theorem Isolated.of_run {objects : Parameters} {trace : List (RapidCigarsRepository × Call)}
    (run : Run (Step toDouble) (start objects) trace s) : Isolated s := by
  apply run.invariant
  · refine ⟨?_, ?_, ?_⟩ <;> intro a ha <;> cases ha
  · intro s call s' h hstep
    exact h.step hstep

/-- The request used has the parameters of the filter as they were at the call, now and ever after,
and it is the kept one exactly when that one had them already. -/
structure Answers (toDouble : String → Option ℚ) (s : RapidCigarsRepository) (filter : List Ref)
    (used : GetCigarsRequest) (s' : RapidCigarsRepository) : Prop where
  asked : (s'.objects.contents used.fields).Perm (s.objects.contents filter)
  kept : ∀ trace later, Run (Step toDouble) s' trace later →
    later.objects.contents used.fields = s'.objects.contents used.fields
  reused : s.request = some used ↔
    ∃ request, s.request = some request ∧ (s.objects.contents request.fields).Perm (s.objects.contents filter)

theorem Isolated.answers (h : Isolated s) {filter : List Ref}
    (hkeys : ((s.objects.contents filter).map FilterParameter.key).Nodup) :
    Answers toDouble s filter (s.requestFor filter).1 (s.requestFor filter).2 := by
  obtain ⟨request, hrequest, hsame, heq⟩ | ⟨hother, heq⟩ := requestFor_cases filter s
  · have hperm := (Parameters.compareFilterParameters_iff hkeys).mp hsame
    rw [heq]
    refine ⟨hperm, fun trace later run => (h.fields request hrequest).run run, ?_⟩
    exact ⟨fun _ => ⟨request, hrequest, hperm⟩, fun _ => hrequest⟩
  · rw [heq]
    refine ⟨?_, fun trace later run => (h.private_newRequest filter).run run, ?_⟩
    · have hcopies : (s.newRequest filter).2.objects.contents (s.newRequest filter).1.fields =
          s.objects.contents filter := Store.contents_alloc s.objects (s.objects.contents filter)
      rw [hcopies]
    · constructor
      · intro hrequest
        exact absurd (h.number _ hrequest) (Nat.lt_irrefl s.created)
      · rintro ⟨request, hrequest, hperm⟩
        exact absurd ((Parameters.compareFilterParameters_iff hkeys).mpr hperm) (hother request hrequest)

/-- The online search never answers for another query. -/
theorem paging_answers {objects : Parameters} {trace : List (RapidCigarsRepository × Call)}
    (run : Run (Step toDouble) (start objects) trace s) {filter : List Ref} (hfilter : filter ≠ [])
    (hkeys : ((s.objects.contents filter).map FilterParameter.key).Nodup) :
    ∃ used s', s.paging (some filter) = .ok (some used, s') ∧ Answers toDouble s filter used s' := by
  refine ⟨(s.requestFor filter).1, (s.requestFor filter).2, ?_, (Isolated.of_run run).answers hkeys⟩
  cases filter with
  | nil => exact absurd rfl hfilter
  | cons first rest => rfl

/-- A filter by name and country; the name is changed after the first search, and the second one
gets a request of its own. -/
theorem paging_answers_renamed :
    ∃ trace s, Run (Step fun _ => none) (start ⟨0, fun _ => ⟨"", .other ""⟩⟩) trace s ∧ s.created = 1 ∧
      ∃ used s', s.paging (some [1, 0]) = .ok (some used, s') ∧ Answers (fun _ => none) s [1, 0] used s' := by
  have run := Run.start.replay
    [Call.newParameter ⟨"name", .other "Cohiba"⟩, .newParameter ⟨"country", .other "Cuba"⟩,
      .paging (some [0, 1]), .set 0 "Montecristo"]
    (rfl : replay (Call.perform fun _ => none) [] (start ⟨0, fun _ => ⟨"", .other ""⟩⟩) _ = some (_, _))
  exact ⟨_, _, run, rfl, paging_answers run (by decide) (by decide)⟩

end RapidCigarsRepository
end Cigars
