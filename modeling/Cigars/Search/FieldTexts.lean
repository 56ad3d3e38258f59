import Cigars.Collections.Basic
import Cigars.Search.FilterCollection

/-! The texts of a filter form. A control's text lives in a view model made with the control; the
value it filters by lives in a parameter, which outlives the control. -/
namespace Cigars
open Collections Heap Transition

/-- Storing a text again changes nothing. -/
theorem FilterParameter.set_set (toDouble : String → Option ℚ) (v : String) (p : FilterParameter FilterValue) :
    (p.set toDouble v).set toDouble v = p.set toDouble v := by
  unfold FilterParameter.set
  cases p.value <;> rfl

/-- `value = text` with the `processInput` that follows. The field of the brands keeps its parameter
and looks for brands instead. -/
def SearchParameterField.input (text : String) (it : SearchParameterField) : SearchParameterField :=
  match it.kind with
  | .parameterField => { it with value := text }
  | .brandField =>
    { it with
      value := text
      selectedBrand := CigarsBrandsSearchViewModel.brandAfter text it.selectedBrand }

def SearchParameterField.processInput (toDouble : String → Option ℚ) (text : String) (it : SearchParameterField)
    (ps : Parameters) : Parameters :=
  match it.kind with
  | .parameterField => ps.modify it.parameter (FilterParameter.set toDouble text)
  | .brandField => ps

theorem SearchParameterField.parameter_input (text : String) (it : SearchParameterField) :
    (it.input text).parameter = it.parameter := by
  unfold input
  cases it.kind <;> rfl

theorem SearchParameterField.value_input (text : String) (it : SearchParameterField) :
    (it.input text).value = text := by
  unfold input
  cases it.kind <;> rfl

/-- The form with one control in place of another. -/
def FilterCollection.setControl (c : FilterCollection) (i : ℕ) (it : SearchParameterField) : FilterCollection :=
  { c with controls := c.controls.set i it }

namespace FieldTexts
open FilterCollection

inductive Op
  | addField (p : Ref)
  | removeField (p : Ref)
  | input (i : ℕ) (text : String)

/-- `none` if the form offers no such action. -/
def Op.perform (toDouble : String → Option ℚ) (st : State) : Op → Option State
  | addField p =>
    if p ∈ st.form.availableFields st.objects then some { st with form := st.form.add st.objects p } else none
  | removeField p =>
    if p ∈ st.form.selectedParams then some { st with form := st.form.remove st.objects p } else none
  | input i text => st.form.controls[i]?.map fun it =>
    ⟨it.processInput toDouble text st.objects, st.form.setControl i (it.input text)⟩

def Step (toDouble : String → Option ℚ) (st : State) (op : Op) (st' : State) : Prop :=
  op.perform toDouble st = some st'

/-- The parameter has the value that the text would give it. -/
def Agrees (toDouble : String → Option ℚ) (ps : Parameters) (p : Ref) (text : String) : Prop :=
  (ps.read p).set toDouble text = ps.read p

instance (toDouble : String → Option ℚ) (ps : Parameters) (p : Ref) (text : String) :
    Decidable (Agrees toDouble ps p text) := inferInstanceAs (Decidable (_ = _))

/-- Every field filters by the text it shows. -/
def Shown (toDouble : String → Option ℚ) (st : State) : Prop :=
  ∀ it ∈ st.form.controls, Agrees toDouble st.objects it.parameter it.value

/-- A field that is added has no value yet, and a text in the field of the brands is the value its
parameter has already. -/
def Fresh (toDouble : String → Option ℚ) (st : State) : Op → Prop
  | .addField p => Agrees toDouble st.objects p ""
  | .removeField _ => True
  | .input i text => ∀ it ∈ st.form.controls[i]?, it.kind = .brandField →
      Agrees toDouble st.objects it.parameter text

instance (toDouble : String → Option ℚ) (st : State) : (op : Op) → Decidable (Fresh toDouble st op)
  | .addField p => inferInstanceAs (Decidable (Agrees toDouble st.objects p ""))
  | .removeField _ => isTrue trivial
  | .input i text => inferInstanceAs (Decidable (∀ it ∈ st.form.controls[i]?, it.kind = .brandField →
      Agrees toDouble st.objects it.parameter text))

variable {toDouble : String → Option ℚ} {st st' : State} {op : Op}

/-! ### What a step does -/

theorem step_addField {p : Ref} (h : Step toDouble st (.addField p) st') :
    p ∈ st.form.availableFields st.objects ∧ st' = { st with form := st.form.add st.objects p } := by
  rw [Step, Op.perform] at h
  split_ifs at h with hp
  exact ⟨hp, (Option.some.inj h).symm⟩

theorem step_removeField {p : Ref} (h : Step toDouble st (.removeField p) st') :
    st' = { st with form := st.form.remove st.objects p } := by
  rw [Step, Op.perform] at h
  split_ifs at h
  exact (Option.some.inj h).symm

theorem step_input {i : ℕ} {text : String} (h : Step toDouble st (.input i text) st') :
    ∃ it, st.form.controls[i]? = some it ∧
      st' = ⟨it.processInput toDouble text st.objects, st.form.setControl i (it.input text)⟩ := by
  obtain ⟨it, hit, heq⟩ := Option.map_eq_some_iff.mp h
  exact ⟨it, hit, heq.symm⟩

theorem step_wellFormed (h : WellFormed st.objects st.form) (hstep : Step toDouble st op st') :
    WellFormed st'.objects st'.form := by
  cases op with
  | addField p =>
    obtain ⟨hp, rfl⟩ := step_addField hstep
    exact h.add hp
  | removeField p =>
    rw [step_removeField hstep]
    exact h.remove p
  | input i text =>
    obtain ⟨it, hit, rfl⟩ := step_input hstep
    have hobjects : WellFormed (it.processInput toDouble text st.objects) st.form := by
      unfold SearchParameterField.processInput
      cases it.kind with
      | parameterField => exact h.set toDouble it.parameter text
      | brandField => exact h
    refine ⟨hobjects.paramKeys, h.nodup, h.subset, ?_⟩
    exact (map_set_of_same hit (it.parameter_input text)).trans h.controls

/-! ### Texts and values -/

theorem shown_addField {p : Ref} (h : Shown toDouble st) (hstep : Step toDouble st (.addField p) st') :
    Shown toDouble st' ↔ Agrees toDouble st.objects p "" := by
  obtain ⟨-, rfl⟩ := step_addField hstep
  unfold Shown FilterCollection.add
  rw [List.forall_mem_append, List.forall_mem_singleton]
  exact and_iff_right h

theorem shown_removeField {p : Ref} (h : Shown toDouble st) (hstep : Step toDouble st (.removeField p) st') :
    Shown toDouble st' := by
  rw [step_removeField hstep]
  intro it hit
  rw [controls_remove] at hit
  exact h it (List.mem_of_mem_eraseP hit)

/-- A text in a field of its own parameter gives the parameter its value and leaves the other fields
alone. -/
theorem shown_input_parameterField {i : ℕ} {text : String} {it : SearchParameterField}
    (hwf : WellFormed st.objects st.form) (h : Shown toDouble st) (hit : st.form.controls[i]? = some it)
    (hkind : it.kind = .parameterField) :
    Shown toDouble ⟨it.processInput toDouble text st.objects, st.form.setControl i (it.input text)⟩ := by
  have hobjects : it.processInput toDouble text st.objects =
      st.objects.modify it.parameter (FilterParameter.set toDouble text) := by
    unfold SearchParameterField.processInput
    rw [hkind]
  have hread : (st.objects.modify it.parameter (FilterParameter.set toDouble text)).read it.parameter =
      (st.objects.read it.parameter).set toDouble text := if_pos rfl
  intro other hother
  unfold Agrees
  rw [hobjects]
  rcases mem_set_cases hother with heq | ⟨j, hj, hget⟩
  · rw [heq, it.parameter_input, it.value_input, hread, FilterParameter.set_set]
  · -- The controls of a form have different parameters.
    have hne : other.parameter ≠ it.parameter := by
      intro hsame
      have hnodup : (st.form.controls.map SearchParameterField.parameter).Nodup := by
        rw [hwf.controls]
        exact hwf.nodup
      have hlt : i < (st.form.controls.map SearchParameterField.parameter).length := by
        rw [List.length_map]
        exact (List.getElem?_eq_some_iff.mp hit).1
      apply hj
      rw [eq_comm, ← List.getElem?_inj hlt hnodup, List.getElem?_map, List.getElem?_map, hit, hget,
        Option.map_some, Option.map_some, hsame]
    rw [Store.read_modify_of_ne hne]
    exact h other (List.mem_of_getElem? hget)

/-- The field of the brands shows the text and keeps its parameter. -/
theorem shown_input_brandField {i : ℕ} {text : String} {it : SearchParameterField} (h : Shown toDouble st)
    (hit : st.form.controls[i]? = some it) (hkind : it.kind = .brandField) :
    Shown toDouble ⟨it.processInput toDouble text st.objects, st.form.setControl i (it.input text)⟩ ↔
      Agrees toDouble st.objects it.parameter text := by
  have hobjects : it.processInput toDouble text st.objects = st.objects := by
    unfold SearchParameterField.processInput
    rw [hkind]
  unfold Shown
  rw [hobjects]
  constructor
  · intro hshown
    have hnew := hshown (it.input text) (List.mem_set (List.getElem?_eq_some_iff.mp hit).1 _)
    rw [it.parameter_input, it.value_input] at hnew
    exact hnew
  · intro hagrees other hother
    rcases mem_set_cases hother with heq | ⟨j, -, hget⟩
    · rw [heq, it.parameter_input, it.value_input]
      exact hagrees
    · exact h other (List.mem_of_getElem? hget)

theorem shown_step (hwf : WellFormed st.objects st.form) (h : Shown toDouble st) (hstep : Step toDouble st op st') :
    Shown toDouble st' ↔ Fresh toDouble st op := by
  cases op with
  | addField p => exact shown_addField h hstep
  | removeField p => exact iff_of_true (shown_removeField h hstep) trivial
  | input i text =>
    obtain ⟨it, hit, rfl⟩ := step_input hstep
    have hfresh : Fresh toDouble st (.input i text) ↔
        (it.kind = .brandField → Agrees toDouble st.objects it.parameter text) := by
      simp only [Fresh, hit, Option.mem_def, Option.some.injEq, forall_eq']
    rw [hfresh]
    cases hkind : it.kind with
    | parameterField =>
      refine iff_of_true (shown_input_parameterField hwf h hit hkind) ?_
      intro hbrand
      cases hbrand
    | brandField =>
      rw [shown_input_brandField h hit hkind]
      exact ⟨fun hagrees _ => hagrees, fun hagrees => hagrees rfl⟩

/-- Every parameter of a form starts with the value of an empty text. -/
theorem set_filterList (toDouble : String → Option ℚ) :
    ∀ p ∈ CigarSortingFields.filterList, p.set toDouble "" = p := by
  simp [CigarSortingFields.filterList, CigarSortingFields.entries, FilterParameter.set, toLong, signedValue,
    digitsValue]

theorem shown_opened (toDouble : String → Option ℚ) (form : FilterForm) (ps : Parameters) :
    Shown toDouble (opened form ps) := by
  intro it hit
  obtain ⟨p, hp, rfl⟩ := List.mem_map.mp hit
  have hparam : p ∈ (ps.alloc CigarSortingFields.filterList).2 := (List.mem_filter.mp hp).1
  have hread : (ps.alloc CigarSortingFields.filterList).1.read p ∈ CigarSortingFields.filterList := by
    have hmem := List.mem_map_of_mem (f := (ps.alloc CigarSortingFields.filterList).1.read) hparam
    have hcontents := Store.contents_alloc ps CigarSortingFields.filterList
    unfold Store.contents at hcontents
    rwa [hcontents] at hmem
  exact set_filterList toDouble _ hread

/-- In all states of a run the fields filter by the texts they show exactly when every field that is
added has the value of an empty text at that moment, and no other text than its parameter's value is
typed into the field of the brands. -/
theorem shown_iff {form : FilterForm} {ps : Parameters} {trace : List (State × Op)}
    (run : Run (Step toDouble) (opened form ps) trace st) :
    (Shown toDouble st ∧ ∀ t ∈ trace, Shown toDouble t.1) ↔ ∀ t ∈ trace, Fresh toDouble t.1 t.2 := by
  apply run.kept_iff_of_invariant (I := fun st => WellFormed st.objects st.form) (wellFormed_create form ps)
  · intro st op st' hwf hstep
    exact step_wellFormed hwf hstep
  · exact shown_opened toDouble form ps
  · intro st op st' hwf hshown hstep
    exact shown_step hwf hshown hstep

/-- The brand is added and typed into. -/
theorem shown_brandTyped : ∃ trace st, Run (Step fun _ => none) (opened .cigarFilterParameters noObjects) trace st ∧
    trace.length = 3 ∧ Shown (fun _ => none) st := by
  have run := Run.start.replay [Op.input 0 "Siglo", .addField 1, .input 1 "Cohiba"]
    (rfl : replay (Op.perform fun _ => none) [] (opened .cigarFilterParameters noObjects) _ = some (_, _))
  exact ⟨_, _, run, rfl, ((shown_iff run).mpr (by decide)).1⟩

/-- The brand is removed and added again: it shows no text and filters by the old one. -/
theorem not_shown_brandAgain :
    ∃ trace st, Run (Step fun _ => none) (opened .cigarFilterParameters noObjects) trace st ∧
      (∃ it ∈ st.form.controls, it.value = "" ∧ st.objects.read it.parameter = ⟨"brand", .other "Cohiba"⟩) ∧
      ¬ Shown (fun _ => none) st := by
  have run := Run.start.replay [Op.addField 1, .input 1 "Cohiba", .removeField 1, .addField 1]
    (rfl : replay (Op.perform fun _ => none) [] (opened .cigarFilterParameters noObjects) _ = some (_, _))
  refine ⟨_, _, run, ⟨⟨.parameterField, 1, "", none⟩, by decide, rfl, by decide⟩, fun hshown => ?_⟩
  have hagrees := hshown ⟨.parameterField, 1, "", none⟩ (by decide)
  exact absurd hagrees (by decide)

end FieldTexts
end Cigars
