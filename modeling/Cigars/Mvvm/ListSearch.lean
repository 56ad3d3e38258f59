import Cigars.Search.FilterCollection

/-! The list view models with a search form, `CigarsScreenViewModel` and
`SearchCigarScreenViewModel`: which of their handlers ask the repository for a new list when the
search has changed. -/
namespace Cigars
open Heap Transition

/-- A flow returned by `repository.paging`: the sorting and the filter, as its values were at the call. -/
structure PagingFlow where
  sorting : Option Sorting
  filter : Option FiltersList
  deriving DecidableEq

/-- The two classes. -/
inductive ListViewModel
  | cigarsScreen
  | searchCigarScreen

namespace CigarsBrandsSearchViewModel

def onBrandSelected (brand : Brand) (it : SearchParameterField) : SearchParameterField :=
  { it with selectedBrand := some brand, value := textOf brand }

def processInput (value : String) (it : SearchParameterField) : SearchParameterField :=
  { it with selectedBrand := brandAfter value it.selectedBrand }

end CigarsBrandsSearchViewModel

/-- Change the view model behind the control of a parameter. -/
def FilterCollection.modifyControl (c : FilterCollection) (p : Ref)
    (f : SearchParameterField → SearchParameterField) : FilterCollection :=
  { c with controls := c.controls.map fun it => if it.parameter = p then f it else it }

namespace BaseListViewModel

structure State where
  objects : Parameters
  sortField : Option Sorting
  searchingFields : Option FilterCollection
  search : Bool
  items : Option PagingFlow

/-- The flow that `repository.paging(sortField, searchingFields?.selected)` returns now. -/
def State.call (st : State) : PagingFlow :=
  ⟨st.sortField, st.searchingFields.map fun fields => st.objects.contents fields.selectedParams⟩

/-! ### The handlers -/

def basePaging (reset : Bool) (st : State) : State :=
  if reset || st.items.isNone then { st with items := some st.call } else st

def paging (vm : ListViewModel) (reset : Bool) (st : State) : State :=
  match vm with
  | .cigarsScreen => basePaging reset st
  | .searchCigarScreen =>
    if st.searchingFields.any fun fields => fields.validate st.objects false then basePaging reset st else st

/-- The setter of `sorting`. -/
def setSorting (vm : ListViewModel) (value : Option Sorting) (st : State) : State :=
  paging vm true { st with sortField := value }

def updateSearch (vm : ListViewModel) (value : Bool) (st : State) : State :=
  match vm with
  | .cigarsScreen =>
    let (objects, fields) := FilterCollection.create .cigarFilterParameters st.objects
    { st with objects, searchingFields := some fields, search := value }
  | .searchCigarScreen => { st with searchingFields := none, search := value }

/-- What the two screens do on `ExecuteSearch`. -/
def executeSearch : ListViewModel → State → State
  | .cigarsScreen => paging .cigarsScreen true
  | .searchCigarScreen => paging .searchCigarScreen false

/-- `onFieldAction` of the search control, on `FieldSearch`. -/
def fieldSearch (vm : ListViewModel) (fields : FilterCollection) (st : State) : State :=
  if fields.validate st.objects true then executeSearch vm st else st

/-- The state after a text was written to a parameter and the form's controls have changed. -/
def State.write (toDouble : String → Option ℚ) (st : State) (p : Ref) (text : String)
    (fields : FilterCollection) : State :=
  { st with objects := st.objects.modify p (FilterParameter.set toDouble text), searchingFields := some fields }

/-- A text arrives in a field and `written` is written to its parameter: the text itself, or
without the blanks around it when the search key ended the input. -/
def editText (toDouble : String → Option ℚ) (vm : ListViewModel) (fields : FilterCollection) (p : Ref)
    (text written : String) (st : State) : State :=
  let fields := fields.modifyControl p fun it => { it with value := text }
  fieldSearch vm fields (st.write toDouble p written fields)

/-- A brand is chosen; its name is the field's new text, which is processed last. -/
def selectBrand (toDouble : String → Option ℚ) (vm : ListViewModel) (fields : FilterCollection) (p : Ref)
    (brand : Brand) (st : State) : State :=
  let fields := fields.modifyControl p (CigarsBrandsSearchViewModel.onBrandSelected brand)
  { fieldSearch vm fields (st.write toDouble p (toString brand.rowid) fields) with
    searchingFields := some <| fields.modifyControl p fun it =>
      CigarsBrandsSearchViewModel.processInput it.value it }

/-! ### The actions -/

inductive Action
  | editText (p : Ref) (text written : String)
  | selectBrand (p : Ref) (brand : Brand)
  | addField (p : Ref)
  | removeField (p : Ref)
  | sort (value : Option Sorting)
  | toggleSearch

/-- The search form is on the screen. -/
def State.Shows (vm : ListViewModel) (st : State) (fields : FilterCollection) : Prop :=
  st.searchingFields = some fields ∧ match vm with
    | .cigarsScreen => st.search = true
    | .searchCigarScreen => True

/-- One action, up to the end of its handlers. A text is valid for the field it is typed into. -/
inductive Step (toDouble : String → Option ℚ) (vm : ListViewModel) : State → Action → State → Prop
  | editText {st : State} {fields : FilterCollection} {it : SearchParameterField} {text written : String} :
    st.Shows vm fields → it ∈ fields.controls → it.kind = .parameterField →
    CigarsSearchFieldViewModel.validate (st.objects.read it.parameter).key true text = true →
    Step toDouble vm st (.editText it.parameter text written)
      (BaseListViewModel.editText toDouble vm fields it.parameter text written st)
  | selectBrand {st : State} {fields : FilterCollection} {it : SearchParameterField} {brand : Brand} :
    st.Shows vm fields → it ∈ fields.controls → it.kind = .brandField →
    Step toDouble vm st (.selectBrand it.parameter brand)
      (BaseListViewModel.selectBrand toDouble vm fields it.parameter brand st)
  | addField {st : State} {fields : FilterCollection} {p : Ref} :
    st.Shows vm fields → p ∈ fields.availableFields st.objects →
    Step toDouble vm st (.addField p) { st with searchingFields := some (fields.add st.objects p) }
  | removeField {st : State} {fields : FilterCollection} {p : Ref} :
    st.Shows vm fields → p ∈ fields.selectedParams →
    Step toDouble vm st (.removeField p) { st with searchingFields := some (fields.remove st.objects p) }
  | sort {st : State} {value : Option Sorting} : Step toDouble vm st (.sort value) (setSorting vm value st)
  | toggleSearch {st : State} : Step toDouble vm st .toggleSearch (updateSearch vm (!st.search) st)

/-- The constructors. -/
def created (vm : ListViewModel) (ps : Parameters) : State :=
  match vm with
  | .cigarsScreen =>
    let (objects, fields) := FilterCollection.create .cigarFilterParameters ps
    ⟨objects, some ⟨CigarSortingFields.name.value, true⟩, some fields, false, none⟩
  | .searchCigarScreen =>
    let (objects, fields) := FilterCollection.create .cigarSearchParameters ps
    ⟨objects, some ⟨CigarSortingFields.name.value, false⟩, some fields, false, none⟩

/-- When the list is first on the screen, it asks for the items. -/
def opened (vm : ListViewModel) (ps : Parameters) : State := paging vm false (created vm ps)

/-! ### Following the search -/

/-- Whether an empty field is valid: the online search does not run with one. -/
def allowEmpty : ListViewModel → Bool
  | .cigarsScreen => true
  | .searchCigarScreen => false

/-- All selected fields are valid. -/
def State.Valid (vm : ListViewModel) (st : State) : Prop :=
  (st.searchingFields.any fun fields => fields.validate st.objects (allowEmpty vm)) = true

instance (vm : ListViewModel) (st : State) : Decidable (st.Valid vm) := by
  unfold State.Valid
  infer_instance

/-- The items are those for the search as it is now. -/
def State.Follows (vm : ListViewModel) (st : State) : Prop := st.Valid vm → st.items = some st.call

/-- The list of cigars is loaded anew by a search and by sorting, not by a change of the form; a
toggle puts an empty form in the place of the old one. The online search is loaded anew by sorting
only. -/
def Covered (toDouble : String → Option ℚ) (vm : ListViewModel) (st : State) (action : Action) : Prop :=
  match vm, action with
  | .cigarsScreen, .editText _ _ _ => True
  | .cigarsScreen, .selectBrand _ _ => True
  | .cigarsScreen, .addField _ => False
  | .cigarsScreen, .removeField _ => False
  | .cigarsScreen, .sort _ => True
  | .cigarsScreen, .toggleSearch => ∀ fields, st.searchingFields = some fields →
      st.objects.contents fields.selectedParams = [⟨CigarSortingFields.name.value, .other ""⟩]
  | .searchCigarScreen, .editText p _ written =>
    st.items = none ∨ (st.objects.read p).set toDouble written = st.objects.read p
  | .searchCigarScreen, .selectBrand p brand =>
    st.items = none ∨ (st.objects.read p).set toDouble (toString brand.rowid) = st.objects.read p
  | .searchCigarScreen, .addField _ => st.items = none
  | .searchCigarScreen, .removeField p => st.items = none ∧ ∀ fields, st.searchingFields = some fields →
      (fields.remove st.objects p).validate st.objects false = false
  | .searchCigarScreen, .sort value => st.items = none ∨ value = st.sortField ∨ st.Valid .searchCigarScreen
  | .searchCigarScreen, .toggleSearch => True

/-! ### The online search -/

/-- The online search is up to date: what is there was asked for with the search as it is now,
and it is there if the search can run. -/
structure State.Current (st : State) : Prop where
  asked : st.Valid .searchCigarScreen → st.items ≠ none
  flow : st.searchingFields ≠ none → ∀ flow, st.items = some flow → flow = st.call

theorem State.Current.flow_eq {st : State} (h : st.Current) {fields : FilterCollection} {flow : PagingFlow}
    (hfields : st.searchingFields = some fields) (hitems : st.items = some flow) : flow = st.call := by
  apply h.flow _ flow hitems
  rw [hfields]
  exact Option.some_ne_none fields

theorem not_asked {st : State} {flow : PagingFlow} (hnone : st.items = none) (hitems : st.items = some flow) :
    False := by
  rw [hnone] at hitems
  cases hitems

theorem State.Current.follows {st : State} (h : st.Current) : st.Follows .searchCigarScreen := by
  intro hvalid
  cases hitems : st.items with
  | none => exact absurd hitems (h.asked hvalid)
  | some flow =>
    have hfields : st.searchingFields ≠ none := by
      intro hnone
      rw [State.Valid, hnone] at hvalid
      cases hvalid
    rw [h.flow hfields flow hitems]

theorem current_asked (st : State) : State.Current { st with items := some st.call } := by
  constructor
  · intro _ hnone
    cases hnone
  · intro _ flow hflow
    exact (Option.some.inj hflow).symm

section Paging
variable {st : State}

theorem paging_of_valid (hvalid : st.Valid .searchCigarScreen) (reset : Bool) :
    paging .searchCigarScreen reset st = basePaging reset st := if_pos hvalid

theorem paging_of_not_valid (hvalid : ¬ st.Valid .searchCigarScreen) (reset : Bool) :
    paging .searchCigarScreen reset st = st := if_neg hvalid

theorem current_paging (hflow : st.searchingFields ≠ none → ∀ flow, st.items = some flow → flow = st.call)
    (reset : Bool) : (paging .searchCigarScreen reset st).Current := by
  by_cases hvalid : st.Valid .searchCigarScreen
  · rw [paging_of_valid hvalid]
    unfold basePaging
    split_ifs with hreset
    · exact current_asked st
    · refine ⟨fun _ hnone => hreset ?_, hflow⟩
      rw [hnone]
      exact Bool.or_true _
  · rw [paging_of_not_valid hvalid]
    exact ⟨fun h => absurd h hvalid, hflow⟩

theorem current_fieldSearch {fields : FilterCollection} (hfields : st.searchingFields = some fields)
    (hflow : st.searchingFields ≠ none → ∀ flow, st.items = some flow → flow = st.call) :
    (fieldSearch .searchCigarScreen fields st).Current := by
  unfold fieldSearch
  split_ifs with hall
  · exact current_paging hflow false
  · refine ⟨fun hvalid => absurd ?_ hall, hflow⟩
    rw [State.Valid, hfields] at hvalid
    exact FilterCollection.validate_of_strict hvalid

end Paging

/-- The flow is still the one for the search after a text was written, if there was no flow or the
value is the same. -/
theorem flow_of_write {toDouble : String → Option ℚ} {st : State} (h : st.Current) {p : Ref} {text : String}
    {fields fields' : FilterCollection} (hfields : st.searchingFields = some fields)
    (hselected : fields'.selectedParams = fields.selectedParams)
    (hcovered : st.items = none ∨ (st.objects.read p).set toDouble text = st.objects.read p) :
    ∀ flow, (st.write toDouble p text fields').items = some flow →
      flow = (st.write toDouble p text fields').call := by
  intro flow hitems
  cases hcovered with
  | inl hnone => exact (not_asked hnone hitems).elim
  | inr hfixed =>
    rw [h.flow_eq hfields hitems, State.call, State.call, hfields, State.write,
      Store.modify_of_fixed hfixed, Option.map_some, Option.map_some, hselected]

/-- Dropping a brand makes no field valid. -/
theorem validate_of_processInput {ps : Parameters} {it : SearchParameterField} {value : String}
    (h : (CigarsBrandsSearchViewModel.processInput value it).validate ps false = true) :
    it.validate ps false = true := by
  unfold CigarsBrandsSearchViewModel.processInput CigarsBrandsSearchViewModel.brandAfter at h
  split_ifs at h
  · unfold SearchParameterField.validate at h ⊢
    cases hkind : it.kind with
    | parameterField =>
      simp only [hkind] at h ⊢
      exact h
    | brandField =>
      simp only [hkind] at h
      cases h
  · exact h

theorem paging_keeps (vm : ListViewModel) (reset : Bool) (st : State) :
    (paging vm reset st).searchingFields = st.searchingFields ∧ (paging vm reset st).objects = st.objects := by
  unfold paging basePaging
  cases vm with
  | cigarsScreen => dsimp only; split_ifs <;> exact ⟨rfl, rfl⟩
  | searchCigarScreen => dsimp only; split_ifs <;> exact ⟨rfl, rfl⟩

theorem fieldSearch_keeps (vm : ListViewModel) (fields : FilterCollection) (st : State) :
    (fieldSearch vm fields st).searchingFields = st.searchingFields ∧
      (fieldSearch vm fields st).objects = st.objects := by
  unfold fieldSearch executeSearch
  split_ifs
  · cases vm with
    | cigarsScreen => exact paging_keeps _ _ _
    | searchCigarScreen => exact paging_keeps _ _ _
  · exact ⟨rfl, rfl⟩

/-- Controls that are valid less often, for the same parameters. -/
theorem State.Current.of_controls {st : State} (h : st.Current) {fields fields' : FilterCollection}
    (hfields : st.searchingFields = some fields) (hselected : fields'.selectedParams = fields.selectedParams)
    (hvalid : fields'.validate st.objects false = true → fields.validate st.objects false = true) :
    State.Current { st with searchingFields := some fields' } := by
  constructor
  · intro hvalid'
    apply h.asked
    rw [State.Valid, hfields]
    exact hvalid hvalid'
  · intro _ flow hitems
    rw [h.flow_eq hfields hitems, State.call, State.call, hfields, Option.map_some, Option.map_some, hselected]

theorem validate_of_modifyControl {ps : Parameters} {fields : FilterCollection} {p : Ref}
    {f : SearchParameterField → SearchParameterField}
    (hf : ∀ it, (f it).validate ps false = true → it.validate ps false = true)
    (h : (fields.modifyControl p f).validate ps false = true) : fields.validate ps false = true := by
  simp only [FilterCollection.validate, FilterCollection.modifyControl, List.all_map, List.all_eq_true] at h ⊢
  intro it hit
  have hvalid := h it hit
  simp only [Function.comp_apply] at hvalid
  split_ifs at hvalid
  · exact hf it hvalid
  · exact hvalid

theorem current_addField {st : State} (h : st.Current) (hitems : st.items = none) {fields : FilterCollection}
    (hfields : st.searchingFields = some fields) (p : Ref) :
    State.Current { st with searchingFields := some (fields.add st.objects p) } := by
  constructor
  · intro hvalid
    apply h.asked
    rw [State.Valid, hfields]
    have hadded : (fields.add st.objects p).validate st.objects false = true := hvalid
    have hall := List.all_eq_true.mp hadded
    exact List.all_eq_true.mpr fun it hit => hall it (List.mem_append_left _ hit)
  · intro _ flow hflow
    exact (not_asked hitems hflow).elim

theorem current_setSorting {st : State} (h : st.Current) {value : Option Sorting}
    (hcovered : st.items = none ∨ value = st.sortField ∨ st.Valid .searchCigarScreen) :
    (setSorting .searchCigarScreen value st).Current := by
  unfold setSorting
  by_cases hvalid : st.Valid .searchCigarScreen
  · rw [paging_of_valid (show State.Valid _ { st with sortField := value } from hvalid)]
    exact current_asked { st with sortField := value }
  · apply current_paging
    intro hfields flow hitems
    rcases hcovered with hnone | hsame | hvalid'
    · exact (not_asked hnone hitems).elim
    · rw [hsame]
      exact h.flow hfields flow hitems
    · exact absurd hvalid' hvalid

theorem Step.current {toDouble : String → Option ℚ} {st st' : State} {action : Action} (h : st.Current)
    (hcovered : Covered toDouble .searchCigarScreen st action)
    (hstep : Step toDouble .searchCigarScreen st action st') : st'.Current := by
  cases hstep with
  | editText hshows _ _ _ =>
    exact current_fieldSearch rfl fun _ => flow_of_write h hshows.1 rfl hcovered
  | @selectBrand fields it brand hshows _ _ =>
    have hsearch : State.Current (fieldSearch .searchCigarScreen _ (st.write toDouble it.parameter
        (toString brand.rowid) (fields.modifyControl it.parameter
          (CigarsBrandsSearchViewModel.onBrandSelected brand)))) :=
      current_fieldSearch rfl fun _ => flow_of_write h hshows.1 rfl hcovered
    exact hsearch.of_controls (fieldSearch_keeps _ _ _).1 rfl
      (validate_of_modifyControl fun _ => validate_of_processInput)
  | @addField fields p hshows _ => exact current_addField h hcovered hshows.1 p
  | removeField hshows _ =>
    refine ⟨fun hvalid => ?_, fun _ flow hflow => ?_⟩
    · exact absurd ((hcovered.2 _ hshows.1).symm.trans hvalid) Bool.false_ne_true
    · exact (not_asked hcovered.1 hflow).elim
  | sort => exact current_setSorting h hcovered
  | toggleSearch =>
    refine ⟨fun hvalid => ?_, fun hfields => absurd rfl hfields⟩
    cases hvalid

/-! ### The list of cigars -/

theorem validate_empty (key : String) : CigarsSearchFieldViewModel.validate key true "" = true := by
  unfold CigarsSearchFieldViewModel.validate
  simp only [if_true]
  split_ifs <;> rfl

/-- The form of the list of cigars, with a valid text in each of its controls. -/
structure State.Ready (st : State) (fields : FilterCollection) : Prop where
  searchingFields : st.searchingFields = some fields
  form : fields.form = .cigarFilterParameters
  controls : ∀ it ∈ fields.controls, it.kind = .parameterField ∧
    CigarsSearchFieldViewModel.validate (st.objects.read it.parameter).key true it.value = true

section Ready
variable {st : State} {fields : FilterCollection} (h : st.Ready fields)
include h

theorem State.Ready.validate : fields.validate st.objects true = true := by
  apply List.all_eq_true.mpr
  intro it hit
  obtain ⟨hkind, hvalid⟩ := h.controls it hit
  rw [SearchParameterField.validate, hkind]
  exact hvalid

theorem State.Ready.follows_iff : st.Follows .cigarsScreen ↔ st.items = some st.call := by
  have hvalid : st.Valid .cigarsScreen := by
    rw [State.Valid, h.searchingFields]
    exact h.validate
  exact ⟨fun hfollows => hfollows hvalid, fun hitems _ => hitems⟩

theorem State.Ready.fieldSearch_eq : fieldSearch .cigarsScreen fields st = { st with items := some st.call } :=
  if_pos h.validate

theorem State.Ready.asked : State.Ready { st with items := some st.call } fields :=
  ⟨h.searchingFields, h.form, h.controls⟩

theorem State.Ready.write (toDouble : String → Option ℚ) {p : Ref} {text : String} (written : String)
    (htext : CigarsSearchFieldViewModel.validate (st.objects.read p).key true text = true) :
    (st.write toDouble p written (fields.modifyControl p fun it => { it with value := text })).Ready
      (fields.modifyControl p fun it => { it with value := text }) := by
  refine ⟨rfl, h.form, fun it hit => ?_⟩
  have hkey := Store.read_modify_of_keeps (FilterParameter.key_set toDouble written) st.objects p it.parameter
  rw [State.write]
  simp only [hkey]
  obtain ⟨old, hold, rfl⟩ := List.mem_map.mp hit
  obtain ⟨hkind, hvalid⟩ := h.controls old hold
  split_ifs with hp
  · exact ⟨hkind, by rw [hp]; exact htext⟩
  · exact ⟨hkind, hvalid⟩

theorem State.Ready.addField (p : Ref) :
    State.Ready { st with searchingFields := some (fields.add st.objects p) } (fields.add st.objects p) := by
  refine ⟨rfl, h.form, fun it hit => ?_⟩
  cases List.mem_append.mp hit with
  | inl hold => exact h.controls it hold
  | inr hnew =>
    rw [List.mem_singleton.mp hnew, FilterForm.build, h.form]
    exact ⟨rfl, validate_empty _⟩

theorem State.Ready.removeField (p : Ref) :
    State.Ready { st with searchingFields := some (fields.remove st.objects p) }
      (fields.remove st.objects p) := by
  refine ⟨rfl, h.form, fun it hit => ?_⟩
  rw [FilterCollection.controls_remove] at hit
  exact h.controls it (List.mem_of_mem_eraseP hit)

end Ready

theorem ready_create (ps : Parameters) (sortField : Option Sorting) (search : Bool)
    (items : Option PagingFlow) :
    State.Ready ⟨(FilterCollection.create .cigarFilterParameters ps).1, sortField,
      some (FilterCollection.create .cigarFilterParameters ps).2, search, items⟩
      (FilterCollection.create .cigarFilterParameters ps).2 := by
  refine ⟨rfl, rfl, fun it hit => ?_⟩
  obtain ⟨p, _, rfl⟩ := List.mem_map.mp hit
  exact ⟨rfl, validate_empty _⟩

theorem contents_create (form : FilterForm) (ps : Parameters) :
    (FilterCollection.create form ps).1.contents (FilterCollection.create form ps).2.selectedParams =
      [⟨CigarSortingFields.name.value, .other ""⟩] := by
  have halloc := Store.contents_alloc ps CigarSortingFields.filterList
  have hfilter : (FilterCollection.create form ps).1.contents
        (FilterCollection.create form ps).2.selectedParams =
      ((ps.alloc CigarSortingFields.filterList).1.contents (ps.alloc CigarSortingFields.filterList).2).filter
        fun p => p.key = CigarSortingFields.name.value := by
    unfold Store.contents
    rw [List.filter_map]
    rfl
  rw [hfilter, halloc]
  rfl

/-- Another number of selected parameters is another call. -/
theorem call_ne_of_length {st : State} {fields fields' : FilterCollection}
    (hfields : st.searchingFields = some fields)
    (hlength : fields'.selectedParams.length ≠ fields.selectedParams.length) :
    st.call ≠ State.call { st with searchingFields := some fields' } := by
  intro hcall
  have hfilter := congrArg PagingFlow.filter hcall
  rw [State.call, State.call, hfields] at hfilter
  have hcontents := congrArg List.length (Option.some.inj hfilter)
  rw [Store.length_contents, Store.length_contents] at hcontents
  exact hlength hcontents.symm

/-- The list of cigars after a step. -/
theorem Step.ready {toDouble : String → Option ℚ} {st st' : State} {action : Action}
    (h : ∃ fields, st.Ready fields) (hstep : Step toDouble .cigarsScreen st action st') :
    (∃ fields, st'.Ready fields) ∧ (st.Follows .cigarsScreen →
      (st'.Follows .cigarsScreen ↔ Covered toDouble .cigarsScreen st action)) := by
  obtain ⟨fields, h⟩ := h
  have hshown : ∀ {shown}, st.Shows .cigarsScreen shown → shown = fields := fun hshows =>
    Option.some.inj (hshows.1.symm.trans h.searchingFields)
  cases hstep with
  | @editText shown it text written hshows hit hkind hvalid =>
    rw [hshown hshows, BaseListViewModel.editText]
    have hwrite := h.write toDouble written hvalid
    rw [hwrite.fieldSearch_eq]
    exact ⟨⟨_, hwrite.asked⟩, fun _ => iff_of_true (hwrite.asked.follows_iff.mpr rfl) trivial⟩
  | @selectBrand shown it brand hshows hit hkind =>
    rw [hshown hshows] at hit
    exact absurd ((h.controls it hit).1.symm.trans hkind) (by decide)
  | @addField shown p hshows _ =>
    rw [hshown hshows]
    refine ⟨⟨_, h.addField p⟩, fun hfollows => iff_of_false (fun hfollows' => ?_) id⟩
    have hitems := h.follows_iff.mp hfollows
    have hitems' := (h.addField p).follows_iff.mp hfollows'
    refine call_ne_of_length h.searchingFields ?_ (Option.some.inj (hitems.symm.trans hitems'))
    show (fields.selectedParams ++ [p]).length ≠ _
    rw [List.length_append]
    exact Nat.succ_ne_self _
  | @removeField shown p hshows hp =>
    rw [hshown hshows] at hp ⊢
    refine ⟨⟨_, h.removeField p⟩, fun hfollows => iff_of_false (fun hfollows' => ?_) id⟩
    have hitems := h.follows_iff.mp hfollows
    have hitems' := (h.removeField p).follows_iff.mp hfollows'
    refine call_ne_of_length h.searchingFields ?_ (Option.some.inj (hitems.symm.trans hitems'))
    have hpos := List.length_pos_of_mem hp
    have hlength : (fields.remove st.objects p).selectedParams.length = fields.selectedParams.length - 1 :=
      List.length_eraseP_of_mem hp (st.objects.equals_self p)
    omega
  | @sort value =>
    have hready : State.Ready (setSorting .cigarsScreen value st) fields :=
      ⟨h.searchingFields, h.form, h.controls⟩
    exact ⟨⟨_, hready⟩, fun _ => iff_of_true (hready.follows_iff.mpr rfl) trivial⟩
  | toggleSearch =>
    have hready := ready_create st.objects st.sortField (!st.search) st.items
    refine ⟨⟨_, hready⟩, fun hfollows => hready.follows_iff.trans ?_⟩
    rw [h.follows_iff.mp hfollows, Option.some_inj, State.call, State.call, h.searchingFields, Option.map_some,
      Option.map_some, contents_create, PagingFlow.mk.injEq, Option.some_inj]
    constructor
    · intro hcall shown hshown
      rw [← Option.some.inj (h.searchingFields.symm.trans hshown)]
      exact hcall.2
    · intro hempty
      exact ⟨rfl, hempty fields h.searchingFields⟩

/-! ### Runs -/

theorem ready_opened (ps : Parameters) : ∃ fields, (opened .cigarsScreen ps).Ready fields :=
  ⟨_, ready_create ps _ _ _⟩

theorem current_opened (ps : Parameters) : (opened .searchCigarScreen ps).Current := by
  apply current_paging
  intro _ flow hflow
  cases hflow

/-- In a run of actions that load the list anew where they change the search, the items follow the
search; the list of cigars follows it in no other runs. -/
theorem items_follow_search (toDouble : String → Option ℚ) (vm : ListViewModel) (ps : Parameters)
    {trace : List (State × Action)} {st : State} (run : Run (Step toDouble vm) (opened vm ps) trace st) :
    ((∀ t ∈ trace, Covered toDouble vm t.1 t.2) → st.Follows vm) ∧
      (vm = .cigarsScreen → (st.Follows vm ∧ ∀ t ∈ trace, t.1.Follows vm) →
        ∀ t ∈ trace, Covered toDouble vm t.1 t.2) := by
  cases vm with
  | cigarsScreen =>
    have hstart : (opened .cigarsScreen ps).Follows .cigarsScreen := by
      obtain ⟨fields, hready⟩ := ready_opened ps
      exact hready.follows_iff.mpr rfl
    have hiff := run.kept_iff_of_invariant (I := fun st => ∃ fields, st.Ready fields)
      (P := State.Follows .cigarsScreen) (Q := Covered toDouble .cigarsScreen) (ready_opened ps)
      (fun _ _ _ h hstep => (hstep.ready h).1) hstart fun _ _ _ h hfollows hstep => (hstep.ready h).2 hfollows
    exact ⟨fun hcovered => (hiff.mpr hcovered).1, fun _ => hiff.mp⟩
  | searchCigarScreen =>
    refine ⟨fun hcovered => ?_, fun hvm => by cases hvm⟩
    have hcurrent : st.Current := run.kept (P := State.Current) (current_opened ps)
      (fun _ _ _ h hcond hstep => hstep.current h hcond) hcovered
    exact hcurrent.follows

def formShown : State := updateSearch .cigarsScreen true (opened .cigarsScreen FilterCollection.noObjects)

def cohibaSearched : State :=
  editText (fun _ => none) .cigarsScreen (FilterCollection.create .cigarFilterParameters
    (opened .cigarsScreen FilterCollection.noObjects).objects).2 6 "Cohiba" "Cohiba" formShown

theorem run_cohibaSearched : Run (Step (fun _ => none) .cigarsScreen)
    (opened .cigarsScreen FilterCollection.noObjects)
    [(formShown, .editText 6 "Cohiba" "Cohiba"),
      (opened .cigarsScreen FilterCollection.noObjects, .toggleSearch)]
    cohibaSearched := by
  have hit : (⟨.parameterField, 6, "", none⟩ : SearchParameterField) ∈
      (FilterCollection.create .cigarFilterParameters
        (opened .cigarsScreen FilterCollection.noObjects).objects).2.controls := by decide
  have hedit : Step (fun _ => none) .cigarsScreen formShown (.editText 6 "Cohiba" "Cohiba") cohibaSearched :=
    .editText ⟨rfl, rfl⟩ hit rfl (by decide)
  exact (Run.start.next .toggleSearch).next hedit

/-- The form is shown while it is empty, and a search loads the list for the name typed. -/
theorem items_follow_cohiba :
    cohibaSearched.items = some ⟨some ⟨"name", true⟩, some [⟨"name", .other "Cohiba"⟩]⟩ ∧
      cohibaSearched.Follows .cigarsScreen := by
  refine ⟨by decide, (items_follow_search (fun _ => none) .cigarsScreen FilterCollection.noObjects
    run_cohibaSearched).1 ?_⟩
  simp only [List.forall_mem_cons]
  refine ⟨trivial, fun fields hfields => ?_, fun t ht => absurd ht List.not_mem_nil⟩
  rw [← Option.some.inj hfields]
  decide

/-- The form of the online search and the state after two searches by name. -/
def onlineForm : FilterCollection :=
  (FilterCollection.create .cigarSearchParameters FilterCollection.noObjects).2

def onlineSearched : State :=
  editText (fun _ => none) .searchCigarScreen onlineForm 0 "Cohiba" "Cohiba"
    (opened .searchCigarScreen FilterCollection.noObjects)

def onlineForm₁ : FilterCollection := onlineForm.modifyControl 0 fun it => { it with value := "Cohiba" }

def onlineSearchedAgain : State :=
  editText (fun _ => none) .searchCigarScreen onlineForm₁ 0 "Montecristo" "Montecristo" onlineSearched

/-- Closing the search form of the list of cigars empties it, but the list stays filtered; and the
second search of the online catalogue leaves the results of the first. -/
theorem search_not_followed :
    (∃ trace st, Run (Step (fun _ => none) .cigarsScreen)
      (opened .cigarsScreen FilterCollection.noObjects) trace st ∧ ¬ st.Follows .cigarsScreen) ∧
    ∃ trace st, Run (Step (fun _ => none) .searchCigarScreen)
      (opened .searchCigarScreen FilterCollection.noObjects) trace st ∧ ¬ st.Follows .searchCigarScreen := by
  constructor
  · refine ⟨_, _, run_cohibaSearched.next .toggleSearch, fun hfollows => ?_⟩
    exact absurd (hfollows (by decide)) (by decide)
  · have hit : (⟨.parameterField, 0, "", none⟩ : SearchParameterField) ∈ onlineForm.controls := by decide
    have hit₁ : (⟨.parameterField, 0, "Cohiba", none⟩ : SearchParameterField) ∈ onlineForm₁.controls := by
      decide
    have hfirst : Step (fun _ => none) .searchCigarScreen (opened .searchCigarScreen FilterCollection.noObjects)
        (.editText 0 "Cohiba" "Cohiba") onlineSearched := .editText ⟨rfl, trivial⟩ hit rfl (by decide)
    have hsecond : Step (fun _ => none) .searchCigarScreen onlineSearched
        (.editText 0 "Montecristo" "Montecristo") onlineSearchedAgain :=
      .editText ⟨rfl, trivial⟩ hit₁ rfl (by decide)
    refine ⟨_, _, (Run.start.next hfirst).next hsecond, fun hfollows => ?_⟩
    exact absurd (hfollows (by decide)) (by decide)

end BaseListViewModel
end Cigars
