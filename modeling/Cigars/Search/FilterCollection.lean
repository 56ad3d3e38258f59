import Cigars.Heap.Store
import Cigars.Repository.Local
import Cigars.Text.Basic
import Cigars.Transition.Run
import Mathlib.Data.List.Nodup

/-! The filter forms of the cigars list and of the online search. Their parameters are mutable
objects, shared by the list of all of them, the list of the selected ones and the controls, and
compared by key and current value. -/
namespace Cigars
open Heap Transition

/-! ### Parameters -/

/-- `toDouble` is the platform's `String.toDouble()`, `none` where it throws. -/
def FilterParameter.set (toDouble : String → Option ℚ) (v : String) (p : FilterParameter FilterValue) :
    FilterParameter FilterValue :=
  { p with value := match p.value with
      | .long _ => .long ((toLong v).getD 0)
      | .double _ => .double ((toDouble v).getD 0)
      | .boolean _ => .boolean (toBoolean v)
      | _ => .other v }

theorem FilterParameter.key_set (toDouble : String → Option ℚ) (v : String)
    (p : FilterParameter FilterValue) : (p.set toDouble v).key = p.key := rfl

/-- The parameter objects. -/
abbrev Parameters : Type := Store (FilterParameter FilterValue)

/-- `FilterParameter.equals`: the same object, or equal keys and values. -/
def Parameters.equals (ps : Parameters) (a b : Ref) : Bool :=
  a == b || ((ps.read a).key == (ps.read b).key && (ps.read a).value == (ps.read b).value)

theorem Parameters.equals_self (ps : Parameters) (a : Ref) : ps.equals a a = true := by
  simp [equals]

inductive CigarSortingFields
  | name
  | brand
  | country
  | shape
  | gauge
  | length

namespace CigarSortingFields

def value : CigarSortingFields → String
  | name => "name"
  | brand => "brand"
  | country => "country"
  | shape => "cigar"
  | gauge => "gauge"
  | length => "length"

def entries : List CigarSortingFields := [name, brand, country, shape, gauge, length]

def filterList : FiltersList := entries.map fun it =>
  match it with
  | name | brand | country | shape => ⟨it.value, .other ""⟩
  | gauge | length => ⟨it.value, .long 0⟩

end CigarSortingFields

/-! ### Controls -/

structure Brand where
  rowid : ℤ
  name : Option String
  deriving DecidableEq

/-- `CigarsSearchParameterField` and `CigarsSearchBrandField`. -/
inductive FieldKind
  | parameterField
  | brandField
  deriving DecidableEq

/-- A control, with the text and the brand its view model holds. -/
structure SearchParameterField where
  kind : FieldKind
  parameter : Ref
  value : String
  selectedBrand : Option Brand
  deriving DecidableEq

namespace CigarsBrandsSearchViewModel

/-- `value != selectedBrand?.name`. -/
def isOther (value : String) (selectedBrand : Option Brand) : Bool := some value != selectedBrand.bind Brand.name

/-- The brand that `processInput` leaves selected: a text other than its name drops it. -/
def brandAfter (value : String) (selectedBrand : Option Brand) : Option Brand :=
  if isOther value selectedBrand then none else selectedBrand

/-- The text that `onBrandSelected` puts into the field. -/
def textOf (brand : Brand) : String := brand.name.getD ""

theorem isOther_eq_false_iff {value : String} {selectedBrand : Option Brand} :
    isOther value selectedBrand = false ↔ ∃ brand, selectedBrand = some brand ∧ brand.name = some value := by
  rw [isOther, bne_eq_false_iff_eq, eq_comm, Option.bind_eq_some_iff]

end CigarsBrandsSearchViewModel

def CigarsSearchFieldViewModel.validate (key : String) (allowEmpty : Bool) (value : String) : Bool :=
  if key = CigarSortingFields.gauge.value ∨ key = CigarSortingFields.length.value then true
  else if allowEmpty then value.isEmpty || decide (3 ≤ utf16Length value)
  else !value.isEmpty && decide (3 ≤ utf16Length value)

def CigarsBrandsSearchViewModel.validate (selectedBrand : Option Brand) (allowEmpty : Bool) (value : String) :
    Bool :=
  if allowEmpty && value.isEmpty then true else selectedBrand.isSome

def SearchParameterField.validate (ps : Parameters) (allowEmpty : Bool) (it : SearchParameterField) : Bool :=
  match it.kind with
  | .parameterField => CigarsSearchFieldViewModel.validate (ps.read it.parameter).key allowEmpty it.value
  | .brandField => CigarsBrandsSearchViewModel.validate it.selectedBrand allowEmpty it.value

/-- A field that is valid and not empty is valid. -/
theorem SearchParameterField.validate_of_strict {ps : Parameters} {it : SearchParameterField}
    (h : it.validate ps false = true) : it.validate ps true = true := by
  unfold validate at h ⊢
  cases hkind : it.kind with
  | parameterField =>
    simp only [hkind, CigarsSearchFieldViewModel.validate, Bool.false_eq_true, if_false, if_true] at h ⊢
    split_ifs at h ⊢
    · rfl
    · rw [Bool.and_eq_true] at h
      rw [h.2, Bool.or_true]
  | brandField =>
    simp only [hkind, CigarsBrandsSearchViewModel.validate, Bool.false_and, Bool.false_eq_true, if_false] at h ⊢
    split_ifs
    · rfl
    · exact h

/-! ### The collection -/

/-- The two classes of forms. -/
inductive FilterForm
  | cigarFilterParameters
  | cigarSearchParameters
  deriving DecidableEq

/-- The kind of control `build` makes for a key. -/
def FilterForm.kindOf : FilterForm → String → FieldKind
  | cigarFilterParameters, _ => .parameterField
  | cigarSearchParameters, key =>
    if key = CigarSortingFields.brand.value then .brandField else .parameterField

def FilterForm.build (form : FilterForm) (ps : Parameters) (param : Ref) : SearchParameterField :=
  ⟨form.kindOf (ps.read param).key, param, "", none⟩

structure FilterCollection where
  form : FilterForm
  params : List Ref
  selectedParams : List Ref
  controls : List SearchParameterField

namespace FilterCollection

/-- The constructor: the parameters are new objects, and the name is selected. -/
def create (form : FilterForm) (ps : Parameters) : Parameters × FilterCollection :=
  let (ps, params) := ps.alloc CigarSortingFields.filterList
  let selectedParams := params.filter fun it => (ps.read it).key = CigarSortingFields.name.value
  (ps, ⟨form, params, selectedParams, selectedParams.map (form.build ps)⟩)

def validate (c : FilterCollection) (ps : Parameters) (allowEmpty : Bool) : Bool :=
  c.controls.all fun it => it.validate ps allowEmpty

theorem validate_of_strict {c : FilterCollection} {ps : Parameters} (h : c.validate ps false = true) :
    c.validate ps true = true := by
  unfold validate at h ⊢
  rw [List.all_eq_true] at h ⊢
  intro it hit
  exact SearchParameterField.validate_of_strict (h it hit)

def showLeading (c : FilterCollection) : Bool := decide (c.selectedParams.length > 1)

def availableFields (c : FilterCollection) (ps : Parameters) : List Ref :=
  c.params.filter fun it => !c.selectedParams.any fun other => ps.equals it other

def add (c : FilterCollection) (ps : Parameters) (value : Ref) : FilterCollection :=
  { c with
    controls := c.controls ++ [c.form.build ps value]
    selectedParams := c.selectedParams ++ [value] }

/-- `list - value` drops the first equal element. Controls have no `equals` of their own; the
first one with the found control's contents is the found one. -/
def remove (c : FilterCollection) (ps : Parameters) (value : Ref) : FilterCollection :=
  { c with
    selectedParams := c.selectedParams.eraseP fun it => ps.equals it value
    controls := match c.controls.find? fun it => ps.equals it.parameter value with
      | some control => c.controls.erase control
      | none => c.controls }

/-- The control found for a parameter is the first one of that parameter. -/
private theorem erase_of_find? {α : Type} [DecidableEq α] {P : α → Bool} {l : List α} {a : α}
    (h : l.find? P = some a) : l.erase a = l.eraseP P := by
  induction l with
  | nil => cases h
  | cons b l ih =>
    rw [List.find?_cons] at h
    cases hb : P b with
    | true =>
      rw [hb] at h
      cases h
      rw [List.erase_cons_head, List.eraseP_cons_of_pos hb]
    | false =>
      rw [hb] at h
      have hne : b ≠ a := by
        intro heq
        have ha := List.find?_some h
        rw [← heq, hb] at ha
        cases ha
      rw [List.erase_cons_tail (by simpa using hne), List.eraseP_cons_of_neg (by simp [hb]), ih h]

theorem controls_remove (c : FilterCollection) (ps : Parameters) (value : Ref) :
    (c.remove ps value).controls = c.controls.eraseP fun it => ps.equals it.parameter value := by
  unfold remove
  cases hfind : c.controls.find? fun it => ps.equals it.parameter value with
  | some control => exact erase_of_find? hfind
  | none => exact (List.eraseP_of_forall_not (List.find?_eq_none.mp hfind)).symm

/-! ### Coherence -/

/-- What the form shows is about the parameters it has selected. -/
structure Coherent (ps : Parameters) (c : FilterCollection) : Prop where
  keys : (c.selectedParams.map fun p => (ps.read p).key).Nodup
  fromParams : ∀ p ∈ c.selectedParams, p ∈ c.params
  controls : c.controls.map SearchParameterField.parameter = c.selectedParams
  availableFields : c.availableFields ps = c.params.filter fun p => p ∉ c.selectedParams
  showLeading : c.showLeading = true ↔ 2 ≤ c.selectedParams.length

/-- What the operations keep. Since no two parameters have the same key, two of them are equal
only if they are the same object, whatever their values. -/
structure WellFormed (ps : Parameters) (c : FilterCollection) : Prop where
  paramKeys : (c.params.map fun p => (ps.read p).key).Nodup
  nodup : c.selectedParams.Nodup
  subset : c.selectedParams ⊆ c.params
  controls : c.controls.map SearchParameterField.parameter = c.selectedParams

section WellFormed
variable {ps : Parameters} {c : FilterCollection} (h : WellFormed ps c)
include h

theorem WellFormed.equals_iff {a b : Ref} (ha : a ∈ c.params) (hb : b ∈ c.params) :
    ps.equals a b = true ↔ a = b := by
  constructor
  · intro heq
    simp only [Parameters.equals, Bool.or_eq_true, Bool.and_eq_true, beq_iff_eq] at heq
    cases heq with
    | inl hsame => exact hsame
    | inr hkey => exact List.inj_on_of_nodup_map h.paramKeys ha hb hkey.1
  · intro hsame
    rw [hsame]
    exact ps.equals_self b

theorem WellFormed.availableFields_eq :
    c.availableFields ps = c.params.filter fun p => p ∉ c.selectedParams := by
  apply List.filter_congr
  intro p hp
  have hany : (c.selectedParams.any fun other => ps.equals p other) = true ↔ p ∈ c.selectedParams := by
    rw [List.any_eq_true]
    constructor
    · intro hex
      obtain ⟨other, hother, heq⟩ := hex
      have hsame := (h.equals_iff hp (h.subset hother)).mp heq
      rw [hsame]
      exact hother
    · intro hmem
      exact ⟨p, hmem, ps.equals_self p⟩
  by_cases hmem : p ∈ c.selectedParams
  · simp [hany.mpr hmem, hmem]
  · have hnone := Bool.eq_false_iff.mpr fun ht => hmem (hany.mp ht)
    simp [hnone, hmem]

theorem WellFormed.coherent : Coherent ps c where
  keys := by
    apply List.Nodup.map_on _ h.nodup
    intro a ha b hb hkey
    exact List.inj_on_of_nodup_map h.paramKeys (h.subset ha) (h.subset hb) hkey
  fromParams := fun p hp => h.subset hp
  controls := h.controls
  availableFields := h.availableFields_eq
  showLeading := by
    unfold showLeading
    rw [decide_eq_true_iff]
    omega

theorem WellFormed.add {p : Ref} (hp : p ∈ c.availableFields ps) : WellFormed ps (c.add ps p) := by
  rw [h.availableFields_eq, List.mem_filter, decide_eq_true_iff] at hp
  obtain ⟨hparam, hnew⟩ := hp
  refine ⟨h.paramKeys, ?_, ?_, ?_⟩
  · have hdisj : ∀ q ∈ c.selectedParams, q ≠ p := fun q hq heq => hnew (heq ▸ hq)
    exact List.nodup_append.mpr ⟨h.nodup, List.nodup_singleton p, by simpa using hdisj⟩
  · exact List.append_subset.mpr ⟨h.subset, List.cons_subset.mpr ⟨hparam, List.nil_subset _⟩⟩
  · simp only [FilterCollection.add, FilterForm.build, List.map_append, h.controls, List.map_cons, List.map_nil]

theorem WellFormed.remove (value : Ref) : WellFormed ps (c.remove ps value) := by
  have hsub : (c.remove ps value).selectedParams.Sublist c.selectedParams := List.eraseP_sublist
  refine ⟨h.paramKeys, hsub.nodup h.nodup, fun p hp => h.subset (hsub.subset hp), ?_⟩
  rw [controls_remove]
  show _ = c.selectedParams.eraseP fun it => ps.equals it value
  rw [← h.controls, List.eraseP_map]
  rfl

/-- A change of value touches no key. -/
theorem WellFormed.set (toDouble : String → Option ℚ) (p : Ref) (text : String) :
    WellFormed (ps.modify p (FilterParameter.set toDouble text)) c := by
  have hkey : ∀ a, ((ps.modify p (FilterParameter.set toDouble text)).read a).key = (ps.read a).key :=
    Store.read_modify_of_keeps (FilterParameter.key_set toDouble text) ps p
  refine ⟨?_, h.nodup, h.subset, h.controls⟩
  simp only [hkey]
  exact h.paramKeys

end WellFormed

theorem keys_filterList : (CigarSortingFields.filterList.map FilterParameter.key).Nodup := by decide

theorem wellFormed_create (form : FilterForm) (ps : Parameters) :
    WellFormed (create form ps).1 (create form ps).2 := by
  have hparams : ((create form ps).2.params.map fun p => ((create form ps).1.read p).key) =
      CigarSortingFields.filterList.map FilterParameter.key := by
    have halloc := Store.contents_alloc ps CigarSortingFields.filterList
    calc _ = ((ps.alloc CigarSortingFields.filterList).1.contents
          (ps.alloc CigarSortingFields.filterList).2).map FilterParameter.key := (List.map_map).symm
      _ = _ := by rw [halloc]
  have hkeys : ((create form ps).2.params.map fun p => ((create form ps).1.read p).key).Nodup := by
    rw [hparams]
    exact keys_filterList
  have hsub : (create form ps).2.selectedParams.Sublist (create form ps).2.params := List.filter_sublist
  refine ⟨hkeys, hsub.nodup (List.Nodup.of_map _ hkeys), hsub.subset, ?_⟩
  show (((create form ps).2.selectedParams).map (form.build _)).map SearchParameterField.parameter = _
  rw [List.map_map]
  exact List.map_id _

/-! ### Runs -/

/-- The form with the objects it refers to. -/
structure State where
  objects : Parameters
  form : FilterCollection

inductive Op
  | add (p : Ref)
  | remove (p : Ref)
  | set (p : Ref) (text : String)

namespace Op

def Admitted (st : State) : Op → Prop
  | add p => p ∈ st.form.availableFields st.objects
  | remove p => p ∈ st.form.selectedParams
  | set _ _ => True

def perform (toDouble : String → Option ℚ) (st : State) : Op → State
  | add p => { st with form := st.form.add st.objects p }
  | remove p => { st with form := st.form.remove st.objects p }
  | set p text => { st with objects := st.objects.modify p (FilterParameter.set toDouble text) }

def Step (toDouble : String → Option ℚ) (st : State) (op : Op) (st' : State) : Prop :=
  op.Admitted st ∧ st' = op.perform toDouble st

theorem Step.wellFormed {toDouble : String → Option ℚ} {st st' : State} {op : Op}
    (h : WellFormed st.objects st.form) (hstep : op.Step toDouble st st') :
    WellFormed st'.objects st'.form := by
  obtain ⟨hadmitted, rfl⟩ := hstep
  cases op with
  | add p => exact h.add hadmitted
  | remove p => exact h.remove p
  | set p text => exact h.set toDouble p text

end Op

def opened (form : FilterForm) (ps : Parameters) : State := ⟨(create form ps).1, (create form ps).2⟩

/-- Whatever is added, removed and typed, the form stays coherent. -/
theorem coherent_of_run (toDouble : String → Option ℚ) (form : FilterForm) (ps : Parameters)
    {trace : List (State × Op)} {st : State} (run : Run (Op.Step toDouble) (opened form ps) trace st) :
    Coherent st.objects st.form := by
  have hwf : WellFormed st.objects st.form :=
    run.invariant (P := fun st => WellFormed st.objects st.form) (wellFormed_create form ps)
      fun _ _ _ h hstep => hstep.wellFormed h
  exact hwf.coherent

def noObjects : Parameters := ⟨0, fun _ => ⟨"", .other ""⟩⟩

/-- The form of the online search with the brand added and typed into. -/
def brandTyped : State :=
  Op.perform (fun _ => none) (Op.perform (fun _ => none) (opened .cigarSearchParameters noObjects) (.add 1))
    (.set 1 "Cohiba")

/-- The name is removed as well. -/
def brandOnly : State := Op.perform (fun _ => none) brandTyped (.remove 0)

theorem run_brandOnly :
    ∃ trace, Run (Op.Step fun _ => none) (opened .cigarSearchParameters noObjects) trace brandOnly := by
  have hadd : Op.Admitted (opened .cigarSearchParameters noObjects) (.add 1) := by
    show (1 : Ref) ∈ (opened .cigarSearchParameters noObjects).form.availableFields _
    decide
  have hset : Op.Admitted (Op.perform (fun _ => none) (opened .cigarSearchParameters noObjects) (.add 1))
      (.set 1 "Cohiba") := trivial
  have hremove : Op.Admitted brandTyped (.remove 0) := by
    show (0 : Ref) ∈ brandTyped.form.selectedParams
    decide
  exact ⟨_, ((Run.start.next ⟨hadd, rfl⟩).next ⟨hset, rfl⟩).next ⟨hremove, rfl⟩⟩

theorem coherent_brandOnly :
    brandOnly.form.selectedParams = [1] ∧ Coherent brandOnly.objects brandOnly.form := by
  obtain ⟨trace, run⟩ := run_brandOnly
  exact ⟨by decide, coherent_of_run (fun _ => none) .cigarSearchParameters noObjects run⟩

end FilterCollection
end Cigars
