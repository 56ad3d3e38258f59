import Cigars.Coroutine.Debounce
import Cigars.Mvvm.Events
import Cigars.Search.FieldTexts

/-! The search fields with the half second that lies between a text and its `processInput`. A search
may start at any moment in between: another field, the focus or the keyboard can ask for it. -/
namespace Cigars
open Coroutine Transition

/-- An `ObservableValue` with a `debounce`, and the job that observes it. -/
structure DebouncedValue (T : Type) where
  input : T
  flow : Debounce T

namespace DebouncedValue
variable {T : Type}

def create (defaultValue : T) : DebouncedValue T := ⟨defaultValue, .empty⟩

/-- The setter of `value`. -/
def set (value : T) (o : DebouncedValue T) : DebouncedValue T := ⟨value, o.flow.send value⟩

def toObservableValue (o : DebouncedValue T) : ObservableValue T := ⟨o.input, o.flow.channel⟩

theorem toObservableValue_set (value : T) (o : DebouncedValue T) :
    (o.set value).toObservableValue = o.toObservableValue.set value := rfl

/-- A step of the job, with the value its callback gets. -/
def observe (debounce : ℕ) (o : DebouncedValue T) (e : Debounce.Event) : Option (DebouncedValue T × Option T) :=
  (o.flow.step debounce e).map fun r => (⟨o.input, r.1⟩, r.2)

theorem observe_cases {debounce : ℕ} {o o' : DebouncedValue T} {e : Debounce.Event} {out : Option T}
    (h : o.observe debounce e = some (o', out)) :
    ∃ flow, o.flow.step debounce e = some (flow, out) ∧ o' = ⟨o.input, flow⟩ := by
  obtain ⟨r, hr, heq⟩ := Option.map_eq_some_iff.mp h
  cases heq
  exact ⟨r.1, hr, rfl⟩

/-- The text is on its way, or it has been processed last and `Q` holds. -/
def Current (o : DebouncedValue T) (Q : Prop) : Prop := o.flow.Current o.input Q

end DebouncedValue

/-! ### What both view models have -/

namespace CigarsSearchFieldBaseViewModel

inductive Action
  | idle
  | input
  | dropDown
  | loading
  | loaded
  | selected
  | error
  deriving DecidableEq

/-- `ObservableValue("", 500)`. -/
def debounce : ℕ := 500

end CigarsSearchFieldBaseViewModel

open CigarsSearchFieldBaseViewModel (Action debounce)

/-- `events` are the ones sent, the last one first. -/
structure CigarsSearchFieldBaseViewModel where
  valueFlow : DebouncedValue String
  parameter : FilterParameter FilterValue
  lastFocus : Bool
  isError : Bool
  loading : Bool
  annotation : Option String
  events : List Action
  state : Option Action

namespace CigarsSearchFieldBaseViewModel

def create (parameter : FilterParameter FilterValue) : CigarsSearchFieldBaseViewModel :=
  ⟨.create "", parameter, false, false, false, none, [], none⟩

def value (vm : CigarsSearchFieldBaseViewModel) : String := vm.valueFlow.input

def updateInput (value : String) (vm : CigarsSearchFieldBaseViewModel) : CigarsSearchFieldBaseViewModel :=
  { vm with valueFlow := vm.valueFlow.set value }

def sendEvent (event : Action) (vm : CigarsSearchFieldBaseViewModel) : CigarsSearchFieldBaseViewModel :=
  { vm with events := event :: vm.events }

/-- `parameter.set(text)`, and the event that asks for a search. -/
def search (toDouble : String → Option ℚ) (text : String) (vm : CigarsSearchFieldBaseViewModel) :
    CigarsSearchFieldBaseViewModel :=
  sendEvent .selected { vm with parameter := vm.parameter.set toDouble text }

end CigarsSearchFieldBaseViewModel

/-- What is stored depends on the type of the parameter's value alone, which stays. -/
theorem FilterParameter.set_of_set (toDouble : String → Option ℚ) (v w : String) (p : FilterParameter FilterValue) :
    (p.set toDouble v).set toDouble w = p.set toDouble w := by
  unfold FilterParameter.set
  cases p.value <;> rfl

/-! ### Fields of a parameter -/

namespace CigarsSearchFieldViewModel
open CigarsSearchFieldBaseViewModel

/-- `trim` is the platform's `String.trim()`. -/
structure Platform where
  toDouble : String → Option ℚ
  trim : String → String

variable (platform : Platform)

/-- The view model after `validate`. -/
def validated (allowEmpty : Bool) (vm : CigarsSearchFieldBaseViewModel) : CigarsSearchFieldBaseViewModel :=
  let valid := validate vm.parameter.key allowEmpty vm.value
  { vm with
    annotation := if valid then none else some "Please enter at least 3 characters to narrow down your search"
    isError := if valid then false else !vm.value.isEmpty }

def processInput (value : String) (vm : CigarsSearchFieldBaseViewModel) : CigarsSearchFieldBaseViewModel :=
  vm.search platform.toDouble value

def onFocusChange (focused : Bool) (vm : CigarsSearchFieldBaseViewModel) : CigarsSearchFieldBaseViewModel :=
  if vm.lastFocus = focused then vm
  else if focused then { vm with lastFocus := focused }
  else search platform.toDouble vm.value { vm with lastFocus := focused }

def onCompleted (vm : CigarsSearchFieldBaseViewModel) : CigarsSearchFieldBaseViewModel :=
  sendEvent .selected
    (validated true { vm with parameter := vm.parameter.set platform.toDouble (platform.trim vm.value) })

inductive Op
  | value (text : String)
  | onFocusChange (focused : Bool)
  | onCompleted
  | validate (allowEmpty : Bool)
  | observe (e : Debounce.Event)

/-- `none` if the job cannot take the step. -/
def Op.perform (vm : CigarsSearchFieldBaseViewModel) : Op → Option CigarsSearchFieldBaseViewModel
  | value text => some (vm.updateInput text)
  | onFocusChange focused => some (CigarsSearchFieldViewModel.onFocusChange platform focused vm)
  | onCompleted => some (CigarsSearchFieldViewModel.onCompleted platform vm)
  | validate allowEmpty => some (validated allowEmpty vm)
  | observe e => (vm.valueFlow.observe debounce e).map fun r =>
    match r.2 with
    | some text => processInput platform text { vm with valueFlow := r.1 }
    | none => { vm with valueFlow := r.1 }

def Step (vm : CigarsSearchFieldBaseViewModel) (op : Op) (vm' : CigarsSearchFieldBaseViewModel) : Prop :=
  op.perform platform vm = some vm'

/-- The job moves, and what it delivers is processed. -/
theorem step_observe {platform : Platform} {vm vm' : CigarsSearchFieldBaseViewModel} {e : Debounce.Event}
    (h : Step platform vm (.observe e) vm') :
    ∃ flow, (vm.valueFlow.flow.step debounce e = some (flow, none) ∧
        vm' = { vm with valueFlow := ⟨vm.valueFlow.input, flow⟩ }) ∨
      ∃ text, vm.valueFlow.flow.step debounce e = some (flow, some text) ∧
        vm' = processInput platform text { vm with valueFlow := ⟨vm.valueFlow.input, flow⟩ } := by
  obtain ⟨⟨o, out⟩, hobserve, heq⟩ := Option.map_eq_some_iff.mp h
  obtain ⟨flow, hflow, rfl⟩ := DebouncedValue.observe_cases hobserve
  cases out with
  | none => exact ⟨flow, .inl ⟨hflow, heq.symm⟩⟩
  | some text => exact ⟨flow, .inr ⟨text, hflow, heq.symm⟩⟩

/-- The parameter has been set from the text or from the trimmed text, or nothing has been typed. -/
def Filters (parameter : FilterParameter FilterValue) (vm : CigarsSearchFieldBaseViewModel) : Prop :=
  vm.parameter = parameter.set platform.toDouble vm.value ∨
  vm.parameter = parameter.set platform.toDouble (platform.trim vm.value) ∨
  (vm.parameter = parameter ∧ vm.value = "")

/-- What holds at any moment. -/
structure Live (parameter : FilterParameter FilterValue) (vm : CigarsSearchFieldBaseViewModel) : Prop where
  typed : ∀ text, vm.parameter.set platform.toDouble text = parameter.set platform.toDouble text
  current : vm.valueFlow.Current (Filters platform parameter vm)

variable {platform} {parameter : FilterParameter FilterValue} {vm vm' : CigarsSearchFieldBaseViewModel}

theorem live_create (parameter : FilterParameter FilterValue) :
    Live platform parameter (CigarsSearchFieldBaseViewModel.create parameter) :=
  ⟨fun _ => rfl, .inr ⟨rfl, .inr (.inr ⟨rfl, rfl⟩)⟩⟩

/-- Setting the parameter from the text shown. -/
theorem Live.set {text : String} (h : Live platform parameter vm)
    (hflow : vm'.valueFlow = vm.valueFlow) (hset : vm'.parameter = vm.parameter.set platform.toDouble text)
    (htext : text = vm.value ∨ text = platform.trim vm.value) : Live platform parameter vm' := by
  have hparameter : vm'.parameter = parameter.set platform.toDouble text := hset.trans (h.typed text)
  have hvalue : vm'.value = vm.value := congrArg DebouncedValue.input hflow
  refine ⟨fun text' => ?_, ?_⟩
  · rw [hparameter, FilterParameter.set_of_set]
  · rw [DebouncedValue.Current, hflow]
    apply h.current.imp
    intro _
    unfold Filters
    rw [hvalue, hparameter]
    rcases htext with htext | htext
    · left
      rw [htext]
    · right
      left
      rw [htext]

theorem Live.step {op : Op} (h : Live platform parameter vm) (hstep : Step platform vm op vm') :
    Live platform parameter vm' := by
  cases op with
  | value text =>
    cases hstep
    exact ⟨h.typed, Debounce.current_send _ _ _⟩
  | onFocusChange focused =>
    cases hstep
    unfold CigarsSearchFieldViewModel.onFocusChange
    split_ifs
    · exact h
    · exact ⟨h.typed, h.current⟩
    · exact h.set rfl rfl (.inl rfl)
  | onCompleted =>
    cases hstep
    exact h.set rfl rfl (.inr rfl)
  | validate allowEmpty =>
    cases hstep
    exact ⟨h.typed, h.current⟩
  | observe e =>
    obtain ⟨flow, ⟨hflow, rfl⟩ | ⟨text, hflow, rfl⟩⟩ := step_observe hstep
    · exact ⟨h.typed, h.current.silent hflow⟩
    · refine ⟨fun text' => (FilterParameter.set_of_set _ _ _ _).trans (h.typed text'), ?_⟩
      refine h.current.delivered hflow fun htext => .inl ?_
      exact (h.typed text).trans (by rw [htext]; rfl)

/-- The observing job as part of the field. -/
def flow (vm : CigarsSearchFieldBaseViewModel) : Debounce String := vm.valueFlow.flow

def Op.event : Op → Option Debounce.Event
  | observe e => some e
  | _ => none

def Op.sends : Op → Bool
  | value _ => true
  | _ => false

theorem flow_onFocusChange (platform : Platform) (focused : Bool) (vm : CigarsSearchFieldBaseViewModel) :
    flow (onFocusChange platform focused vm) = flow vm := by
  unfold onFocusChange
  split_ifs <;> rfl

theorem drives (platform : Platform) : Debounce.Drives debounce flow Op.event Op.sends (Step platform) where
  send := fun vm op vm' hstep hsends => by
    cases op with
    | value text =>
      cases hstep
      exact ⟨text, rfl⟩
    | _ => cases hsends
  other := fun vm op vm' hstep hsends => by
    cases op with
    | value text => cases hsends
    | onFocusChange focused =>
      cases hstep
      exact .inl (flow_onFocusChange platform focused vm)
    | onCompleted =>
      cases hstep
      exact .inl rfl
    | validate allowEmpty =>
      cases hstep
      exact .inl rfl
    | observe e =>
      right
      obtain ⟨d, ⟨hflow, rfl⟩ | ⟨text, hflow, rfl⟩⟩ := step_observe hstep
      · exact ⟨e, none, rfl, hflow⟩
      · exact ⟨e, some text, rfl, hflow⟩

/-- Whatever is done to a field and whenever its job runs: once its text has been delivered, it
filters by this text, as it is or trimmed. If the job is never kept waiting, the text has been
delivered half a second after it was typed. -/
theorem filters_by_text (platform : Platform) (parameter : FilterParameter FilterValue)
    {trace : List (CigarsSearchFieldBaseViewModel × Op)} {vm : CigarsSearchFieldBaseViewModel}
    (run : Run (Step platform) (CigarsSearchFieldBaseViewModel.create parameter) trace vm) :
    ((flow vm).newest = none → Filters platform parameter vm) ∧
    (Debounce.Prompt flow Op.event trace → ¬(flow vm).Ready →
      Debounce.lastSend flow Op.sends trace + 500 ≤ (flow vm).now → (flow vm).newest = none) := by
  have hlive : Live platform parameter vm :=
    run.invariant (live_create parameter) fun vm op vm' h hstep => h.step hstep
  constructor
  · intro hnone
    rcases hlive.current with hnewest | hfilters
    · rw [flow, hnewest] at hnone
      cases hnone
    · exact hfilters.2
  · intro hprompt hready htime
    exact ((drives platform).onTime rfl run hprompt).newest_eq_none hready htime

/-- A text is typed, the focus leaves the field, and half a second later the job delivers the text. -/
theorem filters_by_text_typed :
    ∃ trace vm, Run (Step ⟨fun _ => none, id⟩) (CigarsSearchFieldBaseViewModel.create ⟨"name", .other ""⟩) trace vm ∧
      (flow vm).newest = none ∧ vm.value = "Siglo" ∧ vm.parameter = ⟨"name", .other "Siglo"⟩ := by
  let waiting (k : ℕ) : CigarsSearchFieldBaseViewModel :=
    ⟨⟨"Siglo", ⟨k, .empty, none, some ("Siglo", 500)⟩⟩, ⟨"name", .other "Siglo"⟩, false, false, false, none,
      [.selected], none⟩
  obtain ⟨trace, typed, hquick, hsent⟩ : ∃ trace,
      Run (Step ⟨fun _ => none, id⟩) (CigarsSearchFieldBaseViewModel.create ⟨"name", .other ""⟩) trace (waiting 0) ∧
        Debounce.Prompt flow Op.event trace ∧ Debounce.lastSend flow Op.sends trace = 0 := by
    have run := Run.start.replay
      [Op.onFocusChange true, .value "Siglo", .observe .take, .onFocusChange false, .observe .pass]
      (rfl : replay (Op.perform ⟨fun _ => none, id⟩) [] (CigarsSearchFieldBaseViewModel.create ⟨"name", .other ""⟩) _ =
        some (_, waiting 0))
    exact ⟨_, run, Debounce.prompt_of_ne (by decide), rfl⟩
  obtain ⟨steps, waited, hsteps⟩ := typed.repeated (.observe .elapse) (fun _ => rfl) 500
  have hprompt : Debounce.Prompt flow Op.event (steps ++ trace) := hquick.waited fun t ht => by
    obtain ⟨-, k, hk, hstate⟩ := hsteps t ht
    exact ⟨k, hk, "Siglo", by rw [hstate]; rfl⟩
  have hlast : Debounce.lastSend flow Op.sends (steps ++ trace) = 0 := by
    rw [Debounce.lastSend_append fun t ht => by rw [(hsteps t ht).1]; rfl, hsent]
  have run := waited.next (show Step ⟨fun _ => none, id⟩ (waiting 500) (.observe .fire) _ from rfl)
  obtain ⟨hfilters, hdelivered⟩ := filters_by_text _ _ run
  have hnone := hdelivered (hprompt.step (by decide)) (Debounce.not_ready_of_newest rfl)
    (by rw [Debounce.lastSend, if_neg (by decide), hlast]; exact le_rfl)
  refine ⟨_, _, run, hnone, rfl, ?_⟩
  rcases hfilters hnone with htext | htrimmed | ⟨-, hempty⟩
  · exact htext
  · exact htrimmed
  · exact absurd (show "Siglo" = "" from hempty) (by decide)

end CigarsSearchFieldViewModel

/-! ### The field of the brands -/

/-- `brands` are the filters of the list that is paged, `inputSelection` a cursor position. -/
structure CigarsBrandsSearchViewModel.State extends CigarsSearchFieldBaseViewModel where
  inputSelection : Option ℕ
  brands : Option FiltersList
  selectedBrand : Option Brand
  expanded : Bool

namespace CigarsBrandsSearchViewModel
namespace State

variable (toDouble : String → Option ℚ)

def create (parameter : FilterParameter FilterValue) : State :=
  { CigarsSearchFieldBaseViewModel.create parameter with
    inputSelection := none, brands := none, selectedBrand := none, expanded := false }

def setState (value : Action) (vm : State) : State :=
  { vm with
    annotation := match value with
      | .input | .dropDown | .selected | .idle => none
      | .loading => some "Loading..."
      | .error => some "No brands match your search"
      | .loaded => some "Select brand from list"
    state := some value }

def getBrands (query : String) (vm : State) : State :=
  match vm.selectedBrand with
  | none => { vm with brands := some [⟨vm.parameter.key, .other query⟩] }
  | some _ => vm

def processInput (value : String) (vm : State) : State :=
  let vm :=
    if isOther value vm.selectedBrand then
      setState .input { vm with brands := none, selectedBrand := none, expanded := false }
    else vm
  getBrands value { vm with inputSelection := none }

/-- The view model after `validate`. -/
def validated (allowEmpty : Bool) (vm : State) : State :=
  if allowEmpty && vm.value.isEmpty then vm
  else { vm with isError := !vm.loading && decide (2 < utf16Length vm.value) }

def onFocusChange (focused : Bool) (vm : State) : State :=
  if focused then setState .input vm else vm

def onDropDown (dismiss : Bool) (vm : State) : State :=
  if dismiss then { vm with expanded := !dismiss } else setState .dropDown { vm with expanded := !dismiss }

def onBrandSelected (brand : Brand) (vm : State) : State :=
  let value := textOf brand
  { vm with
    selectedBrand := some brand
    valueFlow := vm.valueFlow.set value
    inputSelection := some (utf16Length value)
    expanded := false
    parameter := vm.parameter.set toDouble (toString brand.rowid)
    events := .selected :: vm.events }

end State

/-- `setState` is called with what the list of brands loads. -/
inductive Op
  | value (text : String)
  | onBrandSelected (brand : Brand)
  | onFocusChange (focused : Bool)
  | onDropDown (dismiss : Bool)
  | validate (allowEmpty : Bool)
  | setState (action : Action)
  | observe (e : Debounce.Event)

variable (toDouble : String → Option ℚ)

def Op.perform (vm : State) : Op → Option State
  | value text => some { vm with valueFlow := vm.valueFlow.set text }
  | onBrandSelected brand => some (State.onBrandSelected toDouble brand vm)
  | onFocusChange focused => some (State.onFocusChange focused vm)
  | onDropDown dismiss => some (State.onDropDown dismiss vm)
  | validate allowEmpty => some (State.validated allowEmpty vm)
  | setState action => some (State.setState action vm)
  | observe e => (vm.valueFlow.observe debounce e).map fun r =>
    match r.2 with
    | some text => State.processInput text { vm with valueFlow := r.1 }
    | none => { vm with valueFlow := r.1 }

def Step (vm : State) (op : Op) (vm' : State) : Prop :=
  op.perform toDouble vm = some vm'

/-- The job moves, and what it delivers is processed. -/
theorem step_observe {toDouble : String → Option ℚ} {vm vm' : State} {e : Debounce.Event}
    (h : Step toDouble vm (.observe e) vm') :
    ∃ flow, (vm.valueFlow.flow.step debounce e = some (flow, none) ∧
        vm' = { vm with valueFlow := ⟨vm.valueFlow.input, flow⟩ }) ∨
      ∃ text, vm.valueFlow.flow.step debounce e = some (flow, some text) ∧
        vm' = State.processInput text { vm with valueFlow := ⟨vm.valueFlow.input, flow⟩ } := by
  obtain ⟨⟨o, out⟩, hobserve, heq⟩ := Option.map_eq_some_iff.mp h
  obtain ⟨flow, hflow, rfl⟩ := DebouncedValue.observe_cases hobserve
  cases out with
  | none => exact ⟨flow, .inl ⟨hflow, heq.symm⟩⟩
  | some text => exact ⟨flow, .inr ⟨text, hflow, heq.symm⟩⟩

/-- The text is the name of the selected brand, or the brands listed are those it is searched by. -/
def Consistent (key : String) (vm : State) : Prop :=
  match vm.selectedBrand with
  | some brand => brand.name = some vm.value
  | none => vm.brands = some [⟨key, .other vm.value⟩] ∨ (vm.brands = none ∧ vm.value = "")

structure Live (parameter : FilterParameter FilterValue) (vm : State) : Prop where
  typed : ∀ text, vm.parameter.set toDouble text = parameter.set toDouble text
  key : vm.parameter.key = parameter.key
  chosen : ∀ brand, vm.selectedBrand = some brand →
    vm.parameter = parameter.set toDouble (toString brand.rowid)
  current : vm.valueFlow.Current (Consistent parameter.key vm)

variable {toDouble} {parameter : FilterParameter FilterValue} {vm vm' : State}

theorem live_create (parameter : FilterParameter FilterValue) : Live toDouble parameter (State.create parameter) :=
  ⟨fun _ => rfl, rfl, nofun, .inr ⟨rfl, .inr ⟨rfl, rfl⟩⟩⟩

/-- Steps that only change how the field looks. -/
structure SameSearch (vm vm' : State) : Prop where
  valueFlow : vm'.valueFlow = vm.valueFlow
  parameter : vm'.parameter = vm.parameter
  selectedBrand : vm'.selectedBrand = vm.selectedBrand
  brands : vm'.brands = vm.brands

theorem sameSearch_setState (value : Action) (vm : State) :
    SameSearch vm (State.setState value vm) := ⟨rfl, rfl, rfl, rfl⟩

theorem sameSearch_onFocusChange (focused : Bool) (vm : State) :
    SameSearch vm (State.onFocusChange focused vm) := by
  cases focused <;> exact ⟨rfl, rfl, rfl, rfl⟩

theorem sameSearch_onDropDown (dismiss : Bool) (vm : State) :
    SameSearch vm (State.onDropDown dismiss vm) := by
  cases dismiss <;> exact ⟨rfl, rfl, rfl, rfl⟩

theorem sameSearch_validated (allowEmpty : Bool) (vm : State) :
    SameSearch vm (State.validated allowEmpty vm) := by
  unfold State.validated
  split_ifs <;> exact ⟨rfl, rfl, rfl, rfl⟩

theorem Live.same (h : Live toDouble parameter vm) (hsame : SameSearch vm vm') : Live toDouble parameter vm' := by
  have hconsistent : Consistent parameter.key vm' = Consistent parameter.key vm := by
    unfold Consistent CigarsSearchFieldBaseViewModel.value
    rw [hsame.selectedBrand, hsame.brands, hsame.valueFlow]
  refine ⟨?_, ?_, ?_, ?_⟩
  · rw [hsame.parameter]
    exact h.typed
  · rw [hsame.parameter]
    exact h.key
  · rw [hsame.parameter, hsame.selectedBrand]
    exact h.chosen
  · rw [hsame.valueFlow, hconsistent]
    exact h.current

/-- What is left after the processing of a text. -/
theorem processInput_cases (text : String) (vm : State) :
    (State.processInput text vm).valueFlow = vm.valueFlow ∧ (State.processInput text vm).parameter = vm.parameter ∧
    ((∃ brand, vm.selectedBrand = some brand ∧ brand.name = some text ∧
        (State.processInput text vm).selectedBrand = some brand) ∨
      ((State.processInput text vm).selectedBrand = none ∧
        (State.processInput text vm).brands = some [⟨vm.parameter.key, .other text⟩])) := by
  unfold State.processInput
  cases hname : isOther text vm.selectedBrand with
  | true => exact ⟨rfl, rfl, .inr ⟨rfl, rfl⟩⟩
  | false =>
    obtain ⟨brand, hbrand, hbrandName⟩ := isOther_eq_false_iff.mp hname
    simp only [Bool.false_eq_true, if_false, State.getBrands]
    rw [hbrand]
    exact ⟨rfl, rfl, .inl ⟨brand, rfl, hbrandName, rfl⟩⟩

/-- A text that is delivered at once does to the selection what it does in a form. -/
theorem selectedBrand_processInput (text : String) (vm : State) :
    (State.processInput text vm).selectedBrand = brandAfter text vm.selectedBrand := by
  unfold State.processInput brandAfter
  cases hname : isOther text vm.selectedBrand with
  | true => rfl
  | false =>
    obtain ⟨brand, hbrand, -⟩ := isOther_eq_false_iff.mp hname
    simp only [Bool.false_eq_true, if_false, State.getBrands]
    rw [hbrand]

theorem Live.delivered {flow : Debounce String} {e : Debounce.Event} {text : String} (h : Live toDouble parameter vm)
    (hflow : vm.valueFlow.flow.step debounce e = some (flow, some text)) :
    Live toDouble parameter (State.processInput text { vm with valueFlow := ⟨vm.valueFlow.input, flow⟩ }) := by
  obtain ⟨hvalueFlow, hparameter, hbrands⟩ :=
    processInput_cases text { vm with valueFlow := ⟨vm.valueFlow.input, flow⟩ }
  refine ⟨?_, ?_, fun brand hbrand => ?_, ?_⟩
  · rw [hparameter]
    exact h.typed
  · rw [hparameter]
    exact h.key
  · rw [hparameter]
    rcases hbrands with ⟨brand', hbefore, -, hafter⟩ | ⟨hafter, -⟩
    · rw [hafter] at hbrand
      cases hbrand
      exact h.chosen brand hbefore
    · rw [hafter] at hbrand
      cases hbrand
  · unfold DebouncedValue.Current Consistent CigarsSearchFieldBaseViewModel.value
    rw [hvalueFlow]
    refine h.current.delivered hflow fun htext => ?_
    rcases hbrands with ⟨brand, -, hname, hafter⟩ | ⟨hafter, hquery⟩
    · rw [hafter]
      exact hname.trans (congrArg some htext)
    · rw [hafter, hquery, htext]
      left
      dsimp only
      rw [h.key]

theorem Live.step {op : Op} (h : Live toDouble parameter vm) (hstep : Step toDouble vm op vm') :
    Live toDouble parameter vm' := by
  cases op with
  | value text =>
    cases hstep
    exact ⟨h.typed, h.key, h.chosen, Debounce.current_send _ _ _⟩
  | onBrandSelected brand =>
    cases hstep
    refine ⟨fun text => ?_, h.key, fun brand' hbrand' => ?_, Debounce.current_send _ _ _⟩
    · exact (FilterParameter.set_of_set _ _ _ _).trans (h.typed text)
    · cases hbrand'
      exact h.typed _
  | onFocusChange focused =>
    cases hstep
    exact h.same (sameSearch_onFocusChange focused vm)
  | onDropDown dismiss =>
    cases hstep
    exact h.same (sameSearch_onDropDown dismiss vm)
  | validate allowEmpty =>
    cases hstep
    exact h.same (sameSearch_validated allowEmpty vm)
  | setState action =>
    cases hstep
    exact h.same (sameSearch_setState action vm)
  | observe e =>
    obtain ⟨flow, ⟨hflow, rfl⟩ | ⟨text, hflow, rfl⟩⟩ := step_observe hstep
    · exact ⟨h.typed, h.key, h.chosen, h.current.silent hflow⟩
    · exact h.delivered hflow

def flow (vm : State) : Debounce String := vm.valueFlow.flow

def Op.event : Op → Option Debounce.Event
  | observe e => some e
  | _ => none

def Op.sends : Op → Bool
  | value _ => true
  | onBrandSelected _ => true
  | _ => false

theorem drives (toDouble : String → Option ℚ) :
    Debounce.Drives debounce flow Op.event Op.sends (Step toDouble) where
  send := fun vm op vm' hstep hsends => by
    cases op with
    | value text =>
      cases hstep
      exact ⟨text, rfl⟩
    | onBrandSelected brand =>
      cases hstep
      exact ⟨textOf brand, rfl⟩
    | _ => cases hsends
  other := fun vm op vm' hstep hsends => by
    have hsame : SameSearch vm vm' → flow vm' = flow vm := fun h => congrArg DebouncedValue.flow h.valueFlow
    cases op with
    | value text => cases hsends
    | onBrandSelected brand => cases hsends
    | onFocusChange focused =>
      cases hstep
      exact .inl (hsame (sameSearch_onFocusChange focused vm))
    | onDropDown dismiss =>
      cases hstep
      exact .inl (hsame (sameSearch_onDropDown dismiss vm))
    | validate allowEmpty =>
      cases hstep
      exact .inl (hsame (sameSearch_validated allowEmpty vm))
    | setState action =>
      cases hstep
      exact .inl (hsame (sameSearch_setState action vm))
    | observe e =>
      right
      obtain ⟨d, ⟨hflow, rfl⟩ | ⟨text, hflow, rfl⟩⟩ := step_observe hstep
      · exact ⟨e, none, rfl, hflow⟩
      · refine ⟨e, some text, rfl, ?_⟩
        unfold flow
        rw [(processInput_cases text _).1]
        exact hflow

/-- Whatever is done to the field and whenever its job runs: a field that may search online has the
identifier of the selected brand as its parameter. Once the text has been delivered, it is the name
of that brand, or no brand is selected and the brands listed are searched by the text. If the job is
never kept waiting, that is so half a second after the last text or choice. -/
theorem searches_for_brand (toDouble : String → Option ℚ) (parameter : FilterParameter FilterValue)
    {trace : List (State × Op)} {vm : State}
    (run : Run (Step toDouble) (State.create parameter) trace vm) :
    (validate vm.selectedBrand false vm.value = true → ∃ brand, vm.selectedBrand = some brand ∧
      vm.parameter = parameter.set toDouble (toString brand.rowid)) ∧
    ((flow vm).newest = none → Consistent parameter.key vm) ∧
    (Debounce.Prompt flow Op.event trace → ¬(flow vm).Ready →
      Debounce.lastSend flow Op.sends trace + 500 ≤ (flow vm).now → (flow vm).newest = none) := by
  have hlive : Live toDouble parameter vm :=
    run.invariant (live_create parameter) fun vm op vm' h hstep => h.step hstep
  refine ⟨fun hvalid => ?_, fun hnone => ?_, fun hprompt hready htime => ?_⟩
  · obtain ⟨brand, hbrand⟩ := Option.isSome_iff_exists.mp hvalid
    exact ⟨brand, hbrand, hlive.chosen brand hbrand⟩
  · rcases hlive.current with hnewest | hconsistent
    · rw [flow, hnewest] at hnone
      cases hnone
    · exact hconsistent.2
  · exact ((drives toDouble).onTime rfl run hprompt).newest_eq_none hready htime

/-- A text is typed and a brand is chosen at once; half a second later the name of the brand is
delivered and keeps it. -/
theorem searches_for_brand_chosen :
    ∃ trace vm, Run (Step fun _ => none) (State.create ⟨"brand", .other ""⟩) trace vm ∧ vm.value = "Cohiba" ∧
      (flow vm).newest = none ∧ Consistent "brand" vm ∧
      ∃ brand, vm.selectedBrand = some brand ∧ vm.parameter = ⟨"brand", .other (toString brand.rowid)⟩ := by
  let waiting (k : ℕ) : State :=
    { valueFlow := ⟨"Cohiba", ⟨k, .empty, none, some ("Cohiba", 500)⟩⟩, parameter := ⟨"brand", .other "7"⟩
      lastFocus := false, isError := false, loading := false, annotation := none, events := [.selected], state := none
      inputSelection := some 6, brands := none, selectedBrand := some ⟨7, some "Cohiba"⟩, expanded := false }
  obtain ⟨trace, typed, hquick, hsent⟩ : ∃ trace,
      Run (Step fun _ => none) (State.create ⟨"brand", .other ""⟩) trace (waiting 0) ∧
        Debounce.Prompt flow Op.event trace ∧ Debounce.lastSend flow Op.sends trace = 0 := by
    have run := Run.start.replay
      [Op.value "Coh", .observe .take, .onBrandSelected ⟨7, some "Cohiba"⟩, .observe .pass, .observe .take,
        .observe .pass]
      (rfl : replay (Op.perform fun _ => none) [] (State.create ⟨"brand", .other ""⟩) _ = some (_, waiting 0))
    exact ⟨_, run, Debounce.prompt_of_ne (by decide), rfl⟩
  obtain ⟨steps, waited, hsteps⟩ := typed.repeated (.observe .elapse) (fun _ => rfl) 500
  have hprompt : Debounce.Prompt flow Op.event (steps ++ trace) := hquick.waited fun t ht => by
    obtain ⟨-, k, hk, hstate⟩ := hsteps t ht
    exact ⟨k, hk, "Cohiba", by rw [hstate]; rfl⟩
  have hlast : Debounce.lastSend flow Op.sends (steps ++ trace) = 0 := by
    rw [Debounce.lastSend_append fun t ht => by rw [(hsteps t ht).1]; rfl, hsent]
  have run := waited.next (show Step (fun _ => none) (waiting 500) (.observe .fire) _ from rfl)
  obtain ⟨hchosen, hconsistent, hdelivered⟩ := searches_for_brand _ _ run
  have hnone := hdelivered (hprompt.step (by decide)) (Debounce.not_ready_of_newest rfl)
    (by rw [Debounce.lastSend, if_neg (by decide), hlast]; exact le_rfl)
  exact ⟨_, _, run, rfl, hnone, hconsistent hnone, hchosen rfl⟩

end CigarsBrandsSearchViewModel
end Cigars
