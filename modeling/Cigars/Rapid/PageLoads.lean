import Cigars.Rapid.Models
import Cigars.Search.FilterCollection

/-! Page loads of one search request. A load writes the request's page when it starts and when its
response comes, and reads it again after the brand of the last cigar was looked up; any other load
of the same request can run while it waits. -/
namespace Cigars
open Transition

structure GetCigarsResponse where
  cigars : List RapidCigar
  page : Int32
  count : Int32

structure RapidCigarBrand where
  brandId : ℤ
  name : Option String
  deriving DecidableEq

def RapidCigarBrand.toBrand (it : RapidCigarBrand) : Brand := ⟨it.brandId, it.name⟩

structure GetCigarsBrandResponse where
  brand : RapidCigarBrand

/-- The request for the brand of an id, which is the last part of its address. -/
structure GetCigarsBrand where
  brand : ℤ
  deriving DecidableEq

/-- What a request to the catalogue ends with: an exception, or a status and the decoded body. -/
inductive Reply (α : Type)
  | failed (message : String)
  | received (status : Int32) (body : α)

inductive LoadResult
  | page (data : List Cigar) (prevKey nextKey : Option Int32)
  | error (message : String)

/-- What a load waits for; `request` is the one that was sent for the brand of `rapid`. -/
inductive Phase
  | response
  | brand (request : GetCigarsBrand) (rapid : RapidCigar) (rest : List RapidCigar) (list : List Cigar)
  | ended (result : LoadResult)

/-- `requested` is the page in the address of its HTTP request. -/
structure Load where
  key : Option Int32
  requested : Int32
  phase : Phase

/-- The fields of a `GetCigarsRequest` and the loads called on it. -/
structure PageLoads where
  page : Int32
  totalItems : Int32
  receivedItems : Int32
  loads : List Load

namespace PageLoads

def start : PageLoads := ⟨0, 0, 0, []⟩

/-- `prevKey` and `nextKey` of a page. -/
def prevKey (page : Int32) : Option Int32 := if page = 1 then none else some (page - 1)

def nextKey (page : Int32) (list : List Cigar) : Option Int32 := if list.isEmpty then none else some (page + 1)

/-- Ask for the next cigar's brand, or return the page. -/
def proceed (page : Int32) (list : List Cigar) : List RapidCigar → Phase
  | [] => .ended (.page list (prevKey page) (nextKey page list))
  | rapid :: rest => .brand ⟨rapid.brandId⟩ rapid rest list

def gotResponse (status : Int32) : String := "Got response " ++ toString status.toInt

inductive Op
  | load (key : Option Int32)
  | response (i : ℕ) (reply : Reply GetCigarsResponse)
  | brand (i : ℕ) (reply : Reply GetCigarsBrandResponse)

def setPhase (s : PageLoads) (i : ℕ) (load : Load) (phase : Phase) : PageLoads :=
  { s with loads := s.loads.set i { load with phase } }

/-- The fields after `process`. -/
def received (s : PageLoads) (response : GetCigarsResponse) : PageLoads :=
  { s with
    totalItems := response.count
    receivedItems := s.receivedItems + Int32.ofNat response.cigars.length
    page := response.page }

/-- The response is processed, and what follows is done without waiting. -/
def onResponse (s : PageLoads) (i : ℕ) (load : Load) : Reply GetCigarsResponse → PageLoads
  | .failed message => s.setPhase i load (.ended (.error message))
  | .received status response =>
    if status = 200 then (s.received response).setPhase i load (proceed response.page [] response.cigars)
    else s.setPhase i load (.ended (.error (gotResponse status)))

def onBrand (s : PageLoads) (i : ℕ) (load : Load) (rapid : RapidCigar) (rest : List RapidCigar)
    (list : List Cigar) : Reply GetCigarsBrandResponse → PageLoads
  | .failed message => s.setPhase i load (.ended (.error message))
  | .received status response =>
    if status = 200 then
      s.setPhase i load (proceed s.page (list ++ [{ rapid.toCigar with brand := response.brand.toBrand.name }]) rest)
    else s.setPhase i load (.ended (.error (gotResponse status)))

/-- `none` if the load does not wait for this. -/
def Op.perform (s : PageLoads) : Op → Option PageLoads
  | load key =>
    let page := key.getD 1
    some { s with page, loads := s.loads ++ [⟨key, page, .response⟩] }
  | response i reply => s.loads[i]?.bind fun load =>
    match load.phase with
    | .response => some (s.onResponse i load reply)
    | _ => none
  | brand i reply => s.loads[i]?.bind fun load =>
    match load.phase with
    | .brand _ rapid rest list => some (s.onBrand i load rapid rest list reply)
    | _ => none

/-- The server echoes the requested page number. -/
def Echoes (s : PageLoads) : Op → Prop
  | .response i (.received status response) =>
    status = 200 → ∀ load ∈ s.loads[i]?, response.page = load.requested
  | _ => True

instance (s : PageLoads) : (op : Op) → Decidable (Echoes s op)
  | .load _ => isTrue trivial
  | .response i (.received status response) =>
    inferInstanceAs (Decidable (status = 200 → ∀ load ∈ s.loads[i]?, response.page = load.requested))
  | .response _ (.failed _) => isTrue trivial
  | .brand _ _ => isTrue trivial

def Step (s : PageLoads) (op : Op) (s' : PageLoads) : Prop := op.perform s = some s' ∧ Echoes s op

end PageLoads

/-! ### Own keys -/

namespace Load

def ownKey (l : Load) : Int32 := l.key.getD 1

def Waits (l : Load) : Bool :=
  match l.phase with
  | .brand _ _ _ _ => true
  | _ => false

/-- The keys of a returned page are those of the load's own page. -/
def OwnKeys (l : Load) : Prop := ∀ data prev next, l.phase = .ended (.page data prev next) →
  prev = (if l.ownKey = 1 then none else some (l.ownKey - 1)) ∧
    next = if data = [] then none else some (l.ownKey + 1)

/-- Also the page the load is still to return has its own keys, if the request's page is `page`. -/
def Safe (page : Int32) (l : Load) : Prop := l.OwnKeys ∧ (l.Waits = true → l.ownKey = page)

variable {page : Int32} {l : Load}

theorem safe_of_response (h : l.phase = .response) : l.Safe page := by
  constructor
  · intro data prev next heq
    rw [h] at heq
    cases heq
  · intro hwaits
    unfold Waits at hwaits
    rw [h] at hwaits
    cases hwaits

theorem safe_of_error {message : String} : Safe page { l with phase := .ended (.error message) } := by
  constructor
  · intro data prev next heq
    cases heq
  · intro hwaits
    cases hwaits

theorem safe_proceed (h : l.ownKey = page) (list : List Cigar) (rapids : List RapidCigar) :
    Safe page { l with phase := PageLoads.proceed page list rapids } := by
  cases rapids with
  | nil =>
    constructor
    · intro data prev next heq
      cases heq
      have hown : ownKey { l with phase := PageLoads.proceed page list [] } = page := h
      rw [hown]
      unfold PageLoads.prevKey PageLoads.nextKey
      cases list with
      | nil => exact ⟨rfl, rfl⟩
      | cons cigar list => exact ⟨rfl, rfl⟩
    · intro hwaits
      cases hwaits
  | cons rapid rest =>
    constructor
    · intro data prev next heq
      cases heq
    · intro _
      exact h

/-- Another page of the request concerns only the loads that wait for brands. -/
theorem Safe.change (h : l.Safe page) (page' : Int32) : l.Safe page' ↔ (l.Waits = true → l.ownKey = page') := by
  constructor
  · intro h'
    exact h'.2
  · intro hwaits
    exact ⟨h.1, hwaits⟩

end Load

namespace PageLoads

variable {s s' : PageLoads} {op : Op}

def AllSafe (s : PageLoads) : Prop := ∀ l ∈ s.loads, l.Safe s.page

theorem forall_setPhase {P : Load → Prop} {i : ℕ} {load : Load} (hi : s.loads[i]? = some load) (hload : P load)
    (phase : Phase) :
    (∀ l ∈ (s.setPhase i load phase).loads, P l) ↔ P { load with phase } ∧ ∀ l ∈ s.loads, P l := by
  have hlt : i < s.loads.length := (List.getElem?_eq_some_iff.mp hi).1
  unfold setPhase
  constructor
  · intro h
    refine ⟨h _ (List.mem_set hlt _), fun l hl => ?_⟩
    obtain ⟨j, hj⟩ := List.mem_iff_getElem?.mp hl
    by_cases hij : i = j
    · rw [← hij, hi] at hj
      cases hj
      exact hload
    · apply h l
      apply List.mem_of_getElem?
      rw [List.getElem?_set_ne hij, hj]
  · rintro ⟨hnew, hold⟩ l hl
    rcases List.mem_or_eq_of_mem_set hl with hmem | heq
    · exact hold l hmem
    · rw [heq]
      exact hnew

/-- No load of another page starts or gets its response while a load waits for brands. -/
def Apart (s : PageLoads) : Op → Prop
  | .load key => ∀ l ∈ s.loads, l.Waits = true → l.ownKey = key.getD 1
  | .response i (.received status _) => status = 200 →
    ∀ load ∈ s.loads[i]?, ∀ l ∈ s.loads, l.Waits = true → l.ownKey = load.ownKey
  | _ => True

instance (s : PageLoads) : (op : Op) → Decidable (Apart s op)
  | .load key => inferInstanceAs (Decidable (∀ l ∈ s.loads, l.Waits = true → l.ownKey = key.getD 1))
  | .response i (.received status _) => inferInstanceAs (Decidable
    (status = 200 → ∀ load ∈ s.loads[i]?, ∀ l ∈ s.loads, l.Waits = true → l.ownKey = load.ownKey))
  | .response _ (.failed _) => isTrue trivial
  | .brand _ _ => isTrue trivial

/-! ### Steps -/

theorem perform_load {key : Option Int32} (h : (Op.load key).perform s = some s') :
    s'.page = key.getD 1 ∧ s'.loads = s.loads ++ [⟨key, key.getD 1, .response⟩] := by
  cases h
  exact ⟨rfl, rfl⟩

theorem perform_response {i : ℕ} {reply : Reply GetCigarsResponse}
    (h : (Op.response i reply).perform s = some s') :
    ∃ load, s.loads[i]? = some load ∧ load.phase = .response ∧ s' = s.onResponse i load reply := by
  obtain ⟨load, hi, hload⟩ := Option.bind_eq_some_iff.mp h
  cases hphase : load.phase with
  | response =>
    simp only [hphase, Option.some.injEq] at hload
    exact ⟨load, hi, hphase, hload.symm⟩
  | brand request rapid rest list => simp only [hphase, reduceCtorEq] at hload
  | ended result => simp only [hphase, reduceCtorEq] at hload

theorem perform_brand {i : ℕ} {reply : Reply GetCigarsBrandResponse} (h : (Op.brand i reply).perform s = some s') :
    ∃ load request rapid rest list, s.loads[i]? = some load ∧ load.phase = .brand request rapid rest list ∧
      s' = s.onBrand i load rapid rest list reply := by
  obtain ⟨load, hi, hload⟩ := Option.bind_eq_some_iff.mp h
  cases hphase : load.phase with
  | brand request rapid rest list =>
    simp only [hphase, Option.some.injEq] at hload
    exact ⟨load, request, rapid, rest, list, hi, hphase, hload.symm⟩
  | response => simp only [hphase, reduceCtorEq] at hload
  | ended result => simp only [hphase, reduceCtorEq] at hload

/-- The page asked for is the load's own. -/
def Requested (s : PageLoads) : Prop := ∀ l ∈ s.loads, l.requested = l.ownKey

theorem Requested.setPhase {i : ℕ} {load : Load} (h : Requested s) (hi : s.loads[i]? = some load) (phase : Phase) :
    Requested (s.setPhase i load phase) := by
  have hload := h load (List.mem_of_getElem? hi)
  exact (forall_setPhase hi hload phase).mpr ⟨hload, h⟩

theorem Requested.step (h : Requested s) (hstep : Step s op s') : Requested s' := by
  cases op with
  | load key =>
    obtain ⟨-, hloads⟩ := perform_load hstep.1
    intro l hl
    rw [hloads] at hl
    rcases List.mem_append.mp hl with hold | hnew
    · exact h l hold
    · rw [List.mem_singleton.mp hnew]
      rfl
  | response i reply =>
    obtain ⟨load, hi, -, rfl⟩ := perform_response hstep.1
    unfold onResponse
    split
    · exact h.setPhase hi _
    · split_ifs
      · exact Requested.setPhase (s := s.received _) h hi _
      · exact h.setPhase hi _
  | brand i reply =>
    obtain ⟨load, request, rapid, rest, list, hi, -, rfl⟩ := perform_brand hstep.1
    unfold onBrand
    split
    · exact h.setPhase hi _
    · split_ifs
      · exact h.setPhase hi _
      · exact h.setPhase hi _

/-- The end of a brand lookup never mixes keys up. -/
theorem AllSafe.brand {i : ℕ} {reply : Reply GetCigarsBrandResponse} (h : AllSafe s)
    (hstep : (Op.brand i reply).perform s = some s') : AllSafe s' := by
  obtain ⟨load, request, rapid, rest, list, hi, hphase, rfl⟩ := perform_brand hstep
  have hload := h load (List.mem_of_getElem? hi)
  have hset : ∀ phase, Load.Safe s.page { load with phase } → AllSafe (s.setPhase i load phase) :=
    fun phase hnew => (forall_setPhase hi hload phase).mpr ⟨hnew, h⟩
  have hown : load.ownKey = s.page := hload.2 (by unfold Load.Waits; rw [hphase])
  unfold onBrand
  split
  · exact hset _ Load.safe_of_error
  · split_ifs
    · exact hset _ (Load.safe_proceed hown _ rest)
    · exact hset _ Load.safe_of_error

theorem AllSafe.load {key : Option Int32} (h : AllSafe s) (hstep : (Op.load key).perform s = some s') :
    AllSafe s' ↔ Apart s (.load key) := by
  obtain ⟨hpage, hloads⟩ := perform_load hstep
  unfold AllSafe
  rw [hpage, hloads, List.forall_mem_append]
  have hnew : ∀ l ∈ [(⟨key, key.getD 1, .response⟩ : Load)], l.Safe (key.getD 1) := by
    intro l hl
    rw [List.mem_singleton.mp hl]
    exact Load.safe_of_response rfl
  rw [and_iff_left hnew]
  exact forall₂_congr fun l hl => (h l hl).change (key.getD 1)

theorem AllSafe.response {i : ℕ} {reply : Reply GetCigarsResponse} (h : AllSafe s) (hrequested : Requested s)
    (hstep : Step s (.response i reply) s') : AllSafe s' ↔ Apart s (.response i reply) := by
  obtain ⟨load, hi, hphase, rfl⟩ := perform_response hstep.1
  have hload : ∀ page, load.Safe page := fun page => Load.safe_of_response hphase
  have herror (message : String) : AllSafe (s.setPhase i load (.ended (.error message))) :=
    (forall_setPhase hi (hload s.page) _).mpr ⟨Load.safe_of_error, h⟩
  cases reply with
  | failed message => exact iff_of_true (herror message) trivial
  | received status response =>
    unfold onResponse Apart
    by_cases hstatus : status = 200
    · have hpage : response.page = load.ownKey :=
        (hstep.2 hstatus load hi).trans (hrequested load (List.mem_of_getElem? hi))
      have hnew := Load.safe_proceed hpage.symm [] response.cigars
      have hset : AllSafe ((s.received response).setPhase i load (proceed response.page [] response.cigars)) ↔
          _ ∧ ∀ l ∈ s.loads, l.Safe response.page :=
        forall_setPhase (s := s.received response) hi (hload response.page) _
      simp only [hstatus, if_true, forall_const]
      rw [hset, and_iff_right hnew, hpage]
      constructor
      · intro hsafe load' hi' l hl
        rw [Option.mem_def, hi] at hi'
        cases hi'
        exact (hsafe l hl).2
      · intro hapart l hl
        exact ((h l hl).change load.ownKey).mpr (hapart load hi l hl)
    · simp only [hstatus, if_false, false_implies, iff_true]
      exact herror (gotResponse status)

theorem allSafe_step (hrequested : Requested s) (h : AllSafe s) (hstep : Step s op s') :
    AllSafe s' ↔ Apart s op := by
  cases op with
  | load key => exact h.load hstep.1
  | response i reply => exact h.response hrequested hstep
  | brand i reply => exact iff_of_true (h.brand hstep.1) trivial

/-! ### Runs -/

/-- A step in which a brand lookup ends. -/
def BrandStep (s : PageLoads) (op : Op) (s' : PageLoads) : Prop := Step s op s' ∧ ∃ i reply, op = .brand i reply

/-- Every page returned has its own keys, and so has every page that is returned if from now on
only brand lookups end. -/
def Unmixed (s : PageLoads) : Prop := ∀ trace later, Run BrandStep s trace later → ∀ l ∈ later.loads, l.OwnKeys

theorem brandStep_found {request : GetCigarsBrand} {rapid : RapidCigar} {rest : List RapidCigar} {list : List Cigar}
    {i : ℕ} {load : Load} (hi : s.loads[i]? = some load) (hphase : load.phase = .brand request rapid rest list)
    (brand : RapidCigarBrand) :
    BrandStep s (.brand i (.received 200 ⟨brand⟩))
      (s.setPhase i load (proceed s.page (list ++ [{ rapid.toCigar with brand := brand.name }]) rest)) := by
  refine ⟨⟨?_, trivial⟩, i, _, rfl⟩
  rw [Op.perform, hi, Option.bind_some, hphase]
  rfl

theorem getElem?_setPhase {i : ℕ} {load : Load} (hi : s.loads[i]? = some load) (phase : Phase) :
    (s.setPhase i load phase).loads[i]? = some { load with phase } :=
  List.getElem?_set_self (List.getElem?_eq_some_iff.mp hi).1

/-- When all its brands are found, a load that waits for them returns a page with the keys of the
request's page. -/
theorem exists_run_ended {request : GetCigarsBrand} {rapid : RapidCigar} {rest : List RapidCigar}
    {list : List Cigar} {i : ℕ} {load : Load} (hi : s.loads[i]? = some load)
    (hphase : load.phase = .brand request rapid rest list) :
    ∃ trace later data, Run BrandStep s trace later ∧ data ≠ [] ∧ later.loads[i]? = some { load with
      phase := .ended (.page data (prevKey s.page) (nextKey s.page data)) } := by
  induction rest generalizing s load request rapid list with
  | nil =>
    have hfound := getElem?_setPhase hi (proceed s.page (list ++ [{ rapid.toCigar with brand := none }]) [])
    refine ⟨_, _, _, Run.start.next (brandStep_found hi hphase ⟨0, none⟩), ?_, hfound⟩
    simp
  | cons rapid' rest ih =>
    have hstep := brandStep_found hi hphase ⟨0, none⟩
    have hnext := getElem?_setPhase hi
      (proceed s.page (list ++ [{ rapid.toCigar with brand := none }]) (rapid' :: rest))
    obtain ⟨trace, later, data, run, hdata, hlater⟩ := ih hnext rfl
    exact ⟨_, later, data, (Run.start.next hstep).trans run, hdata, hlater⟩

theorem unmixed_iff_allSafe : Unmixed s ↔ AllSafe s := by
  constructor
  · intro h l hl
    refine ⟨h [] s .start l hl, fun hwaits => ?_⟩
    obtain ⟨i, hi⟩ := List.mem_iff_getElem?.mp hl
    cases hphase : l.phase with
    | brand request rapid rest list =>
      obtain ⟨trace, later, data, run, hdata, hlater⟩ := exists_run_ended hi hphase
      obtain ⟨-, hnext⟩ := h trace later run _ (List.mem_of_getElem? hlater) data _ _ rfl
      have hkey : some (s.page + 1) = some (l.ownKey + 1) := by
        rw [nextKey, if_neg (by simpa using hdata), if_neg hdata] at hnext
        exact hnext
      exact ((Int32.add_left_inj 1).mp (Option.some.inj hkey)).symm
    | response =>
      unfold Load.Waits at hwaits
      rw [hphase] at hwaits
      cases hwaits
    | ended result =>
      unfold Load.Waits at hwaits
      rw [hphase] at hwaits
      cases hwaits
  · intro h trace later run l hl
    have hlater : AllSafe later := by
      apply run.invariant h
      rintro s op s' hs ⟨hstep, i, reply, rfl⟩
      exact hs.brand hstep.1
    exact (hlater l hl).1

/-- Keys stay apart exactly as long as no load of another page starts or gets its response while a
load waits for brands. -/
theorem pages_unmixed_iff {trace : List (PageLoads × Op)} (run : Run Step start trace s) :
    (Unmixed s ∧ ∀ t ∈ trace, Unmixed t.1) ↔ ∀ t ∈ trace, Apart t.1 t.2 := by
  simp only [unmixed_iff_allSafe]
  apply run.kept_iff_of_invariant (I := Requested)
  · intro l hl
    cases hl
  · intro s op s' hrequested hstep
    exact hrequested.step hstep
  · intro l hl
    cases hl
  · intro s op s' hrequested hsafe hstep
    exact allSafe_step hrequested hsafe hstep

private def robusto : RapidCigar := ⟨1, 7, some "Robusto", none, some 50, none, none, none, none, none, none⟩

/-- The second load starts before the first gets its response, and gets its own after the first
has ended. -/
theorem pages_unmixed_overlapping : ∃ trace s, Run Step start trace s ∧ trace.length = 5 ∧ Unmixed s := by
  have run := Run.start.replay
    [Op.load none, .load (some 2), .response 0 (.received 200 ⟨[robusto], 1, 1⟩),
      .brand 0 (.received 200 ⟨⟨7, some "Cohiba"⟩⟩), .response 1 (.received 200 ⟨[], 2, 1⟩)]
    (rfl : replay Op.perform [] start _ = some (_, _))
  have hrun := run.restrict (Q := Echoes) (by decide)
  exact ⟨_, _, hrun, rfl, ((pages_unmixed_iff hrun).mpr (by decide)).1⟩

/-- The first page is returned with the keys of the second. -/
theorem page_mixed : ∃ trace s, Run Step start trace s ∧ ∃ l ∈ s.loads, l.key = some 1 ∧ ¬l.OwnKeys := by
  have run := Run.start.replay
    [Op.load (some 1), .response 0 (.received 200 ⟨[robusto], 1, 1⟩), .load (some 2),
      .brand 0 (.received 200 ⟨⟨7, some "Cohiba"⟩⟩)]
    (rfl : replay Op.perform [] start _ = some (_, _))
  have hrun := run.restrict (Q := Echoes) (by decide)
  refine ⟨_, _, hrun, _, List.mem_cons_self, rfl, fun h => ?_⟩
  obtain ⟨hprev, -⟩ := h _ _ _ rfl
  revert hprev
  decide

end PageLoads
end Cigars
