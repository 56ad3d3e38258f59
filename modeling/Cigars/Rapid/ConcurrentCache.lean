import Cigars.Collections.Replacing
import Cigars.Coroutine.Pool
import Cigars.Rapid.MemoryCache

/-! Calls of `MemoryCacheStorage.store` that overlap. The map and its sets are safe for concurrent
use, so each access to them is one step, but `store` itself takes up to four of them. -/
namespace Cigars
namespace MemoryCacheStorage
open Collections Coroutine

variable {Url HttpProtocolVersion ε : Type} [DecidableEq Url]

/-! ### The accesses of `store` -/

/-- The map with a change to the set under the address. Sets never leave the map, so the one that
`computeIfAbsent` returned is still there. -/
def modify (url : Url) (f : Responses Url HttpProtocolVersion → Responses Url HttpProtocolVersion)
    (s : Store Url HttpProtocolVersion) : Store Url HttpProtocolVersion :=
  Function.update s url (some (f (computeIfAbsent url s)))

/-- `cache.add(entry)`, with its result. -/
def add (url : Url) (data : Response Url HttpProtocolVersion) : Script (Store Url HttpProtocolVersion) ε Bool :=
  .stmt (fun s => .ok (((computeIfAbsent url s).add (entry data)).1,
    modify url (fun cache => (cache.add (entry data)).2) s)) .done

def remove (url : Url) (data : Response Url HttpProtocolVersion) :
    Script (Store Url HttpProtocolVersion) ε Unit :=
  .write (modify url fun cache => cache.remove (entry data))

/-- The second `cache.add(entry)`, whose result is dropped. -/
def addAgain (url : Url) (data : Response Url HttpProtocolVersion) :
    Script (Store Url HttpProtocolVersion) ε Unit :=
  .write (modify url fun cache => (cache.add (entry data)).2)

/-- `if (!cache.add(entry)) { cache.remove(entry); cache.add(entry) }`. -/
def addOrReplace (url : Url) (data : Response Url HttpProtocolVersion) :
    Script (Store Url HttpProtocolVersion) ε Unit :=
  (add url data).bind fun added =>
    if added then .done () else (remove url data).bind fun _ => addAgain url data

/-- `store`, access by access. -/
def storeStepwise (url : Url) (data : Response Url HttpProtocolVersion) :
    Script (Store Url HttpProtocolVersion) ε Unit :=
  (Script.write (modify url id)).bind fun _ => addOrReplace url data

theorem modify_modify (url : Url) (f g : Responses Url HttpProtocolVersion → Responses Url HttpProtocolVersion)
    (s : Store Url HttpProtocolVersion) : modify url g (modify url f s) = modify url (g ∘ f) s := by
  unfold modify computeIfAbsent
  rw [Function.update_self, Function.update_idem]
  rfl

/-- Alone, the accesses together are `store`. -/
theorem run_storeStepwise (url : Url) (data : Response Url HttpProtocolVersion) (s : Store Url HttpProtocolVersion) :
    (storeStepwise url data : Script _ ε Unit).run s = (.ok (), store url data s) := by
  have hstore : store url data s = modify url (fun cache => cache.replace (entry data)) (modify url id s) := by
    rw [modify_modify]
    rfl
  have hrun : (storeStepwise url data : Script _ ε Unit).run s =
      (if ((computeIfAbsent url (modify url id s)).add (entry data)).1 then .done ()
        else (remove url data).bind fun _ => addAgain url data : Script _ ε Unit).run
          (modify url (fun cache => (cache.add (entry data)).2) (modify url id s)) := rfl
  rw [hrun, hstore]
  generalize modify url id s = s
  cases hadded : ((computeIfAbsent url s).add (entry data)).1 with
  | true =>
    rw [if_pos rfl]
    refine congrArg (Prod.mk (Except.ok ())) (congrArg (Function.update s url) (congrArg some ?_))
    unfold KeyedSet.replace
    simp only [hadded, if_true]
  | false =>
    rw [if_neg Bool.false_ne_true]
    refine congrArg (Prod.mk (Except.ok ())) ?_
    rw [modify_modify, modify_modify]
    refine congrArg (Function.update s url) (congrArg some ?_)
    unfold KeyedSet.replace
    simp only [hadded, if_false, Bool.false_eq_true, Function.comp_apply]

/-! ### The steps as those of a replacement -/

/-- The script left of `store` and the step of the replacement that comes next. -/
inductive AtPhase (url : Url) (data : Response Url HttpProtocolVersion) :
    Script (Store Url HttpProtocolVersion) ε Unit → Replacing.Phase → Prop
  | opening : AtPhase url data (storeStepwise url data) .adding
  | adding : AtPhase url data (addOrReplace url data) .adding
  | removing : AtPhase url data ((remove url data).bind fun _ => addAgain url data) .removing
  | readding : AtPhase url data (addAgain url data) .readding
  | ended : AtPhase url data (.done ()) .ended

theorem computeIfAbsent_modify (url : Url)
    (f : Responses Url HttpProtocolVersion → Responses Url HttpProtocolVersion) (s : Store Url HttpProtocolVersion) :
    (fun url' => computeIfAbsent url' (modify url f s)) =
      Function.update (fun url' => computeIfAbsent url' s) url (f (computeIfAbsent url s)) := by
  funext url'
  by_cases hurl : url' = url
  · rw [hurl, Function.update_self]
    unfold computeIfAbsent modify
    rw [Function.update_self]
    rfl
  · rw [Function.update_of_ne hurl]
    unfold computeIfAbsent modify
    rw [Function.update_of_ne hurl]

variable {url : Url} {data : Response Url HttpProtocolVersion}
  {p : Script (Store Url HttpProtocolVersion) ε Unit} {phase : Replacing.Phase}

theorem AtPhase.ended_iff (h : AtPhase url data p phase) :
    (∃ r, p = Script.liftExcept r) ↔ phase = .ended := by
  cases h with
  | ended => exact ⟨fun _ => rfl, fun _ => ⟨.ok (), rfl⟩⟩
  | _ =>
    refine ⟨fun hr => ?_, nofun⟩
    obtain ⟨r, hr⟩ := hr
    cases r <;> cases hr

theorem AtPhase.eq_addAgain (h : AtPhase url data p phase) (hphase : phase = .readding) : p = addAgain url data := by
  rw [hphase] at h
  cases h
  rfl

/-- A step opens the set, which changes nothing, or is one of the replacement. -/
theorem AtPhase.step (h : AtPhase url data p phase) (s : Store Url HttpProtocolVersion) :
    p.step s = none ∨ ∃ p' f, p.step s = some (p', modify url f s) ∧
      ((f = id ∧ AtPhase url data p' phase) ∨
        (f = (fun cache => (phase.next (entry data) cache).2) ∧
          AtPhase url data p' (phase.next (entry data) (computeIfAbsent url s)).1)) := by
  cases h with
  | opening => exact .inr ⟨_, id, rfl, .inl ⟨rfl, .adding⟩⟩
  | adding =>
    refine .inr ⟨_, _, rfl, .inr ⟨rfl, ?_⟩⟩
    dsimp only [Replacing.Phase.next]
    cases ((computeIfAbsent url s).add (entry data)).1 with
    | true => exact .ended
    | false => exact .removing
  | removing => exact .inr ⟨_, _, rfl, .inr ⟨rfl, .readding⟩⟩
  | readding => exact .inr ⟨_, _, rfl, .inr ⟨rfl, .ended⟩⟩
  | ended => exact .inl rfl

section
variable {ι : Type} [DecidableEq ι]

/-- The calls of `store` side by side, each at its beginning. -/
def stores (ε : Type) (calls : ι → Url × Response Url HttpProtocolVersion) (s : Store Url HttpProtocolVersion) :
    Pool ι (Store Url HttpProtocolVersion) ε Unit :=
  ⟨fun i => storeStepwise (calls i).1 (calls i).2, s⟩

/-- The replacement before its first step. -/
def beginning (ι : Type) (s : Store Url HttpProtocolVersion) :
    Replacing.System ι Url (CachedResponseData.identity : Response Url HttpProtocolVersion → _) :=
  ⟨fun _ => .adding, fun url => computeIfAbsent url s⟩

/-- What each call adds. -/
def additions (calls : ι → Url × Response Url HttpProtocolVersion) (i : ι) : Url × Response Url HttpProtocolVersion :=
  ((calls i).1, entry (calls i).2)

/-- The scripts are the parties of the replacement, and the map has its sets. -/
structure Refines (calls : ι → Url × Response Url HttpProtocolVersion)
    (pool : Pool ι (Store Url HttpProtocolVersion) ε Unit)
    (sys : Replacing.System ι Url (CachedResponseData.identity : Response Url HttpProtocolVersion → _)) : Prop where
  programs : ∀ i, AtPhase (calls i).1 (calls i).2 (pool.programs i) (sys.phases i)
  sets : sys.sets = fun url => computeIfAbsent url pool.state

variable {calls : ι → Url × Response Url HttpProtocolVersion}
  {pool : Pool ι (Store Url HttpProtocolVersion) ε Unit}
  {sys : Replacing.System ι Url (CachedResponseData.identity : Response Url HttpProtocolVersion → _)}

omit [DecidableEq ι] in
theorem refines_stores (calls : ι → Url × Response Url HttpProtocolVersion) (s : Store Url HttpProtocolVersion) :
    Refines calls (stores ε calls s) (beginning ι s) := ⟨fun _ => .opening, rfl⟩

theorem Refines.update (h : Refines calls pool sys) {i : ι}
    (hp : AtPhase (calls i).1 (calls i).2 p phase) (j : ι) :
    AtPhase (calls j).1 (calls j).2 (Function.update pool.programs i p j) (Function.update sys.phases i phase j) := by
  by_cases hji : j = i
  · rw [hji, Function.update_self, Function.update_self]
    exact hp
  · rw [Function.update_of_ne hji, Function.update_of_ne hji]
    exact h.programs j

theorem Refines.turn (h : Refines calls pool sys) (i : ι) :
    Refines calls (pool.turn i) sys ∨ Refines calls (pool.turn i) (sys.turn (additions calls) i) := by
  rcases (h.programs i).step pool.state with hnone | ⟨p, f, hstep, hnext⟩
  · rw [Pool.turn_of_ended hnone]
    exact .inl h
  · rw [Pool.turn_of_step hstep]
    rcases hnext with ⟨rfl, hp⟩ | ⟨rfl, hp⟩
    · refine .inl ⟨fun j => ?_, ?_⟩
      · have hj := h.update hp j
        rw [Function.update_eq_self] at hj
        exact hj
      · dsimp only
        rw [computeIfAbsent_modify, h.sets]
        exact (Function.update_eq_self _ _).symm
    · have hset : sys.sets (calls i).1 = computeIfAbsent (calls i).1 pool.state := congrFun h.sets _
      rw [← hset] at hp
      refine .inr ⟨h.update hp, ?_⟩
      dsimp only [Replacing.System.turn, additions]
      rw [computeIfAbsent_modify, hset, h.sets]

/-- Along a schedule the calls take the steps of the replacement, some turns left out. -/
theorem Refines.run (h : Refines calls pool sys) (schedule : List ι) :
    ∃ steps, List.Sublist steps schedule ∧
      Refines calls (pool.run schedule) (sys.run (additions calls) steps) := by
  induction schedule generalizing pool sys with
  | nil => exact ⟨[], List.Sublist.slnil, h⟩
  | cons i schedule ih =>
    rcases h.turn i with hsame | hturn
    · obtain ⟨steps, hsteps, hrun⟩ := ih hsame
      exact ⟨steps, hsteps.cons i, hrun⟩
    · obtain ⟨steps, hsteps, hrun⟩ := ih hturn
      exact ⟨i :: steps, hsteps.cons_cons i, hrun⟩

/-! ### What is kept -/

/-- The responses kept under an address with one identity. -/
def kept (url : Url) (identity : Url × VaryKeys) (s : Store Url HttpProtocolVersion) :
    List (Response Url HttpProtocolVersion) :=
  (findAll url s).filter fun it => decide (it.identity = identity)

omit [DecidableEq ι] in
theorem Refines.kept_eq (h : Refines calls pool sys) (url : Url) (identity : Url × VaryKeys) :
    kept url identity pool.state = (sys.cell url identity).toList := by
  unfold Replacing.System.cell
  rw [h.sets]
  exact KeyedSet.filter_key _ _

/-- The call replaces the response with the identity under the address. -/
def Replaces (calls : ι → Url × Response Url HttpProtocolVersion) (url : Url) (identity : Url × VaryKeys) (i : ι) :
    Prop :=
  (calls i).1 = url ∧ (calls i).2.identity = identity

/-- Where at least one call of `store` begins after the turns `before`, one response is kept, that of
a call which had not returned by then: never that of a call which another followed. Under all other
addresses and identities the cache is as it was. -/
theorem stores_keep_latest (ε : Type) (calls : ι → Url × Response Url HttpProtocolVersion)
    (s : Store Url HttpProtocolVersion) (before after : List ι)
    (hended : ((stores ε calls s).run (before ++ after)).Ended) (url : Url) (identity : Url × VaryKeys) :
    ((∃ i ∉ before, Replaces calls url identity i) →
      ∃ j, Replaces calls url identity j ∧
        (¬∃ r, ((stores ε calls s).run before).programs j = Script.liftExcept r) ∧
        kept url identity ((stores ε calls s).run (before ++ after)).state = [entry (calls j).2]) ∧
    ((∀ i, ¬Replaces calls url identity i) →
      kept url identity ((stores ε calls s).run (before ++ after)).state = kept url identity s) := by
  have hstart : Refines calls (stores ε calls s) (beginning ι s) := refines_stores calls s
  obtain ⟨steps, hsteps, hbefore⟩ := hstart.run before
  obtain ⟨steps', -, hafter⟩ := hbefore.run after
  rw [← Pool.run_append] at hafter
  constructor
  · intro hreplaced
    obtain ⟨i, hi, hreplaces⟩ := hreplaced
    have hbegins : ((beginning ι s).run (additions calls) steps).phases i = .adding :=
      Replacing.phases_run_of_notMem fun hmem => hi (hsteps.subset hmem)
    have hphases := fun i => (hafter.programs i).ended_iff.mp (hended i)
    obtain ⟨j, hj, hrunning, hcell⟩ := (Replacing.since_self.run steps').cell_of_ended hphases hreplaces hbegins
    refine ⟨j, hj, fun hreturned => hrunning ((hbefore.programs j).ended_iff.mp hreturned), ?_⟩
    rw [hafter.kept_eq, hcell]
    rfl
  · intro hreplaced
    have hnone : ∀ i, ¬Replacing.Targets CachedResponseData.identity (additions calls) url identity i := hreplaced
    rw [hafter.kept_eq, Replacing.cell_run_of_no_target hnone, Replacing.cell_run_of_no_target hnone,
      ← hstart.kept_eq]
    rfl

/-- A response to `GET /brands` without vary keys. -/
private def brands (body : List UInt8) : Response String String where
  url := "/brands"
  statusCode := ⟨200, "OK"⟩
  requestTime := ⟨1⟩
  responseTime := ⟨2⟩
  version := "HTTP/1.1"
  expires := ⟨3⟩
  headers := .empty
  varyKeys := ∅
  body := body

/-- Two calls of `store` for one address. -/
private def brandsTwice (second : Bool) : String × Response String String :=
  ("/brands", brands (if second then [3] else [2]))

/-- A cache that has an older response. -/
private def brandsStored : Store String String := store "/brands" (brands [1]) fun _ => none

/-- The two calls overlap, both find the older response and both remove it. -/
theorem stores_keep_latest_overlapping :
    ∃ j, Replaces brandsTwice "/brands" ("/brands", ∅) j ∧
      (¬∃ r, ((stores Empty brandsTwice brandsStored).run [false, false]).programs j = Script.liftExcept r) ∧
      kept "/brands" ("/brands", ∅) ((stores Empty brandsTwice brandsStored).run
        ([false, false] ++ [true, true, true, false, true, false])).state = [entry (brandsTwice j).2] := by
  refine (stores_keep_latest Empty brandsTwice brandsStored [false, false]
    [true, true, true, false, true, false] (fun i => ?_) "/brands" ("/brands", ∅)).1 ⟨true, by decide, rfl, rfl⟩
  cases i with
  | false => exact ⟨.ok (), rfl⟩
  | true => exact ⟨.ok (), rfl⟩

/-- While calls of `store` run, a response that was in the cache, or whose call has returned, is
missing only where some call has removed it and not yet added its own. -/
theorem stores_miss_only_replaced (ε : Type) (calls : ι → Url × Response Url HttpProtocolVersion)
    (s : Store Url HttpProtocolVersion) (before after : List ι) (url : Url) (identity : Url × VaryKeys)
    (hseen : kept url identity ((stores ε calls s).run before).state ≠ [] ∨
      ∃ i r, Replaces calls url identity i ∧
        ((stores ε calls s).run (before ++ after)).programs i = Script.liftExcept r)
    (hmissing : kept url identity ((stores ε calls s).run (before ++ after)).state = []) :
    ∃ j, Replaces calls url identity j ∧
      ((stores ε calls s).run (before ++ after)).programs j = addAgain (calls j).1 (calls j).2 := by
  have hstart : Refines calls (stores ε calls s) (beginning ι s) := refines_stores calls s
  obtain ⟨steps, -, hbefore⟩ := hstart.run before
  obtain ⟨steps', -, hafter⟩ := hbefore.run after
  rw [← Pool.run_append] at hafter
  rw [hafter.kept_eq, Option.toList_eq_nil_iff] at hmissing
  rcases hseen with hheld | ⟨i, r, hi, hreturned⟩
  · rcases (Replacing.since_self.run steps').missing hmissing with ⟨j, hj, hphase⟩ | ⟨hnone, -⟩
    · exact ⟨j, hj, (hafter.programs j).eq_addAgain hphase⟩
    · rw [hbefore.kept_eq, hnone] at hheld
      exact absurd rfl hheld
  · rcases ((Replacing.since_self.run steps).run steps').missing hmissing with ⟨j, hj, hphase⟩ | ⟨-, hsame⟩
    · exact ⟨j, hj, (hafter.programs j).eq_addAgain hphase⟩
    · have hphase := hsame i hi
      rw [(hafter.programs i).ended_iff.mp ⟨r, hreturned⟩] at hphase
      cases hphase

/-- The older response is removed and the one that replaces it is not there yet. -/
theorem stores_miss_only_replaced_older :
    ∃ j, Replaces brandsTwice "/brands" ("/brands", ∅) j ∧
      ((stores Empty brandsTwice brandsStored).run ([] ++ [true, true, true])).programs j =
        addAgain (brandsTwice j).1 (brandsTwice j).2 :=
  stores_miss_only_replaced Empty brandsTwice brandsStored [] [true, true, true] "/brands" ("/brands", ∅)
    (Or.inl (by decide)) (by decide)

end

end MemoryCacheStorage
end Cigars
