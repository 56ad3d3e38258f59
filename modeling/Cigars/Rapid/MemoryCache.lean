import Cigars.Collections.KeyedSet
import Mathlib.Data.Finmap
import Mathlib.Data.List.Find

/-! The HTTP cache that keeps its responses in memory. A response is replaced by a later one with
the same address and the same vary keys; a lookup takes any response that has the vary keys asked
for, among others. -/
namespace Cigars
open Collections

/-! ### Cached responses -/

structure GMTDate where
  timestamp : Int64
  deriving DecidableEq

structure HttpStatusCode where
  value : Int32
  description : String
  deriving DecidableEq

/-- The form in which names of headers are compared. -/
def lowerCase (name : String) : List Char := name.toList.map Char.toLower

/-- The names of the headers, each with its values. No two names differ in case only. -/
structure Headers where
  entries : List (String × List String)
  distinct : (entries.map fun entry => lowerCase entry.1).Nodup
  deriving DecidableEq

def Headers.empty : Headers := ⟨[], List.nodup_nil⟩

/-- A map from `String` to `String`. -/
abbrev VaryKeys : Type := Finmap fun _ : String => String

structure CachedResponseData (Url HttpProtocolVersion : Type) where
  url : Url
  statusCode : HttpStatusCode
  requestTime : GMTDate
  responseTime : GMTDate
  version : HttpProtocolVersion
  expires : GMTDate
  headers : Headers
  varyKeys : VaryKeys
  body : List UInt8
  deriving DecidableEq

variable {Url HttpProtocolVersion : Type} [DecidableEq Url]

/-- What `CachedResponseData.equals` compares. -/
def CachedResponseData.identity (data : CachedResponseData Url HttpProtocolVersion) : Url × VaryKeys :=
  (data.url, data.varyKeys)

namespace MemoryCacheStorage

abbrev Response (Url HttpProtocolVersion : Type) : Type := CachedResponseData Url HttpProtocolVersion

/-- The responses stored under an address, as a `ConcurrentSet`. -/
abbrev Responses (Url HttpProtocolVersion : Type) : Type :=
  KeyedSet (CachedResponseData.identity : Response Url HttpProtocolVersion → Url × VaryKeys)

/-- `ConcurrentMap<Url, MutableSet<CachedResponseData>>`. -/
abbrev Store (Url HttpProtocolVersion : Type) : Type := Url → Option (Responses Url HttpProtocolVersion)

def computeIfAbsent (url : Url) (s : Store Url HttpProtocolVersion) : Responses Url HttpProtocolVersion :=
  (s url).getD .empty

/-- The response as it is kept, with an expiry date far in the future. -/
def entry (data : Response Url HttpProtocolVersion) : Response Url HttpProtocolVersion :=
  { data with expires := ⟨32513272164000⟩ }

def store (url : Url) (data : Response Url HttpProtocolVersion) (s : Store Url HttpProtocolVersion) :
    Store Url HttpProtocolVersion :=
  Function.update s url (some ((computeIfAbsent url s).replace (entry data)))

/-- `varyKeys.all { (key, value) -> it.varyKeys[key] == value }`. -/
def matchesAll (varyKeys it : VaryKeys) : Bool :=
  decide (∀ key ∈ varyKeys.keys, it.lookup key = varyKeys.lookup key)

/-- `iteration` is the order in which the set is iterated. -/
def find (iteration : List (Response Url HttpProtocolVersion) → List (Response Url HttpProtocolVersion))
    (url : Url) (varyKeys : VaryKeys) (s : Store Url HttpProtocolVersion) :
    Option (Response Url HttpProtocolVersion) :=
  (iteration (computeIfAbsent url s).elements).find? fun it => matchesAll varyKeys it.varyKeys

def findAll (url : Url) (s : Store Url HttpProtocolVersion) : List (Response Url HttpProtocolVersion) :=
  (computeIfAbsent url s).elements

/-- The cache after the calls of `store`. -/
def storing (calls : List (Url × Response Url HttpProtocolVersion)) : Store Url HttpProtocolVersion :=
  calls.foldl (fun s call => store call.1 call.2 s) fun _ => none

/-- The response stored last under the address with these vary keys. -/
def lastStored (calls : List (Url × Response Url HttpProtocolVersion)) (url : Url) (varyKeys : VaryKeys) :
    Option (Response Url HttpProtocolVersion) :=
  (calls.reverse.find? fun call => decide (call.1 = url ∧ call.2.varyKeys = varyKeys)).map Prod.snd

/-! ### What is stored -/

variable {calls : List (Url × Response Url HttpProtocolVersion)} {url : Url}
  {x : Response Url HttpProtocolVersion}

theorem findAll_store (url' : Url) (data : Response Url HttpProtocolVersion) (s : Store Url HttpProtocolVersion) :
    x ∈ findAll url (store url' data s) ↔
      if url' = url then x = entry data ∨ (x ∈ findAll url s ∧ x.identity ≠ data.identity)
      else x ∈ findAll url s := by
  unfold findAll computeIfAbsent store
  split_ifs with hurl
  · rw [← hurl, Function.update_self, Option.getD_some, KeyedSet.mem_replace]
    rfl
  · rw [Function.update_of_ne fun heq => hurl heq.symm]

private theorem find_reverse {α : Type} {l : List α} {P : α → Prop} [DecidablePred P] {a : α}
    (h : (l.reverse.find? fun a => decide (P a)) = some a) : a ∈ l ∧ P a :=
  ⟨List.mem_reverse.mp (List.mem_of_find?_eq_some h), by simpa only [decide_eq_true_eq] using List.find?_some h⟩

private theorem exists_find_reverse {α : Type} {l : List α} (P : α → Prop) [DecidablePred P] {a : α}
    (ha : a ∈ l) (h : P a) : ∃ last, (l.reverse.find? fun a => decide (P a)) = some last :=
  Option.isSome_iff_exists.mp (List.find?_isSome.mpr ⟨a, List.mem_reverse.mpr ha, decide_eq_true h⟩)

/-- A response is kept until one with the same address and the same vary keys is stored. -/
theorem mem_findAll : x ∈ findAll url (storing calls) ↔ ∃ call,
    (calls.reverse.find? fun call => decide (call.1 = url ∧ call.2.identity = x.identity)) = some call ∧
      x = entry call.2 := by
  induction calls using List.reverseRecOn with
  | nil =>
    constructor
    · intro h
      cases h
    · rintro ⟨call, hcall, -⟩
      cases hcall
  | append_singleton calls last ih =>
    have hstoring : storing (calls ++ [last]) = store last.1 last.2 (storing calls) := by
      unfold storing
      rw [List.foldl_append]
      rfl
    rw [hstoring, findAll_store, List.reverse_append, List.reverse_singleton, List.singleton_append,
      List.find?_cons]
    by_cases hurl : last.1 = url
    · rw [if_pos hurl]
      by_cases hsame : last.2.identity = x.identity
      · have hlast : decide (last.1 = url ∧ last.2.identity = x.identity) = true := decide_eq_true ⟨hurl, hsame⟩
        rw [hlast]
        constructor
        · rintro (hx | ⟨-, hne⟩)
          · exact ⟨last, rfl, hx⟩
          · exact absurd hsame.symm hne
        · rintro ⟨call, hcall, hx⟩
          cases hcall
          exact Or.inl hx
      · have hlast : decide (last.1 = url ∧ last.2.identity = x.identity) = false :=
          decide_eq_false fun h => hsame h.2
        have hne : x ≠ entry last.2 := fun hx => hsame (by rw [hx]; rfl)
        rw [hlast, ← ih]
        constructor
        · rintro (hx | ⟨hx, -⟩)
          · exact absurd hx hne
          · exact hx
        · intro hx
          exact Or.inr ⟨hx, fun heq => hsame heq.symm⟩
    · have hlast : decide (last.1 = url ∧ last.2.identity = x.identity) = false :=
        decide_eq_false fun h => hurl h.1
      rw [if_neg hurl, hlast, ih]

/-- Responses stored under the address with the same vary keys carry the same address. -/
def OneAddress (calls : List (Url × Response Url HttpProtocolVersion)) (url : Url) : Prop :=
  ∀ call ∈ calls, ∀ call' ∈ calls, call.1 = url → call'.1 = url → call.2.varyKeys = call'.2.varyKeys →
    call.2.url = call'.2.url

/-- Then the response kept is the one stored last with these vary keys. -/
theorem OneAddress.mem_findAll_iff (h : OneAddress calls url) : x ∈ findAll url (storing calls) ↔
    ∃ data, lastStored calls url x.varyKeys = some data ∧ x = entry data := by
  have hfind : ∀ call₀ ∈ calls, call₀.1 = url → call₀.2.identity = x.identity →
      (calls.reverse.find? fun call => decide (call.1 = url ∧ call.2.identity = x.identity)) =
        calls.reverse.find? fun call => decide (call.1 = url ∧ call.2.varyKeys = x.varyKeys) := by
    intro call₀ hcall₀ hurl₀ hx
    have hvary : call₀.2.varyKeys = x.varyKeys := congrArg Prod.snd hx
    apply List.find?_congr
    intro call hcall
    apply decide_eq_decide.mpr
    refine and_congr_right fun hurl => ⟨fun heq => congrArg Prod.snd heq, fun heq => ?_⟩
    have haddress := h call (List.mem_reverse.mp hcall) call₀ hcall₀ hurl hurl₀ (heq.trans hvary.symm)
    rw [← hx]
    exact Prod.ext haddress (heq.trans hvary.symm)
  rw [mem_findAll, lastStored]
  constructor
  · rintro ⟨call, hcall, hx⟩
    obtain ⟨hmem, hurl, hidentity⟩ := find_reverse hcall
    rw [hfind call hmem hurl hidentity] at hcall
    exact ⟨call.2, by rw [hcall]; rfl, hx⟩
  · rintro ⟨data, hdata, hx⟩
    obtain ⟨call, hcall, rfl⟩ := Option.map_eq_some_iff.mp hdata
    obtain ⟨hmem, hurl, -⟩ := find_reverse hcall
    have hidentity : call.2.identity = x.identity := by
      rw [hx]
      rfl
    rw [← hfind call hmem hurl hidentity] at hcall
    exact ⟨call, hcall, hx⟩

/-- A response with the identity of each stored one is kept. -/
theorem exists_mem_findAll {call : Url × Response Url HttpProtocolVersion} (hcall : call ∈ calls)
    (hurl : call.1 = url) : ∃ x ∈ findAll url (storing calls), x.identity = call.2.identity := by
  obtain ⟨last, hlast⟩ :=
    exists_find_reverse (fun c => c.1 = url ∧ c.2.identity = call.2.identity) hcall ⟨hurl, rfl⟩
  have hidentity : (entry last.2).identity = call.2.identity := (find_reverse hlast).2.2
  refine ⟨entry last.2, mem_findAll.mpr ⟨last, ?_, rfl⟩, hidentity⟩
  rw [hidentity]
  exact hlast

theorem lastStored_spec {varyKeys : VaryKeys} {data : Response Url HttpProtocolVersion}
    (h : lastStored calls url varyKeys = some data) : (url, data) ∈ calls ∧ data.varyKeys = varyKeys := by
  obtain ⟨call, hcall, rfl⟩ := Option.map_eq_some_iff.mp h
  obtain ⟨hmem, hurl, hkeys⟩ := find_reverse hcall
  exact ⟨hurl ▸ hmem, hkeys⟩

theorem exists_lastStored {varyKeys : VaryKeys}
    (h : ∃ call ∈ calls, call.1 = url ∧ call.2.varyKeys = varyKeys) :
    ∃ data, lastStored calls url varyKeys = some data := by
  obtain ⟨call, hcall, hstored⟩ := h
  obtain ⟨last, hlast⟩ := exists_find_reverse (fun c => c.1 = url ∧ c.2.varyKeys = varyKeys) hcall hstored
  exact ⟨last.2, by rw [lastStored, hlast]; rfl⟩

theorem OneAddress.entry_mem {varyKeys : VaryKeys} {data : Response Url HttpProtocolVersion}
    (h : OneAddress calls url) (hdata : lastStored calls url varyKeys = some data) :
    entry data ∈ findAll url (storing calls) := by
  apply h.mem_findAll_iff.mpr
  refine ⟨data, ?_, rfl⟩
  have hkeys : (entry data).varyKeys = data.varyKeys := rfl
  rw [hkeys, (lastStored_spec hdata).2, hdata]

/-! ### What is returned -/

/-- A lookup returns the body of the response stored last with the vary keys, in whatever order the
set is iterated, and the list of responses has the last one for each map of vary keys. -/
structure ReturnsLast (calls : List (Url × Response Url HttpProtocolVersion)) (url : Url) (varyKeys : VaryKeys) :
    Prop where
  find : ∀ iteration : List (Response Url HttpProtocolVersion) → List (Response Url HttpProtocolVersion),
    (∀ l, (iteration l).Perm l) →
      (find iteration url varyKeys (storing calls)).map CachedResponseData.body =
        (lastStored calls url varyKeys).map CachedResponseData.body
  findAll : ∀ varyKeys', (findAll url (storing calls)).filter (fun it => decide (it.varyKeys = varyKeys')) =
    ((lastStored calls url varyKeys').map entry).toList

/-- The last response of every map of vary keys that has the ones asked for has the same body. -/
def MatchesAlike (calls : List (Url × Response Url HttpProtocolVersion)) (url : Url) (varyKeys : VaryKeys) : Prop :=
  ∀ data, lastStored calls url varyKeys = some data → ∀ varyKeys', matchesAll varyKeys varyKeys' = true →
    ∀ data', lastStored calls url varyKeys' = some data' → data'.body = data.body

theorem ReturnsLast.oneAddress {varyKeys : VaryKeys} (h : ReturnsLast calls url varyKeys) :
    OneAddress calls url := by
  intro call hcall call' hcall' hurl hurl' hvary
  obtain ⟨x, hx, hxcall⟩ := exists_mem_findAll hcall hurl
  obtain ⟨x', hx', hxcall'⟩ := exists_mem_findAll hcall' hurl'
  have hkeys : x.varyKeys = call.2.varyKeys := congrArg Prod.snd hxcall
  have hkeys' : x'.varyKeys = call.2.varyKeys := (congrArg Prod.snd hxcall').trans hvary.symm
  have hkept : ∀ y ∈ MemoryCacheStorage.findAll url (storing calls), y.varyKeys = call.2.varyKeys →
      y ∈ (lastStored calls url call.2.varyKeys).map entry := by
    intro y hy hykeys
    rw [Option.mem_def, ← Option.mem_toList, ← h.findAll call.2.varyKeys]
    exact List.mem_filter.mpr ⟨hy, decide_eq_true hykeys⟩
  have heq : x = x' := Option.mem_unique (hkept x hx hkeys) (hkept x' hx' hkeys')
  calc call.2.url = x.url := (congrArg Prod.fst hxcall).symm
    _ = x'.url := by rw [heq]
    _ = call'.2.url := congrArg Prod.fst hxcall'

theorem ReturnsLast.matchesAlike {varyKeys : VaryKeys} (h : ReturnsLast calls url varyKeys) :
    MatchesAlike calls url varyKeys := by
  classical
  intro data hdata varyKeys' hmatches data' hdata'
  have hmem := h.oneAddress.entry_mem hdata'
  -- An iteration that meets this response first.
  let iteration (l : List (Response Url HttpProtocolVersion)) : List (Response Url HttpProtocolVersion) :=
    if entry data' ∈ l then entry data' :: l.erase (entry data') else l
  have hperm : ∀ l, (iteration l).Perm l := by
    intro l
    dsimp only [iteration]
    split_ifs with hl
    · exact (List.perm_cons_erase hl).symm
    · exact List.Perm.refl l
  have hfound : MemoryCacheStorage.find iteration url varyKeys (storing calls) = some (entry data') := by
    have hfirst : iteration (computeIfAbsent url (storing calls)).elements =
        entry data' :: (computeIfAbsent url (storing calls)).elements.erase (entry data') := if_pos hmem
    unfold MemoryCacheStorage.find
    rw [hfirst, List.find?_cons_of_pos]
    rw [← (lastStored_spec hdata').2] at hmatches
    exact hmatches
  have hbody := h.find iteration hperm
  rw [hfound, hdata] at hbody
  exact Option.some.inj hbody

theorem matchesAlike_of_calls {varyKeys : VaryKeys}
    (h : ∀ call ∈ calls, call.1 = url → matchesAll varyKeys call.2.varyKeys = true →
      (lastStored calls url call.2.varyKeys).map CachedResponseData.body =
        (lastStored calls url varyKeys).map CachedResponseData.body) :
    MatchesAlike calls url varyKeys := by
  intro data hdata varyKeys' hmatches data' hdata'
  obtain ⟨hmem, hkeys⟩ := lastStored_spec hdata'
  rw [← hkeys] at hmatches hdata'
  have hbody := h (url, data') hmem rfl hmatches
  rw [hdata, hdata'] at hbody
  exact Option.some.inj hbody

theorem matchesAll_self (varyKeys : VaryKeys) : matchesAll varyKeys varyKeys = true := by
  unfold matchesAll
  exact decide_eq_true fun _ _ => rfl

theorem OneAddress.findAll_eq (h : OneAddress calls url) (varyKeys : VaryKeys) :
    (findAll url (storing calls)).filter (fun it => decide (it.varyKeys = varyKeys)) =
      ((lastStored calls url varyKeys).map entry).toList := by
  cases hdata : lastStored calls url varyKeys with
  | none =>
    refine List.filter_eq_nil_iff.mpr fun x hx hkeys => ?_
    obtain ⟨data, hstored, -⟩ := h.mem_findAll_iff.mp hx
    rw [of_decide_eq_true hkeys, hdata] at hstored
    cases hstored
  | some data =>
    have hmem := h.entry_mem hdata
    refine filter_eq_singleton (computeIfAbsent url (storing calls)).nodup hmem fun x hx => ?_
    rw [decide_eq_true_eq]
    constructor
    · intro hxkeys
      obtain ⟨data', hdata', hxdata⟩ := h.mem_findAll_iff.mp hx
      rw [hxkeys, hdata] at hdata'
      cases hdata'
      exact hxdata
    · intro hxdata
      have hkeys : data.varyKeys = varyKeys := (lastStored_spec hdata).2
      rw [hxdata, ← hkeys]
      rfl

/-- A lookup finds the last response of some map of vary keys that has the ones asked for. -/
theorem OneAddress.find_eq_some (h : OneAddress calls url) {varyKeys : VaryKeys}
    {data : Response Url HttpProtocolVersion} (hdata : lastStored calls url varyKeys = some data)
    {iteration : List (Response Url HttpProtocolVersion) → List (Response Url HttpProtocolVersion)}
    (hperm : ∀ l, (iteration l).Perm l) :
    ∃ varyKeys' data', find iteration url varyKeys (storing calls) = some (entry data') ∧
      matchesAll varyKeys varyKeys' = true ∧ lastStored calls url varyKeys' = some data' := by
  have hsome : (find iteration url varyKeys (storing calls)).isSome = true := by
    refine List.find?_isSome.mpr ⟨entry data, (hperm _).mem_iff.mpr (h.entry_mem hdata), ?_⟩
    rw [← (lastStored_spec hdata).2]
    exact matchesAll_self data.varyKeys
  obtain ⟨x, hx⟩ := Option.isSome_iff_exists.mp hsome
  have hmem : x ∈ findAll url (storing calls) := (hperm _).mem_iff.mp (List.mem_of_find?_eq_some hx)
  obtain ⟨data', hdata', hxdata⟩ := h.mem_findAll_iff.mp hmem
  have hmatches : matchesAll varyKeys x.varyKeys = true := by
    unfold find at hx
    simpa only using List.find?_some hx
  exact ⟨x.varyKeys, data', hx.trans (congrArg some hxdata), hmatches, hdata'⟩

theorem returnsLast_iff {varyKeys : VaryKeys}
    (hstored : ∃ call ∈ calls, call.1 = url ∧ call.2.varyKeys = varyKeys) :
    ReturnsLast calls url varyKeys ↔ OneAddress calls url ∧ MatchesAlike calls url varyKeys := by
  refine ⟨fun h => ⟨h.oneAddress, h.matchesAlike⟩, ?_⟩
  rintro ⟨haddress, halike⟩
  refine ⟨fun iteration hperm => ?_, haddress.findAll_eq⟩
  obtain ⟨data, hdata⟩ := exists_lastStored hstored
  obtain ⟨varyKeys', data', hfound, hmatches, hdata'⟩ := haddress.find_eq_some hdata hperm
  have hbody : (entry data').body = data.body := halike data hdata varyKeys' hmatches data' hdata'
  rw [hfound, hdata, Option.map_some, Option.map_some, hbody]

/-- A response to `GET /cigars`, with the given vary keys and body. -/
private def sample (varyKeys : VaryKeys) (body : List UInt8) : Response String String where
  url := "/cigars"
  statusCode := ⟨200, "OK"⟩
  requestTime := ⟨1⟩
  responseTime := ⟨2⟩
  version := "HTTP/1.1"
  expires := ⟨3⟩
  headers := .empty
  varyKeys := varyKeys
  body := body

private def accept (language : String) : VaryKeys := Finmap.singleton "Accept-Language" language

/-- Two languages do not compete, and the second English response replaces the first. -/
theorem returnsLast_languages :
    ReturnsLast [("/cigars", sample (accept "en") [1]), ("/cigars", sample (accept "de") [2]),
      ("/cigars", sample (accept "en") [3])] "/cigars" (accept "en") := by
  refine (returnsLast_iff ⟨_, List.mem_cons_self, rfl, rfl⟩).mpr ⟨?_, ?_⟩
  · unfold OneAddress
    decide
  · refine matchesAlike_of_calls ?_
    decide

/-- A response without vary keys is not found once one with vary keys is met first. -/
theorem not_returnsLast_moreKeys : ¬ReturnsLast
    [("/cigars", sample (accept "en") [1]), ("/cigars", sample ∅ [2])] "/cigars" ∅ := by
  intro h
  have hbody := h.find id fun l => List.Perm.refl l
  revert hbody
  decide

end MemoryCacheStorage
end Cigars
