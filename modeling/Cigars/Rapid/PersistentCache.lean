import Cigars.Rapid.MemoryCache
import Cigars.Text.Basic
import Mathlib.Data.List.AList

/-! The HTTP cache of the iOS app. A response is kept as its bytes and one dictionary, in which its
other parts stand under reserved names beside its headers. -/
namespace Cigars

/-! ### Dictionaries and headers -/

/-- A value of the dictionary: a text, or the values of a header. -/
inductive UserValue
  | text (s : String)
  | list (values : List String)

/-- The elements of a list in its `toString()`. -/
def joined : List String → String
  | [] => ""
  | [s] => s
  | s :: rest => s ++ ", " ++ joined rest

/-- `toString()`. -/
def UserValue.toText : UserValue → String
  | text s => s
  | list values => "[" ++ joined values ++ "]"

abbrev UserInfo : Type := AList fun _ : String => UserValue

structure NSCachedURLResponse where
  data : List UInt8
  userInfo : UserInfo

/-- `HeadersBuilder.append`. -/
def Headers.append (headers : Headers) (name value : String) : Headers :=
  if h : lowerCase name ∈ headers.entries.map fun entry => lowerCase entry.1 then
    { entries := headers.entries.map fun entry =>
        if lowerCase entry.1 = lowerCase name then (entry.1, entry.2 ++ [value]) else entry
      distinct := by
        rw [List.map_map]
        have hnames : (headers.entries.map fun entry => lowerCase entry.1) = headers.entries.map
            ((fun entry => lowerCase entry.1) ∘ fun entry =>
              if lowerCase entry.1 = lowerCase name then (entry.1, entry.2 ++ [value]) else entry) := by
          apply List.map_congr_left
          intro entry _
          rw [Function.comp_apply]
          split_ifs <;> rfl
        rw [← hnames]
        exact headers.distinct }
  else
    { entries := headers.entries ++ [(name, [value])]
      distinct := by
        rw [List.map_append, List.nodup_append]
        refine ⟨headers.distinct, List.nodup_singleton _, ?_⟩
        intro a ha b hb heq
        rw [List.map_singleton, List.mem_singleton] at hb
        exact h (hb ▸ heq ▸ ha) }

/-- `Headers.build { map.forEach { append(it.key, it.value) } }`. -/
def Headers.build (map : List (String × String)) : Headers :=
  map.foldl (fun headers entry => headers.append entry.1 entry.2) .empty

/-- The same names with the same values. -/
def Headers.Same (a b : Headers) : Prop := ∀ entry, entry ∈ a.entries ↔ entry ∈ b.entries

/-! ### Conversions -/

/-- Texts of addresses and versions and how they are read, `none` where that throws. -/
structure Ktor (Url HttpProtocolVersion : Type) where
  urlText : Url → String
  url : String → Option Url
  versionText : HttpProtocolVersion → String
  parse : String → Option HttpProtocolVersion

variable {Url HttpProtocolVersion : Type}

/-- `toCachedURLResponse`. -/
def CachedResponseData.toCachedURLResponse (ktor : Ktor Url HttpProtocolVersion)
    (d : CachedResponseData Url HttpProtocolVersion) : NSCachedURLResponse :=
  let userInfo : UserInfo := d.headers.entries.foldl (fun info entry => info.insert entry.1 (.list entry.2)) ∅
  let userInfo := userInfo.insert "Expires" (.text "32513272164000")
  let userInfo := userInfo.insert "Response-Code" (.text (toString d.statusCode.value.toInt))
  let userInfo := userInfo.insert "Request-Time" (.text (toString d.requestTime.timestamp.toInt))
  let userInfo := userInfo.insert "Response-Time" (.text (toString d.responseTime.timestamp.toInt))
  let userInfo := userInfo.insert "Version" (.text (ktor.versionText d.version))
  let userInfo := userInfo.insert "URL" (.text (ktor.urlText d.url))
  ⟨d.body, userInfo⟩

namespace NSCachedURLResponse

/-- The variables of `toCachedResponseData`. -/
structure Variables (HttpProtocolVersion : Type) where
  url : String := ""
  statusCode : Option HttpStatusCode := none
  requestTime : Option GMTDate := none
  responseTime : Option GMTDate := none
  version : Option HttpProtocolVersion := none
  expires : Option GMTDate := none
  headersMap : AList fun _ : String => String := ∅

def toGMTDate (text : String) : Option GMTDate := (toLong text).map fun n => ⟨Int64.ofInt n⟩

/-- What an entry of the dictionary does to the variables; `none` where it throws. -/
def assign (ktor : Ktor Url HttpProtocolVersion) (key text : String) :
    Option (Variables HttpProtocolVersion → Variables HttpProtocolVersion) :=
  match key with
  | "Response-Code" => (stringToInt text).map fun n v => { v with statusCode := some ⟨Int32.ofInt n, ""⟩ }
  | "Request-Time" => (toGMTDate text).map fun date v => { v with requestTime := some date }
  | "Response-Time" => (toGMTDate text).map fun date v => { v with responseTime := some date }
  | "Version" => (ktor.parse text).map fun version v => { v with version := some version }
  | "Expires" => (toGMTDate text).map fun date v => { v with expires := some date }
  | "URL" => some fun v => { v with url := text }
  | _ => some fun v => { v with headersMap := v.headersMap.insert key text }

def readEntry (ktor : Ktor Url HttpProtocolVersion) (v : Variables HttpProtocolVersion)
    (entry : Sigma fun _ : String => UserValue) : Option (Variables HttpProtocolVersion) :=
  (assign ktor entry.1 entry.2.toText).map fun update => update v

/-- `NSData.toByteArray`: the address of the first byte of an empty array cannot be taken. -/
def toByteArray (data : List UInt8) : Option (List UInt8) := if data.isEmpty then none else some data

/-- `toCachedResponseData`; the dictionary is iterated in the order given, and `none` stands for an
exception. -/
def toCachedResponseData (ktor : Ktor Url HttpProtocolVersion) (order : List (Sigma fun _ : String => UserValue))
    (r : NSCachedURLResponse) : Option (CachedResponseData Url HttpProtocolVersion) := do
  let v ← order.foldlM (readEntry ktor) {}
  let headers := Headers.build (v.headersMap.entries.map fun entry => (entry.1, entry.2))
  let url ← ktor.url v.url
  let statusCode ← v.statusCode
  let requestTime ← v.requestTime
  let responseTime ← v.responseTime
  let version ← v.version
  let expires ← v.expires
  let body ← toByteArray r.data
  return ⟨url, statusCode, requestTime, responseTime, version, expires, headers, ∅, body⟩

/-! ### Headers do not survive -/

def reserved : List String := ["Response-Code", "Request-Time", "Response-Time", "Version", "Expires", "URL"]

variable {ktor : Ktor Url HttpProtocolVersion}

theorem assign_cases {key text : String} {update : Variables HttpProtocolVersion → Variables HttpProtocolVersion}
    (h : assign ktor key text = some update) :
    (∀ v, (update v).headersMap = v.headersMap) ∨
      (key ∉ reserved ∧ update = fun v => { v with headersMap := v.headersMap.insert key text }) := by
  unfold assign at h
  split at h
  case h_7 =>
    cases h
    right
    refine ⟨?_, rfl⟩
    simp only [reserved, List.mem_cons, List.not_mem_nil, or_false, not_or]
    tauto
  case h_6 =>
    cases h
    exact Or.inl fun v => rfl
  all_goals
    obtain ⟨_, -, rfl⟩ := Option.map_eq_some_iff.mp h
    exact Or.inl fun v => rfl

theorem mem_insert {m : AList fun _ : String => String} {key text : String} {entry : Sigma fun _ : String => String}
    (h : entry ∈ (m.insert key text).entries) : entry = ⟨key, text⟩ ∨ entry ∈ m.entries := by
  obtain ⟨k, t⟩ := entry
  rw [← AList.mem_lookup_iff] at h ⊢
  by_cases hk : k = key
  · rw [hk, AList.lookup_insert] at h
    cases h
    exact Or.inl (by rw [hk])
  · rw [AList.lookup_insert_ne hk] at h
    exact Or.inr h

/-- The headers read are the entries that are not reserved, as texts. -/
theorem headersMap_of_read {order : List (Sigma fun _ : String => UserValue)} {v₀ v : Variables HttpProtocolVersion}
    (h : order.foldlM (readEntry ktor) v₀ = some v) :
    ∀ entry ∈ v.headersMap.entries, entry ∈ v₀.headersMap.entries ∨
      ∃ value, ⟨entry.1, value⟩ ∈ order ∧ entry.1 ∉ reserved ∧ entry.2 = value.toText := by
  induction order generalizing v₀ with
  | nil =>
    cases h
    exact fun entry hentry => Or.inl hentry
  | cons first order ih =>
    rw [List.foldlM_cons] at h
    obtain ⟨v₁, hfirst, hrest⟩ := Option.bind_eq_some_iff.mp h
    obtain ⟨update, hupdate, rfl⟩ := Option.map_eq_some_iff.mp hfirst
    intro entry hentry
    rcases ih hrest entry hentry with hold | ⟨value, hvalue, hfound⟩
    · rcases assign_cases hupdate with hsame | ⟨hkey, rfl⟩
      · rw [hsame] at hold
        exact Or.inl hold
      · rcases mem_insert hold with rfl | hold
        · exact Or.inr ⟨first.2, List.mem_cons_self, hkey, rfl⟩
        · exact Or.inl hold
    · exact Or.inr ⟨value, List.mem_cons_of_mem first hvalue, hfound⟩

/-- Every value of a header that was built comes from the map, under the same name up to case. -/
def BuiltOf (map : List (String × String)) (headers : Headers) : Prop :=
  ∀ entry ∈ headers.entries, entry.2 ≠ [] ∧
    ∀ value ∈ entry.2, ∃ name, (name, value) ∈ map ∧ lowerCase name = lowerCase entry.1

theorem BuiltOf.append {map : List (String × String)} {headers : Headers} {name value : String}
    (h : BuiltOf map headers) (hmem : (name, value) ∈ map) : BuiltOf map (headers.append name value) := by
  intro entry hentry
  unfold Headers.append at hentry
  split_ifs at hentry with hname
  · obtain ⟨old, hold, rfl⟩ := List.mem_map.mp hentry
    obtain ⟨hne, hvalues⟩ := h old hold
    split_ifs with hsame
    · refine ⟨by simp, fun value' hvalue' => ?_⟩
      rcases List.mem_append.mp hvalue' with hin | hlast
      · exact hvalues value' hin
      · rw [List.mem_singleton.mp hlast]
        exact ⟨name, hmem, hsame.symm⟩
    · exact ⟨hne, hvalues⟩
  · rcases List.mem_append.mp hentry with hold | hnew
    · exact h entry hold
    · rw [List.mem_singleton.mp hnew]
      refine ⟨by simp, fun value' hvalue' => ?_⟩
      rw [List.mem_singleton.mp hvalue']
      exact ⟨name, hmem, rfl⟩

theorem builtOf_build (map : List (String × String)) : BuiltOf map (Headers.build map) := by
  have hfold : ∀ (rest : List (String × String)) (headers : Headers), (∀ entry ∈ rest, entry ∈ map) →
      BuiltOf map headers →
      BuiltOf map (rest.foldl (fun headers entry => headers.append entry.1 entry.2) headers) := by
    intro rest
    induction rest with
    | nil => exact fun headers _ h => h
    | cons entry rest ih =>
      intro headers hrest h
      rw [List.foldl_cons]
      exact ih _ (fun e he => hrest e (List.mem_cons_of_mem entry he)) (h.append (hrest entry List.mem_cons_self))
  apply hfold map Headers.empty fun entry hentry => hentry
  intro entry hentry
  cases hentry

/-- In the dictionary, what is not reserved is the list of values of a header. -/
theorem list_of_mem_userInfo {d : CachedResponseData Url HttpProtocolVersion} {key : String} {value : UserValue}
    (h : ⟨key, value⟩ ∈ (d.toCachedURLResponse ktor).userInfo.entries) (hkey : key ∉ reserved) :
    ∃ values, value = .list values ∧ (key, values) ∈ d.headers.entries := by
  have hfold : ∀ (entries : List (String × List String)) (info : UserInfo),
      value ∈ AList.lookup key (entries.foldl (fun info entry => info.insert entry.1 (.list entry.2)) info) →
      value ∈ AList.lookup key info ∨ ∃ values, value = .list values ∧ (key, values) ∈ entries := by
    intro entries
    induction entries with
    | nil => exact fun info h => Or.inl h
    | cons entry entries ih =>
      intro info h
      rcases ih _ h with hinfo | ⟨values, hvalue, hmem⟩
      · by_cases hentry : key = entry.1
        · rw [hentry, AList.lookup_insert] at hinfo
          cases hinfo
          exact Or.inr ⟨entry.2, rfl, by rw [hentry]; exact List.mem_cons_self⟩
        · rw [AList.lookup_insert_ne hentry] at hinfo
          exact Or.inl hinfo
      · exact Or.inr ⟨values, hvalue, List.mem_cons_of_mem entry hmem⟩
  simp only [reserved, List.mem_cons, List.not_mem_nil, or_false, not_or] at hkey
  obtain ⟨hcode, hrequest, hresponse, hversion, hexpires, hurl⟩ := hkey
  rw [← AList.mem_lookup_iff] at h
  unfold CachedResponseData.toCachedURLResponse at h
  rw [AList.lookup_insert_ne hurl, AList.lookup_insert_ne hversion, AList.lookup_insert_ne hresponse,
    AList.lookup_insert_ne hrequest, AList.lookup_insert_ne hcode, AList.lookup_insert_ne hexpires] at h
  exact (hfold d.headers.entries ∅ h).resolve_left fun hempty => by cases hempty

theorem length_le_joined {values : List String} {value : String} (h : value ∈ values) :
    value.length ≤ (joined values).length := by
  induction values with
  | nil => cases h
  | cons first rest ih =>
    cases rest with
    | nil =>
      rw [List.mem_singleton.mp h]
      exact Nat.le_refl _
    | cons second rest =>
      have hlength : (joined (first :: second :: rest)).length =
          first.length + ", ".length + (joined (second :: rest)).length := by
        rw [joined, String.length_append, String.length_append]
        exact List.cons_ne_nil second rest
      rcases List.mem_cons.mp h with rfl | hrest
      · omega
      · have hle := ih hrest
        omega

/-- A value is shorter than the text of the list it stands in. -/
theorem ne_toText_of_mem {values : List String} {value : String} (h : value ∈ values) :
    value ≠ (UserValue.list values).toText := by
  intro heq
  have hle := length_le_joined h
  have hbracket : "[".length = 1 := by decide
  have hlength : (UserValue.list values).toText.length = "[".length + (joined values).length + "]".length := by
    rw [UserValue.toText, String.length_append, String.length_append]
  rw [← heq] at hlength
  omega

variable {order : List (Sigma fun _ : String => UserValue)} {d r : CachedResponseData Url HttpProtocolVersion}

/-- What becomes of a value of a header. -/
theorem headers_of_roundTrip (horder : order.Perm (d.toCachedURLResponse ktor).userInfo.entries)
    (h : toCachedResponseData ktor order (d.toCachedURLResponse ktor) = some r) :
    ∀ entry ∈ r.headers.entries, entry.2 ≠ [] ∧ ∀ value ∈ entry.2, ∃ source ∈ d.headers.entries,
      lowerCase source.1 = lowerCase entry.1 ∧ value = (UserValue.list source.2).toText := by
  unfold toCachedResponseData at h
  obtain ⟨v, hread, hrest⟩ := Option.bind_eq_some_iff.mp h
  have hheaders : r.headers = Headers.build (v.headersMap.entries.map fun entry => (entry.1, entry.2)) := by
    simp only [Option.bind_eq_bind, Option.bind_eq_some_iff] at hrest
    obtain ⟨_, -, _, -, _, -, _, -, _, -, _, -, _, -, hr⟩ := hrest
    cases hr
    rfl
  intro entry hentry
  rw [hheaders] at hentry
  obtain ⟨hne, hvalues⟩ := builtOf_build _ entry hentry
  refine ⟨hne, fun value hvalue => ?_⟩
  obtain ⟨name, hname, hcase⟩ := hvalues value hvalue
  obtain ⟨source, hsource, heq⟩ := List.mem_map.mp hname
  cases heq
  obtain ⟨stored, hstored, hkey, htext⟩ := (headersMap_of_read hread source hsource).resolve_left (by
    intro hempty
    cases hempty)
  obtain ⟨values, rfl, hmem⟩ := list_of_mem_userInfo (horder.mem_iff.mp hstored) hkey
  exact ⟨_, hmem, hcase, htext⟩

theorem no_headers_of_same (horder : order.Perm (d.toCachedURLResponse ktor).userInfo.entries)
    (h : toCachedResponseData ktor order (d.toCachedURLResponse ktor) = some r) (hsame : r.headers.Same d.headers) :
    d.headers.entries = [] := by
  rw [List.eq_nil_iff_forall_not_mem]
  intro entry hentry
  obtain ⟨hne, hvalues⟩ := headers_of_roundTrip horder h entry ((hsame entry).mpr hentry)
  obtain ⟨value, hvalue⟩ := List.exists_mem_of_ne_nil _ hne
  obtain ⟨source, hsource, hcase, htext⟩ := hvalues value hvalue
  have heq : source = entry := List.inj_on_of_nodup_map d.headers.distinct hsource hentry hcase
  rw [heq] at htext
  exact ne_toText_of_mem hvalue htext

/-! ### The other parts -/

/-- The dictionary of a response without headers. -/
theorem userInfo_of_no_headers (hheaders : d.headers.entries = []) :
    (d.toCachedURLResponse ktor).userInfo.entries =
      [⟨"URL", .text (ktor.urlText d.url)⟩, ⟨"Version", .text (ktor.versionText d.version)⟩,
        ⟨"Response-Time", .text (toString d.responseTime.timestamp.toInt)⟩,
        ⟨"Request-Time", .text (toString d.requestTime.timestamp.toInt)⟩,
        ⟨"Response-Code", .text (toString d.statusCode.value.toInt)⟩, ⟨"Expires", .text "32513272164000"⟩] := by
  unfold CachedResponseData.toCachedURLResponse
  rw [hheaders]
  rfl

theorem toGMTDate_toString (date : GMTDate) : toGMTDate (toString date.timestamp.toInt) = some date := by
  have hlow := date.timestamp.le_toInt
  have hhigh := date.timestamp.toInt_lt
  have hlong : toLong (toString date.timestamp.toInt) = some date.timestamp.toInt := by
    rw [toLong, signedValue_toString, Option.filter_some, if_pos]
    unfold longLimit
    rw [decide_eq_true_eq]
    omega
  rw [toGMTDate, hlong, Option.map_some, Int64.ofInt_toInt]

theorem stringToInt_toString (n : Int32) : stringToInt (toString n.toInt) = some n.toInt := by
  have hlow := n.le_toInt
  have hhigh := n.toInt_lt
  rw [stringToInt, signedValue_toString, Option.filter_some, if_pos]
  rw [decide_eq_true_eq]
  omega

abbrev Update (HttpProtocolVersion : Type) : Type :=
  Option (Variables HttpProtocolVersion → Variables HttpProtocolVersion)

/-- What the dictionary of a response without headers does. -/
def updates (ktor : Ktor Url HttpProtocolVersion) (d : CachedResponseData Url HttpProtocolVersion) :
    List (Update HttpProtocolVersion) :=
  [some fun v => { v with url := ktor.urlText d.url },
    (ktor.parse (ktor.versionText d.version)).map fun version v => { v with version := some version },
    some fun v => { v with responseTime := some d.responseTime },
    some fun v => { v with requestTime := some d.requestTime },
    some fun v => { v with statusCode := some ⟨d.statusCode.value, ""⟩ },
    some fun v => { v with expires := some ⟨32513272164000⟩ }]

theorem assign_of_no_headers (hheaders : d.headers.entries = []) :
    (d.toCachedURLResponse ktor).userInfo.entries.map (fun entry => assign ktor entry.1 entry.2.toText) =
      updates ktor d := by
  have hexpires : toGMTDate "32513272164000" = some ⟨32513272164000⟩ := by decide
  rw [userInfo_of_no_headers hheaders]
  simp only [List.map_cons, List.map_nil, assign, UserValue.toText, toGMTDate_toString, stringToInt_toString,
    hexpires, Option.map_some, Int32.ofInt_toInt, updates]

/-- An update, or an exception, after those before it. -/
def step (v : Option (Variables HttpProtocolVersion)) (update : Update HttpProtocolVersion) :
    Option (Variables HttpProtocolVersion) := v.bind fun v => update.map fun update => update v

theorem foldlM_readEntry (v : Variables HttpProtocolVersion) : order.foldlM (readEntry ktor) v =
    (order.map fun entry => assign ktor entry.1 entry.2.toText).foldl step (some v) := by
  have hbind : ∀ v : Option (Variables HttpProtocolVersion), (v.bind fun v => order.foldlM (readEntry ktor) v) =
      (order.map fun entry => assign ktor entry.1 entry.2.toText).foldl step v := by
    induction order with
    | nil =>
      intro v
      cases v <;> rfl
    | cons entry order ih =>
      intro v
      rw [List.map_cons, List.foldl_cons, ← ih]
      cases v with
      | none => rfl
      | some v => rw [Option.bind_some, List.foldlM_cons]; rfl
  exact hbind (some v)

theorem foldl_step_none {updates : List (Update HttpProtocolVersion)} (h : none ∈ updates)
    (v : Option (Variables HttpProtocolVersion)) : updates.foldl step v = none := by
  have hnone : ∀ updates : List (Update HttpProtocolVersion), updates.foldl step none = none := by
    intro updates
    induction updates with
    | nil => rfl
    | cons update updates ih => exact ih
  induction updates generalizing v with
  | nil => cases h
  | cons update updates ih =>
    rw [List.foldl_cons]
    rcases List.mem_cons.mp h with rfl | hrest
    · have hstep : step v none = none := by cases v <;> rfl
      rw [hstep, hnone]
    · exact ih hrest _

/-- The variables after the dictionary has been read, in whatever order. -/
theorem read_of_no_headers (hheaders : d.headers.entries = [])
    (horder : order.Perm (d.toCachedURLResponse ktor).userInfo.entries) :
    order.foldlM (readEntry ktor) {} = (ktor.parse (ktor.versionText d.version)).map fun version =>
      { url := ktor.urlText d.url
        statusCode := some ⟨d.statusCode.value, ""⟩
        requestTime := some d.requestTime
        responseTime := some d.responseTime
        version := some version
        expires := some ⟨32513272164000⟩ } := by
  have hupdates := horder.map fun entry => assign ktor entry.1 entry.2.toText
  rw [assign_of_no_headers hheaders, updates] at hupdates
  rw [foldlM_readEntry]
  cases hparse : ktor.parse (ktor.versionText d.version) with
  | none =>
    rw [hparse] at hupdates
    rw [foldl_step_none (hupdates.mem_iff.mpr (by simp))]
    rfl
  | some version =>
    rw [hparse] at hupdates
    rw [hupdates.foldl_eq']
    · rfl
    · intro a ha b hb v
      rw [hupdates.mem_iff] at ha hb
      simp only [List.mem_cons, List.not_mem_nil, or_false, Option.map_some] at ha hb
      rcases ha with rfl | rfl | rfl | rfl | rfl | rfl <;> rcases hb with rfl | rfl | rfl | rfl | rfl | rfl <;>
        cases v <;> rfl

theorem roundTrip_of_no_headers (hheaders : d.headers.entries = [])
    (horder : order.Perm (d.toCachedURLResponse ktor).userInfo.entries) :
    toCachedResponseData ktor order (d.toCachedURLResponse ktor) =
      (ktor.parse (ktor.versionText d.version)).bind fun version =>
        (ktor.url (ktor.urlText d.url)).bind fun url => (toByteArray d.body).map fun body =>
          { url, version, body
            statusCode := ⟨d.statusCode.value, ""⟩
            requestTime := d.requestTime
            responseTime := d.responseTime
            expires := ⟨32513272164000⟩
            headers := .empty
            varyKeys := ∅ } := by
  have hdata : (d.toCachedURLResponse ktor).data = d.body := rfl
  unfold toCachedResponseData
  rw [read_of_no_headers hheaders horder, hdata]
  cases ktor.parse (ktor.versionText d.version) with
  | none => rfl
  | some version =>
    simp only [Option.map_some, Option.bind_eq_bind, Option.bind_some]
    cases ktor.url (ktor.urlText d.url) with
    | none => rfl
    | some url => cases toByteArray d.body <;> rfl

/-! ### What survives -/

/-- Two responses agree; status codes are compared by their number. -/
structure SameAs (r d : CachedResponseData Url HttpProtocolVersion) : Prop where
  url : r.url = d.url
  statusCode : r.statusCode.value = d.statusCode.value
  requestTime : r.requestTime = d.requestTime
  responseTime : r.responseTime = d.responseTime
  version : r.version = d.version
  headers : r.headers.Same d.headers
  varyKeys : r.varyKeys = d.varyKeys
  body : r.body = d.body
  expires : r.expires = ⟨32513272164000⟩

/-- The response comes back from the dictionary, read in this order, as it went in. -/
def Survives (ktor : Ktor Url HttpProtocolVersion) (order : List (Sigma fun _ : String => UserValue))
    (d : CachedResponseData Url HttpProtocolVersion) : Prop :=
  ∃ r, toCachedResponseData ktor order (d.toCachedURLResponse ktor) = some r ∧ SameAs r d

theorem toByteArray_eq_some {data body : List UInt8} : toByteArray data = some body ↔ data ≠ [] ∧ body = data := by
  unfold toByteArray
  cases data with
  | nil => simp
  | cons b data => simp [eq_comm]

/-- Only a response with a body and without headers and vary keys survives. -/
theorem survives_iff (horder : order.Perm (d.toCachedURLResponse ktor).userInfo.entries) :
    Survives ktor order d ↔ d.headers.entries = [] ∧ d.varyKeys = ∅ ∧ d.body ≠ [] ∧
      ktor.url (ktor.urlText d.url) = some d.url ∧ ktor.parse (ktor.versionText d.version) = some d.version := by
  constructor
  · rintro ⟨r, h, hsame⟩
    have hheaders := no_headers_of_same horder h hsame.headers
    rw [roundTrip_of_no_headers hheaders horder] at h
    obtain ⟨version, hversion, h⟩ := Option.bind_eq_some_iff.mp h
    obtain ⟨url, hurl, h⟩ := Option.bind_eq_some_iff.mp h
    obtain ⟨body, hbody, rfl⟩ := Option.map_eq_some_iff.mp h
    have hsameUrl : url = d.url := hsame.url
    have hsameVersion : version = d.version := hsame.version
    rw [hsameUrl] at hurl
    rw [hsameVersion] at hversion
    exact ⟨hheaders, hsame.varyKeys.symm, (toByteArray_eq_some.mp hbody).1, hurl, hversion⟩
  · rintro ⟨hheaders, hvaryKeys, hbody, hurl, hversion⟩
    have hdata : toByteArray d.body = some d.body := toByteArray_eq_some.mpr ⟨hbody, rfl⟩
    have hread := roundTrip_of_no_headers hheaders horder
    rw [hversion, Option.bind_some, hurl, Option.bind_some, hdata, Option.map_some] at hread
    refine ⟨_, hread, rfl, rfl, rfl, rfl, rfl, ?_, hvaryKeys.symm, rfl, rfl⟩
    intro entry
    rw [hheaders]
    exact Iff.rfl

/-- A brand, with the given headers. -/
private def brandResponse (headers : Headers) : CachedResponseData String String where
  url := "https://cigars.p.rapidapi.com/brands/7"
  statusCode := ⟨200, "OK"⟩
  requestTime := ⟨1700000000000⟩
  responseTime := ⟨1700000000250⟩
  version := "HTTP/1.1"
  expires := ⟨1700000060000⟩
  headers := headers
  varyKeys := ∅
  body := [123, 125]

private def plainKtor : Ktor String String := ⟨id, some, id, some⟩

theorem survives_bare : Survives plainKtor
    ((brandResponse .empty).toCachedURLResponse plainKtor).userInfo.entries (brandResponse .empty) :=
  (survives_iff (List.Perm.refl _)).mpr ⟨rfl, rfl, by decide, rfl, rfl⟩

private def contentType : Headers := ⟨[("Content-Type", ["application/json"])], by decide⟩

/-- The value of a header comes back in brackets. -/
theorem not_survives_contentType : ¬Survives plainKtor
    ((brandResponse contentType).toCachedURLResponse plainKtor).userInfo.entries (brandResponse contentType) := by
  rintro ⟨r, h, hsame⟩
  have hheaders := no_headers_of_same (List.Perm.refl _) h hsame.headers
  cases hheaders

end NSCachedURLResponse
end Cigars
