import Cigars.Collections.Basic
import Cigars.Repository.Local
import Cigars.Text.Basic
import Cigars.Text.PercentEncoding

/-! The address of a page of search results. The values of the fields are put into it as they are,
and the address is percent-encoded as a whole. -/
namespace Cigars
open Text

/-- The value in a string template; `doubleText` is the platform's `Double.toString()`. -/
def FilterValue.toText (doubleText : ℚ → String) : FilterValue → String
  | int value => toString value
  | long value => toString value
  | double value => doubleText value
  | boolean value => toString value
  | other text => text

namespace GetCigarsRequest

def BASE_URL : String := "https://cigars.p.rapidapi.com/cigars?"

variable (doubleText : ℚ → String)

/-- What a field adds to the address; the last branch has the value `Unit`, which is appended by its
`toString`. -/
def fieldText (field : FilterParameter FilterValue) : String :=
  let value := field.value.toText doubleText
  match field.key with
  | "name" => "&name=" ++ value
  | "brand" => "&brandId=" ++ value
  | "country" => "&country=" ++ value
  | "filler" => "&filler=" ++ value
  | "wrapper" => "&wrapper=" ++ value
  | "color" => "&color=" ++ value
  | "strength" => "&strength=" ++ value
  | _ => "kotlin.Unit"

/-- The address of `restRequest`. -/
def url (page : Int32) (fields : FiltersList) : String :=
  fields.foldl (fun url field => url ++ fieldText doubleText field) (BASE_URL ++ "page=" ++ toString page.toInt)

/-- The address `RestRequest.run` sends; `unescaped` are the bytes that `encodeURLQueryComponent`
leaves as they are. -/
def sent (unescaped : UInt8 → Bool) (page : Int32) (fields : FiltersList) : List UInt8 :=
  encode unescaped (utf8 (url doubleText page fields))

/-! ### What is asked -/

/-- The API's name for a field. -/
def apiName : String → Option String
  | "name" => some "name"
  | "brand" => some "brandId"
  | "country" => some "country"
  | "filler" => some "filler"
  | "wrapper" => some "wrapper"
  | "color" => some "color"
  | "strength" => some "strength"
  | _ => none

/-- The page and the fields the API knows. -/
def asked (page : Int32) (fields : FiltersList) : List (String × String) :=
  ("page", toString page.toInt) :: fields.filterMap fun field =>
    (apiName field.key).map fun name => (name, field.value.toText doubleText)

/-- Names and values as bytes. -/
def bytes (pair : String × String) : List UInt8 × List UInt8 := (utf8 pair.1, utf8 pair.2)

/-- The query says exactly what is asked. -/
def Says (unescaped : UInt8 → Bool) (page : Int32) (fields : FiltersList) : Prop :=
  pairs (sent doubleText unescaped page fields) =
    ((asked doubleText page fields).map bytes).map fun pair => (pair.1, some pair.2)

/-! ### The address -/

variable {doubleText : ℚ → String} {field : FilterParameter FilterValue} {name : String}

theorem fieldText_of_apiName (h : apiName field.key = some name) :
    fieldText doubleText field = "&" ++ name ++ "=" ++ field.value.toText doubleText := by
  unfold apiName at h
  unfold fieldText
  split at h <;> cases h <;> simp only [*] <;> rfl

theorem fieldText_of_none (h : apiName field.key = none) : fieldText doubleText field = "kotlin.Unit" := by
  unfold apiName at h
  unfold fieldText
  split at h
  all_goals first | exact absurd h (Option.some_ne_none _) | simp only [*]

theorem apiName_clean {key : String} (h : apiName key = some name) :
    hash ∉ utf8 name ∧ ampersand ∉ utf8 name ∧ equalsSign ∉ utf8 name := by
  unfold apiName at h
  split at h <;> cases h <;> decide

/-- What a field the API knows should add to the query. -/
def wanted (doubleText : ℚ → String) (field : FilterParameter FilterValue) : List UInt8 :=
  match apiName field.key with
  | some name => ampersand :: assignment (bytes (name, field.value.toText doubleText))
  | none => []

theorem utf8_fieldText (h : apiName field.key = some name) :
    utf8 (fieldText doubleText field) = ampersand :: assignment (bytes (name, field.value.toText doubleText)) := by
  have hampersand : utf8 "&" = [ampersand] := by decide
  have hequals : utf8 "=" = [equalsSign] := by decide
  rw [fieldText_of_apiName h, utf8_append, utf8_append, utf8_append, hampersand, hequals]
  simp [assignment, bytes]

theorem wanted_of_apiName (h : apiName field.key = some name) :
    wanted doubleText field = utf8 (fieldText doubleText field) := by
  rw [utf8_fieldText h, wanted, h]

/-- The query without the `page`. -/
def fieldsBytes (doubleText : ℚ → String) (fields : FiltersList) : List UInt8 :=
  fields.flatMap fun field => utf8 (fieldText doubleText field)

def pageBytes (page : Int32) : List UInt8 := assignment (bytes ("page", toString page.toInt))

theorem query_url (page : Int32) (fields : FiltersList) : query (utf8 (url doubleText page fields)) =
    (pageBytes page ++ fieldsBytes doubleText fields).takeWhile (· != hash) := by
  have hfold : ∀ start : String, utf8 (fields.foldl (fun url field => url ++ fieldText doubleText field) start) =
      utf8 start ++ fieldsBytes doubleText fields := by
    unfold fieldsBytes
    induction fields with
    | nil => simp
    | cons field fields ih =>
      intro start
      rw [List.foldl_cons, ih, utf8_append, List.flatMap_cons, List.append_assoc]
  have hbase : utf8 BASE_URL = utf8 "https://cigars.p.rapidapi.com/cigars" ++ [questionMark] := by decide
  have hpage : utf8 "page=" = utf8 "page" ++ [equalsSign] := by decide
  have hurl : utf8 (url doubleText page fields) = utf8 "https://cigars.p.rapidapi.com/cigars" ++
      questionMark :: (pageBytes page ++ fieldsBytes doubleText fields) := by
    unfold url pageBytes assignment bytes
    rw [hfold, utf8_append, utf8_append, hbase, hpage]
    simp
  rw [hurl, query_append (by decide)]

theorem asked_bytes (page : Int32) (fields : FiltersList) :
    [ampersand].intercalate (((asked doubleText page fields).map bytes).map assignment) =
      pageBytes page ++ fields.flatMap (wanted doubleText) := by
  unfold asked
  rw [List.map_cons, List.map_cons, intercalate_cons]
  refine congrArg (pageBytes page ++ ·) ?_
  induction fields with
  | nil => rfl
  | cons field fields ih =>
    rw [List.flatMap_cons, ← ih, wanted]
    cases h : apiName field.key with
    | none => simp [h]
    | some name => simp [h]

theorem pageBytes_clean (page : Int32) : hash ∉ pageBytes page ∧ ampersand ∉ pageBytes page := by
  have hnumber : ∀ c : Char, c.toNat < 128 → c ≠ '-' → c.isDigit = false →
      UInt8.ofNat c.toNat ∉ utf8 (toString page.toInt) := by
    intro c hc hminus hdigit hmem
    rcases mem_toString ((mem_utf8_iff hc).mp hmem) with h | h
    · exact hminus h
    · rw [hdigit] at h
      cases h
  have hhash := hnumber '#' (by decide) (by decide) (by decide)
  have hampersand := hnumber '&' (by decide) (by decide) (by decide)
  have hname : hash ∉ utf8 "page" ∧ ampersand ∉ utf8 "page" := by decide
  have hequals : hash ≠ equalsSign ∧ ampersand ≠ equalsSign := by decide
  unfold pageBytes assignment bytes
  simp only [List.mem_append, List.mem_cons, not_or]
  exact ⟨⟨hname.1, hequals.1, hhash⟩, hname.2, hequals.2, hampersand⟩

/-! ### When the query says what is asked -/

/-- The API knows the field, and its value has no delimiter in it. -/
def Plain (doubleText : ℚ → String) (field : FilterParameter FilterValue) : Prop :=
  (apiName field.key).isSome = true ∧ '&' ∉ (field.value.toText doubleText).toList ∧
    '#' ∉ (field.value.toText doubleText).toList

theorem value_clean_iff {d : UInt8} {c : Char} (hc : c.toNat < 128) (hd : d = UInt8.ofNat c.toNat) (text : String) :
    d ∉ utf8 text ↔ c ∉ text.toList := by
  rw [hd, mem_utf8_iff hc]

/-- If nothing but what is wanted was added, the API knows every field. -/
theorem known_of_fieldsBytes {fields : FiltersList}
    (h : fieldsBytes doubleText fields = fields.flatMap (wanted doubleText)) :
    ∀ field ∈ fields, (apiName field.key).isSome = true := by
  have hle : ∀ field, (wanted doubleText field).length ≤ (utf8 (fieldText doubleText field)).length := by
    intro field
    cases hname : apiName field.key with
    | none => simp [wanted, hname]
    | some name => rw [wanted_of_apiName hname]
  have heq := (Collections.length_flatMap_eq (l := fields) hle).2 (congrArg List.length h)
  intro field hfield
  cases hname : apiName field.key with
  | some name => rfl
  | none =>
    have hlength := heq field hfield
    have hunit : (utf8 "kotlin.Unit").length = 11 := by decide
    rw [fieldText_of_none hname, hunit, wanted, hname] at hlength
    cases hlength

theorem hash_notMem_fieldText (h : hash ∉ wanted doubleText field) : hash ∉ utf8 (fieldText doubleText field) := by
  cases hname : apiName field.key with
  | none =>
    rw [fieldText_of_none hname]
    decide
  | some name =>
    rwa [← wanted_of_apiName hname]

theorem plain_iff_wanted (h : (apiName field.key).isSome = true) : Plain doubleText field ↔
    hash ∉ wanted doubleText field ∧ ∃ name, apiName field.key = some name ∧
      ampersand ∉ assignment (bytes (name, field.value.toText doubleText)) := by
  obtain ⟨name, hname⟩ := Option.isSome_iff_exists.mp h
  obtain ⟨hhash, hampersand, -⟩ := apiName_clean hname
  have hdelimiters : hash ≠ ampersand ∧ hash ≠ equalsSign ∧ ampersand ≠ equalsSign := by decide
  have hvalue (text : String) := value_clean_iff (c := '&') (d := ampersand) (by decide) (by decide) text
  have hvalue' (text : String) := value_clean_iff (c := '#') (d := hash) (by decide) (by decide) text
  unfold Plain
  rw [← hvalue, ← hvalue', wanted, hname]
  simp only [Option.isSome_some, true_and, Option.some.injEq, exists_eq_left', assignment, bytes, List.mem_cons,
    List.mem_append, not_or]
  tauto

theorem hash_notMem_fieldsBytes {fields : FiltersList} (h : hash ∉ fields.flatMap (wanted doubleText)) :
    hash ∉ fieldsBytes doubleText fields := by
  intro hmem
  obtain ⟨field, hfield, hbyte⟩ := List.mem_flatMap.mp hmem
  refine hash_notMem_fieldText (fun hwanted => ?_) hbyte
  exact h (List.mem_flatMap.mpr ⟨field, hfield, hwanted⟩)

theorem mem_asked {page : Int32} {fields : FiltersList} {pair : String × String} :
    pair ∈ asked doubleText page fields ↔ pair = ("page", toString page.toInt) ∨ ∃ field ∈ fields, ∃ name,
      apiName field.key = some name ∧ pair = (name, field.value.toText doubleText) := by
  unfold asked
  rw [List.mem_cons, List.mem_filterMap]
  refine or_congr_right (exists_congr fun field => and_congr_right fun _ => ?_)
  rw [Option.map_eq_some_iff]
  exact exists_congr fun name => and_congr_right fun _ => eq_comm

/-- What a query must be to say what is asked. -/
def QueryRight (doubleText : ℚ → String) (page : Int32) (fields : FiltersList) : Prop :=
  (pageBytes page ++ fieldsBytes doubleText fields).takeWhile (· != hash) =
    pageBytes page ++ fields.flatMap (wanted doubleText)

/-- No part of the query is cut by a delimiter. -/
def Uncut (pair : String × String) : Prop := equalsSign ∉ utf8 pair.1 ∧ ampersand ∉ assignment (bytes pair)

theorem says_iff_query {unescaped : UInt8 → Bool} (henc : QueryEncoding unescaped) (page : Int32)
    (fields : FiltersList) : Says doubleText unescaped page fields ↔
      QueryRight doubleText page fields ∧ ∀ pair ∈ asked doubleText page fields, Uncut pair := by
  have hne : (asked doubleText page fields).map bytes ≠ [] := by simp [asked]
  unfold Says sent QueryRight Uncut
  rw [henc.pairs_encode, rawPairs_eq_iff hne, query_url, asked_bytes, List.forall_mem_map]
  rfl

theorem QueryRight.clean {page : Int32} {fields : FiltersList} (h : QueryRight doubleText page fields) :
    hash ∉ fields.flatMap (wanted doubleText) ∧
      fieldsBytes doubleText fields = fields.flatMap (wanted doubleText) := by
  unfold QueryRight at h
  have hclean : hash ∉ pageBytes page ++ fields.flatMap (wanted doubleText) := by
    rw [← h]
    exact notMem_takeWhile hash _
  obtain ⟨hpage, hwanted⟩ := not_or.mp (mt List.mem_append.mpr hclean)
  have hwhole : hash ∉ pageBytes page ++ fieldsBytes doubleText fields := by
    rw [List.mem_append, not_or]
    exact ⟨hpage, hash_notMem_fieldsBytes hwanted⟩
  rw [takeWhile_of_notMem hwhole] at h
  exact ⟨hwanted, List.append_cancel_left h⟩

theorem queryRight_of_plain {page : Int32} {fields : FiltersList} (h : ∀ field ∈ fields, Plain doubleText field) :
    QueryRight doubleText page fields := by
  have hfields : fieldsBytes doubleText fields = fields.flatMap (wanted doubleText) := by
    apply List.flatMap_congr
    intro field hfield
    obtain ⟨name, hname⟩ := Option.isSome_iff_exists.mp (h field hfield).1
    rw [wanted_of_apiName hname]
  have hwanted : hash ∉ fields.flatMap (wanted doubleText) := by
    intro hmem
    obtain ⟨field, hfield, hbyte⟩ := List.mem_flatMap.mp hmem
    exact ((plain_iff_wanted (h field hfield).1).mp (h field hfield)).1 hbyte
  unfold QueryRight
  rw [hfields]
  apply takeWhile_of_notMem
  rw [List.mem_append, not_or]
  exact ⟨(pageBytes_clean page).1, hwanted⟩

theorem uncut_of_plain {page : Int32} {fields : FiltersList} (h : ∀ field ∈ fields, Plain doubleText field) :
    ∀ pair ∈ asked doubleText page fields, Uncut pair := by
  intro pair hpair
  rcases mem_asked.mp hpair with rfl | ⟨field, hfield, name, hname, rfl⟩
  · refine ⟨?_, (pageBytes_clean page).2⟩
    simp only
    decide
  · obtain ⟨-, name', hname', hampersand⟩ := (plain_iff_wanted (h field hfield).1).mp (h field hfield)
    rw [hname] at hname'
    cases hname'
    exact ⟨(apiName_clean hname).2.2, hampersand⟩

/-- A query says what is asked exactly if the API knows all fields and no value has a delimiter. -/
theorem says_iff {unescaped : UInt8 → Bool} (henc : QueryEncoding unescaped) (page : Int32) (fields : FiltersList) :
    Says doubleText unescaped page fields ↔ ∀ field ∈ fields, Plain doubleText field := by
  rw [says_iff_query henc]
  constructor
  · rintro ⟨hquery, huncut⟩ field hfield
    obtain ⟨hwanted, hfields⟩ := hquery.clean
    have hknown := known_of_fieldsBytes hfields field hfield
    rw [plain_iff_wanted hknown]
    obtain ⟨name, hname⟩ := Option.isSome_iff_exists.mp hknown
    have hasked : (name, field.value.toText doubleText) ∈ asked doubleText page fields :=
      mem_asked.mpr (Or.inr ⟨field, hfield, name, hname, rfl⟩)
    refine ⟨fun hmem => hwanted (List.mem_flatMap.mpr ⟨field, hfield, hmem⟩), name, hname, ?_⟩
    exact (huncut _ hasked).2
  · intro hplain
    exact ⟨queryRight_of_plain hplain, uncut_of_plain hplain⟩

/-- Letters, digits and the reserved characters are left as they are. -/
private def ktorUnescaped (b : UInt8) : Bool :=
  (48 ≤ b && b ≤ 57) || (65 ≤ b && b ≤ 90) || (97 ≤ b && b ≤ 122) || (utf8 ":/?#[]@!$&'()*,;=-._~+").contains b

/-- A search by name and country. -/
theorem says_cohibaSiglo : Says (fun _ => "") ktorUnescaped 1
    [⟨"name", .other "Cohiba Siglo 100%"⟩, ⟨"country", .other "Cuba"⟩] := by
  refine (says_iff ⟨?_, ?_⟩ 1 _).mpr ?_
  · intro d hd
    simp only [List.mem_cons, List.not_mem_nil, or_false] at hd
    rcases hd with rfl | rfl | rfl | rfl <;> decide
  · decide
  · unfold Plain
    decide

/-- The value ends at an ampersand, and a gauge is appended to the value before it. -/
theorem not_says_ampersand_gauge :
    ¬Says (fun _ => "") ktorUnescaped 1 [⟨"name", .other "A&B"⟩] ∧
      ¬Says (fun _ => "") ktorUnescaped 1 [⟨"name", .other "A"⟩, ⟨"gauge", .long 50⟩] := by
  unfold Says
  constructor
  · decide +kernel
  · decide +kernel

end GetCigarsRequest
end Cigars
