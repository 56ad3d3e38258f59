import Cigars.Transformations.Basic
import Mathlib.Data.Int.ConditionallyCompleteOrder
import Mathlib.Order.Interval.Set.Defs

/-! Whole numbers in a text field. The field accepts what is a `Long`, and shows the longest start of
the text that is as a `Double` below the largest `Long`. -/
namespace Cigars
open Text FloatingPoint

/-! ### Texts of a `Long` -/

theorem toNat_ofNat {u : ℕ} (h : u < 128) : (Char.ofNat u).toNat = u := by
  have hall : ∀ u < 128, (Char.ofNat u).toNat = u := by decide
  exact hall u h

theorem isDigit_ofNat {u : ℕ} (h : u < 128) (hdigit : (Char.ofNat u).isDigit = true) : Text.isDigit u = true := by
  have hnat := toNat_ofNat h
  simp only [Char.isDigit, ge_iff_le, Bool.and_eq_true, decide_eq_true_eq, UInt32.le_iff_toNat_le] at hdigit
  rw [isDigit_iff]
  change 48 ≤ (Char.ofNat u).toNat ∧ (Char.ofNat u).toNat ≤ 57 at hdigit
  rwa [hnat] at hdigit

theorem ofDigitChars_eq_value {digits : List ℕ} (hascii : ∀ u ∈ digits, u < 128)
    (hdigits : ∀ u ∈ digits, Text.isDigit u = true) :
    Nat.ofDigitChars 10 (digits.map Char.ofNat) 0 = value 10 digits := by
  rw [Nat.ofDigitChars_eq_foldl, List.foldl_map]
  induction digits using List.reverseRecOn with
  | nil => rfl
  | append_singleton digits u ih =>
    have hu := hdigits u (by simp)
    have hbounds := isDigit_iff.mp hu
    have hvalue := (digitValue_lt hu).2
    rw [List.foldl_append, ih (fun v hv => hascii v (by simp [hv])) (fun v hv => hdigits v (by simp [hv])),
      value_concat, List.foldl_cons, List.foldl_nil, toNat_ofNat (hascii u (by simp))]
    change 10 * value 10 digits + (u - 48) = _
    omega

theorem digits_of_digitsValue {digits : List ℕ} (hascii : ∀ u ∈ digits, u < 128) {f : ℤ → ℤ} {n : ℤ}
    (h : ((digitsValue (digits.map Char.ofNat)).bind fun m => some (m : ℤ)).map f = some n) :
    digits ≠ [] ∧ (∀ u ∈ digits, Text.isDigit u = true) ∧ n = f (value 10 digits) := by
  simp only [Option.map_eq_some_iff, Option.bind_eq_some_iff, Option.some.injEq] at h
  obtain ⟨_, ⟨m, hm, rfl⟩, rfl⟩ := h
  have hchars : ∀ c ∈ digits.map Char.ofNat, c.toNat < 128 := by
    intro c hc
    obtain ⟨u, hu, rfl⟩ := List.mem_map.mp hc
    rw [toNat_ofNat (hascii u hu)]
    exact hascii u hu
  obtain ⟨hne, hchars⟩ := isDigit_of_digitsValue hchars hm
  have hdigits : ∀ u ∈ digits, Text.isDigit u = true := by
    intro u hu
    exact isDigit_ofNat (hascii u hu) (hchars _ (List.mem_map_of_mem hu))
  rw [digitsValue_eq hne hchars, Option.some.injEq, ofDigitChars_eq_value hascii hdigits] at hm
  exact ⟨by simpa using hne, hdigits, by rw [hm]⟩

/-- A sign, if any, and digits. -/
theorem exists_of_toLong {text : List ℕ} (hascii : ∀ u ∈ text, u < 128) {n : ℤ}
    (h : toLong (ofUnits text) = some n) :
    ∃ sign digits, text = sign ++ digits ∧ AtMostOne isSign sign ∧ digits ≠ [] ∧
      (∀ u ∈ digits, Text.isDigit u = true) ∧ (n : ℚ) = signed sign (value 10 digits) := by
  rw [toLong, Option.filter_eq_some_iff] at h
  have hvalue := h.1
  have hlist : (ofUnits text).toList = text.map Char.ofNat := String.toList_ofList
  have hsign : ∀ {c : Char} {chars : List Char}, text.map Char.ofNat = c :: chars → c.toNat < 128 →
      ∃ rest, text = c.toNat :: rest ∧ chars = rest.map Char.ofNat := by
    intro c chars hcons hc
    obtain ⟨u, rest, rfl, rfl, rfl⟩ := List.map_eq_cons_iff.mp hcons
    rw [toNat_ofNat (hascii u (by simp))]
    exact ⟨rest, rfl, rfl⟩
  unfold signedValue at hvalue
  rw [hlist] at hvalue
  split at hvalue
  · rename_i chars hcons
    obtain ⟨digits, rfl, rfl⟩ := hsign hcons (by decide)
    obtain ⟨hne, hdigits, rfl⟩ := digits_of_digitsValue (fun u hu => hascii u (List.mem_cons_of_mem _ hu)) hvalue
    exact ⟨[45], digits, rfl, by decide, hne, hdigits, by simp [signed]⟩
  · rename_i chars hcons
    obtain ⟨digits, rfl, rfl⟩ := hsign hcons (by decide)
    obtain ⟨hne, hdigits, rfl⟩ := digits_of_digitsValue (fun u hu => hascii u (List.mem_cons_of_mem _ hu)) hvalue
    exact ⟨[43], digits, rfl, by decide, hne, hdigits, by simp [signed]⟩
  · obtain ⟨hne, hdigits, rfl⟩ := digits_of_digitsValue hascii hvalue
    exact ⟨[], text, rfl, by decide, hne, hdigits, by simp [signed]⟩

namespace NumberVisualTransformation

/-! ### Numbers below the largest `Long` -/

/-- Halfway between the last `Double` below `2 ^ 63` and `2 ^ 63`. -/
def lastMidpoint : ℤ := longLimit - 512

theorem nearest_maxValue : binary64.nearest (longLimit - 1) = 2 ^ 63 := by
  have hlow : (2 : ℚ) ^ ((10 : ℤ) + binary64.bits - 1) ≤ longLimit - 1 := by norm_num [binary64, longLimit]
  have hhigh : (longLimit - 1 : ℚ) < 2 ^ ((10 : ℤ) + binary64.bits) := by norm_num [binary64, longLimit]
  have hle := binary64.nearest_le (by decide) hlow hhigh
  have hlt := binary64.nearest_lt_iff (by decide) (by decide) hlow hhigh
  have hpow : (2 : ℚ) ^ ((10 : ℤ) + binary64.bits) = 2 ^ 63 := by norm_num [binary64]
  rw [hpow] at hle hlt
  apply le_antisymm hle
  rw [← not_lt, hlt]
  norm_num [longLimit]

theorem abs_nearest_lt {n : ℤ} (hlow : -longLimit ≤ n) (hhigh : n < longLimit) :
    |binary64.nearest n| < 2 ^ binary64.limit ∧ |binary64.nearest n - n| ≤ 1024 := by
  have hrange : |(n : ℚ)| ≤ 2 ^ 63 := by
    have habs : |n| ≤ 2 ^ 63 := by
      rw [abs_le]
      unfold longLimit at hlow hhigh
      omega
    exact_mod_cast habs
  have hbelow : |(n : ℚ)| < 2 ^ (64 : ℤ) := lt_of_le_of_lt hrange (by norm_num)
  have herror := binary64.abs_nearest_sub_le (by decide) hbelow
  have hulp : (2 : ℚ) ^ ((64 : ℤ) - binary64.bits) / 2 = 1024 := by norm_num [binary64]
  rw [hulp] at herror
  have hlimit : (2 : ℚ) ^ (64 : ℤ) ≤ 2 ^ binary64.limit := zpow_le_zpow_right₀ (by norm_num) (by decide)
  have hnearest : |binary64.nearest n| ≤ |(n : ℚ)| + 1024 := by
    have htriangle := abs_add_le (binary64.nearest n - n) n
    rw [sub_add_cancel] at htriangle
    linarith
  have hpow : (2 : ℚ) ^ (63 : ℕ) + 1024 < 2 ^ (64 : ℤ) := by norm_num
  exact ⟨by linarith, herror⟩

theorem lt_maxValue_iff {n : ℤ} (hlow : -longLimit ≤ n) (hhigh : n < longLimit) :
    (Number.ofRat binary64 n).lt maxValue = true ↔ n < lastMidpoint := by
  obtain ⟨hfinite, herror⟩ := abs_nearest_lt hlow hhigh
  have hmax : |binary64.nearest (longLimit - 1)| < 2 ^ binary64.limit := by
    have hlast := (abs_nearest_lt (n := longLimit - 1) (by decide) (by decide)).1
    push_cast at hlast
    exact hlast
  rw [maxValue, Number.lt_ofRat_iff hfinite hmax, nearest_maxValue]
  by_cases hsmall : n < 2 ^ 62
  · have hupper := (abs_le.mp herror).2
    have hcast : (n : ℚ) < 2 ^ 62 := by exact_mod_cast hsmall
    apply iff_of_true
    · norm_num at hcast ⊢
      linarith
    · unfold lastMidpoint longLimit
      omega
  · have hlow' : (2 : ℚ) ^ ((10 : ℤ) + binary64.bits - 1) ≤ n := by
      have hcast : (2 : ℚ) ^ 62 ≤ n := by exact_mod_cast not_lt.mp hsmall
      norm_num [binary64] at hcast ⊢
      exact hcast
    have hpow : (2 : ℚ) ^ ((10 : ℤ) + binary64.bits) = 2 ^ 63 := by norm_num [binary64]
    have hhigh' : (n : ℚ) < 2 ^ ((10 : ℤ) + binary64.bits) := by
      rw [hpow]
      exact_mod_cast (show n < 2 ^ 63 from hhigh)
    have hiff := binary64.nearest_lt_iff (by decide) (by decide) hlow' hhigh'
    have hmidpoint : (2 : ℚ) ^ 63 - 2 ^ (10 : ℤ) / 2 = (lastMidpoint : ℤ) := by norm_num [lastMidpoint, longLimit]
    rw [hpow, hmidpoint] at hiff
    rw [hiff]
    exact_mod_cast Iff.rfl

/-! ### The longest start -/

/-- The body of the loop, for one start of the text. -/
def shown (start : List ℕ) : Option (List ℕ) :=
  (toDouble start).bind fun num => if num.lt maxValue then some start else none

theorem toTransformed_concat (front : List ℕ) (u : ℕ) :
    toTransformed (front ++ [u]) = (shown (front ++ [u])).getD (toTransformed front) := by
  have hstarts : ∀ i, (front ++ [u]).take ((front ++ [u]).length - (i + 1)) = front.take (front.length - i) := by
    intro i
    have hlength : (front ++ [u]).length - (i + 1) = front.length - i := by
      rw [List.length_append, List.length_singleton]
      omega
    rw [hlength, List.take_append_of_le_length (by omega)]
  have hlength : (front ++ [u]).length = front.length + 1 := by simp
  have hfirst : (front ++ [u]).take ((front ++ [u]).length - 0) = front ++ [u] := by simp
  unfold toTransformed
  rw [hlength, List.range_succ_eq_map, List.findSome?_cons, List.findSome?_map, ← hlength]
  simp only [Function.comp_def, hfirst, Nat.succ_eq_add_one, hstarts]
  unfold shown
  split
  · rename_i start hstart
    rw [hstart]
    rfl
  · rename_i hstart
    rw [hstart]
    rfl

theorem toTransformed_of_shown {text : List ℕ} (h : shown text = some text) : toTransformed text = text := by
  rcases List.eq_nil_or_concat' text with rfl | ⟨front, u, rfl⟩
  · rfl
  · rw [toTransformed_concat, h, Option.getD_some]

theorem shown_integer {sign digits : List ℕ} (hsign : AtMostOne isSign sign) (hne : digits ≠ [])
    (hdigits : ∀ u ∈ digits, Text.isDigit u = true) {n : ℤ} (hvalue : (n : ℚ) = signed sign (value 10 digits))
    (hlow : -longLimit ≤ n) (hhigh : n < longLimit) :
    shown (sign ++ digits) = if n < lastMidpoint then some (sign ++ digits) else none := by
  have hparse : toDouble (sign ++ digits) = some (.ofSigned binary64 (sign = [45]) n) := by
    rw [toDouble, parse_integer binary64 hsign hdigits hne, hvalue]
  rw [shown, hparse, Option.bind_some]
  simp only [Number.ofSigned_lt, lt_maxValue_iff hlow hhigh]

/-- A text of a number is kept, unless the number is rounded to the largest one or above; then the
last digit is dropped. -/
theorem toTransformed_of_toLong {text : List ℕ} (hascii : ∀ u ∈ text, u < 128) {n : ℤ}
    (h : toLong (ofUnits text) = some n) :
    toTransformed text = if n < lastMidpoint then text else text.dropLast := by
  obtain ⟨sign, digits, rfl, hsign, hne, hdigits, hvalue⟩ := exists_of_toLong hascii h
  obtain ⟨hlow, hhigh⟩ := of_decide_eq_true (Option.filter_eq_some_iff.mp h).2
  have hshown := shown_integer hsign hne hdigits hvalue hlow hhigh
  by_cases hbelow : n < lastMidpoint
  · rw [if_pos hbelow] at hshown ⊢
    exact toTransformed_of_shown hshown
  · rw [if_neg hbelow] at hshown ⊢
    obtain ⟨front, u, rfl⟩ := (List.eq_nil_or_concat' digits).resolve_left hne
    rw [← List.append_assoc] at hshown ⊢
    rw [toTransformed_concat, hshown, Option.getD_none, List.dropLast_concat]
    -- The number is positive, so the digits before the last stand for a tenth of it.
    have hplus : sign ≠ [45] := by
      intro hminus
      rw [signed, if_pos hminus] at hvalue
      have hneg : n = -(value 10 (front ++ [u]) : ℤ) := by exact_mod_cast hvalue
      unfold lastMidpoint longLimit at hbelow
      omega
    rw [signed, if_neg hplus] at hvalue
    have hsum : n = value 10 front * 10 + digitValue u := by
      rw [value_concat] at hvalue
      exact_mod_cast hvalue
    have hdigit := (digitValue_lt (hdigits u (by simp))).1
    have hfront : front ≠ [] := by
      intro hnil
      rw [hnil, value_nil] at hsum
      unfold lastMidpoint longLimit at hbelow
      omega
    have htenth : (value 10 front : ℤ) < lastMidpoint := by
      unfold lastMidpoint longLimit at *
      omega
    have hrest := shown_integer hsign hfront (fun v hv => hdigits v (by simp [hv]))
      (n := value 10 front) (by simp [signed, hplus]) (by unfold longLimit; omega)
      (by unfold lastMidpoint at htenth; omega)
    rw [if_pos htenth] at hrest
    exact toTransformed_of_shown hrest

/-! ### Accepted texts -/

/-- The field shows the text as it was typed, the screen reads the number that was typed, and the
cursor stays in the text shown. -/
structure KeptAsTyped (text : List ℕ) : Prop where
  transformed : toTransformed text = text
  number : toLong (ofUnits (toTransformed text)) = toLong (ofUnits text)
  cursor : ∀ offset ∈ Set.Icc (0 : ℤ) text.length,
    (filter text).offsetMapping.originalToTransformed offset ∈ Set.Icc (0 : ℤ) (filter text).text.length

/-- An accepted text is kept exactly when its number is not rounded up to the largest one. -/
theorem keptAsTyped_iff {text : List ℕ} (hascii : ∀ u ∈ text, u < 128) (h : validate (ofUnits text) = true) :
    KeptAsTyped text ↔ ∀ n, toLong (ofUnits text) = some n → n < lastMidpoint := by
  have hkept : KeptAsTyped text ↔ toTransformed text = text := by
    constructor
    · intro hkept
      exact hkept.transformed
    · intro htext
      refine ⟨htext, by rw [htext], ?_⟩
      intro offset hoffset
      change offset ∈ Set.Icc (0 : ℤ) (toTransformed text).length
      rwa [htext]
  rw [hkept]
  cases hlong : toLong (ofUnits text) with
  | none =>
    have hempty : text = [] := by
      unfold validate at h
      split_ifs at h with hempty
      · have hlist : (ofUnits text).toList = text.map Char.ofNat := String.toList_ofList
        rw [String.isEmpty_iff] at hempty
        rw [hempty] at hlist
        simpa using hlist.symm
      · simp [hlong] at h
    subst hempty
    exact iff_of_true rfl (by simp)
  | some n =>
    rw [toTransformed_of_toLong hascii hlong]
    simp only [Option.some.injEq, forall_eq']
    by_cases hbelow : n < lastMidpoint
    · simp [hbelow]
    · obtain ⟨sign, digits, rfl, -, hne, -⟩ := exists_of_toLong hascii hlong
      rw [if_neg hbelow]
      apply iff_of_false _ hbelow
      intro hsame
      have hlength := congrArg List.length hsame
      rw [List.length_dropLast, List.length_append] at hlength
      have hpos := List.length_pos_of_ne_nil hne
      omega

theorem keptAsTyped_gauge : validate (ofUnits (utf16 "+054")) = true ∧ KeptAsTyped (utf16 "+054") := by
  have hvalid : validate (ofUnits (utf16 "+054")) = true := by decide
  have hlong : toLong (ofUnits (utf16 "+054")) = some 54 := by decide
  refine ⟨hvalid, (keptAsTyped_iff (by decide) hvalid).mpr ?_⟩
  intro n hn
  obtain rfl : 54 = n := by simpa [hlong] using hn
  decide

/-- The largest `Long` loses its last digit. -/
theorem not_keptAsTyped_largest : validate (ofUnits (utf16 "9223372036854775807")) = true ∧
    toTransformed (utf16 "9223372036854775807") = utf16 "922337203685477580" ∧
    ¬ KeptAsTyped (utf16 "9223372036854775807") := by
  have hlong : toLong (ofUnits (utf16 "9223372036854775807")) = some 9223372036854775807 := by decide
  have hdrop : toTransformed (utf16 "9223372036854775807") = utf16 "922337203685477580" := by
    rw [toTransformed_of_toLong (by decide) hlong, if_neg (by decide)]
    decide
  refine ⟨by decide, hdrop, ?_⟩
  intro hkept
  have hsame := hkept.transformed
  rw [hdrop] at hsame
  exact absurd hsame (by decide)

end NumberVisualTransformation
end Cigars
