import Cigars.FloatingPoint.Steps
import Cigars.Transformations.PriceTexts

/-! The price field of the dialog that adds a cigar. The price is a `Float` there, which tells cents
apart in small amounts only. -/
namespace Cigars
open Text FloatingPoint PriceVisualTransformation

namespace CigarSearchDetailsScreen

/-- `if (price.value > 0) "${price.value}" else ""`. -/
def priceText (price : Number binary32) : Option (List ℕ) :=
  if (Number.ofRat binary32 0).lt price then toText price else some []

/-- The text in the field. -/
def priceField (price : Number binary32) : Option (List ℕ) :=
  (priceText price).map fun text => TextStyled.fieldText .price (some text)

/-- What the field shows after its text was changed. -/
def shownAfter (price : Number binary32) (text : List ℕ) : Option (List ℕ) :=
  (onPriceChange price text).bind priceField

/-- The places within half a dollar, in cents, of the amounts that keep their digits: from 131072.00 on
a `Float` steps by more than a cent, and from 1048576.00 on by more than a tenth of a dollar. -/
def keptPlaces (cents : ℕ) : List ℕ :=
  if cents < 26214400 then
    [2, 3, 5, 6, 8, 11, 12, 14, 16, 17, 19, 22, 23, 25, 27, 28, 31, 33, 34, 36, 38, 39, 42, 44, 45, 47, 48]
  else if cents < 52428800 then [3, 6, 12, 16, 22, 25, 28, 34, 38, 44, 47]
  else if cents < 104857600 then [6, 25, 44]
  else []

/-- A `Float` keeps the digits of the amount. -/
def KeptByFloat (cents : ℕ) : Prop :=
  if cents < 13107200 then ¬ 10 ∣ cents else cents % 50 ∈ keptPlaces cents

instance (cents : ℕ) : Decidable (KeptByFloat cents) := by
  unfold KeptByFloat
  infer_instance

/-! ### Amounts and their `Float` -/

/-- The places that keep their digits are found by trying all within half a dollar. -/
theorem keepsHundredths_iff_mem {k c : ℕ} {places : List ℕ} (hk : 4 ≤ k ∧ k ≤ 7)
    (hplaces : ∀ r < 50, ToldApart (2 ^ k) r ↔ r ∈ places)
    (hlow : 2 ^ (23 - k) * 100 ≤ c) (hhigh : c < 2 ^ (24 - k) * 100) :
    binary32.KeepsHundredths c ↔ c % 50 ∈ places := by
  have hbits : k < binary32.bits := by
    change k < 24
    omega
  have hleast : binary32.least ≤ -k := by
    change (-149 : ℤ) ≤ -k
    omega
  have hlarge : 1000 ≤ c := by
    have hpow : 2 ^ 16 ≤ 2 ^ (23 - k) := Nat.pow_le_pow_right (by norm_num) (by omega)
    omega
  have hmod : ToldApart (2 ^ k) c ↔ ToldApart (2 ^ k) (c % 50) := by
    obtain ⟨j, rfl⟩ : ∃ j, k = j + 1 := ⟨k - 1, by omega⟩
    rw [pow_succ']
    exact toldApart_mod_iff c
  rw [Format.keepsHundredths_iff_toldApart hbits hleast (Format.hundredths_mem_binade hlow hhigh.le) hk.1 hlarge,
    hmod, hplaces _ (Nat.mod_lt c (by norm_num))]

theorem not_keepsHundredths_binary32 {k c : ℕ} (hk : k ≤ 3) (hlow : 2 ^ (23 - k) * 100 ≤ c)
    (hhigh : c < 2 ^ (24 - k) * 100) : ¬ binary32.KeepsHundredths c := by
  have hbits : k < binary32.bits := by
    change k < 24
    omega
  have hleast : binary32.least ≤ -k := by
    change (-149 : ℤ) ≤ -k
    omega
  have hlarge : 1000 ≤ c := by
    have hpow : 2 ^ 20 ≤ 2 ^ (23 - k) := Nat.pow_le_pow_right (by norm_num) (by omega)
    omega
  exact Format.not_keepsHundredths hbits hleast (Format.hundredths_mem_binade hlow hhigh.le) hk hlarge

/-- Below 131072.00 a `Float` tells cents apart. The last half of these amounts, up to the power of two, is
looked at by its step. -/
theorem keepsHundredths_iff_of_lt {c : ℕ} (hpos : c ≠ 0) (hc : c < 13107200) :
    binary32.KeepsHundredths c ↔ ¬ 10 ∣ c := by
  by_cases hlow : c < 6553600
  · have hamount : (c : ℚ) / 10 ^ 2 < 65536 := by
      have hlt : (c : ℚ) < 6553600 := by exact_mod_cast hlow
      rw [div_lt_iff₀ (by norm_num)]
      linarith
    have hbit : (2 : ℚ) ^ ((17 : ℤ) - binary32.bits) = 1 / 128 := by
      have hexponent : (17 : ℤ) - binary32.bits = -7 := by decide
      rw [hexponent]
      norm_num
    have hsmall : (c : ℚ) / 10 ^ 2 + 1 < 2 ^ (17 : ℤ) := by
      have hpow : (2 : ℚ) ^ (17 : ℤ) = 131072 := by norm_num
      linarith
    have hfine : (2 : ℚ) ^ ((17 : ℤ) - binary32.bits) < 1 / 10 ^ 2 := by
      rw [hbit]
      norm_num
    exact Format.keepsHundredths_iff_of_fine (by decide) hsmall hfine hpos
  · have hplaces : ∀ r < 50, ToldApart (2 ^ 7) r ↔ r ∈ (List.range 50).filter fun r => ¬ 10 ∣ r := by decide
    rw [keepsHundredths_iff_mem (by decide) hplaces (by norm_num; omega) (by norm_num; omega)]
    simp only [List.mem_filter, List.mem_range, decide_eq_true_eq]
    omega

theorem keepsHundredths_iff_keptByFloat {c : ℕ} (hpos : c ≠ 0) (hc : c < 10 ^ 9) :
    binary32.KeepsHundredths c ↔ KeptByFloat c := by
  have hnone {k : ℕ} (hk : k ≤ 3) (hlow : 2 ^ (23 - k) * 100 ≤ c) (hhigh : c < 2 ^ (24 - k) * 100) :
      binary32.KeepsHundredths c ↔ c % 50 ∈ [] :=
    iff_of_false (not_keepsHundredths_binary32 hk hlow hhigh) List.not_mem_nil
  unfold KeptByFloat keptPlaces
  split_ifs with hcents hsixtyfour hthirtytwo hsixteen
  · exact keepsHundredths_iff_of_lt hpos hcents
  · exact keepsHundredths_iff_mem (k := 6) (by decide) (by decide) (by norm_num; omega) (by norm_num; omega)
  · exact keepsHundredths_iff_mem (k := 5) (by decide) (by decide) (by norm_num; omega) (by norm_num; omega)
  · exact keepsHundredths_iff_mem (k := 4) (by decide) (by decide) (by norm_num; omega) (by norm_num; omega)
  · -- Steps of an eighth of a dollar, a quarter, a half and a dollar.
    by_cases height : c < 209715200
    · exact hnone (k := 3) (by norm_num) (by norm_num; omega) (by norm_num; omega)
    by_cases hquarter : c < 419430400
    · exact hnone (k := 2) (by norm_num) (by norm_num; omega) (by norm_num; omega)
    by_cases hhalf : c < 838860800
    · exact hnone (k := 1) (by norm_num) (by norm_num; omega) (by norm_num; omega)
    · exact hnone (k := 0) (by norm_num) (by norm_num; omega) (by norm_num; omega)

/-! ### The field -/

theorem onPriceChange_digits (price : Number binary32) {d : List ℕ} (hd : ∀ u ∈ d, Text.isDigit u = true)
    (hne : d ≠ []) : onPriceChange price d = some (.ofRat binary32 (value 10 d / 10 ^ 2)) := by
  simp only [onPriceChange, onValueChange_digits hd hne, Option.bind_some, notBlank_toTransformed, if_true, toFloat,
    parse_toTransformed_digits binary32 hd]

section Nearest
variable {c : ℕ}

theorem abs_nearest_cents_sub_le {n : ℤ} (hn : 0 ≤ n) (hc : (c : ℚ) / 10 ^ 2 < 2 ^ n) :
    |binary32.nearest (c / 10 ^ 2) - c / 10 ^ 2| ≤ 2 ^ (n - 24) / 2 := by
  apply binary32.abs_nearest_sub_le
  · change -149 ≤ n - 24
    omega
  · rwa [abs_of_nonneg (by positivity)]

theorem nearest_cents_bounds (hpos : c ≠ 0) (hc : c < 999999950) :
    1 / 1000 ≤ binary32.nearest (c / 10 ^ 2) ∧ binary32.nearest (c / 10 ^ 2) < 10000000 := by
  have hone : (1 : ℚ) ≤ c := by exact_mod_cast Nat.one_le_iff_ne_zero.mpr hpos
  by_cases hsmall : c < 13107200
  · have hlt : (c : ℚ) < 13107200 := by exact_mod_cast hsmall
    have herror := abs_le.mp (abs_nearest_cents_sub_le (n := 17) (c := c) (by norm_num) (by norm_num; linarith))
    norm_num at herror ⊢
    constructor <;> linarith
  · have hlarge : (13107200 : ℚ) ≤ c := by exact_mod_cast not_lt.mp hsmall
    have hlt : (c : ℚ) ≤ 999999949 := by exact_mod_cast Nat.le_of_lt_succ hc
    have herror := abs_le.mp (abs_nearest_cents_sub_le (n := 24) (c := c) (by norm_num) (by norm_num; linarith))
    norm_num at herror ⊢
    constructor <;> linarith

/-- From half a dollar below ten millions on. -/
theorem nearest_cents_eq (hlow : 999999950 ≤ c) (hc : c ≤ 10 ^ 9) : binary32.nearest (c / 10 ^ 2) = 10000000 := by
  have hmem : (c / 10 ^ 2 : ℚ) ∈ binary32.binade 0 := by
    apply Format.hundredths_mem_binade
    · change 2 ^ 23 * 100 ≤ c
      omega
    · change c ≤ 2 ^ 24 * 100
      omega
  have hlow' : (999999950 : ℚ) ≤ c := by exact_mod_cast hlow
  have hhigh : (c : ℚ) ≤ 10 ^ 9 := by exact_mod_cast hc
  have hround : roundEven (c / 10 ^ 2 * 2 ^ 0) = 10000000 := by
    have hnear : |(c / 10 ^ 2 * 2 ^ 0 - (10000000 : ℤ) : ℚ)| ≤ 1 / 2 := by
      rw [abs_le]
      push_cast
      constructor <;> linarith
    -- The midpoint itself goes to the even number.
    rw [roundEven_eq_iff]
    rcases hnear.lt_or_eq with hlt | heq
    · exact Or.inl hlt
    · exact Or.inr ⟨heq, by decide⟩
  rw [Format.nearest_of_mem_binade (by decide) (by decide) hmem, hround]
  norm_num

end Nearest

theorem lt_cents {c : ℕ} (hpos : 0 < binary32.nearest (c / 10 ^ 2))
    (hhigh : binary32.nearest (c / 10 ^ 2) ≤ 10000000) :
    |binary32.nearest (c / 10 ^ 2)| < 2 ^ binary32.limit ∧
      (Number.ofRat binary32 0).lt (Number.ofRat binary32 (c / 10 ^ 2)) = true := by
  have hbounded : |binary32.nearest (c / 10 ^ 2)| < 2 ^ binary32.limit := by
    have hlimit : (2 : ℚ) ^ (24 : ℤ) ≤ 2 ^ binary32.limit := zpow_le_zpow_right₀ (by norm_num) (by decide)
    rw [abs_of_pos hpos]
    norm_num at hlimit
    linarith
  have hzero : |binary32.nearest 0| < 2 ^ binary32.limit := by
    rw [binary32.nearest_zero, abs_zero]
    positivity
  refine ⟨hbounded, ?_⟩
  rw [Number.lt_ofRat_iff hzero hbounded, binary32.nearest_zero]
  exact hpos

/-- Ten millions are written with an exponent. -/
theorem scientific_tenMillions : scientific binary32 10000000 = some (utf16 "1.0E7") := by
  have hlog : Int.log 10 (10000000 : ℚ) = 7 := by
    have hpow : (10000000 : ℚ) = ((10 : ℕ) : ℚ) ^ (7 : ℤ) := by norm_num
    rw [hpow, Int.log_zpow (by norm_num)]
  have hone : (10000000 : ℚ) / 10 ^ (7 : ℤ) = 1 := by norm_num
  have hdecimals : decimals 1 1 = 10 := by
    have hround := roundEven_intCast 10
    norm_num at hround
    norm_num [decimals, hround]
    rfl
  have hread : binary32.nearest (10 / 10 ^ 1 * 10 ^ (7 : ℤ)) = 10000000 := by
    have hcents : (10 / 10 ^ 1 * 10 ^ (7 : ℤ) : ℚ) = (10 ^ 9 : ℕ) / 10 ^ 2 := by norm_num
    rw [hcents]
    exact nearest_cents_eq (by norm_num) le_rfl
  have hrange : List.range' 1 20 = 1 :: List.range' 2 19 := rfl
  unfold scientific
  simp only [hlog, hone]
  rw [hrange, List.find?_cons_of_pos (by simpa [hdecimals] using hread), Option.map_some, hdecimals]
  rfl

theorem toText_tenMillions {x : ℚ} (hx : binary32.nearest x = 10000000)
    (hbounded : |binary32.nearest x| < 2 ^ binary32.limit) :
    toText (Number.ofRat binary32 x) = some (utf16 "1.0E7") := by
  have hpos : 0 < binary32.nearest x := by
    rw [hx]
    norm_num
  rw [Number.ofRat_eq hbounded]
  simp only [toText, abs_of_pos hpos]
  rw [if_neg hpos.ne', if_neg (by rw [hx]; norm_num), hx, scientific_tenMillions, Option.map_some, withSign,
    if_neg (by norm_num)]

theorem shownAfter_eq_iff_kept (price : Number binary32) {d : List ℕ} (hd : DigitString d) (hne : d ≠ [])
    (hcents : value 10 d < 10 ^ 9) : shownAfter price d = some d ↔ KeptByFloat (value 10 d) := by
  have hdigits := hd.eq_digits
  set c := value 10 d with hc
  have hpos : c ≠ 0 := by
    intro hzero
    rw [hzero, digits_zero] at hdigits
    exact hne hdigits
  have hshown : shownAfter price d = priceField (.ofRat binary32 (c / 10 ^ 2)) := by
    rw [shownAfter, onPriceChange_digits price hd.digit hne, Option.bind_some]
  rw [hshown]
  by_cases hhigh : c < 999999950
  · obtain ⟨hlow, hupper⟩ := nearest_cents_bounds hpos hhigh
    obtain ⟨hbounded, hlt⟩ := lt_cents (by linarith) hupper.le
    rw [← keepsHundredths_iff_keptByFloat hpos hcents, priceField, priceText, if_pos hlt,
      toText_ofRat hbounded hlow hupper, Option.map_map, Option.map_eq_some_iff]
    constructor
    · rintro ⟨places, hplaces, htext⟩
      refine ⟨places, hplaces, ?_⟩
      rw [Function.comp_apply, fieldText_price, fromTransformed_fixedPoint] at htext
      have hvalue := congrArg (value 10) htext
      rwa [value_digits] at hvalue
    · rintro ⟨places, hplaces, hsame⟩
      refine ⟨places, hplaces, ?_⟩
      rw [Function.comp_apply, fieldText_price, fromTransformed_fixedPoint, hsame, ← hdigits]
  · have hmillions := nearest_cents_eq (not_lt.mp hhigh) hcents.le
    obtain ⟨hbounded, hlt⟩ := lt_cents (c := c) (by rw [hmillions]; norm_num) hmillions.le
    have hfield : TextStyled.fieldText .price (some (utf16 "1.0E7")) = utf16 "107" := by decide
    rw [priceField, priceText, if_pos hlt, toText_tenMillions hmillions hbounded, Option.map_some, hfield,
      Option.some.injEq]
    apply iff_of_false
    · intro hsame
      have hvalue : value 10 (utf16 "107") = 107 := by decide
      rw [hsame, ← hc] at hvalue
      omega
    · have hnone : keptPlaces c = [] := by
        rw [keptPlaces, if_neg (by omega), if_neg (by omega), if_neg (by omega)]
      rw [KeptByFloat, if_neg (by omega), hnone]
      exact List.not_mem_nil

/-- Two amounts of one `Float` are shown alike. -/
theorem shownAfter_eq_of_nearest (price : Number binary32) {d d' : List ℕ} (hd : DigitString d) (hne : d ≠ [])
    (hd' : DigitString d') (hne' : d' ≠ [])
    (hsame : binary32.nearest (value 10 d / 10 ^ 2) = binary32.nearest (value 10 d' / 10 ^ 2))
    (hbounded : |binary32.nearest (value 10 d / 10 ^ 2)| < 2 ^ binary32.limit) :
    shownAfter price d = shownAfter price d' := by
  have hnumber : Number.ofRat binary32 (value 10 d / 10 ^ 2) = Number.ofRat binary32 (value 10 d' / 10 ^ 2) := by
    rw [Number.ofRat_eq hbounded, Number.ofRat_eq (hsame ▸ hbounded)]
    simp only [hsame]
  rw [shownAfter, shownAfter, onPriceChange_digits price hd.digit hne, onPriceChange_digits price hd'.digit hne',
    Option.bind_some, Option.bind_some, hnumber]

end CigarSearchDetailsScreen

/-- The price fields go on with the digits that were typed: on the details screen exactly when the last
of them is no zero, in the dialog exactly when a `Float` keeps the amount. -/
theorem typed_price_kept_iff {d : List ℕ} (hd : DigitString d) (hne : d ≠ [])
    (hamount : (value 10 d : ℚ) / 100 < 10 ^ 7) :
    (∀ price, CigarDetailsScreen.shownAfter price d = some d ↔ d.getLast? ≠ some 48) ∧
      ∀ price, CigarSearchDetailsScreen.shownAfter price d = some d ↔
        CigarSearchDetailsScreen.KeptByFloat (value 10 d) := by
  have hcents : value 10 d < 10 ^ 9 := by
    rw [div_lt_iff₀ (by norm_num)] at hamount
    norm_num at hamount
    exact_mod_cast hamount
  exact ⟨fun price => CigarDetailsScreen.shownAfter_eq_iff_last price hd hne hcents,
    fun price => CigarSearchDetailsScreen.shownAfter_eq_iff_kept price hd hne hcents⟩

/-- Fifteen cents in both fields, and an amount beyond the range of cents in the dialog. -/
theorem typed_price_kept_fifteenCents : CigarDetailsScreen.shownAfter none (utf16 "15") = some (utf16 "15") ∧
    CigarSearchDetailsScreen.shownAfter 0 (utf16 "15") = some (utf16 "15") ∧
    CigarSearchDetailsScreen.shownAfter 0 (utf16 "13107202") = some (utf16 "13107202") := by
  have hfifteen : value 10 (utf16 "15") = 15 := by decide
  have hlarge : value 10 (utf16 "13107202") = 13107202 := by decide
  obtain ⟨hdetails, hdialog⟩ := typed_price_kept_iff (d := utf16 "15") ⟨by decide, by decide⟩ (by decide)
    (by rw [hfifteen]; norm_num)
  obtain ⟨-, hbeyond⟩ := typed_price_kept_iff (d := utf16 "13107202") ⟨by decide, by decide⟩ (by decide)
    (by rw [hlarge]; norm_num)
  refine ⟨(hdetails none).mpr (by decide), (hdialog 0).mpr ?_, (hbeyond 0).mpr ?_⟩
  · rw [hfifteen]
    decide
  · rw [hlarge]
    decide

/-- A dollar and a half becomes fifteen cents. In the dialog an amount of 131072.01 gains a cent. -/
theorem not_kept_dollarAndHalf : DigitString (utf16 "150") ∧
    CigarDetailsScreen.shownAfter none (utf16 "150") = some (utf16 "15") ∧
    CigarSearchDetailsScreen.shownAfter 0 (utf16 "150") ≠ some (utf16 "150") ∧
    DigitString (utf16 "13107201") ∧
    CigarSearchDetailsScreen.shownAfter 0 (utf16 "13107201") = some (utf16 "13107202") := by
  have hd : DigitString (utf16 "150") := ⟨by decide, by decide⟩
  have hvalue : value 10 (utf16 "150") = 150 := by decide
  have htyped : DigitString (utf16 "13107201") := ⟨by decide, by decide⟩
  have hshown : DigitString (utf16 "13107202") := ⟨by decide, by decide⟩
  have htypedValue : value 10 (utf16 "13107201") = 13107201 := by decide
  have hshownValue : value 10 (utf16 "13107202") = 13107202 := by decide
  refine ⟨hd, ?_, ?_, htyped, ?_⟩
  · have hdigits := CigarDetailsScreen.shownAfter_digits none hd.digit (by decide) (by rw [hvalue]; norm_num)
    rw [hvalue] at hdigits
    rw [hdigits]
    decide
  · rw [ne_eq, CigarSearchDetailsScreen.shownAfter_eq_iff_kept 0 hd (by decide) (by rw [hvalue]; norm_num), hvalue]
    decide
  · -- Both amounts are 8388609 steps of a sixty-fourth of a dollar.
    have hnearest : ∀ c : ℕ, 13107200 ≤ c → c ≤ 26214400 →
        binary32.nearest (c / 10 ^ 2) = ((2 ^ 6 * c + 50) / 100 : ℕ) / 2 ^ 6 := by
      intro c hlow hhigh
      exact Format.nearest_hundredths (by decide) (by decide) (Format.hundredths_mem_binade hlow hhigh) (by norm_num)
    have hsame : binary32.nearest ((13107201 : ℕ) / 10 ^ 2) = binary32.nearest ((13107202 : ℕ) / 10 ^ 2) := by
      rw [hnearest _ (by norm_num) (by norm_num), hnearest _ (by norm_num) (by norm_num)]
      norm_num
    have hbounds := CigarSearchDetailsScreen.nearest_cents_bounds (c := 13107201) (by norm_num) (by norm_num)
    have hbounded := (CigarSearchDetailsScreen.lt_cents (c := 13107201) (by linarith [hbounds.1]) hbounds.2.le).1
    rw [CigarSearchDetailsScreen.shownAfter_eq_of_nearest 0 htyped (by decide) hshown (by decide)
      (by rw [htypedValue, hshownValue, hsame]) (by rw [htypedValue]; exact hbounded),
      CigarSearchDetailsScreen.shownAfter_eq_iff_kept 0 hshown (by decide) (by rw [hshownValue]; norm_num), hshownValue]
    decide

end Cigars
