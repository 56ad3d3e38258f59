import Cigars.Transformations.Price

/-! The price field of the details screen. Every change of its text becomes a `Double`, and the text
of that `Double` is what the field shows next. -/
namespace Cigars
open Text FloatingPoint PriceVisualTransformation

namespace PriceVisualTransformation

/-- Digits are taken, whatever number they stand for. -/
theorem onValueChange_digits {d : List ℕ} (hd : ∀ u ∈ d, Text.isDigit u = true) (hne : d ≠ []) :
    TextStyled.onValueChange .price d = some (some (toTransformed d)) := by
  have hinteger := parse_integer binary64 (by decide : AtMostOne isSign []) hd hne
  rw [List.nil_append] at hinteger
  have hvalid : InputMode.price.validate d = true := by
    change (d.isEmpty || (toDouble d).isSome) = true
    rw [toDouble, hinteger, Option.isSome_some, Bool.or_true]
  rw [TextStyled.onValueChange, if_pos hvalid]
  cases d with
  | nil => exact absurd rfl hne
  | cons u d => rfl

/-- With the point they are the number of cents they stand for. -/
theorem parse_toTransformed_digits (F : Format) {d : List ℕ} (hd : ∀ u ∈ d, Text.isDigit u = true) :
    parse F (toTransformed d) = some (.ofRat F (value 10 d / 10 ^ 2)) := by
  obtain ⟨dollars, cents, htext, hdollarsNe, hdollars, -, hlength, hcents, hvalue⟩ := exists_pointed hd
  have hpointed := parse_pointed F hdollars hcents (by simp [hdollarsNe])
  rw [hvalue, hlength] at hpointed
  rw [htext]
  exact hpointed

theorem fieldText_price (text : List ℕ) : TextStyled.fieldText .price (some text) = fromTransformed text := by
  cases text with
  | nil => rfl
  | cons u text => rfl

end PriceVisualTransformation

namespace CigarDetailsScreen

/-- `viewModel.price.toString()`. -/
def priceText : Option Double → Option (List ℕ)
  | none => some (utf16 "null")
  | some price => toText price

/-- The text in the field. -/
def priceField (price : Option Double) : Option (List ℕ) :=
  (priceText price).map fun text => TextStyled.fieldText .price (some text)

/-- `viewModel.price = it.toDouble()`, if the field takes the text. -/
def onPriceChange (price : Option Double) (text : List ℕ) : Option (Option Double) :=
  (TextStyled.onValueChange .price text).bind fun
    | none => some price
    | some it => (toDouble it).map some

/-- What the field shows after its text was changed. -/
def shownAfter (price : Option Double) (text : List ℕ) : Option (List ℕ) :=
  (onPriceChange price text).bind priceField

/-- A digit is typed at the end of the text. -/
def typeDigit (price : Option Double) (u : ℕ) : Option (Option Double) :=
  (priceField price).bind fun text => onPriceChange price (text ++ [u])

/-! ### One change -/

/-- Digits become the number of cents they stand for. -/
theorem onPriceChange_digits (price : Option Double) {d : List ℕ} (hd : ∀ u ∈ d, Text.isDigit u = true)
    (hne : d ≠ []) : onPriceChange price d = some (some (.ofRat binary64 (value 10 d / 10 ^ 2))) := by
  simp only [onPriceChange, onValueChange_digits hd hne, Option.bind_some, toDouble,
    parse_toTransformed_digits binary64 hd, Option.map_some]

/-- The text of an amount has no zero at its end, unless that is its only decimal place. -/
theorem priceText_cents {c : ℕ} (hc : c < 10 ^ 9) :
    priceText (some (.ofRat binary64 (c / 10 ^ 2))) =
      some (if 10 ∣ c then fixedPoint 1 (c / 10) else fixedPoint 2 c) := by
  by_cases hzero : c = 0
  · subst hzero
    have hbounded : |binary64.nearest 0| < 2 ^ binary64.limit := by
      rw [binary64.nearest_zero, abs_zero]
      positivity
    rw [priceText, Nat.cast_zero, zero_div, Number.ofRat_eq hbounded]
    simp only [toText, binary64.nearest_zero, if_true]
    rfl
  have hpos : 1 ≤ c := Nat.one_le_iff_ne_zero.mpr hzero
  have hone : (1 : ℚ) ≤ c := by exact_mod_cast hpos
  split_ifs with hten
  · obtain ⟨m, rfl⟩ := hten
    have hsame : ((10 * m : ℕ) : ℚ) / 10 ^ 2 = m / 10 ^ 1 := by
      push_cast
      ring
    have hlow : (1 : ℚ) / 500 ≤ m / 10 ^ 1 := by
      rw [← hsame]
      linarith
    have hdiv : 10 * m / 10 = m := by omega
    rw [priceText, hsame, toText_binary64 ⟨le_refl 1, by norm_num⟩ (Or.inl rfl) hlow (by omega), hdiv]
  · have hlow : (1 : ℚ) / 500 ≤ c / 10 ^ 2 := by linarith
    rw [priceText, toText_binary64 ⟨by norm_num, by norm_num⟩ (Or.inr hten) hlow (by omega)]

theorem priceField_cents {c : ℕ} (hc : c < 10 ^ 9) :
    priceField (some (.ofRat binary64 (c / 10 ^ 2))) = some (digits (if 10 ∣ c then c / 10 else c)) := by
  rw [priceField, priceText_cents hc, Option.map_some, fieldText_price]
  split_ifs
  · rw [fromTransformed_fixedPoint]
  · rw [fromTransformed_fixedPoint]

/-- A zero at the end is lost. -/
theorem shownAfter_digits (price : Option Double) {d : List ℕ} (hd : ∀ u ∈ d, Text.isDigit u = true)
    (hne : d ≠ []) (hamount : value 10 d < 10 ^ 9) :
    shownAfter price d = some (digits (if 10 ∣ value 10 d then value 10 d / 10 else value 10 d)) := by
  rw [shownAfter, onPriceChange_digits price hd hne, Option.bind_some, priceField_cents hamount]

theorem dvd_value_concat_iff (d : List ℕ) {u : ℕ} (hu : Text.isDigit u = true) :
    10 ∣ value 10 (d ++ [u]) ↔ u = 48 := by
  have hdigit := digitValue_lt hu
  rw [value_concat]
  omega

/-- The field goes on with the digits that were typed exactly when the last of them is no zero. -/
theorem shownAfter_eq_iff_last (price : Option Double) {d : List ℕ} (hd : DigitString d) (hne : d ≠ [])
    (hcents : value 10 d < 10 ^ 9) : shownAfter price d = some d ↔ d.getLast? ≠ some 48 := by
  have hdigits := hd.eq_digits
  rw [shownAfter_digits price hd.digit hne hcents, Option.some.injEq]
  obtain ⟨front, u, hfront⟩ := (List.eq_nil_or_concat' d).resolve_left hne
  have hu : Text.isDigit u = true := hd.digit u (by simp [hfront])
  have hlast : d.getLast? = some u := by simp [hfront]
  have hdvd : 10 ∣ value 10 d ↔ u = 48 := by
    rw [hfront]
    exact dvd_value_concat_iff front hu
  rw [hlast, ne_eq, Option.some.injEq, ← hdvd]
  by_cases hten : 10 ∣ value 10 d
  · rw [if_pos hten]
    apply iff_of_false _ (not_not.mpr hten)
    intro hsame
    -- The number would be a tenth of itself, and no digits stand for zero.
    have hvalue := congrArg (value 10) hsame
    rw [value_digits] at hvalue
    have hzero : value 10 d = 0 := by omega
    rw [hzero, digits_zero] at hdigits
    exact hne hdigits
  · rw [if_neg hten]
    exact iff_of_true hdigits.symm hten

/-! ### Typing -/

/-- One more digit. A zero leaves the field as it is. -/
theorem priceField_typeDigit {price : Option Double} {shown : List ℕ} (hshown : priceField price = some shown)
    (hdigit : ∀ u ∈ shown, Text.isDigit u = true) (hhead : shown.head? ≠ some 48) (hfew : shown.length ≤ 8)
    {u : ℕ} (hu : Text.isDigit u = true) :
    ∃ price', typeDigit price u = some price' ∧
      priceField price' = some (if u = 48 then shown else shown ++ [u]) := by
  have hall : ∀ v ∈ shown ++ [u], Text.isDigit v = true := by
    intro v hv
    rcases List.mem_append.mp hv with hv | hv
    · exact hdigit v hv
    · exact List.mem_singleton.mp hv ▸ hu
  have hcents : value 10 (shown ++ [u]) < 10 ^ 9 := by
    have hlt := value_lt hall
    have hpow : 10 ^ (shown ++ [u]).length ≤ 10 ^ 9 := Nat.pow_le_pow_right (by norm_num) (by simp; omega)
    omega
  refine ⟨_, ?_, (priceField_cents hcents).trans ?_⟩
  · rw [typeDigit, hshown, Option.bind_some, onPriceChange_digits price hall (by simp)]
  · congr 1
    have hdvd := dvd_value_concat_iff shown hu
    by_cases hzero : u = 48
    · have htenth : value 10 (shown ++ [48]) / 10 = value 10 shown := by
        rw [value_concat]
        simp [digitValue]
      rw [if_pos (hdvd.mpr hzero), if_pos hzero, hzero, htenth, digits_value hdigit hhead]
    · have hhead' : (shown ++ [u]).head? ≠ some 48 := by
        cases shown with
        | nil => simpa using hzero
        | cons v shown => simpa using hhead
      rw [if_neg (mt hdvd.mp hzero), if_neg hzero, digits_value hall hhead']

/-- The field shows no zero at any moment, and goes on with the other digits. -/
theorem priceField_run {ds shown : List ℕ} {price : Option Double} (hds : ∀ u ∈ ds, Text.isDigit u = true)
    (hshown : priceField price = some shown) (hnonzero : ∀ u ∈ shown, Text.isDigit u = true ∧ u ≠ 48)
    (hfew : (shown ++ ds.filter (· ≠ 48)).length ≤ 8) :
    ∃ price', ds.foldlM typeDigit price = some price' ∧
      priceField price' = some (shown ++ ds.filter (· ≠ 48)) := by
  induction ds generalizing shown price with
  | nil => exact ⟨price, rfl, by simpa using hshown⟩
  | cons u ds ih =>
    obtain ⟨hu, hrest⟩ := List.forall_mem_cons.mp hds
    have hhead : shown.head? ≠ some 48 := by
      intro hzero
      exact (hnonzero 48 (List.mem_of_head? hzero)).2 rfl
    have hlength : shown.length ≤ 8 := by
      rw [List.length_append] at hfew
      omega
    obtain ⟨price', hstep, hshown'⟩ :=
      priceField_typeDigit hshown (fun v hv => (hnonzero v hv).1) hhead hlength hu
    rw [List.foldlM_cons, hstep]
    by_cases hzero : u = 48
    · have hfilter : (u :: ds).filter (· ≠ 48) = ds.filter (· ≠ 48) := by simp [hzero]
      rw [if_pos hzero] at hshown'
      rw [hfilter] at hfew ⊢
      exact ih hrest hshown' hnonzero hfew
    · have hfilter : shown ++ (u :: ds).filter (· ≠ 48) = (shown ++ [u]) ++ ds.filter (· ≠ 48) := by
        simp [hzero]
      rw [if_neg hzero] at hshown'
      rw [hfilter] at hfew ⊢
      apply ih hrest hshown' _ hfew
      intro v hv
      rcases List.mem_append.mp hv with hv | hv
      · exact hnonzero v hv
      · rw [List.mem_singleton.mp hv]
        exact ⟨hu, hzero⟩

/-- Typed digit by digit into a new field, an amount loses all its zeros. -/
theorem priceField_of_typed {ds : List ℕ} (hds : ∀ u ∈ ds, Text.isDigit u = true)
    (hfew : (ds.filter (· ≠ 48)).length ≤ 8) :
    ∃ price, ds.foldlM typeDigit none = some price ∧ priceField price = some (ds.filter (· ≠ 48)) := by
  have hempty : priceField none = some [] := by decide
  exact priceField_run hds hempty (by simp) (by simpa using hfew)

end CigarDetailsScreen
end Cigars
