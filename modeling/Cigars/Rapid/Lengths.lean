import Cigars.Collections.Basic
import Cigars.Rapid.Models
import Cigars.Text.Basic
import Mathlib.Data.Rat.Floor
import Mathlib.Tactic.FieldSimp
import Mathlib.Tactic.IntervalCases
import Mathlib.Tactic.Linarith

/-! The lengths of the catalogue as texts: a number of inches and a fraction of sixteenths. -/
namespace Cigars

/-! ### The number a text stands for -/

/-- `n/d“`. -/
def fractionValue (chars : List Char) : Option ℚ :=
  match chars.dropWhile (· ≠ '/') with
  | '/' :: rest =>
    if rest.dropWhile (· ≠ '“') = ['“'] then
      (digitsValue (chars.takeWhile (· ≠ '/'))).bind fun n =>
        (digitsValue (rest.takeWhile (· ≠ '“'))).map fun d => (n : ℚ) / d
    else none
  | _ => none

/-- The mark after the whole part, and the fraction if there is one. -/
def afterWhole (whole : ℤ) : List Char → Option ℚ
  | ['\''] => some (whole : ℚ)
  | '\'' :: ' ' :: rest => (fractionValue rest).map fun part => whole + part
  | _ => none

/-- The whole part, plus the fraction if there is one. -/
def inchesValue (text : String) : Option ℚ :=
  (signedValue (String.ofList (text.toList.takeWhile (· ≠ '\'')))).bind fun whole =>
    afterWhole whole (text.toList.dropWhile (· ≠ '\''))

/-- The inches, and the sixteenths by their name in the table. -/
def inchesText (whole : ℤ) (sixteenths : ℕ) : String :=
  if sixteenths = 0 ∨ sixteenths = 16 then toString whole ++ "'"
  else toString whole ++ "' " ++ fractions.getD (16 - sixteenths) "" ++ "“"

theorem fractionValue_fractions {k : ℕ} (h0 : 0 < k) (h16 : k < 16) :
    fractionValue ((fractions.getD (16 - k) "").toList ++ ['“']) = some ((k : ℚ) / 16) := by
  interval_cases k <;> decide +kernel

theorem inchesValue_append {whole : ℤ} {text : String} {rest : List Char}
    (htext : text.toList = (toString whole).toList ++ '\'' :: rest) :
    inchesValue text = afterWhole whole ('\'' :: rest) := by
  have hdigits : ∀ c ∈ (toString whole).toList, decide (c ≠ '\'') = true := by
    intro c hc
    apply decide_eq_true
    rintro rfl
    rcases mem_toString hc with hsign | hdigit
    · exact absurd hsign (by decide)
    · exact absurd hdigit (by decide)
  have hwhole : text.toList.takeWhile (· ≠ '\'') = (toString whole).toList := by
    rw [htext, List.takeWhile_append_of_pos hdigits, List.takeWhile_cons_of_neg (by decide), List.append_nil]
  have hrest : text.toList.dropWhile (· ≠ '\'') = '\'' :: rest := by
    rw [htext, List.dropWhile_append_of_pos hdigits, List.dropWhile_cons_of_neg (by decide)]
  unfold inchesValue
  rw [hwhole, hrest, String.ofList_toList, signedValue_toString, Option.bind_some]

/-- A text of the catalogue is read as it was meant, but for sixteen sixteenths. -/
theorem inchesValue_inchesText (whole : ℤ) {k : ℕ} (hk : k ≤ 16) :
    inchesValue (inchesText whole k) = some (if k = 16 then (whole : ℚ) else whole + k / 16) := by
  unfold inchesText
  by_cases hbare : k = 0 ∨ k = 16
  · have htext : (toString whole ++ "'").toList = (toString whole).toList ++ '\'' :: [] := by
      rw [String.toList_append]
      rfl
    rw [if_pos hbare, inchesValue_append htext]
    rcases hbare with rfl | rfl
    · simp [afterWhole]
    · simp [afterWhole]
  · have htext : (toString whole ++ "' " ++ fractions.getD (16 - k) "" ++ "“").toList =
        (toString whole).toList ++ '\'' :: ' ' :: ((fractions.getD (16 - k) "").toList ++ ['“']) := by
      simp only [String.toList_append, List.append_assoc]
      rfl
    have hpart := fractionValue_fractions (k := k) (by omega) (by omega)
    rw [if_neg hbare, inchesValue_append htext, afterWhole, hpart, Option.map_some, if_neg (by omega)]

/-! ### The loop -/

theorem toInt_eq_floor {x : ℚ} (h0 : 0 ≤ x) (hx : x < 2 ^ 31) : toInt x = ⌊x⌋ := by
  have hnum : 0 ≤ x.num := Rat.num_nonneg.mpr h0
  have hfloor : x.num.tdiv x.den = ⌊x⌋ := by
    rw [Int.tdiv_eq_ediv_of_nonneg hnum, Rat.floor_def']
  have hlow : 0 ≤ ⌊x⌋ := Int.floor_nonneg.mpr h0
  have hhigh : ⌊x⌋ < 2147483648 := by
    rw [Int.floor_lt]
    norm_num at hx ⊢
    exact hx
  unfold toInt
  rw [hfloor]
  omega

/-- The number of sixteenths nearest to the fractional part, the lower one at a midpoint. -/
def nearestSixteenths (x : ℚ) : ℕ := ⌈16 * Int.fract x - 1 / 2⌉.toNat

theorem nearestSixteenths_le (x : ℚ) : nearestSixteenths x ≤ 16 := by
  have hfract := Int.fract_lt_one x
  unfold nearestSixteenths
  rw [Int.toNat_le, Int.ceil_le]
  push_cast
  linarith

theorem fract_le_nearestSixteenths (x : ℚ) : Int.fract x ≤ (2 * nearestSixteenths x + 1) / 32 := by
  have hceil := Int.le_ceil (16 * Int.fract x - 1 / 2)
  have hnat : (⌈16 * Int.fract x - 1 / 2⌉ : ℚ) ≤ nearestSixteenths x := by
    exact_mod_cast Int.self_le_toNat _
  linarith

theorem nearestSixteenths_lt_fract {x : ℚ} (h : 0 < nearestSixteenths x) :
    (2 * nearestSixteenths x - 1) / 32 < Int.fract x := by
  have hnat : (⌈16 * Int.fract x - 1 / 2⌉ : ℚ) = nearestSixteenths x := by
    unfold nearestSixteenths at h ⊢
    exact_mod_cast (Int.toNat_of_nonneg (by omega)).symm
  have hceil := Int.ceil_lt_add_one (16 * Int.fract x - 1 / 2)
  rw [hnat] at hceil
  linarith

theorem fractionValues_eq {i : ℕ} (hi : i ≤ 16) : fractionValues.getD i 0 = (16 - i) / 16 := by
  interval_cases i <;> decide +kernel

theorem fraction_eq {x : ℚ} (h0 : 0 ≤ x) (hx : x < 2 ^ 31) :
    fraction x = inchesText ⌊x⌋ (nearestSixteenths x) := by
  have hk := nearestSixteenths_le x
  have hle := fract_le_nearestSixteenths x
  have hpart : |x - (⌊x⌋ : ℚ)| = Int.fract x := by
    rw [Int.self_sub_floor, abs_of_nonneg (Int.fract_nonneg x)]
  -- The midpoint the loop compares with at an index.
  have hmid (i : ℕ) (h1 : 1 ≤ i) (h16 : i ≤ 16) :
      (fractionValues.getD i 0 + fractionValues.getD (i - 1) 0) / 2 = (33 - 2 * (i : ℚ)) / 32 := by
    rw [fractionValues_eq h16, fractionValues_eq (by omega), Nat.cast_sub h1]
    push_cast
    ring
  have hpass (j : ℕ) (h1 : 1 ≤ j) (h16 : j ≤ 16) (hj : j + nearestSixteenths x ≤ 16) :
      ¬ Int.fract x > (fractionValues.getD j 0 + fractionValues.getD (j - 1) 0) / 2 := by
    rw [hmid j h1 h16]
    have hcast : (j : ℚ) + nearestSixteenths x ≤ 16 := by exact_mod_cast hj
    linarith
  unfold fraction
  simp only [toInt_eq_floor h0 hx, hpart]
  by_cases hzero : nearestSixteenths x = 0
  · -- No midpoint is exceeded.
    have hnone : ∀ i ∈ List.range' 1 (fractions.length - 1),
        ¬ Int.fract x > (fractionValues.getD i 0 + fractionValues.getD (i - 1) 0) / 2 := by
      intro i hi
      obtain ⟨h1, h17⟩ := List.mem_range'_1.mp hi
      have h16 : i ≤ 16 := Nat.le_of_lt_succ h17
      exact hpass i h1 h16 (by omega)
    rw [List.findSome?_eq_none_iff.mpr fun i hi => if_neg (hnone i hi), hzero]
    rfl
  · have hlt := nearestSixteenths_lt_fract (Nat.pos_of_ne_zero hzero)
    have hindex : 17 - nearestSixteenths x - 1 = 16 - nearestSixteenths x := by omega
    have hstop : Int.fract x > (fractionValues.getD (17 - nearestSixteenths x) 0 +
        fractionValues.getD (17 - nearestSixteenths x - 1) 0) / 2 := by
      rw [hmid _ (by omega) (by omega), Nat.cast_sub (by omega)]
      push_cast
      linarith
    have hvalue : fractionValues.getD (16 - nearestSixteenths x) 0 = (nearestSixteenths x : ℚ) / 16 := by
      rw [fractionValues_eq (by omega), Nat.cast_sub hk]
      push_cast
      ring
    have hone : (nearestSixteenths x : ℚ) / 16 = 1 ↔ nearestSixteenths x = 16 := by
      rw [div_eq_one_iff_eq (by norm_num)]
      norm_cast
    have hnonzero : (nearestSixteenths x : ℚ) / 16 ≠ 0 := by
      have hcast : (nearestSixteenths x : ℚ) ≠ 0 := by exact_mod_cast hzero
      positivity
    have hlength : fractions.length - 1 = 16 := rfl
    rw [hlength, Collections.findSome?_range' _ (by omega) (by omega)
        (fun j h1 hj => hpass j h1 (by omega) (by omega)) hstop, Option.getD_some, hindex, hvalue, inchesText]
    simp only [hone, hnonzero, hzero, or_false, false_or]

/-- Beyond the range of an `Int` every length is the largest whole number. -/
theorem fraction_of_le {x : ℚ} (hx : 2 ^ 31 ≤ x) : fraction x = inchesText 2147483647 0 := by
  have h0 : (0 : ℚ) ≤ x := by linarith
  have hwhole : toInt x = 2147483647 := by
    have hfloor : x.num.tdiv x.den = ⌊x⌋ := by
      rw [Int.tdiv_eq_ediv_of_nonneg (Rat.num_nonneg.mpr h0), Rat.floor_def']
    have hlarge : 2147483648 ≤ ⌊x⌋ := by
      rw [Int.le_floor]
      norm_num at hx ⊢
      exact hx
    unfold toInt
    rw [hfloor]
    omega
  have hexceeds : |x - (2147483647 : ℤ)| > (fractionValues.getD 1 0 + fractionValues.getD (1 - 1) 0) / 2 := by
    have hmid : (fractionValues.getD 1 0 + fractionValues.getD (1 - 1) 0) / 2 = 31 / 32 := by decide +kernel
    have hone : (1 : ℚ) ≤ x - (2147483647 : ℤ) := by
      push_cast
      linarith
    rw [hmid, abs_of_nonneg (by linarith)]
    linarith
  have hone : fractionValues.getD (1 - 1) 0 = 1 := rfl
  have hlength : fractions.length - 1 = 16 := rfl
  unfold fraction
  simp only [hwhole]
  rw [hlength, Collections.findSome?_range' _ (le_refl 1) (by omega) (fun j h1 hj => absurd hj (by omega)) hexceeds,
    Option.getD_some, hone, if_pos (Or.inl rfl), inchesText, if_pos (Or.inl rfl)]

theorem nearestSixteenths_eq_zero_iff (x : ℚ) : nearestSixteenths x = 0 ↔ Int.fract x ≤ 1 / 32 := by
  have hle := fract_le_nearestSixteenths x
  constructor
  · intro hzero
    rw [hzero] at hle
    norm_num at hle ⊢
    exact hle
  · intro hsmall
    by_contra hne
    have hlt := nearestSixteenths_lt_fract (Nat.pos_of_ne_zero hne)
    have hone : (1 : ℚ) ≤ nearestSixteenths x := by exact_mod_cast Nat.one_le_iff_ne_zero.mpr hne
    linarith

theorem nearestSixteenths_eq_sixteen_iff (x : ℚ) : nearestSixteenths x = 16 ↔ 31 / 32 < Int.fract x := by
  have hle := fract_le_nearestSixteenths x
  have hmax := nearestSixteenths_le x
  constructor
  · intro hsixteen
    have hlt := nearestSixteenths_lt_fract (x := x) (by omega)
    rw [hsixteen] at hlt
    norm_num at hlt
    exact hlt
  · intro hlarge
    have hlower : (15 : ℚ) < nearestSixteenths x := by linarith
    have hnat : 15 < nearestSixteenths x := by exact_mod_cast hlower
    omega

/-! ### Nearest sixteenths -/

/-- The text stands for a multiple of a sixteenth, at most half a sixteenth away. -/
def RoundsToSixteenth (x : ℚ) : Prop :=
  ∃ v, inchesValue (fraction x) = some v ∧ (∃ n : ℤ, v = n / 16) ∧ |x - v| ≤ 1 / 32

/-- A length is rounded to the nearest sixteenth unless that is the next whole inch: the loop has no
carry into the whole part. -/
theorem roundsToSixteenth_iff {x : ℚ} (h0 : 0 ≤ x) (hx : x < 2 ^ 31 - 1) :
    RoundsToSixteenth x ↔ Int.fract x ≤ 31 / 32 := by
  have hk := nearestSixteenths_le x
  have hvalue := inchesValue_inchesText ⌊x⌋ hk
  rw [← fraction_eq h0 (by linarith)] at hvalue
  have hsum := Int.floor_add_fract x
  constructor
  · rintro ⟨v, hv, -, hdist⟩
    rw [hvalue, Option.some.injEq] at hv
    by_contra hfar
    have hsixteen : nearestSixteenths x = 16 := (nearestSixteenths_eq_sixteen_iff x).mpr (not_le.mp hfar)
    rw [if_pos hsixteen] at hv
    rw [← hv, abs_le] at hdist
    linarith
  · intro hnear
    have hne : nearestSixteenths x ≠ 16 := by
      rw [ne_eq, nearestSixteenths_eq_sixteen_iff]
      exact not_lt.mpr hnear
    rw [if_neg hne] at hvalue
    refine ⟨_, hvalue, ⟨16 * ⌊x⌋ + nearestSixteenths x, ?_⟩, ?_⟩
    · push_cast
      ring
    · have hle := fract_le_nearestSixteenths x
      rw [abs_le]
      by_cases hzero : nearestSixteenths x = 0
      · have hnonneg := Int.fract_nonneg x
        rw [hzero] at hle ⊢
        norm_num at hle ⊢
        constructor <;> linarith
      · have hlt := nearestSixteenths_lt_fract (Nat.pos_of_ne_zero hzero)
        constructor <;> linarith

theorem roundsToSixteenth_robusto : (0 : ℚ) ≤ 53 / 10 ∧ RoundsToSixteenth (53 / 10) := by
  have hfract : Int.fract (53 / 10 : ℚ) ≤ 31 / 32 := by
    have hfloor : ⌊(53 / 10 : ℚ)⌋ = 5 := by
      rw [Int.floor_eq_iff]
      norm_num
    rw [← Int.self_sub_floor, hfloor]
    norm_num
  exact ⟨by norm_num, (roundsToSixteenth_iff (by norm_num) (by norm_num)).mpr hfract⟩

/-- A length just below six inches becomes five. -/
theorem not_roundsToSixteenth_belowSix : fraction (599 / 100) = "5'" ∧ ¬ RoundsToSixteenth (599 / 100) := by
  have htext : fraction (599 / 100) = "5'" := by decide +kernel
  refine ⟨htext, ?_⟩
  rintro ⟨v, hv, -, hdist⟩
  have hfive : inchesValue "5'" = some 5 := by decide +kernel
  rw [htext, hfive, Option.some.injEq] at hv
  rw [← hv, abs_le] at hdist
  norm_num at hdist

end Cigars
