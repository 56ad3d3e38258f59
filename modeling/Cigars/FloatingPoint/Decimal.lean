import Cigars.FloatingPoint.Binary
import Cigars.Text.Digits
import Cigars.Text.Utf16

/-! Numbers written in decimal with as few places as tell them from all others. -/
namespace FloatingPoint
open Text

/-- The nearest number of units of a decimal place. -/
def decimals (places : ℕ) (v : ℚ) : ℕ := (roundEven (v * 10 ^ places)).toNat

/-- The least number of decimal places, one at least, from which the number is read back. -/
def placesOf (F : Format) (v : ℚ) : Option ℕ :=
  (List.range' 1 20).find? fun places => F.nearest (decimals places v / 10 ^ places) = v

def withSign (negative : Prop) [Decidable negative] (text : List ℕ) : List ℕ :=
  if negative then 45 :: text else text

/-- The text of a very small or very large number: one digit before the point, and an exponent. -/
def scientific (F : Format) (v : ℚ) : Option (List ℕ) :=
  let exponent := Int.log 10 v
  let written (exponent : ℤ) := 69 :: withSign (exponent < 0) (numeral exponent.natAbs)
  let places := (List.range' 1 20).find? fun places =>
    F.nearest (decimals places (v / 10 ^ exponent) / 10 ^ places * 10 ^ exponent) = v
  places.map fun places =>
    let digits := decimals places (v / 10 ^ exponent)
    -- Nines are rounded up to the next power of ten.
    if digits < 10 ^ (places + 1) then fixedPoint places digits ++ written exponent
    else utf16 "1.0" ++ written (exponent + 1)

/-- The text of a number. -/
def toText {F : Format} : Number F → Option (List ℕ)
  | .nan => some (utf16 "NaN")
  | .infinite negative => some (utf16 (if negative then "-Infinity" else "Infinity"))
  | .negativeZero => some (utf16 "-0.0")
  | .finite v _ _ =>
    if v = 0 then some (utf16 "0.0")
    else if 1 / 1000 ≤ |v| ∧ |v| < 10000000 then
      (placesOf F |v|).map fun places => withSign (v < 0) (fixedPoint places (decimals places |v|))
    else (scientific F |v|).map (withSign (v < 0))

theorem decimals_eq_roundEven {v : ℚ} (hv : 0 ≤ v) (places : ℕ) :
    (decimals places v : ℤ) = roundEven (v * 10 ^ places) := by
  have hscaled : ((0 : ℤ) : ℚ) ≤ v * 10 ^ places := by
    push_cast
    positivity
  exact Int.toNat_of_nonneg (le_roundEven hscaled)

theorem abs_decimals_sub_le {v : ℚ} (hv : 0 ≤ v) (places : ℕ) :
    |(decimals places v : ℚ) / 10 ^ places - v| ≤ 1 / 2 / 10 ^ places := by
  have hpos : (0 : ℚ) < 10 ^ places := by positivity
  have herror := abs_roundEven_sub_le (v * 10 ^ places)
  have hcast : (decimals places v : ℚ) = roundEven (v * 10 ^ places) := by
    exact_mod_cast decimals_eq_roundEven hv places
  have hdiff : (decimals places v : ℚ) / 10 ^ places - v =
      (roundEven (v * 10 ^ places) - v * 10 ^ places) / 10 ^ places := by
    rw [hcast]
    field_simp
  rw [hdiff, abs_div, abs_of_pos hpos]
  exact div_le_div_of_nonneg_right herror hpos.le

section Places
variable {F : Format} {n : ℤ} {m places : ℕ} (hn : F.least ≤ n - F.bits)
  (hsmall : (m : ℚ) / 10 ^ places + 1 < 2 ^ n) (hfine : 2 ^ (n - F.bits) < (1 : ℚ) / 10 ^ places)
include hn hsmall hfine

omit hfine in
theorem abs_nearest_decimal_sub_le :
    |F.nearest (m / 10 ^ places) - m / 10 ^ places| ≤ 2 ^ (n - F.bits) / 2 := by
  apply F.abs_nearest_sub_le hn
  rw [abs_of_nonneg (by positivity)]
  linarith

theorem nearest_decimal_pos (hm : m ≠ 0) : 0 < F.nearest (m / 10 ^ places) := by
  have herror := (abs_le.mp (abs_nearest_decimal_sub_le hn hsmall)).1
  have hone : (1 : ℚ) ≤ m := by exact_mod_cast Nat.one_le_iff_ne_zero.mpr hm
  have hpos : (0 : ℚ) < 10 ^ places := by positivity
  have hleast : 1 / 10 ^ places ≤ (m : ℚ) / 10 ^ places := div_le_div_of_nonneg_right hone hpos.le
  have hbit : (0 : ℚ) < 2 ^ (n - F.bits) := by positivity
  linarith

theorem decimals_nearest : decimals places (F.nearest (m / 10 ^ places)) = m := by
  have hpos : (0 : ℚ) < 10 ^ places := by positivity
  have herror := abs_nearest_decimal_sub_le hn hsmall
  have hscaled : F.nearest (m / 10 ^ places) * 10 ^ places - (m : ℤ) =
      (F.nearest (m / 10 ^ places) - m / 10 ^ places) * 10 ^ places := by
    push_cast
    field_simp
  have hnear : |F.nearest (m / 10 ^ places) * 10 ^ places - (m : ℤ)| < 1 / 2 := by
    rw [hscaled, abs_mul, abs_of_pos hpos]
    rw [lt_div_iff₀ hpos] at hfine
    have hle := mul_le_mul_of_nonneg_right herror hpos.le
    linarith
  rw [decimals, roundEven_eq_of_abs_lt hnear, Int.toNat_natCast]

/-- With fewer places the number is not met: two decimals that are rounded to the same number are
nearer to each other than one unit of the last place. -/
theorem nearest_decimals_ne {fewer : ℕ} (hlt : fewer < places) (hm : ¬ 10 ∣ m) :
    F.nearest (decimals fewer (F.nearest (m / 10 ^ places)) / 10 ^ fewer) ≠ F.nearest (m / 10 ^ places) := by
  intro heq
  have hne : m ≠ 0 := fun hzero => hm (hzero ▸ dvd_zero 10)
  have hv := nearest_decimal_pos hn hsmall hfine hne
  have herror := abs_le.mp (abs_nearest_decimal_sub_le hn hsmall)
  have hround := abs_le.mp (abs_decimals_sub_le hv.le fewer)
  set v := F.nearest (m / 10 ^ places) with hvdef
  set k := decimals fewer v with hk
  have hpos : (0 : ℚ) < 10 ^ places := by positivity
  have hposFewer : (1 : ℚ) ≤ 10 ^ fewer := one_le_pow₀ (by norm_num)
  have hhalf : (1 : ℚ) / 2 / 10 ^ fewer ≤ 1 / 2 := div_le_self (by norm_num) hposFewer
  have hunit : (1 : ℚ) / 10 ^ places ≤ 1 := by
    rw [div_le_one hpos]
    exact one_le_pow₀ (by norm_num)
  have hbit : (0 : ℚ) < 2 ^ (n - F.bits) := by positivity
  have hfewerError : |F.nearest (k / 10 ^ fewer) - k / 10 ^ fewer| ≤ 2 ^ (n - F.bits) / 2 := by
    apply F.abs_nearest_sub_le hn
    rw [abs_of_nonneg (by positivity)]
    linarith
  rw [heq] at hfewerError
  have hfewerError' := abs_le.mp hfewerError
  -- Both are multiples of a unit of the last place.
  have hscale : (k : ℚ) / 10 ^ fewer = (k * 10 ^ (places - fewer) : ℕ) / 10 ^ places := by
    have hpow : (10 : ℚ) ^ places = 10 ^ (places - fewer) * 10 ^ fewer := by
      rw [← pow_add, Nat.sub_add_cancel hlt.le]
    rw [hpow]
    push_cast
    field_simp
  rw [hscale] at hfewerError'
  have hclose : |(k * 10 ^ (places - fewer) : ℕ) - (m : ℚ)| < 1 := by
    have hdist : |((k * 10 ^ (places - fewer) : ℕ) : ℚ) / 10 ^ places - m / 10 ^ places| < 1 / 10 ^ places := by
      rw [abs_lt]
      constructor <;> linarith
    rw [← sub_div, abs_div, abs_of_pos hpos, div_lt_div_iff_of_pos_right hpos] at hdist
    exact hdist
  have hequal : k * 10 ^ (places - fewer) = m := by
    have hint : |((k * 10 ^ (places - fewer) : ℕ) : ℤ) - m| < 1 := by exact_mod_cast hclose
    have hzero := Int.abs_lt_one_iff.mp hint
    omega
  apply hm
  rw [← hequal]
  exact Dvd.dvd.mul_left (dvd_pow_self 10 (by omega)) k

/-- A decimal that is not written with fewer places, rounded and written again. -/
theorem placesOf_nearest (hplaces : 1 ≤ places ∧ places ≤ 20) (hm : places = 1 ∨ ¬ 10 ∣ m) :
    placesOf F (F.nearest (m / 10 ^ places)) = some places := by
  unfold placesOf
  rw [List.find?_range'_eq_some]
  refine ⟨?_, ?_, ?_⟩
  · rw [decide_eq_true_eq, decimals_nearest hn hsmall hfine]
  · rw [List.mem_range'_1]
    omega
  · intro fewer hfewer hlt
    have hmore := hm.resolve_left (by omega)
    simpa using nearest_decimals_ne hn hsmall hfine hlt hmore

end Places

/-! ### Texts -/

section Text
variable {F : Format} {x : ℚ}

theorem toText_ofRat (hbounded : |F.nearest x| < 2 ^ F.limit) (hlow : 1 / 1000 ≤ F.nearest x)
    (hhigh : F.nearest x < 10000000) : toText (Number.ofRat F x) =
      (placesOf F (F.nearest x)).map fun places => fixedPoint places (decimals places (F.nearest x)) := by
  have hpos : 0 < F.nearest x := by linarith
  have habs := abs_of_pos hpos
  rw [Number.ofRat_eq hbounded]
  simp only [toText, habs, withSign]
  rw [if_neg hpos.ne', if_pos ⟨hlow, hhigh⟩]
  simp only [if_neg (not_lt.mpr hpos.le)]

end Text

/-- A decimal of up to six places, read as a number of 64 bits, is written as it was, without zeros at
its end but for the first place. -/
theorem toText_binary64 {m places : ℕ} (hplaces : 1 ≤ places ∧ places ≤ 6) (hm : places = 1 ∨ ¬ 10 ∣ m)
    (hlow : (1 : ℚ) / 500 ≤ m / 10 ^ places) (hhigh : m < 10000000 * 10 ^ places) :
    toText (Number.ofRat binary64 (m / 10 ^ places)) = some (fixedPoint places m) := by
  have hpos : (0 : ℚ) < 10 ^ places := by positivity
  have hunit : (1 : ℚ) / 1000000 ≤ 1 / 10 ^ places := by
    have hpow : (10 : ℚ) ^ places ≤ 10 ^ 6 := pow_le_pow_right₀ (by norm_num) hplaces.2
    norm_num at hpow
    exact one_div_le_one_div_of_le hpos hpow
  have hbelow : (m : ℚ) / 10 ^ places + 1 / 10 ^ places ≤ 10000000 := by
    have hsucc : ((m : ℚ) + 1) ≤ 10000000 * 10 ^ places := by exact_mod_cast hhigh
    rw [← add_div, div_le_iff₀ hpos]
    exact hsucc
  have hn : binary64.least ≤ 24 - binary64.bits := by decide
  have hbit : (2 : ℚ) ^ ((24 : ℤ) - binary64.bits) = 1 / 536870912 := by
    have hexponent : (24 : ℤ) - binary64.bits = -29 := by decide
    rw [hexponent]
    norm_num
  have hpow : (2 : ℚ) ^ (24 : ℤ) = 16777216 := by norm_num
  have hsmall : (m : ℚ) / 10 ^ places + 1 < 2 ^ (24 : ℤ) := by linarith
  have hfine : 2 ^ ((24 : ℤ) - binary64.bits) < (1 : ℚ) / 10 ^ places := by
    rw [hbit]
    linarith
  have herror := abs_le.mp (abs_nearest_decimal_sub_le hn hsmall)
  rw [hbit] at herror
  have hbounded : |binary64.nearest (m / 10 ^ places)| < 2 ^ binary64.limit := by
    have hlimit : (2 : ℚ) ^ (24 : ℤ) ≤ 2 ^ binary64.limit := zpow_le_zpow_right₀ (by norm_num) (by decide)
    rw [abs_of_pos (by linarith)]
    linarith
  rw [toText_ofRat hbounded (by linarith) (by linarith), placesOf_nearest hn hsmall hfine ⟨hplaces.1, by omega⟩ hm,
    Option.map_some, decimals_nearest hn hsmall hfine]

end FloatingPoint
