import Cigars.FloatingPoint.Decimal

/-! Hundredths written again after they were rounded, where the numbers of a format are farther apart
than hundredths are. Between two powers of two the numbers are the multiples of one step. -/
namespace FloatingPoint
namespace Format
variable (F : Format)

/-- From one power of two to the next, where the numbers are the multiples of `1 / 2 ^ k`. -/
def binade (k : ℕ) : Set ℚ := Set.Icc (2 ^ (F.bits - 1 - k)) (2 ^ (F.bits - k))

/-- The digits of a number of hundredths are those of the text of the nearest number. -/
def KeepsHundredths (c : ℕ) : Prop :=
  ∃ places, placesOf F (F.nearest (c / 10 ^ 2)) = some places ∧ decimals places (F.nearest (c / 10 ^ 2)) = c

end Format

/-- With `steps` numbers to the unit: hundredths are the nearest to the number they are rounded to, and
no tenth is rounded to it. -/
def ToldApart (steps c : ℕ) : Prop :=
  let i := (steps * c + 50) / 100
  let apart := (100 * i - steps * c : ℤ).natAbs
  (2 * apart < steps ∨ 2 * apart = steps ∧ 2 ∣ c) ∧ 8 < (10 * i + 4) % steps

instance (steps c : ℕ) : Decidable (ToldApart steps c) := by
  unfold ToldApart
  infer_instance

theorem decimals_two_iff (steps i c : ℕ) (hsteps : 0 < steps) :
    decimals 2 (i / steps) = c ↔ 2 * (100 * i - steps * c : ℤ).natAbs < steps ∨
      2 * (100 * i - steps * c : ℤ).natAbs = steps ∧ 2 ∣ c := by
  have hpos : (0 : ℚ) < steps := by exact_mod_cast hsteps
  have hscaled : (i / steps * 10 ^ 2 - (c : ℤ) : ℚ) = (100 * i - steps * c : ℤ) / steps := by
    push_cast
    field_simp
    norm_num
  have habs : |(i / steps * 10 ^ 2 - (c : ℤ) : ℚ)| = ((100 * i - steps * c : ℤ).natAbs : ℚ) / steps := by
    rw [hscaled, abs_div, abs_of_pos hpos, Nat.cast_natAbs, Int.cast_abs]
  rw [← Int.natCast_inj, decimals_eq_roundEven (by positivity), roundEven_eq_iff, habs, div_lt_div_iff₀ hpos two_pos,
    div_eq_div_iff hpos.ne' two_ne_zero, Int.even_coe_nat, even_iff_two_dvd]
  norm_cast
  rw [mul_comm 2, one_mul]

/-- Only the place within half a unit matters. -/
theorem toldApart_mod_iff {half : ℕ} (c : ℕ) : ToldApart (2 * half) c ↔ ToldApart (2 * half) (c % 50) := by
  obtain ⟨q, r, hc, hr⟩ : ∃ q r, c = 50 * q + r ∧ c % 50 = r := ⟨c / 50, c % 50, by omega, rfl⟩
  have hindex : (2 * half * c + 50) / 100 = half * q + (2 * half * r + 50) / 100 := by
    rw [hc, show 2 * half * (50 * q + r) + 50 = 2 * half * r + 50 + 100 * (half * q) by ring,
      Nat.add_mul_div_left _ _ (by norm_num)]
    ring
  have hapart : (100 * ((half * q + (2 * half * r + 50) / 100 : ℕ) : ℤ) - (2 * half : ℕ) * c : ℤ) =
      100 * ((2 * half * r + 50) / 100 : ℕ) - (2 * half : ℕ) * r := by
    rw [hc]
    push_cast
    ring
  have htenth : (10 * (half * q + (2 * half * r + 50) / 100) + 4) % (2 * half) =
      (10 * ((2 * half * r + 50) / 100) + 4) % (2 * half) := by
    rw [show 10 * (half * q + (2 * half * r + 50) / 100) + 4 =
      10 * ((2 * half * r + 50) / 100) + 4 + 2 * half * (5 * q) by ring, Nat.add_mul_mod_self_left]
  have heven : 2 ∣ c ↔ 2 ∣ r := by omega
  simp only [ToldApart, hr, hindex, hapart, htenth, heven]

namespace Format
variable {F : Format} {k : ℕ}

section Binade
variable {x : ℚ}

theorem nonneg_of_mem_binade (hx : x ∈ F.binade k) : 0 ≤ x :=
  le_trans (by positivity) hx.1

/-- The bounds are decimals of any number of places. -/
theorem decimals_mem_binade (hx : x ∈ F.binade k) (places : ℕ) :
    (decimals places x / 10 ^ places : ℚ) ∈ F.binade k := by
  have hpos : (0 : ℚ) < 10 ^ places := by positivity
  have hscale : ∀ n, (2 : ℚ) ^ n * 10 ^ places = ((2 ^ n * 10 ^ places : ℤ) : ℚ) := fun n => by push_cast; rfl
  have hdecimals : (decimals places x : ℚ) = roundEven (x * 10 ^ places) := by
    exact_mod_cast decimals_eq_roundEven (nonneg_of_mem_binade hx) places
  constructor
  · rw [le_div_iff₀ hpos, hscale, hdecimals]
    have hle := le_roundEven (x := x * 10 ^ places) (k := 2 ^ (F.bits - 1 - k) * 10 ^ places)
      (by rw [← hscale]; exact mul_le_mul_of_nonneg_right hx.1 hpos.le)
    exact_mod_cast hle
  · rw [div_le_iff₀ hpos, hscale, hdecimals]
    have hle := roundEven_le (x := x * 10 ^ places) (k := 2 ^ (F.bits - k) * 10 ^ places)
      (by rw [← hscale]; exact mul_le_mul_of_nonneg_right hx.2 hpos.le)
    exact_mod_cast hle

variable (hk : k < F.bits)
include hk

theorem nearest_of_mem_binade (hleast : F.least ≤ -k) (hx : x ∈ F.binade k) :
    F.nearest x = roundEven (x * 2 ^ k) / 2 ^ k := by
  obtain ⟨hlow, hhigh⟩ := hx
  have hstep : (2 : ℚ) ^ (-(k : ℤ)) = (2 ^ k)⁻¹ := by rw [zpow_neg, zpow_natCast]
  rcases hhigh.lt_or_eq with hlt | heq
  · have hfirst : -(k : ℤ) + F.bits - 1 = (F.bits - 1 - k : ℕ) := by omega
    have hlast : -(k : ℤ) + F.bits = (F.bits - k : ℕ) := by omega
    have hbit : F.lastBit x = -k := by
      apply F.lastBit_eq hleast
      · rwa [hfirst, zpow_natCast]
      · rwa [hlast, zpow_natCast]
    rw [nearest, hbit, hstep, div_inv_eq_mul, div_eq_mul_inv]
  · -- The power of two itself is the first number of the next step, and a multiple of both.
    have hfirst : 1 - (k : ℤ) + F.bits - 1 = (F.bits - k : ℕ) := by omega
    have hlast : 1 - (k : ℤ) + F.bits = (F.bits - k + 1 : ℕ) := by omega
    have hbit : F.lastBit x = 1 - k := by
      apply F.lastBit_eq (by omega)
      · rw [hfirst, zpow_natCast, heq]
      · rw [hlast, zpow_natCast, heq]
        exact pow_lt_pow_right₀ (by norm_num) (by omega)
    have hhalf : x / 2 ^ (1 - (k : ℤ)) = ((2 ^ (F.bits - 1) : ℤ) : ℚ) := by
      rw [heq, ← zpow_natCast, ← zpow_sub₀ (by norm_num), Int.cast_pow, Int.cast_ofNat, ← zpow_natCast]
      congr 1
      omega
    have hwhole : x * 2 ^ k = ((2 ^ F.bits : ℤ) : ℚ) := by
      rw [heq, ← pow_add, Int.cast_pow, Int.cast_ofNat]
      congr 1
      omega
    rw [nearest, hbit, hhalf, hwhole, roundEven_intCast, roundEven_intCast, ← hwhole, ← hhalf]
    field_simp

theorem nearest_mem_binade (hleast : F.least ≤ -k) (hx : x ∈ F.binade k) : F.nearest x ∈ F.binade k := by
  have hpos : (0 : ℚ) < 2 ^ k := by positivity
  have hscale : ∀ n, (2 : ℚ) ^ n * 2 ^ k = ((2 ^ n * 2 ^ k : ℤ) : ℚ) := fun n => by push_cast; rfl
  rw [nearest_of_mem_binade hk hleast hx]
  constructor
  · rw [le_div_iff₀ hpos, hscale]
    have hle := le_roundEven (x := x * 2 ^ k) (k := 2 ^ (F.bits - 1 - k) * 2 ^ k)
      (by rw [← hscale]; exact mul_le_mul_of_nonneg_right hx.1 hpos.le)
    exact_mod_cast hle
  · rw [div_le_iff₀ hpos, hscale]
    have hle := roundEven_le (x := x * 2 ^ k) (k := 2 ^ (F.bits - k) * 2 ^ k)
      (by rw [← hscale]; exact mul_le_mul_of_nonneg_right hx.2 hpos.le)
    exact_mod_cast hle

end Binade

/-! ### Hundredths -/

/-- A tenth that is rounded to the same number is written in the place of the hundredths. -/
theorem keepsHundredths_iff {c : ℕ} (hc : 1000 ≤ c) (hnear : |F.nearest (c / 10 ^ 2) - c / 10 ^ 2| ≤ 1 / 2) :
    F.KeepsHundredths c ↔ F.nearest (decimals 1 (F.nearest (c / 10 ^ 2)) / 10 ^ 1) ≠ F.nearest (c / 10 ^ 2) ∧
      decimals 2 (F.nearest (c / 10 ^ 2)) = c := by
  set v := F.nearest (c / 10 ^ 2) with hv
  have hlarge : (1000 : ℚ) ≤ c := by exact_mod_cast hc
  have hbounds := abs_le.mp hnear
  have hnonneg : 0 ≤ v := by linarith
  constructor
  · rintro ⟨places, hplaces, hdecimals⟩
    have herror := abs_decimals_sub_le hnonneg places
    rw [hdecimals] at herror
    rw [placesOf, List.find?_range'_eq_some] at hplaces
    obtain ⟨-, hmem, hfewer⟩ := hplaces
    rw [List.mem_range'_1] at hmem
    have htwo : places = 2 := by
      rcases Nat.lt_trichotomy places 2 with hless | heq | hmore
      · obtain rfl : places = 1 := by omega
        have hupper := (abs_le.mp herror).2
        linarith
      · exact heq
      · -- The number would be less than a tenth of what it is.
        have hpow : (10 : ℚ) ^ 3 ≤ 10 ^ places := pow_le_pow_right₀ (by norm_num) hmore
        have hsmall : (c : ℚ) / 10 ^ places ≤ c / 10 ^ 3 :=
          div_le_div_of_nonneg_left (by linarith) (by norm_num) hpow
        have hunit : (1 : ℚ) / 2 / 10 ^ places ≤ 1 / 2 := div_le_self (by norm_num) (by linarith)
        have hlower := (abs_le.mp herror).1
        linarith
    subst htwo
    exact ⟨by simpa using hfewer 1 le_rfl (by norm_num), hdecimals⟩
  · rintro ⟨htenth, hdecimals⟩
    refine ⟨2, ?_, hdecimals⟩
    rw [placesOf, List.find?_range'_eq_some]
    refine ⟨?_, by decide, ?_⟩
    · rw [decide_eq_true_eq, hdecimals]
    · intro places hone htwo
      obtain rfl : places = 1 := by omega
      simpa using htenth

/-- Where the numbers are closer than hundredths, only a zero at the end is lost. -/
theorem keepsHundredths_iff_of_fine {n : ℤ} {c : ℕ} (hn : F.least ≤ n - F.bits)
    (hsmall : (c : ℚ) / 10 ^ 2 + 1 < 2 ^ n) (hfine : 2 ^ (n - F.bits) < (1 : ℚ) / 10 ^ 2) (hc : c ≠ 0) :
    F.KeepsHundredths c ↔ ¬ 10 ∣ c := by
  constructor
  · rintro ⟨places, hplaces, hdecimals⟩ ⟨m, rfl⟩
    have hsame : ((10 * m : ℕ) : ℚ) / 10 ^ 2 = m / 10 ^ 1 := by
      push_cast
      ring
    have hfine' : 2 ^ (n - F.bits) < (1 : ℚ) / 10 ^ 1 := lt_trans hfine (by norm_num)
    rw [hsame] at hplaces hdecimals hsmall
    rw [placesOf_nearest hn hsmall hfine' ⟨le_rfl, by norm_num⟩ (Or.inl rfl), Option.some.injEq] at hplaces
    rw [← hplaces, decimals_nearest hn hsmall hfine'] at hdecimals
    omega
  · intro hten
    exact ⟨2, placesOf_nearest hn hsmall hfine ⟨by norm_num, by norm_num⟩ (Or.inr hten),
      decimals_nearest hn hsmall hfine⟩

theorem hundredths_mem_binade {c : ℕ} (hlow : 2 ^ (F.bits - 1 - k) * 100 ≤ c) (hhigh : c ≤ 2 ^ (F.bits - k) * 100) :
    (c / 10 ^ 2 : ℚ) ∈ F.binade k := by
  have hlow' : (2 ^ (F.bits - 1 - k) * 100 : ℚ) ≤ c := by exact_mod_cast hlow
  have hhigh' : (c : ℚ) ≤ 2 ^ (F.bits - k) * 100 := by exact_mod_cast hhigh
  constructor
  · rw [le_div_iff₀ (by norm_num)]
    linarith
  · rw [div_le_iff₀ (by norm_num)]
    linarith

section Hundredths
variable (hk : k < F.bits) (hleast : F.least ≤ -k) {c : ℕ} (hc : (c / 10 ^ 2 : ℚ) ∈ F.binade k)
include hk hleast hc

omit hc in
theorem abs_nearest_sub_le_of_mem_binade {x : ℚ} (hx : x ∈ F.binade k) : |F.nearest x - x| ≤ 1 / 2 := by
  have hpos : (1 : ℚ) ≤ 2 ^ k := one_le_pow₀ (by norm_num)
  have herror := abs_roundEven_sub_le (x * 2 ^ k)
  have hscaled : F.nearest x - x = (roundEven (x * 2 ^ k) - x * 2 ^ k) / 2 ^ k := by
    rw [nearest_of_mem_binade hk hleast hx]
    field_simp
  rw [hscaled, abs_div, abs_of_pos (by linarith : (0 : ℚ) < 2 ^ k)]
  exact le_trans (div_le_self (abs_nonneg _) hpos) herror

/-- From steps of an eighth on, every number is written with one place. -/
theorem not_keepsHundredths (hcoarse : k ≤ 3) (hlarge : 1000 ≤ c) : ¬ F.KeepsHundredths c := by
  rw [keepsHundredths_iff hlarge (abs_nearest_sub_le_of_mem_binade hk hleast hc)]
  rintro ⟨htenth, -⟩
  apply htenth
  have hmem := nearest_mem_binade hk hleast hc
  have hpos : (0 : ℚ) < 2 ^ k := by positivity
  have hpow : (2 : ℚ) ^ k ≤ 2 ^ 3 := pow_le_pow_right₀ (by norm_num) hcoarse
  have herror := abs_decimals_sub_le (nonneg_of_mem_binade hmem) 1
  have hnearest := nearest_of_mem_binade hk hleast hc
  set v := F.nearest (c / 10 ^ 2)
  have hround : roundEven (decimals 1 v / 10 ^ 1 * 2 ^ k) = roundEven (c / 10 ^ 2 * 2 ^ k) := by
    apply roundEven_eq_of_abs_lt
    have hscaled : (decimals 1 v / 10 ^ 1 * 2 ^ k - roundEven (c / 10 ^ 2 * 2 ^ k) : ℚ) =
        (decimals 1 v / 10 ^ 1 - v) * 2 ^ k := by
      rw [hnearest]
      field_simp
    rw [hscaled, abs_mul, abs_of_pos hpos]
    calc |(decimals 1 v / 10 ^ 1 - v : ℚ)| * 2 ^ k ≤ 1 / 2 / 10 ^ 1 * 2 ^ 3 := by gcongr
      _ < 1 / 2 := by norm_num
  rw [nearest_of_mem_binade hk hleast (decimals_mem_binade hmem 1), hround, hnearest]

/-- The number of steps of the nearest number. No hundredth is a midpoint. -/
theorem nearest_hundredths (hfine : 2 ≤ k) :
    F.nearest (c / 10 ^ 2) = ((2 ^ k * c + 50) / 100 : ℕ) / 2 ^ k := by
  obtain ⟨quarter, hquarter⟩ : ∃ quarter, 2 ^ k * c = 4 * quarter :=
    ⟨2 ^ (k - 2) * c, by rw [← mul_assoc]; congr 1; rw [← pow_sub_mul_pow 2 hfine]; ring⟩
  have hround : roundEven (c / 10 ^ 2 * 2 ^ k) = ((2 ^ k * c + 50) / 100 : ℕ) := by
    apply roundEven_eq_of_abs_lt
    have hscaled : (c / 10 ^ 2 * 2 ^ k - (((2 ^ k * c + 50) / 100 : ℕ) : ℤ) : ℚ) =
        (2 ^ k * c - 100 * (((2 ^ k * c + 50) / 100 : ℕ) : ℤ) : ℤ) / 100 := by
      push_cast
      ring
    have hbound : |(2 ^ k * c - 100 * (((2 ^ k * c + 50) / 100 : ℕ) : ℤ) : ℤ)| < 50 := by
      have hcast : (2 ^ k * c : ℤ) = (2 ^ k * c : ℕ) := by push_cast; rfl
      rw [hcast, hquarter, abs_lt]
      omega
    have hbound' : |((2 ^ k * c - 100 * (((2 ^ k * c + 50) / 100 : ℕ) : ℤ) : ℤ) : ℚ)| < 50 := by
      exact_mod_cast hbound
    rw [hscaled, abs_div, abs_of_pos (by norm_num : (0 : ℚ) < 100)]
    linarith
  rw [nearest_of_mem_binade hk hleast hc, hround]
  push_cast
  rfl

omit hc in
/-- A tenth is rounded to a number when it is less than half a step away; no tenth is a midpoint. -/
theorem nearest_tenth_iff (hfine : 4 ≤ k) {i : ℕ} (hi : (i / 2 ^ k : ℚ) ∈ F.binade k) :
    F.nearest (decimals 1 (i / 2 ^ k) / 10 ^ 1) = i / 2 ^ k ↔ (10 * i + 4) % 2 ^ k ≤ 8 := by
  have hpos : (0 : ℚ) < 2 ^ k := by positivity
  have hwide : 2 ^ 4 ≤ 2 ^ k := Nat.pow_le_pow_right (by norm_num) hfine
  have heven : 2 ∣ 2 ^ k := dvd_pow_self 2 (by omega)
  have hnearest : ∀ t : ℕ, (roundEven (t / 10 ^ 1 * 2 ^ k) : ℚ) = i ↔ (2 ^ k * t - 10 * i : ℤ).natAbs < 5 := by
    intro t
    have habs : |(t / 10 ^ 1 * 2 ^ k - (i : ℤ) : ℚ)| = ((2 ^ k * t - 10 * i : ℤ).natAbs : ℚ) / 10 := by
      have hscaled : (t / 10 ^ 1 * 2 ^ k - (i : ℤ) : ℚ) = (2 ^ k * t - 10 * i : ℤ) / 10 := by
        push_cast
        ring
      rw [hscaled, abs_div, abs_of_pos (by norm_num : (0 : ℚ) < 10), Nat.cast_natAbs, Int.cast_abs]
    have hcast : (roundEven (t / 10 ^ 1 * 2 ^ k) : ℚ) = i ↔ roundEven (t / 10 ^ 1 * 2 ^ k) = (i : ℤ) := by
      norm_cast
    rw [hcast, roundEven_eq_iff, habs, div_lt_div_iff₀ (by norm_num) two_pos,
      div_eq_div_iff (by norm_num) two_ne_zero]
    have hodd : (2 ^ k * t - 10 * i : ℤ).natAbs ≠ 5 := by
      have hdvd : (2 : ℤ) ∣ 2 ^ k * t := Dvd.dvd.mul_right (by exact_mod_cast heven) _
      omega
    generalize (2 ^ k * t - 10 * i : ℤ).natAbs = apart at hodd ⊢
    norm_cast
    omega
  rw [nearest_of_mem_binade hk hleast (decimals_mem_binade hi 1), div_left_inj' hpos.ne', hnearest]
  constructor
  · intro hclose
    obtain ⟨rest, hrest, hsum⟩ : ∃ rest ≤ 8, 10 * i + 4 = rest + 2 ^ k * decimals 1 (i / 2 ^ k) := by
      have hcast : (2 ^ k * decimals 1 (i / 2 ^ k) : ℤ) = (2 ^ k * decimals 1 (i / 2 ^ k) : ℕ) := by push_cast; rfl
      rw [hcast] at hclose
      exact ⟨10 * i + 4 - 2 ^ k * decimals 1 (i / 2 ^ k), by omega, by omega⟩
    rw [hsum, Nat.add_mul_mod_self_left, Nat.mod_eq_of_lt (by omega)]
    exact hrest
  · intro hrest
    have hsum := Nat.div_add_mod (10 * i + 4) (2 ^ k)
    set t := (10 * i + 4) / 2 ^ k
    have hclose : (2 ^ k * t - 10 * i : ℤ).natAbs < 5 := by
      have hcast : (2 ^ k * t : ℤ) = (2 ^ k * t : ℕ) := by push_cast; rfl
      rw [hcast]
      omega
    have hdecimals : decimals 1 (i / 2 ^ k) = t := by
      rw [← Int.natCast_inj, decimals_eq_roundEven (nonneg_of_mem_binade hi)]
      apply roundEven_eq_of_abs_lt
      have hscaled : (i / 2 ^ k * 10 ^ 1 - (t : ℤ) : ℚ) = -(2 ^ k * t - 10 * i : ℤ) / 2 ^ k := by
        push_cast
        field_simp
        ring
      have hclose' : |((2 ^ k * t - 10 * i : ℤ) : ℚ)| < 5 := by
        rw [← Int.cast_abs, Int.abs_eq_natAbs]
        exact_mod_cast hclose
      have hwide' : (16 : ℚ) ≤ 2 ^ k := by exact_mod_cast hwide
      rw [hscaled, abs_div, abs_neg, abs_of_pos hpos, div_lt_div_iff₀ hpos two_pos]
      linarith
    rw [hdecimals]
    exact hclose

theorem keepsHundredths_iff_toldApart (hfine : 4 ≤ k) (hlarge : 1000 ≤ c) :
    F.KeepsHundredths c ↔ ToldApart (2 ^ k) c := by
  have hmem := nearest_mem_binade hk hleast hc
  rw [keepsHundredths_iff hlarge (abs_nearest_sub_le_of_mem_binade hk hleast hc)]
  rw [nearest_hundredths hk hleast hc (by omega)] at hmem ⊢
  have hsteps : ((2 ^ k : ℕ) : ℚ) = 2 ^ k := by push_cast; rfl
  have htwo := decimals_two_iff (2 ^ k) ((2 ^ k * c + 50) / 100) c (by positivity)
  rw [hsteps] at htwo
  rw [ne_eq, nearest_tenth_iff hk hleast hfine hmem, htwo, and_comm, not_le]
  rfl

end Hundredths
end Format
end FloatingPoint
