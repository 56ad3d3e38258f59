import Mathlib.Algebra.Order.Field.Power
import Mathlib.Algebra.Order.Floor.Ring
import Mathlib.Data.Int.Log
import Mathlib.Data.Rat.Floor
import Mathlib.Tactic.FieldSimp
import Mathlib.Tactic.Linarith
import Mathlib.Tactic.NormNum
import Mathlib.Tactic.Positivity

/-! Binary floating-point numbers, and rationals rounded to the nearest of them, at a midpoint to the
one with an even significand. -/
namespace FloatingPoint

/-! ### Rounding to integers -/

/-- The nearest integer, at a midpoint the even one of its two neighbours. -/
def roundEven (x : ℚ) : ℤ :=
  if Int.fract x < 1 / 2 then ⌊x⌋ else if 1 / 2 < Int.fract x then ⌊x⌋ + 1 else 2 * ((⌊x⌋ + 1) / 2)

theorem abs_roundEven_sub_le (x : ℚ) : |roundEven x - x| ≤ 1 / 2 := by
  have hsum := Int.floor_add_fract x
  have hnonneg := Int.fract_nonneg x
  have hlt := Int.fract_lt_one x
  unfold roundEven
  split_ifs with hlow hhigh
  · rw [abs_le]
    constructor <;> linarith
  · push_cast
    rw [abs_le]
    constructor <;> linarith
  · have hmid : Int.fract x = 1 / 2 := by linarith
    have heven : 2 * ((⌊x⌋ + 1) / 2) = ⌊x⌋ ∨ 2 * ((⌊x⌋ + 1) / 2) = ⌊x⌋ + 1 := by omega
    rcases heven with heq | heq
    · rw [heq, abs_le]
      constructor <;> linarith
    · rw [heq, abs_le]
      push_cast
      constructor <;> linarith

@[simp] theorem roundEven_zero : roundEven 0 = 0 := by
  simp [roundEven]

/-- A number is rounded to less than an even integer exactly when it is below the midpoint before
it: the midpoint itself goes to the even one. -/
theorem roundEven_lt_iff {k : ℤ} (hk : Even k) (x : ℚ) : roundEven x < k ↔ x < k - 1 / 2 := by
  have herror := abs_le.mp (abs_roundEven_sub_le x)
  constructor
  · intro hlt
    have hle : (roundEven x : ℚ) ≤ k - 1 := by exact_mod_cast Int.le_sub_one_of_lt hlt
    by_contra hnot
    -- Only the midpoint is left, and there the even neighbour is taken.
    have hx : x = k - 1 / 2 := by linarith
    have hfloor : ⌊x⌋ = k - 1 := by
      rw [Int.floor_eq_iff, hx]
      push_cast
      constructor <;> linarith
    have hfract : Int.fract x = 1 / 2 := by
      rw [← Int.self_sub_floor, hfloor, hx]
      push_cast
      ring
    have hround : roundEven x = 2 * ((k - 1 + 1) / 2) := by
      simp [roundEven, hfract, hfloor]
    obtain ⟨j, hj⟩ := hk
    omega
  · intro hlt
    have hround : (roundEven x : ℚ) < k := by linarith
    exact_mod_cast hround

theorem roundEven_eq_of_abs_lt {x : ℚ} {k : ℤ} (h : |x - k| < 1 / 2) : roundEven x = k := by
  have herror := abs_le.mp (abs_roundEven_sub_le x)
  have hnear := abs_lt.mp h
  have hlower : (k - 1 : ℚ) < roundEven x := by linarith
  have hupper : (roundEven x : ℚ) < k + 1 := by linarith
  have hlower' : k - 1 < roundEven x := by exact_mod_cast hlower
  have hupper' : roundEven x < k + 1 := by exact_mod_cast hupper
  omega

@[simp] theorem roundEven_intCast (k : ℤ) : roundEven k = k :=
  roundEven_eq_of_abs_lt (by simp)

theorem le_roundEven {x : ℚ} {k : ℤ} (h : k ≤ x) : k ≤ roundEven x := by
  have herror := (abs_le.mp (abs_roundEven_sub_le x)).1
  have hlt : (k : ℚ) - 1 < roundEven x := by linarith
  have hlt' : k - 1 < roundEven x := by exact_mod_cast hlt
  omega

theorem roundEven_le {x : ℚ} {k : ℤ} (h : x ≤ k) : roundEven x ≤ k := by
  have herror := (abs_le.mp (abs_roundEven_sub_le x)).2
  have hlt : (roundEven x : ℚ) < k + 1 := by linarith
  have hlt' : roundEven x < k + 1 := by exact_mod_cast hlt
  omega

/-- A midpoint goes to the even one of its neighbours. -/
theorem roundEven_midpoint {x : ℚ} (h : Int.fract x = 1 / 2) : roundEven x = 2 * ((⌊x⌋ + 1) / 2) := by
  simp [roundEven, h]

/-- The integers a number is rounded to are those nearer than a half, and the even ones a half away. -/
theorem roundEven_eq_iff {x : ℚ} {k : ℤ} : roundEven x = k ↔ |x - k| < 1 / 2 ∨ |x - k| = 1 / 2 ∧ Even k := by
  have hhalf : (0 : ℚ) ≤ 1 / 2 := by norm_num
  constructor
  · rintro rfl
    have herror := abs_roundEven_sub_le x
    rw [abs_sub_comm] at herror
    rcases herror.lt_or_eq with hlt | heq
    · exact Or.inl hlt
    · have hfract : Int.fract x = 1 / 2 := by
        rw [Int.fract_eq_iff]
        refine ⟨by norm_num, by norm_num, ?_⟩
        rcases (abs_eq hhalf).mp heq with habove | hbelow
        · exact ⟨roundEven x, by linarith⟩
        · exact ⟨roundEven x - 1, by push_cast; linarith⟩
      refine Or.inr ⟨heq, ?_⟩
      rw [roundEven_midpoint hfract]
      exact even_two_mul _
  · rintro (hlt | ⟨heq, j, hj⟩)
    · exact roundEven_eq_of_abs_lt hlt
    · have hfloor : ⌊x⌋ = k ∧ x = k + 1 / 2 ∨ ⌊x⌋ = k - 1 ∧ x = k - 1 / 2 := by
        rcases (abs_eq hhalf).mp heq with habove | hbelow
        · refine Or.inl ⟨?_, by linarith⟩
          rw [Int.floor_eq_iff]
          constructor <;> linarith
        · refine Or.inr ⟨?_, by linarith⟩
          rw [Int.floor_eq_iff]
          push_cast
          constructor <;> linarith
      have hfract : Int.fract x = 1 / 2 := by
        rw [← Int.self_sub_floor]
        rcases hfloor with ⟨hfloor, hx⟩ | ⟨hfloor, hx⟩
        · rw [hfloor, hx]
          ring
        · rw [hfloor, hx]
          push_cast
          ring
      rw [roundEven_midpoint hfract]
      omega

/-! ### Formats -/

/-- The significand has `bits` bits; the last of them stands for `2 ^ least` or more, and the numbers
stay below `2 ^ limit`. -/
structure Format where
  bits : ℕ
  least : ℤ
  limit : ℤ

def binary64 : Format := ⟨53, -1074, 1024⟩

def binary32 : Format := ⟨24, -149, 128⟩

namespace Format
variable (F : Format)

/-- The exponent of the last bit of a number's significand. -/
def lastBit (x : ℚ) : ℤ := max (Int.log 2 |x| + 1 - F.bits) F.least

/-- The nearest number with a significand of the format, whatever its size. -/
def nearest (x : ℚ) : ℚ := roundEven (x / 2 ^ F.lastBit x) * 2 ^ F.lastBit x

def Representable (q : ℚ) : Prop := ∃ m e : ℤ, |m| ≤ 2 ^ F.bits ∧ F.least ≤ e ∧ q = m * 2 ^ e

theorem abs_lt_lastBit (x : ℚ) : |x| < 2 ^ F.bits * 2 ^ F.lastBit x := by
  have hlog := Int.lt_zpow_succ_log_self (b := 2) (by norm_num) |x|
  have hle : Int.log 2 |x| + 1 ≤ F.bits + F.lastBit x := by
    unfold lastBit
    omega
  have hpow : (2 : ℚ) ^ (Int.log 2 |x| + 1) ≤ 2 ^ (F.bits + F.lastBit x) :=
    zpow_le_zpow_right₀ (by norm_num) hle
  have hsplit : (2 : ℚ) ^ (F.bits + F.lastBit x) = 2 ^ F.bits * 2 ^ F.lastBit x := by
    rw [zpow_add₀ (by norm_num), zpow_natCast]
  push_cast at hlog
  linarith

theorem representable_nearest (x : ℚ) : F.Representable (F.nearest x) := by
  have hpos : (0 : ℚ) < 2 ^ F.lastBit x := by positivity
  have hsmall : |x / 2 ^ F.lastBit x| < 2 ^ F.bits := by
    rw [abs_div, abs_of_pos hpos, div_lt_iff₀ hpos]
    exact F.abs_lt_lastBit x
  have herror := abs_le.mp (abs_roundEven_sub_le (x / 2 ^ F.lastBit x))
  have hbounds := abs_lt.mp hsmall
  have hround : |roundEven (x / 2 ^ F.lastBit x)| < 2 ^ F.bits + 1 := by
    rw [abs_lt]
    constructor
    · have hlower : (-(2 ^ F.bits + 1) : ℚ) < roundEven (x / 2 ^ F.lastBit x) := by linarith
      exact_mod_cast hlower
    · have hupper : (roundEven (x / 2 ^ F.lastBit x) : ℚ) < 2 ^ F.bits + 1 := by linarith
      exact_mod_cast hupper
  exact ⟨roundEven (x / 2 ^ F.lastBit x), F.lastBit x, by omega, le_max_right _ _, rfl⟩

theorem abs_nearest_sub_le_lastBit (x : ℚ) : |F.nearest x - x| ≤ 2 ^ F.lastBit x / 2 := by
  have hpos : (0 : ℚ) < 2 ^ F.lastBit x := by positivity
  have herror := abs_roundEven_sub_le (x / 2 ^ F.lastBit x)
  have hscaled : F.nearest x - x = (roundEven (x / 2 ^ F.lastBit x) - x / 2 ^ F.lastBit x) * 2 ^ F.lastBit x := by
    unfold nearest
    field_simp
  rw [hscaled, abs_mul, abs_of_pos hpos]
  calc |(roundEven (x / 2 ^ F.lastBit x) : ℚ) - x / 2 ^ F.lastBit x| * 2 ^ F.lastBit x
      ≤ 1 / 2 * 2 ^ F.lastBit x := mul_le_mul_of_nonneg_right herror hpos.le
    _ = 2 ^ F.lastBit x / 2 := by ring

theorem nearest_zero : F.nearest 0 = 0 := by
  simp [nearest]

/-- Half of the last bit of the numbers below a power of two bounds the error below it. -/
theorem abs_nearest_sub_le {x : ℚ} {n : ℤ} (hn : F.least ≤ n - F.bits) (hx : |x| < 2 ^ n) :
    |F.nearest x - x| ≤ 2 ^ (n - F.bits) / 2 := by
  by_cases hzero : x = 0
  · rw [hzero, F.nearest_zero, sub_zero, abs_zero]
    positivity
  · have hlog : Int.log 2 |x| < n := by
      have hiff := Int.lt_zpow_iff_log_lt (b := 2) (x := n) (by norm_num) (abs_pos.mpr hzero)
      push_cast at hiff
      exact hiff.mp hx
    have hlast : F.lastBit x ≤ n - F.bits := by
      unfold lastBit
      omega
    have hpow : (2 : ℚ) ^ F.lastBit x ≤ 2 ^ (n - F.bits) := zpow_le_zpow_right₀ (by norm_num) hlast
    have herror := F.abs_nearest_sub_le_lastBit x
    linarith

theorem lastBit_eq {x : ℚ} {e : ℤ} (he : F.least ≤ e) (hlow : 2 ^ (e + F.bits - 1) ≤ x)
    (hhigh : x < 2 ^ (e + F.bits)) : F.lastBit x = e := by
  have hxpos : 0 < x := lt_of_lt_of_le (by positivity) hlow
  have hlower := Int.zpow_le_iff_le_log (b := 2) (x := e + F.bits - 1) (by norm_num) hxpos
  have hupper := Int.lt_zpow_iff_log_lt (b := 2) (x := e + F.bits) (by norm_num) hxpos
  push_cast at hlower hupper
  have hle := hlower.mp hlow
  have hlt := hupper.mp hhigh
  unfold lastBit
  rw [abs_of_pos hxpos]
  omega

/-- Just below a power of two: numbers from the last midpoint on are rounded up to it. -/
theorem nearest_lt_iff (hbits : F.bits ≠ 0) {x : ℚ} {e : ℤ} (he : F.least ≤ e)
    (hlow : 2 ^ (e + F.bits - 1) ≤ x) (hhigh : x < 2 ^ (e + F.bits)) :
    F.nearest x < 2 ^ (e + F.bits) ↔ x < 2 ^ (e + F.bits) - 2 ^ e / 2 := by
  have hlast := F.lastBit_eq he hlow hhigh
  have hpos : (0 : ℚ) < 2 ^ e := by positivity
  have hpow : (2 : ℚ) ^ (e + F.bits) = 2 ^ F.bits * 2 ^ e := by
    rw [add_comm, zpow_add₀ (by norm_num), zpow_natCast]
  have heven : Even ((2 : ℤ) ^ F.bits) := (Int.even_pow.mpr ⟨even_two, hbits⟩)
  have hround := roundEven_lt_iff heven (x / 2 ^ e)
  push_cast at hround
  unfold nearest
  rw [hlast, hpow, mul_lt_mul_iff_left₀ hpos]
  constructor
  · intro hlt
    have hcast : roundEven (x / 2 ^ e) < 2 ^ F.bits := by exact_mod_cast hlt
    have hmid := hround.mp hcast
    rw [div_lt_iff₀ hpos] at hmid
    linarith
  · intro hlt
    have hmid : x / 2 ^ e < 2 ^ F.bits - 1 / 2 := by
      rw [div_lt_iff₀ hpos]
      linarith
    exact_mod_cast hround.mpr hmid

theorem nearest_le {x : ℚ} {e : ℤ} (he : F.least ≤ e) (hlow : 2 ^ (e + F.bits - 1) ≤ x)
    (hhigh : x < 2 ^ (e + F.bits)) : F.nearest x ≤ 2 ^ (e + F.bits) := by
  have hpos : (0 : ℚ) < 2 ^ e := by positivity
  have hpow : (2 : ℚ) ^ (e + F.bits) = 2 ^ F.bits * 2 ^ e := by
    rw [add_comm, zpow_add₀ (by norm_num), zpow_natCast]
  have hbelow : x / 2 ^ e < 2 ^ F.bits := by
    rw [div_lt_iff₀ hpos, ← hpow]
    exact hhigh
  have herror := (abs_le.mp (abs_roundEven_sub_le (x / 2 ^ e))).2
  have hround : roundEven (x / 2 ^ e) ≤ 2 ^ F.bits := by
    have hlt : (roundEven (x / 2 ^ e) : ℚ) < 2 ^ F.bits + 1 := by linarith
    have hcast : roundEven (x / 2 ^ e) < 2 ^ F.bits + 1 := by exact_mod_cast hlt
    omega
  have hround' : (roundEven (x / 2 ^ e) : ℚ) ≤ 2 ^ F.bits := by exact_mod_cast hround
  rw [nearest, F.lastBit_eq he hlow hhigh, hpow]
  exact mul_le_mul_of_nonneg_right hround' hpos.le

end Format

/-! ### Numbers -/

/-- Zero below zero is a number of its own. -/
inductive Number (F : Format)
  | nan
  | infinite (negative : Bool)
  | negativeZero
  | finite (value : ℚ) (representable : F.Representable value) (bounded : |value| < 2 ^ F.limit)
  deriving DecidableEq

namespace Number
variable {F : Format}

instance : Zero (Number F) := ⟨finite 0 ⟨0, F.least, by simp, le_rfl, by simp⟩ (by simp; positivity)⟩

@[simp] theorem zero_ne_nan : (0 : Number F) ≠ nan := fun h => by cases h

@[simp] theorem zero_ne_negativeZero : (0 : Number F) ≠ negativeZero := fun h => by cases h

/-- A rational rounded to the format; too large a number becomes infinite. -/
def ofRat (F : Format) (x : ℚ) : Number F :=
  if h : |F.nearest x| < 2 ^ F.limit then finite (F.nearest x) (F.representable_nearest x) h
  else infinite (decide (x < 0))

/-- A rational that was written with a sign: what is rounded to zero keeps it. -/
def ofSigned (F : Format) (negative : Bool) (x : ℚ) : Number F :=
  if negative ∧ F.nearest x = 0 then negativeZero else ofRat F x

/-- The value a number is compared by, of those that have one. -/
def value : Number F → ℚ
  | finite x _ _ => x
  | _ => 0

/-- Nothing is less or greater than `nan`, and the two zeros are not less than each other. -/
def lt : Number F → Number F → Bool
  | nan, _ => false
  | _, nan => false
  | infinite negative, infinite negative' => negative && !negative'
  | infinite negative, _ => negative
  | _, infinite negative => !negative
  | x, y => decide (x.value < y.value)

theorem ofRat_eq {x : ℚ} (h : |F.nearest x| < 2 ^ F.limit) :
    ofRat F x = finite (F.nearest x) (F.representable_nearest x) h := dif_pos h

theorem lt_ofRat_iff {x y : ℚ} (hx : |F.nearest x| < 2 ^ F.limit) (hy : |F.nearest y| < 2 ^ F.limit) :
    (ofRat F x).lt (ofRat F y) = true ↔ F.nearest x < F.nearest y := by
  rw [ofRat_eq hx, ofRat_eq hy, lt, decide_eq_true_eq]
  · rfl
  all_goals simp

@[simp] theorem ofSigned_false (x : ℚ) : ofSigned F false x = ofRat F x := by
  simp [ofSigned]

/-- The sign of zero makes no difference to what is less. -/
theorem ofSigned_lt (negative : Bool) (x : ℚ) (y : Number F) : (ofSigned F negative x).lt y = (ofRat F x).lt y := by
  unfold ofSigned
  split
  · rename_i h
    have hbounded : |F.nearest x| < 2 ^ F.limit := by
      rw [h.2, abs_zero]
      positivity
    rw [ofRat_eq hbounded]
    rw [Bool.eq_iff_iff]
    cases y <;> simp [lt, value, h.2]
    exact decide_eq_true_iff
  · rfl

end Number
end FloatingPoint
