import Cigars.Database.Listing
import Cigars.Rapid.Lengths
import Cigars.Text.NumeralOrder
import Mathlib.Data.String.Basic

/-! Cigars sorted by length. The database has the length as a text and compares texts bytewise: the
digits of the inches from the left, then the names of the sixteenths. -/
namespace Cigars
open Text Sql

/-! ### The texts of the lengths -/

/-- The inches of a number of sixteenths as the text has them, an `Int`. -/
def wholeInches (n : ℕ) : ℕ := min (n / 16) 2147483647

/-- The sixteenths the text has beside them. -/
def namedSixteenths (n : ℕ) : ℕ := if n / 16 ≤ 2147483647 then n % 16 else 0

theorem namedSixteenths_lt (n : ℕ) : namedSixteenths n < 16 := by
  unfold namedSixteenths
  split_ifs
  · omega
  · omega

theorem floor_sixteenths (n : ℕ) : ⌊(n : ℚ) / 16⌋ = (n / 16 : ℕ) := by
  have hdiv := Rat.floor_natCast_div_natCast n 16
  exact_mod_cast hdiv

theorem nearestSixteenths_div (n : ℕ) : nearestSixteenths (n / 16) = n % 16 := by
  have hfract : 16 * Int.fract ((n : ℚ) / 16) = (n % 16 : ℕ) := by
    have hsum : (16 * (n / 16 : ℕ) + (n % 16 : ℕ) : ℚ) = n := by exact_mod_cast Nat.div_add_mod n 16
    rw [← Int.self_sub_floor, floor_sixteenths, Int.cast_natCast]
    linarith
  have hceil : ⌈((n % 16 : ℕ) : ℚ) - 1 / 2⌉ = (n % 16 : ℕ) := by
    rw [Int.ceil_eq_iff, Int.cast_natCast]
    constructor
    · linarith
    · linarith
  rw [nearestSixteenths, hfract, hceil, Int.toNat_natCast]

theorem fraction_sixteenths (n : ℕ) :
    fraction ((n : ℚ) / 16) = inchesText (wholeInches n) (namedSixteenths n) := by
  unfold wholeInches namedSixteenths
  by_cases hsmall : n / 16 ≤ 2147483647
  · have hlt : (n : ℚ) / 16 < 2 ^ 31 := by
      rw [div_lt_iff₀ (by norm_num)]
      have hcast : n < 2 ^ 31 * 16 := by omega
      exact_mod_cast hcast
    rw [fraction_eq (by positivity) hlt, floor_sixteenths, nearestSixteenths_div, min_eq_left hsmall, if_pos hsmall]
  · have hle : 2 ^ 31 ≤ (n : ℚ) / 16 := by
      rw [le_div_iff₀ (by norm_num)]
      have hcast : 2 ^ 31 * 16 ≤ n := by omega
      exact_mod_cast hcast
    rw [fraction_of_le hle, min_eq_right (by omega), if_neg hsmall]
    rfl

/-- What stands behind the inches and their mark. -/
def afterInches (sixteenths : ℕ) : List ℕ :=
  if sixteenths = 0 then []
  else 32 :: ((fractions.getD (16 - sixteenths) "").toList.map Char.toNat ++ [8220])

theorem map_toNat_inchesText (whole : ℕ) {k : ℕ} (hk : k < 16) :
    (inchesText whole k).toList.map Char.toNat = numeral whole ++ 39 :: afterInches k := by
  have hwhole : (toString (whole : ℤ)).toList.map Char.toNat = numeral whole := map_toNat_repr whole
  unfold inchesText afterInches
  by_cases hzero : k = 0
  · rw [if_pos (Or.inl hzero), if_pos hzero, String.toList_append, List.map_append, hwhole]
    rfl
  · rw [if_neg (by omega), if_neg hzero]
    simp only [String.toList_append, List.map_append, List.append_assoc, hwhole]
    rfl

/-! ### Their order -/

/-- The places of the sixteenths when their names are sorted: none, 1/16, 1/2, 1/4, 1/8, 11/16, 13/16,
15/16, 3/16, 3/4, 3/8, 5/16, 5/8, 7/16, 7/8, 9/16. -/
def nameRank (sixteenths : ℕ) : ℕ := [0, 1, 4, 8, 3, 11, 10, 13, 2, 15, 12, 5, 9, 6, 14, 7].getD sixteenths 0

theorem afterInches_lt_iff {j k : ℕ} (hj : j < 16) (hk : k < 16) :
    afterInches j < afterInches k ↔ nameRank j < nameRank k := by
  have hall : ∀ j < 16, ∀ k < 16, afterInches j < afterInches k ↔ nameRank j < nameRank k := by decide +kernel
  exact hall j hj k hk

/-- Of equal inches the names of the sixteenths are in order; of different ones, the smaller number is
at most the number of its length that the larger begins with. -/
def TextsInOrder (m n : ℕ) : Prop :=
  wholeInches m = wholeInches n ∧ nameRank (namedSixteenths m) < nameRank (namedSixteenths n) ∨
    wholeInches m ≠ wholeInches n ∧
      wholeInches m ≤ wholeInches n / 10 ^ (Nat.log 10 (wholeInches n) - Nat.log 10 (wholeInches m))

instance decidableTextsInOrder (m n : ℕ) : Decidable (TextsInOrder m n) :=
  inferInstanceAs (Decidable (_ ∨ _))

theorem fraction_lt_fraction_iff {m n : ℕ} (h : m < n) :
    fraction ((m : ℚ) / 16) < fraction ((n : ℚ) / 16) ↔ TextsInOrder m n := by
  have hm := namedSixteenths_lt m
  have hn := namedSixteenths_lt n
  rw [fraction_sixteenths, fraction_sixteenths, String.lt_iff_toList_lt, ← map_toNat_lt_iff,
    map_toNat_inchesText _ hm, map_toNat_inchesText _ hn, TextsInOrder]
  by_cases hwhole : wholeInches m = wholeInches n
  · rw [hwhole, append_lt_append_iff rfl, List.cons_lt_cons_iff, afterInches_lt_iff hm hn]
    simp
  · have hlt : wholeInches m < wholeInches n := by
      unfold wholeInches at hwhole ⊢
      omega
    rw [numeral_append_lt_iff hlt (by norm_num)]
    simp [hwhole]

/-! ### The queries -/

/-- The text of the smaller length comes first; so do the cigars of that length in every list sorted by
length, and last in every list sorted the other way; and the lower bound on the length keeps the larger
length from the smaller one on, but not the other way round. -/
structure SortsByLength (x y : ℚ) : Prop where
  precedes : fraction x < fraction y
  ascending : ∀ cond db rows, collectRows (CigarsDatabase.select cond .asc "length" db) = .ok rows →
    rows.Pairwise fun c d : Cigar => ¬ (c.length = fraction y ∧ d.length = fraction x)
  descending : ∀ cond db rows, collectRows (CigarsDatabase.select cond .desc "length" db) = .ok rows →
    rows.Pairwise fun c d : Cigar => ¬ (c.length = fraction x ∧ d.length = fraction y)
  bound : ge (some (fraction y)) (fraction x) = some true ∧ ge (some (fraction x)) (fraction y) = some false

/-- In a list sorted by length, a text does not come before one that the order puts first. -/
theorem pairwise_length {dir : Direction} {u v : String} (h : dir.le (.text u) (.text v) = false)
    {cond : CigarsTable → Truth} {db : Database} {rows : List Cigar}
    (hrows : collectRows (CigarsDatabase.select cond dir "length" db) = .ok rows) :
    rows.Pairwise fun c d => ¬ (c.length = u ∧ d.length = v) := by
  rw [CigarsDatabase.select, collectRows_map_comp_ok] at hrows
  obtain rfl := Except.ok.inj hrows
  have hkey : ∀ r, cigarsSort "length" r = .text r.length := by simp [cigarsSort]
  have hsorted := pairwise_orderBy dir (fun r : ℤ × CigarsTable => cigarsSort "length" r.2)
    (whereTrue (fun r => cond r.2) db.cigarsTable.rows)
  simp only [hkey] at hsorted
  rw [List.pairwise_map]
  apply hsorted.imp
  rintro c d hle ⟨hc, hd⟩
  have hle' : dir.le (.text u) (.text v) = true := hc ▸ hd ▸ hle
  simp [h] at hle'

theorem sortsByLength_of_precedes {x y : ℚ} (h : fraction x < fraction y) : SortsByLength x y := by
  have hnot : ¬ fraction y ≤ fraction x := not_le.mpr h
  have hasc : Direction.asc.le (.text (fraction y)) (.text (fraction x)) = false := decide_eq_false hnot
  have hdesc : Direction.desc.le (.text (fraction x)) (.text (fraction y)) = false := decide_eq_false hnot
  refine ⟨h, fun _ _ _ hrows => pairwise_length hasc hrows, fun _ _ _ hrows => pairwise_length hdesc hrows, ?_⟩
  simp [ge, h.le, hnot]

/-- Two lengths, in sixteenths of an inch, are sorted as numbers exactly when their texts are in order. -/
theorem sortsByLength_iff {m n : ℕ} (h : m < n) :
    SortsByLength ((m : ℚ) / 16) ((n : ℚ) / 16) ↔ TextsInOrder m n := by
  rw [← fraction_lt_fraction_iff h]
  constructor
  · intro hsorts
    exact hsorts.precedes
  · intro hprecedes
    exact sortsByLength_of_precedes hprecedes

theorem sortsByLength_robusto : (80 : ℕ) < 82 ∧ SortsByLength ((80 : ℕ) / 16) ((82 : ℕ) / 16) := by
  have horder : TextsInOrder 80 82 := by decide
  exact ⟨by decide, (sortsByLength_iff (by decide)).mpr horder⟩

/-- Ten inches come before nine, and a lower bound of nine inches hides them. -/
theorem not_sortsByLength_tenInches : fraction 9 = "9'" ∧ fraction 10 = "10'" ∧ fraction 10 < fraction 9 ∧
    ge (some (fraction 10)) (fraction 9) = some false ∧ ¬ SortsByLength 9 10 := by
  have hnine : fraction 9 = "9'" := by decide +kernel
  have hten : fraction 10 = "10'" := by decide +kernel
  have hlt : fraction 10 < fraction 9 := by
    rw [hnine, hten]
    decide
  refine ⟨hnine, hten, hlt, by simp [ge, hlt], ?_⟩
  intro hsorts
  exact lt_asymm hlt hsorts.precedes

end Cigars
