import Cigars.Transformations.Basic
import Mathlib.Data.Set.Function

/-! Prices in a text field. In the field an amount is a row of digits, the number of cents; the screen
has it with a point, and as a `Double` between two changes of the text. -/
namespace Cigars
open Text FloatingPoint

namespace PriceVisualTransformation

/-! ### Digits and amounts -/

structure DigitString (d : List ℕ) : Prop where
  digit : ∀ u ∈ d, Text.isDigit u = true
  head : d.head? ≠ some 48

/-- Dollars without superfluous zeros, a point and two digits. -/
def CanonicalAmount (s : List ℕ) : Prop :=
  ∃ dollars cents, s = dollars ++ 46 :: cents ∧ dollars ≠ [] ∧ (∀ u ∈ dollars, Text.isDigit u = true) ∧
    (dollars = [48] ∨ dollars.head? ≠ some 48) ∧ cents.length = 2 ∧ ∀ u ∈ cents, Text.isDigit u = true

/-- The exact number a decimal text stands for, in cents. -/
def centsOf (s : List ℕ) : ℚ := 100 * (scan .decimal s).value .decimal

theorem isDigitUnit_of_isDigit {u : ℕ} (h : Text.isDigit u = true) : isDigitUnit u = true := by
  have hbounds := isDigit_iff.mp h
  have hfirst : (48 ≤ u && u ≤ 48 + 9) = true := by simpa using hbounds
  simp only [isDigitUnit, digitZeros, List.any_cons, hfirst, Bool.true_or]

theorem digitString_digits (c : ℕ) : DigitString (digits c) :=
  ⟨fun _ hu => isDigit_of_mem_digits hu, head_digits_ne_zero c⟩

theorem DigitString.eq_digits {d : List ℕ} (h : DigitString d) : d = digits (value 10 d) :=
  (digits_value h.digit h.head).symm

/-- The point stands before the last two units, of a text filled up with zeros to three units. -/
theorem exists_toTransformed (text : List ℕ) : ∃ dollars cents, toTransformed text = dollars ++ 46 :: cents ∧
    cents.length = 2 ∧ dollars ++ cents = List.replicate (3 - text.length) 48 ++ text := by
  match hlength : text.length with
  | 0 =>
    have hnil : text = [] := List.length_eq_zero_iff.mp hlength
    subst hnil
    exact ⟨[48], [48, 48], rfl, rfl, rfl⟩
  | 1 =>
    refine ⟨[48], 48 :: text, ?_, by simp [hlength], rfl⟩
    simp only [toTransformed, hlength]
    rfl
  | 2 =>
    refine ⟨[48], text, ?_, hlength, rfl⟩
    simp only [toTransformed, hlength]
    rfl
  | n + 3 =>
    have hcents : (text.drop (n + 1)).length = 2 := by
      rw [List.length_drop]
      omega
    have hfull : 3 - (n + 3) = 0 := by omega
    refine ⟨text.take (n + 1), text.drop (n + 1), ?_, hcents, ?_⟩
    · simp only [toTransformed, hlength]
      rfl
    · rw [hfull, List.take_append_drop]
      rfl

/-- Two digits stand behind the point, and the digits stand for the same number as before. -/
theorem exists_pointed {d : List ℕ} (hd : ∀ u ∈ d, Text.isDigit u = true) :
    ∃ dollars cents, toTransformed d = dollars ++ 46 :: cents ∧ dollars ≠ [] ∧
      (∀ u ∈ dollars, Text.isDigit u = true) ∧ (dollars = [48] ∨ dollars.head? = d.head?) ∧ cents.length = 2 ∧
      (∀ u ∈ cents, Text.isDigit u = true) ∧ value 10 (dollars ++ cents) = value 10 d := by
  obtain ⟨dollars, cents, htext, hlength, hfilled⟩ := exists_toTransformed d
  have hdigits : ∀ u ∈ dollars ++ cents, Text.isDigit u = true := by
    rw [hfilled]
    intro u hu
    rcases List.mem_append.mp hu with hzero | hu
    · rw [List.eq_of_mem_replicate hzero]
      rfl
    · exact hd u hu
  have hsum : dollars.length + 2 = 3 - d.length + d.length := by
    have hlengths := congrArg List.length hfilled
    rwa [List.length_append, List.length_append, List.length_replicate, hlength] at hlengths
  have hne : dollars ≠ [] := by
    intro hnil
    rw [hnil, List.length_nil] at hsum
    omega
  refine ⟨dollars, cents, htext, hne, fun u hu => hdigits u (List.mem_append_left cents hu), ?_, hlength,
    fun u hu => hdigits u (List.mem_append_right dollars hu), ?_⟩
  · have hhead : (dollars ++ cents).head? = dollars.head? := List.head?_append_of_ne_nil dollars hne
    rw [hfilled] at hhead
    by_cases hshort : d.length < 3
    · left
      obtain ⟨u, hu⟩ := List.length_eq_one_iff.mp (show dollars.length = 1 by omega)
      obtain ⟨k, hk⟩ : ∃ k, 3 - d.length = k + 1 := ⟨2 - d.length, by omega⟩
      rw [hk, hu, List.replicate_succ, List.cons_append, List.head?_cons, List.head?_cons, Option.some.injEq] at hhead
      rw [hu, ← hhead]
    · right
      have hfull : 3 - d.length = 0 := by omega
      rw [hfull] at hhead
      exact hhead.symm
  · rw [hfilled, value_append, value_replicate, Nat.zero_mul, Nat.zero_add]

/-- An amount is written as the number of its cents is with two places. -/
theorem pointed_eq_fixedPoint {dollars cents : List ℕ} (hne : dollars ≠ [])
    (hdollars : ∀ u ∈ dollars, Text.isDigit u = true) (hhead : dollars = [48] ∨ dollars.head? ≠ some 48)
    (hlength : cents.length = 2) (hcents : ∀ u ∈ cents, Text.isDigit u = true) :
    dollars ++ 46 :: cents = fixedPoint 2 (value 10 (dollars ++ cents)) := by
  have hlt := value_lt hcents
  have hpadded := padded_value hcents
  have hsum := value_append 10 dollars cents
  rw [hlength] at hlt hpadded hsum
  have hnumeral : numeral (value 10 dollars) = dollars := by
    rcases hhead with rfl | hhead
    · rfl
    · exact numeral_value hdollars hne hhead
  have hdiv : value 10 (dollars ++ cents) / 10 ^ 2 = value 10 dollars := by omega
  have hmod : value 10 (dollars ++ cents) % 10 ^ 2 = value 10 cents := by omega
  rw [fixedPoint, hdiv, hmod, hnumeral, hpadded]

theorem DigitString.toTransformed_eq {d : List ℕ} (h : DigitString d) :
    toTransformed d = fixedPoint 2 (value 10 d) := by
  obtain ⟨dollars, cents, htext, hne, hdollars, hhead, hlength, hcents, hvalue⟩ := exists_pointed h.digit
  have hhead' : dollars = [48] ∨ dollars.head? ≠ some 48 := by
    rcases hhead with hzero | hsame
    · exact Or.inl hzero
    · exact Or.inr (hsame ▸ h.head)
  rw [htext, pointed_eq_fixedPoint hne hdollars hhead' hlength hcents, hvalue]

/-- Reading an amount back drops the point and the zeros in front. -/
theorem fromTransformed_fixedPoint (places c : ℕ) : fromTransformed (fixedPoint places c) = digits c := by
  have hdigits : (fixedPoint places c).filter isDigitUnit =
      numeral (c / 10 ^ places) ++ padded places (c % 10 ^ places) := by
    have hnumeral : (numeral (c / 10 ^ places)).filter isDigitUnit = numeral (c / 10 ^ places) :=
      List.filter_eq_self.mpr fun u hu => isDigitUnit_of_isDigit (isDigit_of_mem_numeral hu)
    have hpadded : (padded places (c % 10 ^ places)).filter isDigitUnit = padded places (c % 10 ^ places) :=
      List.filter_eq_self.mpr fun u hu => isDigitUnit_of_isDigit (isDigit_of_mem_padded hu)
    have hpoint : isDigitUnit 46 = false := by decide
    rw [fixedPoint, List.filter_append, List.filter_cons, hnumeral, hpadded, hpoint]
    rfl
  have hall : ∀ u ∈ numeral (c / 10 ^ places) ++ padded places (c % 10 ^ places), Text.isDigit u = true := by
    intro u hu
    rcases List.mem_append.mp hu with hu | hu
    · exact isDigit_of_mem_numeral hu
    · exact isDigit_of_mem_padded hu
  have hne : (fixedPoint places c).isEmpty = false := by simp [fixedPoint]
  simp only [fromTransformed, hne, Bool.false_eq_true, if_false]
  rw [hdigits, digits_value_eq_dropWhile hall, value_fixedPoint]

theorem canonicalAmount_iff (s : List ℕ) : CanonicalAmount s ↔ ∃ c, s = fixedPoint 2 c := by
  constructor
  · rintro ⟨dollars, cents, rfl, hne, hdollars, hhead, hlength, hcents⟩
    exact ⟨_, pointed_eq_fixedPoint hne hdollars hhead hlength hcents⟩
  · rintro ⟨c, rfl⟩
    have hlt : c % 10 ^ 2 < 10 ^ 2 := Nat.mod_lt c (by norm_num)
    refine ⟨numeral (c / 10 ^ 2), padded 2 (c % 10 ^ 2), rfl, numeral_ne_nil _,
      fun u hu => isDigit_of_mem_numeral hu, ?_, length_padded hlt, fun u hu => isDigit_of_mem_padded hu⟩
    unfold numeral
    split_ifs
    · exact Or.inl rfl
    · exact Or.inr (head_digits_ne_zero _)

theorem centsOf_fixedPoint (c : ℕ) : centsOf (fixedPoint 2 c) = c := by
  have hlt : c % 10 ^ 2 < 10 ^ 2 := Nat.mod_lt c (by norm_num)
  have hne : numeral (c / 10 ^ 2) ++ padded 2 (c % 10 ^ 2) ≠ [] := by simp [numeral_ne_nil]
  have hnumeral := Numeral.wellFormed_pointed (fun u hu => isDigit_of_mem_numeral hu)
    (fun u hu => isDigit_of_mem_padded hu) hne
  have htext : (Numeral.pointed (numeral (c / 10 ^ 2)) (padded 2 (c % 10 ^ 2))).text = fixedPoint 2 c :=
    Numeral.text_pointed
  rw [centsOf, ← htext, hnumeral.scan_text, Numeral.value_pointed, value_fixedPoint, length_padded hlt]
  ring

/-- Rows of digits and amounts correspond one to one, each direction of the transformation undoing
the other, and the amount is the number of cents the digits stand for. -/
theorem amounts_correspond {d s : List ℕ} (hd : DigitString d) (hs : CanonicalAmount s) :
    fromTransformed (toTransformed d) = d ∧ toTransformed (fromTransformed s) = s ∧
      Set.BijOn toTransformed { d | DigitString d } { s | CanonicalAmount s } ∧
      centsOf (toTransformed d) = value 10 d := by
  have hfrom : ∀ d, DigitString d → fromTransformed (toTransformed d) = d := by
    intro d hd
    rw [hd.toTransformed_eq, fromTransformed_fixedPoint, ← hd.eq_digits]
  have hto : ∀ s, CanonicalAmount s → toTransformed (fromTransformed s) = s := by
    intro s hs
    obtain ⟨c, rfl⟩ := (canonicalAmount_iff s).mp hs
    rw [fromTransformed_fixedPoint, (digitString_digits c).toTransformed_eq, value_digits]
  have hmaps : Set.MapsTo toTransformed { d | DigitString d } { s | CanonicalAmount s } := by
    intro d hd
    exact (canonicalAmount_iff _).mpr ⟨_, DigitString.toTransformed_eq hd⟩
  have hmaps' : Set.MapsTo fromTransformed { s | CanonicalAmount s } { d | DigitString d } := by
    intro s hs
    obtain ⟨c, rfl⟩ := (canonicalAmount_iff s).mp hs
    rw [fromTransformed_fixedPoint]
    exact digitString_digits c
  have hinv : Set.InvOn fromTransformed toTransformed { d | DigitString d } { s | CanonicalAmount s } :=
    ⟨fun d hd => hfrom d hd, fun s hs => hto s hs⟩
  refine ⟨hfrom d hd, hto s hs, hinv.bijOn hmaps hmaps', ?_⟩
  rw [hd.toTransformed_eq, centsOf_fixedPoint]

theorem amounts_correspond_nickel : DigitString (utf16 "5") ∧ CanonicalAmount (utf16 "0.00") ∧
    fromTransformed (toTransformed (utf16 "5")) = utf16 "5" ∧
    toTransformed (fromTransformed (utf16 "0.00")) = utf16 "0.00" := by
  have hdigits : DigitString (utf16 "5") := ⟨by decide, by decide⟩
  have hamount : CanonicalAmount (utf16 "0.00") := by
    rw [canonicalAmount_iff]
    exact ⟨0, by decide⟩
  obtain ⟨hfrom, hto, -⟩ := amounts_correspond hdigits hamount
  exact ⟨hdigits, hamount, hfrom, hto⟩

end PriceVisualTransformation
end Cigars
