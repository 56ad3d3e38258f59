import Cigars.FloatingPoint.Point
import Cigars.Transformations.PriceField
import Mathlib.Data.List.TakeWhile

/-! Which accepted price texts the screens can read. The field accepts every text of a number, and
the point is put before its last two units whatever they are. -/
namespace Cigars
open Text FloatingPoint

/-- `String.toFloat()`. -/
def toFloat (text : List ℕ) : Option (Number binary32) := parse binary32 text

/-- `price.value = if (it.isNotBlank()) it.toFloat() else 0f` in the dialog that adds a cigar. -/
def CigarSearchDetailsScreen.onPriceChange (price : Number binary32) (text : List ℕ) : Option (Number binary32) :=
  (TextStyled.onValueChange .price text).bind fun
    | none => some price
    | some it => if notBlank it then toFloat it else some (.ofRat binary32 0)

namespace PriceVisualTransformation

/-- The text for the screen is empty or a number. -/
def YieldsNumber (text : List ℕ) : Prop :=
  ∃ it, InputMode.price.toTransformed (some text) = some it ∧ (it = [] ∨ (toDouble it).isSome = true)

/-- The number has digits without a point, at most two units stand behind them, and the point that is
put in does not fall into what stands before them. -/
def PointFits (l : Literal) : Prop :=
  ∃ n, l.body.numeral = some n ∧ n.point = [] ∧ n.tail.length ≤ 2 ∧
    (2 ≤ n.whole.length + n.tail.length ∨ l.lead = [])

theorem length_text {l : Literal} {n : Numeral} (hl : l.WellFormed) (hn : l.body.numeral = some n)
    (hpoint : n.point = []) : l.text.length = l.lead.length + (n.whole.length + n.tail.length) := by
  rw [Literal.text_of_numeral hn, (hl.body.numeral hn).text_of_point_nil hpoint, List.length_append,
    List.length_append]

/-! ### Texts filled up with zeros -/

section Filled
variable {l l' : Literal} {n : Numeral} {k : ℕ}

theorem wellFormed_filled {radix : Radix} (h : n.WellFormed radix) (hpoint : n.point = []) (k : ℕ) :
    Numeral.WellFormed radix { n with whole := List.replicate k 48 ++ n.whole } := by
  have hzero : radix.isDigit 48 = true := by
    cases radix with
    | decimal => rfl
    | hexadecimal => rfl
  have hwhole : ∀ u ∈ List.replicate k 48 ++ n.whole, radix.isDigit u = true := by
    intro u hu
    rcases List.mem_append.mp hu with hu | hu
    · rw [List.eq_of_mem_replicate hu]
      exact hzero
    · exact h.whole u hu
  exact h.of_digits hwhole h.point h.fraction h.fraction_of (by simp [h.whole_ne_nil hpoint])

/-- A number of three units that starts with a zero has nothing before its digits, and they are decimal. -/
theorem lead_eq_nil (hl : l.WellFormed) (hn : l.body.numeral = some n) (hpoint : n.point = [])
    (hhead : l.text.head? = some 48) (hlength : l.text.length = 3) : l.body = .decimal n ∧ l.lead = [] := by
  have hwell := hl.body.numeral hn
  have hwhole := List.length_pos_of_ne_nil (hwell.whole_ne_nil hpoint)
  have hsum := length_text hl hn hpoint
  have hbefore : l.before = [] := by
    cases hcases : l.before with
    | nil => rfl
    | cons u before =>
      have hu : u = 48 := by simpa [Literal.text, hcases] using hhead
      exact absurd (hl.before u (by simp [hcases])) (by simp [hu, isBlank])
  have hsign : l.sign = [] := by
    cases hcases : l.sign with
    | nil => rfl
    | cons u sign =>
      have hu : u = 48 := by simpa [Literal.text, hbefore, hcases] using hhead
      exact absurd (hl.sign.2 u (by simp [hcases])) (by simp [hu, isSign])
  cases hbody : l.body with
  | word name after => simp [hbody, Body.numeral] at hn
  | decimal numeral =>
    obtain rfl : numeral = n := by simpa [hbody, Body.numeral] using hn
    exact ⟨rfl, by simp [Literal.lead, hbefore, hsign, hbody, Body.mark]⟩
  | hexadecimal mark numeral =>
    -- Hexadecimal digits stand between two letters, and have an exponent.
    rw [hbody] at hwell
    have hmark : 0 < n.mark.length := List.length_pos_of_ne_nil (hwell.mark_of rfl)
    have hexponent : 0 < n.exponent.length := by
      apply List.length_pos_of_ne_nil
      rw [ne_eq, hwell.exponent_iff]
      exact hwell.mark_of rfl
    have hlead : l.lead.length = 2 := by
      have hall : ∀ mark ∈ hexadecimalMarks, mark.length = 2 := by decide
      have hmem := hl.body
      rw [hbody] at hmem
      rw [Literal.lead, hbefore, hsign, hbody, List.nil_append, List.nil_append]
      exact hall mark hmem.1
    have htail : n.mark.length + n.exponent.length ≤ n.tail.length := by
      simp only [Numeral.tail, List.length_append]
      omega
    omega

/-- Zeros in front make a number of a number only if nothing stands before its digits. -/
theorem pointFits_of_filled (hl : l.WellFormed) (hl' : l'.WellFormed) (hn : l'.body.numeral = some n)
    (hpoint : n.point = []) (htail : n.tail.length ≤ 2) (htext : l'.text = List.replicate (k + 1) 48 ++ l.text)
    (hlength : l'.text.length = 3) : PointFits l := by
  obtain ⟨hbody, hlead⟩ := lead_eq_nil hl' hn hpoint (by rw [htext]; rfl) hlength
  have hwell : n.WellFormed .decimal := by
    have hwell := hl'.body.numeral hn
    rwa [hbody] at hwell
  have hsplit : n.whole ++ n.tail = List.replicate (k + 1) 48 ++ l.text := by
    rw [← htext, Literal.text_of_numeral hn, hlead, List.nil_append, hwell.text_of_point_nil hpoint]
  have hzeros : ∀ u ∈ List.replicate (k + 1) 48, Radix.decimal.isDigit u = true := by
    intro u hu
    rw [List.eq_of_mem_replicate hu]
    rfl
  have hrest : l.text.dropWhile Radix.decimal.isDigit = n.tail := by
    have hpieces := (takeWhile_piece hwell.whole hwell.starts_digit).2
    rwa [hsplit, List.dropWhile_append_of_pos hzeros] at hpieces
  have hdigits : l.text = l.text.takeWhile Radix.decimal.isDigit ++ n.tail := by
    rw [← hrest, List.takeWhile_append_dropWhile]
  -- The digits of the text itself, with the same units behind them, are its only reading.
  let own : Numeral := { n with whole := l.text.takeWhile Radix.decimal.isDigit }
  have hne : own.whole ≠ [] := by
    intro hnil
    rw [show l.text.takeWhile Radix.decimal.isDigit = [] from hnil, List.nil_append] at hdigits
    exact hl.text_ne_tail hwell hdigits
  have hown : own.WellFormed .decimal := hwell.of_digits (fun u hu => List.mem_takeWhile_imp hu) hwell.point
    hwell.fraction hwell.fraction_of (List.append_ne_nil_of_left_ne_nil hne n.fraction)
  have hliteral : Literal.WellFormed ⟨[], [], .decimal own⟩ := ⟨by simp, by simp [AtMostOne], hown⟩
  have hsame : l = ⟨[], [], .decimal own⟩ := by
    rw [← hl.scan_text, hdigits, ← hliteral.scan_text]
    congr 1
    change own.whole ++ n.tail = own.text
    rw [hown.text_of_point_nil hpoint]
    rfl
  rw [hsame]
  exact ⟨own, rfl, hpoint, htail, Or.inr rfl⟩

end Filled

/-! ### Accepted texts -/

theorem validate_iff (text : List ℕ) :
    validate text = true ↔ text = [] ∨ ∃ l : Literal, l.WellFormed ∧ l.text = text := by
  rw [validate, Bool.or_eq_true, List.isEmpty_iff, toDouble, parse_isSome_iff]

theorem parse_toTransformed_isSome_iff (F : Format) {l : Literal} (hl : l.WellFormed) :
    (parse F (toTransformed l.text)).isSome = true ↔ PointFits l := by
  obtain ⟨dollars, cents, htext, hcents, hfilled⟩ := exists_toTransformed l.text
  rw [htext, parse_point_isSome_iff, hfilled, hcents]
  by_cases hlong : 3 ≤ l.text.length
  · have hfull : 3 - l.text.length = 0 := by omega
    rw [hfull, List.replicate_zero, List.nil_append]
    constructor
    · rintro ⟨l', n, hl', hsame, hn, hpoint, htail, hwhole⟩
      have heq : l' = l := by rw [← hl'.scan_text, hsame, hl.scan_text]
      subst heq
      exact ⟨n, hn, hpoint, htail, Or.inl hwhole⟩
    · rintro ⟨n, hn, hpoint, htail, hwhole⟩
      refine ⟨l, n, hl, rfl, hn, hpoint, htail, ?_⟩
      rcases hwhole with hwhole | hlead
      · exact hwhole
      · have hsum := length_text hl hn hpoint
        rw [hlead, List.length_nil] at hsum
        omega
  · obtain ⟨k, hk⟩ : ∃ k, 3 - l.text.length = k + 1 := ⟨2 - l.text.length, by omega⟩
    rw [hk]
    constructor
    · rintro ⟨l', n, hl', hsame, hn, hpoint, htail, -⟩
      have hlength : l'.text.length = 3 := by
        rw [hsame, List.length_append, List.length_replicate]
        omega
      exact pointFits_of_filled hl hl' hn hpoint htail hsame hlength
    · rintro ⟨n, hn, hpoint, htail, hwhole⟩
      have hsum := length_text hl hn hpoint
      have hlead : l.lead = [] := by
        rcases hwhole with hwhole | hlead
        · exact List.length_eq_zero_iff.mp (by omega)
        · exact hlead
      have hwell := hl.body.numeral hn
      have hwell' := wellFormed_filled hwell hpoint (k + 1)
      refine ⟨l.withNumeral _, _, hl.withNumeral hwell', ?_, Body.numeral_withNumeral _ _, hpoint, htail, ?_⟩
      · rw [Literal.text_withNumeral, Literal.text_of_numeral hn, hlead, hwell'.text_of_point_nil hpoint,
          hwell.text_of_point_nil hpoint, List.nil_append, List.nil_append, List.append_assoc]
        rfl
      · change 2 ≤ (List.replicate (k + 1) 48 ++ n.whole).length + n.tail.length
        rw [hlead, List.length_nil] at hsum
        rw [List.length_append, List.length_replicate]
        omega

/-- What the screens are called with. -/
theorem onValueChange_price {l : Literal} (hl : l.WellFormed) :
    l.text ≠ [] ∧ TextStyled.onValueChange .price l.text = some (some (toTransformed l.text)) ∧
      InputMode.price.toTransformed (some l.text) = some (toTransformed l.text) := by
  have hvalid : InputMode.price.validate l.text = true := (validate_iff l.text).mpr (Or.inr ⟨l, hl, rfl⟩)
  have hne : l.text ≠ [] := by
    obtain ⟨u, hu, -⟩ := hl.body.head_text
    intro hnil
    simp only [Literal.text, List.append_eq_nil_iff] at hnil
    simp [hnil.2.2] at hu
  have htransformed : InputMode.price.toTransformed (some l.text) = some (toTransformed l.text) := by
    cases htext : l.text with
    | nil => exact absurd htext hne
    | cons u text => rfl
  refine ⟨hne, ?_, htransformed⟩
  rw [TextStyled.onValueChange, if_pos hvalid, htransformed]
  rfl

theorem notBlank_toTransformed (text : List ℕ) : notBlank (toTransformed text) = true := by
  obtain ⟨dollars, cents, htext, -⟩ := exists_toTransformed text
  rw [htext, notBlank_iff]
  exact ⟨46, by simp, by decide⟩

theorem details_isSome_iff (price : Option Double) {text : List ℕ} (h : validate text = true) :
    (CigarDetailsScreen.onPriceChange price text).isSome = true ↔ text ≠ [] ∧ PointFits (Literal.scan text) := by
  rcases (validate_iff text).mp h with rfl | ⟨l, hl, rfl⟩
  · have hthrows : (CigarDetailsScreen.onPriceChange price []).isSome = false := rfl
    simp [hthrows]
  · obtain ⟨hne, hcall, -⟩ := onValueChange_price hl
    rw [CigarDetailsScreen.onPriceChange, hcall, hl.scan_text, Option.bind_some, Option.isSome_map, toDouble,
      parse_toTransformed_isSome_iff binary64 hl]
    simp [hne]

theorem search_isSome_iff (price : Number binary32) {text : List ℕ} (h : validate text = true) :
    (CigarSearchDetailsScreen.onPriceChange price text).isSome = true ↔
      text = [] ∨ PointFits (Literal.scan text) := by
  rcases (validate_iff text).mp h with rfl | ⟨l, hl, rfl⟩
  · exact iff_of_true rfl (Or.inl rfl)
  · obtain ⟨hne, hcall, -⟩ := onValueChange_price hl
    rw [CigarSearchDetailsScreen.onPriceChange, hcall, hl.scan_text, Option.bind_some]
    simp only [notBlank_toTransformed, if_true, toFloat, parse_toTransformed_isSome_iff binary32 hl, hne, false_or]

/-- An accepted text becomes empty or a number, and the dialog reads it, exactly when it is empty or
the point fits. The details screen does not read the empty text. -/
theorem yieldsNumber_iff {text : List ℕ} (h : validate text = true) :
    (YieldsNumber text ↔ text = [] ∨ PointFits (Literal.scan text)) ∧
      (∀ price, (CigarSearchDetailsScreen.onPriceChange price text).isSome = true ↔
        text = [] ∨ PointFits (Literal.scan text)) ∧
      ∀ price, (CigarDetailsScreen.onPriceChange price text).isSome = true ↔
        text ≠ [] ∧ PointFits (Literal.scan text) := by
  refine ⟨?_, fun price => search_isSome_iff price h, fun price => details_isSome_iff price h⟩
  rcases (validate_iff text).mp h with rfl | ⟨l, hl, rfl⟩
  · exact iff_of_true ⟨[], rfl, Or.inl rfl⟩ (Or.inl rfl)
  · obtain ⟨hne, -, htransformed⟩ := onValueChange_price hl
    have hempty : toTransformed l.text ≠ [] := by
      intro hnil
      have hprinted := notBlank_toTransformed l.text
      rw [hnil] at hprinted
      exact absurd hprinted (by decide)
    rw [hl.scan_text, YieldsNumber, htransformed]
    simp only [Option.some.injEq, exists_eq_left', hempty, hne, false_or]
    exact parse_toTransformed_isSome_iff binary64 hl

theorem yieldsNumber_dollarAndHalf : validate (utf16 "150") = true ∧ YieldsNumber (utf16 "150") := by
  have hvalid : validate (utf16 "150") = true := by decide
  refine ⟨hvalid, (yieldsNumber_iff hvalid).1.mpr (Or.inr ?_)⟩
  exact ⟨⟨utf16 "150", [], [], [], [], [], [], []⟩, by decide, by decide, by decide, by decide⟩

/-- A point that was typed makes two points, and the screens throw. -/
theorem not_yieldsNumber_typedPoint : validate (utf16 "1.5") = true ∧
    InputMode.price.toTransformed (some (utf16 "1.5")) = some (utf16 "1..5") ∧ ¬ YieldsNumber (utf16 "1.5") ∧
    CigarDetailsScreen.onPriceChange none (utf16 "1.5") = none ∧
    CigarSearchDetailsScreen.onPriceChange (.ofRat binary32 0) (utf16 "1.5") = none := by
  have htext : InputMode.price.toTransformed (some (utf16 "1.5")) = some (utf16 "1..5") := by decide
  refine ⟨by decide, htext, ?_, by decide, by decide⟩
  rintro ⟨it, hit, hnumber⟩
  obtain rfl : utf16 "1..5" = it := by simpa [htext] using hit
  revert hnumber
  decide

end PriceVisualTransformation
end Cigars
