import Mathlib.Data.Int.Order.Basic

/-! The standard library's functions on texts, as far as the fields and filters use them. -/
namespace Cigars

/-- Where the ten digits of a script begin. -/
def digitZeros : List ℕ :=
  [48, 1632, 1776, 1984, 2406, 2534, 2662, 2790, 2918, 3046, 3174, 3302, 3430, 3558, 3664, 3792, 3872, 4160, 4240,
    6112, 6160, 6470, 6608, 6784, 6800, 6992, 7088, 7232, 7248, 42528, 43216, 43264, 43472, 43504, 43600, 44016,
    65296]

/-- `Char.isDigit()`. -/
def isDigitUnit (u : ℕ) : Bool := digitZeros.any fun first => first ≤ u && u ≤ first + 9

/-- The value of a digit of any script. -/
def digitOf (u : ℕ) : Option ℕ :=
  (digitZeros.find? fun first => first ≤ u && u ≤ first + 9).map fun first => u - first

/-- The number a non-empty row of digits stands for. -/
def digitsValue : List Char → Option ℕ
  | [] => none
  | digits => digits.foldl (fun value c => value.bind fun n => (digitOf c.toNat).map fun d => n * 10 + d) (some 0)

/-- The number a text with an optional sign stands for. -/
def signedValue (text : String) : Option ℤ :=
  match text.toList with
  | '-' :: digits => (digitsValue digits).map fun n => -(n : ℤ)
  | '+' :: digits => (digitsValue digits).map fun n => (n : ℤ)
  | digits => (digitsValue digits).map fun n => (n : ℤ)

/-- One more than the largest `Long`. -/
def longLimit : ℤ := 9223372036854775808

/-- `String.toLong()`; `none` where it throws. -/
def toLong (text : String) : Option ℤ :=
  (signedValue text).filter fun n => decide (-longLimit ≤ n ∧ n < longLimit)

/-- `String.toInt()`; `none` where it throws. -/
def stringToInt (text : String) : Option ℤ :=
  (signedValue text).filter fun n => decide (-2147483648 ≤ n ∧ n < 2147483648)

theorem lt_longLimit_of_toLong {text : String} {n : ℤ} (h : toLong text = some n) : n < longLimit := by
  have hrange := (Option.filter_eq_some_iff.mp h).2
  exact (of_decide_eq_true hrange).2

theorem digitOf_of_isDigit {c : Char} (h : c.isDigit = true) : digitOf c.toNat = some (c.toNat - '0'.toNat) := by
  have hbounds : (48 ≤ c.toNat && c.toNat ≤ 48 + 9) = true := by
    simpa [Char.isDigit, UInt32.le_iff_toNat_le] using h
  rw [digitOf, digitZeros, List.find?_cons, hbounds]
  rfl

theorem isDigit_of_digitOf {c : Char} (hascii : c.toNat < 128) {d : ℕ} (h : digitOf c.toNat = some d) :
    c.isDigit = true := by
  have hall : ∀ u < 128, (digitOf u).isSome = true → 48 ≤ u ∧ u ≤ 57 := by decide
  have hbounds := hall c.toNat hascii (by rw [h]; rfl)
  simpa [Char.isDigit, UInt32.le_iff_toNat_le] using hbounds

theorem digitsValue_eq {digits : List Char} (hne : digits ≠ []) (h : ∀ c ∈ digits, c.isDigit = true) :
    digitsValue digits = some (Nat.ofDigitChars 10 digits 0) := by
  have hfold : ∀ (digits : List Char) (start : ℕ), (∀ c ∈ digits, c.isDigit = true) →
      digits.foldl (fun value c => value.bind fun n => (digitOf c.toNat).map fun d => n * 10 + d) (some start) =
        some (Nat.ofDigitChars 10 digits start) := by
    intro digits
    induction digits with
    | nil => simp [Nat.ofDigitChars]
    | cons c digits ih =>
      intro start h
      have hc := digitOf_of_isDigit (h c List.mem_cons_self)
      have hrest := ih (start * 10 + (c.toNat - '0'.toNat)) fun d hd => h d (List.mem_cons_of_mem c hd)
      rw [List.foldl_cons, Option.bind_some, hc, Option.map_some, hrest, Nat.ofDigitChars_eq_foldl,
        Nat.ofDigitChars_eq_foldl, List.foldl_cons, Nat.mul_comm]
  cases digits with
  | nil => exact absurd rfl hne
  | cons c digits => exact hfold (c :: digits) 0 h

/-- Among ASCII characters only the ten digits are. -/
theorem isDigit_of_digitsValue {digits : List Char} (hascii : ∀ c ∈ digits, c.toNat < 128) {n : ℕ}
    (h : digitsValue digits = some n) : digits ≠ [] ∧ ∀ c ∈ digits, c.isDigit = true := by
  have hfold : ∀ (digits : List Char) (start : Option ℕ), (∀ c ∈ digits, c.toNat < 128) →
      digits.foldl (fun value c => value.bind fun n => (digitOf c.toNat).map fun d => n * 10 + d) start = some n →
        start ≠ none ∧ ∀ c ∈ digits, c.isDigit = true := by
    intro digits
    induction digits with
    | nil => simp
    | cons c digits ih =>
      intro start hascii hstart
      rw [List.forall_mem_cons] at hascii
      obtain ⟨hsome, hrest⟩ := ih _ hascii.2 hstart
      rw [ne_eq, Option.bind_eq_none_iff, not_forall] at hsome
      obtain ⟨m, hm⟩ := hsome
      rw [Classical.not_imp, Option.map_eq_none_iff, ← ne_eq, Option.ne_none_iff_exists'] at hm
      obtain ⟨hm, d, hd⟩ := hm
      exact ⟨by simp [hm], List.forall_mem_cons.mpr ⟨isDigit_of_digitOf hascii.1 hd, hrest⟩⟩
  cases digits with
  | nil => simp [digitsValue] at h
  | cons c digits => exact ⟨by simp, (hfold (c :: digits) (some 0) hascii h).2⟩

theorem isDigit_of_mem_repr {n : ℕ} {c : Char} (h : c ∈ n.repr.toList) : c.isDigit = true := by
  rw [Nat.toList_repr] at h
  exact Nat.isDigit_of_mem_toDigits (by decide) (by decide) h

private theorem toList_toString_negSucc (m : ℕ) :
    (toString (Int.negSucc m)).toList = '-' :: (m + 1).repr.toList := by
  change ("-" ++ (m + 1).repr).toList = _
  rw [String.toList_append]
  rfl

theorem digitsValue_repr (n : ℕ) : digitsValue n.repr.toList = some n := by
  have hne : n.repr.toList ≠ [] := by
    rw [Nat.toList_repr]
    exact Nat.toDigits_ne_nil
  rw [digitsValue_eq hne fun c hc => isDigit_of_mem_repr hc, Nat.toList_repr,
    Nat.ofDigitChars_toDigits (by decide) (by decide)]

/-- The text of a number is read back as the number. -/
theorem signedValue_toString (n : ℤ) : signedValue (toString n) = some n := by
  cases n with
  | ofNat m =>
    have hvalue := digitsValue_repr m
    have htext : (toString (Int.ofNat m)).toList = m.repr.toList := rfl
    unfold signedValue
    rw [htext]
    split
    · rename_i digits hminus
      exact absurd (isDigit_of_mem_repr (hminus ▸ List.mem_cons_self : '-' ∈ m.repr.toList)) (by decide)
    · rename_i digits hplus
      exact absurd (isDigit_of_mem_repr (hplus ▸ List.mem_cons_self : '+' ∈ m.repr.toList)) (by decide)
    · rw [hvalue]
      rfl
  | negSucc m =>
    unfold signedValue
    rw [toList_toString_negSucc]
    simp only [digitsValue_repr]
    rfl

theorem mem_toString {n : ℤ} {c : Char} (h : c ∈ (toString n).toList) : c = '-' ∨ c.isDigit = true := by
  cases n with
  | ofNat m => exact Or.inr (isDigit_of_mem_repr (n := m) h)
  | negSucc m =>
    rw [toList_toString_negSucc, List.mem_cons] at h
    exact h.imp_right isDigit_of_mem_repr

/-- `Char.isWhitespace()`. -/
def isWhitespace (c : Char) : Bool :=
  let n := c.toNat
  (9 ≤ n && n ≤ 13) || (28 ≤ n && n ≤ 32) || n == 160 || n == 5760 || (8192 ≤ n && n ≤ 8202) ||
    n == 8232 || n == 8233 || n == 8239 || n == 8287 || n == 12288

/-- `String.isNotBlank()`. -/
def isNotBlank (text : String) : Bool := text.toList.any fun c => !isWhitespace c

/-- `String.toBoolean()`: "true" in any case. -/
def toBoolean (text : String) : Bool := text.toList.map Char.toLower == "true".toList

end Cigars
