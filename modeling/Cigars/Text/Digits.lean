import Mathlib.Data.Nat.Digits.Lemmas

/-! Digits as code units: the number a row of digits stands for, the digits of a number, and decimal
notation with a point. -/
namespace Text

def isDigit (u : ℕ) : Bool := 48 ≤ u && u ≤ 57

/-- Letters stand for the digits from ten on, in both cases. -/
def digitValue (u : ℕ) : ℕ := if u ≤ 57 then u - 48 else if u ≤ 70 then u - 55 else u - 87

def value (base : ℕ) (digits : List ℕ) : ℕ := Nat.ofDigits base (digits.map digitValue).reverse

/-- The digits of a number; zero has none. -/
def digits (n : ℕ) : List ℕ := ((Nat.digits 10 n).map (· + 48)).reverse

/-- The last `places` digits, with zeros in front. -/
def padded (places n : ℕ) : List ℕ := List.replicate (places - (digits n).length) 48 ++ digits n

/-- The digits of a number; zero has one. -/
def numeral (n : ℕ) : List ℕ := if n = 0 then [48] else digits n

/-- A number of units of the last place, written with that many places after the point. -/
def fixedPoint (places n : ℕ) : List ℕ := numeral (n / 10 ^ places) ++ 46 :: padded places (n % 10 ^ places)

theorem isDigit_iff {u : ℕ} : isDigit u = true ↔ 48 ≤ u ∧ u ≤ 57 := by
  simp [isDigit]

section Value

@[simp] theorem value_nil (base : ℕ) : value base [] = 0 := rfl

theorem value_append (base : ℕ) (a b : List ℕ) :
    value base (a ++ b) = value base a * base ^ b.length + value base b := by
  simp only [value, List.map_append, List.reverse_append, Nat.ofDigits_append, List.length_reverse, List.length_map]
  ring

theorem value_concat (base : ℕ) (l : List ℕ) (u : ℕ) :
    value base (l ++ [u]) = value base l * base + digitValue u := by
  rw [value_append]
  simp [value]

theorem digitValue_lt {u : ℕ} (h : isDigit u = true) : digitValue u < 10 ∧ digitValue u + 48 = u := by
  have hbounds := isDigit_iff.mp h
  simp only [digitValue, hbounds.2, if_true]
  omega

theorem digitValue_lt_of_mem {l : List ℕ} (h : ∀ u ∈ l, isDigit u = true) :
    ∀ d ∈ (l.map digitValue).reverse, d < 10 := by
  intro d hd
  obtain ⟨u, hu, rfl⟩ := List.mem_map.mp (List.mem_reverse.mp hd)
  exact (digitValue_lt (h u hu)).1

/-- Digits can be written again from what they stand for. -/
theorem map_digitValue {l : List ℕ} (h : ∀ u ∈ l, isDigit u = true) : (l.map digitValue).map (· + 48) = l := by
  rw [List.map_map]
  conv_rhs => rw [← List.map_id l]
  apply List.map_congr_left
  intro u hu
  exact (digitValue_lt (h u hu)).2

theorem value_lt {l : List ℕ} (h : ∀ u ∈ l, isDigit u = true) : value 10 l < 10 ^ l.length := by
  have hpow := Nat.ofDigits_lt_base_pow_length (by norm_num) (digitValue_lt_of_mem h)
  simpa [value] using hpow

/-- Rows of digits of one length differ in value. -/
theorem value_inj {a b : List ℕ} (ha : ∀ u ∈ a, isDigit u = true) (hb : ∀ u ∈ b, isDigit u = true)
    (hlength : a.length = b.length) (hvalue : value 10 a = value 10 b) : a = b := by
  have hlengths : (a.map digitValue).reverse.length = (b.map digitValue).reverse.length := by simpa using hlength
  have hreverse := Nat.ofDigits_inj_of_len_eq (by norm_num) hlengths (digitValue_lt_of_mem ha)
    (digitValue_lt_of_mem hb) hvalue
  rw [← map_digitValue ha, ← map_digitValue hb, List.reverse_injective hreverse]

end Value

/-! ### The digits of a number -/

section Digits

theorem isDigit_of_mem_digits {n u : ℕ} (h : u ∈ digits n) : isDigit u = true := by
  obtain ⟨d, hd, rfl⟩ := List.mem_map.mp (List.mem_reverse.mp h)
  have hlt := Nat.digits_lt_base (by norm_num) hd
  rw [isDigit_iff]
  omega

@[simp] theorem digits_zero : digits 0 = [] := rfl

@[simp] theorem value_digits (n : ℕ) : value 10 (digits n) = n := by
  have hmap : (digits n).map digitValue = (Nat.digits 10 n).reverse := by
    unfold digits
    rw [List.map_reverse, List.map_map]
    congr 1
    conv_rhs => rw [← List.map_id (Nat.digits 10 n)]
    apply List.map_congr_left
    intro d hd
    have hlt := Nat.digits_lt_base (by norm_num) hd
    have hle : d + 48 ≤ 57 := by omega
    simp [digitValue, hle]
  rw [value, hmap, List.reverse_reverse, Nat.ofDigits_digits]

theorem head_digits_ne_zero (n : ℕ) : (digits n).head? ≠ some 48 := by
  unfold digits
  rw [List.head?_reverse, List.getLast?_map]
  by_cases hn : n = 0
  · simp [hn]
  · have hne : Nat.digits 10 n ≠ [] := Nat.digits_ne_nil_iff_ne_zero.mpr hn
    have hlast := Nat.getLast_digit_ne_zero 10 hn
    rw [List.getLast?_eq_getLast_of_ne_nil hne]
    simpa using hlast

/-- A row of digits without a zero in front is the digits of its value. -/
theorem digits_value {l : List ℕ} (h : ∀ u ∈ l, isDigit u = true) (hhead : l.head? ≠ some 48) :
    digits (value 10 l) = l := by
  have hlast : ∀ hne : (l.map digitValue).reverse ≠ [], (l.map digitValue).reverse.getLast hne ≠ 0 := by
    intro hne hzero
    cases l with
    | nil => exact hne rfl
    | cons u l =>
      have hu := digitValue_lt (h u List.mem_cons_self)
      simp only [List.map_cons, List.reverse_cons, List.getLast_append_singleton] at hzero
      apply hhead
      rw [List.head?_cons]
      congr 1
      omega
  unfold digits value
  rw [Nat.digits_ofDigits 10 (by norm_num) _ (digitValue_lt_of_mem h) hlast, List.map_reverse, List.reverse_reverse,
    map_digitValue h]

/-- Zeros in front make no difference to the value. -/
theorem digits_value_eq_dropWhile {l : List ℕ} (h : ∀ u ∈ l, isDigit u = true) :
    l.dropWhile (· = 48) = digits (value 10 l) := by
  induction l with
  | nil => rfl
  | cons u l ih =>
    have hl : ∀ v ∈ l, isDigit v = true := fun v hv => h v (List.mem_cons_of_mem u hv)
    by_cases hu : u = 48
    · have hvalue : value 10 (48 :: l) = value 10 l := by
        simp [value, digitValue]
      rw [hu, List.dropWhile_cons_of_pos (by simp), ih hl, hvalue]
    · rw [List.dropWhile_cons_of_neg (by simpa using hu), digits_value h (by simpa using hu)]

theorem length_digits_le {places n : ℕ} (h : n < 10 ^ places) : (digits n).length ≤ places := by
  have hle := (Nat.digits_length_le_iff (by norm_num : 1 < 10) n).mpr h
  simpa [digits] using hle

theorem length_padded {places n : ℕ} (h : n < 10 ^ places) : (padded places n).length = places := by
  have hle := length_digits_le h
  simp only [padded, List.length_append, List.length_replicate]
  omega

theorem isDigit_of_mem_padded {places n u : ℕ} (h : u ∈ padded places n) : isDigit u = true := by
  rcases List.mem_append.mp h with hzero | hdigit
  · rw [List.eq_of_mem_replicate hzero]
    rfl
  · exact isDigit_of_mem_digits hdigit

theorem value_replicate (k : ℕ) : value 10 (List.replicate k 48) = 0 := by
  simp [value, digitValue]

@[simp] theorem value_padded (places n : ℕ) : value 10 (padded places n) = n := by
  rw [padded, value_append, value_replicate, value_digits, Nat.zero_mul, Nat.zero_add]

/-- A row of digits is the padded digits of its value. -/
theorem padded_value {l : List ℕ} (h : ∀ u ∈ l, isDigit u = true) : padded l.length (value 10 l) = l := by
  have hlt := value_lt h
  exact value_inj (fun u hu => isDigit_of_mem_padded hu) h (length_padded hlt) (value_padded _ _)

theorem isDigit_of_mem_numeral {n u : ℕ} (h : u ∈ numeral n) : isDigit u = true := by
  unfold numeral at h
  split_ifs at h
  · rw [List.mem_singleton.mp h]
    rfl
  · exact isDigit_of_mem_digits h

@[simp] theorem value_numeral (n : ℕ) : value 10 (numeral n) = n := by
  unfold numeral
  split_ifs with hn
  · rw [hn]
    rfl
  · exact value_digits n

theorem numeral_ne_nil (n : ℕ) : numeral n ≠ [] := by
  unfold numeral
  split_ifs with hn
  · simp
  · simpa [digits] using Nat.digits_ne_nil_iff_ne_zero.mpr hn

theorem numeral_value {l : List ℕ} (h : ∀ u ∈ l, isDigit u = true) (hne : l ≠ []) (hhead : l.head? ≠ some 48) :
    numeral (value 10 l) = l := by
  have hdigits := digits_value h hhead
  have hvalue : value 10 l ≠ 0 := by
    intro hzero
    rw [hzero] at hdigits
    exact hne hdigits.symm
  rw [numeral, if_neg hvalue, hdigits]

/-- The digits on both sides of the point together. -/
theorem value_fixedPoint (places n : ℕ) :
    value 10 (numeral (n / 10 ^ places) ++ padded places (n % 10 ^ places)) = n := by
  have hlt : n % 10 ^ places < 10 ^ places := Nat.mod_lt n (by positivity)
  rw [value_append, value_numeral, value_padded, length_padded hlt, Nat.div_add_mod']

end Digits
end Text
