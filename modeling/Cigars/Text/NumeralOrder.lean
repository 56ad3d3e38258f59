import Cigars.Text.Digits
import Mathlib.Data.List.Lex

/-! Numerals compared as texts: unit by unit from the left, however many digits follow. -/
namespace Text

theorem append_lt_append_iff {α : Type} [LinearOrder α] {a b : List α} (h : a.length = b.length)
    (r s : List α) : a ++ r < b ++ s ↔ a < b ∨ a = b ∧ r < s := by
  induction a generalizing b with
  | nil =>
    obtain rfl : b = [] := List.length_eq_zero_iff.mp h.symm
    simp
  | cons x a ih =>
    cases b with
    | nil => simp at h
    | cons y b =>
      have hlength : a.length = b.length := by simpa using h
      rw [List.cons_append, List.cons_append, List.cons_lt_cons_iff, List.cons_lt_cons_iff, ih hlength,
        List.cons.injEq]
      tauto

/-- Characters compare as their code points. -/
theorem map_toNat_lt_iff (l l' : List Char) : l.map Char.toNat < l'.map Char.toNat ↔ l < l' := by
  induction l generalizing l' with
  | nil =>
    cases l' with
    | nil => simp
    | cons d l' => simp
  | cons c l ih =>
    cases l' with
    | nil => simp
    | cons d l' =>
      have hlt : c.toNat < d.toNat ↔ c < d := Iff.rfl
      rw [List.map_cons, List.map_cons, List.cons_lt_cons_iff, List.cons_lt_cons_iff, ih, hlt, Char.toNat_inj]

/-- Equally many digits compare as the numbers they stand for. -/
theorem lt_iff_value_lt {a b : List ℕ} (ha : ∀ u ∈ a, isDigit u = true) (hb : ∀ u ∈ b, isDigit u = true)
    (h : a.length = b.length) : a < b ↔ value 10 a < value 10 b := by
  induction a generalizing b with
  | nil =>
    obtain rfl : b = [] := List.length_eq_zero_iff.mp h.symm
    simp
  | cons x a ih =>
    cases b with
    | nil => simp at h
    | cons y b =>
      obtain ⟨hx, ha⟩ := List.forall_mem_cons.mp ha
      obtain ⟨hy, hb⟩ := List.forall_mem_cons.mp hb
      have hlength : a.length = b.length := by simpa using h
      have hcons : ∀ u (l : List ℕ), value 10 (u :: l) = digitValue u * 10 ^ l.length + value 10 l := by
        intro u l
        have happend := value_append 10 [u] l
        simpa [value] using happend
      have hdigitx := (digitValue_lt hx).2
      have hdigity := (digitValue_lt hy).2
      have hvaluea := value_lt ha
      have hvalueb := value_lt hb
      rw [hlength] at hvaluea
      rw [List.cons_lt_cons_iff, hcons, hcons, ih ha hb hlength, hlength]
      -- The first digits decide, unless they are the same.
      rcases lt_trichotomy x y with hlt | rfl | hgt
      · have hstep := Nat.mul_le_mul_right (10 ^ b.length) (show digitValue x + 1 ≤ digitValue y by omega)
        rw [Nat.add_mul] at hstep
        omega
      · omega
      · have hstep := Nat.mul_le_mul_right (10 ^ b.length) (show digitValue y + 1 ≤ digitValue x by omega)
        rw [Nat.add_mul] at hstep
        omega

theorem length_numeral (n : ℕ) : (numeral n).length = Nat.log 10 n + 1 := by
  unfold numeral
  split_ifs with hn
  · simp [hn]
  · simp [digits, Nat.length_digits 10 n (by norm_num) hn]

theorem digits_step {n : ℕ} (h : 0 < n) : digits n = digits (n / 10) ++ [n % 10 + 48] := by
  rw [digits, Nat.digits_def' (by norm_num) h, List.map_cons, List.reverse_cons]
  rfl

/-- The platform's text of a number. -/
theorem map_toNat_repr (n : ℕ) : n.repr.toList.map Char.toNat = numeral n := by
  have hdigit : ∀ d < 10, (Nat.digitChar d).toNat = d + 48 := by decide
  rw [Nat.toList_repr]
  induction n using Nat.strongRecOn with
  | ind n ih =>
    by_cases hn : n < 10
    · have hall : ∀ n < 10, numeral n = [n + 48] := by decide
      rw [Nat.toDigits_of_lt_base hn, hall n hn, List.map_singleton, hdigit n hn]
    · have hfront : numeral (n / 10) = digits (n / 10) := if_neg (by omega)
      have hwhole : numeral n = digits (n / 10) ++ [n % 10 + 48] := by
        rw [numeral, if_neg (by omega), digits_step (by omega)]
      rw [Nat.toDigits_of_base_le (by norm_num) (by omega), List.map_append, ih (n / 10) (by omega),
        List.map_singleton, hdigit _ (by omega), hwhole, hfront]

/-- The first digits of a number stand for a quotient of it. -/
theorem value_take {l : List ℕ} (h : ∀ u ∈ l, isDigit u = true) (k : ℕ) :
    value 10 (l.take k) = value 10 l / 10 ^ (l.length - k) := by
  have hsum := value_append 10 (l.take k) (l.drop k)
  have hlt := value_lt (l := l.drop k) fun u hu => h u (List.mem_of_mem_drop hu)
  rw [List.take_append_drop] at hsum
  rw [List.length_drop] at hsum hlt
  rw [hsum, Nat.mul_comm, Nat.mul_add_div (by positivity), Nat.div_eq_of_lt hlt, Nat.add_zero]

/-- Behind both numerals stands a unit below the digits. The smaller number comes first exactly when
it is at most the number of its length that the larger one begins with. -/
theorem numeral_append_lt_iff {m n : ℕ} (h : m < n) {c : ℕ} (hc : c < 48) (r s : List ℕ) :
    numeral m ++ c :: r < numeral n ++ c :: s ↔ m ≤ n / 10 ^ (Nat.log 10 n - Nat.log 10 m) := by
  have hm : ∀ u ∈ numeral m, isDigit u = true := fun u hu => isDigit_of_mem_numeral hu
  have hn : ∀ u ∈ numeral n, isDigit u = true := fun u hu => isDigit_of_mem_numeral hu
  have hlog : Nat.log 10 m ≤ Nat.log 10 n := Nat.log_mono_right h.le
  let front := (numeral n).take (numeral m).length
  let rest := (numeral n).drop (numeral m).length
  have hsplit : numeral n = front ++ rest := (List.take_append_drop _ _).symm
  have hlength : (numeral m).length = front.length := by
    rw [List.length_take, length_numeral, length_numeral]
    omega
  have hfront : ∀ u ∈ front, isDigit u = true := fun u hu => hn u (List.mem_of_mem_take hu)
  have hvalue : value 10 front = n / 10 ^ (Nat.log 10 n - Nat.log 10 m) := by
    rw [value_take hn, value_numeral, length_numeral, length_numeral, Nat.add_sub_add_right]
  -- If the larger number begins with the smaller one, it goes on with a digit.
  have hnext : numeral m = front → c :: r < rest ++ c :: s := by
    intro hsame
    cases hrest : rest with
    | nil =>
      rw [hrest, List.append_nil, ← hsame] at hsplit
      have hvalues := congrArg (value 10) hsplit
      rw [value_numeral, value_numeral] at hvalues
      omega
    | cons u rest' =>
      have hu := isDigit_iff.mp (hn u (by simp [hsplit, hrest]))
      rw [List.cons_append, List.cons_lt_cons_iff]
      left
      omega
  rw [hsplit, List.append_assoc, append_lt_append_iff hlength, lt_iff_value_lt hm hfront hlength, value_numeral,
    hvalue, Nat.le_iff_lt_or_eq]
  apply or_congr_right
  constructor
  · rintro ⟨hsame, -⟩
    rw [← hvalue, ← hsame, value_numeral]
  · intro hsame
    have hequal : numeral m = front := value_inj hm hfront hlength ((value_numeral m).trans (hsame.trans hvalue.symm))
    exact ⟨hequal, hnext hequal⟩

end Text
