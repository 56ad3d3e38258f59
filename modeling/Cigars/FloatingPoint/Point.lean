import Cigars.FloatingPoint.Literal

/-! Where the point of a number can stand. It moves through the digits of a literal, or is left out,
and the other pieces stay what they are. -/
namespace FloatingPoint
open Text

namespace Numeral

/-- A point behind the first `k` digits. -/
def withPoint (n : Numeral) (k : ℕ) : Numeral :=
  { n with whole := n.whole.take k, point := [46], fraction := n.whole.drop k }

def withoutPoint (n : Numeral) : Numeral :=
  { n with whole := n.whole ++ n.fraction, point := [], fraction := [] }

variable {radix : Radix} {n : Numeral}

/-- Other digits, with the same units behind them. -/
theorem WellFormed.of_digits (h : n.WellFormed radix) {whole point fraction : List ℕ}
    (hwhole : ∀ u ∈ whole, radix.isDigit u = true) (hpoint : AtMostOne isPoint point)
    (hfraction : ∀ u ∈ fraction, radix.isDigit u = true) (hof : point = [] → fraction = [])
    (hne : whole ++ fraction ≠ []) :
    Numeral.WellFormed radix { n with whole := whole, point := point, fraction := fraction } :=
  { h with whole := hwhole, point := hpoint, fraction := hfraction, fraction_of := hof, digits := hne }

theorem WellFormed.whole_ne_nil (h : n.WellFormed radix) (hpoint : n.point = []) : n.whole ≠ [] := by
  have hdigits := h.digits
  rwa [h.fraction_of hpoint, List.append_nil] at hdigits

theorem WellFormed.withPoint (h : n.WellFormed radix) (hpoint : n.point = []) (k : ℕ) :
    (n.withPoint k).WellFormed radix := by
  have hne : n.whole.take k ++ n.whole.drop k ≠ [] := by
    rw [List.take_append_drop]
    exact h.whole_ne_nil hpoint
  exact h.of_digits (fun u hu => h.whole u (List.mem_of_mem_take hu)) (by decide)
    (fun u hu => h.whole u (List.mem_of_mem_drop hu)) (by simp) hne

theorem WellFormed.withoutPoint (h : n.WellFormed radix) : n.withoutPoint.WellFormed radix := by
  have hwhole : ∀ u ∈ n.whole ++ n.fraction, radix.isDigit u = true := by
    intro u hu
    rcases List.mem_append.mp hu with hu | hu
    · exact h.whole u hu
    · exact h.fraction u hu
  have hne : (n.whole ++ n.fraction) ++ [] ≠ [] := by
    rw [List.append_nil]
    exact h.digits
  exact h.of_digits hwhole (by decide) (by simp) (fun _ => rfl) hne

theorem WellFormed.text_of_point_nil (h : n.WellFormed radix) (hpoint : n.point = []) :
    n.text = n.whole ++ n.tail := by
  rw [text, hpoint, h.fraction_of hpoint, List.nil_append, List.nil_append]

/-- Only the point is a point. -/
theorem WellFormed.notMem (h : n.WellFormed radix) : 46 ∉ n.whole ∧ 46 ∉ n.fraction ∧ 46 ∉ n.tail := by
  have hdigit : radix.isDigit 46 = false := by
    cases radix with
    | decimal => rfl
    | hexadecimal => rfl
  refine ⟨fun hu => ?_, fun hu => ?_, fun hu => ?_⟩
  · exact absurd (h.whole 46 hu) (by simp [hdigit])
  · exact absurd (h.fraction 46 hu) (by simp [hdigit])
  · simp only [tail, List.mem_append] at hu
    rcases hu with hu | hu | hu | hu | hu
    · have hbounds := isMark_bounds (h.mark.2 46 hu)
      omega
    · exact absurd (h.exponentSign.2 46 hu) (by decide)
    · exact absurd (h.exponent 46 hu) (by decide)
    · exact absurd (h.suffix.2 46 hu) (by decide)
    · exact absurd (h.after 46 hu) (by decide)

end Numeral

namespace Body

/-- What marks the digits as hexadecimal. -/
def mark : Body → List ℕ
  | word _ _ => []
  | decimal _ => []
  | hexadecimal mark _ => mark

def numeral : Body → Option Numeral
  | word _ _ => none
  | decimal numeral => some numeral
  | hexadecimal _ numeral => some numeral

def radix : Body → Radix
  | word _ _ => .decimal
  | decimal _ => .decimal
  | hexadecimal _ _ => .hexadecimal

/-- Other digits in the place of the ones there. -/
def withNumeral (b : Body) (n : Numeral) : Body :=
  match b with
  | word _ _ => decimal n
  | decimal _ => decimal n
  | hexadecimal mark _ => hexadecimal mark n

variable {b : Body} {n : Numeral}

theorem WellFormed.numeral (h : b.WellFormed) (hn : b.numeral = some n) : n.WellFormed b.radix := by
  cases b with
  | word name after => simp [Body.numeral] at hn
  | decimal numeral =>
    obtain rfl : numeral = n := by simpa [Body.numeral] using hn
    exact h
  | hexadecimal mark numeral =>
    obtain rfl : numeral = n := by simpa [Body.numeral] using hn
    exact h.2

theorem text_of_numeral (hn : b.numeral = some n) : b.text = b.mark ++ n.text := by
  cases b with
  | word name after => simp [numeral] at hn
  | decimal numeral =>
    obtain rfl : numeral = n := by simpa [Body.numeral] using hn
    rfl
  | hexadecimal mark numeral =>
    obtain rfl : numeral = n := by simpa [Body.numeral] using hn
    rfl

theorem WellFormed.withNumeral (h : b.WellFormed) (hn : n.WellFormed b.radix) : (b.withNumeral n).WellFormed := by
  cases b with
  | word name after => exact hn
  | decimal numeral => exact hn
  | hexadecimal mark numeral => exact ⟨h.1, hn⟩

@[simp] theorem numeral_withNumeral (b : Body) (n : Numeral) : (b.withNumeral n).numeral = some n := by
  cases b <;> rfl

@[simp] theorem mark_withNumeral (b : Body) (n : Numeral) : (b.withNumeral n).mark = b.mark := by
  cases b <;> rfl

end Body

namespace Literal
variable {l : Literal} {n : Numeral}

/-- What stands before the digits. -/
def lead (l : Literal) : List ℕ := l.before ++ (l.sign ++ l.body.mark)

def withNumeral (l : Literal) (n : Numeral) : Literal := { l with body := l.body.withNumeral n }

theorem text_of_numeral (hn : l.body.numeral = some n) : l.text = l.lead ++ n.text := by
  rw [text, lead, Body.text_of_numeral hn, List.append_assoc, List.append_assoc]

theorem WellFormed.withNumeral (h : l.WellFormed) (hn : n.WellFormed l.body.radix) :
    (l.withNumeral n).WellFormed :=
  ⟨h.before, h.sign, h.body.withNumeral hn⟩

theorem text_withNumeral (l : Literal) (n : Numeral) : (l.withNumeral n).text = l.lead ++ n.text := by
  have htext := text_of_numeral (Body.numeral_withNumeral l.body n) (l := l.withNumeral n)
  rwa [lead, withNumeral, Body.mark_withNumeral] at htext

theorem WellFormed.notMem_lead (h : l.WellFormed) : 46 ∉ l.lead := by
  unfold lead
  simp only [List.mem_append]
  rintro (hu | hu | hu)
  · exact absurd (h.before 46 hu) (by decide)
  · exact absurd (h.sign.2 46 hu) (by decide)
  · have hbody := h.body
    cases hcases : l.body with
    | word name after => simp [hcases, Body.mark] at hu
    | decimal numeral => simp [hcases, Body.mark] at hu
    | hexadecimal mark numeral =>
      rw [hcases] at hu hbody
      have hall : ∀ mark ∈ hexadecimalMarks, 46 ∉ mark := by decide
      exact hall mark hbody.1 hu

/-- A point in a literal stands between digits, or at one end of them. -/
theorem WellFormed.exists_of_point (h : l.WellFormed) (hmem : 46 ∈ l.text) :
    ∃ n, l.body.numeral = some n ∧ n.point = [46] := by
  have hbody := h.body
  have hlead := h.notMem_lead
  cases hn : l.body.numeral with
  | none =>
    cases hcases : l.body with
    | word name after =>
      rw [hcases] at hbody
      have hall : ∀ name ∈ words, 46 ∉ name := by decide
      simp only [text, hcases, Body.text, List.mem_append] at hmem
      rcases hmem with hu | hu | hu | hu
      · exact absurd (h.before 46 hu) (by decide)
      · exact absurd (h.sign.2 46 hu) (by decide)
      · exact absurd hu (hall name hbody.1)
      · exact absurd (hbody.2 46 hu) (by decide)
    | decimal numeral => simp [hcases, Body.numeral] at hn
    | hexadecimal mark numeral => simp [hcases, Body.numeral] at hn
  | some n =>
    refine ⟨n, rfl, ?_⟩
    have hwell := hbody.numeral hn
    obtain ⟨hwhole, hfraction, htail⟩ := hwell.notMem
    rw [text_of_numeral hn, Numeral.text] at hmem
    have hpoint : 46 ∈ n.point := by simpa [hlead, hwhole, hfraction, htail] using hmem
    have hlength : n.point.length = 1 := by
      have hpos := List.length_pos_of_mem hpoint
      have hle := hwell.point.1
      omega
    obtain ⟨u, hu⟩ := List.length_eq_one_iff.mp hlength
    rw [hu, List.mem_singleton] at hpoint
    rw [hu, hpoint]

/-- What stands behind decimal digits is no number of its own. -/
theorem WellFormed.text_ne_tail (h : l.WellFormed) (hn : n.WellFormed .decimal) : l.text ≠ n.tail := by
  intro htext
  obtain ⟨u, hu, hkind⟩ := h.body.head_text
  have hbounds : 46 ≤ u ∧ u ≤ 57 ∨ u = 73 ∨ u = 78 := by
    rcases hkind with hdigit | hletter
    · have hbounds := isDigit_iff.mp hdigit
      omega
    · omega
  cases hmark : n.mark with
  | nil =>
    have hmem : u ∈ n.tail := by
      rw [← htext, text]
      simp [List.mem_of_head? hu]
    rw [Numeral.tail, hmark, hn.sign_of hmark, hn.exponent_iff.mpr hmark] at hmem
    rcases List.mem_append.mp (show u ∈ n.suffix ++ n.after from hmem) with hsuffix | hafter
    · have hcases := isSuffix_iff.mp (hn.suffix.2 u hsuffix)
      omega
    · have hle := isBlank_iff.mp (hn.after u hafter)
      omega
  | cons v mark =>
    have hv := isMark_decimal_iff.mp (hn.mark.2 v (by simp [hmark]))
    have hhead : l.text.head? = some v := by simp [htext, Numeral.tail, hmark]
    -- No number starts with the mark of an exponent.
    have hother : ∀ w, w ≤ 57 ∨ w = 73 ∨ w = 78 → w ≠ v := by omega
    cases hbefore : l.before with
    | cons w before =>
      have hw := isBlank_iff.mp (h.before w (by simp [hbefore]))
      exact hother w (by omega) (by simpa [text, hbefore] using hhead)
    | nil =>
      cases hsign : l.sign with
      | cons w sign =>
        have hw := isSign_iff.mp (h.sign.2 w (by simp [hsign]))
        exact hother w (by omega) (by simpa [text, hbefore, hsign] using hhead)
      | nil =>
        rw [text, hbefore, hsign, List.nil_append, List.nil_append, hu, Option.some.injEq] at hhead
        exact hother u (by omega) hhead

end Literal

/-- A text with a point is a number exactly when without it, it is one whose digits reach to where
the point stands. -/
theorem parse_point_isSome_iff (F : Format) (a b : List ℕ) :
    (parse F (a ++ 46 :: b)).isSome = true ↔
      ∃ (l : Literal) (n : Numeral), l.WellFormed ∧ l.text = a ++ b ∧ l.body.numeral = some n ∧ n.point = [] ∧
        n.tail.length ≤ b.length ∧ b.length ≤ n.whole.length + n.tail.length := by
  rw [parse_isSome_iff]
  constructor
  · rintro ⟨l, hl, htext⟩
    obtain ⟨n, hn, hpoint⟩ := hl.exists_of_point (by simp [htext])
    have hwell := hl.body.numeral hn
    obtain ⟨hwhole, hfraction, htail⟩ := hwell.notMem
    have hsides : l.lead ++ n.whole = a ∧ n.fraction ++ n.tail = b := by
      have hsplit : (l.lead ++ n.whole) ++ 46 :: (n.fraction ++ n.tail) = a ++ 46 :: b := by
        rw [← htext, Literal.text_of_numeral hn, Numeral.text, hpoint]
        simp
      rw [List.append_cons_inj_of_notMem (by simp [hl.notMem_lead, hwhole]) (by simp [hfraction, htail])] at hsplit
      exact ⟨hsplit.1, hsplit.2.2⟩
    obtain ⟨rfl, rfl⟩ := hsides
    refine ⟨l.withNumeral n.withoutPoint, n.withoutPoint, hl.withNumeral hwell.withoutPoint, ?_,
      Body.numeral_withNumeral _ _, rfl, ?_, ?_⟩
    · rw [Literal.text_withNumeral, hwell.withoutPoint.text_of_point_nil rfl]
      simp [Numeral.withoutPoint, Numeral.tail]
    · simp [Numeral.withoutPoint, Numeral.tail]
    · simp only [Numeral.withoutPoint, Numeral.tail, List.length_append]
      omega
  · rintro ⟨l, n, hl, htext, hn, hpoint, htail, hwhole⟩
    have hwell := hl.body.numeral hn
    -- The digits that stand behind the point.
    let k := n.whole.length + n.tail.length - b.length
    refine ⟨l.withNumeral (n.withPoint k), hl.withNumeral (hwell.withPoint hpoint k), ?_⟩
    have hsides : (l.lead ++ n.whole.take k) ++ (n.whole.drop k ++ n.tail) = a ++ b := by
      rw [← htext, Literal.text_of_numeral hn, hwell.text_of_point_nil hpoint]
      simp only [List.append_assoc]
      rw [← List.append_assoc (n.whole.take k), List.take_append_drop]
    have hlength : (n.whole.drop k ++ n.tail).length = b.length := by
      rw [List.length_append, List.length_drop]
      omega
    obtain ⟨ha, hb⟩ := List.append_inj' hsides hlength
    rw [Literal.text_withNumeral, ← ha, ← hb]
    simp [Numeral.text, Numeral.withPoint, Numeral.tail]

end FloatingPoint
