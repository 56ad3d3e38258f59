import Cigars.FloatingPoint.Binary
import Cigars.Text.Digits
import Cigars.Text.Utf16

/-! The texts the platform reads as floating-point numbers, given by their code units: blanks, a sign,
a word or decimal or hexadecimal digits with a point, an exponent, a letter for the type, and blanks.
A text is scanned piece by piece, and read if the pieces are well formed. -/
namespace FloatingPoint
open Text

/-! ### Pieces -/

inductive Radix
  | decimal
  | hexadecimal
  deriving DecidableEq

namespace Radix

def base : Radix → ℕ
  | decimal => 10
  | hexadecimal => 16

def isDigit : Radix → ℕ → Bool
  | decimal, u => Text.isDigit u
  | hexadecimal, u => Text.isDigit u || (65 ≤ u && u ≤ 70) || (97 ≤ u && u ≤ 102)

/-- `e` or `p`, in both cases. -/
def isMark : Radix → ℕ → Bool
  | decimal, u => u == 101 || u == 69
  | hexadecimal, u => u == 112 || u == 80

/-- What one step of the exponent multiplies by. -/
def step : Radix → ℚ
  | decimal => 10
  | hexadecimal => 2

/-- The steps of the exponent that make up for one digit after the point. -/
def stepsPerDigit : Radix → ℕ
  | decimal => 1
  | hexadecimal => 4

end Radix

/-- What is trimmed from a text before it is read. -/
def isBlank (u : ℕ) : Bool := u ≤ 32

def isSign (u : ℕ) : Bool := u == 43 || u == 45

def isPoint (u : ℕ) : Bool := u == 46

/-- `f` or `d`, in both cases. -/
def isSuffix (u : ℕ) : Bool := u == 102 || u == 70 || u == 100 || u == 68

/-- The number a sign and digits stand for. -/
def signed (sign : List ℕ) (n : ℚ) : ℚ := if sign = [45] then -n else n

structure Numeral where
  whole : List ℕ
  point : List ℕ
  fraction : List ℕ
  mark : List ℕ
  exponentSign : List ℕ
  exponent : List ℕ
  suffix : List ℕ
  after : List ℕ
  deriving DecidableEq

/-- At most one unit, of the given kind. -/
def AtMostOne (p : ℕ → Bool) (piece : List ℕ) : Prop := piece.length ≤ 1 ∧ ∀ u ∈ piece, p u = true

instance decidableAtMostOne (p : ℕ → Bool) (piece : List ℕ) : Decidable (AtMostOne p piece) :=
  inferInstanceAs (Decidable (_ ∧ _))

namespace Numeral

/-- What stands behind the digits. -/
def tail (n : Numeral) : List ℕ := n.mark ++ (n.exponentSign ++ (n.exponent ++ (n.suffix ++ n.after)))

def text (n : Numeral) : List ℕ := n.whole ++ (n.point ++ (n.fraction ++ n.tail))

/-- There are digits before or after the point, and digits of the exponent exactly behind its mark,
which hexadecimal digits always have. -/
@[mk_iff] structure WellFormed (radix : Radix) (n : Numeral) : Prop where
  whole : ∀ u ∈ n.whole, radix.isDigit u = true
  point : AtMostOne isPoint n.point
  fraction : ∀ u ∈ n.fraction, radix.isDigit u = true
  fraction_of : n.point = [] → n.fraction = []
  digits : n.whole ++ n.fraction ≠ []
  mark : AtMostOne radix.isMark n.mark
  exponentSign : AtMostOne isSign n.exponentSign
  exponent : ∀ u ∈ n.exponent, Text.isDigit u = true
  exponent_iff : n.exponent = [] ↔ n.mark = []
  sign_of : n.mark = [] → n.exponentSign = []
  mark_of : radix = .hexadecimal → n.mark ≠ []
  suffix : AtMostOne isSuffix n.suffix
  after : ∀ u ∈ n.after, isBlank u = true

instance decidableWellFormed (radix : Radix) (n : Numeral) : Decidable (n.WellFormed radix) :=
  decidable_of_iff _ (n.wellFormed_iff radix).symm

/-- The digits on both sides of the point, moved by the exponent. -/
def value (radix : Radix) (n : Numeral) : ℚ :=
  Text.value radix.base (n.whole ++ n.fraction) *
    radix.step ^ ((if n.exponentSign = [45] then -(Text.value 10 n.exponent : ℤ) else Text.value 10 n.exponent) -
      (radix.stepsPerDigit * n.fraction.length : ℕ))

end Numeral

/-! ### Scanning -/

/-- The first unit, if it is of the given kind. -/
def takeOne (p : ℕ → Bool) (text : List ℕ) : List ℕ := (text.take 1).takeWhile p

def dropOne (p : ℕ → Bool) (text : List ℕ) : List ℕ := text.drop (takeOne p text).length

/-- The pieces of a text from left to right; whatever is left over is the last one. -/
def scan (radix : Radix) (text : List ℕ) : Numeral :=
  let whole := text.takeWhile radix.isDigit
  let text := text.dropWhile radix.isDigit
  let point := takeOne isPoint text
  let text := dropOne isPoint text
  let fraction := text.takeWhile radix.isDigit
  let text := text.dropWhile radix.isDigit
  let mark := takeOne radix.isMark text
  let text := dropOne radix.isMark text
  let exponentSign := takeOne isSign text
  let text := dropOne isSign text
  let exponent := text.takeWhile Text.isDigit
  let text := text.dropWhile Text.isDigit
  { whole, point, fraction, mark, exponentSign, exponent
    suffix := takeOne isSuffix text
    after := dropOne isSuffix text }

/-- The words for the values that are no rationals. -/
def words : List (List ℕ) := [utf16 "NaN", utf16 "Infinity"]

/-- What marks digits as hexadecimal. -/
def hexadecimalMarks : List (List ℕ) := [utf16 "0x", utf16 "0X"]

inductive Body
  | word (name after : List ℕ)
  | decimal (numeral : Numeral)
  | hexadecimal (mark : List ℕ) (numeral : Numeral)
  deriving DecidableEq

namespace Body

def text : Body → List ℕ
  | word name after => name ++ after
  | decimal numeral => numeral.text
  | hexadecimal mark numeral => mark ++ numeral.text

def WellFormed : Body → Prop
  | word name after => name ∈ words ∧ ∀ u ∈ after, isBlank u = true
  | decimal numeral => numeral.WellFormed .decimal
  | hexadecimal mark numeral => mark ∈ hexadecimalMarks ∧ numeral.WellFormed .hexadecimal

instance decidableWellFormed : (b : Body) → Decidable b.WellFormed
  | word name after => inferInstanceAs (Decidable (name ∈ words ∧ ∀ u ∈ after, isBlank u = true))
  | decimal numeral => inferInstanceAs (Decidable (numeral.WellFormed .decimal))
  | hexadecimal mark numeral =>
    inferInstanceAs (Decidable (mark ∈ hexadecimalMarks ∧ numeral.WellFormed .hexadecimal))

def scan (text : List ℕ) : Body :=
  match words.find? fun name => name.isPrefixOf text with
  | some name => word name (text.drop name.length)
  | none =>
    match hexadecimalMarks.find? fun mark => mark.isPrefixOf text with
    | some mark => hexadecimal mark (FloatingPoint.scan .hexadecimal (text.drop mark.length))
    | none => decimal (FloatingPoint.scan .decimal text)

def value (F : Format) (sign : List ℕ) : Body → Number F
  | word name _ => if name = utf16 "NaN" then .nan else .infinite (sign = [45])
  | decimal numeral => .ofSigned F (sign = [45]) (signed sign (numeral.value .decimal))
  | hexadecimal _ numeral => .ofSigned F (sign = [45]) (signed sign (numeral.value .hexadecimal))

end Body

structure Literal where
  before : List ℕ
  sign : List ℕ
  body : Body
  deriving DecidableEq

namespace Literal

def text (l : Literal) : List ℕ := l.before ++ (l.sign ++ l.body.text)

@[mk_iff] structure WellFormed (l : Literal) : Prop where
  before : ∀ u ∈ l.before, isBlank u = true
  sign : AtMostOne isSign l.sign
  body : l.body.WellFormed

instance decidableWellFormed (l : Literal) : Decidable l.WellFormed := decidable_of_iff _ l.wellFormed_iff.symm

def scan (text : List ℕ) : Literal :=
  let before := text.takeWhile isBlank
  let text := text.dropWhile isBlank
  ⟨before, takeOne isSign text, Body.scan (dropOne isSign text)⟩

end Literal

/-- The number a text stands for; `none` where reading it throws. -/
def parse (F : Format) (text : List ℕ) : Option (Number F) :=
  let literal := Literal.scan text
  if literal.WellFormed then some (literal.body.value F literal.sign) else none

/-! ### Scanning finds the pieces again -/

theorem takeOne_append_dropOne (p : ℕ → Bool) (text : List ℕ) : takeOne p text ++ dropOne p text = text := by
  unfold dropOne takeOne
  cases text with
  | nil => rfl
  | cons u text =>
    by_cases hu : p u = true
    · simp [hu]
    · simp [hu]

theorem text_scan (radix : Radix) (text : List ℕ) : (scan radix text).text = text := by
  simp only [scan, Numeral.text, Numeral.tail, takeOne_append_dropOne, List.takeWhile_append_dropWhile]

theorem Body.text_scan (text : List ℕ) : (Body.scan text).text = text := by
  have hdrop : ∀ (l : List (List ℕ)) (d : List ℕ), (l.find? fun d => d.isPrefixOf text) = some d →
      d ++ text.drop d.length = text := by
    intro l d hd
    have hbegins := List.find?_some hd
    obtain ⟨rest, rfl⟩ := List.isPrefixOf_iff_prefix.mp hbegins
    rw [List.drop_left]
  unfold Body.scan
  split
  · rename_i name hname
    exact hdrop words name hname
  · split
    · rename_i mark hmark
      rw [Body.text, FloatingPoint.text_scan]
      exact hdrop hexadecimalMarks mark hmark
    · exact FloatingPoint.text_scan .decimal text

theorem Literal.text_scan (text : List ℕ) : (Literal.scan text).text = text := by
  simp only [Literal.scan, Literal.text, Body.text_scan, takeOne_append_dropOne, List.takeWhile_append_dropWhile]

/-- The first unit of a text is of none of the given kind. -/
def StartsOutside (p : ℕ → Bool) (text : List ℕ) : Prop := ∀ u, text.head? = some u → p u = false

theorem startsOutside_append {p : ℕ → Bool} {piece rest : List ℕ} (hpiece : ∀ u ∈ piece, p u = false)
    (hrest : piece = [] → StartsOutside p rest) : StartsOutside p (piece ++ rest) := by
  cases piece with
  | nil => exact hrest rfl
  | cons u piece =>
    intro v hv
    rw [List.cons_append, List.head?_cons, Option.some.injEq] at hv
    exact hpiece v (hv ▸ List.mem_cons_self)

theorem takeWhile_piece {p : ℕ → Bool} {piece rest : List ℕ} (hpiece : ∀ u ∈ piece, p u = true)
    (hrest : StartsOutside p rest) :
    (piece ++ rest).takeWhile p = piece ∧ (piece ++ rest).dropWhile p = rest := by
  rw [List.takeWhile_append_of_pos hpiece, List.dropWhile_append_of_pos hpiece]
  cases rest with
  | nil => simp
  | cons u rest =>
    have hu : p u = false := hrest u rfl
    simp [hu]

theorem takeOne_piece {p : ℕ → Bool} {piece rest : List ℕ} (hpiece : AtMostOne p piece)
    (hrest : piece = [] → StartsOutside p rest) :
    takeOne p (piece ++ rest) = piece ∧ dropOne p (piece ++ rest) = rest := by
  obtain ⟨hlength, hall⟩ := hpiece
  match piece with
  | [] =>
    cases rest with
    | nil => simp [takeOne, dropOne]
    | cons u rest =>
      have hu : p u = false := hrest rfl u rfl
      simp [takeOne, dropOne, hu]
  | [u] =>
    have hu : p u = true := hall u (by simp)
    simp [takeOne, dropOne, hu]
  | _ :: _ :: _ => simp at hlength

section Kinds
variable {u : ℕ}

theorem isBlank_iff : isBlank u = true ↔ u ≤ 32 := by
  simp [isBlank]

theorem isSign_iff : isSign u = true ↔ u = 43 ∨ u = 45 := by
  simp [isSign]

theorem isPoint_iff : isPoint u = true ↔ u = 46 := by
  simp [isPoint]

theorem isSuffix_iff : isSuffix u = true ↔ u = 102 ∨ u = 70 ∨ u = 100 ∨ u = 68 := by
  simp [isSuffix, or_assoc]

theorem isMark_decimal_iff : Radix.decimal.isMark u = true ↔ u = 101 ∨ u = 69 := by
  simp [Radix.isMark]

theorem isMark_hexadecimal_iff : Radix.hexadecimal.isMark u = true ↔ u = 112 ∨ u = 80 := by
  simp [Radix.isMark]

theorem isDigit_decimal_iff : Radix.decimal.isDigit u = true ↔ 48 ≤ u ∧ u ≤ 57 := isDigit_iff

theorem isDigit_hexadecimal_iff : Radix.hexadecimal.isDigit u = true ↔
    48 ≤ u ∧ u ≤ 57 ∨ 65 ≤ u ∧ u ≤ 70 ∨ 97 ≤ u ∧ u ≤ 102 := by
  simp [Radix.isDigit, Text.isDigit, or_assoc]

/-- A mark is a letter that is no digit of its radix. -/
theorem isMark_bounds {radix : Radix} (h : radix.isMark u = true) :
    60 < u ∧ radix.isDigit u = false ∧ Text.isDigit u = false := by
  cases radix with
  | decimal =>
    rcases isMark_decimal_iff.mp h with rfl | rfl
    · decide
    · decide
  | hexadecimal =>
    rcases isMark_hexadecimal_iff.mp h with rfl | rfl
    · decide
    · decide

end Kinds

namespace Numeral
variable {radix : Radix} {n : Numeral}

namespace WellFormed
variable (h : n.WellFormed radix)
include h

theorem starts_suffix {p : ℕ → Bool} (hsuffix : ∀ u, isSuffix u = true → p u = false)
    (hblank : ∀ u, isBlank u = true → p u = false) : StartsOutside p (n.suffix ++ n.after) := by
  apply startsOutside_append fun u hu => hsuffix u (h.suffix.2 u hu)
  intro _ u hu
  exact hblank u (h.after u (List.mem_of_head? hu))

/-- A kind without marks, letters of the type and blanks does not start what stands behind the
digits. With hexadecimal digits that is always a mark. -/
theorem starts_tail {p : ℕ → Bool} (hmark : ∀ u, radix.isMark u = true → p u = false)
    (hsuffix : radix = .decimal → ∀ u, isSuffix u = true → p u = false)
    (hblank : ∀ u, isBlank u = true → p u = false) : StartsOutside p n.tail := by
  unfold tail
  apply startsOutside_append fun u hu => hmark u (h.mark.2 u hu)
  intro hnone
  have hdecimal : radix = .decimal := by
    cases hradix : radix with
    | decimal => rfl
    | hexadecimal => exact absurd hnone (h.mark_of hradix)
  rw [h.sign_of hnone, h.exponent_iff.mpr hnone, List.nil_append, List.nil_append]
  exact h.starts_suffix (hsuffix hdecimal) hblank

theorem starts_digit : StartsOutside radix.isDigit n.tail := by
  apply h.starts_tail
  · intro u hu
    exact (isMark_bounds hu).2.1
  · intro hradix u hu
    rw [hradix, Bool.eq_false_iff, ne_eq, isDigit_decimal_iff]
    have hcases := isSuffix_iff.mp hu
    omega
  · intro u hu
    have hle := isBlank_iff.mp hu
    cases radix with
    | decimal =>
      rw [Bool.eq_false_iff, ne_eq, isDigit_decimal_iff]
      omega
    | hexadecimal =>
      rw [Bool.eq_false_iff, ne_eq, isDigit_hexadecimal_iff]
      omega

theorem starts_point : StartsOutside isPoint n.tail := by
  have hother : ∀ u, u ≤ 32 ∨ 60 < u → isPoint u = false := by
    intro u hu
    rw [Bool.eq_false_iff, ne_eq, isPoint_iff]
    omega
  apply h.starts_tail
  · intro u hu
    exact hother u (Or.inr (isMark_bounds hu).1)
  · intro _ u hu
    have hcases := isSuffix_iff.mp hu
    exact hother u (by omega)
  · intro u hu
    exact hother u (Or.inl (isBlank_iff.mp hu))

theorem starts_mark (hnone : n.mark = []) : StartsOutside radix.isMark (n.suffix ++ n.after) := by
  have hdecimal : radix = .decimal := by
    cases hradix : radix with
    | decimal => rfl
    | hexadecimal => exact absurd hnone (h.mark_of hradix)
  apply h.starts_suffix
  · intro u hu
    have hcases := isSuffix_iff.mp hu
    rw [hdecimal, Bool.eq_false_iff, ne_eq, isMark_decimal_iff]
    omega
  · intro u hu
    have hle := isBlank_iff.mp hu
    rw [hdecimal, Bool.eq_false_iff, ne_eq, isMark_decimal_iff]
    omega

theorem starts_exponentSign : StartsOutside isSign (n.exponent ++ (n.suffix ++ n.after)) := by
  have hother : ∀ u, u ≤ 32 ∨ 48 ≤ u → isSign u = false := by
    intro u hu
    rw [Bool.eq_false_iff, ne_eq, isSign_iff]
    omega
  apply startsOutside_append
  · intro u hu
    exact hother u (Or.inr (isDigit_iff.mp (h.exponent u hu)).1)
  · intro _
    apply h.starts_suffix
    · intro u hu
      have hcases := isSuffix_iff.mp hu
      exact hother u (by omega)
    · intro u hu
      exact hother u (Or.inl (isBlank_iff.mp hu))

theorem starts_exponent : StartsOutside Text.isDigit (n.suffix ++ n.after) := by
  apply h.starts_suffix
  · intro u hu
    have hcases := isSuffix_iff.mp hu
    rw [Bool.eq_false_iff, ne_eq, isDigit_iff]
    omega
  · intro u hu
    have hle := isBlank_iff.mp hu
    rw [Bool.eq_false_iff, ne_eq, isDigit_iff]
    omega

theorem starts_after : StartsOutside isSuffix n.after := by
  intro u hu
  have hle := isBlank_iff.mp (h.after u (List.mem_of_head? hu))
  rw [Bool.eq_false_iff, ne_eq, isSuffix_iff]
  omega

theorem scan_text : scan radix n.text = n := by
  have hwholeNext : StartsOutside radix.isDigit (n.point ++ (n.fraction ++ n.tail)) := by
    apply startsOutside_append
    · intro u hu
      have hpoint := isPoint_iff.mp (h.point.2 u hu)
      rw [hpoint]
      cases radix <;> rfl
    · intro hnone
      rw [h.fraction_of hnone]
      exact h.starts_digit
  have hpointNext : n.point = [] → StartsOutside isPoint (n.fraction ++ n.tail) := by
    intro hnone
    rw [h.fraction_of hnone]
    exact h.starts_point
  have hmarkNext : n.mark = [] →
      StartsOutside radix.isMark (n.exponentSign ++ (n.exponent ++ (n.suffix ++ n.after))) := by
    intro hnone
    rw [h.sign_of hnone, h.exponent_iff.mpr hnone]
    exact h.starts_mark hnone
  obtain ⟨hwhole, hwhole'⟩ := takeWhile_piece h.whole hwholeNext
  obtain ⟨hpoint, hpoint'⟩ := takeOne_piece h.point hpointNext
  obtain ⟨hfraction, hfraction'⟩ := takeWhile_piece h.fraction h.starts_digit
  obtain ⟨hmark, hmark'⟩ := takeOne_piece h.mark hmarkNext
  obtain ⟨hsign, hsign'⟩ := takeOne_piece h.exponentSign fun _ => h.starts_exponentSign
  obtain ⟨hexponent, hexponent'⟩ := takeWhile_piece h.exponent h.starts_exponent
  obtain ⟨hsuffix, hsuffix'⟩ := takeOne_piece h.suffix fun _ => h.starts_after
  unfold scan text
  simp only [hwhole, hwhole', hpoint, hpoint', hfraction, hfraction']
  unfold tail
  simp only [hmark, hmark', hsign, hsign', hexponent, hexponent', hsuffix, hsuffix']

/-- The first unit is a digit or the point. -/
theorem head_text : ∃ u, n.text.head? = some u ∧ (radix.isDigit u = true ∨ u = 46) := by
  unfold text
  cases hwhole : n.whole with
  | cons u whole => exact ⟨u, rfl, Or.inl (h.whole u (by simp [hwhole]))⟩
  | nil =>
    have hfraction : n.fraction ≠ [] := by
      have hdigits := h.digits
      simpa [hwhole] using hdigits
    cases hpoint : n.point with
    | nil => exact absurd (h.fraction_of hpoint) hfraction
    | cons u point =>
      exact ⟨u, rfl, Or.inr (isPoint_iff.mp (h.point.2 u (by simp [hpoint])))⟩

end WellFormed

/-- Decimal digits, and what may stand around them, do without the letter that marks hexadecimal
ones. -/
theorem WellFormed.ne_of_mem (h : n.WellFormed .decimal) {u : ℕ} (hu : u ∈ n.text) : u ≠ 120 ∧ u ≠ 88 := by
  unfold text tail at hu
  simp only [List.mem_append] at hu
  rcases hu with hu | hu | hu | hu | hu | hu | hu | hu
  · have hbounds := isDigit_decimal_iff.mp (h.whole u hu)
    omega
  · have heq := isPoint_iff.mp (h.point.2 u hu)
    omega
  · have hbounds := isDigit_decimal_iff.mp (h.fraction u hu)
    omega
  · have hcases := isMark_decimal_iff.mp (h.mark.2 u hu)
    omega
  · have hcases := isSign_iff.mp (h.exponentSign.2 u hu)
    omega
  · have hbounds := isDigit_iff.mp (h.exponent u hu)
    omega
  · have hcases := isSuffix_iff.mp (h.suffix.2 u hu)
    omega
  · have hle := isBlank_iff.mp (h.after u hu)
    omega

end Numeral

section Pointed
variable {whole fraction : List ℕ}

/-- Decimal digits with a point between them. -/
def Numeral.pointed (whole fraction : List ℕ) : Numeral := ⟨whole, [46], fraction, [], [], [], [], []⟩

theorem Numeral.wellFormed_pointed (hwhole : ∀ u ∈ whole, Text.isDigit u = true)
    (hfraction : ∀ u ∈ fraction, Text.isDigit u = true) (hne : whole ++ fraction ≠ []) :
    (Numeral.pointed whole fraction).WellFormed .decimal := by
  constructor <;> simp_all [Numeral.pointed, AtMostOne, Radix.isDigit, isPoint]

theorem Numeral.text_pointed : (Numeral.pointed whole fraction).text = whole ++ 46 :: fraction := by
  simp [Numeral.pointed, Numeral.text, Numeral.tail]

theorem Numeral.value_pointed : (Numeral.pointed whole fraction).value .decimal =
    Text.value 10 (whole ++ fraction) / 10 ^ fraction.length := by
  simp [Numeral.pointed, Numeral.value, Radix.base, Radix.step, Radix.stepsPerDigit, div_eq_mul_inv]

end Pointed

namespace Body

/-- The first unit is a digit, the point or the first letter of a word. -/
theorem WellFormed.head_text {b : Body} (h : b.WellFormed) :
    ∃ u, b.text.head? = some u ∧ (Text.isDigit u = true ∨ u = 46 ∨ u = 73 ∨ u = 78) := by
  cases b with
  | word name after =>
    have hname : name = utf16 "NaN" ∨ name = utf16 "Infinity" := by simpa [words] using h.1
    rcases hname with rfl | rfl
    · exact ⟨78, rfl, by simp⟩
    · exact ⟨73, rfl, by simp⟩
  | decimal numeral =>
    obtain ⟨u, hu, hkind⟩ := Numeral.WellFormed.head_text h
    exact ⟨u, hu, hkind.imp_right Or.inl⟩
  | hexadecimal mark numeral =>
    have hmark : mark = utf16 "0x" ∨ mark = utf16 "0X" := by simpa [hexadecimalMarks] using h.1
    rcases hmark with rfl | rfl
    · exact ⟨48, rfl, by decide⟩
    · exact ⟨48, rfl, by decide⟩

theorem WellFormed.scan_text {b : Body} (h : b.WellFormed) : scan b.text = b := by
  have hnan : utf16 "NaN" = [78, 97, 78] := rfl
  have hinfinity : utf16 "Infinity" = [73, 110, 102, 105, 110, 105, 116, 121] := rfl
  have hlower : utf16 "0x" = [48, 120] := rfl
  have hupper : utf16 "0X" = [48, 88] := rfl
  cases b with
  | word name after =>
    have hname : name = utf16 "NaN" ∨ name = utf16 "Infinity" := by simpa [words] using h.1
    rcases hname with rfl | rfl
    · simp [scan, text, words, hnan, List.isPrefixOf]
    · simp [scan, text, words, hnan, hinfinity, List.isPrefixOf]
  | decimal numeral =>
    obtain ⟨u, hu, hkind⟩ := Numeral.WellFormed.head_text h
    have hscan := Numeral.WellFormed.scan_text h
    have hx := fun v => Numeral.WellFormed.ne_of_mem h (u := v)
    have hne : u ≠ 78 ∧ u ≠ 73 := by
      rcases hkind with hdigit | rfl
      · have hbounds := isDigit_decimal_iff.mp hdigit
        omega
      · decide
    change scan numeral.text = decimal numeral
    obtain ⟨rest, hrest⟩ := List.head?_eq_some_iff.mp hu
    have hword : (words.find? fun name => name.isPrefixOf numeral.text) = none := by
      simp [words, hnan, hinfinity, hrest, List.isPrefixOf, hne.1.symm, hne.2.symm]
    have hmark : (hexadecimalMarks.find? fun mark => mark.isPrefixOf numeral.text) = none := by
      rw [List.find?_eq_none]
      intro mark hmem hbegins
      have hletter : 120 ∈ mark ∨ 88 ∈ mark := by
        simp only [hexadecimalMarks, hlower, hupper, List.mem_cons, List.not_mem_nil, or_false] at hmem
        rcases hmem with rfl | rfl
        · simp
        · simp
      have hsubset := (List.isPrefixOf_iff_prefix.mp hbegins).subset
      rcases hletter with hletter | hletter
      · exact (hx 120 (hsubset hletter)).1 rfl
      · exact (hx 88 (hsubset hletter)).2 rfl
    simp only [scan, hword, hmark, hscan]
  | hexadecimal mark numeral =>
    have hscan := Numeral.WellFormed.scan_text h.2
    have hmark : mark = utf16 "0x" ∨ mark = utf16 "0X" := by simpa [hexadecimalMarks] using h.1
    rcases hmark with rfl | rfl
    · simp [scan, text, words, hexadecimalMarks, hnan, hinfinity, hlower, List.isPrefixOf, hscan]
    · simp [scan, text, words, hexadecimalMarks, hnan, hinfinity, hlower, hupper, List.isPrefixOf, hscan]

end Body

namespace Literal

theorem WellFormed.scan_text {l : Literal} (h : l.WellFormed) : scan l.text = l := by
  obtain ⟨u, hu, hkind⟩ := h.body.head_text
  have hbounds : 46 ≤ u := by
    rcases hkind with hdigit | hletter
    · have hle := isDigit_iff.mp hdigit
      omega
    · omega
  have hsignNext : StartsOutside isSign l.body.text := by
    intro v hv
    rw [hu, Option.some.injEq] at hv
    rw [Bool.eq_false_iff, ne_eq, isSign_iff]
    omega
  have hbeforeNext : StartsOutside isBlank (l.sign ++ l.body.text) := by
    apply startsOutside_append
    · intro v hv
      have hcases := isSign_iff.mp (h.sign.2 v hv)
      rw [Bool.eq_false_iff, ne_eq, isBlank_iff]
      omega
    · intro _ v hv
      rw [hu, Option.some.injEq] at hv
      rw [Bool.eq_false_iff, ne_eq, isBlank_iff]
      omega
  obtain ⟨hbefore, hbefore'⟩ := takeWhile_piece h.before hbeforeNext
  obtain ⟨hsign, hsign'⟩ := takeOne_piece h.sign fun _ => hsignNext
  unfold scan text
  simp only [hbefore, hbefore', hsign, hsign', h.body.scan_text]

end Literal

/-! ### Which texts are read, and as what -/

section Parse
variable (F : Format)

theorem parse_text {l : Literal} (h : l.WellFormed) : parse F l.text = some (l.body.value F l.sign) := by
  simp only [parse, h.scan_text, h, if_true]

theorem parse_isSome_iff (text : List ℕ) :
    (parse F text).isSome = true ↔ ∃ l : Literal, l.WellFormed ∧ l.text = text := by
  constructor
  · intro hsome
    refine ⟨Literal.scan text, ?_, Literal.text_scan text⟩
    by_contra hnot
    simp [parse, hnot] at hsome
  · rintro ⟨l, h, rfl⟩
    rw [parse_text F h]
    rfl

/-- A sign and digits. -/
theorem parse_integer {sign digits : List ℕ} (hsign : AtMostOne isSign sign)
    (hdigits : ∀ u ∈ digits, Text.isDigit u = true) (hne : digits ≠ []) :
    parse F (sign ++ digits) = some (.ofSigned F (sign = [45]) (signed sign (Text.value 10 digits))) := by
  let numeral : Numeral := ⟨digits, [], [], [], [], [], [], []⟩
  have hnumeral : numeral.WellFormed .decimal := by
    constructor <;> simp_all [numeral, AtMostOne, Radix.isDigit]
  have hliteral : Literal.WellFormed ⟨[], sign, .decimal numeral⟩ := ⟨by simp, hsign, hnumeral⟩
  have hparse := parse_text F hliteral
  simpa [Literal.text, Body.text, Numeral.text, Numeral.tail, Body.value, Numeral.value, numeral, Radix.base]
    using hparse

/-- Digits with a point between them. -/
theorem parse_pointed {whole fraction : List ℕ} (hwhole : ∀ u ∈ whole, Text.isDigit u = true)
    (hfraction : ∀ u ∈ fraction, Text.isDigit u = true) (hne : whole ++ fraction ≠ []) :
    parse F (whole ++ 46 :: fraction) =
      some (.ofRat F (Text.value 10 (whole ++ fraction) / 10 ^ fraction.length)) := by
  have hnumeral := Numeral.wellFormed_pointed hwhole hfraction hne
  have hliteral : Literal.WellFormed ⟨[], [], .decimal (.pointed whole fraction)⟩ :=
    ⟨by simp, by simp [AtMostOne], hnumeral⟩
  have hparse := parse_text F hliteral
  simpa [Literal.text, Body.text, Body.value, Numeral.text_pointed, Numeral.value_pointed, signed] using hparse

end Parse
end FloatingPoint
