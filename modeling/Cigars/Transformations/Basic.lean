import Cigars.Database.Numbers
import Cigars.FloatingPoint.Decimal
import Cigars.FloatingPoint.Literal
import Cigars.Text.Basic
import Cigars.Text.Split

/-! The transformations of the editable text fields. A text is here the list of its UTF-16 code
units, by which the platform counts lengths and offsets. What throws gives `none`. -/
namespace Cigars
open Text

/-! ### The standard library -/

/-- `String.toDouble()`, `none` where it throws, and `String.toDoubleOrNull()`. -/
def toDouble (text : List ℕ) : Option Double := FloatingPoint.parse FloatingPoint.binary64 text

/-- The code units as characters. Half of a surrogate pair is none: it becomes a control character,
which is neither blank, a digit nor a sign. -/
def ofUnits (text : List ℕ) : String := String.ofList (text.map Char.ofNat)

/-- `String.isNotBlank()`. -/
def notBlank (text : List ℕ) : Bool := isNotBlank (ofUnits text)

theorem notBlank_iff (text : List ℕ) :
    notBlank text = true ↔ ∃ u ∈ text, isWhitespace (Char.ofNat u) = false := by
  simp [notBlank, isNotBlank, ofUnits]

/-! ### `ExtendedVisualTransformation.kt` -/

structure OffsetMapping where
  originalToTransformed : ℤ → ℤ
  transformedToOriginal : ℤ → ℤ

structure TransformedText where
  text : List ℕ
  offsetMapping : OffsetMapping

structure ExtendedVisualTransformation where
  fromTransformed : List ℕ → List ℕ
  toTransformed : List ℕ → Option (List ℕ)
  validate : List ℕ → Bool
  filter : List ℕ → Option TransformedText

/-! ### `InchesVisualTransformation.kt` -/

namespace InchesVisualTransformation

def delimiters : List (List ℕ) := [utf16 "' ", utf16 "/", utf16 "“"]

/-- What `toTransformed` and `fromTransformed` split at. -/
def separators : List (List ℕ) := [" ", "' ", "'", "/", "“", ".", ",", "-"].map utf16

/-- The body of `forEachIndexed`. -/
def addPart (transformed : List ℕ) (part : List ℕ × ℕ) : Option (List ℕ) :=
  if notBlank part.1 then delimiters[part.2]?.map fun d => transformed ++ (part.1 ++ d)
  else some transformed

def toTransformed (text : List ℕ) : Option (List ℕ) :=
  if text.isEmpty then some text
  else (split separators text).zipIdx.foldlM addPart []

def fromTransformed (text : List ℕ) : List ℕ :=
  if text.isEmpty then text
  else (utf16 " ").intercalate (split separators text)

def validate (text : List ℕ) : Bool := text.length ≤ 8

def originalToTransformed (text : List ℕ) (offset : ℤ) : ℤ :=
  match (split [utf16 " "] (text.take offset.toNat)).length with
  | 1 => offset
  | _ => offset + 1

def transformedToOriginal (text : List ℕ) (offset : ℤ) : ℤ :=
  match (split [utf16 " "] text).length with
  | 1 => offset
  | _ => offset - 1

def filter (text : List ℕ) : Option TransformedText :=
  (toTransformed text).map fun transformedText =>
    ⟨transformedText, originalToTransformed text, transformedToOriginal text⟩

end InchesVisualTransformation

def inchesVisualTransformation : ExtendedVisualTransformation where
  fromTransformed := InchesVisualTransformation.fromTransformed
  toTransformed := InchesVisualTransformation.toTransformed
  validate := InchesVisualTransformation.validate
  filter := InchesVisualTransformation.filter

/-! ### `PriceVisualTransformation.kt` -/

namespace PriceVisualTransformation

def toTransformed (text : List ℕ) : List ℕ :=
  match text.length with
  | 0 => utf16 "0.00"
  | 1 => utf16 "0.0" ++ text
  | 2 => utf16 "0." ++ text
  | length =>
    let cents := text.drop (length - 2)
    let dollars := text.take (length - 2)
    dollars ++ (utf16 "." ++ cents)

def fromTransformed (text : List ℕ) : List ℕ :=
  if text.isEmpty then text
  else (text.filter isDigitUnit).dropWhile (· = 48)

def validate (text : List ℕ) : Bool := text.isEmpty || (toDouble text).isSome

def originalToTransformed (offset : ℤ) : ℤ := if offset < 3 then 4 else offset + 1

def transformedToOriginal (text : List ℕ) (_offset : ℤ) : ℤ := text.length

def filter (text : List ℕ) : TransformedText :=
  ⟨toTransformed text, originalToTransformed, transformedToOriginal text⟩

end PriceVisualTransformation

def priceVisualTransformation : ExtendedVisualTransformation where
  fromTransformed := PriceVisualTransformation.fromTransformed
  toTransformed := fun text => some (PriceVisualTransformation.toTransformed text)
  validate := PriceVisualTransformation.validate
  filter := fun text => some (PriceVisualTransformation.filter text)

/-! ### `NumberVisualTransformation.kt` -/

namespace NumberVisualTransformation

/-- `Long.MAX_VALUE` as it is compared with a `Double`. -/
def maxValue : Double := .ofRat FloatingPoint.binary64 (longLimit - 1)

/-- The longest start of the text that is a number below the largest `Long`. -/
def toTransformed (text : List ℕ) : List ℕ :=
  ((List.range text.length).findSome? fun i =>
    let pref := text.take (text.length - i)
    (toDouble pref).bind fun num => if num.lt maxValue then some pref else none).getD []

def fromTransformed (text : List ℕ) : List ℕ := text

def validate (text : String) : Bool :=
  if text.isEmpty then true else (toLong text).isSome

def filter (text : List ℕ) : TransformedText := ⟨toTransformed text, fun offset => offset, fun offset => offset⟩

end NumberVisualTransformation

def numberVisualTransformation : ExtendedVisualTransformation where
  fromTransformed := NumberVisualTransformation.fromTransformed
  toTransformed := fun text => some (NumberVisualTransformation.toTransformed text)
  validate := fun text => NumberVisualTransformation.validate (ofUnits text)
  filter := fun text => some (NumberVisualTransformation.filter text)

/-! ### `InputMode.kt` -/

inductive InputMode
  | text
  | number
  | inches
  | price
  | temperature
  | humidity
  deriving DecidableEq

namespace InputMode

/-- `none` is `VisualTransformation.None`. -/
def visualTransformation : InputMode → Option ExtendedVisualTransformation
  | inches => some inchesVisualTransformation
  | price => some priceVisualTransformation
  | number => some numberVisualTransformation
  | _ => none

def validate (mode : InputMode) (text : List ℕ) : Bool :=
  match mode.visualTransformation with
  | some transformation => transformation.validate text
  | none => true

def fromTransformed (mode : InputMode) (text : Option (List ℕ)) : List ℕ :=
  match text with
  | none | some [] => []
  | some text =>
    match mode.visualTransformation with
    | some transformation => transformation.fromTransformed text
    | none => text

def toTransformed (mode : InputMode) (text : Option (List ℕ)) : Option (List ℕ) :=
  match text with
  | none | some [] => some []
  | some text =>
    match mode.visualTransformation with
    | some transformation => transformation.toTransformed text
    | none => some text

end InputMode

/-! ### `TextStyled.kt` -/

namespace TextStyled

/-- The text in the field, of the text the screen gives. -/
def fieldText (inputMode : InputMode) (text : Option (List ℕ)) : List ℕ := inputMode.fromTransformed text

/-- What the screen's `onValueChange` is called with when the field's text was changed; the inner
`none` is no call. -/
def onValueChange (inputMode : InputMode) (text : List ℕ) : Option (Option (List ℕ)) :=
  if inputMode.validate text then (inputMode.toTransformed (some text)).map some else some none

end TextStyled
end Cigars
