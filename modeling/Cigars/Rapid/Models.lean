import Cigars.Database.Models
import Mathlib.Algebra.Order.Ring.Rat

/-! The cigar of a search result of the online catalogue, and the cigar it is turned into. -/
namespace Cigars

/-! ### `utils/Utility.kt` -/

/-- `Double.toInt()`: towards zero, and at the ends of the range where the value is beyond them. -/
def toInt (d : ℚ) : ℤ := max (-2147483648) (min 2147483647 (d.num.tdiv d.den))

def fractions : List String :=
  ["", "15/16", "7/8", "13/16", "3/4", "11/16", "5/8", "9/16", "1/2", "7/16", "3/8", "5/16", "1/4", "3/16",
    "1/8", "1/16", ""]

def fractionValues : List ℚ :=
  [1, 15 / 16, 7 / 8, 13 / 16, 3 / 4, 11 / 16, 5 / 8, 9 / 16, 1 / 2, 7 / 16, 3 / 8, 5 / 16, 1 / 4, 3 / 16,
    1 / 8, 1 / 16, 0]

/-- `Double.fraction`. The loop returns at the first index whose midpoint the fraction exceeds. -/
def fraction (d : ℚ) : String :=
  let whole := toInt d
  let fraction := d - whole
  let value (i : ℕ) : ℚ := fractionValues.getD i 0
  let found := (List.range' 1 (fractions.length - 1)).findSome? fun i =>
    if |fraction| > (value i + value (i - 1)) / 2 then
      some (if value (i - 1) = 1 ∨ value (i - 1) = 0 then toString whole ++ "'"
        else toString whole ++ "' " ++ fractions.getD (i - 1) "" ++ "“")
    else none
  found.getD (toString whole ++ "'")

namespace CigarStrength

def entries : List CigarStrength := [mild, mildToMedium, medium, mediumToFull, full, unknown]

/-- The name of the entry in the source. -/
def name : CigarStrength → String
  | mild => "Mild"
  | mildToMedium => "MildToMedium"
  | medium => "Medium"
  | mediumToFull => "MediumToFull"
  | full => "Full"
  | unknown => "Unknown"

def fromString (value : Option String) : Option CigarStrength :=
  value.bind fun value => entries.find? fun it => it.name == value

theorem fromString_name (strength : CigarStrength) : fromString (some strength.name) = some strength := by
  cases strength <;> rfl

end CigarStrength

structure RapidCigar where
  cigarId : ℤ
  brandId : ℤ
  name : Option String
  length : Option ℚ
  ringGauge : Option ℤ
  country : Option String
  filler : Option String
  wrapper : Option String
  color : Option String
  strength : Option String
  brand : Option String := none
  deriving DecidableEq

def RapidCigar.toCigar (r : RapidCigar) : Cigar where
  rowid := -1
  name := r.name.getD "Unknown"
  brand := r.brand
  country := r.country
  date := none
  cigar := ""
  wrapper := r.wrapper.getD ""
  binder := ""
  gauge := r.ringGauge.getD 0
  length := (r.length.map fraction).getD "0'"
  strength := (CigarStrength.fromString r.strength).getD .mild
  rating := none
  myrating := none
  notes := none
  filler := r.filler.getD ""
  link := none
  count := 1
  shopping := false
  favorites := false
  price := none
  relations := some [⟨"RapidAPI-Cigar", r.cigarId⟩, ⟨"RapidAPI-Brand", r.brandId⟩]

end Cigars
