import Cigars.FloatingPoint.Binary
import Cigars.Wrapping.Word

/-! The numbers of the entities and of the tables. -/
namespace Cigars
open Wrapping

abbrev Double : Type := FloatingPoint.Number FloatingPoint.binary64

/-- How sums and differences of type `Long` are read: the number of values after which they wrap
around, or zero for none. -/
class LongReading where
  modulus : ℕ

/-- Sums and differences wrap around, as they do in the program. -/
instance LongReading.kotlin : LongReading := ⟨2 ^ 64⟩

/-- Every `Long` is an integer without bounds. -/
abbrev LongReading.unbounded : LongReading := ⟨0⟩

section Long
variable [LongReading] {x y : ℤ}

/-- The `Long` that a sum or difference comes to. -/
def long (x : ℤ) : ℤ := wrap LongReading.modulus x

/-- The number is one of type `Long`. -/
def IsLong (x : ℤ) : Prop := Fits LongReading.modulus x

instance decidableIsLong (x : ℤ) : Decidable (IsLong x) := decidableFits _ x

/-- What numbers of type `Long` are added up in. -/
abbrev Residue : Type := ZMod LongReading.modulus

@[simp] theorem cast_long (x : ℤ) : ((long x : ℤ) : Residue) = x := cast_wrap _ x

theorem isLong_long (x : ℤ) : IsLong (long x) := fits_wrap _ x

theorem isLong_zero : IsLong 0 := fits_zero _

@[simp] theorem long_long_add (x y : ℤ) : long (long x + y) = long (x + y) := wrap_wrap_add _ x y

theorem IsLong.long_eq (h : IsLong x) : long x = x := h

theorem IsLong.eq_long_iff (hx : IsLong x) : x = long y ↔ (x : Residue) = y := Fits.eq_wrap_iff hx

theorem IsLong.eq_iff (hx : IsLong x) (hy : IsLong y) : x = y ↔ (x : Residue) = y := Fits.eq_iff hx hy

theorem IsLong.of_le (hy : IsLong y) (hx : 0 ≤ x) (hle : x ≤ y) : IsLong x := Fits.of_le hy hx hle

end Long

theorem isLong_kotlin_iff {x : ℤ} : IsLong x ↔ -9223372036854775808 ≤ x ∧ x < 9223372036854775808 :=
  fits_iff (by decide)

theorem long_kotlin_nonneg_iff {x : ℤ} (hx : 0 ≤ x) (hlt : x < 18446744073709551616) :
    0 ≤ long x ↔ x < 9223372036854775808 :=
  wrap_nonneg_iff hx hlt

/-- Read without bounds, sums and differences are those of the integers. -/
theorem long_unbounded (x : ℤ) : @long .unbounded x = x := wrap_unbounded x

end Cigars
