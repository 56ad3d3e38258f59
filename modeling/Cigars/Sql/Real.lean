import Cigars.FloatingPoint.Binary

/-! Columns of type REAL. -/
namespace Sql
open FloatingPoint

/-- The values of a REAL column other than NULL: there is one zero, and everything else is a number. -/
abbrev StoredReal (F : Format) : Type := {x : Number F // x ≠ .nan ∧ x ≠ .negativeZero}

variable {F : Format}

instance : Zero (StoredReal F) := ⟨⟨0, by simp⟩⟩

/-- What is stored of a number: NULL for what is none, and zero without its sign. -/
def storeReal : Number F → Option (StoredReal F)
  | .nan => none
  | .negativeZero => some 0
  | .infinite negative => some ⟨.infinite negative, by simp⟩
  | .finite value representable bounded => some ⟨.finite value representable bounded, by simp⟩

/-- A nullable number bound to a REAL column. -/
def bindReal (x : Option (Number F)) : Option (StoredReal F) := x.bind storeReal

/-- A REAL column read as a nullable number. -/
def readReal (x : Option (StoredReal F)) : Option (Number F) := x.map Subtype.val

@[simp] theorem bindReal_none : bindReal (none : Option (Number F)) = none := rfl

@[simp] theorem readReal_none : readReal (none : Option (StoredReal F)) = none := rfl

theorem storeReal_val (x : StoredReal F) : storeReal x.val = some x := by
  obtain ⟨x, hnan, hzero⟩ := x
  cases x with
  | nan => exact absurd rfl hnan
  | negativeZero => exact absurd rfl hzero
  | infinite negative => rfl
  | finite value representable bounded => rfl

/-- What was read is stored as it was. -/
@[simp] theorem bindReal_readReal (x : Option (StoredReal F)) : bindReal (readReal x) = x := by
  cases x with
  | none => rfl
  | some x => exact storeReal_val x

/-- A number is read back as it was stored unless it is none, or the zero that has a sign. -/
theorem readReal_bindReal_iff (x : Option (Number F)) :
    readReal (bindReal x) = x ↔ x ≠ some .nan ∧ x ≠ some .negativeZero := by
  rcases x with - | x
  · simp
  · cases x with
    | nan => simp [bindReal, storeReal, readReal]
    | negativeZero =>
      have hzero : ((0 : StoredReal F) : Number F) ≠ .negativeZero := (0 : StoredReal F).property.2
      simp [bindReal, storeReal, readReal, hzero]
    | infinite negative => simp [bindReal, storeReal, readReal]
    | finite value representable bounded => simp [bindReal, storeReal, readReal]

end Sql
