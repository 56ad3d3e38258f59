import Mathlib.Data.ZMod.Basic

/-! Numbers kept in a word of `m` values around zero. Writing to the word is a ring homomorphism to the
residues, so that equations between sums are proved there, wherever the sums were wrapped on the way.
No values at all stand for a word without bounds. -/
namespace Wrapping

/-- The number read back from a word that `x` was written to. -/
def wrap (m : ℕ) (x : ℤ) : ℤ := x.bmod m

/-- The word keeps the number. -/
def Fits (m : ℕ) (x : ℤ) : Prop := wrap m x = x

instance decidableFits (m : ℕ) (x : ℤ) : Decidable (Fits m x) := inferInstanceAs (Decidable (wrap m x = x))

variable {m : ℕ} {x y : ℤ}

@[simp] theorem wrap_unbounded (x : ℤ) : wrap 0 x = x := Int.bmod_zero

theorem fits_unbounded (x : ℤ) : Fits 0 x := wrap_unbounded x

@[simp] theorem wrap_zero (m : ℕ) : wrap m 0 = 0 := Int.zero_bmod

theorem fits_zero (m : ℕ) : Fits m 0 := wrap_zero m

theorem fits_wrap (m : ℕ) (x : ℤ) : Fits m (wrap m x) := Int.bmod_bmod

@[simp] theorem wrap_wrap_add (m : ℕ) (x y : ℤ) : wrap m (wrap m x + y) = wrap m (x + y) := Int.bmod_add_bmod

@[simp] theorem cast_wrap (m : ℕ) (x : ℤ) : ((wrap m x : ℤ) : ZMod m) = x := by
  rw [ZMod.intCast_eq_intCast_iff]
  exact Int.bmod_emod

/-- Two numbers give the same word exactly when they have the same residue. -/
theorem wrap_eq_wrap_iff : wrap m x = wrap m y ↔ (x : ZMod m) = y := by
  constructor
  · intro h
    rw [← cast_wrap m x, h, cast_wrap]
  · intro h
    have hmod : x % m = y % m := (ZMod.intCast_eq_intCast_iff x y m).mp h
    unfold wrap
    rw [← Int.emod_bmod, hmod, Int.emod_bmod]

theorem Fits.eq_wrap_iff (hx : Fits m x) : x = wrap m y ↔ (x : ZMod m) = y := by
  rw [← wrap_eq_wrap_iff, hx]

theorem Fits.eq_iff (hx : Fits m x) (hy : Fits m y) : x = y ↔ (x : ZMod m) = y := by
  rw [← wrap_eq_wrap_iff, hx, hy]

/-- Between zero and a number that fits everything does. -/
theorem Fits.of_le (hy : Fits m y) (hx : 0 ≤ x) (hle : x ≤ y) : Fits m x := by
  rcases Nat.eq_zero_or_pos m with rfl | hm
  · exact fits_unbounded x
  · have hlt : y < (m + 1) / 2 := hy ▸ Int.bmod_lt hm
    exact Int.bmod_eq_of_le (by omega) (by omega)

theorem fits_iff (hm : 0 < m) : Fits m x ↔ -((m : ℤ) / 2) ≤ x ∧ x < ((m : ℤ) + 1) / 2 := by
  constructor
  · intro h
    have hlow := Int.le_bmod (x := x) hm
    have hhigh := Int.bmod_lt (x := x) hm
    have hx : Int.bmod x m = x := h
    rw [hx] at hlow hhigh
    exact ⟨hlow, hhigh⟩
  · intro h
    exact Int.bmod_eq_of_le h.1 h.2

/-- A sum of two numbers that are not negative comes out negative exactly when it is too large. -/
theorem wrap_nonneg_iff (hx : 0 ≤ x) (hlt : x < m) : 0 ≤ wrap m x ↔ x < ((m : ℤ) + 1) / 2 := by
  have hmod : x % m = x := Int.emod_eq_of_lt hx hlt
  unfold wrap
  rw [Int.bmod_def, hmod]
  split_ifs with hhalf
  · exact iff_of_true hx hhalf
  · exact iff_of_false (by omega) hhalf

end Wrapping
