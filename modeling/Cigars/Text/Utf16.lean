import Mathlib.Data.List.Lex
import Mathlib.Data.Nat.Notation

/-! Texts as sequences of UTF-16 code units, by which the platform compares them. -/
namespace Text

/-- A character beyond the first 65536 takes a pair of units. -/
def utf16Units (c : Char) : List ℕ :=
  if c.toNat < 65536 then [c.toNat]
  else [55296 + (c.toNat - 65536) / 1024, 56320 + (c.toNat - 65536) % 1024]

def utf16 (s : String) : List ℕ := s.toList.flatMap utf16Units

@[simp] theorem utf16_append (s t : String) : utf16 (s ++ t) = utf16 s ++ utf16 t := by
  simp [utf16]

private theorem toNat_bounds (c : Char) : c.toNat < 55296 ∨ (57343 < c.toNat ∧ c.toNat < 1114112) := c.valid

/-- No unit of a character begins a pair, so the first unit tells how many there are. -/
theorem utf16Units_append {c d : Char} {xs ys : List ℕ} (h : utf16Units c ++ xs = utf16Units d ++ ys) :
    c = d ∧ xs = ys := by
  have hc := toNat_bounds c
  have hd := toNat_bounds d
  unfold utf16Units at h
  have heq : c.toNat = d.toNat ∧ xs = ys := by
    split_ifs at h with hsmall hsmall' hsmall'
    · rw [List.singleton_append, List.singleton_append, List.cons.injEq] at h
      exact h
    · rw [List.singleton_append, List.cons_append, List.cons.injEq] at h
      omega
    · rw [List.singleton_append, List.cons_append, List.cons.injEq] at h
      omega
    · simp only [List.cons_append, List.nil_append, List.cons.injEq] at h
      obtain ⟨hhigh, hlow, hrest⟩ := h
      exact ⟨by omega, hrest⟩
  exact ⟨Char.toNat_inj.mp heq.1, heq.2⟩

theorem utf16Units_ne_nil (c : Char) : utf16Units c ≠ [] := by
  unfold utf16Units
  split_ifs <;> simp

theorem utf16_injective {s t : String} (h : utf16 s = utf16 t) : s = t := by
  have hlist : ∀ l l' : List Char, l.flatMap utf16Units = l'.flatMap utf16Units → l = l' := by
    intro l
    induction l with
    | nil =>
      intro l' h
      cases l' with
      | nil => rfl
      | cons d l' =>
        rw [List.flatMap_cons, List.flatMap_nil] at h
        exact absurd (List.append_eq_nil_iff.mp h.symm).1 (utf16Units_ne_nil d)
    | cons c l ih =>
      intro l' h
      cases l' with
      | nil =>
        rw [List.flatMap_cons, List.flatMap_nil] at h
        exact absurd (List.append_eq_nil_iff.mp h).1 (utf16Units_ne_nil c)
      | cons d l' =>
        rw [List.flatMap_cons, List.flatMap_cons] at h
        obtain ⟨hchar, hrest⟩ := utf16Units_append h
        rw [hchar, ih l' hrest]
  exact String.toList_injective (hlist _ _ h)

end Text
