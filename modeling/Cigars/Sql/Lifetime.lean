import Cigars.Sql.Table

/-! What becomes of the rowids of an `AUTOINCREMENT` table under statements of any kind: a rowid that
was given to a row and is no longer in use is never given to another. -/
namespace Sql
namespace AutoTable
variable {ρ : Type} {t t₁ t₂ t₃ : AutoTable ρ}

/-- The effect of one statement. -/
inductive Change : AutoTable ρ → AutoTable ρ → Prop
  | insert (t : AutoTable ρ) (r : ρ) : Change t (t.insert r)
  | update (t : AutoTable ρ) (k : ℤ) (f : ρ → ρ) : Change t (t.update k f)
  | erase (t : AutoTable ρ) (k : ℤ) : Change t (t.erase k)
  | clear (t : AutoTable ρ) : Change t (.empty t.seq)

/-- Every row was there before, or its rowid is larger than any given out before. -/
structure Ages (t t' : AutoTable ρ) : Prop where
  seq : t.seq ≤ t'.seq
  rows : ∀ k, t'.contains k = true → t.contains k = true ∨ t.seq < k

theorem ages_refl (t : AutoTable ρ) : Ages t t := ⟨Int.le_refl _, fun _ h => .inl h⟩

theorem Ages.trans (h : Ages t₁ t₂) (h' : Ages t₂ t₃) : Ages t₁ t₃ := by
  refine ⟨h.seq.trans h'.seq, fun k hk => ?_⟩
  rcases h'.rows k hk with hstored | hnew
  · exact h.rows k hstored
  · exact .inr (lt_of_le_of_lt h.seq hnew)

theorem Change.ages (h : Change t₁ t₂) : Ages t₁ t₂ := by
  cases h with
  | insert r =>
    have hlt : t₁.seq < t₁.nextRowid := Int.lt_succ _
    refine ⟨hlt.le, fun k hk => ?_⟩
    obtain ⟨x, hx⟩ := (Table.contains_iff _ _).mp hk
    rw [find?_insert] at hx
    by_cases hnew : k = t₁.nextRowid
    · exact .inr (hnew ▸ hlt)
    · rw [if_neg hnew] at hx
      exact .inl ((Table.contains_iff _ _).mpr ⟨x, hx⟩)
  | update k f =>
    refine ⟨Int.le_refl _, fun k' hk' => .inl ?_⟩
    rwa [toTable_update, Table.contains_update] at hk'
  | erase k => exact ⟨Int.le_refl _, fun k' hk' => .inl ((Table.contains_erase_iff _ _ _).mp hk').2⟩
  | clear =>
    refine ⟨Int.le_refl _, fun k hk => ?_⟩
    obtain ⟨x, hx⟩ := (Table.contains_iff _ _).mp hk
    cases hx

theorem le_seq_of_contains {k : ℤ} (h : t.contains k = true) : k ≤ t.seq := by
  obtain ⟨x, hx⟩ := (Table.contains_iff _ _).mp h
  exact t.le_seq (k, x) ((Table.mem_rows_iff _ _ _).mpr hx)

/-- A rowid that has fallen out of use stays out of use. -/
theorem Ages.not_contains (h₁₂ : Ages t₁ t₂) (h₂₃ : Ages t₂ t₃) {k : ℤ} (hused : t₁.contains k = true)
    (hgone : t₂.contains k ≠ true) : t₃.contains k ≠ true := by
  intro hagain
  have hle : k ≤ t₂.seq := (le_seq_of_contains hused).trans h₁₂.seq
  rcases h₂₃.rows k hagain with hstored | hnew
  · exact hgone hstored
  · omega

end AutoTable
end Sql
