import Cigars.Sql.Select

/-! When `LIKE` with a text between two `%` is a search for the text itself. -/
namespace Sql

/-- Equal up to the case of the letters of the Latin alphabet. -/
def SameLetters (s t : List Char) : Prop := s.map Char.toLower = t.map Char.toLower

/-- The first text occurs in the second one, up to case. -/
def Occurs (text column : List Char) : Prop := text.map Char.toLower <:+: column.map Char.toLower

instance (text column : List Char) : Decidable (Occurs text column) :=
  inferInstanceAs (Decidable (_ <:+: _))

/-- No character of the text is a wildcard. -/
def Plain (text : List Char) : Prop := ∀ c ∈ text, c ≠ '%' ∧ c ≠ '_'

instance (text : List Char) : Decidable (Plain text) :=
  List.decidableBAll (fun c => c ≠ '%' ∧ c ≠ '_') text

theorem Plain.tail {c : Char} {text : List Char} (h : Plain (c :: text)) : Plain text :=
  fun x hx => h x (List.mem_cons_of_mem c hx)

theorem occurs_iff (text column : List Char) :
    Occurs text column ↔ ∃ before mid after, column = before ++ mid ++ after ∧ SameLetters text mid := by
  constructor
  · rintro ⟨u, v, huv⟩
    obtain ⟨front, after, hcolumn, hfront, -⟩ := List.map_eq_append_iff.mp huv.symm
    obtain ⟨before, mid, hsplit, -, hmid⟩ := List.map_eq_append_iff.mp hfront
    exact ⟨before, mid, after, by rw [hcolumn, hsplit], hmid.symm⟩
  · rintro ⟨before, mid, after, rfl, hsame⟩
    refine ⟨before.map Char.toLower, after.map Char.toLower, ?_⟩
    rw [hsame, List.map_append, List.map_append]

section LikeChars
variable {p q s t : List Char}

theorem likeChars_percent_iff : likeChars ('%' :: p) s = true ↔ ∃ t, t <:+ s ∧ likeChars p t = true := by
  constructor
  · intro h
    simp only [likeChars, if_true, List.any_eq_true] at h
    obtain ⟨t, ht, hlike⟩ := h
    exact ⟨t, (List.mem_tails t s).mp ht, hlike⟩
  · rintro ⟨t, ht, hlike⟩
    exact likeChars_percent ht hlike

theorem likeChars_cons_iff {c : Char} (hc : c ≠ '%') :
    likeChars (c :: p) s = true ↔
      ∃ x t, s = x :: t ∧ (c = '_' ∨ c.toLower = x.toLower) ∧ likeChars p t = true := by
  cases s with
  | nil => simp [likeChars, hc]
  | cons x t => simp [likeChars, hc]

/-- A text matches itself, wildcards included. -/
theorem likeChars_append_of_same (h : SameLetters p s) (hq : likeChars q t = true) :
    likeChars (p ++ q) (s ++ t) = true := by
  induction p generalizing s with
  | nil =>
    have hs : s = [] := List.map_eq_nil_iff.mp h.symm
    rw [hs]
    exact hq
  | cons c p ih =>
    cases s with
    | nil => cases h
    | cons x s =>
      obtain ⟨hx, hs⟩ := List.cons_eq_cons.mp h
      by_cases hc : c = '%'
      · rw [hc]
        exact likeChars_percent (List.suffix_cons x (s ++ t)) (ih hs)
      · exact (likeChars_cons_iff hc).mpr ⟨x, s ++ t, rfl, Or.inr hx, ih hs⟩

/-- Without wildcards a pattern matches nothing but its own letters. -/
theorem likeChars_append_iff (hp : Plain p) :
    likeChars (p ++ q) s = true ↔ ∃ u v, s = u ++ v ∧ SameLetters p u ∧ likeChars q v = true := by
  constructor
  · intro h
    induction p generalizing s with
    | nil => exact ⟨[], s, rfl, rfl, h⟩
    | cons c p ih =>
      obtain ⟨hpercent, hunderscore⟩ := hp c List.mem_cons_self
      obtain ⟨x, t, rfl, hx, hlike⟩ := (likeChars_cons_iff hpercent).mp h
      obtain ⟨u, v, rfl, hsame, hq⟩ := ih hp.tail hlike
      have hcx : c.toLower = x.toLower := hx.resolve_left hunderscore
      refine ⟨x :: u, v, rfl, ?_, hq⟩
      unfold SameLetters
      rw [List.map_cons, List.map_cons, hcx, hsame]
  · rintro ⟨u, v, rfl, hsame, hq⟩
    exact likeChars_append_of_same hsame hq

theorem likeChars_rest (s : List Char) : likeChars ['%'] s = true :=
  likeChars_percent List.nil_suffix rfl

/-- A text that occurs is found. -/
theorem likeChars_of_occurs (h : Occurs p s) : likeChars ('%' :: p ++ ['%']) s = true := by
  obtain ⟨before, mid, after, rfl, hsame⟩ := (occurs_iff p s).mp h
  rw [List.append_assoc]
  exact likeChars_percent (List.suffix_append before (mid ++ after))
    (likeChars_append_of_same hsame (likeChars_rest after))

/-- A text without wildcards is found only where it occurs. -/
theorem likeChars_iff_occurs (hp : Plain p) : likeChars ('%' :: p ++ ['%']) s = true ↔ Occurs p s := by
  constructor
  · intro h
    rw [List.cons_append, likeChars_percent_iff] at h
    obtain ⟨t, ⟨before, rfl⟩, hlike⟩ := h
    obtain ⟨mid, after, rfl, hsame, -⟩ := (likeChars_append_iff hp).mp hlike
    exact (occurs_iff _ _).mpr ⟨before, mid, after, (List.append_assoc before mid after).symm, hsame⟩
  · exact likeChars_of_occurs

end LikeChars

/-- The text with every `%` left out and a letter for every `_`. -/
def filled (text : List Char) : List Char :=
  (text.filter fun c => c ≠ '%').map fun c => if c = '_' then 'a' else c

theorem plain_filled (text : List Char) : Plain (filled text) := by
  intro c hc
  obtain ⟨x, hx, rfl⟩ := List.mem_map.mp hc
  have hpercent : x ≠ '%' := of_decide_eq_true (List.mem_filter.mp hx).2
  split_ifs with hunderscore
  · decide
  · exact ⟨hpercent, hunderscore⟩

private theorem likeChars_append_filled (text q t : List Char) (hq : likeChars q t = true) :
    likeChars (text ++ q) (filled text ++ t) = true := by
  induction text with
  | nil => exact hq
  | cons c text ih =>
    by_cases hc : c = '%'
    · have hskip : filled (c :: text) = filled text := by simp [filled, hc]
      rw [hskip, hc]
      exact likeChars_percent List.suffix_rfl ih
    · have hcons : filled (c :: text) = (if c = '_' then 'a' else c) :: filled text := by simp [filled, hc]
      rw [hcons]
      refine (likeChars_cons_iff hc).mpr ⟨_, _, rfl, ?_, ih⟩
      split_ifs with hunderscore
      · exact Or.inl hunderscore
      · exact Or.inr rfl

/-- A text is found in what its wildcards stand for. -/
theorem likeChars_filled (text : List Char) : likeChars ('%' :: text ++ ['%']) (filled text) = true := by
  have hlike := likeChars_append_filled text ['%'] [] (likeChars_rest [])
  rw [List.append_nil] at hlike
  exact likeChars_percent List.suffix_rfl hlike

/-- No letter is lowered to a wildcard. -/
theorem eq_of_toLower_eq_wildcard {c w : Char} (hw : w = '%' ∨ w = '_') (h : c.toLower = w) : c = w := by
  unfold Char.toLower at h
  split_ifs at h with hupper
  · have hval : c.val.toNat + 32 = w.val.toNat := by
      rw [← h]
      have hlow : c.val.toNat ≤ 90 := hupper.2
      have hsum : (c.val + 32).toNat = (c.val.toNat + 32) % 2 ^ 32 := UInt32.toNat_add _ _
      have hmod : (c.val.toNat + 32) % 2 ^ 32 = c.val.toNat + 32 := Nat.mod_eq_of_lt (by omega)
      exact (hsum.trans hmod).symm
    have hhigh : 65 ≤ c.val.toNat := hupper.1
    rcases hw with rfl | rfl
    · have hpercent : '%'.val.toNat = 37 := rfl
      omega
    · have hunderscore : '_'.val.toNat = 95 := rfl
      omega
  · exact h

theorem mem_of_wildcard_occurs {text column : List Char} {w : Char} (hw : w = '%' ∨ w = '_')
    (hmem : w ∈ text) (h : Occurs text column) : w ∈ column := by
  have hlower : w.toLower ∈ column.map Char.toLower := h.subset (List.mem_map_of_mem hmem)
  have hself : w.toLower = w := by
    rcases hw with rfl | rfl
    · rfl
    · rfl
  obtain ⟨c, hc, hcw⟩ := List.mem_map.mp hlower
  rw [← eq_of_toLower_eq_wildcard hw (hcw.trans hself)]
  exact hc

/-- There a text with a wildcard does not occur itself. -/
theorem not_occurs_filled {text : List Char} (h : ¬Plain text) : ¬Occurs text (filled text) := by
  intro hoccurs
  apply h
  intro c hc
  constructor
  · rintro rfl
    exact (plain_filled text _ (mem_of_wildcard_occurs (Or.inl rfl) hc hoccurs)).1 rfl
  · rintro rfl
    exact (plain_filled text _ (mem_of_wildcard_occurs (Or.inr rfl) hc hoccurs)).2 rfl

end Sql
