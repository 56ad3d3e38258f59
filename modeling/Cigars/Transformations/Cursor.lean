import Cigars.Transformations.Inches
import Cigars.Transformations.Price
import Mathlib.Data.Int.ConditionallyCompleteOrder
import Mathlib.Order.Monotone.Defs

/-! The cursor in an editable text. The text field counts offsets in the text itself and in the text
it shows, and throws on one that is mapped out of the other text. -/
namespace Cigars
open Text

/-- Both ways the offsets of one text go to offsets of the other, in their order. -/
structure OffsetMapping.Valid (mapping : OffsetMapping) (original transformed : ℕ) : Prop where
  mapsTo : Set.MapsTo mapping.originalToTransformed (Set.Icc (0 : ℤ) original) (Set.Icc (0 : ℤ) transformed)
  mono : MonotoneOn mapping.originalToTransformed (Set.Icc (0 : ℤ) original)
  mapsTo' : Set.MapsTo mapping.transformedToOriginal (Set.Icc (0 : ℤ) transformed) (Set.Icc (0 : ℤ) original)
  mono' : MonotoneOn mapping.transformedToOriginal (Set.Icc (0 : ℤ) transformed)

/-- What a field in the given mode shows; `none` where there is no transformation or it throws. -/
def InputMode.filter (mode : InputMode) (text : List ℕ) : Option TransformedText :=
  mode.visualTransformation.bind fun transformation => transformation.filter text

/-! ### Prices -/

theorem PriceVisualTransformation.length_toTransformed (text : List ℕ) :
    (toTransformed text).length = max text.length 3 + 1 := by
  obtain ⟨dollars, cents, htext, -, hfilled⟩ := exists_toTransformed text
  have hlength := congrArg List.length hfilled
  rw [List.length_append, List.length_append, List.length_replicate] at hlength
  rw [htext, List.length_append, List.length_cons]
  omega

theorem PriceVisualTransformation.valid_filter (text : List ℕ) :
    (filter text).offsetMapping.Valid text.length (filter text).text.length := by
  have hlength := length_toTransformed text
  have hforth : ∀ offset, (filter text).offsetMapping.originalToTransformed offset =
      if offset < 3 then 4 else offset + 1 := fun _ => rfl
  have hback : ∀ offset, (filter text).offsetMapping.transformedToOriginal offset = text.length := fun _ => rfl
  change OffsetMapping.Valid _ text.length (toTransformed text).length
  constructor
  · intro offset hoffset
    rw [Set.mem_Icc] at hoffset ⊢
    rw [hforth]
    split_ifs
    · omega
    · omega
  · intro offset _ offset' _ hle
    rw [hforth, hforth]
    split_ifs
    · omega
    · omega
    · omega
    · omega
  · intro offset _
    rw [Set.mem_Icc, hback]
    omega
  · intro offset _ offset' _ _
    rw [hback, hback]

/-! ### Inches -/

namespace InchesVisualTransformation
variable {text : List ℕ}

theorem length_split_blank (text : List ℕ) : (split [utf16 " "] text).length = 1 ↔ 32 ∉ text := by
  have hclosed : Closed [utf16 " "] := ⟨by decide, by decide⟩
  rw [hclosed.length_split_eq_one_iff]
  have hunit : ∀ u, [u] ∈ [utf16 " "] ↔ u = 32 := by
    intro u
    have hblank : utf16 " " = [32] := rfl
    simp [hblank]
  simp only [hunit]
  constructor
  · intro hnone hmem
    exact hnone 32 hmem rfl
  · intro hnot u hu hblank
    exact hnot (hblank ▸ hu)

theorem originalToTransformed_eq (h : 32 ∉ text) (offset : ℤ) : originalToTransformed text offset = offset := by
  have hparts := (length_split_blank (text.take offset.toNat)).mpr fun hmem => h (List.mem_of_mem_take hmem)
  simp only [originalToTransformed, hparts]

theorem transformedToOriginal_eq (h : 32 ∉ text) (offset : ℤ) : transformedToOriginal text offset = offset := by
  simp only [transformedToOriginal, (length_split_blank text).mpr h]

/-- With a blank in the text every offset moves one back, the first one out of the text. -/
theorem transformedToOriginal_of_blank (h : 32 ∈ text) (offset : ℤ) :
    transformedToOriginal text offset = offset - 1 := by
  have hparts : (split [utf16 " "] text).length ≠ 1 := by
    rw [ne_eq, length_split_blank, not_not]
    exact h
  unfold transformedToOriginal
  split
  · contradiction
  · rfl

/-- What the typed text loses when it is shown: its delimiters, and the units of its blank parts. -/
def lost (text : List ℕ) : ℕ :=
  delimitersIn text + ((split separators text).filter fun part => !notBlank part).flatten.length

/-- What is put in when the typed text is shown: the marks behind those of the first three parts that are not
blank. -/
def gained (text : List ℕ) : ℕ :=
  (List.zipWith (fun part d => if notBlank part then d.length else 0) (split separators text) delimiters).sum

theorem length_flatten_filter (parts : List (List ℕ)) :
    (parts.filter notBlank).flatten.length + (parts.filter fun part => !notBlank part).flatten.length =
      parts.flatten.length := by
  induction parts with
  | nil => rfl
  | cons part parts ih =>
    cases hprint : notBlank part with
    | true =>
      simp only [List.filter_cons, hprint, Bool.not_true, if_true, Bool.false_eq_true, if_false, List.flatten_cons,
        List.length_append]
      omega
    | false =>
      simp only [List.filter_cons, hprint, Bool.not_false, if_true, Bool.false_eq_true, if_false, List.flatten_cons,
        List.length_append]
      omega

theorem length_marked {marks parts : List (List ℕ)} {shown : List ℕ} (h : marked marks parts = some shown) :
    shown.length = (parts.filter notBlank).flatten.length +
      (List.zipWith (fun part d => if notBlank part then d.length else 0) parts marks).sum := by
  induction parts generalizing marks shown with
  | nil =>
    cases h
    rfl
  | cons part parts ih =>
    cases hprint : notBlank part with
    | true =>
      obtain ⟨d, ms, rest, rfl, hms, rfl⟩ := (marked_cons_eq_some_iff hprint).mp h
      have hrest := ih hms
      simp only [List.filter_cons, hprint, if_true, List.flatten_cons, List.length_append, List.zipWith_cons_cons,
        List.sum_cons]
      omega
    | false =>
      have hms : marked marks.tail parts = some shown := by simpa [marked, hprint] using h
      have hrest := ih hms
      cases marks with
      | nil =>
        simp only [List.tail_nil, List.zipWith_nil_right] at hrest
        simp only [List.filter_cons, hprint, Bool.false_eq_true, if_false, List.zipWith_nil_right]
        exact hrest
      | cons d ms =>
        simp only [List.tail_cons] at hrest
        simp only [List.filter_cons, hprint, Bool.false_eq_true, if_false, List.zipWith_cons_cons, List.sum_cons]
        omega

/-- Without a blank the delimiters of a text are single units. -/
theorem length_toTransformed {shown : List ℕ} (hblank : 32 ∉ text) (h : toTransformed text = some shown) :
    shown.length + lost text = text.length + gained text := by
  have hseparators : ∀ d ∈ separators, 32 ∈ d ∨ d.length = 1 := by decide
  have hsingle : ∀ d ∈ separators, d ⊆ text → d.length = 1 := fun d hd hsub =>
    (hseparators d hd).resolve_left fun hmem => hblank (hsub hmem)
  have htext := closed_separators.length_eq hsingle
  have hparts := length_flatten_filter (split separators text)
  rw [toTransformed_eq] at h
  have hshown := length_marked h
  have hpos := List.length_pos_of_ne_nil (closed_separators.split_ne_nil text)
  unfold lost gained delimitersIn
  omega

/-- The offsets of a length are mapped into the other text exactly if the typed text has no blank and gains as
many units as it loses. -/
theorem valid_filter_iff {shown : TransformedText} (h : filter text = some shown) :
    shown.offsetMapping.Valid text.length shown.text.length ↔ 32 ∉ text ∧ gained text = lost text := by
  obtain ⟨transformed, htransformed, rfl⟩ := Option.map_eq_some_iff.mp h
  change OffsetMapping.Valid ⟨originalToTransformed text, transformedToOriginal text⟩ text.length
    transformed.length ↔ _
  constructor
  · intro hvalid
    have hblank : 32 ∉ text := by
      intro hmem
      have hstart := hvalid.mapsTo' (show (0 : ℤ) ∈ Set.Icc (0 : ℤ) transformed.length by simp)
      simp [transformedToOriginal_of_blank hmem] at hstart
    -- Without a blank both maps are the identity, and the ends of the texts are each other's.
    have hforth := hvalid.mapsTo (show (text.length : ℤ) ∈ Set.Icc (0 : ℤ) text.length by simp)
    have hback := hvalid.mapsTo' (show (transformed.length : ℤ) ∈ Set.Icc (0 : ℤ) transformed.length by simp)
    simp only [originalToTransformed_eq hblank, transformedToOriginal_eq hblank, Set.mem_Icc] at hforth hback
    have hlength := length_toTransformed hblank htransformed
    exact ⟨hblank, by omega⟩
  · rintro ⟨hblank, hsame⟩
    have hlength : transformed.length = text.length := by
      have hboth := length_toTransformed hblank htransformed
      omega
    have hforth : originalToTransformed text = id := funext (originalToTransformed_eq hblank)
    have hback : transformedToOriginal text = id := funext (transformedToOriginal_eq hblank)
    rw [hforth, hback, hlength]
    exact ⟨Set.mapsTo_id _, monotoneOn_id, Set.mapsTo_id _, monotoneOn_id⟩

end InchesVisualTransformation

/-! ### Both -/

/-- The cursor of a price is always mapped into the other text. That of a length is only if the typed text
has no blank and gains as many units as it loses. -/
theorem InputMode.valid_offsetMapping_iff {mode : InputMode} (hmode : mode = .inches ∨ mode = .price)
    {text : List ℕ} {shown : TransformedText} (hshown : mode.filter text = some shown) :
    shown.offsetMapping.Valid text.length shown.text.length ↔ mode = .price ∨
      (32 ∉ text ∧ InchesVisualTransformation.gained text = InchesVisualTransformation.lost text) := by
  rcases hmode with rfl | rfl
  · rw [InchesVisualTransformation.valid_filter_iff hshown]
    simp
  · obtain rfl : PriceVisualTransformation.filter text = shown := Option.some.inj hshown
    exact iff_of_true (PriceVisualTransformation.valid_filter text) (Or.inl rfl)

theorem InputMode.valid_offsetMapping_fractionOnly : InputMode.inches.validate (utf16 "/7") = true ∧
    ∃ shown, InputMode.inches.filter (utf16 "/7") = some shown ∧ shown.text = utf16 "7/" ∧
      shown.offsetMapping.Valid (utf16 "/7").length shown.text.length := by
  refine ⟨by decide, _, rfl, by decide, ?_⟩
  exact (InputMode.valid_offsetMapping_iff (Or.inl rfl) rfl).mpr (Or.inr ⟨by decide, by decide⟩)

/-- Whole inches are shown with two more units, and the end of what is shown is out of the text. -/
theorem InputMode.not_valid_offsetMapping_fiveInches : InputMode.inches.validate (utf16 "5") = true ∧
    ∃ shown, InputMode.inches.filter (utf16 "5") = some shown ∧ shown.text = utf16 "5' " ∧
      shown.offsetMapping.transformedToOriginal 3 = 3 ∧
      ¬ shown.offsetMapping.Valid (utf16 "5").length shown.text.length := by
  have hshown : InchesVisualTransformation.filter (utf16 "5") = some ⟨utf16 "5' ",
      InchesVisualTransformation.originalToTransformed (utf16 "5"),
      InchesVisualTransformation.transformedToOriginal (utf16 "5")⟩ := rfl
  refine ⟨by decide, _, hshown, rfl, by decide, ?_⟩
  intro hvalid
  have hsame := ((InchesVisualTransformation.valid_filter_iff hshown).mp hvalid).2
  revert hsame
  decide

end Cigars
