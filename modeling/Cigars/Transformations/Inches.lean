import Cigars.Rapid.Lengths
import Cigars.Transformations.Basic
import Mathlib.Tactic.IntervalCases

/-! The notation of lengths in a text field: which texts can be displayed, and which come back as
they were when they are edited. -/
namespace Cigars
namespace InchesVisualTransformation
open Text

/-! ### Parts and delimiters -/

theorem closed_separators : Closed separators := ⟨by decide, by decide⟩

theorem delimiterAt_blank (rest : List ℕ) : delimiterAt separators (32 :: rest) = some [32] := rfl

/-- Each of the three is taken whole where it stands. -/
theorem delimiterAt_delimiter {d : List ℕ} (hd : d ∈ delimiters) (rest : List ℕ) :
    delimiterAt separators (d ++ rest) = some d := by
  simp only [delimiters, List.mem_cons, List.not_mem_nil, or_false] at hd
  rcases hd with rfl | rfl | rfl
  · rfl
  · rfl
  · rfl

theorem mem_separators {d : List ℕ} (hd : d ∈ delimiters) : d ∈ separators :=
  (delimiterAt_isPrefix (delimiterAt_delimiter hd [])).1

/-- A part that is not blank is kept, with its delimiter behind it. -/
def marked : List (List ℕ) → List (List ℕ) → Option (List ℕ)
  | _, [] => some []
  | marks, part :: parts =>
    if notBlank part then
      marks.head?.bind fun d => (marked marks.tail parts).map fun rest => part ++ (d ++ rest)
    else marked marks.tail parts

theorem foldlM_addPart (parts : List (List ℕ)) (index : ℕ) (transformed : List ℕ) :
    (parts.zipIdx index).foldlM addPart transformed =
      (marked (delimiters.drop index) parts).map (transformed ++ ·) := by
  induction parts generalizing index transformed with
  | nil => simp [marked]
  | cons part parts ih =>
    rw [List.zipIdx_cons, List.foldlM_cons, marked]
    unfold addPart
    simp only [List.head?_drop, List.tail_drop]
    split_ifs with hblank
    · cases delimiters[index]? with
      | none => rfl
      | some d =>
        have hrest := ih (index + 1) (transformed ++ (part ++ d))
        simp only [Option.map_some, Option.bind_some, Option.map_map]
        refine hrest.trans ?_
        congr 1
        funext rest
        simp
    · exact ih (index + 1) transformed

theorem toTransformed_eq (text : List ℕ) : toTransformed text = marked delimiters (split separators text) := by
  cases text with
  | nil => rfl
  | cons u text =>
    have hfold := foldlM_addPart (split separators (u :: text)) 0 []
    simp only [toTransformed, List.isEmpty_cons, Bool.false_eq_true, if_false, hfold]
    simp

/-- Joined with blanks, the parts are found again. -/
theorem split_fromTransformed (text : List ℕ) :
    split separators (fromTransformed text) = split separators text := by
  cases text with
  | nil => rfl
  | cons u text =>
    simp only [fromTransformed, List.isEmpty_cons, Bool.false_eq_true, if_false]
    apply closed_separators.split_intercalate delimiterAt_blank (closed_separators.split_ne_nil _)
    intro part hpart
    exact closed_separators.notMem_of_mem_split hpart

/-! ### Texts that can be displayed -/

theorem marked_isSome_iff (marks parts : List (List ℕ)) :
    (marked marks parts).isSome = true ↔ ∀ part ∈ parts.drop marks.length, notBlank part = false := by
  induction parts generalizing marks with
  | nil => simp [marked]
  | cons part parts ih =>
    rw [marked]
    cases marks with
    | nil =>
      have hrest := ih []
      cases hblank : notBlank part with
      | true => simp [hblank]
      | false => simpa [hblank] using hrest
    | cons d marks =>
      have hrest := ih marks
      cases hblank : notBlank part with
      | true => simpa [hblank] using hrest
      | false => simpa [hblank] using hrest

/-- Neither a delimiter nor blank. -/
def Printed (u : ℕ) : Prop := [u] ∉ separators ∧ isWhitespace (Char.ofNat u) = false

instance decidablePrinted (u : ℕ) : Decidable (Printed u) := inferInstanceAs (Decidable (_ ∧ _))

/-- The delimiters in a text, an apostrophe and the blank behind it being one. -/
def delimitersIn (text : List ℕ) : ℕ := (split separators text).length - 1

/-- Nothing is printed behind a third delimiter. -/
def WithinDelimiters (text : List ℕ) : Prop :=
  ∀ before u after, text = before ++ u :: after → Printed u → delimitersIn before ≤ 2

theorem toTransformed_isSome_iff (text : List ℕ) :
    (toTransformed text).isSome = true ↔ WithinDelimiters text := by
  have hlength : delimiters.length = 3 := rfl
  rw [toTransformed_eq, marked_isSome_iff, hlength]
  constructor
  · intro hblank before u after htext hprinted
    obtain ⟨parts, last, first, rest, hbefore, -, hwhole⟩ :=
      closed_separators.split_append_cons hprinted.1 before after
    by_contra hmany
    have hparts : 3 ≤ parts.length := by
      simp only [delimitersIn, hbefore, List.length_append, List.length_singleton] at hmany
      omega
    have hmem : last ++ u :: first ∈ (split separators text).drop 3 := by
      rw [htext, hwhole, List.drop_append_of_le_length hparts]
      simp
    have hprint : notBlank (last ++ u :: first) = true :=
      (notBlank_iff _).mpr ⟨u, by simp, hprinted.2⟩
    rw [hblank _ hmem] at hprint
    cases hprint
  · intro hwithin part hpart
    by_contra hprint
    obtain ⟨u, hu, hspace⟩ := (notBlank_iff part).mp (by simpa using hprint)
    obtain ⟨first, last, hsplit⟩ := List.append_of_mem hu
    obtain ⟨parts, rest, hdrop⟩ := List.append_of_mem hpart
    have hwhole : split separators text =
        ((split separators text).take 3 ++ parts) ++ (first ++ u :: last) :: rest := by
      rw [← hsplit, List.append_assoc, ← hdrop, List.take_append_drop]
    obtain ⟨before, after, htext, hcount⟩ := closed_separators.exists_of_split_eq hwhole
    have hmem : part ∈ split separators text := List.mem_of_mem_drop hpart
    have hle := hwithin before u after htext ⟨closed_separators.notMem_of_mem_split hmem u hu, hspace⟩
    have htake : ((split separators text).take 3).length = 3 := by
      have hpos := List.length_pos_of_mem hpart
      rw [List.length_drop] at hpos
      rw [List.length_take]
      omega
    simp only [delimitersIn, hcount, List.length_append, htake] at hle
    omega

/-- Neither the change of the text nor its display throws. -/
def NeverThrows (text : List ℕ) : Prop :=
  (TextStyled.onValueChange .inches text).isSome = true ∧ (filter text).isSome = true

/-- An accepted text is displayed exactly when nothing stands behind its third delimiter. -/
theorem neverThrows_iff {text : List ℕ} (h : InputMode.inches.validate text = true) :
    NeverThrows text ↔ WithinDelimiters text := by
  have hchange : (TextStyled.onValueChange .inches text).isSome = (toTransformed text).isSome := by
    cases text with
    | nil => rfl
    | cons u text =>
      simp only [TextStyled.onValueChange, h, if_true, Option.isSome_map]
      rfl
  have hfilter : (filter text).isSome = (toTransformed text).isSome := Option.isSome_map
  rw [NeverThrows, hchange, hfilter, and_self, toTransformed_isSome_iff]

theorem neverThrows_robusto : InputMode.inches.validate (utf16 "5 7 8") = true ∧ NeverThrows (utf16 "5 7 8") := by
  have hvalid : InputMode.inches.validate (utf16 "5 7 8") = true := by decide
  refine ⟨hvalid, (neverThrows_iff hvalid).mpr ?_⟩
  rw [← toTransformed_isSome_iff]
  decide

/-- Four numbers with blanks between them. -/
theorem not_neverThrows_fourNumbers :
    InputMode.inches.validate (utf16 "1 2 3 4") = true ∧
      TextStyled.onValueChange .inches (utf16 "1 2 3 4") = none ∧ ¬ NeverThrows (utf16 "1 2 3 4") := by
  have hthrows : TextStyled.onValueChange .inches (utf16 "1 2 3 4") = none := by decide
  refine ⟨by decide, hthrows, ?_⟩
  rintro ⟨hsome, -⟩
  rw [hthrows] at hsome
  cases hsome

/-! ### Texts that come back -/

/-- Opened in the editor and saved. -/
def Kept (text : List ℕ) : Prop := toTransformed (fromTransformed text) = some text

theorem kept_iff_marked (text : List ℕ) : Kept text ↔ marked delimiters (split separators text) = some text := by
  rw [Kept, toTransformed_eq, split_fromTransformed]

/-- No part that is not blank stands behind a blank one. -/
def BlanksLast (parts : List (List ℕ)) : Prop :=
  parts.Pairwise fun part next => notBlank next = true → notBlank part = true

section Marked
variable {marks parts : List (List ℕ)} {text : List ℕ}

theorem marked_of_blank (marks : List (List ℕ)) (hblank : ∀ part ∈ parts, notBlank part = false) :
    marked marks parts = some [] := by
  induction parts generalizing marks with
  | nil => rfl
  | cons part parts ih =>
    have hrest := ih marks.tail fun p hp => hblank p (List.mem_cons_of_mem part hp)
    simp [marked, hblank part List.mem_cons_self, hrest]

/-- A part with its mark, and the rest. -/
theorem marked_cons_eq_some_iff {part : List ℕ} (hprint : notBlank part = true) :
    marked marks (part :: parts) = some text ↔
      ∃ d ms rest, marks = d :: ms ∧ marked ms parts = some rest ∧ text = part ++ (d ++ rest) := by
  cases marks with
  | nil => simp [marked, hprint]
  | cons d ms => simp [marked, hprint, eq_comm]

theorem split_marked (hmarks : ∀ d ∈ marks, d ∈ delimiters)
    (hparts : ∀ part ∈ parts, ∀ u ∈ part, [u] ∉ separators) (h : marked marks parts = some text) :
    split separators text = parts.filter notBlank ++ [[]] := by
  induction parts generalizing marks text with
  | nil =>
    cases h
    rfl
  | cons part parts ih =>
    have hrest : ∀ p ∈ parts, ∀ u ∈ p, [u] ∉ separators := fun p hp => hparts p (List.mem_cons_of_mem part hp)
    cases hprint : notBlank part with
    | true =>
      obtain ⟨d, ms, rest, rfl, hms, rfl⟩ := (marked_cons_eq_some_iff hprint).mp h
      have hd := hmarks d List.mem_cons_self
      have hsplit := ih (fun e he => hmarks e (List.mem_cons_of_mem d he)) hrest hms
      rw [closed_separators.split_part_delimiter (hparts part List.mem_cons_self) (mem_separators hd)
        (delimiterAt_delimiter hd rest), hsplit]
      simp [hprint]
    | false =>
      have hms : marked marks.tail parts = some text := by simpa [marked, hprint] using h
      have hsplit := ih (fun e he => hmarks e (List.mem_of_mem_tail he)) hrest hms
      rw [hsplit]
      simp [hprint]

/-- The first part kept stands first, with one of the marks. -/
theorem exists_mark_of_marked {part : List ℕ} {kept : List (List ℕ)} (h : marked marks parts = some text)
    (hfirst : parts.filter notBlank = part :: kept) :
    ∃ d ∈ marks, ∃ rest, text = part ++ (d ++ rest) := by
  induction parts generalizing marks text with
  | nil => cases hfirst
  | cons p parts ih =>
    cases hprint : notBlank p with
    | true =>
      obtain ⟨d, ms, rest, rfl, -, rfl⟩ := (marked_cons_eq_some_iff hprint).mp h
      have hpart : p = part := by simpa [hprint] using (List.cons_eq_cons.mp (by simpa [hprint] using hfirst)).1
      exact ⟨d, List.mem_cons_self, rest, by rw [hpart]⟩
    | false =>
      have hms : marked marks.tail parts = some text := by simpa [marked, hprint] using h
      obtain ⟨d, hd, rest, htext⟩ := ih hms (by simpa [hprint] using hfirst)
      exact ⟨d, List.mem_of_mem_tail hd, rest, htext⟩

/-- Without the blank parts the marks are the same exactly when no blank part took one from a part
behind it: no two marks begin alike. -/
theorem marked_filter_iff (hmarks : (marks.map List.head?).Nodup) (hne : ∀ d ∈ marks, d ≠ [])
    (h : marked marks parts = some text) :
    marked marks (parts.filter notBlank ++ [[]]) = some text ↔ BlanksLast parts := by
  have hblankLast (marks : List (List ℕ)) : marked marks [[]] = some [] := marked_of_blank marks (by decide)
  induction parts generalizing marks text with
  | nil => simpa [BlanksLast, hblankLast, marked] using h
  | cons part parts ih =>
    cases hprint : notBlank part with
    | true =>
      obtain ⟨d, ms, rest, rfl, hms, rfl⟩ := (marked_cons_eq_some_iff hprint).mp h
      have hrest := ih (List.nodup_cons.mp hmarks).2 (fun e he => hne e (List.mem_cons_of_mem d he)) hms
      have hsame : marked (d :: ms) (part :: (parts.filter notBlank ++ [[]])) =
          some (part ++ (d ++ rest)) ↔
          marked ms (parts.filter notBlank ++ [[]]) = some rest := by
        simp [marked, hprint]
      have hlast : BlanksLast (part :: parts) ↔ BlanksLast parts := by simp [BlanksLast, hprint]
      rw [List.filter_cons_of_pos hprint, List.cons_append]
      exact (hsame.trans hrest).trans hlast.symm
    | false =>
      have hms : marked marks.tail parts = some text := by simpa [marked, hprint] using h
      rw [List.filter_cons_of_neg (by simp [hprint])]
      cases hkept : parts.filter notBlank with
      | nil =>
        have hblank : ∀ p ∈ parts, notBlank p = false := by
          intro p hp
          simpa using List.filter_eq_nil_iff.mp hkept p hp
        have htext : text = [] := by
          rw [marked_of_blank marks.tail hblank] at hms
          exact (Option.some.inj hms).symm
        have hlast : BlanksLast (part :: parts) := by
          apply List.Pairwise.imp_of_mem (R := fun _ _ => True) _ (List.pairwise_of_forall fun _ _ => trivial)
          intro p next _ hnext _ hprintNext
          rcases List.mem_cons.mp hnext with rfl | hmem
          · rw [hprint] at hprintNext
            cases hprintNext
          · rw [hblank next hmem] at hprintNext
            cases hprintNext
        exact iff_of_true (htext ▸ hblankLast marks) hlast
      | cons first kept =>
        have hfirst : first ∈ parts ∧ notBlank first = true := by
          have hmem : first ∈ parts.filter notBlank := by simp [hkept]
          simpa using hmem
        apply iff_of_false
        · intro hsame
          obtain ⟨d, hd, rest, htext⟩ := exists_mark_of_marked hms hkept
          obtain ⟨e, ms, rest', rfl, -, htext'⟩ := (marked_cons_eq_some_iff hfirst.2).mp hsame
          have hrest : d ++ rest = e ++ rest' := by
            rw [htext] at htext'
            exact List.append_cancel_left htext'
          have hhead : d.head? = e.head? := by
            have hdne := hne d (List.mem_of_mem_tail hd)
            have hene := hne e List.mem_cons_self
            have heads := congrArg List.head? hrest
            rwa [List.head?_append_of_ne_nil d hdne, List.head?_append_of_ne_nil e hene] at heads
          exact (List.nodup_cons.mp hmarks).1 (hhead ▸ List.mem_map_of_mem hd)
        · intro hlast
          have hpart := (List.pairwise_cons.mp hlast).1 first hfirst.1 hfirst.2
          rw [hprint] at hpart
          cases hpart

end Marked

/-! ### The two producers of the notation -/

/-- A text typed in the field, or a length of the catalogue. -/
inductive LengthSource
  | typed (text : List ℕ)
  | measured (x : ℚ)

namespace LengthSource

def Produces : LengthSource → List ℕ → Prop
  | typed text, s => toTransformed text = some s
  | measured x, s => 0 ≤ x ∧ s = utf16 (fraction x)

/-- Typed, the text has no blank part before one that is not blank. Measured, it has a fraction. -/
def InOrder : LengthSource → Prop
  | typed text => BlanksLast (split separators text)
  | measured x => x < 2 ^ 31 ∧ 1 / 32 < Int.fract x ∧ Int.fract x ≤ 31 / 32

end LengthSource

theorem digit_bounds {u : ℕ} (h : Text.isDigit u = true) :
    [u] ∉ separators ∧ isWhitespace (Char.ofNat u) = false := by
  obtain ⟨hlow, hhigh⟩ := isDigit_iff.mp h
  interval_cases u <;> decide

theorem isDigit_of_mem_whole {w : ℤ} (hw : 0 ≤ w) {u : ℕ} (hu : u ∈ utf16 (toString w)) :
    Text.isDigit u = true := by
  obtain ⟨n, rfl⟩ := Int.eq_ofNat_of_zero_le hw
  obtain ⟨c, hc, hunit⟩ := List.mem_flatMap.mp hu
  have hdigit : c.isDigit = true := isDigit_of_mem_repr (n := n) hc
  have hbounds : 48 ≤ c.toNat ∧ c.toNat ≤ 57 := by
    simpa [Char.isDigit, UInt32.le_iff_toNat_le] using hdigit
  have hsmall : c.toNat < 65536 := by omega
  rw [utf16Units, if_pos hsmall, List.mem_singleton] at hunit
  rw [hunit, isDigit_iff]
  exact hbounds

theorem whole_ne_nil (w : ℤ) : utf16 (toString w) ≠ [] := by
  intro hnil
  have hempty : toString w = "" := utf16_injective hnil
  have hvalue := signedValue_toString w
  rw [hempty] at hvalue
  cases hvalue

/-- A whole number of inches and what follows its mark. -/
theorem split_whole {w : ℤ} (hw : 0 ≤ w) {d : List ℕ} (rest : List ℕ) (hd : d ∈ separators)
    (hat : delimiterAt separators (d ++ rest) = some d) :
    split separators (utf16 (toString w) ++ (d ++ rest)) = utf16 (toString w) :: split separators rest := by
  apply closed_separators.split_part_delimiter _ hd hat
  intro u hu
  exact (digit_bounds (isDigit_of_mem_whole hw hu)).1

theorem notBlank_whole {w : ℤ} (hw : 0 ≤ w) : notBlank (utf16 (toString w)) = true := by
  obtain ⟨u, hu⟩ := List.exists_mem_of_ne_nil _ (whole_ne_nil w)
  exact (notBlank_iff _).mpr ⟨u, hu, (digit_bounds (isDigit_of_mem_whole hw hu)).2⟩

/-- The apostrophe alone is not followed by a blank, which is put in. -/
theorem not_kept_whole {w : ℤ} (hw : 0 ≤ w) : ¬ Kept (utf16 (toString w ++ "'")) := by
  have htext : utf16 (toString w ++ "'") = utf16 (toString w) ++ (utf16 "'" ++ []) := by
    rw [utf16_append, List.append_nil]
  have hsplit := split_whole hw (d := utf16 "'") [] (by decide) rfl
  rw [kept_iff_marked, htext, hsplit, marked_cons_eq_some_iff (notBlank_whole hw)]
  rintro ⟨d, ms, rest, hmarks, -, hsame⟩
  have hd : d = utf16 "' " := (List.cons_eq_cons.mp hmarks).1.symm
  have hlength := congrArg List.length (List.append_cancel_left hsame)
  rw [hd, List.length_append, List.length_append] at hlength
  have hlengths : (utf16 "'").length = 1 ∧ (utf16 "' ").length = 2 := by decide
  rw [hlengths.1, hlengths.2, List.length_nil] at hlength
  omega

theorem kept_fraction {w : ℤ} (hw : 0 ≤ w) {k : ℕ} (h0 : 0 < k) (h16 : k < 16) :
    Kept (utf16 (toString w ++ "' " ++ fractions.getD (16 - k) "" ++ "“")) := by
  have htext : utf16 (toString w ++ "' " ++ fractions.getD (16 - k) "" ++ "“") =
      utf16 (toString w) ++ (utf16 "' " ++ utf16 (fractions.getD (16 - k) "" ++ "“")) := by
    simp only [utf16_append, List.append_assoc]
  have hsplit := split_whole hw (d := utf16 "' ") (utf16 (fractions.getD (16 - k) "" ++ "“")) (by decide) rfl
  have hfraction : marked [utf16 "/", utf16 "“"] (split separators (utf16 (fractions.getD (16 - k) "" ++ "“"))) =
      some (utf16 (fractions.getD (16 - k) "" ++ "“")) := by
    interval_cases k <;> decide
  rw [kept_iff_marked, htext, hsplit, marked_cons_eq_some_iff (notBlank_whole hw)]
  exact ⟨_, _, _, rfl, hfraction, rfl⟩

theorem kept_inchesText_iff {w : ℤ} (hw : 0 ≤ w) {k : ℕ} (hk : k ≤ 16) :
    Kept (utf16 (inchesText w k)) ↔ k ≠ 0 ∧ k ≠ 16 := by
  unfold inchesText
  split_ifs with hbare
  · apply iff_of_false (not_kept_whole hw)
    tauto
  · have hne := not_or.mp hbare
    exact iff_of_true (kept_fraction hw (by omega) (by omega)) hne

/-- A length comes back from the editor as it was exactly when its parts are marked in order: a whole
number of inches gets a blank behind it, and a part behind an empty one gets another mark. -/
theorem kept_iff_inOrder {source : LengthSource} {s : List ℕ} (h : source.Produces s) : Kept s ↔ source.InOrder := by
  cases source with
  | typed text =>
    have hmarked : marked delimiters (split separators text) = some s := by
      rw [← toTransformed_eq]
      exact h
    have hparts : ∀ part ∈ split separators text, ∀ u ∈ part, [u] ∉ separators :=
      fun part hpart => closed_separators.notMem_of_mem_split hpart
    rw [kept_iff_marked, split_marked (fun d hd => hd) hparts hmarked]
    exact marked_filter_iff (by decide) (by decide) hmarked
  | measured x =>
    obtain ⟨h0, rfl⟩ := h
    have hfloor : 0 ≤ ⌊x⌋ := Int.floor_nonneg.mpr h0
    unfold LengthSource.InOrder
    by_cases hx : x < 2 ^ 31
    · rw [fraction_eq h0 hx, kept_inchesText_iff hfloor (nearestSixteenths_le x), ne_eq, ne_eq,
        nearestSixteenths_eq_zero_iff, nearestSixteenths_eq_sixteen_iff, not_le, not_lt]
      simp [hx]
    · rw [fraction_of_le (not_lt.mp hx), kept_inchesText_iff (by norm_num) (by norm_num)]
      simp [hx]

theorem kept_typedRobusto : LengthSource.Produces (.typed (utf16 "5 7 8")) (utf16 "5' 7/8“") ∧
    Kept (utf16 "5' 7/8“") := by
  have hproduces : LengthSource.Produces (.typed (utf16 "5 7 8")) (utf16 "5' 7/8“") := by
    change toTransformed (utf16 "5 7 8") = some (utf16 "5' 7/8“")
    decide
  have horder : BlanksLast (split separators (utf16 "5 7 8")) := by
    unfold BlanksLast
    decide
  exact ⟨hproduces, (kept_iff_inOrder hproduces).mpr horder⟩

/-- Five inches get a blank behind them, and a number typed behind a blank is taken for inches the
second time. -/
theorem not_kept_fiveInches :
    (LengthSource.Produces (.measured 5) (utf16 "5'") ∧
      toTransformed (fromTransformed (utf16 "5'")) = some (utf16 "5' ") ∧ ¬ Kept (utf16 "5'")) ∧
    LengthSource.Produces (.typed (utf16 " 7")) (utf16 "7/") ∧
      toTransformed (fromTransformed (utf16 "7/")) = some (utf16 "7' ") ∧ ¬ Kept (utf16 "7/") := by
  have hfive : fraction 5 = "5'" := by decide +kernel
  refine ⟨⟨⟨by norm_num, by rw [hfive]⟩, by decide, ?_⟩, ?_, by decide, ?_⟩
  · unfold Kept
    decide
  · change toTransformed (utf16 " 7") = some (utf16 "7/")
    decide
  · unfold Kept
    decide

end InchesVisualTransformation
end Cigars
