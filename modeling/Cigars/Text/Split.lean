import Mathlib.Data.List.Basic
import Mathlib.Data.Nat.Notation

/-! Splitting a text at any of several delimiters. Where more than one of them stands, the first in
the list is taken. -/
namespace Text
variable {α : Type} [DecidableEq α]

/-- The delimiter at the start of a text. -/
def delimiterAt (delimiters : List (List α)) (text : List α) : Option (List α) :=
  delimiters.find? fun d => d.isPrefixOf text

/-- The first `skip` characters belong to a delimiter already taken. -/
def splitFrom (delimiters : List (List α)) : ℕ → List α → List (List α)
  | _, [] => [[]]
  | skip + 1, _ :: text => splitFrom delimiters skip text
  | 0, c :: text =>
    match delimiterAt delimiters (c :: text) with
    | some d => [] :: splitFrom delimiters (d.length - 1) text
    | none => (splitFrom delimiters 0 text).modifyHead (c :: ·)

/-- The parts between the delimiters, in order; empty ones are kept. -/
def split (delimiters : List (List α)) (text : List α) : List (List α) := splitFrom delimiters 0 text

theorem splitFrom_eq (delimiters : List (List α)) (skip : ℕ) (text : List α) :
    splitFrom delimiters skip text = split delimiters (text.drop skip) := by
  induction text generalizing skip with
  | nil => cases skip <;> rfl
  | cons c text ih =>
    cases skip with
    | zero => rfl
    | succ skip => exact ih skip

omit [DecidableEq α] in
theorem prefix_of_notMem {c : α} {d before after : List α} (hc : c ∉ d) (h : d <+: before ++ c :: after) :
    d <+: before := by
  have hbefore : before <+: before ++ c :: after := List.prefix_append _ _
  have hnext : before ++ [c] <+: before ++ c :: after := by simp
  by_cases hlength : d.length ≤ before.length
  · exact List.prefix_of_prefix_length_le h hbefore hlength
  · have hlonger : before ++ [c] <+: d := List.prefix_of_prefix_length_le hnext h (by simp; omega)
    exact absurd (hlonger.subset (by simp)) hc

section Steps
variable {delimiters : List (List α)}

@[simp] theorem split_nil : split delimiters [] = [[]] := rfl

theorem delimiterAt_isPrefix {text d : List α} (h : delimiterAt delimiters text = some d) :
    d ∈ delimiters ∧ d <+: text := by
  have hmem : d ∈ delimiters := List.mem_of_find?_eq_some h
  have hbegins := List.find?_some h
  exact ⟨hmem, List.isPrefixOf_iff_prefix.mp hbegins⟩

/-- The delimiter at the start stays the same when the text is cut off behind it. -/
theorem delimiterAt_of_append {text rest d : List α} (h : delimiterAt delimiters (text ++ rest) = some d)
    (hd : d <+: text) : delimiterAt delimiters text = some d := by
  obtain ⟨-, earlier, later, hsplit, hnot⟩ := List.find?_eq_some_iff_append.mp h
  refine List.find?_eq_some_iff_append.mpr ⟨List.isPrefixOf_iff_prefix.mpr hd, earlier, later, hsplit, ?_⟩
  intro e he
  have hno := hnot e he
  simp only [Bool.not_eq_true', Bool.eq_false_iff, ne_eq, List.isPrefixOf_iff_prefix] at hno ⊢
  exact fun hbegins => hno (hbegins.trans (List.prefix_append text rest))

theorem split_of_delimiterAt {d rest : List α} (hd : d ≠ []) (h : delimiterAt delimiters (d ++ rest) = some d) :
    split delimiters (d ++ rest) = [] :: split delimiters rest := by
  cases d with
  | nil => exact absurd rfl hd
  | cons c d =>
    have hrest : (d ++ rest).drop d.length = rest := List.drop_left
    rw [List.cons_append] at h ⊢
    simp only [split, splitFrom, h, List.length_cons, Nat.add_sub_cancel]
    rw [splitFrom_eq, hrest]
    rfl

theorem split_of_none {c : α} {text : List α} (h : delimiterAt delimiters (c :: text) = none) :
    split delimiters (c :: text) = (split delimiters text).modifyHead (c :: ·) := by
  simp only [split, splitFrom, h]

end Steps

/-- Every character of a delimiter is a delimiter of its own. -/
structure Closed (delimiters : List (List α)) : Prop where
  ne_nil : ∀ d ∈ delimiters, d ≠ []
  single : ∀ d ∈ delimiters, ∀ c ∈ d, [c] ∈ delimiters

namespace Closed
variable {delimiters : List (List α)} (h : Closed delimiters)
include h

theorem delimiterAt_eq_none_iff {c : α} {text : List α} :
    delimiterAt delimiters (c :: text) = none ↔ [c] ∉ delimiters := by
  unfold delimiterAt
  rw [List.find?_eq_none]
  constructor
  · intro hnone hc
    exact hnone [c] hc (by simp [List.isPrefixOf])
  · intro hc d hd hbegins
    cases d with
    | nil => exact h.ne_nil [] hd rfl
    | cons a d =>
      have ha : a = c := by
        simp only [List.isPrefixOf, Bool.and_eq_true, beq_iff_eq] at hbegins
        exact hbegins.1
      exact hc (ha ▸ h.single _ hd a List.mem_cons_self)

/-- A text is split by peeling off one character or one delimiter at a time. -/
theorem induction {motive : List α → Prop} (nil : motive [])
    (delimiter : ∀ d rest, d ∈ delimiters → delimiterAt delimiters (d ++ rest) = some d → motive rest →
      motive (d ++ rest))
    (other : ∀ c rest, [c] ∉ delimiters → motive rest → motive (c :: rest)) (text : List α) : motive text := by
  induction hn : text.length using Nat.strongRecOn generalizing text with
  | ind n ih =>
    subst hn
    cases text with
    | nil => exact nil
    | cons c rest =>
      cases hat : delimiterAt delimiters (c :: rest) with
      | none =>
        have hrest := ih rest.length (by simp) rest rfl
        exact other c rest (h.delimiterAt_eq_none_iff.mp hat) hrest
      | some d =>
        obtain ⟨hd, tail, htail⟩ := delimiterAt_isPrefix hat
        have hpos : 0 < d.length := List.length_pos_iff.mpr (h.ne_nil d hd)
        have hlength : tail.length < (c :: rest).length := by
          rw [← htail, List.length_append]
          omega
        rw [← htail] at hat ⊢
        exact delimiter d tail hd hat (ih tail.length hlength tail rfl)

theorem split_delimiter {d rest : List α} (hd : d ∈ delimiters)
    (hat : delimiterAt delimiters (d ++ rest) = some d) :
    split delimiters (d ++ rest) = [] :: split delimiters rest :=
  split_of_delimiterAt (h.ne_nil d hd) hat

theorem split_cons {c : α} (hc : [c] ∉ delimiters) (rest : List α) :
    split delimiters (c :: rest) = (split delimiters rest).modifyHead (c :: ·) :=
  split_of_none (h.delimiterAt_eq_none_iff.mpr hc)

theorem split_ne_nil (text : List α) : split delimiters text ≠ [] := by
  induction text using h.induction with
  | nil => simp
  | delimiter d rest hd hat _ => simp [h.split_delimiter hd hat]
  | other c rest hc ih => simpa [h.split_cons hc] using ih

/-- No part holds a delimiter. -/
theorem notMem_of_mem_split {text part : List α} (hpart : part ∈ split delimiters text) :
    ∀ c ∈ part, [c] ∉ delimiters := by
  induction text using h.induction generalizing part with
  | nil =>
    rw [split_nil, List.mem_singleton] at hpart
    simp [hpart]
  | delimiter d rest hd hat ih =>
    rw [h.split_delimiter hd hat, List.mem_cons] at hpart
    rcases hpart with rfl | hrest
    · simp
    · exact ih hrest
  | other c rest hc ih =>
    rw [h.split_cons hc] at hpart
    cases hsplit : split delimiters rest with
    | nil => exact absurd hsplit (h.split_ne_nil rest)
    | cons first parts =>
      rw [hsplit] at hpart ih
      rw [List.modifyHead_cons, List.mem_cons] at hpart
      rcases hpart with rfl | hparts
      · have hfirst := ih List.mem_cons_self
        simpa [hc] using hfirst
      · exact ih (List.mem_cons_of_mem first hparts)

theorem split_append {part : List α} (hpart : ∀ c ∈ part, [c] ∉ delimiters) (rest : List α) :
    split delimiters (part ++ rest) = (split delimiters rest).modifyHead (part ++ ·) := by
  induction part with
  | nil =>
    rw [List.nil_append]
    cases split delimiters rest <;> rfl
  | cons c part ih =>
    have hrest := ih fun a ha => hpart a (List.mem_cons_of_mem c ha)
    rw [List.cons_append, h.split_cons (hpart c List.mem_cons_self), hrest]
    cases split delimiters rest <;> rfl

theorem split_part {part : List α} (hpart : ∀ c ∈ part, [c] ∉ delimiters) : split delimiters part = [part] := by
  have happend := h.split_append hpart []
  simpa using happend

/-- A part ends where a delimiter stands. -/
theorem split_part_delimiter {part d rest : List α} (hpart : ∀ c ∈ part, [c] ∉ delimiters)
    (hd : d ∈ delimiters) (hat : delimiterAt delimiters (d ++ rest) = some d) :
    split delimiters (part ++ (d ++ rest)) = part :: split delimiters rest := by
  rw [h.split_append hpart, h.split_delimiter hd hat, List.modifyHead_cons, List.append_nil]

/-- Parts joined by a delimiter that is always the one taken are found again. -/
theorem split_intercalate {c : α} (hc : ∀ rest, delimiterAt delimiters (c :: rest) = some [c])
    {parts : List (List α)} (hne : parts ≠ []) (hparts : ∀ part ∈ parts, ∀ a ∈ part, [a] ∉ delimiters) :
    split delimiters ([c].intercalate parts) = parts := by
  have hmem : [c] ∈ delimiters := (delimiterAt_isPrefix (hc [])).1
  induction parts with
  | nil => exact absurd rfl hne
  | cons part parts ih =>
    have hpart := hparts part List.mem_cons_self
    cases parts with
    | nil => simpa using h.split_part hpart
    | cons next parts =>
      have hrest := ih (by simp) fun p hp => hparts p (List.mem_cons_of_mem part hp)
      rw [List.intercalate_cons_cons, List.append_assoc, h.split_part_delimiter hpart hmem (hc _), hrest]

theorem length_split_eq_one_iff (text : List α) :
    (split delimiters text).length = 1 ↔ ∀ c ∈ text, [c] ∉ delimiters := by
  constructor
  · intro hlength
    obtain ⟨part, hpart⟩ := List.length_eq_one_iff.mp hlength
    induction text using h.induction generalizing part with
    | nil => simp
    | delimiter d rest hd hat _ =>
      rw [h.split_delimiter hd hat] at hlength
      have hne := h.split_ne_nil rest
      simp_all
    | other c rest hc ih =>
      rw [h.split_cons hc, List.length_modifyHead] at hlength
      obtain ⟨first, hfirst⟩ := List.length_eq_one_iff.mp hlength
      simpa [hc] using ih hlength first hfirst
  · intro hnone
    rw [h.split_part hnone]
    rfl

/-- Where all delimiters that can stand in the text are single characters, what is not in a part is one of
them. -/
theorem length_eq {text : List α} (hsingle : ∀ d ∈ delimiters, d ⊆ text → d.length = 1) :
    text.length + 1 = (split delimiters text).flatten.length + (split delimiters text).length := by
  induction text using h.induction with
  | nil => rfl
  | delimiter d rest hd hat ih =>
    have hrest := ih fun e he hsub => hsingle e he fun c hc => List.mem_append_right d (hsub hc)
    have hlength := hsingle d hd fun c hc => List.mem_append_left rest hc
    rw [h.split_delimiter hd hat, List.length_append, List.flatten_cons, List.nil_append, List.length_cons]
    omega
  | other c rest hc ih =>
    have hrest := ih fun e he hsub => hsingle e he fun a ha => List.mem_cons_of_mem c (hsub ha)
    obtain ⟨first, others, hsplit⟩ := List.exists_cons_of_ne_nil (h.split_ne_nil rest)
    rw [h.split_cons hc, hsplit, List.modifyHead_cons]
    rw [hsplit] at hrest
    simp only [List.flatten_cons, List.length_append, List.length_cons] at hrest ⊢
    omega

/-- What stands before a character that is in no delimiter is split by itself; the part that holds
the character goes on. -/
theorem split_append_cons {c : α} (hc : [c] ∉ delimiters) (before after : List α) :
    ∃ parts last first rest, split delimiters before = parts ++ [last] ∧
      split delimiters after = first :: rest ∧
      split delimiters (before ++ c :: after) = parts ++ (last ++ c :: first) :: rest := by
  obtain ⟨first, rest, hafter⟩ := List.exists_cons_of_ne_nil (h.split_ne_nil after)
  induction before using h.induction with
  | nil =>
    refine ⟨[], [], first, rest, rfl, hafter, ?_⟩
    rw [List.nil_append, h.split_cons hc, hafter]
    rfl
  | delimiter d before hd hat ih =>
    obtain ⟨parts, last, first', rest', hbefore, hafter', hwhole⟩ := ih
    -- The delimiter found stays within what stands before the character.
    have hat' : delimiterAt delimiters (d ++ (before ++ c :: after)) = some d := by
      obtain ⟨hfound, earlier, later, hsplit, hnot⟩ := List.find?_eq_some_iff_append.mp hat
      refine List.find?_eq_some_iff_append.mpr ⟨?_, earlier, later, hsplit, ?_⟩
      · simp
      · intro e he
        have hnotMem : c ∉ e := fun hmem => hc (h.single e (by simp [hsplit, he]) c hmem)
        have hno := hnot e he
        simp only [Bool.not_eq_true', Bool.eq_false_iff, ne_eq, List.isPrefixOf_iff_prefix] at hno ⊢
        rw [← List.append_assoc]
        exact fun hbegins => hno (prefix_of_notMem hnotMem hbegins)
    refine ⟨[] :: parts, last, first', rest', ?_, hafter', ?_⟩
    · rw [h.split_delimiter hd hat, hbefore]
      rfl
    · rw [List.append_assoc, h.split_delimiter hd hat', hwhole]
      rfl
  | other a before ha ih =>
    obtain ⟨parts, last, first', rest', hbefore, hafter', hwhole⟩ := ih
    cases parts with
    | nil =>
      refine ⟨[], a :: last, first', rest', ?_, hafter', ?_⟩
      · rw [h.split_cons ha, hbefore]
        rfl
      · rw [List.cons_append, h.split_cons ha, hwhole]
        rfl
    | cons part parts =>
      refine ⟨(a :: part) :: parts, last, first', rest', ?_, hafter', ?_⟩
      · rw [h.split_cons ha, hbefore]
        rfl
      · rw [List.cons_append, h.split_cons ha, hwhole]
        rfl

/-- A character in a part, and what stands before it in the text. -/
theorem exists_of_split_eq {c : α} {text part part' : List α} {parts rest : List (List α)}
    (hsplit : split delimiters text = parts ++ (part ++ c :: part') :: rest) :
    ∃ before after, text = before ++ c :: after ∧ (split delimiters before).length = parts.length + 1 := by
  induction text using h.induction generalizing parts part with
  | nil =>
    cases parts <;> simp at hsplit
  | delimiter d tail hd hat ih =>
    rw [h.split_delimiter hd hat] at hsplit
    cases parts with
    | nil => simp at hsplit
    | cons first parts =>
      obtain ⟨before, after, rfl, hlength⟩ := ih (List.cons_eq_cons.mp hsplit).2
      have hbefore : delimiterAt delimiters (d ++ before) = some d := by
        rw [← List.append_assoc] at hat
        exact delimiterAt_of_append hat (List.prefix_append d before)
      refine ⟨d ++ before, after, by simp, ?_⟩
      rw [h.split_delimiter hd hbefore, List.length_cons, List.length_cons, hlength]
  | other a tail ha ih =>
    obtain ⟨first, others, htail⟩ := List.exists_cons_of_ne_nil (h.split_ne_nil tail)
    rw [h.split_cons ha, htail, List.modifyHead_cons] at hsplit
    have hcons : ∀ before, (split delimiters (a :: before)).length = (split delimiters before).length := by
      intro before
      rw [h.split_cons ha, List.length_modifyHead]
    cases parts with
    | nil =>
      obtain ⟨hfirst, hothers⟩ := List.cons_eq_cons.mp hsplit
      cases part with
      | nil =>
        obtain ⟨rfl, -⟩ := List.cons_eq_cons.mp hfirst
        exact ⟨[], tail, rfl, rfl⟩
      | cons b part =>
        obtain ⟨-, hrest⟩ := List.cons_eq_cons.mp hfirst
        have hwhole : split delimiters tail = [] ++ (part ++ c :: part') :: rest := by
          rw [htail, hrest, hothers]
          rfl
        obtain ⟨before, after, rfl, hlength⟩ := ih hwhole
        exact ⟨a :: before, after, rfl, (hcons before).trans hlength⟩
    | cons p parts =>
      obtain ⟨-, hothers⟩ := List.cons_eq_cons.mp hsplit
      have hwhole : split delimiters tail = (first :: parts) ++ (part ++ c :: part') :: rest := by
        rw [htail, hothers]
        rfl
      obtain ⟨before, after, rfl, hlength⟩ := ih hwhole
      exact ⟨a :: before, after, rfl, (hcons before).trans hlength⟩

end Closed
end Text
