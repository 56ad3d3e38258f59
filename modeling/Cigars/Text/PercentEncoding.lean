import Mathlib.Data.Nat.Notation
import Mathlib.Tactic.SplitIfs
import Mathlib.Tactic.Tauto

/-! UTF-8, percent-encoding, and the query of an address as a list of pairs. An encoding that leaves
the delimiters as they are makes no difference to how the query is split. -/
namespace Text

/-! ### UTF-8 -/

def utf8 (s : String) : List UInt8 := s.toList.flatMap String.utf8EncodeChar

@[simp] theorem utf8_append (s t : String) : utf8 (s ++ t) = utf8 s ++ utf8 t := by
  simp [utf8]

/-- A byte below 128 stands for itself. -/
theorem toNat_of_mem_utf8EncodeChar {c : Char} {b : UInt8} (hb : b.toNat < 128)
    (h : b ∈ String.utf8EncodeChar c) : c.toNat = b.toNat := by
  have hvalue : c.val.toNat = c.toNat := rfl
  simp only [String.utf8EncodeChar, hvalue] at h
  split_ifs at h with h1 h2 h3
  all_goals simp only [List.mem_cons, List.not_mem_nil, or_false, ← UInt8.toNat_inj, UInt8.toNat_ofNat'] at h
  all_goals omega

theorem mem_utf8_iff {s : String} {c : Char} (hc : c.toNat < 128) :
    UInt8.ofNat c.toNat ∈ utf8 s ↔ c ∈ s.toList := by
  have hbyte : (UInt8.ofNat c.toNat).toNat = c.toNat := by
    rw [UInt8.toNat_ofNat']
    omega
  unfold utf8
  rw [List.mem_flatMap]
  constructor
  · rintro ⟨d, hd, hmem⟩
    have heq : d.toNat = c.toNat := (toNat_of_mem_utf8EncodeChar (by omega) hmem).trans hbyte
    rwa [← Char.toNat_inj.mp heq]
  · intro hmem
    refine ⟨c, hmem, ?_⟩
    have hvalue : c.val.toNat = c.toNat := rfl
    have hle : c.toNat ≤ 127 := by omega
    simp only [String.utf8EncodeChar, hvalue, hle, if_true, List.mem_singleton]

/-! ### Escapes -/

def percent : UInt8 := 37

def hexDigit (n : ℕ) : UInt8 := UInt8.ofNat (if n < 10 then 48 + n else 55 + n)

def hexValue (b : UInt8) : Option ℕ :=
  let n := b.toNat
  if 48 ≤ n ∧ n ≤ 57 then some (n - 48)
  else if 65 ≤ n ∧ n ≤ 70 then some (n - 55)
  else if 97 ≤ n ∧ n ≤ 102 then some (n - 87)
  else none

def escape (b : UInt8) : List UInt8 := [percent, hexDigit (b.toNat / 16), hexDigit (b.toNat % 16)]

/-- Bytes are escaped but for those that may stand for themselves. -/
def code (unescaped : UInt8 → Bool) (b : UInt8) : List UInt8 := if unescaped b then [b] else escape b

def encode (unescaped : UInt8 → Bool) (bytes : List UInt8) : List UInt8 := bytes.flatMap (code unescaped)

/-- A percent sign without two digits stands for itself. -/
def decode : List UInt8 → List UInt8
  | [] => []
  | [a] => [a]
  | [a, b] => [a, b]
  | a :: b :: c :: rest =>
    match a == percent, hexValue b, hexValue c with
    | true, some high, some low => UInt8.ofNat (16 * high + low) :: decode rest
    | _, _, _ => a :: decode (b :: c :: rest)

theorem hexValue_hexDigit : ∀ n < 16, hexValue (hexDigit n) = some n := by decide

theorem decode_cons {b : UInt8} (hb : b ≠ percent) (rest : List UInt8) : decode (b :: rest) = b :: decode rest := by
  have hne : (b == percent) = false := beq_eq_false_iff_ne.mpr hb
  match rest with
  | [] => rfl
  | [_] => rfl
  | _ :: _ :: _ => simp only [decode, hne]

theorem decode_escape (b : UInt8) (rest : List UInt8) : decode (escape b ++ rest) = b :: decode rest := by
  have hlt : b.toNat < 256 := b.toNat_lt
  have hhigh := hexValue_hexDigit (b.toNat / 16) (by omega)
  have hlow := hexValue_hexDigit (b.toNat % 16) (by omega)
  have hsum : 16 * (b.toNat / 16) + b.toNat % 16 = b.toNat := by omega
  simp only [escape, List.cons_append, List.nil_append, decode, beq_self_eq_true, hhigh, hlow, hsum,
    UInt8.ofNat_toNat]

theorem decode_encode {unescaped : UInt8 → Bool} (h : unescaped percent = false) (bytes : List UInt8) :
    decode (encode unescaped bytes) = bytes := by
  unfold encode
  induction bytes with
  | nil => rfl
  | cons b bytes ih =>
    rw [List.flatMap_cons, code]
    cases hb : unescaped b with
    | true =>
      have hne : b ≠ percent := fun heq => by simp [heq, h] at hb
      simp only [if_true, List.cons_append, List.nil_append, decode_cons hne, ih]
    | false => simp only [Bool.false_eq_true, if_false, decode_escape, ih]

/-! ### Pairs -/

def questionMark : UInt8 := 63

def hash : UInt8 := 35

def ampersand : UInt8 := 38

def equalsSign : UInt8 := 61

/-- What stands between the first question mark and the next hash. -/
def query (url : List UInt8) : List UInt8 :=
  ((url.dropWhile (· != questionMark)).tail?.getD []).takeWhile (· != hash)

/-- A name, and the value after the first equals sign, if there is one. -/
def nameAndValue (part : List UInt8) : List UInt8 × Option (List UInt8) :=
  (part.takeWhile (· != equalsSign), (part.dropWhile (· != equalsSign)).tail?)

def rawPairs (url : List UInt8) : List (List UInt8 × Option (List UInt8)) :=
  ((query url).splitOn ampersand).map nameAndValue

/-- The pairs of the query, decoded. -/
def pairs (url : List UInt8) : List (List UInt8 × Option (List UInt8)) :=
  (rawPairs url).map fun pair => (decode pair.1, pair.2.map decode)

theorem notMem_takeWhile (d : UInt8) (bytes : List UInt8) : d ∉ bytes.takeWhile (· != d) := by
  intro hmem
  have hne := List.all_eq_true.mp (List.all_takeWhile (p := (· != d)) (l := bytes)) d hmem
  exact absurd rfl (bne_iff_ne.mp hne)

theorem ne_of_notMem {d : UInt8} {bytes : List UInt8} (h : d ∉ bytes) : ∀ b ∈ bytes, (b != d) = true := by
  intro b hb
  apply bne_iff_ne.mpr
  intro heq
  exact h (heq ▸ hb)

theorem takeWhile_of_notMem {d : UInt8} {bytes : List UInt8} (h : d ∉ bytes) :
    bytes.takeWhile (· != d) = bytes := by
  have happend : (bytes ++ []).takeWhile (· != d) = bytes ++ ([] : List UInt8).takeWhile (· != d) :=
    List.takeWhile_append_of_pos (ne_of_notMem h)
  simpa using happend

theorem splitOn_cons (separator b : UInt8) (bytes : List UInt8) : (b :: bytes).splitOn separator =
    if b = separator then [] :: bytes.splitOn separator else (bytes.splitOn separator).modifyHead (b :: ·) := by
  simp only [List.splitOn_cons_eq_if_modifyHead, beq_iff_eq]

theorem notMem_of_mem_splitOn {separator : UInt8} {bytes part : List UInt8} (h : part ∈ bytes.splitOn separator) :
    separator ∉ part := by
  induction bytes generalizing part with
  | nil =>
    rw [List.splitOn_nil, List.mem_singleton] at h
    rw [h]
    exact List.not_mem_nil
  | cons b bytes ih =>
    rw [splitOn_cons] at h
    split_ifs at h with hb
    · rcases List.mem_cons.mp h with rfl | hrest
      · exact List.not_mem_nil
      · exact ih hrest
    · cases hsplit : bytes.splitOn separator with
      | nil =>
        rw [hsplit] at h
        cases h
      | cons first rest =>
        rw [hsplit] at h ih
        rcases List.mem_cons.mp h with rfl | hrest
        · rw [List.mem_cons, not_or]
          exact ⟨fun heq => hb heq.symm, ih List.mem_cons_self⟩
        · exact ih (List.mem_cons_of_mem first hrest)

theorem splitOn_eq_iff {separator : UInt8} {bytes : List UInt8} {parts : List (List UInt8)} (hparts : parts ≠ []) :
    bytes.splitOn separator = parts ↔
      bytes = [separator].intercalate parts ∧ ∀ part ∈ parts, separator ∉ part := by
  constructor
  · intro h
    refine ⟨?_, fun part hpart => notMem_of_mem_splitOn (h ▸ hpart)⟩
    rw [← h, List.intercalate_splitOn]
  · rintro ⟨rfl, hnot⟩
    rw [List.splitOn_intercalate separator hnot hparts]

theorem intercalate_cons (separator : UInt8) (first : List UInt8) (parts : List (List UInt8)) :
    [separator].intercalate (first :: parts) = first ++ parts.flatMap (separator :: ·) := by
  induction parts generalizing first with
  | nil => simp
  | cons part parts ih =>
    rw [List.intercalate_cons_cons, ih, List.flatMap_cons, List.append_assoc, List.singleton_append, List.cons_append]

theorem query_append {pre : List UInt8} (hpre : questionMark ∉ pre) (rest : List UInt8) :
    query (pre ++ questionMark :: rest) = rest.takeWhile (· != hash) := by
  unfold query
  rw [List.dropWhile_append_of_pos (ne_of_notMem hpre)]
  simp

/-- A pair as it stands in a query. -/
def assignment (pair : List UInt8 × List UInt8) : List UInt8 := pair.1 ++ equalsSign :: pair.2

theorem nameAndValue_eq_iff {part : List UInt8} {pair : List UInt8 × List UInt8} :
    nameAndValue part = (pair.1, some pair.2) ↔ equalsSign ∉ pair.1 ∧ part = assignment pair := by
  unfold nameAndValue assignment
  rw [Prod.mk.injEq]
  constructor
  · rintro ⟨hname, hvalue⟩
    refine ⟨hname ▸ notMem_takeWhile equalsSign part, ?_⟩
    cases hrest : part.dropWhile (· != equalsSign) with
    | nil =>
      rw [hrest] at hvalue
      cases hvalue
    | cons b rest =>
      have hb : b = equalsSign := by
        have hhead := List.head?_dropWhile_not (· != equalsSign) part
        rw [hrest] at hhead
        simpa using hhead
      rw [hrest] at hvalue
      cases hvalue
      rw [hb] at hrest
      rw [← hname, ← hrest, List.takeWhile_append_dropWhile]
  · rintro ⟨hnot, rfl⟩
    rw [List.takeWhile_append_of_pos (ne_of_notMem hnot), List.dropWhile_append_of_pos (ne_of_notMem hnot)]
    simp

theorem map_nameAndValue_eq_iff {parts : List (List UInt8)} {ps : List (List UInt8 × List UInt8)} :
    parts.map nameAndValue = ps.map (fun p => (p.1, some p.2)) ↔
      (∀ p ∈ ps, equalsSign ∉ p.1) ∧ parts = ps.map assignment := by
  induction ps generalizing parts with
  | nil => simp
  | cons p ps ih =>
    cases parts with
    | nil => simp
    | cons part parts =>
      rw [List.map_cons, List.map_cons, List.cons.injEq, nameAndValue_eq_iff, ih, List.map_cons, List.cons.injEq,
        List.forall_mem_cons]
      tauto

/-- What a query must be to have these pairs. -/
theorem rawPairs_eq_iff {url : List UInt8} {ps : List (List UInt8 × List UInt8)} (hps : ps ≠ []) :
    rawPairs url = ps.map (fun p => (p.1, some p.2)) ↔
      query url = [ampersand].intercalate (ps.map assignment) ∧
        ∀ p ∈ ps, equalsSign ∉ p.1 ∧ ampersand ∉ assignment p := by
  have hparts : ps.map assignment ≠ [] := by simpa using hps
  unfold rawPairs
  rw [map_nameAndValue_eq_iff, splitOn_eq_iff hparts, List.forall_mem_map, forall₂_and]
  tauto

/-- A byte that is left as it is and does not occur in escapes. -/
structure Delimiter (unescaped : UInt8 → Bool) (d : UInt8) : Prop where
  kept : unescaped d = true
  ne_percent : d ≠ percent
  not_digit : hexValue d = none

namespace Delimiter
variable {unescaped : UInt8 → Bool} {d : UInt8}

theorem notMem_code (h : Delimiter unescaped d) {b : UInt8} (hb : b ≠ d) :
    d ∉ code unescaped b := by
  have hdigit : ∀ n < 16, d ≠ hexDigit n := by
    intro n hn heq
    have hvalue := hexValue_hexDigit n hn
    rw [← heq, h.not_digit] at hvalue
    cases hvalue
  have hlt : b.toNat < 256 := b.toNat_lt
  unfold code
  split_ifs
  · intro hmem
    exact hb (List.mem_singleton.mp hmem).symm
  · simp only [escape, List.mem_cons, List.not_mem_nil, or_false, not_or]
    exact ⟨h.ne_percent, hdigit _ (by omega), hdigit _ (by omega)⟩

theorem code_self (h : Delimiter unescaped d) : code unescaped d = [d] := if_pos h.kept


theorem encode_takeWhile (h : Delimiter unescaped d) (bytes : List UInt8) :
    (encode unescaped bytes).takeWhile (· != d) = encode unescaped (bytes.takeWhile (· != d)) := by
  unfold encode
  induction bytes with
  | nil => rfl
  | cons b bytes ih =>
    rw [List.flatMap_cons]
    by_cases hb : b = d
    · rw [hb, h.code_self]
      simp
    · rw [List.takeWhile_append_of_pos (ne_of_notMem (h.notMem_code hb)), ih,
        List.takeWhile_cons_of_pos (p := (· != d)) (bne_iff_ne.mpr hb), List.flatMap_cons]

theorem encode_dropWhile (h : Delimiter unescaped d) (bytes : List UInt8) :
    (encode unescaped bytes).dropWhile (· != d) = encode unescaped (bytes.dropWhile (· != d)) := by
  unfold encode
  induction bytes with
  | nil => rfl
  | cons b bytes ih =>
    rw [List.flatMap_cons]
    by_cases hb : b = d
    · rw [hb, h.code_self]
      simp [h.code_self]
    · rw [List.dropWhile_append_of_pos (ne_of_notMem (h.notMem_code hb)), ih,
        List.dropWhile_cons_of_pos (p := (· != d)) (bne_iff_ne.mpr hb)]

/-- Behind the first delimiter. -/
theorem encode_dropWhile_tail? (h : Delimiter unescaped d) (bytes : List UInt8) :
    ((encode unescaped bytes).dropWhile (· != d)).tail? =
      ((bytes.dropWhile (· != d)).tail?).map (encode unescaped) := by
  rw [h.encode_dropWhile]
  cases hrest : bytes.dropWhile (· != d) with
  | nil => rfl
  | cons b rest =>
    have hb : b = d := by
      have hhead := List.head?_dropWhile_not (· != d) bytes
      rw [hrest] at hhead
      simpa using hhead
    rw [hb]
    unfold encode
    rw [List.flatMap_cons, h.code_self]
    rfl

theorem splitOn_append {bytes : List UInt8} (hbytes : d ∉ bytes) (rest : List UInt8) :
    (bytes ++ rest).splitOn d = (rest.splitOn d).modifyHead (bytes ++ ·) := by
  induction bytes with
  | nil =>
    rw [List.nil_append]
    cases rest.splitOn d <;> rfl
  | cons b bytes ih =>
    have hb : b ≠ d := fun heq => hbytes (heq ▸ List.mem_cons_self)
    have hrest : d ∉ bytes := fun hmem => hbytes (List.mem_cons_of_mem b hmem)
    rw [List.cons_append, splitOn_cons, if_neg hb, ih hrest]
    cases rest.splitOn d <;> rfl

theorem encode_splitOn (h : Delimiter unescaped d) (bytes : List UInt8) :
    (encode unescaped bytes).splitOn d = (bytes.splitOn d).map (encode unescaped) := by
  unfold encode
  induction bytes with
  | nil => rfl
  | cons b bytes ih =>
    rw [List.flatMap_cons, splitOn_cons]
    by_cases hb : b = d
    · rw [if_pos hb, hb, h.code_self, List.singleton_append, splitOn_cons, if_pos rfl, ih]
      rfl
    · rw [if_neg hb, splitOn_append (h.notMem_code hb), ih]
      cases bytes.splitOn d <;> rfl

end Delimiter

/-- The delimiters of a query are kept, and percent signs are escaped. -/
structure QueryEncoding (unescaped : UInt8 → Bool) : Prop where
  delimiters : ∀ d ∈ [questionMark, hash, ampersand, equalsSign], unescaped d = true
  percent : unescaped percent = false

namespace QueryEncoding
variable {unescaped : UInt8 → Bool}

theorem delimiter (h : QueryEncoding unescaped) :
    ∀ d ∈ [questionMark, hash, ampersand, equalsSign], Delimiter unescaped d := by
  intro d hd
  have hkept := h.delimiters d hd
  simp only [List.mem_cons, List.not_mem_nil, or_false] at hd
  rcases hd with rfl | rfl | rfl | rfl
  all_goals exact ⟨hkept, by decide, by decide⟩

theorem query_encode (h : QueryEncoding unescaped) (url : List UInt8) :
    query (encode unescaped url) = encode unescaped (query url) := by
  have hquestion := h.delimiter questionMark (by decide)
  have hhash := h.delimiter hash (by decide)
  unfold query
  rw [hquestion.encode_dropWhile_tail?]
  cases (url.dropWhile (· != questionMark)).tail? with
  | none => rfl
  | some rest => rw [Option.map_some, Option.getD_some, Option.getD_some, hhash.encode_takeWhile]

/-- Decoding gives the pairs of the address as it was before it was encoded. -/
theorem pairs_encode (h : QueryEncoding unescaped) (url : List UInt8) :
    pairs (encode unescaped url) = rawPairs url := by
  have hampersand := h.delimiter ampersand (by decide)
  have hequals := h.delimiter equalsSign (by decide)
  unfold pairs rawPairs
  rw [h.query_encode, hampersand.encode_splitOn, List.map_map, List.map_map]
  apply List.map_congr_left
  intro part _
  have hdecode (bytes : List UInt8) : decode (encode unescaped bytes) = bytes := decode_encode h.percent bytes
  simp only [Function.comp_apply, nameAndValue, hequals.encode_takeWhile, hequals.encode_dropWhile_tail?, hdecode,
    Option.map_map]
  cases (part.dropWhile (· != equalsSign)).tail? with
  | none => rfl
  | some value => simp only [Option.map_some, Function.comp_apply, hdecode]

end QueryEncoding

end Text
