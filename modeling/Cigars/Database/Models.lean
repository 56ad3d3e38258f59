import Cigars.Database.Numbers

/-! The entities the repositories hand out, their enumerations and their `toString`. A `Long`
is an integer; what is computed with one goes through `long`. -/
namespace Cigars

/-- What the database code throws. -/
inductive Exn
  | cantInsert
  | cantUpdate
  | cantRemove (id : ℤ)
  | noSuchRow
  | uniqueConstraint
  | stringIndexOutOfBounds
  | classCast
  | nullPointer
  | illegalArgument (message : String)
  | other (message : String)
  deriving DecidableEq

instance : Nonempty Exn := ⟨.cantInsert⟩

/-- `String.length`: UTF-16 code units. -/
def utf16Length (s : String) : ℕ := (s.toList.map fun c => if c.val < 0x10000 then 1 else 2).sum

/-- `s.substring(0, endIndex)` in a log text: only whether it throws matters. -/
def substring (s : String) (endIndex : ℕ) : Except Exn Unit :=
  if endIndex ≤ utf16Length s then .ok () else .error .stringIndexOutOfBounds

/-- `text?.let { cut(it) }`. -/
def letText (text : Option String) (cut : String → Except Exn Unit) : Except Exn Unit :=
  text.elim (.ok ()) cut

inductive HistoryType
  | addition
  | deletion
  | move
  deriving DecidableEq

namespace HistoryType

def type : HistoryType → ℤ
  | addition => 0
  | deletion => 1
  | move => 2

def fromLong (value : ℤ) : HistoryType :=
  if value = 0 then addition
  else if value = 1 then deletion
  else if value = 2 then move
  else addition

@[simp] theorem fromLong_type (t : HistoryType) : fromLong t.type = t := by
  cases t <;> rfl

end HistoryType

inductive CigarStrength
  | mild
  | mildToMedium
  | medium
  | mediumToFull
  | full
  | unknown
  deriving DecidableEq

namespace CigarStrength

def fromLong (value : ℤ) : CigarStrength :=
  if value = 0 then mild
  else if value = 1 then mildToMedium
  else if value = 2 then medium
  else if value = 3 then mediumToFull
  else if value = 4 then full
  else unknown

def toLong : CigarStrength → ℤ
  | mild => 0
  | mildToMedium => 1
  | medium => 2
  | mediumToFull => 3
  | full => 4
  | unknown => 5

@[simp] theorem fromLong_toLong (s : CigarStrength) : fromLong s.toLong = s := by
  cases s <;> rfl

theorem toLong_nonneg (s : CigarStrength) : 0 ≤ s.toLong := by
  cases s <;> decide

end CigarStrength

structure Relations where
  source : String
  id : ℤ
  deriving DecidableEq

/-- A text written by `Json.encodeToString`, represented by the list it encodes. -/
structure RelationsText where
  encoded : List Relations
  deriving DecidableEq

def encodeToString (relations : List Relations) : RelationsText := ⟨relations⟩

def decodeFromString (text : RelationsText) : List Relations := text.encoded

structure Humidor where
  rowid : ℤ
  name : String
  brand : String
  holds : ℤ
  count : ℤ
  temperature : Option ℤ := none
  humidity : Option Double := none
  notes : Option String := none
  link : Option String := none
  price : Option Double := none
  autoOpen : Bool := false
  sorting : Option ℤ := none
  type : ℤ := 0
  other : Option ℤ := none
  deriving DecidableEq

def emptyHumidor : Humidor := { rowid := -1, name := "", brand := "", holds := 0, count := 0 }

/-- Notes and link are cut to ten characters without looking at their length. -/
def Humidor.toString (h : Humidor) : Except Exn Unit := do
  letText h.notes fun notes => substring notes 10
  letText h.link fun link => substring link 10

structure Cigar where
  rowid : ℤ
  name : String
  brand : Option String
  country : Option String
  date : Option ℤ
  cigar : String
  wrapper : String
  binder : String
  gauge : ℤ
  length : String
  strength : CigarStrength
  rating : Option ℤ
  myrating : Option ℤ
  notes : Option String
  filler : String
  link : Option String
  count : ℤ
  shopping : Bool
  favorites : Bool
  price : Option Double
  other : Option ℤ := none
  relations : Option (List Relations) := none
  deriving DecidableEq

def emptyCigar : Cigar where
  rowid := -1
  name := ""
  brand := some ""
  country := some ""
  date := some 0
  cigar := ""
  wrapper := ""
  binder := ""
  gauge := 0
  length := ""
  strength := .mild
  rating := some 0
  myrating := some 0
  notes := some ""
  filler := ""
  link := some ""
  count := 0
  shopping := false
  favorites := false
  price := some 0
  other := none

def Cigar.relationsJson (c : Cigar) : Option RelationsText := c.relations.map encodeToString

def Cigar.toString (c : Cigar) : Except Exn Unit := do
  letText c.notes fun notes => if utf16Length notes > 10 then substring notes 10 else .ok ()
  letText c.link fun link => if utf16Length link > 10 then substring link 10 else .ok ()

@[simp] theorem Cigar.toString_eq (c : Cigar) : c.toString = .ok () := by
  have hcut : ∀ o : Option String,
      letText o (fun s => if utf16Length s > 10 then substring s 10 else .ok ()) = .ok () := by
    intro o
    cases o with
    | none => rfl
    | some s =>
      simp only [letText, Option.elim_some]
      split_ifs with hs
      · rw [substring, if_pos (by omega)]
      · rfl
  unfold Cigar.toString
  rw [hcut c.notes, hcut c.link]
  rfl

/-- `rowid` is declared in the body of the class: the constructor and `copy` start it at `-1`. -/
structure HumidorCigar where
  count : ℤ
  humidor : Humidor
  cigar : Cigar
  rowid : ℤ := -1
  deriving DecidableEq

/-- `copy(count = count)`. -/
def HumidorCigar.copy (hc : HumidorCigar) (count : ℤ) : HumidorCigar :=
  { count := count, humidor := hc.humidor, cigar := hc.cigar }

def HumidorCigar.toString (hc : HumidorCigar) : Except Exn Unit := do
  hc.humidor.toString
  hc.cigar.toString

@[simp] theorem HumidorCigar.toString_eq (hc : HumidorCigar) : hc.toString = hc.humidor.toString := by
  unfold HumidorCigar.toString
  rw [Cigar.toString_eq]
  cases hc.humidor.toString <;> rfl

structure History where
  rowid : ℤ
  count : ℤ
  date : ℤ
  left : ℤ
  price : Option Double
  type : HistoryType
  cigar : Option Cigar
  humidorFrom : Humidor
  humidorTo : Humidor
  deriving DecidableEq

structure CigarImage where
  rowid : ℤ
  image : Option String := none
  bytes : List UInt8
  notes : Option String := none
  type : Option ℤ := none
  cigarId : Option ℤ := none
  humidorId : Option ℤ := none
  deriving DecidableEq

end Cigars
