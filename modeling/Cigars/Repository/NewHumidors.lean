import Cigars.Repository.Adding

/-! A new humidor and the cigars put in it right after. The text of a humidor is rendered for the
log in the transaction of the base `add`: once for the humidor itself and once for every row of
stock, which has the humidor inside. -/
namespace Cigars
open Coroutine Sql

theorem letText_eq_ok_iff (text : Option String) (cut : String → Except Exn Unit) :
    letText text cut = .ok () ↔ ∀ s, text = some s → cut s = .ok () := by
  cases text with
  | none => simp [letText]
  | some s => simp [letText]

theorem substring_eq_ok_iff (s : String) (endIndex : ℕ) : substring s endIndex = .ok () ↔ endIndex ≤ utf16Length s := by
  unfold substring
  split_ifs with hle
  · simp [hle]
  · simp [hle]

namespace Humidor

/-- Every text the log cuts to ten characters has as many. -/
structure TextsReachTen (humidor : Humidor) : Prop where
  notes : ∀ s, humidor.notes = some s → 10 ≤ utf16Length s
  link : ∀ s, humidor.link = some s → 10 ≤ utf16Length s

theorem toString_eq_ok_iff (humidor : Humidor) : humidor.toString = .ok () ↔ humidor.TextsReachTen := by
  have hnotes := letText_eq_ok_iff humidor.notes fun notes => substring notes 10
  have hlink := letText_eq_ok_iff humidor.link fun link => substring link 10
  simp only [substring_eq_ok_iff] at hnotes hlink
  unfold toString
  constructor
  · intro h
    cases hcut : letText humidor.notes fun notes => substring notes 10 with
    | error e =>
      rw [hcut] at h
      cases h
    | ok u =>
      rw [hcut] at h
      exact ⟨hnotes.mp hcut, hlink.mp h⟩
  · intro h
    rw [hnotes.mpr h.notes]
    exact hlink.mpr h.link

end Humidor

namespace HumidorsRepository

/-- `add` emits the humidor under its rowid and leaves one row more in two tables, the one in the
history being an addition. Every new cigar can then be added to the humidor. -/
def AddedAndUsable (now : ℤ) (humidor : Humidor) (db : Database) : Prop :=
  ∃ rowid db' back, (add now humidor).Emits db { humidor with rowid } db' back ∧
    db'.humidorsTable.rows = db.humidorsTable.rows ++ [(rowid, humidor.columns)] ∧
    (∃ id entry, db'.historyTable.rows = db.historyTable.rows ++ [(id, entry)] ∧
      entry.type = HistoryType.addition.type) ∧
    ∀ now' (cigar : Cigar), cigar.rowid < 0 →
      ∃ db'', (CigarsRepository.add now' cigar { humidor with rowid }).Completes db' db''

/-- No stock row is waiting for the next humidor and the next cigar. Only a row that names a humidor
which was never added could be. -/
def NextFree (db : Database) : Prop :=
  db.cigarHumidorTable.find? (db.humidorsTable.nextRowid, db.cigarsTable.nextRowid) = none

variable {humidor : Humidor} {db : Database}

theorem toString_withRowid (humidor : Humidor) (rowid : ℤ) :
    ({ humidor with rowid } : Humidor).toString = humidor.toString := rfl

theorem addGoesThrough_added (now : ℤ) {cigar : Cigar} (htext : humidor.toString = .ok ()) (hfree : NextFree db)
    (hcigar : cigar.rowid < 0) :
    CigarsRepository.AddGoesThrough cigar { humidor with rowid := db.humidorsTable.nextRowid }
      (added now humidor db) where
  new := Or.inl hcigar
  free := hfree
  text := (toString_withRowid humidor _).trans htext
  target := (Table.contains_iff _ _).mpr
    ⟨humidor.columns, AutoTable.find?_insert_nextRowid db.humidorsTable humidor.columns⟩

/-- A new humidor can be added and used exactly if its notes and its link, where it has them, are at
least ten characters long. -/
theorem addedAndUsable_iff (now : ℤ) (db : Database) (hnew : humidor.rowid < 0) :
    AddedAndUsable now humidor db ↔ humidor.TextsReachTen ∧ NextFree db := by
  rw [← Humidor.toString_eq_ok_iff]
  constructor
  · rintro ⟨rowid, db', back, hemits, hrows, -, hcigars⟩
    obtain ⟨hgo, rfl⟩ := goesThrough_of_completes hemits.completes
    have hrowid : db.humidorsTable.nextRowid = rowid := by
      have hlast : db.humidorsTable.rows ++ [(db.humidorsTable.nextRowid, humidor.columns)] = _ := hrows
      simpa using hlast
    subst hrowid
    obtain ⟨db'', hcigar⟩ := hcigars now emptyCigar (by decide)
    have hthrough := CigarsRepository.goesThrough_of_completes now emptyCigar hcigar
    exact ⟨hgo.text, hthrough.free⟩
  · intro ⟨htext, hfree⟩
    have hgo : AddGoesThrough humidor db := ⟨Or.inl hnew, htext⟩
    have hemits := add_emits now hgo
    refine ⟨_, _, _, hemits, rfl, ⟨_, _, rfl, rfl⟩, ?_⟩
    intro now' cigar hcigar
    have hthrough := addGoesThrough_added now htext hfree hcigar
    exact ⟨_, (CigarsRepository.add_emits now' cigar hthrough).completes⟩

/-- A note and a link of ten characters each. -/
def tenCharacters : Humidor := { emptyHumidor with notes := some "Top shelf.", link := some "/humidor/1" }

theorem addedAndUsable_tenCharacters : AddedAndUsable 0 tenCharacters (Database.empty 0 0 0 0) := by
  have htexts : tenCharacters.TextsReachTen := by
    constructor
    · rintro s ⟨⟩
      decide
    · rintro s ⟨⟩
      decide
  exact (addedAndUsable_iff 0 (Database.empty 0 0 0 0) (by decide)).mpr ⟨htexts, rfl⟩

/-- A humidor with a note of five characters is refused. -/
theorem not_addedAndUsable_shortNote :
    ¬ AddedAndUsable 0 { emptyHumidor with notes := some "short" } (Database.empty 0 0 0 0) := by
  rintro ⟨rowid, db', back, hemits, -⟩
  have hgo := (goesThrough_of_completes hemits.completes).1
  exact absurd hgo.text (by decide)

end HumidorsRepository
end Cigars
