import Mathlib.Algebra.Group.Nat.Defs
import Mathlib.Data.List.Basic
import Mathlib.Data.Nat.Notation
import Mathlib.Tactic.Basic

/-! Pages numbered from 1 with keys of 32 bits. A server cuts a list into pages; a client loads a
page, goes on to the key it names and stops when it names none. -/
namespace Paging

structure Page (α : Type) where
  data : List α
  prevKey : Option Int32
  nextKey : Option Int32

/-- The number of items is reported in 32 bits. -/
structure Server (α : Type) where
  items : List α
  size : ℕ
  size_pos : 1 ≤ size
  length_lt : items.length < 2 ^ 31

variable {α β σ : Type}

namespace Server

/-- The items from `(p - 1) * size` to `p * size - 1`. -/
def page (server : Server α) (p : Int32) : List α :=
  if 1 ≤ p.toInt then (server.items.drop ((p.toInt - 1).toNat * server.size)).take server.size else []

def count (server : Server α) : Int32 := Int32.ofNat server.items.length

theorem length_page_le (server : Server α) (p : Int32) : (server.page p).length ≤ server.size := by
  unfold page
  split_ifs
  · exact List.length_take_le _ _
  · exact Nat.zero_le _

/-- After the last number there is the smallest, whose page is empty like all pages past the end. -/
theorem page_ofNat (server : Server α) {k : ℕ} (hk : k < 2 ^ 31) :
    server.page (Int32.ofNat (k + 1)) = (server.items.drop (k * server.size)).take server.size := by
  have hsize := server.size_pos
  have hlength := server.length_lt
  have hle : k ≤ k * server.size := Nat.le_mul_of_pos_right k hsize
  unfold page
  by_cases hlast : k + 1 < 2 ^ 31
  · have htoInt : (Int32.ofNat (k + 1)).toInt = k + 1 := Int32.toInt_ofNat_of_lt hlast
    have hindex : ((Int32.ofNat (k + 1)).toInt - 1).toNat = k := by omega
    rw [if_pos (by omega), hindex]
  · have hk' : k + 1 = 2 ^ 31 := by omega
    have hempty : server.items.drop (k * server.size) = [] := List.drop_eq_nil_of_le (by omega)
    rw [hempty, hk', if_neg (by decide), List.take_nil]

end Server

/-- Load the page of `key` and then the pages of the keys that follow; `none` if there is still a key
when the fuel runs out, or if a load returns no page. -/
def follow (load : Option Int32 → σ → Option (Page β × σ)) : ℕ → Option Int32 → σ → Option (List β × σ)
  | 0, _, _ => none
  | fuel + 1, key, s =>
    match load key s with
    | none => none
    | some (page, s') =>
      match page.nextKey with
      | none => some (page.data, s')
      | some next => (follow load fuel (some next) s').map fun rest => (page.data ++ rest.1, rest.2)

/-- Whatever its state, the load returns the page of its key and names the next one unless the page is
empty. -/
def LoadsFrom (server : Server α) (f : α → β) (load : Option Int32 → σ → Option (Page β × σ)) : Prop :=
  ∀ key s, ∃ page s', load key s = some (page, s') ∧ page.data = (server.page (key.getD 1)).map f ∧
    page.nextKey = if page.data = [] then none else some (key.getD 1 + 1)

variable {server : Server α} {f : α → β} {load : Option Int32 → σ → Option (Page β × σ)}

/-- A page past the end is the last one that is loaded. -/
theorem follow_past_end (hload : LoadsFrom server f load) (fuel : ℕ) {k : ℕ} (hk : k < 2 ^ 31)
    (hend : server.items.length ≤ k * server.size) (s : σ) :
    ∃ s', follow load (fuel + 1) (some (Int32.ofNat (k + 1))) s = some ([], s') := by
  obtain ⟨page, s', hpage, hdata, hnext⟩ := hload (some (Int32.ofNat (k + 1))) s
  have hempty : page.data = [] := by
    rw [hdata, Option.getD_some, server.page_ofNat hk, List.drop_eq_nil_of_le hend, List.take_nil, List.map_nil]
  rw [if_pos hempty] at hnext
  refine ⟨s', ?_⟩
  rw [follow, hpage]
  simp only [hnext, hempty]

/-- Any other page is followed by the next one. -/
theorem follow_before_end (hload : LoadsFrom server f load) (fuel : ℕ) {k : ℕ} (hk : k < 2 ^ 31)
    (hmore : k * server.size < server.items.length) (s : σ) :
    ∃ s', follow load (fuel + 1) (some (Int32.ofNat (k + 1))) s =
      (follow load fuel (some (Int32.ofNat (k + 2))) s').map fun rest =>
        (((server.items.drop (k * server.size)).take server.size).map f ++ rest.1, rest.2) := by
  obtain ⟨page, s', hpage, hdata, hnext⟩ := hload (some (Int32.ofNat (k + 1))) s
  rw [Option.getD_some, server.page_ofNat hk] at hdata
  have hsize := server.size_pos
  have hlength : page.data.length = min server.size (server.items.length - k * server.size) := by
    rw [hdata, List.length_map, List.length_take, List.length_drop]
  have hdata_ne : page.data ≠ [] := List.ne_nil_of_length_pos (by omega)
  have hkey : Int32.ofNat (k + 1) + 1 = Int32.ofNat (k + 2) := (Int32.ofNat_add (k + 1) 1).symm
  rw [if_neg hdata_ne, Option.getD_some, hkey] at hnext
  refine ⟨s', ?_⟩
  rw [follow, hpage]
  simp only [hnext, hdata]

/-- From the page of number `k + 1` on there are the items after the first `k` pages. -/
theorem follow_eq_drop (hload : LoadsFrom server f load) {fuel k : ℕ} (hk : k < 2 ^ 31)
    (hfuel : server.items.length ≤ fuel + k * server.size) (s : σ) :
    ∃ s', follow load (fuel + 1) (some (Int32.ofNat (k + 1))) s =
      some ((server.items.drop (k * server.size)).map f, s') := by
  have hsize := server.size_pos
  have hlength := server.length_lt
  have hle : k ≤ k * server.size := Nat.le_mul_of_pos_right k hsize
  have hsucc : (k + 1) * server.size = k * server.size + server.size := Nat.succ_mul k server.size
  by_cases hend : server.items.length ≤ k * server.size
  · rw [List.drop_eq_nil_of_le hend]
    exact follow_past_end hload fuel hk hend s
  · cases fuel with
    | zero => omega
    | succ fuel =>
      obtain ⟨s₁, hfirst⟩ := follow_before_end hload (fuel + 1) hk (by omega) s
      obtain ⟨s₂, hrest⟩ := follow_eq_drop hload (show k + 1 < 2 ^ 31 by omega) (by omega : _ ≤ fuel + _) s₁
      refine ⟨s₂, ?_⟩
      rw [hfirst, hrest, Option.map_some, ← List.map_append, hsucc, ← List.drop_drop, List.take_append_drop]

/-- From key 1 on every item is loaded, once and in order. -/
theorem follow_eq_items (hload : LoadsFrom server f load) {fuel : ℕ} (hfuel : server.items.length < fuel) (s : σ) :
    ∃ s', follow load fuel (some 1) s = some (server.items.map f, s') := by
  cases fuel with
  | zero => omega
  | succ fuel =>
    have hall := follow_eq_drop hload (show 0 < 2 ^ 31 by decide) (show _ ≤ fuel + 0 * server.size by omega) s
    rw [Nat.zero_mul, List.drop_zero] at hall
    exact hall

end Paging
