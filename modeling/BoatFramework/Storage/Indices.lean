/-
The indices of records: the first free one of a small range, and a list around
the one entry of an index.
-/
import Mathlib.Data.List.Find
import Mathlib.Data.List.Perm.Subperm

namespace BoatFramework

/-- The first index that no entry has. -/
def firstFree (indices : List UInt8) : Option UInt8 :=
  [1, 2, 3, 4, 5].find? (· ∉ indices)

/-- The indices from 1 to `BOAT_MAX_KEYPAIR_NUM` or `BOAT_MAX_NETWORK_NUM`. -/
def persistentIndices : List UInt8 := [1, 2, 3, 4, 5]

variable {indices : List UInt8} {index : UInt8}

theorem firstFree_mem (hfree : firstFree indices = some index) :
    index ∈ persistentIndices ∧ index ∉ indices := by
  refine ⟨List.mem_of_find?_eq_some hfree, ?_⟩
  simpa using List.find?_some hfree

theorem firstFree_of_few (hfew : indices.length < 5) :
    ∃ index, firstFree indices = some index := by
  cases hfree : firstFree indices with
  | some index => exact ⟨index, rfl⟩
  | none =>
      have hall := List.find?_eq_none.mp hfree
      have hsubset : persistentIndices ⊆ indices := by
        intro index hindex
        simpa using hall index hindex
      have hnodup : persistentIndices.Nodup := by decide
      have hlength := (hnodup.subperm hsubset).length_le
      have hfive : persistentIndices.length = 5 := rfl
      omega

theorem mem_persistentIndices (hmem : index ∈ persistentIndices) :
    index ≠ 0 ∧ index.toNat ≤ 5 := by
  revert hmem
  simp only [persistentIndices, List.mem_cons, List.not_mem_nil, or_false]
  rintro (rfl | rfl | rfl | rfl | rfl) <;> decide

/-- A list around the first entry with a property. -/
theorem exists_first {α : Type} {p : α → Prop} {items : List α}
    (hhere : ∃ item ∈ items, p item) :
    ∃ front item back, items = front ++ item :: back ∧ p item ∧
      ∀ other ∈ front, ¬p other := by
  induction items with
  | nil =>
      obtain ⟨_, hmem, _⟩ := hhere
      cases hmem
  | cons head tail ih =>
      by_cases hhead : p head
      · exact ⟨[], head, tail, rfl, hhead, fun _ hother => by cases hother⟩
      · have htail : ∃ item ∈ tail, p item := by
          obtain ⟨item, hmem, hitem⟩ := hhere
          rcases List.mem_cons.mp hmem with rfl | hmem
          · exact absurd hitem hhead
          · exact ⟨item, hmem, hitem⟩
        obtain ⟨front, item, back, rfl, hitem, hbefore⟩ := ih htail
        refine ⟨head :: front, item, back, rfl, hitem, ?_⟩
        intro other hother
        rcases List.mem_cons.mp hother with rfl | hother
        · exact hhead
        · exact hbefore other hother

section Split

variable {α : Type} {key : α → UInt8} {index : UInt8} {l front back : List α}
  {a : α}

/-- A list around the one entry of an index. -/
structure Split (key : α → UInt8) (index : UInt8) (l front : List α) (a : α)
    (back : List α) : Prop where
  eq : l = front ++ a :: back
  here : key a = index
  before : ∀ b ∈ front, key b ≠ index
  behind : ∀ b ∈ back, key b ≠ index

theorem exists_split (hmem : index ∈ l.map key) (hnodup : (l.map key).Nodup) :
    ∃ front a back, Split key index l front a back := by
  obtain ⟨a, ha, hkey⟩ := List.mem_map.mp hmem
  obtain ⟨front, back, rfl⟩ := List.append_of_mem ha
  rw [List.map_append, List.map_cons, List.nodup_append] at hnodup
  obtain ⟨_, hback, hfront⟩ := hnodup
  refine ⟨front, a, back, rfl, hkey, fun b hb heq => ?_, fun b hb heq => ?_⟩
  · exact hfront (key b) (List.mem_map_of_mem hb) (key a)
      List.mem_cons_self (heq.trans hkey.symm)
  · refine (List.nodup_cons.mp hback).1 ?_
    rw [hkey, ← heq]
    exact List.mem_map_of_mem hb

variable (hsplit : Split key index l front a back)

include hsplit

theorem Split.findIdx :
    l.findIdx (fun b => decide (key b = index)) = front.length := by
  have hnone : front.findIdx (fun b => decide (key b = index)) =
      front.length := by
    rw [List.findIdx_eq_length]
    intro b hb
    exact decide_eq_false (hsplit.before b hb)
  have hfirst : (a :: back).findIdx (fun b => decide (key b = index)) = 0 := by
    rw [List.findIdx_cons, decide_eq_true hsplit.here]
    rfl
  rw [hsplit.eq, List.findIdx_append, hnone, if_neg (Nat.lt_irrefl _), hfirst,
    Nat.zero_add]

theorem Split.filter :
    l.filter (fun b => decide (key b ≠ index)) = front ++ back := by
  have hkeep {kept : List α} (hkept : ∀ b ∈ kept, key b ≠ index) :
      kept.filter (fun b => decide (key b ≠ index)) = kept :=
    List.filter_eq_self.mpr fun b hb => decide_eq_true (hkept b hb)
  rw [hsplit.eq, List.filter_append, List.filter_cons, hkeep hsplit.before,
    hkeep hsplit.behind, if_neg (by simp [hsplit.here])]

theorem Split.filter_self :
    l.filter (fun b => decide (key b = index)) = [a] := by
  have hdrop {kept : List α} (hkept : ∀ b ∈ kept, key b ≠ index) :
      kept.filter (fun b => decide (key b = index)) = [] :=
    List.filter_eq_nil_iff.mpr fun b hb => by simpa using hkept b hb
  rw [hsplit.eq, List.filter_append, List.filter_cons, hdrop hsplit.before,
    hdrop hsplit.behind, if_pos (decide_eq_true hsplit.here)]
  rfl

theorem Split.take_drop :
    l.take front.length = front ∧ l.drop (front.length + 1) = back := by
  rw [hsplit.eq]
  refine ⟨List.take_left, ?_⟩
  rw [← List.drop_drop, List.drop_left]
  rfl

end Split

end BoatFramework
