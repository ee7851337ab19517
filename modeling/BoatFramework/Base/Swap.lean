/-
Two entries of a list exchanged, and what exchanging the ends of a list makes of
it, pair by pair from the outside to the middle.
-/
import Mathlib.Data.List.Basic

namespace Swap

variable {α : Type}

/-- The list with two of its entries exchanged. -/
def exchange (list : List α) (i j : Nat) : Option (List α) :=
  match list[i]?, list[j]? with
  | some a, some b => some ((list.set i b).set j a)
  | _, _ => none

theorem exchange_pair (front middle back : List α) (a b : α) :
    exchange (front ++ a :: (middle ++ b :: back)) front.length
        (front.length + (middle.length + 1)) =
      some (front ++ b :: (middle ++ a :: back)) := by
  have hfirst : (front ++ a :: (middle ++ b :: back))[front.length]? =
      some a := by
    simp
  have hsecond : (front ++ a :: (middle ++ b :: back))[front.length +
      (middle.length + 1)]? = some b := by
    simp
  simp only [exchange, hfirst, hsecond]
  simp

theorem exchange_self (front back : List α) (a : α) :
    exchange (front ++ a :: back) front.length front.length =
      some (front ++ a :: back) := by
  have hfirst : (front ++ a :: back)[front.length]? = some a := by
    simp
  simp only [exchange, hfirst]
  simp

/-- The list whose ends have changed places. -/
def turned (front middle back : List α) : List α :=
  back.reverse ++ (middle ++ front.reverse)

theorem length_turned (front middle back : List α) :
    (turned front middle back).length =
      front.length + (middle.length + back.length) := by
  simp only [turned, List.length_append, List.length_reverse]
  omega

/-- One more pair. -/
theorem exchange_turned {front back : List α} (before after : List α)
    (a b : α) (middle : List α) (hsame : front.length = back.length) :
    exchange (before ++ (turned front (a :: (middle ++ [b])) back ++ after))
        (before.length + front.length)
        (before.length + front.length + (middle.length + 1)) =
      some (before ++ (turned (front ++ [a]) middle (b :: back) ++ after)) := by
  have hpair := exchange_pair (before ++ back.reverse) middle
    (front.reverse ++ after) a b
  rw [List.length_append, List.length_reverse, ← hsame] at hpair
  have hbefore : before ++ (turned front (a :: (middle ++ [b])) back ++ after) =
      before ++ back.reverse ++
        a :: (middle ++ b :: (front.reverse ++ after)) := by
    simp [turned]
  have hafter : before ++ (turned (front ++ [a]) middle (b :: back) ++ after) =
      before ++ back.reverse ++
        b :: (middle ++ a :: (front.reverse ++ after)) := by
    simp [turned]
  rw [hbefore, hafter]
  exact hpair

/-- A middle of one entry stays. -/
theorem exchange_middle {front back : List α} (before after : List α) (a : α)
    (hsame : front.length = back.length) :
    exchange (before ++ (turned front [a] back ++ after))
        (before.length + front.length) (before.length + front.length) =
      some (before ++ (turned front [a] back ++ after)) := by
  have hself := exchange_self (before ++ back.reverse)
    (front.reverse ++ after) a
  rw [List.length_append, List.length_reverse, ← hsame] at hself
  have hsplit : before ++ (turned front [a] back ++ after) =
      before ++ back.reverse ++ a :: (front.reverse ++ after) := by
    simp [turned]
  rw [hsplit]
  exact hself

/-- All pairs have changed places. -/
theorem turned_of_short {front middle back : List α}
    (hshort : middle.length ≤ 1) :
    turned front middle back = (front ++ (middle ++ back)).reverse := by
  have hmiddle : middle.reverse = middle := by
    match middle, hshort with
    | [], _ => rfl
    | [_], _ => rfl
  rw [List.reverse_append, List.reverse_append, hmiddle, turned,
    List.append_assoc]

/-- Changing places twice is no change. -/
theorem turned_reverse (front middle back : List α) :
    turned back.reverse middle front.reverse =
      front ++ (middle ++ back) := by
  simp [turned]

/-- A list of two entries or more has ends. -/
theorem exists_ends {list : List α} (hlong : 2 ≤ list.length) :
    ∃ a middle b, list = a :: (middle ++ [b]) := by
  match list, hlong with
  | a :: rest, hlong =>
      have hrest : rest ≠ [] := by
        rintro rfl
        exact absurd hlong (by simp)
      exact ⟨a, rest.dropLast, rest.getLast hrest,
        by rw [List.dropLast_append_getLast hrest]⟩

/-- The entries from `first` on, each exchanged with its mirror: with as many
rounds as there are pairs, or one more at a middle entry, the segment is
reversed. -/
theorem foldlM_exchange_turned {before after : List α} {ends count : Nat}
    {front middle back : List α} (hsame : front.length = back.length)
    (hends : ends + 1 = 2 * before.length +
      (front.length + (middle.length + back.length)))
    (hcount : count = middle.length / 2 ∨ count = (middle.length + 1) / 2) :
    (List.range' (before.length + front.length) count).foldlM
        (fun list j => exchange list j (ends - j))
        (before ++ (turned front middle back ++ after)) =
      some (before ++ ((front ++ (middle ++ back)).reverse ++ after)) := by
  induction count generalizing front middle back with
  | zero =>
      have hshort : middle.length ≤ 1 := by
        omega
      rw [List.range'_zero, List.foldlM_nil, turned_of_short hshort]
      rfl
  | succ count ih =>
      rw [List.range'_succ, List.foldlM_cons]
      by_cases hlong : 2 ≤ middle.length
      · obtain ⟨a, middle, b, rfl⟩ := exists_ends hlong
        have hinner : (a :: (middle ++ [b])).length = middle.length + 2 := by
          simp
        rw [hinner] at hends hcount
        have hmirror : ends - (before.length + front.length) =
            before.length + front.length + (middle.length + 1) := by
          omega
        have hfront : (front ++ [a]).length = front.length + 1 := by
          simp
        have hback : (b :: back).length = back.length + 1 := rfl
        have hrest := @ih (front ++ [a]) middle (b :: back) (by omega)
          (by omega) (by omega)
        have hparts : front ++ [a] ++ (middle ++ b :: back) =
            front ++ (a :: (middle ++ [b]) ++ back) := by
          simp
        rw [hparts, hfront, ← Nat.add_assoc] at hrest
        rw [hmirror, exchange_turned before after a b middle hsame]
        exact hrest
      · obtain ⟨a, rfl⟩ : ∃ a, middle = [a] :=
          List.length_eq_one_iff.mp (by omega)
        obtain rfl : count = 0 := by
          simp only [List.length_singleton] at hcount
          omega
        have hmirror : ends - (before.length + front.length) =
            before.length + front.length := by
          simp only [List.length_singleton] at hends
          omega
        have hshort : ([a] : List α).length ≤ 1 := Nat.le_refl 1
        rw [hmirror, exchange_middle before after a hsame, List.range'_zero,
          turned_of_short hshort]
        rfl

/-- A segment is reversed. -/
theorem foldlM_exchange_segment {before segment after : List α}
    {ends count : Nat} (hends : ends + 1 = 2 * before.length + segment.length)
    (hcount : count = segment.length / 2 ∨ count = (segment.length + 1) / 2) :
    (List.range' before.length count).foldlM
        (fun list j => exchange list j (ends - j))
        (before ++ (segment ++ after)) =
      some (before ++ (segment.reverse ++ after)) := by
  have hturned := @foldlM_exchange_turned α before after ends count [] segment
    [] rfl (by simpa using hends) hcount
  simpa [turned] using hturned

end Swap
