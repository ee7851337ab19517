/-
Base64: characters for digits of six bits, four of them for three bytes.
-/
import Mathlib.Data.List.GetD
import Mathlib.Logic.Function.Basic

namespace Base64

/-- The letters, the digits, `+` and `/`. -/
def alphabet : List Nat :=
  List.range' 0x41 26 ++ List.range' 0x61 26 ++ List.range' 0x30 10 ++
    [0x2B, 0x2F]

def pad : UInt8 := 0x3D

/-- The digit of a character is its place in the alphabet. -/
def digitOf (c : UInt8) : Option Nat :=
  alphabet.idxOf? c.toNat

/-- The digits in front of the first character that is none. -/
def leadingDigits : List UInt8 → List Nat
  | [] => []
  | c :: rest =>
      match digitOf c with
      | some digit => digit :: leadingDigits rest
      | none => []

/-- Digits up to the end or to the padding, in groups of four characters. -/
def Spelled (text : List UInt8) : Prop :=
  text.length % 4 = 0 ∧
    (text[(leadingDigits text).length]? = none ∨
      text[(leadingDigits text).length]? = some pad)

instance (text : List UInt8) : Decidable (Spelled text) :=
  inferInstanceAs (Decidable (_ ∧ (_ ∨ _)))

/-- A byte of the bits of some digits, with zero bits behind them. -/
def byteOf (digits : List Nat) (place : Nat) : Nat :=
  match place % 3 with
  | 0 =>
      digits.getD (place / 3 * 4) 0 * 4 +
        digits.getD (place / 3 * 4 + 1) 0 / 16
  | 1 =>
      digits.getD (place / 3 * 4 + 1) 0 % 16 * 16 +
        digits.getD (place / 3 * 4 + 2) 0 / 4
  | _ =>
      digits.getD (place / 3 * 4 + 2) 0 % 4 * 64 +
        digits.getD (place / 3 * 4 + 3) 0

/-- The first bytes of the bits of some digits. -/
def bytesOf (count : Nat) (digits : List Nat) : List UInt8 :=
  (List.range count).map fun place => UInt8.ofNat (byteOf digits place)

theorem digitOf_lt {c : UInt8} {digit : Nat} (hdigit : digitOf c = some digit) :
    digit < 64 := by
  obtain ⟨hlt, -⟩ := List.idxOf?_eq_some_iff.mp hdigit
  exact hlt

/-- The three bytes of a group of four digits. -/
theorem byteOf_first (digits : List Nat) (group : Nat) :
    byteOf digits (3 * group) = digits.getD (4 * group) 0 * 4 +
      digits.getD (4 * group + 1) 0 / 16 := by
  have hmod : 3 * group % 3 = 0 := by omega
  have hdiv : 3 * group / 3 * 4 = 4 * group := by omega
  simp only [byteOf, hmod, hdiv]

theorem byteOf_second (digits : List Nat) (group : Nat) :
    byteOf digits (3 * group + 1) = digits.getD (4 * group + 1) 0 % 16 * 16 +
      digits.getD (4 * group + 2) 0 / 4 := by
  have hmod : (3 * group + 1) % 3 = 1 := by omega
  have hdiv : (3 * group + 1) / 3 * 4 = 4 * group := by omega
  simp only [byteOf, hmod, hdiv]

theorem byteOf_third (digits : List Nat) (group : Nat) :
    byteOf digits (3 * group + 2) = digits.getD (4 * group + 2) 0 % 4 * 64 +
      digits.getD (4 * group + 3) 0 := by
  have hmod : (3 * group + 2) % 3 = 2 := by omega
  have hdiv : (3 * group + 2) / 3 * 4 = 4 * group := by omega
  simp only [byteOf, hmod, hdiv]

section Bytes

variable {digits : List Nat} {digit : Nat}

/-- One more digit stands behind the others. -/
theorem getD_snoc (digits : List Nat) (digit place : Nat) :
    (digits ++ [digit]).getD place 0 =
      if place = digits.length then digit else digits.getD place 0 := by
  rcases Nat.lt_trichotomy place digits.length with hlt | rfl | hgt
  · rw [List.getD_append _ _ _ _ hlt, if_neg (Nat.ne_of_lt hlt)]
  · simp
  · rw [List.getD_eq_default, List.getD_eq_default, if_neg (Nat.ne_of_gt hgt)]
    · exact Nat.le_of_lt hgt
    · rw [List.length_append]
      exact hgt

theorem getD_snoc_before {place : Nat} (hplace : place < digits.length) :
    (digits ++ [digit]).getD place 0 = digits.getD place 0 := by
  rw [getD_snoc, if_neg (Nat.ne_of_lt hplace)]

theorem getD_snoc_last {place : Nat} (hplace : place = digits.length) :
    (digits ++ [digit]).getD place 0 = digit := by
  rw [getD_snoc, if_pos hplace]

theorem getD_snoc_behind {place : Nat} (hplace : digits.length < place) :
    (digits ++ [digit]).getD place 0 = 0 := by
  rw [getD_snoc, if_neg (Nat.ne_of_gt hplace),
    List.getD_eq_default _ _ (Nat.le_of_lt hplace)]

theorem getD_lt (hdigits : ∀ digit ∈ digits, digit < 64) (place : Nat) :
    digits.getD place 0 < 64 := by
  rw [List.getD_eq_getElem?_getD]
  cases hplace : digits[place]? with
  | none => exact Nat.zero_lt_succ _
  | some digit => exact hdigits digit (List.mem_of_getElem? hplace)

/-- A digit has bits in one or two bytes; the others do not change with it. -/
theorem byteOf_snoc_of_outside {place : Nat}
    (houtside : place < 3 * (digits.length / 4) + (digits.length % 4 - 1) ∨
      3 * (digits.length / 4) + min (digits.length % 4) 2 < place) :
    byteOf (digits ++ [digit]) place = byteOf digits place := by
  have hmod : place % 3 = 0 ∨ place % 3 = 1 ∨ place % 3 = 2 := by omega
  unfold byteOf
  rcases hmod with hmod | hmod | hmod
  · simp only [hmod, getD_snoc]
    rw [if_neg (by omega), if_neg (by omega)]
  · simp only [hmod, getD_snoc]
    rw [if_neg (by omega), if_neg (by omega)]
  · simp only [hmod, getD_snoc]
    rw [if_neg (by omega), if_neg (by omega)]

/-- Two bytes of a block may be written anew. -/
theorem set_bytesOf {count place : Nat} {block : List UInt8} {last : List Nat}
    (hlength : block.length = count)
    (hblock : ∀ other, other ≠ place → block[other]? =
      if other < count then some (UInt8.ofNat (byteOf last other)) else none)
    (hplace : place < count) :
    block.set place (UInt8.ofNat (byteOf last place)) = bytesOf count last := by
  apply List.ext_getElem?
  intro other
  rw [bytesOf, List.getElem?_map, List.getElem?_set]
  by_cases hother : place = other
  · subst hother
    rw [if_pos rfl, if_pos (hlength ▸ hplace), List.getElem?_range hplace]
    rfl
  · rw [if_neg hother, hblock other fun heq => hother heq.symm]
    by_cases hlt : other < count
    · rw [if_pos hlt, List.getElem?_range hlt]
      rfl
    · rw [if_neg hlt, List.getElem?_eq_none]
      · rfl
      · rw [List.length_range]
        exact Nat.le_of_not_lt hlt

theorem length_bytesOf (count : Nat) (digits : List Nat) :
    (bytesOf count digits).length = count := by
  rw [bytesOf, List.length_map, List.length_range]

theorem getElem?_bytesOf (count : Nat) (digits : List Nat) (place : Nat) :
    (bytesOf count digits)[place]? =
      if place < count then some (UInt8.ofNat (byteOf digits place))
      else none := by
  rw [bytesOf, List.getElem?_map]
  by_cases hlt : place < count
  · rw [if_pos hlt, List.getElem?_range hlt]
    rfl
  · rw [if_neg hlt, List.getElem?_eq_none]
    · rfl
    · rw [List.length_range]
      exact Nat.le_of_not_lt hlt

end Bytes

end Base64
