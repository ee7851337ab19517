/-
Lower-case hexadecimal text of a byte string, two digits a byte, and its
reader.
-/
import Mathlib.Data.List.Basic
import Mathlib.Data.UInt

namespace Hex

/-- The digit of a half byte. -/
def digit (half : Nat) : Char :=
  if half ≤ 9 then Char.ofNat (half + '0'.toNat)
  else Char.ofNat (half - 10 + 'a'.toNat)

/-- The half byte a digit stands for, in either case. -/
def value (c : Char) : Option Nat :=
  if '0'.toNat ≤ c.toNat ∧ c.toNat ≤ '9'.toNat then
    some (c.toNat - '0'.toNat)
  else if 'A'.toNat ≤ c.toNat ∧ c.toNat ≤ 'F'.toNat then
    some (c.toNat - 'A'.toNat + 10)
  else if 'a'.toNat ≤ c.toNat ∧ c.toNat ≤ 'f'.toNat then
    some (c.toNat - 'a'.toNat + 10)
  else none

def toHex : List UInt8 → List Char
  | [] => []
  | byte :: bytes =>
      digit (byte.toNat / 16) :: digit (byte.toNat % 16) :: toHex bytes

/-- Read pairs of digits; anything else is refused. -/
def ofHex : List Char → Option (List UInt8)
  | [] => some []
  | [_] => none
  | high :: low :: rest =>
      match value high, value low, ofHex rest with
      | some highHalf, some lowHalf, some bytes =>
          some (UInt8.ofNat (16 * highHalf + lowHalf) :: bytes)
      | _, _, _ => none

theorem value_digit (half : Nat) (hhalf : half < 16) :
    value (digit half) = some half := by
  have hall : ∀ h : Fin 16, value (digit h.val) = some h.val := by decide
  exact hall ⟨half, hhalf⟩

theorem value_lt {c : Char} {half : Nat} (hvalue : value c = some half) :
    half < 16 := by
  have hnine : '9'.toNat = '0'.toNat + 9 := rfl
  have hupper : 'F'.toNat = 'A'.toNat + 5 := rfl
  have hlower : 'f'.toNat = 'a'.toNat + 5 := rfl
  unfold value at hvalue
  split at hvalue
  · cases hvalue
    omega
  · split at hvalue
    · cases hvalue
      omega
    · split at hvalue
      · cases hvalue
        omega
      · cases hvalue

theorem length_toHex (bytes : List UInt8) :
    (toHex bytes).length = 2 * bytes.length := by
  induction bytes with
  | nil => rfl
  | cons byte bytes ih =>
      simp only [toHex, List.length_cons, ih]
      omega

theorem toHex_append (front back : List UInt8) :
    toHex (front ++ back) = toHex front ++ toHex back := by
  induction front with
  | nil => rfl
  | cons byte front ih =>
      rw [List.cons_append, toHex, toHex, ih]
      rfl

theorem ofHex_toHex (bytes : List UInt8) : ofHex (toHex bytes) = some bytes := by
  induction bytes with
  | nil => rfl
  | cons byte bytes ih =>
      have hbyte : byte.toNat < 256 := byte.toNat_lt
      have hhigh := value_digit (byte.toNat / 16) (by omega)
      have hlow := value_digit (byte.toNat % 16) (by omega)
      have hwhole : 16 * (byte.toNat / 16) + byte.toNat % 16 = byte.toNat :=
        Nat.div_add_mod _ _
      simp [toHex, ofHex, hhigh, hlow, ih, hwhole]

theorem toHex_injective : Function.Injective toHex := by
  intro left right heq
  have hread := ofHex_toHex left
  rw [heq, ofHex_toHex] at hread
  exact (Option.some.inj hread).symm

/-- The three parts of a text with a pair of digits in front. -/
theorem ofHex_cons_eq_some {high low : Char} {rest : List Char}
    {bytes : List UInt8} (hread : ofHex (high :: low :: rest) = some bytes) :
    ∃ highHalf lowHalf tail, value high = some highHalf ∧
      value low = some lowHalf ∧ ofHex rest = some tail ∧
      bytes = UInt8.ofNat (16 * highHalf + lowHalf) :: tail := by
  rw [ofHex] at hread
  split at hread
  next highHalf lowHalf tail hhigh hlow hrest =>
    exact ⟨highHalf, lowHalf, tail, hhigh, hlow, hrest,
      (Option.some.inj hread).symm⟩
  next => cases hread

theorem length_of_ofHex {text : List Char} {bytes : List UInt8}
    (hread : ofHex text = some bytes) : text.length = 2 * bytes.length := by
  induction text using ofHex.induct generalizing bytes with
  | case1 =>
      cases hread
      rfl
  | case2 => cases hread
  | case3 high low rest _ _ _ _ _ _ ih =>
      obtain ⟨_, _, tail, _, _, hrest, rfl⟩ := ofHex_cons_eq_some hread
      simp only [List.length_cons, ih hrest]
      omega
  | case4 high low rest hnone =>
      obtain ⟨_, _, tail, hhigh, hlow, hrest, _⟩ := ofHex_cons_eq_some hread
      exact absurd hrest (hnone _ _ _ hhigh hlow)

/-- The bytes of the whole pairs in front of the first character that is no
digit. -/
def readPairs : List Char → List UInt8
  | high :: low :: rest =>
      match value high, value low with
      | some highHalf, some lowHalf =>
          UInt8.ofNat (16 * highHalf + lowHalf) :: readPairs rest
      | _, _ => []
  | _ => []

theorem readPairs_of_ofHex {text : List Char} {bytes : List UInt8}
    (hread : ofHex text = some bytes) : readPairs text = bytes := by
  induction bytes generalizing text with
  | nil =>
      have hlength := length_of_ofHex hread
      rw [List.length_nil, Nat.mul_zero, List.length_eq_zero_iff] at hlength
      rw [hlength]
      rfl
  | cons byte bytes ih =>
      match text, hread with
      | high :: low :: rest, hread =>
          obtain ⟨highHalf, lowHalf, tail, hhigh, hlow, hrest, hcons⟩ :=
            ofHex_cons_eq_some hread
          obtain ⟨rfl, rfl⟩ := List.cons.inj hcons
          simp only [readPairs, hhigh, hlow, ih hrest]

theorem digits_of_ofHex {text : List Char} {bytes : List UInt8}
    (hread : ofHex text = some bytes) : ∀ c ∈ text, (value c).isSome := by
  induction bytes generalizing text with
  | nil =>
      have hlength := length_of_ofHex hread
      rw [List.length_nil, Nat.mul_zero, List.length_eq_zero_iff] at hlength
      simp [hlength]
  | cons byte bytes ih =>
      match text, hread with
      | high :: low :: rest, hread =>
          obtain ⟨highHalf, lowHalf, tail, hhigh, hlow, hrest, hcons⟩ :=
            ofHex_cons_eq_some hread
          obtain ⟨-, rfl⟩ := List.cons.inj hcons
          simpa [hhigh, hlow] using ih hrest

/-- Pairs of digits and nothing else are read to their end. -/
theorem ofHex_of_digits {text : List Char}
    (hdigits : ∀ c ∈ text, (value c).isSome) (heven : text.length % 2 = 0) :
    ofHex text = some (readPairs text) := by
  induction text using readPairs.induct with
  | case1 high low rest highHalf lowHalf hlow hhigh ih =>
      have hrest : ofHex rest = some (readPairs rest) := by
        apply ih
        · intro c hc
          exact hdigits c (List.mem_cons_of_mem _ (List.mem_cons_of_mem _ hc))
        · simp only [List.length_cons] at heven
          omega
      simp only [ofHex, readPairs, hhigh, hlow, hrest]
  | case2 high low rest hnone =>
      have hhigh := hdigits high List.mem_cons_self
      have hlow := hdigits low (List.mem_cons_of_mem _ List.mem_cons_self)
      obtain ⟨highHalf, hhigh⟩ := Option.isSome_iff_exists.mp hhigh
      obtain ⟨lowHalf, hlow⟩ := Option.isSome_iff_exists.mp hlow
      exact absurd hlow (hnone _ _ hhigh)
  | case3 text hshort =>
      match text with
      | [] => rfl
      | [c] => cases heven
      | high :: low :: rest => exact absurd rfl (hshort high low rest)

/-- Text that is not all digits is cut behind its whole pairs: the character
that is no digit follows at once or behind one digit. -/
theorem exists_front_of_not_digits {text : List Char}
    (hbad : ¬∀ c ∈ text, (value c).isSome) (heven : text.length % 2 = 0) :
    ∃ front tail, text = front ++ tail ∧ ofHex front = some (readPairs text) ∧
      ((∃ c rest, tail = c :: rest ∧ value c = none) ∨
        ∃ high half c rest, tail = high :: c :: rest ∧
          value high = some half ∧ value c = none) := by
  induction text using readPairs.induct with
  | case1 high low rest highHalf lowHalf hlow hhigh ih =>
      have hrest : ¬∀ c ∈ rest, (value c).isSome := by
        intro hrest
        apply hbad
        intro c hc
        rcases List.mem_cons.mp hc with rfl | hc
        · rw [hhigh]
          rfl
        · rcases List.mem_cons.mp hc with rfl | hc
          · rw [hlow]
            rfl
          · exact hrest c hc
      simp only [List.length_cons] at heven
      obtain ⟨front, tail, hsplit, hfront, htail⟩ := ih hrest (by omega)
      refine ⟨high :: low :: front, tail, ?_, ?_, htail⟩
      · rw [hsplit]
        rfl
      · simp only [ofHex, readPairs, hhigh, hlow, hfront]
  | case2 high low rest hnone =>
      have hpairs : readPairs (high :: low :: rest) = [] := by
        rw [readPairs]
        split
        next hhigh hlow => exact absurd hlow (hnone _ _ hhigh)
        next => rfl
      rw [hpairs]
      refine ⟨[], high :: low :: rest, rfl, rfl, ?_⟩
      cases hhigh : value high with
      | none => exact .inl ⟨high, low :: rest, rfl, hhigh⟩
      | some half =>
          cases hlow : value low with
          | none => exact .inr ⟨high, half, low, rest, rfl, hhigh, hlow⟩
          | some lowHalf => exact absurd hlow (hnone _ _ hhigh)
  | case3 text hshort =>
      match text with
      | [] => exact absurd (fun c hc => nomatch hc) hbad
      | [c] => cases heven
      | high :: low :: rest => exact absurd rfl (hshort high low rest)

theorem length_readPairs_lt {text : List Char}
    (hbad : ¬∀ c ∈ text, (value c).isSome) (heven : text.length % 2 = 0) :
    (readPairs text).length < text.length / 2 := by
  obtain ⟨front, tail, hsplit, hfront, htail⟩ :=
    exists_front_of_not_digits hbad heven
  have hlength := congrArg List.length hsplit
  rw [List.length_append, length_of_ofHex hfront] at hlength
  have hpos : 0 < tail.length := by
    rcases htail with ⟨c, rest, rfl, _⟩ | ⟨high, half, c, rest, rfl, _⟩
    · exact Nat.succ_pos _
    · exact Nat.succ_pos _
  omega

end Hex
