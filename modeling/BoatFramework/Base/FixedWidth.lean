/-
Numbers in a fixed number of bytes.  A negative number stands as its two's
complement; a wider word has the sign of the narrower one in its added bytes.
-/
import Mathlib.Algebra.Order.Ring.Int
import Mathlib.Algebra.Order.Ring.Nat
import Mathlib.Tactic.Ring

namespace FixedWidth

/-- The low bytes of a number, the lowest in front. -/
def low : Nat → Nat → List UInt8
  | 0, _ => []
  | size + 1, n => UInt8.ofNat n :: low size (n / 256)

/-- The same bytes, the highest in front. -/
def high (size n : Nat) : List UInt8 :=
  (low size n).reverse

/-- The natural number whose bytes stand for an integer. -/
def twos (size : Nat) (value : Int) : Nat :=
  (value % (256 ^ size : Nat)).toNat

/-- The integers that a signed or an unsigned type of a size holds. -/
def InRange (signed : Bool) (size : Nat) (value : Int) : Prop :=
  if signed then
    -(256 ^ size / 2 : Nat) ≤ value ∧ value < (256 ^ size / 2 : Nat)
  else 0 ≤ value ∧ value < (256 ^ size : Nat)

instance (signed : Bool) (size : Nat) (value : Int) :
    Decidable (InRange signed size value) :=
  inferInstanceAs (Decidable (if signed then _ ∧ _ else _ ∧ _))

/-- The natural number of bytes, the lowest in front. -/
def ofLow : List UInt8 → Nat
  | [] => 0
  | byte :: bytes => byte.toNat + 256 * ofLow bytes

/-- The integer of bytes that are a two's complement. -/
def signedOf (bytes : List UInt8) : Int :=
  if 2 * ofLow bytes < 256 ^ bytes.length then ofLow bytes
  else ofLow bytes - (256 ^ bytes.length : Nat)

/-- The byte that a sign adds. -/
def signByte (value : Int) : UInt8 :=
  if value < 0 then 255 else 0

@[simp] theorem length_low (size n : Nat) : (low size n).length = size := by
  induction size generalizing n with
  | zero => rfl
  | succ size ih => rw [low, List.length_cons, ih]

@[simp] theorem length_high (size n : Nat) : (high size n).length = size := by
  rw [high, List.length_reverse, length_low]

theorem low_add (size more n : Nat) :
    low (size + more) n = low size n ++ low more (n / 256 ^ size) := by
  induction size generalizing n with
  | zero => simp [low]
  | succ size ih =>
      rw [Nat.succ_add, low, low, ih, Nat.div_div_eq_div_mul, Nat.pow_succ',
        List.cons_append]

theorem low_zero (size : Nat) : low size 0 = List.replicate size 0 := by
  induction size with
  | zero => rfl
  | succ size ih =>
      rw [low, Nat.zero_div, ih, List.replicate_succ]
      rfl

/-- Only the rest by the width counts. -/
theorem low_mod (size n : Nat) : low size (n % 256 ^ size) = low size n := by
  induction size generalizing n with
  | zero => rfl
  | succ size ih =>
      rw [low, low, Nat.pow_succ', Nat.mod_mul_right_div_self, ih]
      congr 1
      apply UInt8.toNat_inj.mp
      rw [UInt8.toNat_ofNat', UInt8.toNat_ofNat', Nat.pow_succ']
      exact Nat.mod_mul_right_mod n 256 (256 ^ size)

/-- The number below the width with all bits set. -/
theorem low_ones (size : Nat) :
    low size (256 ^ size - 1) = List.replicate size 255 := by
  induction size with
  | zero => rfl
  | succ size ih =>
      have hpos : 0 < 256 ^ size := Nat.pow_pos (by decide)
      have hdiv : (256 ^ (size + 1) - 1) / 256 = 256 ^ size - 1 := by
        rw [Nat.pow_succ']
        omega
      rw [low, hdiv, ih, List.replicate_succ]
      congr 1
      apply UInt8.toNat_inj.mp
      rw [UInt8.toNat_ofNat', Nat.pow_succ']
      change (256 * 256 ^ size - 1) % 256 = 255
      omega

/-- A number that is not negative and fits is its own bytes. -/
theorem twos_of_nonneg {size : Nat} {value : Int} (hvalue : 0 ≤ value)
    (hlt : value < (256 ^ size : Nat)) : twos size value = value.toNat := by
  rw [twos, Int.emod_eq_of_lt hvalue hlt]

/-- A negative number that fits, from the end of the range. -/
theorem twos_of_neg {size : Nat} {value : Int} (hvalue : value < 0)
    (hle : -(256 ^ size : Nat) ≤ value) :
    twos size value = 256 ^ size - value.natAbs := by
  rw [twos, ← Int.add_emod_right, Int.emod_eq_of_lt (by omega) (by omega)]
  omega

section Extend

variable {size more : Nat} {value : Int}

/-- A wider word has the sign in its added bytes. -/
theorem low_extend (hlow : -(256 ^ size : Nat) ≤ value)
    (hhigh : value < (256 ^ size : Nat)) :
    low (size + more) (twos (size + more) value) =
      low size (twos size value) ++ List.replicate more (signByte value) := by
  have hsize : 0 < 256 ^ size := Nat.pow_pos (by decide)
  have hmore : 0 < 256 ^ more := Nat.pow_pos (by decide)
  have hpow : 256 ^ (size + more) = 256 ^ size * 256 ^ more := Nat.pow_add ..
  have hle : 256 ^ size ≤ 256 ^ (size + more) :=
    hpow ▸ Nat.le_mul_of_pos_right _ hmore
  rw [low_add]
  by_cases hvalue : value < 0
  · have hwide : twos (size + more) value =
        (256 ^ size - value.natAbs) + 256 ^ size * (256 ^ more - 1) := by
      rw [twos_of_neg hvalue (by omega), hpow, Nat.mul_sub_one]
      omega
    rw [signByte, if_pos hvalue, twos_of_neg hvalue hlow, ← low_mod, hwide,
      Nat.add_mul_mod_self_left, low_mod, Nat.add_mul_div_left _ _ hsize,
      Nat.div_eq_of_lt (by omega), Nat.zero_add, low_ones]
  · rw [signByte, if_neg hvalue, twos_of_nonneg (by omega) (by omega),
      twos_of_nonneg (by omega) hhigh, Nat.div_eq_of_lt (by omega), low_zero]

theorem high_extend (hlow : -(256 ^ size : Nat) ≤ value)
    (hhigh : value < (256 ^ size : Nat)) :
    high (size + more) (twos (size + more) value) =
      List.replicate more (signByte value) ++
        high size (twos size value) := by
  rw [high, low_extend hlow hhigh, List.reverse_append, List.reverse_replicate]
  rfl

/-- A number that its type holds lies within the width. -/
theorem InRange.bounds {signed : Bool} (hrange : InRange signed size value) :
    -(256 ^ size : Nat) ≤ value ∧ value < (256 ^ size : Nat) := by
  cases signed with
  | true =>
      obtain ⟨hlow, hhigh⟩ := hrange
      omega
  | false =>
      obtain ⟨hlow, hhigh⟩ := hrange
      exact ⟨by omega, hhigh⟩

end Extend

section Bytes

variable (bytes : List UInt8) (more : Nat)

theorem ofLow_lt : ofLow bytes < 256 ^ bytes.length := by
  induction bytes with
  | nil => decide
  | cons byte bytes ih =>
      have hbyte := byte.toNat_lt
      rw [ofLow, List.length_cons, Nat.pow_succ']
      omega

/-- Bytes are the low bytes of their number. -/
theorem low_ofLow : low bytes.length (ofLow bytes) = bytes := by
  induction bytes with
  | nil => rfl
  | cons byte bytes ih =>
      have hbyte := byte.toNat_lt
      have hdiv : ofLow (byte :: bytes) / 256 = ofLow bytes := by
        rw [ofLow]
        omega
      have hlow : UInt8.ofNat (ofLow (byte :: bytes)) = byte := by
        apply UInt8.toNat_inj.mp
        rw [UInt8.toNat_ofNat', ofLow]
        omega
      rw [List.length_cons, low, hdiv, hlow, ih]

theorem signedOf_bounds : -(256 ^ bytes.length : Nat) ≤ signedOf bytes ∧
    signedOf bytes < (256 ^ bytes.length : Nat) := by
  have hlt := ofLow_lt bytes
  unfold signedOf
  split <;> omega

theorem twos_ofLow : twos bytes.length (ofLow bytes) = ofLow bytes := by
  rw [twos_of_nonneg (Int.natCast_nonneg _) (by exact_mod_cast ofLow_lt bytes),
    Int.toNat_natCast]

theorem twos_signedOf : twos bytes.length (signedOf bytes) = ofLow bytes := by
  have hlt := ofLow_lt bytes
  unfold signedOf
  split
  · exact twos_ofLow bytes
  · rw [twos_of_neg (by omega) (by omega)]
    omega

/-- Bytes of an unsigned number in a wider word, the highest in front. -/
theorem high_ofLow :
    high (bytes.length + more) (twos (bytes.length + more) (ofLow bytes)) =
      List.replicate more 0 ++ bytes.reverse := by
  have hlt := ofLow_lt bytes
  rw [high_extend (by omega) (by omega), twos_ofLow, high, low_ofLow, signByte,
    if_neg (by omega)]

/-- Bytes of a signed number in a wider word. -/
theorem high_signedOf :
    high (bytes.length + more) (twos (bytes.length + more) (signedOf bytes)) =
      List.replicate more (signByte (signedOf bytes)) ++ bytes.reverse := by
  obtain ⟨hlow, hhigh⟩ := signedOf_bounds bytes
  rw [high_extend hlow hhigh, twos_signedOf, high, low_ofLow]

end Bytes

end FixedWidth
