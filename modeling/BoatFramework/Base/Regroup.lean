/-
Regrouping of bits.  A list of digits of `w` bits is a number, first digit
highest; regrouping it into digits of another width keeps the number and fills
the last digit up with zero bits.
-/
import Mathlib.Data.Nat.Digits.Defs

namespace Regroup

/-- The number that digits of `w` bits stand for. -/
def value (w : Nat) (digits : List Nat) : Nat :=
  Nat.ofDigits (2 ^ w) digits.reverse

def Digits (w : Nat) (digits : List Nat) : Prop :=
  ∀ digit ∈ digits, digit < 2 ^ w

variable {w fromBits toBits : Nat} {digits source target back : List Nat}

theorem value_nil (w : Nat) : value w [] = 0 :=
  rfl

theorem value_append (w : Nat) (high low : List Nat) :
    value w (high ++ low) =
      value w high * 2 ^ (w * low.length) + value w low := by
  rw [value, List.reverse_append, Nat.ofDigits_append, List.length_reverse,
    Nat.add_comm, Nat.mul_comm, Nat.pow_mul]
  rfl

theorem value_cons (w digit : Nat) (digits : List Nat) :
    value w (digit :: digits) =
      digit * 2 ^ (w * digits.length) + value w digits := by
  have hsingle : value w [digit] = digit := Nat.ofDigits_singleton
  rw [← List.singleton_append, value_append, hsingle]

theorem digits_cons {digit : Nat} :
    Digits w (digit :: digits) ↔ digit < 2 ^ w ∧ Digits w digits := by
  simp [Digits]

theorem digits_append {high low : List Nat} :
    Digits w (high ++ low) ↔ Digits w high ∧ Digits w low :=
  List.forall_mem_append

theorem Digits.reverse (hdigits : Digits w digits) : Digits w digits.reverse :=
  fun digit hmem => hdigits digit (List.mem_reverse.mp hmem)

theorem value_lt (hw : 0 < w) (hdigits : Digits w digits) :
    value w digits < 2 ^ (w * digits.length) := by
  have hbase : 1 < 2 ^ w := Nat.one_lt_two_pow hw.ne'
  have hlt := Nat.ofDigits_lt_base_pow_length hbase hdigits.reverse
  rwa [List.length_reverse, ← Nat.pow_mul] at hlt

/-- A number has one spelling of a given length. -/
theorem value_inj (hw : 0 < w) {left right : List Nat} (hleft : Digits w left)
    (hright : Digits w right) (hlength : left.length = right.length)
    (hvalue : value w left = value w right) : left = right := by
  have hbase : 1 < 2 ^ w := Nat.one_lt_two_pow hw.ne'
  have hreverse := Nat.ofDigits_inj_of_len_eq hbase
    (by rw [List.length_reverse, List.length_reverse, hlength])
    hleft.reverse hright.reverse hvalue
  exact List.reverse_inj.mp hreverse

/-- `target` holds the bits of `source` in as few digits as they need, with
zero bits behind them. -/
structure Regroups (fromBits toBits : Nat) (source target : List Nat) :
    Prop where
  digits : Digits toBits target
  covers : fromBits * source.length ≤ toBits * target.length
  least : toBits * target.length < fromBits * source.length + toBits
  value_eq : value toBits target = value fromBits source *
    2 ^ (toBits * target.length - fromBits * source.length)

/-- Regrouping back gives the digits again when no bit had to be filled in. -/
theorem Regroups.roundTrip (hfrom : 0 < fromBits)
    (hsource : Digits fromBits source)
    (hthere : Regroups fromBits toBits source target)
    (hback : Regroups toBits fromBits target back)
    (hexact : toBits * target.length = fromBits * source.length) :
    back = source := by
  have hcovers := hback.covers
  have hleast := hback.least
  have hlength : back.length = source.length := by
    rw [hexact] at hcovers hleast
    have hle := Nat.le_of_mul_le_mul_left hcovers hfrom
    have hlt : fromBits * back.length < fromBits * (source.length + 1) := by
      rw [Nat.mul_add, Nat.mul_one]
      exact hleast
    have := Nat.lt_of_mul_lt_mul_left hlt
    omega
  apply value_inj hfrom hback.digits hsource hlength
  rw [hback.value_eq, hthere.value_eq, hlength, hexact, Nat.sub_self,
    Nat.pow_zero, Nat.mul_one, Nat.mul_one]

end Regroup
