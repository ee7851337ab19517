/-
Numbers in limbs of a fixed width, lowest first, and what moving bits from
limbs of one width to limbs of another does to their value.
-/
import Mathlib.Data.Nat.Digits.Lemmas
import Mathlib.Tactic.Ring

namespace Limbs

variable {temp limb p q c : Nat}

/-- The low bits and bits shifted above them, put into one word. -/
theorem or_above {width low : Nat} (hlow : low < 2 ^ width) (high : Nat) :
    low ||| 2 ^ width * high = low + 2 ^ width * high := by
  rw [Nat.or_comm, ← Nat.two_pow_add_eq_or_of_lt hlow, Nat.add_comm]

/-- The sum of a rest below `p` and a limb shifted by `p`, cut at `p * q`: what
is above the cut is the limb without its low part. -/
theorem cut_add (htemp : temp < p) (hq : 0 < q) :
    (temp + p * (limb % (q * c))) % (p * q) + p * q * (limb / q) =
      temp + p * limb := by
  have hlow : temp + p * (limb % q) < p * q := by
    have hlimb : limb % q + 1 ≤ q := Nat.mod_lt limb hq
    have hmul := Nat.mul_le_mul_left p hlimb
    rw [Nat.mul_add, Nat.mul_one] at hmul
    omega
  have hsplit : temp + p * (limb % (q * c)) =
      temp + p * (limb % q) + p * q * (limb / q % c) := by
    rw [Nat.mod_mul]
    ring
  calc (temp + p * (limb % (q * c))) % (p * q) + p * q * (limb / q)
      = temp + p * (limb % q) + p * q * (limb / q) := by
        rw [hsplit, Nat.add_mul_mod_self_left, Nat.mod_eq_of_lt hlow]
    _ = temp + p * (limb % q + q * (limb / q)) := by ring
    _ = temp + p * limb := by rw [Nat.mod_add_div]

/-- Limbs of one number and one width are the same. -/
theorem eq_of_ofDigits_eq {base : Nat} (hbase : 1 < base) {left right : List Nat}
    (hlength : left.length = right.length)
    (hleft : ∀ limb ∈ left, limb < base) (hright : ∀ limb ∈ right, limb < base)
    (hvalue : Nat.ofDigits base left = Nat.ofDigits base right) :
    left = right :=
  Nat.ofDigits_inj_of_len_eq hbase hlength hleft hright hvalue

/-- Add a carry, limb by limb. -/
def addCarry (base : Nat) : Nat → List Nat → List Nat × Nat
  | carry, [] => ([], carry)
  | carry, limb :: limbs =>
      let rest := addCarry base ((carry + limb) / base) limbs
      ((carry + limb) % base :: rest.1, rest.2)

theorem addCarry_value (base carry : Nat) (limbs : List Nat) :
    Nat.ofDigits base (addCarry base carry limbs).1 +
        base ^ limbs.length * (addCarry base carry limbs).2 =
      carry + Nat.ofDigits base limbs := by
  induction limbs generalizing carry with
  | nil => simp [addCarry]
  | cons limb limbs ih =>
      have hrest := ih ((carry + limb) / base)
      have hsum := Nat.mod_add_div (carry + limb) base
      simp only [addCarry, Nat.ofDigits_cons, List.length_cons, Nat.pow_succ]
      calc _ = (carry + limb) % base + base *
            (Nat.ofDigits base (addCarry base ((carry + limb) / base) limbs).1 +
              base ^ limbs.length *
                (addCarry base ((carry + limb) / base) limbs).2) := by ring
        _ = (carry + limb) % base + base * ((carry + limb) / base) +
            base * Nat.ofDigits base limbs := by rw [hrest]; ring
        _ = _ := by rw [hsum, Nat.add_assoc]

theorem addCarry_lt {base : Nat} (hbase : 0 < base) (carry : Nat)
    (limbs : List Nat) :
    (addCarry base carry limbs).1.length = limbs.length ∧
      ∀ limb ∈ (addCarry base carry limbs).1, limb < base := by
  induction limbs generalizing carry with
  | nil => simp [addCarry]
  | cons limb limbs ih =>
      obtain ⟨hlength, hlimbs⟩ := ih ((carry + limb) / base)
      constructor
      · simp [addCarry, hlength]
      · intro other hmem
        rcases List.mem_cons.mp hmem with rfl | hmem
        · exact Nat.mod_lt _ hbase
        · exact hlimbs other hmem

end Limbs
