/-
`BoatConvertBits` of boatplatonbech32.c: its loop regroups the bits of the
input and writes a digit for the bits left over.
-/
import BoatFramework.Base.Regroup
import Mathlib.Data.UInt
import Mathlib.Tactic.Ring

namespace BoatFramework

/-- The inner loop: the digits taken out of the `bits` collected bits, with
the number of bits it leaves.  Every turn takes a bit at least. -/
def takeDigits (toBits acc : Nat) : Nat → Nat → List Nat × Nat
  | 0, bits => ([], bits)
  | fuel + 1, bits =>
      if toBits ≤ bits then
        let (digits, left) := takeDigits toBits acc fuel (bits - toBits)
        (((acc >>> (bits - toBits)) &&& (2 ^ toBits - 1)) :: digits, left)
      else ([], bits)

/-- The loop over the input, with `acc` and `bits` of the step before.  A
`value` of more than `fromBits` bits is not refused. -/
def convertLoop (fromBits toBits : Nat) : List Nat → Nat → Nat → List Nat
  | [], acc, bits =>
      if 0 < bits then [(acc <<< (toBits - bits)) &&& (2 ^ toBits - 1)] else []
  | value :: rest, acc, bits =>
      let acc' := ((acc <<< fromBits) ||| value) &&&
        (2 ^ (fromBits + toBits - 1) - 1)
      let (digits, left) :=
        takeDigits toBits acc' (bits + fromBits) (bits + fromBits)
      digits ++ convertLoop fromBits toBits rest acc' left

/-- The bytes that `BoatConvertBits` leaves at `out`. -/
def boatConvertBits (input : List UInt8) (fromBits toBits : Nat) : List UInt8 :=
  (convertLoop fromBits toBits (input.map UInt8.toNat) 0 0).map UInt8.ofNat

variable {fromBits toBits : Nat}

/-- What the inner loop leaves behind. -/
structure DigitsTaken (toBits acc bits : Nat) (digits : List Nat) (left : Nat) :
    Prop where
  isDigits : Regroup.Digits toBits digits
  left_lt : left < toBits
  length : toBits * digits.length + left = bits
  value_eq : Regroup.value toBits digits * 2 ^ left + acc % 2 ^ left =
    acc % 2 ^ bits

theorem takeDigits_spec (hto : 0 < toBits) (acc : Nat) {fuel bits : Nat}
    (hfuel : bits ≤ fuel) :
    DigitsTaken toBits acc bits (takeDigits toBits acc fuel bits).1
      (takeDigits toBits acc fuel bits).2 := by
  induction fuel generalizing bits with
  | zero =>
      obtain rfl : bits = 0 := by omega
      exact ⟨by simp [takeDigits, Regroup.Digits], hto, rfl,
        by simp [takeDigits, Regroup.value_nil]⟩
  | succ fuel ih =>
      rw [takeDigits]
      split
      next hwhole =>
        have hrest := ih (show bits - toBits ≤ fuel by omega)
        generalize takeDigits toBits acc fuel (bits - toBits) = taken at hrest
        obtain ⟨digits, left⟩ := taken
        have hlength : toBits * digits.length + left = bits - toBits :=
          hrest.length
        have hvalue := hrest.value_eq
        constructor
        · apply Regroup.digits_cons.mpr
          constructor
          · rw [Nat.and_two_pow_sub_one_eq_mod]
            exact Nat.mod_lt _ (Nat.two_pow_pos _)
          · exact hrest.isDigits
        · exact hrest.left_lt
        · simp only [List.length_cons, Nat.mul_add]
          omega
        · have hbits : bits = (bits - toBits) + toBits := by omega
          have hsplit : acc % 2 ^ bits = acc % 2 ^ (bits - toBits) +
              2 ^ (bits - toBits) * (acc / 2 ^ (bits - toBits) % 2 ^ toBits) := by
            conv_lhs => rw [hbits, Nat.pow_add, Nat.mod_mul]
          rw [hsplit, ← hvalue, Regroup.value_cons,
            Nat.and_two_pow_sub_one_eq_mod, Nat.shiftRight_eq_div_pow, ← hlength,
            Nat.pow_add]
          ring
      next hpart =>
        exact ⟨by simp [Regroup.Digits], by simpa using hpart, by simp,
          by simp [Regroup.value_nil]⟩

/-- A value shifted into the accumulator stands behind the bits kept in it. -/
theorem shiftIn_mod (acc : Nat) {value bits : Nat} (hbits : bits < toBits)
    (hvalue : value < 2 ^ fromBits) :
    (((acc <<< fromBits) ||| value) &&& (2 ^ (fromBits + toBits - 1) - 1)) %
        2 ^ (bits + fromBits) =
      acc % 2 ^ bits * 2 ^ fromBits + value := by
  have hdvd : 2 ^ (bits + fromBits) ∣ 2 ^ (fromBits + toBits - 1) :=
    Nat.pow_dvd_pow 2 (by omega)
  have hpos : 0 < 2 ^ fromBits := Nat.two_pow_pos _
  have hshift : (acc <<< fromBits) ||| value = 2 ^ fromBits * acc + value := by
    rw [← Nat.shiftLeft_add_eq_or_of_lt hvalue, Nat.shiftLeft_eq, Nat.mul_comm]
  rw [Nat.and_two_pow_sub_one_eq_mod, Nat.mod_mod_of_dvd _ hdvd, hshift,
    Nat.add_comm bits, Nat.pow_add, Nat.mod_mul, Nat.mul_add_mod,
    Nat.mul_add_div hpos, Nat.mod_eq_of_lt hvalue, Nat.div_eq_of_lt hvalue,
    Nat.add_zero]
  ring

variable (fromBits) in
/-- Every bit of the input is written, and less than a digit is filled in. -/
theorem length_convertLoop (hto : 0 < toBits) (input : List Nat) (acc : Nat)
    {bits : Nat} (hbits : bits < toBits) :
    bits + fromBits * input.length ≤
        toBits * (convertLoop fromBits toBits input acc bits).length ∧
      toBits * (convertLoop fromBits toBits input acc bits).length <
        bits + fromBits * input.length + toBits := by
  induction input generalizing acc bits with
  | nil =>
      rw [convertLoop]
      split
      · simp only [List.length_cons, List.length_nil]
        omega
      · simp only [List.length_nil]
        omega
  | cons value rest ih =>
      rw [convertLoop]
      generalize ((acc <<< fromBits) ||| value) &&& _ = acc'
      have htaken := takeDigits_spec hto acc' (Nat.le_refl (bits + fromBits))
      generalize takeDigits toBits acc' _ _ = taken at htaken
      obtain ⟨digits, left⟩ := taken
      have hlength : toBits * digits.length + left = bits + fromBits :=
        htaken.length
      have hrest := ih acc' htaken.left_lt
      simp only at hrest ⊢
      simp only [List.length_append, List.length_cons, Nat.mul_add]
      omega

variable (fromBits) in
theorem digits_convertLoop (hto : 0 < toBits) (input : List Nat) (acc : Nat)
    {bits : Nat} (hbits : bits < toBits) :
    Regroup.Digits toBits (convertLoop fromBits toBits input acc bits) := by
  induction input generalizing acc bits with
  | nil =>
      rw [convertLoop]
      split
      · simp only [Regroup.Digits, List.mem_singleton, forall_eq,
          Nat.and_two_pow_sub_one_eq_mod]
        exact Nat.mod_lt _ (Nat.two_pow_pos _)
      · simp [Regroup.Digits]
  | cons value rest ih =>
      rw [convertLoop]
      generalize ((acc <<< fromBits) ||| value) &&& _ = acc'
      have htaken := takeDigits_spec hto acc' (Nat.le_refl (bits + fromBits))
      exact Regroup.digits_append.mpr
        ⟨htaken.isDigits, ih acc' htaken.left_lt⟩

/-- The number that is written, with the bits filled in behind it. -/
theorem value_convertLoop (hto : 0 < toBits) {input : List Nat}
    (hinput : Regroup.Digits fromBits input) (acc : Nat) {bits : Nat}
    (hbits : bits < toBits) :
    Regroup.value toBits (convertLoop fromBits toBits input acc bits) =
      (acc % 2 ^ bits * 2 ^ (fromBits * input.length) +
        Regroup.value fromBits input) *
      2 ^ (toBits * (convertLoop fromBits toBits input acc bits).length -
        (bits + fromBits * input.length)) := by
  induction input generalizing acc bits with
  | nil =>
      have hsplit : 2 ^ toBits = 2 ^ (toBits - bits) * 2 ^ bits := by
        rw [← Nat.pow_add]
        congr 1
        omega
      rw [convertLoop]
      split
      · rw [Nat.and_two_pow_sub_one_eq_mod, Nat.shiftLeft_eq, Nat.mul_comm acc,
          hsplit, Nat.mul_mod_mul_left, Regroup.value_cons]
        simp [Regroup.value_nil, Nat.mul_comm]
      · obtain rfl : bits = 0 := by omega
        simp [Regroup.value_nil, Nat.mod_one]
  | cons value rest ih =>
      obtain ⟨hvalue, hrest⟩ := Regroup.digits_cons.mp hinput
      have hmod := shiftIn_mod acc hbits hvalue
      rw [convertLoop]
      generalize ((acc <<< fromBits) ||| value) &&& _ = acc' at hmod
      have htaken := takeDigits_spec hto acc' (Nat.le_refl (bits + fromBits))
      generalize takeDigits toBits acc' _ _ = taken at htaken
      obtain ⟨digits, left⟩ := taken
      have hlength : toBits * digits.length + left = bits + fromBits :=
        htaken.length
      have hwritten := length_convertLoop fromBits hto rest acc'
        htaken.left_lt
      have hnumber := ih hrest acc' htaken.left_lt
      have htaken_eq := htaken.value_eq
      simp only at hnumber htaken_eq ⊢
      generalize convertLoop fromBits toBits rest acc' left = written
        at hwritten hnumber ⊢
      have hpad : toBits * (digits ++ written).length -
          (bits + fromBits * (value :: rest).length) =
          toBits * written.length - (left + fromBits * rest.length) := by
        simp only [List.length_append, List.length_cons, Nat.mul_add]
        omega
      have hwidth : toBits * written.length = left + fromBits * rest.length +
          (toBits * written.length - (left + fromBits * rest.length)) := by
        omega
      rw [hpad, Regroup.value_append, hnumber]
      generalize toBits * written.length - _ = pad at hwidth
      rw [hwidth, Regroup.value_cons, List.length_cons, Nat.mul_add,
        Nat.mul_one, Nat.pow_add, Nat.pow_add, Nat.pow_add]
      calc
        _ = ((Regroup.value toBits digits * 2 ^ left + acc' % 2 ^ left) *
              2 ^ (fromBits * rest.length) +
            Regroup.value fromBits rest) * 2 ^ pad := by ring
        _ = _ := by
          rw [htaken_eq, hmod]
          ring

variable (fromBits) in
theorem length_boatConvertBits (hto : 0 < toBits) (input : List UInt8) :
    fromBits * input.length ≤
        toBits * (boatConvertBits input fromBits toBits).length ∧
      toBits * (boatConvertBits input fromBits toBits).length <
        fromBits * input.length + toBits := by
  have hlength := length_convertLoop fromBits hto
    (input.map UInt8.toNat) 0 hto
  simpa [boatConvertBits] using hlength

/-- The conversion regroups bits: its input digit by digit, of which no bit is
lost, with zero bits behind. -/
theorem boatConvertBits_regroups (hto : 0 < toBits) (hbyte : toBits ≤ 8)
    {input : List UInt8}
    (hinput : Regroup.Digits fromBits (input.map UInt8.toNat)) :
    Regroup.Regroups fromBits toBits (input.map UInt8.toNat)
      ((boatConvertBits input fromBits toBits).map UInt8.toNat) := by
  have hdigits := digits_convertLoop fromBits hto
    (input.map UInt8.toNat) 0 hto
  have hlength := length_convertLoop fromBits hto
    (input.map UInt8.toNat) 0 hto
  have hvalue := value_convertLoop hto hinput 0 hto
  have hkeep : ∀ digit ∈ convertLoop fromBits toBits (input.map UInt8.toNat) 0 0,
      (UInt8.toNat ∘ UInt8.ofNat) digit = id digit := by
    intro digit hmem
    have hlt := hdigits digit hmem
    have hle : 2 ^ toBits ≤ 2 ^ 8 := Nat.pow_le_pow_right (by omega) hbyte
    simp only [Function.comp_apply, UInt8.toNat_ofNat', id_eq]
    exact Nat.mod_eq_of_lt (by omega)
  have hbytes : (boatConvertBits input fromBits toBits).map UInt8.toNat =
      convertLoop fromBits toBits (input.map UInt8.toNat) 0 0 := by
    rw [boatConvertBits, List.map_map, List.map_congr_left hkeep, List.map_id]
  rw [hbytes]
  rw [Nat.zero_add] at hlength hvalue
  exact ⟨hdigits, hlength.1, hlength.2, by simpa [Nat.mod_one] using hvalue⟩

end BoatFramework
