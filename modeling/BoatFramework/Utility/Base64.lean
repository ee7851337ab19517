/-
`BoAT_base64_decode`: the digits in front of the padding, four to three bytes,
into a block whose size is not asked for.
-/
import BoatFramework.Base.Base64
import BoatFramework.Base.Exec
import BoatFramework.Utility.Result

namespace BoatFramework

open Base64 Exec

/-- `base64de`; 255 in the table is nothing here. -/
def base64Value (c : UInt8) : Option UInt8 :=
  if 0x41 ≤ c ∧ c ≤ 0x5A then some (c - 0x41)
  else if 0x61 ≤ c ∧ c ≤ 0x7A then some (c - 0x61 + 26)
  else if 0x30 ≤ c ∧ c ≤ 0x39 then some (c - 0x30 + 52)
  else if c = 0x2B then some 62
  else if c = 0x2F then some 63
  else none

/-- `out[j] = byte`. -/
def setByte (out : List UInt8) (j : Nat) (byte : UInt8) :
    Outcome (List UInt8) :=
  if j < out.length then .ok (out.set j byte) else .error .undefined

/-- `out[j] |= byte`. -/
def orByte (out : List UInt8) (j : Nat) (byte : UInt8) :
    Outcome (List UInt8) :=
  match out[j]? with
  | some old => .ok (out.set j (old ||| byte))
  | none => .error .undefined

/-- `out[j++] |= first; out[j] = second`. -/
def putTwo (out : List UInt8) (j : Nat) (first second : UInt8) :
    Outcome (List UInt8) := do
  let out ← orByte out j first
  setByte out (j + 1) second

/-- The digit in place `i` is put into the block. -/
def base64Put (out : List UInt8) (i j : Nat) (c : UInt8) :
    Outcome (List UInt8 × Nat) :=
  match i % 4 with
  | 0 => do
      let out ← setByte out j (c <<< 2)
      .ok (out, j)
  | 1 => do
      let out ← putTwo out j ((c >>> 4) &&& 0x3) ((c &&& 0xF) <<< 4)
      .ok (out, j + 1)
  | 2 => do
      let out ← putTwo out j ((c >>> 2) &&& 0xF) ((c &&& 0x3) <<< 6)
      .ok (out, j + 1)
  | _ => do
      let out ← orByte out j c
      .ok (out, j + 1)

/-- The loop: the length it returns, zero for what is no digit, and the
block. -/
def base64Loop : List UInt8 → Nat → List UInt8 → Nat →
    Outcome (Nat × List UInt8)
  | [], _, out, j => .ok (j, out)
  | c :: rest, i, out, j =>
      if c = 0x3D then .ok (j, out)
      else
        match base64Value c with
        | none => .ok (0, out)
        | some value => do
            let (out, j) ← base64Put out i j value
            base64Loop rest (i + 1) out j

def boatBase64Decode (input out : List UInt8) : Outcome (Nat × List UInt8) :=
  if input.length % 4 ≠ 0 then .ok (0, out) else base64Loop input 0 out 0

/-- Where the digits in front of place `i` end. -/
def base64Place (i : Nat) : Nat :=
  3 * (i / 4) + (i % 4 - 1)

/-- The last byte that the digit in place `i` touches. -/
def base64Last (i : Nat) : Nat :=
  3 * (i / 4) + min (i % 4) 2

theorem orByte_of_le {out : List UInt8} {j : Nat} (hj : out.length ≤ j)
    (byte : UInt8) : orByte out j byte = .error .undefined := by
  rw [orByte, List.getElem?_eq_none hj]

theorem putTwo_of_le {out : List UInt8} {j : Nat} (hj : out.length ≤ j + 1)
    (first second : UInt8) :
    putTwo out j first second = .error .undefined := by
  by_cases hlt : j < out.length
  · rw [putTwo, orByte, List.getElem?_eq_getElem hlt]
    simp only [except_ok_bind]
    rw [setByte, if_neg]
    rw [List.length_set]
    exact Nat.not_lt_of_le hj
  · rw [putTwo, orByte_of_le (Nat.le_of_not_lt hlt)]
    rfl

section Put

variable {out : List UInt8} {i : Nat}

/-- A digit whose last byte is behind the block is undefined. -/
theorem base64Put_of_le (c : UInt8) (hlast : out.length ≤ base64Last i) :
    base64Put out i (base64Place i) c = .error .undefined := by
  have hmod : i % 4 = 0 ∨ i % 4 = 1 ∨ i % 4 = 2 ∨ i % 4 = 3 := by omega
  unfold base64Put base64Place
  unfold base64Last at hlast
  rcases hmod with hmod | hmod | hmod | hmod
  · have hplace : ¬3 * (i / 4) + (i % 4 - 1) < out.length := by omega
    simp only [hmod] at hplace ⊢
    rw [setByte, if_neg hplace]
    rfl
  · have hplace : out.length ≤ 3 * (i / 4) + (i % 4 - 1) + 1 := by omega
    have hput := putTwo_of_le hplace ((c >>> 4) &&& 0x3) ((c &&& 0xF) <<< 4)
    simp only [hmod] at hput ⊢
    rw [hput]
    rfl
  · have hplace : out.length ≤ 3 * (i / 4) + (i % 4 - 1) + 1 := by omega
    have hput := putTwo_of_le hplace ((c >>> 2) &&& 0xF) ((c &&& 0x3) <<< 6)
    simp only [hmod] at hput ⊢
    rw [hput]
    rfl
  · have hplace : out.length ≤ 3 * (i / 4) + (i % 4 - 1) := by omega
    simp only [hmod] at hplace ⊢
    rw [orByte_of_le hplace]
    rfl

end Put

section Bits

variable {count place digit : Nat} {digits last : List Nat}

theorem orByte_bytesOf (hplace : place < count) (byte : UInt8) :
    orByte (bytesOf count digits) place byte = .ok ((bytesOf count digits).set
      place (UInt8.ofNat (byteOf digits place) ||| byte)) := by
  rw [orByte, getElem?_bytesOf, if_pos hplace]

theorem setByte_bytesOf {byte : UInt8} (hplace : place < count)
    (hbyte : byte = UInt8.ofNat (byteOf last place))
    (hother : ∀ other, other ≠ place → byteOf last other = byteOf digits other) :
    setByte (bytesOf count digits) place byte = .ok (bytesOf count last) := by
  have hlength := length_bytesOf count digits
  rw [setByte, if_pos (hlength.symm ▸ hplace), hbyte]
  refine congrArg Except.ok (set_bytesOf hlength ?_ hplace)
  intro other hne
  rw [getElem?_bytesOf, hother other hne]

theorem putTwo_bytesOf {first second : UInt8} (hplace : place + 1 < count)
    (hfirst : UInt8.ofNat (byteOf digits place) ||| first =
      UInt8.ofNat (byteOf last place))
    (hsecond : second = UInt8.ofNat (byteOf last (place + 1)))
    (hother : ∀ other, other ≠ place → other ≠ place + 1 →
      byteOf last other = byteOf digits other) :
    putTwo (bytesOf count digits) place first second =
      .ok (bytesOf count last) := by
  have hlength : ((bytesOf count digits).set place
      (UInt8.ofNat (byteOf last place))).length = count := by
    rw [List.length_set, length_bytesOf]
  rw [putTwo, orByte_bytesOf (by omega), except_ok_bind, hfirst, setByte,
    if_pos (hlength.symm ▸ hplace), hsecond]
  refine congrArg Except.ok (set_bytesOf hlength ?_ hplace)
  intro other hne
  rw [List.getElem?_set]
  by_cases hsame : place = other
  · subst hsame
    rw [if_pos rfl, if_pos, if_pos (by omega)]
    rw [length_bytesOf]
    omega
  · rw [if_neg hsame, getElem?_bytesOf,
      hother other (fun heq => hsame heq.symm) hne]

/-- Two digits share a byte: the bits of one are above those of the other. -/
theorem or_bits {width high low : Nat} (hlow : low < 2 ^ width)
    (hbyte : high * 2 ^ width + low < 256) :
    UInt8.ofNat (high * 2 ^ width) ||| UInt8.ofNat low =
      UInt8.ofNat (high * 2 ^ width + low) := by
  apply UInt8.toNat.inj
  have hhigh := Nat.lt_of_le_of_lt (Nat.le_add_right _ _) hbyte
  have hrest := Nat.lt_of_le_of_lt (Nat.le_add_left _ _) hbyte
  rw [UInt8.toNat_or, UInt8.toNat_ofNat_of_lt' hhigh,
    UInt8.toNat_ofNat_of_lt' hrest, UInt8.toNat_ofNat_of_lt' hbyte,
    Nat.mul_comm high, Nat.two_pow_add_eq_or_of_lt hlow]

/-- The bits of a digit in front of and behind the end of a byte. -/
theorem digit_shifts {a : Nat} (ha : a < 64) :
    (UInt8.ofNat a <<< 2 = UInt8.ofNat (a * 4) ∧
      (UInt8.ofNat a &&& 0xF) <<< 4 = UInt8.ofNat (a % 16 * 16) ∧
      (UInt8.ofNat a &&& 0x3) <<< 6 = UInt8.ofNat (a % 4 * 64)) ∧
    (UInt8.ofNat a >>> 4) &&& 0x3 = UInt8.ofNat (a / 16) ∧
      (UInt8.ofNat a >>> 2) &&& 0xF = UInt8.ofNat (a / 4) := by
  have hall : ∀ a : Fin 64,
      (UInt8.ofNat a.val <<< 2 = UInt8.ofNat (a.val * 4) ∧
        (UInt8.ofNat a.val &&& 0xF) <<< 4 = UInt8.ofNat (a.val % 16 * 16) ∧
        (UInt8.ofNat a.val &&& 0x3) <<< 6 = UInt8.ofNat (a.val % 4 * 64)) ∧
      (UInt8.ofNat a.val >>> 4) &&& 0x3 = UInt8.ofNat (a.val / 16) ∧
        (UInt8.ofNat a.val >>> 2) &&& 0xF = UInt8.ofNat (a.val / 4) := by
    decide +kernel
  exact hall ⟨a, ha⟩

theorem digit_high {a b : Nat} (ha : a < 64) (hb : b < 64) :
    UInt8.ofNat (a * 4) ||| ((UInt8.ofNat b >>> 4) &&& 0x3) =
      UInt8.ofNat (a * 4 + b / 16) := by
  rw [(digit_shifts hb).2.1]
  exact @or_bits 2 a (b / 16) (by omega) (by omega)

theorem digit_middle {a b : Nat} (hb : b < 64) :
    UInt8.ofNat (a % 16 * 16) ||| ((UInt8.ofNat b >>> 2) &&& 0xF) =
      UInt8.ofNat (a % 16 * 16 + b / 4) := by
  rw [(digit_shifts hb).2.2]
  exact @or_bits 4 (a % 16) (b / 4) (by omega) (by omega)

theorem digit_low {a b : Nat} (hb : b < 64) :
    UInt8.ofNat (a % 4 * 64) ||| UInt8.ofNat b =
      UInt8.ofNat (a % 4 * 64 + b) :=
  @or_bits 6 (a % 4) b (by omega) (by omega)

variable {group : Nat}

theorem putFirst (hlength : digits.length = 4 * group) (hdigit : digit < 64)
    (hplace : 3 * group < count) :
    setByte (bytesOf count digits) (3 * group) (UInt8.ofNat digit <<< 2) =
      .ok (bytesOf count (digits ++ [digit])) := by
  refine setByte_bytesOf hplace ?_ fun other hne =>
    byteOf_snoc_of_outside (by omega)
  have hnext : digits.length < 4 * group + 1 := by omega
  rw [byteOf_first, getD_snoc_last hlength.symm, getD_snoc_behind hnext,
    Nat.zero_div, Nat.add_zero]
  exact (digit_shifts hdigit).1.1

theorem putSecond (hlength : digits.length = 4 * group + 1)
    (hdigits : ∀ digit ∈ digits, digit < 64) (hdigit : digit < 64)
    (hplace : 3 * group + 1 < count) :
    putTwo (bytesOf count digits) (3 * group)
        ((UInt8.ofNat digit >>> 4) &&& 0x3)
        ((UInt8.ofNat digit &&& 0xF) <<< 4) =
      .ok (bytesOf count (digits ++ [digit])) := by
  have hbefore : 4 * group < digits.length := by omega
  have hnext : digits.length < 4 * group + 2 := by omega
  refine putTwo_bytesOf hplace ?_ ?_ fun other hne hne' =>
    byteOf_snoc_of_outside (by omega)
  · rw [byteOf_first, byteOf_first, getD_snoc_before hbefore,
      getD_snoc_last hlength.symm,
      List.getD_eq_default digits 0 (Nat.le_of_eq hlength), Nat.zero_div,
      Nat.add_zero]
    exact digit_high (getD_lt hdigits (4 * group)) hdigit
  · rw [byteOf_second, getD_snoc_last hlength.symm, getD_snoc_behind hnext,
      Nat.zero_div, Nat.add_zero]
    exact (digit_shifts hdigit).1.2.1

theorem putThird (hlength : digits.length = 4 * group + 2)
    (hdigit : digit < 64)
    (hplace : 3 * group + 2 < count) :
    putTwo (bytesOf count digits) (3 * group + 1)
        ((UInt8.ofNat digit >>> 2) &&& 0xF)
        ((UInt8.ofNat digit &&& 0x3) <<< 6) =
      .ok (bytesOf count (digits ++ [digit])) := by
  have hbefore : 4 * group + 1 < digits.length := by omega
  have hnext : digits.length < 4 * group + 3 := by omega
  refine putTwo_bytesOf hplace ?_ ?_ fun other hne hne' =>
    byteOf_snoc_of_outside (by omega)
  · rw [byteOf_second, byteOf_second, getD_snoc_before hbefore,
      getD_snoc_last hlength.symm,
      List.getD_eq_default digits 0 (Nat.le_of_eq hlength), Nat.zero_div,
      Nat.add_zero]
    exact digit_middle hdigit
  · rw [byteOf_third, getD_snoc_last hlength.symm, getD_snoc_behind hnext,
      Nat.add_zero]
    exact (digit_shifts hdigit).1.2.2

theorem putFourth (hlength : digits.length = 4 * group + 3)
    (hdigit : digit < 64)
    (hplace : 3 * group + 2 < count) :
    orByte (bytesOf count digits) (3 * group + 2) (UInt8.ofNat digit) =
      .ok (bytesOf count (digits ++ [digit])) := by
  have hbefore : 4 * group + 2 < digits.length := by omega
  have hbits : UInt8.ofNat (byteOf digits (3 * group + 2)) |||
      UInt8.ofNat digit =
        UInt8.ofNat (byteOf (digits ++ [digit]) (3 * group + 2)) := by
    rw [byteOf_third, byteOf_third, getD_snoc_before hbefore,
      getD_snoc_last hlength.symm,
      List.getD_eq_default digits 0 (Nat.le_of_eq hlength), Nat.add_zero]
    exact digit_low hdigit
  rw [orByte_bytesOf hplace, hbits]
  refine congrArg Except.ok (set_bytesOf (length_bytesOf _ _) ?_ hplace)
  intro other hne
  rw [getElem?_bytesOf, byteOf_snoc_of_outside (by omega)]

/-- A digit is put behind the bits of those in front of it. -/
theorem base64Put_bytesOf (hdigits : ∀ digit ∈ digits, digit < 64)
    (hdigit : digit < 64) (hlast : base64Last digits.length < count) :
    base64Put (bytesOf count digits) digits.length (base64Place digits.length)
        (UInt8.ofNat digit) =
      .ok (bytesOf count (digits ++ [digit]),
        base64Place (digits.length + 1)) := by
  unfold base64Last at hlast
  have hplaces : digits.length % 4 = 0 ∨ digits.length % 4 = 1 ∨
      digits.length % 4 = 2 ∨ digits.length % 4 = 3 := by omega
  rcases hplaces with hmod | hmod | hmod | hmod
  · have hplace : base64Place digits.length = 3 * (digits.length / 4) := by
      rw [base64Place, hmod]
      rfl
    have hnext : base64Place (digits.length + 1) =
        3 * (digits.length / 4) := by
      unfold base64Place
      omega
    simp only [base64Put, hmod, hplace, hnext]
    rw [putFirst (by omega) hdigit (by omega)]
    rfl
  · have hplace : base64Place digits.length = 3 * (digits.length / 4) := by
      rw [base64Place, hmod]
      rfl
    have hnext : base64Place (digits.length + 1) =
        3 * (digits.length / 4) + 1 := by
      unfold base64Place
      omega
    simp only [base64Put, hmod, hplace, hnext]
    rw [putSecond (by omega) hdigits hdigit (by omega)]
    rfl
  · have hplace : base64Place digits.length = 3 * (digits.length / 4) + 1 := by
      rw [base64Place, hmod]
    have hnext : base64Place (digits.length + 1) =
        3 * (digits.length / 4) + 1 + 1 := by
      unfold base64Place
      omega
    simp only [base64Put, hmod, hplace, hnext]
    rw [putThird (by omega) hdigit (by omega)]
    rfl
  · have hplace : base64Place digits.length = 3 * (digits.length / 4) + 2 := by
      rw [base64Place, hmod]
    have hnext : base64Place (digits.length + 1) =
        3 * (digits.length / 4) + 2 + 1 := by
      unfold base64Place
      omega
    simp only [base64Put, hmod, hplace, hnext]
    rw [putFourth (by omega) hdigit (by omega)]
    rfl

end Bits

theorem base64Value_eq (c : UInt8) :
    base64Value c = (digitOf c).map UInt8.ofNat := by
  have hall : ∀ n : Fin 256, base64Value (UInt8.ofNat n.val) =
      (digitOf (UInt8.ofNat n.val)).map UInt8.ofNat := by decide +kernel
  have hvalue := hall ⟨c.toNat, c.toNat_lt⟩
  rwa [UInt8.ofNat_toNat] at hvalue

/-- The loop puts the bits of all digits into the block; its length is that of
the whole bytes, or zero in front of what is neither digit nor padding. -/
theorem base64Loop_bytesOf {count : Nat} (input : List UInt8)
    {digits : List Nat} (hdigits : ∀ digit ∈ digits, digit < 64)
    (hfits : ∀ t < (leadingDigits input).length,
      base64Last (digits.length + t) < count) :
    base64Loop input digits.length (bytesOf count digits)
        (base64Place digits.length) =
      .ok (if input[(leadingDigits input).length]? = none ∨
            input[(leadingDigits input).length]? = some pad then
          base64Place (digits.length + (leadingDigits input).length) else 0,
        bytesOf count (digits ++ leadingDigits input)) := by
  induction input generalizing digits with
  | nil =>
      rw [base64Loop, leadingDigits, List.append_nil]
      rfl
  | cons c rest ih =>
      rw [base64Loop, base64Value_eq]
      cases hdigit : digitOf c with
      | none =>
          have hnone : leadingDigits (c :: rest) = [] := by rw [leadingDigits, hdigit]
          rw [hnone, List.append_nil]
          by_cases hpad : c = 0x3D
          · rw [if_pos hpad, if_pos (.inr (congrArg some hpad))]
            rfl
          · rw [if_neg hpad, if_neg]
            · rfl
            · rintro (hend | hother)
              · cases hend
              · exact hpad (Option.some.inj hother)
      | some digit =>
          have hsome : leadingDigits (c :: rest) = digit :: leadingDigits rest := by
            rw [leadingDigits, hdigit]
          have hpad : c ≠ 0x3D := by
            rintro rfl
            cases hdigit
          rw [hsome] at hfits ⊢
          have hput := base64Put_bytesOf hdigits (digitOf_lt hdigit)
            (hfits 0 (Nat.succ_pos _))
          have hnext := @ih (digits ++ [digit]) (fun other hother => by
            rcases List.mem_append.mp hother with hother | hother
            · exact hdigits other hother
            · obtain rfl := List.mem_singleton.mp hother
              exact digitOf_lt hdigit) (fun t ht => by
            have hlast := hfits (t + 1) (Nat.succ_lt_succ ht)
            rwa [List.length_append, List.length_singleton, Nat.add_assoc,
              Nat.add_comm 1 t])
          rw [List.length_append, List.length_singleton, List.append_assoc,
            List.singleton_append, Nat.add_assoc] at hnext
          rw [if_neg hpad, List.length_cons]
          simp only [Option.map_some, hput, except_ok_bind]
          rw [hnext, Nat.add_comm 1 (leadingDigits rest).length,
            List.getElem?_cons_succ]

/-- A digit whose last byte is behind the block is put there all the same. -/
theorem base64Loop_overflow {count : Nat} (input : List UInt8)
    {digits : List Nat} (hdigits : ∀ digit ∈ digits, digit < 64)
    (hover : ∃ t < (leadingDigits input).length,
      count ≤ base64Last (digits.length + t)) :
    base64Loop input digits.length (bytesOf count digits)
        (base64Place digits.length) = .error .undefined := by
  induction input generalizing digits with
  | nil =>
      obtain ⟨t, ht, -⟩ := hover
      cases ht
  | cons c rest ih =>
      rw [base64Loop, base64Value_eq]
      cases hdigit : digitOf c with
      | none =>
          obtain ⟨t, ht, -⟩ := hover
          rw [leadingDigits, hdigit] at ht
          cases ht
      | some digit =>
          have hpad : c ≠ 0x3D := by
            rintro rfl
            cases hdigit
          rw [if_neg hpad]
          simp only [Option.map_some]
          by_cases hlast : base64Last digits.length < count
          · rw [base64Put_bytesOf hdigits (digitOf_lt hdigit) hlast,
              except_ok_bind]
            have hnext := @ih (digits ++ [digit]) (fun other hother => by
              rcases List.mem_append.mp hother with hother | hother
              · exact hdigits other hother
              · obtain rfl := List.mem_singleton.mp hother
                exact digitOf_lt hdigit) (by
              obtain ⟨t, ht, hbehind⟩ := hover
              rw [leadingDigits, hdigit] at ht
              cases t with
              | zero => exact absurd hlast (Nat.not_lt_of_le hbehind)
              | succ t =>
                  refine ⟨t, Nat.lt_of_succ_lt_succ ht, ?_⟩
                  rwa [List.length_append, List.length_singleton,
                    Nat.add_assoc, Nat.add_comm 1 t])
            rw [List.length_append, List.length_singleton] at hnext
            exact hnext
          · rw [base64Put_of_le]
            · rfl
            · rw [length_bytesOf]
              exact Nat.le_of_not_lt hlast

/-- A text whose digits are decoded into a block of 160 bytes. -/
def DecodesInto160 (input : List UInt8) : Prop :=
  input.length % 4 ≠ 0 ∨ (leadingDigits input).length ≤ 213

instance (input : List UInt8) : Decidable (DecodesInto160 input) :=
  inferInstanceAs (Decidable (_ ∨ _))

theorem bytesOf_nil : bytesOf 160 [] = List.replicate 160 0 := by
  decide +kernel

/-- The whole bytes of the digits, where the text is well spelled. -/
theorem boatBase64Decode_eq {input : List UInt8}
    (hfits : DecodesInto160 input) :
    ∃ block, boatBase64Decode input (List.replicate 160 0) =
        .ok (if Spelled input then (leadingDigits input).length * 3 / 4 else 0,
          block) ∧
      (Spelled input → block = bytesOf 160 (leadingDigits input)) := by
  rw [boatBase64Decode]
  by_cases hwhole : input.length % 4 = 0
  · have hshort := hfits.resolve_left (not_not_intro hwhole)
    have hplace : base64Place (leadingDigits input).length =
        (leadingDigits input).length * 3 / 4 := by
      unfold base64Place
      omega
    have hloop : base64Loop input 0 (List.replicate 160 0) 0 = _ :=
      bytesOf_nil ▸ @base64Loop_bytesOf 160 input [] (fun _ => nofun)
        fun t ht => by
          rw [List.length_nil, Nat.zero_add, base64Last]
          omega
    rw [List.length_nil, Nat.zero_add, List.nil_append, hplace] at hloop
    refine ⟨_, ?_, fun _ => rfl⟩
    rw [if_neg (not_not_intro hwhole), hloop]
    by_cases hspelled : Spelled input
    · rw [if_pos hspelled, if_pos hspelled.2]
    · rw [if_neg hspelled, if_neg fun hend => hspelled ⟨hwhole, hend⟩]
  · refine ⟨List.replicate 160 0, ?_,
      fun hspelled => absurd hspelled.1 hwhole⟩
    rw [if_pos hwhole, if_neg fun hspelled => hwhole hspelled.1]

/-- A block of 160 bytes holds 213 digits: the next one touches the byte behind
it. -/
theorem boatBase64Decode_overflow {input : List UInt8}
    (hlong : ¬DecodesInto160 input) :
    boatBase64Decode input (List.replicate 160 0) = .error .undefined := by
  have hboth := not_or.mp hlong
  have hover : 213 < (leadingDigits input).length := Nat.lt_of_not_le hboth.2
  rw [boatBase64Decode, if_neg hboth.1, ← bytesOf_nil]
  exact @base64Loop_overflow 160 input [] (fun _ => nofun)
    ⟨213, hover, by decide⟩

end BoatFramework
