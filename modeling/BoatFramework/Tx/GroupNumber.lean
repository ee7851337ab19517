/-
Hexadecimal digits read as a JSON number.  `UtilityBinToHex` writes a quantity
in hexadecimal without a lead; a JSON reader takes the digits for decimal ones
and the digit `e` for an exponent.  The two agree on one decimal digit only.
-/
import BoatFramework.Base.JsonText
import BoatFramework.Utility.HexConvert
import Mathlib.Algebra.Order.Ring.Nat
import Mathlib.Tactic.IntervalCases
import Mathlib.Tactic.Push

namespace BoatFramework

open ByteString

/-- The number that digits spell, first digit highest. -/
def numeral (base : Nat) (digits : List Nat) : Nat :=
  Nat.ofDigits base digits.reverse

theorem numeral_append (base : Nat) (high low : List Nat) :
    numeral base (high ++ low) =
      numeral base high * base ^ low.length + numeral base low := by
  rw [numeral, List.reverse_append, Nat.ofDigits_append, List.length_reverse,
    Nat.add_comm, Nat.mul_comm]
  rfl

theorem numeral_singleton (base digit : Nat) : numeral base [digit] = digit :=
  Nat.ofDigits_singleton

theorem numeral_cons (base digit : Nat) (digits : List Nat) :
    numeral base (digit :: digits) =
      digit * base ^ digits.length + numeral base digits := by
  rw [← List.singleton_append, numeral_append, numeral_singleton]

theorem numeral_le (digits : List Nat) : numeral 10 digits ≤ numeral 16 digits :=
  Nat.ofDigits_monotone _ (by decide)

/-- Decimal digits spell less in decimal, unless there is one of them. -/
theorem numeral_lt {digit : Nat} {digits : List Nat} (hdigit : digit ≠ 0)
    (hmore : digits ≠ []) :
    numeral 10 (digit :: digits) < numeral 16 (digit :: digits) := by
  have hlength : digits.length ≠ 0 := by simpa using hmore
  have hpow : 10 ^ digits.length < 16 ^ digits.length :=
    Nat.pow_lt_pow_left (by decide) hlength
  have hhigh : digit * 10 ^ digits.length < digit * 16 ^ digits.length :=
    Nat.mul_lt_mul_of_pos_left hpow (Nat.pos_of_ne_zero hdigit)
  have hlow := numeral_le digits
  rw [numeral_cons, numeral_cons]
  omega

/-- The lowest digit that is not zero, in both readings of the digits. -/
theorem exists_lowest {digits : List Nat} (hdigits : ∀ d ∈ digits, d < 10)
    (hpos : Nat.ofDigits 10 digits ≠ 0) :
    ∃ zeros digit ten sixteen, 0 < digit ∧ digit < 10 ∧
      zeros < digits.length ∧
      Nat.ofDigits 10 digits = 10 ^ zeros * (digit + 10 * ten) ∧
      Nat.ofDigits 16 digits = 16 ^ zeros * (digit + 16 * sixteen) := by
  induction digits with
  | nil => exact absurd rfl hpos
  | cons d digits ih =>
      have hd := hdigits d List.mem_cons_self
      rw [Nat.ofDigits_cons] at hpos
      by_cases hzero : d = 0
      · subst hzero
        obtain ⟨zeros, digit, ten, sixteen, hlow, hhigh, hlength, hten,
          hsixteen⟩ := ih (fun e hmem => hdigits e (List.mem_cons_of_mem _ hmem))
            (by omega)
        refine ⟨zeros + 1, digit, ten, sixteen, hlow, hhigh, ?_, ?_, ?_⟩
        · rw [List.length_cons]
          omega
        · rw [Nat.ofDigits_cons, hten, Nat.pow_succ]
          ring
        · rw [Nat.ofDigits_cons, hsixteen, Nat.pow_succ]
          ring
      · exact ⟨0, d, _, _, Nat.pos_of_ne_zero hzero, hd, by simp,
          by rw [Nat.ofDigits_cons, Nat.pow_zero, Nat.one_mul],
          by rw [Nat.ofDigits_cons, Nat.pow_zero, Nat.one_mul]⟩

/-- No power of two as high as the digit divides such a number. -/
theorem lowest_indivisible {digit : Nat} (hlow : 0 < digit) (hhigh : digit < 10)
    (rest : Nat) : ¬2 ^ digit ∣ digit + 16 * rest := by
  intro hdvd
  interval_cases digit <;> omega

theorem ten_pow_le (n : Nat) : 9 * n + 1 ≤ 10 ^ n := by
  induction n with
  | zero => decide
  | succ n ih =>
      rw [Nat.pow_succ]
      omega

/-- A number with an exponent never is the number its characters spell in
hexadecimal: it has too many factors of two. -/
theorem exponent_ne (whole : List Nat) {exponent : List Nat}
    (hexponent : ∀ d ∈ exponent, d < 10) :
    numeral 10 whole * 10 ^ numeral 10 exponent ≠
      numeral 16 (whole ++ 14 :: exponent) := by
  intro heq
  rw [numeral_append, numeral_cons, List.length_cons] at heq
  have hle := numeral_le whole
  by_cases hzero : numeral 10 exponent = 0
  · rw [hzero, Nat.pow_zero, Nat.mul_one] at heq
    have hpos : 0 < 16 ^ exponent.length := Nat.pow_pos (by decide)
    have hgrow : numeral 16 whole * 1 ≤
        numeral 16 whole * 16 ^ (exponent.length + 1) :=
      Nat.mul_le_mul_left _ (Nat.pow_pos (by decide))
    omega
  · obtain ⟨zeros, digit, ten, sixteen, hlow, hhigh, hlength, hten, hsixteen⟩ :=
      exists_lowest (fun d hmem => hexponent d (List.mem_reverse.mp hmem)) hzero
    rw [List.length_reverse] at hlength
    have hten' : numeral 10 exponent = 10 ^ zeros * (digit + 10 * ten) := hten
    have hsixteen' : numeral 16 exponent =
        16 ^ zeros * (digit + 16 * sixteen) := hsixteen
    obtain ⟨more, hmore⟩ : ∃ more, exponent.length = zeros + 1 + more :=
      ⟨exponent.length - zeros - 1, by omega⟩
    have hfactor : numeral 10 whole * 10 ^ numeral 10 exponent =
        16 ^ zeros * (digit + 16 * (sixteen +
          (numeral 16 whole * 16 + 14) * 16 ^ more)) := by
      rw [heq, hsixteen', hmore]
      ring
    have hmany : 4 * zeros + digit ≤ numeral 10 exponent := by
      have hbound := ten_pow_le zeros
      rw [hten']
      nlinarith
    have hdvd : 16 ^ zeros * 2 ^ digit ∣
        16 ^ zeros * (digit + 16 * (sixteen +
          (numeral 16 whole * 16 + 14) * 16 ^ more)) := by
      rw [← hfactor]
      have hpow : 16 ^ zeros * 2 ^ digit = 2 ^ (4 * zeros + digit) := by
        rw [Nat.pow_add, Nat.pow_mul]
      rw [hpow]
      apply Dvd.dvd.mul_left
      exact (Nat.pow_dvd_pow 2 hmany).trans
        (pow_dvd_pow_of_dvd (by decide) _)
    exact lowest_indivisible hlow hhigh _
      (Nat.dvd_of_mul_dvd_mul_left (Nat.pow_pos (by decide)) hdvd)

/-- What a half byte's digit is to a JSON reader. -/
structure DigitKind (half : Nat) : Prop where
  isDigit : (Hex.digit half).isDigit = decide (half < 10)
  value : half < 10 → (Hex.digit half).toNat - '0'.toNat = half
  zero : Hex.digit half = '0' ↔ half = 0
  exponent : Hex.digit half = 'e' ↔ half = 14
  notMark : Hex.digit half ∉ [' ', '\t', '\n', '\r', 'n', 't', 'l', '"', '[',
    ']', ',', '{', '-', '+', '.', 'E']

theorem digitKind {half : Nat} (hhalf : half < 16) : DigitKind half := by
  have hall : ∀ h : Fin 16,
      (Hex.digit h.val).isDigit = decide (h.val < 10) ∧
      (h.val < 10 → (Hex.digit h.val).toNat - '0'.toNat = h.val) ∧
      (Hex.digit h.val = '0' ↔ h.val = 0) ∧
      (Hex.digit h.val = 'e' ↔ h.val = 14) ∧
      Hex.digit h.val ∉ [' ', '\t', '\n', '\r', 'n', 't', 'l', '"', '[', ']',
        ',', '{', '-', '+', '.', 'E'] := by decide
  obtain ⟨hdigit, hvalue, hzero, hexponent, hmark⟩ := hall ⟨half, hhalf⟩
  exact ⟨hdigit, hvalue, hzero, hexponent, hmark⟩

variable {halves : List Nat}

theorem decimal_map_digit (hhalves : ∀ h ∈ halves, h < 10) :
    JsonText.decimal (halves.map Hex.digit) = numeral 10 halves := by
  have hvalues : ∀ h ∈ halves.reverse,
      ((fun c : Char => c.toNat - '0'.toNat) ∘ Hex.digit) h = id h := by
    intro h hmem
    have hlt := hhalves h (List.mem_reverse.mp hmem)
    exact (digitKind (by omega)).value hlt
  rw [JsonText.decimal, numeral, ← List.map_reverse, List.map_map,
    List.map_congr_left hvalues, List.map_id]

theorem span_map_digit (hhalves : ∀ h ∈ halves, h < 16) :
    (halves.map Hex.digit).takeWhile Char.isDigit =
        (halves.takeWhile (· < 10)).map Hex.digit ∧
      (halves.map Hex.digit).dropWhile Char.isDigit =
        (halves.dropWhile (· < 10)).map Hex.digit := by
  induction halves with
  | nil => exact ⟨rfl, rfl⟩
  | cons h halves ih =>
      obtain ⟨htake, hdrop⟩ :=
        ih fun d hmem => hhalves d (List.mem_cons_of_mem _ hmem)
      have hkind := (digitKind (hhalves h List.mem_cons_self)).isDigit
      by_cases hlt : h < 10
      · simp [hkind, hlt, htake, hdrop]
      · simp [hkind, hlt]

/-- The decimal digits at the front, and what stands behind them. -/
theorem readDigits_map_digit (hhalves : ∀ h ∈ halves, h < 16) :
    JsonText.readDigits (halves.map Hex.digit) =
      if halves.takeWhile (· < 10) = [] then none
      else some ((halves.takeWhile (· < 10)).map Hex.digit,
        (halves.dropWhile (· < 10)).map Hex.digit) := by
  obtain ⟨htake, hdrop⟩ := span_map_digit hhalves
  simp only [JsonText.readDigits, htake, hdrop, List.map_eq_nil_iff]

theorem takeWhile_lt (halves : List Nat) :
    ∀ h ∈ halves.takeWhile (· < 10), h < 10 := by
  intro h hmem
  simpa using List.mem_takeWhile_imp hmem

/-- Half bytes that a JSON reader takes for a whole number: decimal digits, or
decimal digits with an exponent. -/
inductive NumberLike : List Nat → ℚ → Prop where
  | digits {whole : List Nat} (hwhole : ∀ h ∈ whole, h < 10) :
      NumberLike whole (numeral 10 whole)
  | exponent {whole exponent : List Nat} (hwhole : ∀ h ∈ whole, h < 10)
      (hexponent : ∀ h ∈ exponent, h < 10) :
      NumberLike (whole ++ 14 :: exponent)
        ((numeral 10 whole * 10 ^ numeral 10 exponent : ℕ))

theorem readFraction_map_digit (hhalves : ∀ h ∈ halves, h < 16) :
    JsonText.readFraction (halves.map Hex.digit) =
      some ([], halves.map Hex.digit) := by
  cases halves with
  | nil => rfl
  | cons h halves =>
      have hmark := (digitKind (hhalves h List.mem_cons_self)).notMark
      rw [List.map_cons, JsonText.readFraction]
      intro rest heq
      exact hmark (by simp [(List.cons.inj heq).1])

theorem readSigned_map_digit (hhalves : ∀ h ∈ halves, h < 16) :
    JsonText.readSigned (halves.map Hex.digit) =
      (JsonText.readDigits (halves.map Hex.digit)).map fun (digits, rest) =>
        ((JsonText.decimal digits : ℤ), rest) := by
  cases halves with
  | nil => rfl
  | cons h halves =>
      have hmark := (digitKind (hhalves h List.mem_cons_self)).notMark
      rw [List.map_cons, JsonText.readSigned]
      · intro rest heq
        exact hmark (by simp [(List.cons.inj heq).1])
      · intro rest heq
        exact hmark (by simp [(List.cons.inj heq).1])

theorem readExponent_map_digit {exponent : List Nat}
    (hexponent : ∀ h ∈ exponent, h < 16) {power : ℤ}
    (hread : JsonText.readExponent (exponent.map Hex.digit) =
      some (power, [])) :
    exponent = [] ∧ power = 0 ∨
      ∃ digits, exponent = 14 :: digits ∧ (∀ h ∈ digits, h < 10) ∧
        power = numeral 10 digits := by
  cases exponent with
  | nil =>
      cases hread
      exact .inl ⟨rfl, rfl⟩
  | cons h exponent =>
      have hkind := digitKind (hexponent h List.mem_cons_self)
      have hrest := fun d hmem => hexponent d (List.mem_cons_of_mem _ hmem)
      rw [List.map_cons, JsonText.readExponent] at hread
      split at hread
      next hmark =>
        have hh : h = 14 := by
          rcases hmark with hmark | hmark
          · exact hkind.exponent.mp hmark
          · exact absurd (by simp [hmark]) hkind.notMark
        subst hh
        rw [readSigned_map_digit hrest, readDigits_map_digit hrest] at hread
        split at hread
        · cases hread
        rw [Option.map_some, Option.some.injEq, Prod.mk.injEq,
          List.map_eq_nil_iff] at hread
        obtain ⟨rfl, hleft⟩ := hread
        have hall := List.takeWhile_append_dropWhile
          (p := (· < 10)) (l := exponent)
        rw [hleft, List.append_nil] at hall
        have hdigits := takeWhile_lt exponent
        rw [hall] at hdigits
        exact .inr ⟨exponent, rfl, hdigits, by
          rw [hall, decimal_map_digit hdigits]⟩
      next => cases hread

/-- What a whole number text made of half bytes looks like. -/
theorem readUnsigned_map_digit (hhalves : ∀ h ∈ halves, h < 16) {value : ℚ}
    (hread : JsonText.readUnsigned (halves.map Hex.digit) = some (value, [])) :
    NumberLike halves value := by
  have hrest : ∀ h ∈ halves.dropWhile (· < 10), h < 16 := fun h hmem =>
    hhalves h ((List.dropWhile_suffix _).subset hmem)
  have hsplit := List.takeWhile_append_dropWhile (p := (· < 10)) (l := halves)
  have hfront := takeWhile_lt halves
  rw [JsonText.readUnsigned, readDigits_map_digit hhalves] at hread
  generalize halves.takeWhile (· < 10) = whole at hread hsplit hfront
  generalize halves.dropWhile (· < 10) = rest at hread hsplit hrest
  subst hsplit
  split at hread
  · cases hread
  simp only [Option.bind_eq_bind, Option.bind_some] at hread
  split at hread
  · cases hread
  rw [readFraction_map_digit hrest] at hread
  simp only [Option.bind_some] at hread
  cases hexponent : JsonText.readExponent (rest.map Hex.digit) with
  | none =>
      rw [hexponent] at hread
      cases hread
  | some found =>
      obtain ⟨power, left⟩ := found
      rw [hexponent] at hread
      have hzero : JsonText.decimal [] = 0 := rfl
      simp only [Option.bind_some, Option.pure_def, Option.some.injEq,
        Prod.mk.injEq, decimal_map_digit hfront, hzero, List.length_nil,
        pow_zero, Nat.cast_zero, zero_div, add_zero] at hread
      obtain ⟨rfl, rfl⟩ := hread
      rcases readExponent_map_digit hrest hexponent with
        ⟨rfl, rfl⟩ | ⟨digits, rfl, hdigits, rfl⟩
      · rw [List.append_nil, zpow_zero, mul_one]
        exact .digits hfront
      · have hpower := NumberLike.exponent hfront hdigits
        push_cast at hpower
        rw [zpow_natCast]
        exact hpower

/-- A JSON reader takes hexadecimal digits for the number they spell when that
number is one decimal digit, and never otherwise. -/
theorem readUnsigned_halves_iff (hhalves : ∀ h ∈ halves, h < 16)
    (hlead : halves = [0] ∨ ∃ h rest, h ≠ 0 ∧ halves = h :: rest) :
    JsonText.readUnsigned (halves.map Hex.digit) =
      some ((numeral 16 halves : ℚ), []) ↔ numeral 16 halves < 10 := by
  constructor
  · intro hread
    have hlike := readUnsigned_map_digit hhalves hread
    generalize hvalue : ((numeral 16 halves : ℕ) : ℚ) = value at hlike
    cases hlike with
    | digits hwhole =>
        have heq := Nat.cast_injective hvalue
        rcases hlead with rfl | ⟨h, rest, hne, rfl⟩
        · decide
        · by_cases hmore : rest = []
          · subst hmore
            rw [numeral_singleton]
            exact hwhole h List.mem_cons_self
          · have := numeral_lt hne hmore
            omega
    | exponent hwhole hexponent =>
        have heq := Nat.cast_injective hvalue
        exact absurd heq.symm (exponent_ne _ hexponent)
  · intro hsmall
    obtain ⟨h, rfl, hlt⟩ : ∃ h, halves = [h] ∧ h < 10 := by
      rcases hlead with rfl | ⟨h, rest, hne, rfl⟩
      · exact ⟨0, rfl, by decide⟩
      · cases rest with
        | nil =>
            rw [numeral_singleton] at hsmall
            exact ⟨h, rfl, hsmall⟩
        | cons h' rest =>
            rw [numeral_cons, List.length_cons, Nat.pow_succ] at hsmall
            have hpos : 0 < 16 ^ rest.length := Nat.pow_pos (by decide)
            have hhigh : 1 * 16 ^ rest.length ≤ h * 16 ^ rest.length :=
              Nat.mul_le_mul_right _ (Nat.pos_of_ne_zero hne)
            rw [← Nat.mul_assoc] at hsmall
            omega
    have hdigits : ∀ d ∈ [h], d < 10 := by simpa using hlt
    have hdecimal := decimal_map_digit hdigits
    rw [List.map_singleton, numeral_singleton] at hdecimal
    rw [JsonText.readUnsigned, readDigits_map_digit hhalves, numeral_singleton]
    simp [hlt, hdecimal, JsonText.readFraction, JsonText.readExponent,
      show JsonText.decimal [] = 0 from rfl]

/-- The half bytes of a quantity: no zero in front, unless it is all. -/
def quantityHalves (bytes : List UInt8) : List Nat :=
  let halves := (bytes.flatMap halfBytes).dropWhile (· == 0)
  if halves = [] then [0] else halves

theorem hexOfHalfBytes_true (halves : List Nat) :
    hexOfHalfBytes .leftTrimQuantity true halves = halves.map Hex.digit := by
  induction halves with
  | nil => rfl
  | cons half halves ih => simp [hexOfHalfBytes, ih]

theorem hexOfHalfBytes_quantity (halves : List Nat) :
    hexOfHalfBytes .leftTrimQuantity false halves =
      (halves.dropWhile (· == 0)).map Hex.digit := by
  induction halves with
  | nil => rfl
  | cons half halves ih =>
      by_cases hzero : half = 0
      · simp [hexOfHalfBytes, hzero, ih]
      · simp [hexOfHalfBytes, hzero, hexOfHalfBytes_true]

theorem hexOfOctets_quantity_true (bytes : List UInt8) :
    hexOfOctets .leftTrimQuantity true bytes =
      (bytes.flatMap halfBytes).map Hex.digit := by
  induction bytes with
  | nil => rfl
  | cons octet bytes ih => simp [hexOfOctets, hexOfHalfBytes_true, ih]

theorem halfBytes_ne_zero {octet : UInt8} (hoctet : octet ≠ 0) :
    ∃ half ∈ halfBytes octet, half ≠ 0 := by
  have hnat : octet.toNat ≠ 0 := fun h => hoctet (UInt8.toNat_inj.mp h)
  by_cases hhigh : octet.toNat / 16 = 0
  · refine ⟨octet.toNat % 16, by simp [halfBytes], ?_⟩
    omega
  · exact ⟨octet.toNat / 16, by simp [halfBytes], hhigh⟩

theorem dropWhile_zero_append {front : List Nat} (rest : List Nat)
    (hfront : ∃ half ∈ front, half ≠ 0) :
    (front ++ rest).dropWhile (· == 0) = front.dropWhile (· == 0) ++ rest := by
  obtain ⟨half, hmem, hne⟩ := hfront
  rw [List.dropWhile_append, if_neg]
  simp only [List.isEmpty_iff, List.dropWhile_eq_nil_iff, not_forall]
  exact ⟨half, hmem, by simpa using hne⟩

theorem hexOfOctets_quantity (bytes : List UInt8) :
    hexOfOctets .leftTrimQuantity false bytes =
      ((bytes.flatMap halfBytes).dropWhile (· == 0)).map Hex.digit := by
  induction bytes with
  | nil => rfl
  | cons octet bytes ih =>
      rw [List.flatMap_cons, hexOfOctets]
      by_cases hzero : octet = 0
      · subst hzero
        simpa [halfBytes] using ih
      · rw [dropWhile_zero_append _ (halfBytes_ne_zero hzero), List.map_append,
          hexOfHalfBytes_quantity, hexOfOctets_quantity_true]
        simp [hzero]

/-- A quantity is written with the digits of its half bytes. -/
theorem utilityBinToHex_quantity {bytes : List UInt8} (hbytes : bytes ≠ []) :
    utilityBinToHex bytes .leftTrimQuantity false false =
      (quantityHalves bytes).map Hex.digit := by
  have hlength : bytes.length ≠ 0 := by simpa using hbytes
  have hmode : (Bin2HexTrimMode.leftTrimQuantity == .leftTrimUnfmtData) =
      false := rfl
  rw [utilityBinToHex, if_neg hlength, quantityHalves, hmode,
    hexOfOctets_quantity]
  simp only [List.length_map, List.length_eq_zero_iff]
  split <;> simp [Hex.digit]

theorem numeral_flatMap_halfBytes (bytes : List UInt8) :
    numeral 16 (bytes.flatMap halfBytes) = ofBigEndian bytes := by
  induction bytes with
  | nil => rfl
  | cons octet bytes ih =>
      have hlength : (bytes.flatMap halfBytes).length = 2 * bytes.length := by
        simp [List.length_flatMap, halfBytes, Nat.mul_comm]
      have hoctet : numeral 16 (halfBytes octet) = octet.toNat := by
        rw [halfBytes, numeral_cons, numeral_singleton, List.length_singleton]
        omega
      rw [List.flatMap_cons, numeral_append, ih, hlength, hoctet,
        ofBigEndian_cons, Nat.pow_mul]

theorem numeral_dropWhile_zero (halves : List Nat) :
    numeral 16 (halves.dropWhile (· == 0)) = numeral 16 halves := by
  induction halves with
  | nil => rfl
  | cons half halves ih =>
      by_cases hzero : half = 0
      · subst hzero
        rw [numeral_cons, Nat.zero_mul, Nat.zero_add, ← ih]
        rfl
      · simp [hzero]

theorem numeral_quantityHalves (bytes : List UInt8) :
    numeral 16 (quantityHalves bytes) = ofBigEndian bytes := by
  have hvalue := numeral_dropWhile_zero (bytes.flatMap halfBytes)
  rw [numeral_flatMap_halfBytes] at hvalue
  rw [← hvalue, quantityHalves]
  split
  next hnil =>
    rw [hnil]
    rfl
  next => rfl

theorem quantityHalves_lt (bytes : List UInt8) :
    ∀ h ∈ quantityHalves bytes, h < 16 := by
  have hall : ∀ h ∈ bytes.flatMap halfBytes, h < 16 := by
    intro h hmem
    obtain ⟨octet, -, hhalf⟩ := List.mem_flatMap.mp hmem
    have hoctet := octet.toNat_lt
    simp only [halfBytes, List.mem_cons, List.not_mem_nil, or_false] at hhalf
    omega
  intro h hmem
  rw [quantityHalves] at hmem
  split at hmem
  · simp only [List.mem_singleton] at hmem
    omega
  · exact hall h ((List.dropWhile_suffix _).subset hmem)

theorem quantityHalves_lead (bytes : List UInt8) :
    quantityHalves bytes = [0] ∨
      ∃ h rest, h ≠ 0 ∧ quantityHalves bytes = h :: rest := by
  rw [quantityHalves]
  split
  · exact .inl rfl
  next hne =>
    obtain ⟨h, rest, hcons⟩ := List.exists_cons_of_ne_nil hne
    refine .inr ⟨h, rest, ?_, hcons⟩
    have hhead := List.head_dropWhile_not (· == 0) hne
    simpa [hcons] using hhead

/-- A JSON reader takes the text of a quantity for the quantity when it is one
decimal digit, and never otherwise. -/
theorem readUnsigned_quantity_iff (bytes : List UInt8) :
    JsonText.readUnsigned ((quantityHalves bytes).map Hex.digit) =
      some ((ofBigEndian bytes : ℚ), []) ↔ ofBigEndian bytes < 10 := by
  rw [← numeral_quantityHalves]
  exact readUnsigned_halves_iff (quantityHalves_lt bytes)
    (quantityHalves_lead bytes)

end BoatFramework
