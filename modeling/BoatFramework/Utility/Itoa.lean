/-
`Utility_itoa`.  The digits are taken from a table of 16, the last first, and
the string is then reversed in place; a negative number has its sign in radix 10
and is taken as unsigned in any other.
-/
import Mathlib.Data.Nat.Digits.Lemmas
import BoatFramework.Base.Exec
import BoatFramework.Base.Swap
import BoatFramework.Utility.CString
import BoatFramework.Utility.Tlv

namespace BoatFramework

open Swap

/-- `index`, with its terminator. -/
def itoaIndex : List UInt8 :=
  asciiBytes "0123456789ABCDEF".toList ++ [0]

/-- The sign that is written, and `unum`.  In radix 10 the least number has no
negative. -/
def itoaUnum (num : Int32) (radix : Nat) : Outcome (List UInt8 × Nat) :=
  if radix = 10 ∧ num.toInt < 0 then
    if num.toInt = -2 ^ 31 then .error .undefined
    else .ok ([0x2D], asBuint32 (-num.toInt))
  else .ok ([], asBuint32 num.toInt)

/-- The loop over the digits, in at most that many rounds. -/
def itoaDigits (radix : Nat) :
    Nat → Nat → List UInt8 → Option (Outcome (List UInt8))
  | 0, _, _ => none
  | rounds + 1, unum, str =>
      match byteAt itoaIndex (unum % radix) with
      | .error failure => some (.error failure)
      | .ok digit =>
          if unum / radix ≠ 0 then
            itoaDigits radix rounds (unum / radix) (str ++ [digit])
          else some (.ok (str ++ [digit]))

/-- The string, terminated and with its digits reversed. -/
def itoaReverse (str : List UInt8) : Outcome (List UInt8) :=
  let i := str.length
  let k := if (str ++ [0])[0]? = some (0x2D : UInt8) then 1 else 0
  match (List.range' k ((i - 1) / 2 + 1 - k)).foldlM
      (fun str j => exchange str j (i - 1 + k - j)) (str ++ [0]) with
  | some str => .ok str
  | none => .error .undefined

/-- `Utility_itoa`: what is written to `str`. -/
def utilityItoa (num : Int32) (radix : Nat) : Option (Outcome (List UInt8)) :=
  match itoaUnum num radix with
  | .error failure => some (.error failure)
  | .ok (sign, unum) =>
      match itoaDigits radix 32 unum sign with
      | none => none
      | some (.error failure) => some (.error failure)
      | some (.ok str) => some (itoaReverse str)

example : utilityItoa (-2026) 10 =
    some (.ok (asciiBytes "-2026".toList ++ [0])) := by decide +kernel

/-- The character of a digit of any radix up to 36. -/
def digitChar (digit : Nat) : UInt8 :=
  if digit < 10 then UInt8.ofNat (48 + digit) else UInt8.ofNat (55 + digit)

/-- The digits of a number, the most significant first and none of them
superfluous. -/
structure SpellsInRadix (radix magnitude : Nat) (digits : List Nat) : Prop where
  nonempty : digits ≠ []
  digit_lt : ∀ digit ∈ digits, digit < radix
  value : Nat.ofDigits radix digits.reverse = magnitude
  no_leading_zero : digits.head? = some 0 → digits = [0]

def signBytes (negative : Bool) : List UInt8 :=
  if negative then [0x2D] else []

/-- A sign and the digits, terminated. -/
def signedText (negative : Bool) (digits : List Nat) : List UInt8 :=
  signBytes negative ++ (digits.map digitChar ++ [0])

/-- The number whose digits are written: a negative number is taken as unsigned
outside radix 10. -/
def itoaMagnitude (num : Int32) (radix : Nat) : Nat :=
  if radix = 10 then num.toInt.natAbs else asBuint32 num.toInt

/-- Whether a sign is promised: it is in radix 10. -/
def itoaNegative (num : Int32) (radix : Nat) : Bool :=
  radix = 10 ∧ num.toInt < 0

/-- The string that the comments of `Utility_itoa` promise. -/
def WritesDocumented (num : Int32) (radix : Nat) (text : List UInt8) : Prop :=
  ∃ digits, SpellsInRadix radix (itoaMagnitude num radix) digits ∧
    text = signedText (itoaNegative num radix) digits

/-- The string is the number itself, with its sign. -/
def WritesNumber (num : Int32) (radix : Nat) (text : List UInt8) : Prop :=
  ∃ digits, SpellsInRadix radix num.toInt.natAbs digits ∧
    text = signedText (num.toInt < 0) digits

/-- The digits in the order in which the loop takes them. -/
def takenDigits (radix unum : Nat) : List Nat :=
  if unum = 0 then [0] else Nat.digits radix unum

theorem takenDigits_eq {radix : Nat} (hradix : 2 ≤ radix) (unum : Nat) :
    takenDigits radix unum = unum % radix ::
      if unum / radix ≠ 0 then takenDigits radix (unum / radix) else [] := by
  unfold takenDigits
  by_cases hzero : unum = 0
  · rw [if_pos hzero, hzero]
    simp
  · rw [if_neg hzero, Nat.digits_def' (by omega) (by omega)]
    by_cases hrest : unum / radix = 0
    · simp [hrest]
    · simp [hrest]

/-- The digits that are taken spell the number. -/
theorem spellsInRadix_takenDigits {radix : Nat} (hradix : 2 ≤ radix) (unum : Nat) :
    SpellsInRadix radix unum (takenDigits radix unum).reverse := by
  by_cases hzero : unum = 0
  · rw [hzero]
    exact ⟨by simp [takenDigits], by simp [takenDigits]; omega,
      by simp [takenDigits], by simp [takenDigits]⟩
  · have htaken : takenDigits radix unum = Nat.digits radix unum :=
      if_neg hzero
    have hnonempty : Nat.digits radix unum ≠ [] :=
      Nat.digits_ne_nil_iff_ne_zero.mpr hzero
    rw [htaken]
    refine ⟨?_, ?_, ?_, ?_⟩
    · exact List.reverse_eq_nil_iff.not.mpr hnonempty
    · intro digit hdigit
      exact Nat.digits_lt_base (by omega) (List.mem_reverse.mp hdigit)
    · rw [List.reverse_reverse, Nat.ofDigits_digits]
    · intro hhead
      rw [List.head?_reverse, List.getLast?_eq_some_getLast hnonempty]
        at hhead
      exact absurd (Option.some.inj hhead)
        (Nat.getLast_digit_ne_zero radix hzero)

/-- The loop writes the digits through the table. -/
theorem itoaDigits_taken {radix rounds unum : Nat} (hradix : 2 ≤ radix)
    (hrounds : 0 < rounds) (hunum : unum < 2 ^ rounds) (str : List UInt8) :
    itoaDigits radix rounds unum str =
      some ((takenDigits radix unum).mapM (byteAt itoaIndex) >>=
        fun written => .ok (str ++ written)) := by
  induction rounds generalizing unum str with
  | zero => exact absurd hrounds (Nat.lt_irrefl 0)
  | succ rounds ih =>
      rw [takenDigits_eq hradix, itoaDigits, List.mapM_cons]
      cases byteAt itoaIndex (unum % radix) with
      | error failure => rfl
      | ok digit =>
          simp only [Exec.except_ok_bind]
          by_cases hrest : unum / radix = 0
          · rw [if_neg (not_not.mpr hrest), if_neg (not_not.mpr hrest)]
            rfl
          · have hsmall : unum / radix < 2 ^ rounds := by
              apply Nat.div_lt_of_lt_mul
              calc unum < 2 * 2 ^ rounds := by
                    rw [pow_succ'] at hunum
                    exact hunum
                _ ≤ radix * 2 ^ rounds := Nat.mul_le_mul_right _ hradix
            have hmore : 0 < rounds := by
              apply Nat.pos_of_ne_zero
              rintro rfl
              exact hrest (Nat.lt_one_iff.mp hsmall)
            rw [if_pos hrest, if_pos hrest, ih hmore hsmall]
            cases (takenDigits radix (unum / radix)).mapM
                (byteAt itoaIndex) with
            | error failure => rfl
            | ok written =>
                simp only [Exec.except_ok_bind, List.append_assoc]
                rfl

/-- The table's byte for a digit; behind its 16 digits stands the terminator. -/
def tableByte (digit : Nat) : UInt8 :=
  if digit < 16 then digitChar digit else 0

theorem byteAt_itoaIndex : ∀ digit ≤ 16,
    byteAt itoaIndex digit = .ok (tableByte digit) := by
  decide +kernel

theorem le_of_byteAt_itoaIndex {digit : Nat} {byte : UInt8}
    (hbyte : byteAt itoaIndex digit = .ok byte) : digit ≤ 16 := by
  unfold byteAt at hbyte
  split at hbyte
  next byte' hentry =>
    have hlt := (List.getElem?_eq_some_iff.mp hentry).1
    have hlength : itoaIndex.length = 17 := by
      decide +kernel
    omega
  next => cases hbyte

theorem digitChar_ne : ∀ digit < 36,
    digitChar digit ≠ 0 ∧ digitChar digit ≠ 0x2D := by
  decide

theorem tableByte_ne_minus : ∀ digit ≤ 16, tableByte digit ≠ 0x2D := by
  decide

/-- Digits the table has a byte for are written with these bytes. -/
theorem mapM_itoaIndex {digits : List Nat} {written : List UInt8}
    (hwritten : digits.mapM (byteAt itoaIndex) = .ok written) :
    written = digits.map tableByte ∧ ∀ digit ∈ digits, digit ≤ 16 := by
  obtain ⟨-, hbytes⟩ := Exec.except_mapM_eq_ok hwritten
  have hle : ∀ digit ∈ digits, digit ≤ 16 := by
    intro digit hdigit
    obtain ⟨byte, hbyte⟩ := hbytes digit hdigit
    exact le_of_byteAt_itoaIndex hbyte
  have hmap := Exec.except_mapM_ok fun digit hdigit =>
    byteAt_itoaIndex digit (hle digit hdigit)
  rw [hwritten] at hmap
  exact ⟨Except.ok.inj hmap, hle⟩

/-- The digits behind the sign are reversed. -/
theorem itoaReverse_signed (negative : Bool) {written : List UInt8}
    (hnonempty : written ≠ []) (hminus : (0x2D : UInt8) ∉ written) :
    itoaReverse (signBytes negative ++ written) =
      .ok (signBytes negative ++ (written.reverse ++ [0])) := by
  have hpos : 0 < written.length := List.length_pos_iff.mpr hnonempty
  have hk : (if (signBytes negative ++ written ++ [0])[0]? =
      some (0x2D : UInt8) then 1 else 0) = (signBytes negative).length := by
    cases negative with
    | true => rfl
    | false =>
        obtain ⟨first, rest, rfl⟩ := List.exists_cons_of_ne_nil hnonempty
        rw [if_neg]
        · rfl
        · intro hfirst
          obtain rfl : first = 0x2D := Option.some.inj hfirst
          exact hminus List.mem_cons_self
  have hsign : (signBytes negative).length ≤ 1 := by
    cases negative <;> decide
  have hsegment := @foldlM_exchange_segment UInt8 (signBytes negative) written
    [0] ((signBytes negative ++ written).length - 1 +
      (signBytes negative).length)
    (((signBytes negative ++ written).length - 1) / 2 + 1 -
      (signBytes negative).length)
    (by rw [List.length_append]; omega) (by rw [List.length_append]; omega)
  unfold itoaReverse
  simp only [hk]
  rw [List.append_assoc, hsegment]

theorem itoaMagnitude_lt (num : Int32) (radix : Nat) :
    itoaMagnitude num radix < 2 ^ 32 := by
  have hlow := num.le_toInt
  have hhigh := num.toInt_lt
  unfold itoaMagnitude asBuint32
  split <;> omega

theorem itoaUnum_eq {num : Int32} {radix : Nat}
    (hnegative : ¬ (radix = 10 ∧ num.toInt = -2 ^ 31)) :
    itoaUnum num radix =
      .ok (signBytes (itoaNegative num radix), itoaMagnitude num radix) := by
  have hlow := num.le_toInt
  have hhigh := num.toInt_lt
  unfold itoaUnum itoaNegative itoaMagnitude
  by_cases hten : radix = 10
  · have hleast : ¬ num.toInt = -2147483648 := fun hnum =>
      hnegative ⟨hten, hnum⟩
    by_cases hsign : num.toInt < 0
    · have hmagnitude : asBuint32 (-num.toInt) = num.toInt.natAbs := by
        unfold asBuint32
        omega
      simp [hten, hsign, hleast, hmagnitude, signBytes]
    · have hmagnitude : asBuint32 num.toInt = num.toInt.natAbs := by
        unfold asBuint32
        omega
      simp [hten, hsign, hmagnitude, signBytes]
  · simp [hten, signBytes]

/-- A run that has a number to write is that of the digits through the table. -/
theorem utilityItoa_run {num : Int32} {radix : Nat} (hradix : 2 ≤ radix)
    (hnegative : ¬ (radix = 10 ∧ num.toInt = -2 ^ 31)) :
    utilityItoa num radix =
      some ((takenDigits radix (itoaMagnitude num radix)).mapM
        (byteAt itoaIndex) >>= fun written =>
          .ok (signBytes (itoaNegative num radix) ++
            (written.reverse ++ [0]))) := by
  rw [utilityItoa, itoaUnum_eq hnegative]
  simp only
  rw [itoaDigits_taken hradix (by decide) (itoaMagnitude_lt num radix)]
  cases hwritten : (takenDigits radix (itoaMagnitude num radix)).mapM
      (byteAt itoaIndex) with
  | error failure => rfl
  | ok written =>
      obtain ⟨rfl, hle⟩ := mapM_itoaIndex hwritten
      have hnonempty : (takenDigits radix (itoaMagnitude num radix)).map
          tableByte ≠ [] := by
        rw [takenDigits_eq hradix]
        exact List.cons_ne_nil _ _
      have hminus : (0x2D : UInt8) ∉
          (takenDigits radix (itoaMagnitude num radix)).map tableByte := by
        intro hmem
        obtain ⟨digit, hdigit, hbyte⟩ := List.mem_map.mp hmem
        exact tableByte_ne_minus digit (hle digit hdigit) hbyte
      simp only [Exec.except_ok_bind]
      rw [itoaReverse_signed _ hnonempty hminus]

/-- The number has a negative where one is taken, and the table covers its
digits. -/
def ItoaCovers (num : Int32) (radix : Nat) : Prop :=
  ¬ (radix = 10 ∧ num.toInt = -2 ^ 31) ∧
    ∀ digit ∈ Nat.digits radix (itoaMagnitude num radix), digit < 16

theorem takenDigits_lt {radix unum : Nat}
    (hcovered : ∀ digit ∈ Nat.digits radix unum, digit < 16) :
    ∀ digit ∈ takenDigits radix unum, digit < 16 := by
  unfold takenDigits
  split
  · decide
  · exact hcovered

theorem digits_lt_of_taken {radix unum : Nat}
    (htaken : ∀ digit ∈ takenDigits radix unum, digit < 16) :
    ∀ digit ∈ Nat.digits radix unum, digit < 16 := by
  intro digit hdigit
  have hne : unum ≠ 0 :=
    Nat.digits_ne_nil_iff_ne_zero.mp (List.ne_nil_of_mem hdigit)
  apply htaken
  rw [takenDigits, if_neg hne]
  exact hdigit

/-- What is written where the table covers the digits. -/
theorem utilityItoa_covered {num : Int32} {radix : Nat} (hradix : 2 ≤ radix)
    (hcovers : ItoaCovers num radix) :
    ∃ text, utilityItoa num radix = some (.ok text) ∧
      WritesDocumented num radix text := by
  obtain ⟨hnegative, hcovered⟩ := hcovers
  have hlt := takenDigits_lt hcovered
  have hwritten : (takenDigits radix (itoaMagnitude num radix)).mapM
      (byteAt itoaIndex) =
        .ok ((takenDigits radix (itoaMagnitude num radix)).map digitChar) := by
    apply Exec.except_mapM_ok
    intro digit hdigit
    rw [byteAt_itoaIndex digit (Nat.le_of_lt (hlt digit hdigit)), tableByte,
      if_pos (hlt digit hdigit)]
  rw [utilityItoa_run hradix hnegative, hwritten]
  refine ⟨_, rfl, _, spellsInRadix_takenDigits hradix _, ?_⟩
  rw [signedText, List.map_reverse]

/-- A string whose bytes are all of digits has been taken from the table's
digits. -/
theorem covered_of_digitChars {radix unum : Nat} {written : List UInt8}
    {digits : List Nat} (hdigits : ∀ digit ∈ digits, digit < 36)
    (hwritten : (takenDigits radix unum).mapM (byteAt itoaIndex) =
      .ok written)
    (hsame : written.reverse = digits.map digitChar) :
    ∀ digit ∈ Nat.digits radix unum, digit < 16 := by
  obtain ⟨rfl, -⟩ := mapM_itoaIndex hwritten
  apply digits_lt_of_taken
  intro digit hdigit
  have hmem : tableByte digit ∈ digits.map digitChar := by
    rw [← hsame, List.mem_reverse]
    exact List.mem_map_of_mem hdigit
  obtain ⟨other, hother, hbyte⟩ := List.mem_map.mp hmem
  by_contra hhigh
  rw [tableByte, if_neg hhigh] at hbyte
  exact (digitChar_ne other (hdigits other hother)).1 hbyte

/-- A run that ends with a string. -/
theorem utilityItoa_eq_ok {num : Int32} {radix : Nat} {text : List UInt8}
    (hradix : 2 ≤ radix) (hrun : utilityItoa num radix = some (.ok text)) :
    ¬ (radix = 10 ∧ num.toInt = -2 ^ 31) ∧
      ∃ written, (takenDigits radix (itoaMagnitude num radix)).mapM
          (byteAt itoaIndex) = .ok written ∧
        text = signBytes (itoaNegative num radix) ++
          (written.reverse ++ [0]) := by
  have hnegative : ¬ (radix = 10 ∧ num.toInt = -2 ^ 31) := by
    intro hleast
    have hunum : itoaUnum num radix = .error .undefined := by
      have hsign : num.toInt < 0 := by
        omega
      rw [itoaUnum, if_pos ⟨hleast.1, hsign⟩, if_pos hleast.2]
    rw [utilityItoa, hunum] at hrun
    cases Option.some.inj hrun
  rw [utilityItoa_run hradix hnegative] at hrun
  obtain ⟨written, hwritten, htext⟩ :=
    Exec.except_bind_eq_ok.mp (Option.some.inj hrun)
  exact ⟨hnegative, written, hwritten, (Except.ok.inj htext).symm⟩

theorem utilityItoa_documented_only {num : Int32} {radix : Nat}
    {text : List UInt8} (hlow : 2 ≤ radix) (hhigh : radix ≤ 36)
    (hrun : utilityItoa num radix = some (.ok text))
    (hdocumented : WritesDocumented num radix text) :
    ItoaCovers num radix := by
  obtain ⟨hnegative, written, hwritten, rfl⟩ := utilityItoa_eq_ok hlow hrun
  obtain ⟨digits, hspells, htext⟩ := hdocumented
  have hsame := List.append_cancel_right (List.append_cancel_left htext)
  exact ⟨hnegative, covered_of_digitChars
    (fun digit hdigit => Nat.lt_of_lt_of_le (hspells.digit_lt digit hdigit)
      hhigh) hwritten hsame⟩

/-- In radix 10, and for a number that is not negative, the string promised is
the number. -/
theorem writesNumber_iff_documented {num : Int32} {radix : Nat}
    (hsigned : 0 ≤ num.toInt ∨ radix = 10) (text : List UInt8) :
    WritesNumber num radix text ↔ WritesDocumented num radix text := by
  have hhigh := num.toInt_lt
  have hmagnitude : itoaMagnitude num radix = num.toInt.natAbs := by
    unfold itoaMagnitude asBuint32
    split <;> omega
  have hnegative : itoaNegative num radix = decide (num.toInt < 0) := by
    unfold itoaNegative
    rcases hsigned with hpos | rfl
    · simp [Int.not_lt.mpr hpos]
    · simp
  rw [WritesNumber, WritesDocumented, hmagnitude, hnegative]

/-- A negative number outside radix 10 is written without its sign. -/
theorem not_writesNumber {num : Int32} {radix : Nat} {text : List UInt8}
    (hradix : 2 ≤ radix) (hnum : num.toInt < 0) (hother : radix ≠ 10)
    (hrun : utilityItoa num radix = some (.ok text)) :
    ¬ WritesNumber num radix text := by
  rintro ⟨digits, -, htext⟩
  obtain ⟨-, written, hwritten, rfl⟩ := utilityItoa_eq_ok hradix hrun
  obtain ⟨rfl, hle⟩ := mapM_itoaIndex hwritten
  have hunsigned : signBytes (itoaNegative num radix) = [] := by
    simp [itoaNegative, hother, signBytes]
  have hsigned : signBytes (decide (num.toInt < 0)) = [0x2D] := by
    simp [hnum, signBytes]
  rw [signedText, hunsigned, hsigned, List.nil_append] at htext
  have hmem : (0x2D : UInt8) ∈ ((takenDigits radix
      (itoaMagnitude num radix)).map tableByte).reverse ++ [0] := by
    rw [htext]
    exact List.mem_cons_self
  rcases List.mem_append.mp hmem with hdigit | hzero
  · obtain ⟨digit, hdigit, hbyte⟩ :=
      List.mem_map.mp (List.mem_reverse.mp hdigit)
    exact tableByte_ne_minus digit (hle digit hdigit) hbyte
  · exact absurd hzero (by decide)

/-- The string is the one the comments promise when the number has a negative
and the table covers its digits; it is the number itself when besides it is not
a negative number outside radix 10. -/
theorem utilityItoa_documented_iff (num : Int32) {radix : Nat}
    (hlow : 2 ≤ radix) (hhigh : radix ≤ 36) :
    ((∃ text, utilityItoa num radix = some (.ok text) ∧
        WritesDocumented num radix text) ↔ ItoaCovers num radix) ∧
    ((∃ text, utilityItoa num radix = some (.ok text) ∧
        WritesNumber num radix text) ↔
      ItoaCovers num radix ∧ (0 ≤ num.toInt ∨ radix = 10)) := by
  refine ⟨⟨?_, utilityItoa_covered hlow⟩, ?_, ?_⟩
  · rintro ⟨text, hrun, hdocumented⟩
    exact utilityItoa_documented_only hlow hhigh hrun hdocumented
  · rintro ⟨text, hrun, hnumber⟩
    have hsigned : 0 ≤ num.toInt ∨ radix = 10 := by
      by_contra hnone
      obtain ⟨hnum, hother⟩ := not_or.mp hnone
      exact not_writesNumber hlow (Int.not_le.mp hnum) hother hrun hnumber
    have hdocumented :=
      (writesNumber_iff_documented hsigned text).mp hnumber
    exact ⟨utilityItoa_documented_only hlow hhigh hrun hdocumented, hsigned⟩
  · rintro ⟨hcovers, hsigned⟩
    obtain ⟨text, hrun, hdocumented⟩ := utilityItoa_covered hlow hcovers
    exact ⟨text, hrun, (writesNumber_iff_documented hsigned text).mpr
      hdocumented⟩

theorem utilityItoa_documented_iff_least :
    ((∃ text, utilityItoa (-2147483648) 16 = some (.ok text) ∧
        WritesDocumented (-2147483648) 16 text) ↔
      ItoaCovers (-2147483648) 16) ∧
    ((∃ text, utilityItoa (-2147483648) 16 = some (.ok text) ∧
        WritesNumber (-2147483648) 16 text) ↔
      ItoaCovers (-2147483648) 16 ∧
        (0 ≤ (-2147483648 : Int32).toInt ∨ 16 = 10)) :=
  utilityItoa_documented_iff (-2147483648) (by decide) (by decide)

/-- 16 in radix 17 is the terminator of the table, and 35 in radix 36 is read
behind it. -/
theorem not_utilityItoa_documented :
    utilityItoa 16 17 = some (.ok [0, 0]) ∧
    utilityItoa 35 36 = some (.error .undefined) ∧
    ¬ ∀ (num : Int32) (radix : Nat), 2 ≤ radix → radix ≤ 36 →
      ∃ text, utilityItoa num radix = some (.ok text) ∧
        WritesDocumented num radix text := by
  have hbehind : utilityItoa 35 36 = some (.error .undefined) := by
    decide +kernel
  refine ⟨by decide +kernel, hbehind, ?_⟩
  intro hall
  obtain ⟨text, hrun, -⟩ := hall 35 36 (by decide) (by decide)
  rw [hbehind] at hrun
  cases Option.some.inj hrun

end BoatFramework
