/-
`UtilityBinToHex` and `UtilityHexToBin`, with their trimming modes.
-/
import BoatFramework.Base.Hex
import BoatFramework.Utility.Bigend

namespace BoatFramework

open ByteString

inductive Bin2HexTrimMode where
  | leftTrimUnfmtData
  | leftTrimQuantity
  | leftTrimTwoHexPerByte
deriving DecidableEq

/-- The half bytes of one octet, high half first. -/
def halfBytes (octet : UInt8) : List Nat :=
  [octet.toNat / 16, octet.toNat % 16]

/-- The loop of `UtilityBinToHex` over the half bytes of one octet. -/
def hexOfHalfBytes (trimMode : Bin2HexTrimMode) : Bool → List Nat → List Char
  | _, [] => []
  | trimDone, half :: rest =>
      if !trimDone && trimMode == .leftTrimQuantity && half == 0 then
        hexOfHalfBytes trimMode trimDone rest
      else Hex.digit half :: hexOfHalfBytes trimMode true rest

/-- The loop of `UtilityBinToHex` over the octets. -/
def hexOfOctets (trimMode : Bin2HexTrimMode) : Bool → List UInt8 → List Char
  | _, [] => []
  | trimDone, octet :: rest =>
      if !trimDone && octet == 0 then hexOfOctets trimMode trimDone rest
      else
        hexOfHalfBytes trimMode trimDone (halfBytes octet) ++
          hexOfOctets trimMode true rest

/-- The string `UtilityBinToHex` leaves at `to_str`. -/
def utilityBinToHex (fromBytes : List UInt8) (trimMode : Bin2HexTrimMode)
    (hexPrefix zeroAsNull : Bool) : List Char :=
  if fromBytes.length = 0 then []
  else
    let lead := if hexPrefix then ['0', 'x'] else []
    let digits :=
      hexOfOctets trimMode (trimMode == .leftTrimUnfmtData) fromBytes
    if digits.length = 0 then
      if zeroAsNull then []
      else if trimMode = .leftTrimQuantity then lead ++ ['0']
      else lead ++ ['0', '0']
    else lead ++ digits

/-- The loop of `UtilityHexToBin`: the bytes it writes and whether it came
through.  `position` is `from_offset`, `octet` the half byte kept from the step
before, `room` what is left of `to_size`. -/
def hexToBinLoop (oddFlag : Nat) :
    List Char → Nat → Nat → Bool → Nat → List UInt8 × Bool
  | [], _, _, _, _ => ([], true)
  | c :: rest, position, octet, trimDone, room =>
      match Hex.value c with
      | none => ([], false)
      | some half =>
          if position % 2 = oddFlag then
            hexToBinLoop oddFlag rest (position + 1) (half * 16) trimDone room
          else if !trimDone && octet + half == 0 then
            hexToBinLoop oddFlag rest (position + 1) (octet + half) trimDone
              room
          else if room ≤ 1 then ([UInt8.ofNat (octet + half)], true)
          else
            let (bytes, valid) := hexToBinLoop oddFlag rest (position + 1)
              (octet + half) true (room - 1)
            (UInt8.ofNat (octet + half) :: bytes, valid)

/-- Where the digits start: behind `0x` or `0X` in a text longer than that. -/
def hexStart (fromStr : List Char) : Nat :=
  if 2 < fromStr.length ∧ fromStr.head? = some '0' ∧
      (fromStr[1]? = some 'x' ∨ fromStr[1]? = some 'X') then 2
  else 0

/-- A text that is not hexadecimal returns the length zero. -/
def hexToBinResult (zeroAsNull : Bool) : List UInt8 × Bool → List UInt8 × Nat
  | (bytes, false) => (bytes, 0)
  | (bytes, true) =>
      if bytes.length = 0 ∧ zeroAsNull = false then ([0], 1)
      else (bytes, bytes.length)

/-- The bytes `UtilityHexToBin` writes at `to_ptr` and the length it returns. -/
def utilityHexToBin (toSize : Nat) (fromStr : List Char)
    (trimMode : TrimbinTrimMode) (zeroAsNull : Bool) : List UInt8 × Nat :=
  if toSize = 0 then ([], 0)
  else
    hexToBinResult zeroAsNull
      (hexToBinLoop (fromStr.length % 2) (fromStr.drop (hexStart fromStr))
        (hexStart fromStr) 0 (trimMode == .trimNo) toSize)

theorem hexOfOctets_true (trimMode : Bin2HexTrimMode) (bytes : List UInt8) :
    hexOfOctets trimMode true bytes = Hex.toHex bytes := by
  induction bytes with
  | nil => rfl
  | cons octet bytes ih =>
      simp [hexOfOctets, hexOfHalfBytes, halfBytes, Hex.toHex, ih]

/-- Unformatted data keeps all its octets behind the lead. -/
theorem utilityBinToHex_unfmtData {bytes : List UInt8} (hbytes : bytes ≠ [])
    (zeroAsNull : Bool) :
    utilityBinToHex bytes .leftTrimUnfmtData true zeroAsNull =
      '0' :: 'x' :: Hex.toHex bytes := by
  have hlength : bytes.length ≠ 0 := by simpa using hbytes
  have hdigits : (Hex.toHex bytes).length ≠ 0 := by
    rw [Hex.length_toHex]
    omega
  have hmode : (Bin2HexTrimMode.leftTrimUnfmtData == .leftTrimUnfmtData) =
      true := rfl
  simp only [utilityBinToHex, hlength, hmode, hexOfOctets_true, hdigits,
    ↓reduceIte, List.cons_append, List.nil_append]

theorem utilityBinToHex_bare (bytes : List UInt8) :
    utilityBinToHex bytes .leftTrimUnfmtData false false = Hex.toHex bytes := by
  cases bytes with
  | nil => rfl
  | cons byte bytes =>
      have hmode : (Bin2HexTrimMode.leftTrimUnfmtData == .leftTrimUnfmtData) =
          true := rfl
      have hdigits : (Hex.toHex (byte :: bytes)).length ≠ 0 := by
        rw [Hex.length_toHex, List.length_cons]
        omega
      rw [utilityBinToHex, if_neg (by simp), hmode, hexOfOctets_true,
        if_neg hdigits]
      rfl

theorem hexToBinLoop_canonical (oddFlag : Nat) (text : List Char)
    (position octet room : Nat) (hoctet : octet ≤ 240) :
    Canonical (hexToBinLoop oddFlag text position octet false room).1 := by
  induction text generalizing position octet with
  | nil => exact canonical_nil
  | cons c rest ih =>
      rw [hexToBinLoop]
      cases hvalue : Hex.value c with
      | none => exact canonical_nil
      | some half =>
          have hhalf := Hex.value_lt hvalue
          have hbyte (hpos : octet + half ≠ 0) :
              UInt8.ofNat (octet + half) ≠ 0 := by
            intro hzero
            have hnat := congrArg UInt8.toNat hzero
            rw [UInt8.toNat_ofNat', UInt8.toNat_zero] at hnat
            omega
          by_cases hhigh : position % 2 = oddFlag
          · simpa [hhigh] using ih (position + 1) (half * 16) (by omega)
          · by_cases hzero : octet + half = 0
            · simpa [hhigh, hzero] using ih (position + 1) 0 (by omega)
            · by_cases hroom : room ≤ 1
              · simp only [hhigh, hzero, hroom, beq_iff_eq, Bool.not_false,
                  Bool.true_and, ↓reduceIte]
                exact (canonical_cons_iff _ _).mpr (hbyte hzero)
              · simp only [hhigh, hzero, hroom, beq_iff_eq, Bool.not_false,
                  Bool.true_and, ↓reduceIte]
                exact (canonical_cons_iff _ _).mpr (hbyte hzero)

theorem canonical_take {bytes : List UInt8} (hbytes : Canonical bytes)
    (len : Nat) : Canonical (bytes.take len) := by
  cases bytes with
  | nil => simpa using hbytes
  | cons byte bytes =>
      cases len with
      | zero => simpa using canonical_nil
      | succ len =>
          rw [List.take_succ_cons, canonical_cons_iff]
          exact (canonical_cons_iff byte bytes).mp hbytes

/-- A number read with leading zeros trimmed and zero as the empty string is
canonical, whatever the text. -/
theorem utilityHexToBin_canonical (toSize : Nat) (fromStr : List Char) :
    Canonical ((utilityHexToBin toSize fromStr .leftTrim true).1.take
      (utilityHexToBin toSize fromStr .leftTrim true).2) := by
  unfold utilityHexToBin
  split
  · exact canonical_nil
  · have hloop := hexToBinLoop_canonical (fromStr.length % 2)
      (fromStr.drop (hexStart fromStr)) (hexStart fromStr) 0 toSize (by omega)
    have hmode : (TrimbinTrimMode.leftTrim == .trimNo) = false := rfl
    rw [hmode]
    match hbytes : hexToBinLoop (fromStr.length % 2)
        (fromStr.drop (hexStart fromStr)) (hexStart fromStr) 0 false
        toSize with
    | (bytes, false) => exact canonical_nil
    | (bytes, true) =>
        rw [hbytes] at hloop
        have hresult : hexToBinResult true (bytes, true) =
            (bytes, bytes.length) := by
          simp [hexToBinResult]
        rw [hresult]
        exact canonical_take hloop _

theorem hexToBinLoop_length (oddFlag : Nat) (text : List Char)
    (position octet : Nat) (trimDone : Bool) (room : Nat) (hroom : 0 < room) :
    (hexToBinLoop oddFlag text position octet trimDone room).1.length ≤
      room := by
  induction text generalizing position octet trimDone room with
  | nil => exact Nat.zero_le _
  | cons c rest ih =>
      rw [hexToBinLoop]
      split
      · exact Nat.zero_le _
      next half _ =>
        split
        · exact ih _ _ _ _ hroom
        · split
          · exact ih _ _ _ _ hroom
          · split
            · exact hroom
            · have hrest := ih (position + 1) (octet + half) true (room - 1)
                (by omega)
              simp only [List.length_cons]
              omega

theorem hexToBinResult_length (zeroAsNull : Bool)
    (written : List UInt8 × Bool) {size : Nat} (hsize : 0 < size)
    (hlength : written.1.length ≤ size) :
    (hexToBinResult zeroAsNull written).1.length ≤ size ∧
      (hexToBinResult zeroAsNull written).2 ≤
        (hexToBinResult zeroAsNull written).1.length := by
  match written with
  | (bytes, false) => exact ⟨hlength, Nat.zero_le _⟩
  | (bytes, true) =>
      rw [hexToBinResult]
      split
      · exact ⟨hsize, Nat.le_refl _⟩
      · exact ⟨hlength, Nat.le_refl _⟩

/-- The conversion stays inside its buffer. -/
theorem utilityHexToBin_length (toSize : Nat) (fromStr : List Char)
    (trimMode : TrimbinTrimMode) (zeroAsNull : Bool) :
    (utilityHexToBin toSize fromStr trimMode zeroAsNull).1.length ≤ toSize ∧
      (utilityHexToBin toSize fromStr trimMode zeroAsNull).2 ≤
        (utilityHexToBin toSize fromStr trimMode zeroAsNull).1.length := by
  unfold utilityHexToBin
  split
  · exact ⟨Nat.zero_le _, Nat.le_refl _⟩
  next hsize =>
    have hpos : 0 < toSize := Nat.pos_of_ne_zero hsize
    exact hexToBinResult_length zeroAsNull _ hpos
      (hexToBinLoop_length _ _ _ _ _ _ hpos)

/-- Digits from a high one on are read as their bytes where these fit. -/
theorem hexToBinLoop_ofHex {oddFlag : Nat} {digits : List Char}
    {bytes : List UInt8} (hread : Hex.ofHex digits = some bytes)
    {position octet room : Nat} (hposition : position % 2 = oddFlag)
    (hroom : bytes.length ≤ room) :
    hexToBinLoop oddFlag digits position octet true room = (bytes, true) := by
  induction bytes generalizing digits position octet room with
  | nil =>
      have hlength := Hex.length_of_ofHex hread
      rw [List.length_nil, Nat.mul_zero, List.length_eq_zero_iff] at hlength
      subst hlength
      rfl
  | cons byte bytes ih =>
      match digits, hread with
      | high :: low :: rest, hread =>
          obtain ⟨highHalf, lowHalf, tail, hhigh, hlow, hrest, hcons⟩ :=
            Hex.ofHex_cons_eq_some hread
          obtain ⟨rfl, rfl⟩ := List.cons.inj hcons
          have hnext : (position + 1) % 2 ≠ oddFlag := by omega
          rw [List.length_cons] at hroom
          rw [hexToBinLoop, hhigh]
          simp only [hposition, ↓reduceIte]
          rw [hexToBinLoop, hlow]
          simp only [hnext, ↓reduceIte, Bool.not_true, Bool.false_and,
            Bool.false_eq_true, Nat.mul_comm highHalf 16]
          split
          next hlast =>
            have hnil : bytes = [] := List.length_eq_zero_iff.mp (by omega)
            rw [hnil]
          next =>
            rw [ih hrest (by omega) (by omega)]

/-- A hexadecimal text is converted into its bytes where these fit. -/
theorem utilityHexToBin_ofHex {toSize : Nat} {fromStr : List Char}
    {bytes : List UInt8}
    (hread : Hex.ofHex (fromStr.drop (hexStart fromStr)) = some bytes)
    (hbytes : bytes ≠ []) (hroom : bytes.length ≤ toSize) (zeroAsNull : Bool) :
    utilityHexToBin toSize fromStr .trimNo zeroAsNull =
      (bytes, bytes.length) := by
  have hlength := Hex.length_of_ofHex hread
  have hpos : bytes.length ≠ 0 := by simpa using hbytes
  have hposition : hexStart fromStr % 2 = fromStr.length % 2 := by
    have hstart : hexStart fromStr = 0 ∨ hexStart fromStr = 2 := by
      unfold hexStart
      split
      · exact .inr rfl
      · exact .inl rfl
    rw [List.length_drop] at hlength
    omega
  have hmode : (TrimbinTrimMode.trimNo == .trimNo) = true := rfl
  rw [utilityHexToBin, if_neg (by omega), hmode,
    hexToBinLoop_ofHex hread hposition hroom, hexToBinResult, if_neg]
  rintro ⟨hzero, -⟩
  exact hpos hzero

end BoatFramework
