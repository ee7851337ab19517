/-
`UtilityBinToHex` and `UtilityHexToBin` together: what is written is read back
with its leading zeros trimmed, and a text is read as far as its digits and the
room go.
-/
import BoatFramework.Utility.HexNumber

namespace BoatFramework

open ByteString

/-- The digits of a text: what stands behind its lead. -/
def digitsOf (text : List Char) : List Char :=
  text.drop (hexStart text)

/-- Digits in pairs, an odd first one filled up with a zero. -/
def paired (digits : List Char) : List Char :=
  if digits.length % 2 = 0 then digits else '0' :: digits

/-- Nothing but digits. -/
def AllHex (digits : List Char) : Prop :=
  ∀ c ∈ digits, (Hex.value c).isSome

/-- The trimming of the way back that belongs to one of the way out. -/
def Bin2HexTrimMode.matching : Bin2HexTrimMode → TrimbinTrimMode
  | leftTrimUnfmtData => .trimNo
  | leftTrimQuantity => .leftTrim
  | leftTrimTwoHexPerByte => .leftTrim

/-- The bytes a trimming mode keeps. -/
def kept (trimMode : TrimbinTrimMode) (bytes : List UInt8) : List UInt8 :=
  written (trimMode == .trimNo) bytes

/-- Nothing is one zero byte, unless zero is asked for as nothing. -/
def nulled (zeroAsNull : Bool) (bytes : List UInt8) : List UInt8 :=
  if bytes = [] ∧ zeroAsNull = false then [0] else bytes

/-- The bytes converted from a text of digits, before the room is looked at. -/
def converted (text : List Char) (trimMode : TrimbinTrimMode) : List UInt8 :=
  kept trimMode (Hex.readPairs (paired (digitsOf text)))

theorem hexStart_le (text : List Char) :
    hexStart text ≤ text.length ∧ hexStart text % 2 = 0 := by
  unfold hexStart
  split
  next hlead => exact ⟨Nat.le_of_lt hlead.1, rfl⟩
  next => exact ⟨Nat.zero_le _, rfl⟩

theorem length_paired_even (digits : List Char) :
    (paired digits).length % 2 = 0 := by
  unfold paired
  split
  next heven => exact heven
  next hodd =>
    rw [List.length_cons]
    omega

theorem length_paired_le (digits : List Char) :
    (paired digits).length ≤ digits.length + 1 := by
  unfold paired
  split
  · exact Nat.le_succ _
  · exact Nat.le_refl _

theorem allHex_paired {digits : List Char} :
    AllHex (paired digits) ↔ AllHex digits := by
  unfold paired
  split
  next => rfl
  next =>
    have hzero : (Hex.value '0').isSome := rfl
    simp [AllHex, hzero]

/-- The loop does as it would on the digits in pairs. -/
theorem hexToBinLoop_paired (text : List Char) (trimDone : Bool) (room : Nat) :
    ∃ position, position % 2 = text.length % 2 ∧
      hexToBinLoop (text.length % 2) (digitsOf text) (hexStart text) 0 trimDone
          room =
        hexToBinLoop (text.length % 2) (paired (digitsOf text)) position 0
          trimDone room := by
  obtain ⟨hle, hstart⟩ := hexStart_le text
  have hlength : (digitsOf text).length = text.length - hexStart text :=
    List.length_drop
  unfold paired
  split
  next heven => exact ⟨hexStart text, by omega, rfl⟩
  next hodd =>
    have hflag : (hexStart text + 1) % 2 = text.length % 2 := by omega
    have hzero : Hex.value '0' = some 0 := rfl
    refine ⟨hexStart text + 1, hflag, ?_⟩
    conv_rhs => rw [hexToBinLoop, hzero]
    simp only [hflag, ↓reduceIte, Nat.zero_mul]
    rw [Nat.add_assoc, hexToBinLoop_skip]

/-- Digits to the end are all read. -/
theorem hexToBinLoop_digits {text : List Char}
    (hdigits : AllHex (digitsOf text)) (trimDone : Bool) {room : Nat}
    (hroom : 0 < room) :
    hexToBinLoop (text.length % 2) (digitsOf text) (hexStart text) 0 trimDone
        room =
      ((written trimDone (Hex.readPairs (paired (digitsOf text)))).take room,
        true) := by
  obtain ⟨position, hposition, hloop⟩ := hexToBinLoop_paired text trimDone room
  have hread := Hex.ofHex_of_digits (allHex_paired.mpr hdigits)
    (length_paired_even _)
  rw [hloop]
  exact hexToBinLoop_written hread trimDone hposition hroom

/-- A character that is no digit ends the loop, unless the room is full in
front of it. -/
theorem hexToBinLoop_stopped {text : List Char}
    (hdigits : ¬AllHex (digitsOf text)) (trimDone : Bool) {room : Nat}
    (hroom : 0 < room) :
    hexToBinLoop (text.length % 2) (digitsOf text) (hexStart text) 0 trimDone
        room =
      if room ≤
          (written trimDone (Hex.readPairs (paired (digitsOf text)))).length then
        ((written trimDone (Hex.readPairs (paired (digitsOf text)))).take room,
          true)
      else (written trimDone (Hex.readPairs (paired (digitsOf text))),
        false) := by
  obtain ⟨position, hposition, hloop⟩ := hexToBinLoop_paired text trimDone room
  obtain ⟨front, tail, hsplit, hread, htail⟩ := Hex.exists_front_of_not_digits
    (mt allHex_paired.mp hdigits) (length_paired_even _)
  rw [hloop, hsplit, ← hsplit]
  conv_lhs => rw [hsplit]
  refine hexToBinLoop_append hread ?_ trimDone hposition hroom
  intro position octet trimDone room hposition
  rcases htail with ⟨c, rest, rfl, hc⟩ | ⟨high, half, c, rest, rfl, hhigh, hc⟩
  · rw [hexToBinLoop, hc]
  · rw [hexToBinLoop, hhigh]
    simp only [hposition, ↓reduceIte]
    rw [hexToBinLoop, hc]

variable {text : List Char}

/-- A text of digits is converted into the leading bytes there is room for. -/
theorem utilityHexToBin_digits (hdigits : AllHex (digitsOf text))
    (size : Nat) (trimMode : TrimbinTrimMode) (zeroAsNull : Bool) :
    utilityHexToBin size text trimMode zeroAsNull =
      ((nulled zeroAsNull (converted text trimMode)).take size,
        ((nulled zeroAsNull (converted text trimMode)).take size).length) := by
  cases size with
  | zero => rfl
  | succ size =>
      have hloop := hexToBinLoop_digits hdigits (trimMode == .trimNo)
        (Nat.succ_pos size)
      rw [utilityHexToBin, if_neg (Nat.succ_ne_zero size)]
      unfold digitsOf at hloop
      rw [hloop, nulled]
      change hexToBinResult zeroAsNull
        ((converted text trimMode).take (size + 1), true) = _
      cases converted text trimMode with
      | nil => cases zeroAsNull <;> simp [hexToBinResult]
      | cons byte bytes =>
          rw [if_neg fun hnil => List.cons_ne_nil _ _ hnil.1, hexToBinResult,
            if_neg]
          rintro ⟨hzero, -⟩
          cases hzero

/-- Any other text has the length zero, unless its digits fill the room. -/
theorem utilityHexToBin_stopped (hdigits : ¬AllHex (digitsOf text))
    (size : Nat) (trimMode : TrimbinTrimMode) (zeroAsNull : Bool) :
    utilityHexToBin size text trimMode zeroAsNull =
      ((converted text trimMode).take size,
        if size ≤ (converted text trimMode).length then size else 0) := by
  cases size with
  | zero => rfl
  | succ size =>
      have hloop := hexToBinLoop_stopped hdigits (trimMode == .trimNo)
        (Nat.succ_pos size)
      rw [utilityHexToBin, if_neg (Nat.succ_ne_zero size)]
      unfold digitsOf at hloop
      rw [hloop]
      change hexToBinResult zeroAsNull
        (if size + 1 ≤ (converted text trimMode).length then
          ((converted text trimMode).take (size + 1), true)
        else (converted text trimMode, false)) = _
      split
      next hfull =>
        have hlength : ((converted text trimMode).take (size + 1)).length =
            size + 1 := by
          rw [List.length_take, Nat.min_eq_left hfull]
        rw [hexToBinResult, hlength, if_neg]
        rintro ⟨hzero, -⟩
        cases hzero
      next hroom =>
        rw [List.take_of_length_le (Nat.le_of_not_le hroom)]
        rfl

theorem length_kept_le (trimMode : TrimbinTrimMode) (bytes : List UInt8) :
    (kept trimMode bytes).length ≤ bytes.length := by
  cases trimMode with
  | trimNo => exact Nat.le_refl _
  | leftTrim => exact length_trimLeft_le bytes

/-- With the room the digits of a text could need, one that is not all digits
has the length zero. -/
theorem utilityHexToBin_refuses (hdigits : ¬AllHex (digitsOf text))
    {size : Nat} (hroom : (text.length + 1) / 2 ≤ size)
    (trimMode : TrimbinTrimMode) (zeroAsNull : Bool) :
    (utilityHexToBin size text trimMode zeroAsNull).2 = 0 := by
  have hshort := Hex.length_readPairs_lt (mt allHex_paired.mp hdigits)
    (length_paired_even _)
  have hpaired := length_paired_le (digitsOf text)
  have hlength : (digitsOf text).length = text.length - hexStart text :=
    List.length_drop
  have hkept := length_kept_le trimMode (Hex.readPairs (paired (digitsOf text)))
  have hconverted : (converted text trimMode).length < size := by
    unfold converted
    omega
  rw [utilityHexToBin_stopped hdigits]
  exact if_neg (Nat.not_le.mpr hconverted)

theorem paired_toHex (bytes : List UInt8) :
    paired (Hex.toHex bytes) = Hex.toHex bytes := by
  refine if_pos ?_
  rw [Hex.length_toHex]
  exact Nat.mul_mod_right 2 _

/-- An octet that is not zero gives both of its digits, or as a quantity its
low one. -/
theorem paired_hexOfHalfBytes {trimMode : Bin2HexTrimMode} {octet : UInt8}
    (hoctet : octet ≠ 0) (bytes : List UInt8) :
    paired (hexOfHalfBytes trimMode false (halfBytes octet) ++
        Hex.toHex bytes) =
      Hex.toHex (octet :: bytes) := by
  by_cases hlow : trimMode = .leftTrimQuantity ∧ octet.toNat / 16 = 0
  · obtain ⟨rfl, hhigh⟩ := hlow
    have hhalf : octet.toNat % 16 ≠ 0 := by
      intro hhalf
      apply hoctet
      rw [← UInt8.toNat_inj, UInt8.toNat_zero]
      omega
    have hdigits : hexOfHalfBytes .leftTrimQuantity false (halfBytes octet) =
        [Hex.digit (octet.toNat % 16)] := by
      simp [hexOfHalfBytes, halfBytes, hhigh, hhalf]
    have hodd : ¬(Hex.digit (octet.toNat % 16) ::
        Hex.toHex bytes).length % 2 = 0 := by
      rw [List.length_cons, Hex.length_toHex]
      omega
    rw [hdigits, List.singleton_append, paired, if_neg hodd, Hex.toHex, hhigh]
    rfl
  · have hdigits : hexOfHalfBytes trimMode false (halfBytes octet) =
        [Hex.digit (octet.toNat / 16), Hex.digit (octet.toNat % 16)] := by
      have hfirst : (!false && trimMode == .leftTrimQuantity &&
          octet.toNat / 16 == 0) = false := by
        simpa using hlow
      rw [halfBytes, hexOfHalfBytes, hfirst]
      simp [hexOfHalfBytes]
    rw [hdigits]
    exact paired_toHex (octet :: bytes)

theorem paired_hexOfOctets_false (trimMode : Bin2HexTrimMode)
    (bytes : List UInt8) :
    paired (hexOfOctets trimMode false bytes) = Hex.toHex (trimLeft bytes) := by
  induction bytes with
  | nil => rfl
  | cons octet bytes ih =>
      by_cases hoctet : octet = 0
      · subst hoctet
        have htrim : trimLeft (0 :: bytes) = trimLeft bytes := by
          simp [trimLeft]
        rw [htrim, ← ih]
        rfl
      · have hkeep : (!false && octet == 0) = false := by
          simpa using hoctet
        rw [hexOfOctets, hkeep, trimLeft_of_canonical
          ((canonical_cons_iff octet bytes).mpr hoctet)]
        rw [if_neg Bool.false_ne_true, hexOfOctets_true]
        exact paired_hexOfHalfBytes hoctet bytes

/-- The digits written of a byte string spell the bytes kept of it. -/
theorem paired_hexOfOctets (trimMode : Bin2HexTrimMode) (bytes : List UInt8) :
    paired (hexOfOctets trimMode (trimMode == .leftTrimUnfmtData) bytes) =
      Hex.toHex (kept trimMode.matching bytes) := by
  cases trimMode with
  | leftTrimUnfmtData =>
      have hdone : (Bin2HexTrimMode.leftTrimUnfmtData == .leftTrimUnfmtData) =
          true := rfl
      rw [hdone, hexOfOctets_true]
      exact paired_toHex bytes
  | leftTrimQuantity => exact paired_hexOfOctets_false _ bytes
  | leftTrimTwoHexPerByte => exact paired_hexOfOctets_false _ bytes

/-- A text of digits has no lead of its own. -/
theorem hexStart_of_allHex {digits : List Char} (hdigits : AllHex digits) :
    hexStart digits = 0 := by
  refine if_neg ?_
  rintro ⟨-, -, hsecond⟩
  have hnone : Hex.value 'x' = none ∧ Hex.value 'X' = none := by decide
  rcases hsecond with hsecond | hsecond
  · have hvalue := hdigits 'x' (List.mem_of_getElem? hsecond)
    rw [hnone.1] at hvalue
    cases hvalue
  · have hvalue := hdigits 'X' (List.mem_of_getElem? hsecond)
    rw [hnone.2] at hvalue
    cases hvalue

/-- Behind a lead, or without one, stand the digits. -/
theorem digitsOf_lead {digits : List Char} (hdigits : AllHex digits)
    (hne : digits ≠ []) (hexPrefix : Bool) :
    digitsOf ((if hexPrefix then ['0', 'x'] else []) ++ digits) = digits := by
  cases hexPrefix with
  | false =>
      change digits.drop (hexStart digits) = digits
      rw [hexStart_of_allHex hdigits, List.drop_zero]
  | true =>
      have hpos := List.length_pos_iff.mpr hne
      have hlength : 2 < ('0' :: 'x' :: digits).length := by
        simp only [List.length_cons]
        omega
      have hstart : hexStart ('0' :: 'x' :: digits) = 2 :=
        if_pos ⟨hlength, rfl, .inl rfl⟩
      change ('0' :: 'x' :: digits).drop (hexStart ('0' :: 'x' :: digits)) =
        digits
      rw [hstart]
      rfl

/-- The text written of a byte string is all digits, and the bytes kept of the
string are converted from it. -/
theorem converted_utilityBinToHex (bytes : List UInt8)
    (trimMode : Bin2HexTrimMode) (hexPrefix zeroAsNull : Bool) :
    AllHex (digitsOf (utilityBinToHex bytes trimMode hexPrefix zeroAsNull)) ∧
      converted (utilityBinToHex bytes trimMode hexPrefix zeroAsNull)
          trimMode.matching =
        kept trimMode.matching bytes := by
  have hpaired := paired_hexOfOctets trimMode bytes
  have hallHex : AllHex
      (hexOfOctets trimMode (trimMode == .leftTrimUnfmtData) bytes) := by
    rw [← allHex_paired, hpaired]
    exact Hex.digits_of_ofHex (Hex.ofHex_toHex _)
  have hnothing : AllHex (digitsOf []) ∧
      converted [] trimMode.matching = [] := by
    constructor
    · intro c hc
      cases hc
    · cases trimMode <;> rfl
  have hkept : kept trimMode.matching (kept trimMode.matching bytes) =
      kept trimMode.matching bytes := by
    cases trimMode with
    | leftTrimUnfmtData => rfl
    | leftTrimQuantity => exact trimLeft_of_canonical (canonical_trimLeft bytes)
    | leftTrimTwoHexPerByte =>
        exact trimLeft_of_canonical (canonical_trimLeft bytes)
  unfold utilityBinToHex
  by_cases hbytes : bytes.length = 0
  · rw [if_pos hbytes, List.length_eq_zero_iff.mp hbytes]
    refine ⟨hnothing.1, hnothing.2.trans ?_⟩
    cases trimMode <;> rfl
  · rw [if_neg hbytes]
    dsimp only
    by_cases hdigits :
        (hexOfOctets trimMode (trimMode == .leftTrimUnfmtData) bytes).length = 0
    · rw [if_pos hdigits]
      rw [List.length_eq_zero_iff.mp hdigits] at hpaired
      have hnil : kept trimMode.matching bytes = [] :=
        Hex.toHex_injective hpaired.symm
      rw [hnil]
      cases zeroAsNull with
      | true => exact hnothing
      | false =>
          have hone : AllHex ['0'] := fun c hc => by
            rw [List.mem_singleton.mp hc]
            rfl
          have htwo : AllHex ['0', '0'] := fun c hc => by
            rcases List.mem_cons.mp hc with rfl | hc
            · rfl
            · exact hone c hc
          cases trimMode with
          | leftTrimUnfmtData => exact absurd (congrArg List.length hnil) hbytes
          | leftTrimQuantity =>
              have hlead := digitsOf_lead hone (List.cons_ne_nil _ _) hexPrefix
              simp only [Bool.false_eq_true, ↓reduceIte, converted, hlead]
              exact ⟨hone, rfl⟩
          | leftTrimTwoHexPerByte =>
              have hlead := digitsOf_lead htwo (List.cons_ne_nil _ _) hexPrefix
              simp only [Bool.false_eq_true, reduceCtorEq, ↓reduceIte,
                converted, hlead]
              exact ⟨htwo, rfl⟩
    · rw [if_neg hdigits]
      have hne : hexOfOctets trimMode (trimMode == .leftTrimUnfmtData) bytes ≠
          [] := mt (congrArg List.length) hdigits
      rw [converted, digitsOf_lead hallHex hne, hpaired,
        Hex.readPairs_of_ofHex (Hex.ofHex_toHex _)]
      exact ⟨hallHex, hkept⟩

/-- What is written of a byte string is read back as the bytes kept of it. -/
theorem utilityHexToBin_utilityBinToHex {bytes : List UInt8}
    {trimMode : Bin2HexTrimMode} {size : Nat} (hsize : 0 < size)
    (hroom : (kept trimMode.matching bytes).length ≤ size)
    (hexPrefix asNull zeroAsNull : Bool) :
    utilityHexToBin size (utilityBinToHex bytes trimMode hexPrefix asNull)
        trimMode.matching zeroAsNull =
      (nulled zeroAsNull (kept trimMode.matching bytes),
        (nulled zeroAsNull (kept trimMode.matching bytes)).length) := by
  obtain ⟨hdigits, hconverted⟩ :=
    converted_utilityBinToHex bytes trimMode hexPrefix asNull
  have hnulled : (nulled zeroAsNull (kept trimMode.matching bytes)).length ≤
      size := by
    unfold nulled
    split
    · exact hsize
    · exact hroom
  rw [utilityHexToBin_digits hdigits, hconverted,
    List.take_of_length_le hnulled]

/-- The codec as a whole: the round trip with its trimming, the leading part of
a text of digits, and what becomes of any other text. -/
theorem hexCodec_decides :
    (∀ (bytes : List UInt8) (trimMode : Bin2HexTrimMode) (size : Nat),
      0 < size → (kept trimMode.matching bytes).length ≤ size →
      ∀ hexPrefix asNull zeroAsNull : Bool,
        utilityHexToBin size (utilityBinToHex bytes trimMode hexPrefix asNull)
            trimMode.matching zeroAsNull =
          (nulled zeroAsNull (kept trimMode.matching bytes),
            (nulled zeroAsNull (kept trimMode.matching bytes)).length)) ∧
      ∀ (text : List Char) (size : Nat) (trimMode : TrimbinTrimMode)
        (zeroAsNull : Bool),
        (AllHex (digitsOf text) →
          Hex.ofHex (paired (digitsOf text)) =
              some (Hex.readPairs (paired (digitsOf text))) ∧
            utilityHexToBin size text trimMode zeroAsNull =
              ((nulled zeroAsNull (converted text trimMode)).take size,
                ((nulled zeroAsNull
                  (converted text trimMode)).take size).length)) ∧
          (¬AllHex (digitsOf text) →
            utilityHexToBin size text trimMode zeroAsNull =
                ((converted text trimMode).take size,
                  if size ≤ (converted text trimMode).length then size
                  else 0) ∧
              ((text.length + 1) / 2 ≤ size →
                (utilityHexToBin size text trimMode zeroAsNull).2 = 0)) := by
  constructor
  · intro bytes trimMode size hsize hroom hexPrefix asNull zeroAsNull
    exact utilityHexToBin_utilityBinToHex hsize hroom hexPrefix asNull zeroAsNull
  · intro text size trimMode zeroAsNull
    constructor
    · intro hdigits
      exact ⟨Hex.ofHex_of_digits (allHex_paired.mpr hdigits)
        (length_paired_even _),
        utilityHexToBin_digits hdigits size trimMode zeroAsNull⟩
    · intro hdigits
      exact ⟨utilityHexToBin_stopped hdigits size trimMode zeroAsNull,
        fun hroom => utilityHexToBin_refuses hdigits hroom trimMode zeroAsNull⟩

/-- Zero bytes in front of a quantity are trimmed on the way out and back. -/
theorem hexCodec_decides_quantity :
    utilityHexToBin 2 (utilityBinToHex [0, 1, 0xab] .leftTrimQuantity true
        false) .leftTrim false =
      ([1, 0xab], 2) :=
  hexCodec_decides.1 [0, 1, 0xab] .leftTrimQuantity 2 (by decide) (by decide)
    true false false

/-- Digits that fill the room hide what stands behind them. -/
theorem not_hexCodec_refuses :
    ¬∀ (text : List Char) (size : Nat) (trimMode : TrimbinTrimMode)
      (zeroAsNull : Bool), ¬AllHex (digitsOf text) →
        (utilityHexToBin size text trimMode zeroAsNull).2 = 0 := by
  intro hall
  have hbad : ¬AllHex (digitsOf ['1', '2', 'z', 'z']) := by
    intro hdigits
    have hvalue := hdigits 'z' (by decide)
    cases hvalue
  have hzero := hall ['1', '2', 'z', 'z'] 1 .trimNo false hbad
  revert hzero
  decide

end BoatFramework
