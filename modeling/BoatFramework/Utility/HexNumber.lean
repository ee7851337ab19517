/-
The bytes and the number a hexadecimal string stands for, and what
`UtilityHexToBin` makes of it: the bytes it has room for, first ones first.
-/
import BoatFramework.Utility.HexConvert

namespace BoatFramework

open ByteString

/-- The text behind a lead `0x` or `0X`, if there is one. -/
def hexDigits : List Char → List Char
  | '0' :: 'x' :: digits => digits
  | '0' :: 'X' :: digits => digits
  | digits => digits

/-- The bytes a hexadecimal string spells, an odd first digit filled up with a
zero.  A string without digits spells nothing. -/
def spelledBytes (text : List Char) : Option (List UInt8) :=
  if hexDigits text = [] then none
  else if (hexDigits text).length % 2 = 0 then Hex.ofHex (hexDigits text)
  else Hex.ofHex ('0' :: hexDigits text)

/-- The number a hexadecimal string denotes. -/
def numberOf (text : List Char) : Option Nat :=
  (spelledBytes text).map ofBigEndian

/-- What is written of the bytes that were spelled. -/
def written (trimDone : Bool) (bytes : List UInt8) : List UInt8 :=
  if trimDone then bytes else trimLeft bytes

theorem written_zero (bytes : List UInt8) :
    written false (0 :: bytes) = written false bytes := by
  simp [written, trimLeft]

/-- The loop looks at positions by their parity. -/
theorem hexToBinLoop_skip (oddFlag : Nat) (digits : List Char)
    (position octet : Nat) (trimDone : Bool) (room : Nat) :
    hexToBinLoop oddFlag digits (position + 2) octet trimDone room =
      hexToBinLoop oddFlag digits position octet trimDone room := by
  induction digits generalizing position octet trimDone room with
  | nil => rfl
  | cons c rest ih =>
      have hparity : (position + 2) % 2 = position % 2 := by omega
      have hnext : position + 2 + 1 = position + 1 + 2 := by omega
      rw [hexToBinLoop, hexToBinLoop, hparity, hnext]
      simp only [ih]

/-- Pairs of digits from a high one on are written as far as there is room;
behind them the loop ends where it does without them. -/
theorem hexToBinLoop_append {oddFlag : Nat} {front tail : List Char}
    {bytes : List UInt8} {valid : Bool}
    (hread : Hex.ofHex front = some bytes)
    (htail : ∀ position octet trimDone room, position % 2 = oddFlag →
      hexToBinLoop oddFlag tail position octet trimDone room = ([], valid))
    {position octet room : Nat} (trimDone : Bool)
    (hposition : position % 2 = oddFlag) (hroom : 0 < room) :
    hexToBinLoop oddFlag (front ++ tail) position octet trimDone room =
      if room ≤ (written trimDone bytes).length then
        ((written trimDone bytes).take room, true)
      else (written trimDone bytes, valid) := by
  induction bytes generalizing front position octet trimDone room with
  | nil =>
      have hlength := Hex.length_of_ofHex hread
      rw [List.length_nil, Nat.mul_zero, List.length_eq_zero_iff] at hlength
      have hnil : written trimDone [] = [] := by
        cases trimDone <;> rfl
      rw [hlength, List.nil_append, htail _ _ _ _ hposition, hnil, if_neg]
      exact Nat.not_le.mpr hroom
  | cons byte bytes ih =>
      match front, hread with
      | high :: low :: rest, hread =>
          obtain ⟨highHalf, lowHalf, behind, hhigh, hlow, hrest, hcons⟩ :=
            Hex.ofHex_cons_eq_some hread
          obtain ⟨rfl, rfl⟩ := List.cons.inj hcons
          have hnext : (position + 1) % 2 ≠ oddFlag := by omega
          have hsecond : (position + 1 + 1) % 2 = oddFlag := by omega
          rw [List.cons_append, List.cons_append, hexToBinLoop, hhigh]
          simp only [hposition, ↓reduceIte]
          rw [hexToBinLoop, hlow]
          simp only [hnext, ↓reduceIte, Nat.mul_comm highHalf 16]
          by_cases hskip : trimDone = false ∧ 16 * highHalf + lowHalf = 0
          · obtain ⟨rfl, hzero⟩ := hskip
            have hwritten : written false (UInt8.ofNat 0 :: bytes) =
                written false bytes := written_zero bytes
            simp only [hzero, beq_self_eq_true, Bool.not_false, Bool.and_self,
              ↓reduceIte, hwritten]
            exact ih hrest false hsecond hroom
          · have hstop : (!trimDone && 16 * highHalf + lowHalf == 0) = false := by
              cases trimDone with
              | true => rfl
              | false => simpa using fun hzero => hskip ⟨rfl, hzero⟩
            have hwritten : written trimDone
                (UInt8.ofNat (16 * highHalf + lowHalf) :: bytes) =
                  UInt8.ofNat (16 * highHalf + lowHalf) :: bytes := by
              cases trimDone with
              | true => rfl
              | false =>
                  refine trimLeft_of_canonical
                    ((canonical_cons_iff _ _).mpr fun hbyte => ?_)
                  have hvalue := congrArg UInt8.toNat hbyte
                  have hlow := Hex.value_lt hlow
                  have hhigh := Hex.value_lt hhigh
                  rw [UInt8.toNat_ofNat', UInt8.toNat_zero] at hvalue
                  exact hskip ⟨rfl, by omega⟩
            rw [hstop, hwritten]
            obtain ⟨left, rfl⟩ : ∃ left, room = left + 1 :=
              ⟨room - 1, by omega⟩
            cases left with
            | zero => simp
            | succ left =>
                have hmore : ¬left + 1 + 1 ≤ 1 := by omega
                have hbytes : written true bytes = bytes := rfl
                simp only [hmore, Bool.false_eq_true, ↓reduceIte,
                  Nat.add_sub_cancel]
                rw [ih hrest true hsecond (by omega), hbytes,
                  List.take_succ_cons, List.length_cons]
                simp only [Nat.add_le_add_iff_right]
                split <;> rfl

/-- Pairs of digits from a high one on are written as far as there is room. -/
theorem hexToBinLoop_written {oddFlag : Nat} {digits : List Char}
    {bytes : List UInt8} (hread : Hex.ofHex digits = some bytes)
    {position octet room : Nat} (trimDone : Bool)
    (hposition : position % 2 = oddFlag) (hroom : 0 < room) :
    hexToBinLoop oddFlag digits position octet trimDone room =
      ((written trimDone bytes).take room, true) := by
  have hloop := @hexToBinLoop_append oddFlag digits [] bytes true hread
    (fun _ _ _ _ _ => rfl) position octet room trimDone hposition hroom
  rw [List.append_nil] at hloop
  rw [hloop]
  split
  next => rfl
  next hlong => rw [List.take_of_length_le (Nat.le_of_not_le hlong)]

/-- The digits start behind the lead. -/
theorem hexStart_digits {text : List Char} (hdigits : hexDigits text ≠ []) :
    text.drop (hexStart text) = hexDigits text ∧
      (hexStart text = 0 ∨ hexStart text = 2) := by
  unfold hexDigits at hdigits ⊢
  split at hdigits
  next digits =>
    have hlength : 2 < ('0' :: 'x' :: digits).length := by
      have hpos := List.length_pos_iff.mpr hdigits
      simp only [List.length_cons]
      omega
    have hstart : hexStart ('0' :: 'x' :: digits) = 2 :=
      if_pos ⟨hlength, rfl, .inl rfl⟩
    rw [hstart]
    exact ⟨rfl, .inr rfl⟩
  next digits =>
    have hlength : 2 < ('0' :: 'X' :: digits).length := by
      have hpos := List.length_pos_iff.mpr hdigits
      simp only [List.length_cons]
      omega
    have hstart : hexStart ('0' :: 'X' :: digits) = 2 :=
      if_pos ⟨hlength, rfl, .inr rfl⟩
    rw [hstart]
    exact ⟨rfl, .inr rfl⟩
  next hlower hupper =>
    have hstart : hexStart text = 0 := by
      refine if_neg ?_
      rintro ⟨-, hfirst, hsecond⟩
      match text, hfirst, hsecond with
      | first :: second :: digits, hfirst, hsecond =>
          obtain rfl := Option.some.inj hfirst
          rcases hsecond with hsecond | hsecond
          · exact hlower digits (by rw [Option.some.inj hsecond])
          · exact hupper digits (by rw [Option.some.inj hsecond])
    rw [hstart]
    exact ⟨rfl, .inl rfl⟩

/-- A spelled text comes through the loop. -/
theorem hexToBinLoop_spelled {text : List Char} {bytes : List UInt8}
    (hspelled : spelledBytes text = some bytes) (trimDone : Bool) {room : Nat}
    (hroom : 0 < room) :
    hexToBinLoop (text.length % 2) (text.drop (hexStart text)) (hexStart text)
        0 trimDone room =
      ((written trimDone bytes).take room, true) := by
  unfold spelledBytes at hspelled
  split at hspelled
  next => cases hspelled
  next hne =>
    obtain ⟨hdrop, hstart⟩ := hexStart_digits hne
    have hlength := congrArg List.length hdrop
    rw [List.length_drop] at hlength
    have hpos : 0 < (hexDigits text).length := List.length_pos_iff.mpr hne
    rw [hdrop]
    split at hspelled
    next heven =>
      exact hexToBinLoop_written hspelled trimDone (by omega) hroom
    next hodd =>
      have hflag : (hexStart text + 1) % 2 = text.length % 2 := by omega
      have hzero : Hex.value '0' = some 0 := rfl
      have hloop : hexToBinLoop (text.length % 2) ('0' :: hexDigits text)
          (hexStart text + 1) 0 trimDone room =
            ((written trimDone bytes).take room, true) :=
        hexToBinLoop_written hspelled trimDone hflag hroom
      rw [hexToBinLoop, hzero] at hloop
      simp only [hflag, ↓reduceIte, Nat.zero_mul] at hloop
      rwa [Nat.add_assoc, hexToBinLoop_skip] at hloop

variable {text : List Char} {size : Nat}

/-- A spelled text is converted into the bytes there is room for, and nothing
into a zero byte on request. -/
theorem utilityHexToBin_result {bytes : List UInt8}
    (hspelled : spelledBytes text = some bytes) (hsize : 0 < size)
    (trimMode : TrimbinTrimMode) (zeroAsNull : Bool) :
    utilityHexToBin size text trimMode zeroAsNull =
      hexToBinResult zeroAsNull
        ((written (trimMode == .trimNo) bytes).take size, true) := by
  rw [utilityHexToBin, if_neg (Nat.ne_of_gt hsize),
    hexToBinLoop_spelled hspelled _ hsize]

theorem utilityHexToBin_spelled {bytes : List UInt8}
    (hspelled : spelledBytes text = some bytes) (hsize : 0 < size)
    (trimMode : TrimbinTrimMode) :
    utilityHexToBin size text trimMode true =
      ((written (trimMode == .trimNo) bytes).take size,
        ((written (trimMode == .trimNo) bytes).take size).length) := by
  rw [utilityHexToBin_result hspelled hsize, hexToBinResult, if_neg]
  rintro ⟨-, hfalse⟩
  cases hfalse

end BoatFramework
