/-
`UtilityUint32ToBigend`, `UtilityUint64ToBigend` and `UtilityTrimBin`: an
integer or a byte array to its big-endian bytes, with leading zeros trimmed on
request.
-/
import BoatFramework.Base.BigEndian

namespace BoatFramework

open ByteString

inductive TrimbinTrimMode where
  | trimNo
  | leftTrim
deriving DecidableEq

/-- The loop of the integer conversions over the octets below `i`, most
significant first. -/
def bigendOctets (fromHostInteger : Nat) (trimDone : Bool) : Nat → List UInt8
  | 0 => []
  | i + 1 =>
      let octet := UInt8.ofNat (fromHostInteger >>> (i * 8))
      if !trimDone && octet == 0 then bigendOctets fromHostInteger trimDone i
      else octet :: bigendOctets fromHostInteger true i

/-- The bytes written by a conversion of an integer of `size` octets. -/
def utilityUintToBigend (size fromHostInteger : Nat)
    (trimMode : TrimbinTrimMode) : List UInt8 :=
  let octets := bigendOctets fromHostInteger (trimMode == .trimNo) size
  if octets.length = 0 then [0] else octets

def utilityUint32ToBigend (fromHostInteger : Nat)
    (trimMode : TrimbinTrimMode) : List UInt8 :=
  utilityUintToBigend 4 fromHostInteger trimMode

def utilityUint64ToBigend (fromHostInteger : Nat)
    (trimMode : TrimbinTrimMode) : List UInt8 :=
  utilityUintToBigend 8 fromHostInteger trimMode

/-- The bytes `UtilityTrimBin` leaves at `to_ptr`. -/
def utilityTrimBin (fromBytes : List UInt8) (trimMode : TrimbinTrimMode)
    (zeroAsNull : Bool) : List UInt8 :=
  match trimMode with
  | .trimNo => fromBytes
  | .leftTrim =>
      let trimmed := trimLeft fromBytes
      if trimmed.length = 0 then (if zeroAsNull then [] else [0]) else trimmed

theorem length_bigendOctets (n size : Nat) :
    (bigendOctets n true size).length = size := by
  induction size with
  | zero => rfl
  | succ size ih => simp [bigendOctets, ih]

theorem length_bigendOctets_le (n : Nat) (trimDone : Bool) (size : Nat) :
    (bigendOctets n trimDone size).length ≤ size := by
  induction size generalizing trimDone with
  | zero => exact Nat.le_refl 0
  | succ size ih =>
      rw [bigendOctets]
      split
      · exact (ih trimDone).trans (Nat.le_succ size)
      · exact Nat.succ_le_succ (ih true)

theorem length_utilityUintToBigend_le {size : Nat} (hsize : 0 < size) (n : Nat)
    (trimMode : TrimbinTrimMode) :
    (utilityUintToBigend size n trimMode).length ≤ size := by
  unfold utilityUintToBigend
  simp only
  split
  · exact hsize
  · exact length_bigendOctets_le n _ size

theorem ofBigEndian_bigendOctets (n size : Nat) :
    ofBigEndian (bigendOctets n true size) = n % 256 ^ size := by
  induction size with
  | zero => simp [bigendOctets, Nat.mod_one]
  | succ size ih =>
      have hoctet : (UInt8.ofNat (n >>> (size * 8))).toNat =
          n / 256 ^ size % 256 := by
        rw [UInt8.toNat_ofNat', Nat.shiftRight_eq_div_pow, Nat.mul_comm,
          Nat.pow_mul]
      simp only [bigendOctets, Bool.not_true, Bool.false_and,
        Bool.false_eq_true, ↓reduceIte]
      rw [ofBigEndian_cons, length_bigendOctets, ih, hoctet, Nat.pow_succ,
        Nat.mod_mul]
      ring

theorem bigendOctets_false (n size : Nat) :
    bigendOctets n false size = trimLeft (bigendOctets n true size) := by
  induction size with
  | zero => rfl
  | succ size ih =>
      by_cases hoctet : UInt8.ofNat (n >>> (size * 8)) = 0
      · simp [bigendOctets, hoctet, ih, trimLeft]
      · simp [bigendOctets, hoctet, trimLeft]

/-- The trimming conversion spells zero as one zero byte and every other
integer of its width minimally. -/
theorem utilityUintToBigend_leftTrim {size n : Nat} (hn : n < 256 ^ size) :
    utilityUintToBigend size n .leftTrim =
      if n = 0 then [0] else bigEndian n := by
  have hmode : (TrimbinTrimMode.leftTrim == .trimNo) = false := rfl
  have hoctets : bigendOctets n false size = bigEndian n := by
    rw [bigendOctets_false, ← bigEndian_ofBigEndian_eq_trimLeft,
      ofBigEndian_bigendOctets, Nat.mod_eq_of_lt hn]
  simp only [utilityUintToBigend, hmode, hoctets, List.length_eq_zero_iff,
    bigEndian_eq_nil_iff]

theorem utilityUint32ToBigend_of_pos {n : Nat} (hpos : n ≠ 0)
    (hn : n < 2 ^ 32) : utilityUint32ToBigend n .leftTrim = bigEndian n := by
  rw [utilityUint32ToBigend, utilityUintToBigend_leftTrim (by omega),
    if_neg hpos]

/-- Read back, the trimming conversion gives the integer. -/
theorem ofBigEndian_utilityUintToBigend {size n : Nat} (hn : n < 256 ^ size) :
    ofBigEndian (utilityUintToBigend size n .leftTrim) = n := by
  rw [utilityUintToBigend_leftTrim hn]
  split
  next hzero => simp [hzero, ofBigEndian_cons]
  next => exact ofBigEndian_bigEndian n

/-- The trimming conversion is canonical for every integer but zero. -/
theorem canonical_utilityUintToBigend {size n : Nat} (hn : n < 256 ^ size) :
    Canonical (utilityUintToBigend size n .leftTrim) ↔ n ≠ 0 := by
  rw [utilityUintToBigend_leftTrim hn]
  split
  next hzero => simp [hzero, canonical_cons_iff]
  next hpos => simp [hpos, canonical_bigEndian]

theorem utilityTrimBin_zeroAsNull (bytes : List UInt8) :
    utilityTrimBin bytes .leftTrim true = trimLeft bytes := by
  unfold utilityTrimBin
  by_cases hnil : trimLeft bytes = []
  · simp [hnil]
  · simp [hnil]

end BoatFramework
