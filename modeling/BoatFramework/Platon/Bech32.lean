/-
boatplatonbech32.c: `BoatPlatONBech32Encode`, `BoatPlatONBech32Decode` and the
checksum they share.  A text is its bytes; a `BCHAR` above 0x7F is outside
`CHARSET_REV` whatever its sign.
-/
import BoatFramework.Base.Bech32
import BoatFramework.Platon.ConvertBits
import BoatFramework.Utility.Result

namespace BoatFramework

open Bech32 (separator)

/-- `BECH32ALPHABET`. -/
def bech32Alphabet : List UInt8 :=
  ['q', 'p', 'z', 'r', 'y', '9', 'x', '8', 'g', 'f', '2', 't', 'v', 'd', 'w',
    '0', 's', '3', 'j', 'n', '5', '4', 'k', 'h', 'c', 'e', '6', 'm', 'u', 'a',
    '7', 'l'].map fun c => UInt8.ofNat c.toNat

/-- `CHARSET_REV`. -/
def charsetRev : List Int :=
  [-1, -1, -1, -1, -1, -1, -1, -1, -1, -1, -1, -1, -1, -1, -1, -1,
   -1, -1, -1, -1, -1, -1, -1, -1, -1, -1, -1, -1, -1, -1, -1, -1,
   -1, -1, -1, -1, -1, -1, -1, -1, -1, -1, -1, -1, -1, -1, -1, -1,
   15, -1, 10, 17, 21, 20, 26, 30,  7,  5, -1, -1, -1, -1, -1, -1,
   -1, 29, -1, 24, 13, 25,  9,  8, 23, -1, 18, 22, 31, 27, 19, -1,
    1,  0,  3, 16, 11, 28, 12, 14,  6,  4,  2, -1, -1, -1, -1, -1,
   -1, 29, -1, 24, 13, 25,  9,  8, 23, -1, 18, 22, 31, 27, 19, -1,
    1,  0,  3, 16, 11, 28, 12, 14,  6,  4,  2, -1, -1, -1, -1, -1]

/-- `BoatExpandHrp`. -/
def boatExpandHrp (hrp : List UInt8) : List Nat :=
  hrp.map (fun c => ((c &&& 0x7f).toNat >>> 5) &&& 0x07) ++
    0 :: hrp.map (fun c => (c &&& 0x7f).toNat &&& 0x1f)

/-- One value of the loops of `BoatBech32Polymod`. -/
def boatPolymodStep (chk value : Nat) : Nat :=
  let b := (chk >>> 25) &&& 0x1f
  let chk := ((chk &&& 0x1ffffff) <<< 5) ^^^ (value &&& 0xFF)
  let chk := if b &&& 0x01 ≠ 0 then chk ^^^ 0x3b6a57b2 else chk
  let chk := if b &&& 0x02 ≠ 0 then chk ^^^ 0x26508e6d else chk
  let chk := if b &&& 0x04 ≠ 0 then chk ^^^ 0x1ea119fa else chk
  let chk := if b &&& 0x08 ≠ 0 then chk ^^^ 0x3d4233dd else chk
  if b &&& 0x10 ≠ 0 then chk ^^^ 0x2a1462b3 else chk

/-- `BoatBech32Polymod`: the six values at `output`, which it reads as zeros
behind `hrp` and `data`. -/
def boatBech32Polymod (hrp data : List Nat) : List Nat :=
  let chk := (List.replicate 6 0).foldl boatPolymodStep
    (data.foldl boatPolymodStep (hrp.foldl boatPolymodStep 1))
  let chk := chk ^^^ 1
  (List.range 6).map fun i => (chk >>> (5 * (5 - i))) &&& 0x1F

/-- `*(BECH32ALPHABET + value)`; the value has five bits. -/
def alphabetChar (value : Nat) : UInt8 :=
  bech32Alphabet.getD value 0

/-- `base32OutLen`. -/
def base32OutLen (inlen : Nat) : Nat :=
  buint32 (inlen / 5 * 8 + (inlen % 5 * 8 + 4) / 5)

/-- `BoatPlatONBech32Encode`: its result and the text it leaves at `out`. -/
def boatPlatONBech32Encode (input hrp : List UInt8) :
    Outcome (Int × List UInt8) :=
  if hrp.length = 0 ∨ 83 < hrp.length then .ok (-1, [])
  else
    let base32Data := boatConvertBits input 8 5
    -- a conversion of another length than the block's would leave it
    if base32Data.length ≠ base32OutLen input.length then .error .undefined
    else
      let values := base32Data.map UInt8.toNat
      let bech32Chk := boatBech32Polymod (boatExpandHrp hrp) values
      .ok (bsint32 (hrp.length + 1 + base32OutLen input.length + 6),
        hrp ++ separator :: (values.map alphabetChar ++
          bech32Chk.map alphabetChar))

/-- The search for `separatorOffset`, zero when there is none.  Its counter is
a `BSINT32`, which must not overflow. -/
def separatorOffset (input : List UInt8) : Outcome Nat :=
  let offset := input.idxOf separator
  if 2 ^ 31 ≤ offset then .error .undefined
  else if offset < input.length then .ok offset
  else .ok 0

/-- `*(CHARSET_REV + c)`, as it is stored in a `BUINT8`. -/
def charsetValue (c : UInt8) : Outcome UInt8 :=
  match charsetRev[c.toNat]? with
  | some value => .ok (UInt8.ofInt value)
  | none => .error .undefined

/-- `BoatPlatONBech32Decode`: its result and the bytes it leaves at `out`. -/
def boatPlatONBech32Decode (input : List UInt8) : Outcome (Int × List UInt8) := do
  let hrplen ← separatorOffset input
  if hrplen = 0 then
    return (-1, [])
  if 83 < hrplen then
    return (-1, [])
  let datalen := bsint32 (input.length - hrplen - 1 - 6)
  if datalen ≤ 0 then
    return (-1, [])
  let rest := input.drop (hrplen + 1)
  let data ← (rest.take datalen.toNat).mapM charsetValue
  let chksum := boatBech32Polymod (boatExpandHrp (input.take hrplen))
    (data.map UInt8.toNat)
  if (rest.drop datalen.toNat).take 6 ≠ chksum.map alphabetChar then
    return (-1, [])
  let out := boatConvertBits data 5 8
  return (out.length, out)

end BoatFramework
