/-
The RLP objects of `boatrlp.c`: string and list objects, the list editing
calls, the size pass and the encoder.
-/
import BoatFramework.Base.Rlp
import BoatFramework.Utility.Bigend
import BoatFramework.Utility.Result

namespace BoatFramework

/-- An RLP object: the bytes a string object points at, or the objects in a
list object's descriptor table. -/
inductive RlpObject where
  | string (field : List UInt8)
  | list (descriptors : List RlpObject)

def maxRlpListDescNum : Nat := 15

/-- `RLP_STREAM_LEN_UNKNOWN`, the largest 32-bit length. -/
def rlpStreamLenUnknown : Nat := 2 ^ 32 - 1

def rlpPrefixBaseString : Nat := 0x80
def rlpPrefixBaseList : Nat := 0xc0

/-- A null pointer is `none`; it takes only the length zero. -/
def rlpInitStringObject (stringPtr : Option (List UInt8)) (stringLen : Nat) :
    Outcome RlpObject :=
  match stringPtr with
  | none =>
      if stringLen ≠ 0 then boatThrow boatErrorCommonInvalidArgument
      else .ok (.string [])
  | some bytes =>
      if stringLen ≤ bytes.length then .ok (.string (bytes.take stringLen))
      else .error .undefined

def rlpInitListObject : RlpObject :=
  .list []

/-- The list with `fromObject` appended, and the index it got. -/
def rlpEncoderAppendObjectToList (toListObject fromObject : RlpObject) :
    Outcome (RlpObject × Nat) :=
  match toListObject with
  | .string _ => boatThrow boatErrorCommonInvalidArgument
  | .list descriptors =>
      if descriptors.length < maxRlpListDescNum then
        .ok (.list (descriptors ++ [fromObject]), descriptors.length)
      else boatThrow boatErrorRlpEncoderFail

/-- The list with its member at `replaceIndex` replaced. -/
def rlpEncoderReplaceObjectInList (toListObject : RlpObject)
    (replaceIndex : Int) (fromObject : RlpObject) : Outcome RlpObject :=
  if replaceIndex < 0 then boatThrow boatErrorCommonInvalidArgument
  else
    match toListObject with
    | .string _ => boatThrow boatErrorCommonInvalidArgument
    | .list descriptors =>
        if replaceIndex.toNat < descriptors.length then
          .ok (.list (descriptors.set replaceIndex.toNat fromObject))
        else boatThrow boatErrorRlpEncoderFail

/-- One byte up to `0x7f`, the field that is its own encoding. -/
def rlpIsSingleByte (field : List UInt8) : Bool :=
  field.length == 1 && (field.headD 0).toNat ≤ 0x7f

mutual

/-- The encoded length of an object and the size of its head, in 32-bit
arithmetic. -/
def rlpRecursiveCalcEncodingSize : RlpObject → Nat × Nat
  | .string field =>
      let fieldLen := field.length
      if rlpIsSingleByte field then (1, 0)
      else if fieldLen ≤ 55 then (buint32 (1 + fieldLen), 1)
      else
        let trimmed := utilityUint32ToBigend fieldLen .leftTrim
        (buint32 (1 + trimmed.length + fieldLen), 1 + trimmed.length)
  | .list descriptors =>
      let sumOfSubFieldLen := rlpSumOfSubFieldLen descriptors 0
      if sumOfSubFieldLen = rlpStreamLenUnknown then (rlpStreamLenUnknown, 0)
      else if sumOfSubFieldLen ≤ 55 then (buint32 (1 + sumOfSubFieldLen), 1)
      else
        let trimmed := utilityUint32ToBigend sumOfSubFieldLen .leftTrim
        (buint32 (1 + trimmed.length + sumOfSubFieldLen), 1 + trimmed.length)

/-- The loop over the descriptors with its running sum. -/
def rlpSumOfSubFieldLen : List RlpObject → Nat → Nat
  | [], sum => sum
  | object :: rest, sum =>
      let subFieldLen := (rlpRecursiveCalcEncodingSize object).1
      if subFieldLen ≠ rlpStreamLenUnknown then
        rlpSumOfSubFieldLen rest (buint32 (sum + subFieldLen))
      else rlpStreamLenUnknown

end

/-- The bytes a string object is written as. -/
def rlpStringStream (field : List UInt8) : List UInt8 :=
  if rlpIsSingleByte field then field
  else if field.length ≤ 55 then
    UInt8.ofNat (rlpPrefixBaseString + field.length) :: field
  else
    let trimmed := utilityUint32ToBigend field.length .leftTrim
    UInt8.ofNat (rlpPrefixBaseString + trimmed.length + 55) :: trimmed ++ field

/-- The head of a list object whose members take `len` bytes. -/
def rlpListHead (len : Nat) : List UInt8 :=
  if len ≤ 55 then [UInt8.ofNat (rlpPrefixBaseList + len)]
  else
    let trimmed := utilityUint32ToBigend len .leftTrim
    UInt8.ofNat (rlpPrefixBaseList + trimmed.length + 55) :: trimmed

mutual

/-- The stream of an object.  `parentStorage` is the room left in the parent's
storage, `none` for a null parent; `malloc` answers an allocation with a fresh
block or with null. -/
def rlpEncode (malloc : Nat → Option (List UInt8)) :
    RlpObject → Option Nat → Outcome (List UInt8)
  | object, parentStorage =>
      let streamLen := (rlpRecursiveCalcEncodingSize object).1
      let headSize := (rlpRecursiveCalcEncodingSize object).2
      if streamLen = rlpStreamLenUnknown then boatThrow boatErrorRlpEncoderFail
      else if parentStorage.any (· < streamLen) then
        boatThrow boatErrorCommonInvalidArgument
      else
        match object with
        | .string field =>
            match parentStorage with
            | none => boatThrow boatErrorCommonInvalidArgument
            | some room =>
                if room < (rlpStringStream field).length then .error .undefined
                else if field.length > 55 ∧
                    buint32 (rlpStringStream field).length ≠ streamLen then
                  boatThrow boatErrorRlpEncoderFail
                else .ok (rlpStringStream field)
        | .list descriptors =>
            match malloc streamLen with
            | none => boatThrow boatErrorCommonOutOfMemory
            | some block =>
                match rlpEncodeMembers malloc descriptors block headSize
                    (buint32 (streamLen + 2 ^ 32 - headSize)) with
                | .error failure => .error failure
                | .ok filled =>
                    storeAt filled 0
                      (rlpListHead (buint32 (streamLen + 2 ^ 32 - headSize)))

/-- The loop over the members: each is written at `offset` into the list's
block, `room` being what the size pass left for the rest. -/
def rlpEncodeMembers (malloc : Nat → Option (List UInt8)) :
    List RlpObject → List UInt8 → Nat → Nat → Outcome (List UInt8)
  | [], block, _, _ => .ok block
  | object :: rest, block, offset, room =>
      let subStreamLen := (rlpRecursiveCalcEncodingSize object).1
      if subStreamLen = rlpStreamLenUnknown then
        boatThrow boatErrorRlpEncoderFail
      else
        match rlpEncode malloc object (some room) with
        | .error .undefined => .error .undefined
        | .error (.code _) => boatThrow boatErrorRlpEncoderFail
        | .ok stream =>
            match storeAt block offset stream with
            | .error failure => .error failure
            | .ok stored =>
                if room < subStreamLen then boatThrow boatErrorRlpEncoderFail
                else
                  rlpEncodeMembers malloc rest stored
                    (offset + subStreamLen) (room - subStreamLen)

end

end BoatFramework
