/-
The transaction records of the Ethereum family: fixed-size field storage with
an effective length, the raw transaction fields, and the buffers the RLP string
objects of the senders point at.
-/
import BoatFramework.Rlp.Object
import BoatFramework.Utility.HexConvert
import Mathlib.Logic.Function.Basic

namespace BoatFramework

/-- An array of `size` bytes. -/
structure Block (size : Nat) where
  bytes : List UInt8
  length_bytes : bytes.length = size

/-- The array after its first bytes were overwritten. -/
def Block.overlay {size : Nat} (block : Block size) (out : List UInt8) :
    Block size where
  bytes := (out ++ block.bytes.drop out.length).take size
  length_bytes := by
    have hblock := block.length_bytes
    simp only [List.length_take, List.length_append, List.length_drop]
    omega

def Block.zero (size : Nat) : Block size :=
  ⟨List.replicate size 0, List.length_replicate⟩

theorem Block.take_overlay {size : Nat} (block : Block size)
    {out : List UInt8} (hout : out.length ≤ size) :
    (block.overlay out).bytes.take out.length = out := by
  rw [overlay, List.take_take, Nat.min_eq_left hout, List.take_left]

/-- `BoatFieldMax4B`, `BoatFieldMax32B`: storage and effective length. -/
structure BoatFieldMax (size : Nat) where
  field : Block size
  fieldLen : Nat

/-- `BoatFieldVariable`: a pointer, null as `none`, and its length. -/
structure BoatFieldVariable where
  fieldPtr : Option (List UInt8)
  fieldLen : Nat

/-- The raw transaction fields.  The protocols inherit the fields of Ethereum
and append their own: `txtype` is PlatONE's, the last four are those of
FISCO BCOS. -/
structure RawtxFields where
  nonce : BoatFieldMax 32
  gasprice : BoatFieldMax 32
  gaslimit : BoatFieldMax 32
  recipient : Block 20
  value : BoatFieldMax 32
  data : BoatFieldVariable
  v : BoatFieldMax 4
  r32B : Block 32
  rLen : Nat
  s32B : Block 32
  sLen : Nat
  txtype : Nat
  blocklimit : BoatFieldMax 32
  chainid : BoatFieldMax 32
  groupid : BoatFieldMax 32
  extraData : BoatFieldVariable

structure NetworkInfo where
  chainId : Nat
  eip155Compatibility : Bool

structure BoatTx where
  networkInfo : NetworkInfo
  txHash : BoatFieldMax 32
  isPrivate : Bool
  rawtxFields : RawtxFields

/-- The RLP string objects of the senders, each named after the field whose
storage it points at. -/
inductive RlpVar where
  | nonce
  | gasprice
  | gaslimit
  | blocklimit
  | recipient
  | value
  | data
  | txtype
  | chainid
  | groupid
  | extraData
  | v
  | r
  | s
deriving DecidableEq

namespace RawtxFields

/-- The storage a string object points at, as it stands now. -/
def stringPtr (fields : RawtxFields) : RlpVar → Option (List UInt8)
  | .nonce => some fields.nonce.field.bytes
  | .gasprice => some fields.gasprice.field.bytes
  | .gaslimit => some fields.gaslimit.field.bytes
  | .blocklimit => some fields.blocklimit.field.bytes
  | .recipient => some fields.recipient.bytes
  | .value => some fields.value.field.bytes
  | .data => fields.data.fieldPtr
  | .txtype => some (utilityUint64ToBigend fields.txtype .leftTrim)
  | .chainid => some fields.chainid.field.bytes
  | .groupid => some fields.groupid.field.bytes
  | .extraData => fields.extraData.fieldPtr
  | .v => some fields.v.field.bytes
  | .r => some fields.r32B.bytes
  | .s => some fields.s32B.bytes

/-- The length a string object is initialized with. -/
def stringLen (fields : RawtxFields) : RlpVar → Nat
  | .nonce => fields.nonce.fieldLen
  | .gasprice => fields.gasprice.fieldLen
  | .gaslimit => fields.gaslimit.fieldLen
  | .blocklimit => fields.blocklimit.fieldLen
  | .recipient => 20
  | .value => fields.value.fieldLen
  | .data => fields.data.fieldLen
  | .txtype => (utilityUint64ToBigend fields.txtype .leftTrim).length
  | .chainid => fields.chainid.fieldLen
  | .groupid => fields.groupid.fieldLen
  | .extraData => fields.extraData.fieldLen
  | .v => fields.v.fieldLen
  | .r => fields.rLen
  | .s => fields.sLen

end RawtxFields

end BoatFramework
