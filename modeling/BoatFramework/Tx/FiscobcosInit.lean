/-
`BoatFiscobcosTxInit`: fields from strings that nothing looked at before, and
the block limit, the number of the current block and 500 in limbs of 30 bits.
-/
import BoatFramework.Tx.GroupId
import BoatFramework.Utility.Bignum

namespace BoatFramework

open ByteString

/-- Add an offset, limb by limb. -/
def addBignum : Nat → List Nat → List Nat
  | _, [] => []
  | offset, val :: vals =>
      let sum := buint32 (offset + val)
      (sum &&& 0x3FFFFFFF) :: addBignum (sum >>> 30) vals

/-- The 32 bytes of the sum of a big-endian number and an offset. -/
def addToBigend (bytes : List UInt8) (offset : Nat) : List UInt8 :=
  let limbs := addBignum offset
    (readBignum 0 0 (bigendWords (List.replicate (32 - bytes.length) 0 ++
      bytes)).reverse)
  writeBignum 0 (limbs.getD 8 0) (limbs.take 8).reverse

example : addToBigend [0x0F, 0xFF, 0xFF, 0xFF, 0xFF] 500 =
    List.replicate 27 0 ++ [0x10, 0x00, 0x00, 0x01, 0xF3] := by decide

/-- The arguments of `BoatFiscobcosTxInit`, null pointers as `none`, and the
node's answer about the current block. -/
structure FiscobcosInitArgs where
  gaspriceStr : Option (List Char)
  gaslimitStr : Option (List Char)
  recipientStr : Option (List Char)
  chainidStr : Option (List Char)
  groupidStr : Option (List Char)
  blockNumber : NodeAnswer

/-- A field filled from a string; a null pointer gives the length zero. -/
def BoatFieldMax.ofHexStr {size : Nat} (storage : Block size) :
    Option (List Char) → BoatFieldMax size
  | none => ⟨storage, 0⟩
  | some text => .ofHex storage text

/-- `BoatFiscobcosTxSetGasPrice`, which never asks the node. -/
def fiscobcosTxSetGasPrice (gasPrice : Option (BoatFieldMax 32)) : SendM Unit :=
  match gasPrice with
  | some gasprice => modifyFields fun fields => { fields with gasprice }
  | none => sendThrow boatErrorCommonInvalidArgument

/-- The recipient of a text, written over what the stack held. -/
def fiscobcosRecipient (stack : Block 20) (recipientStr : List Char) :
    Except BoatResult (Block 20) :=
  let (bytes, len) := utilityHexToBin 20 recipientStr .trimNo true
  if len = 0 then .error boatErrorCommonUtility
  else .ok (stack.overlay bytes)

/-- Set a field that must not be empty. -/
def setNonEmpty (field : RawtxFields → BoatFieldMax 32)
    (change : RawtxFields → RawtxFields) : SendM Unit := do
  modifyFields change
  fun state =>
    if (field state.tx.rawtxFields).fieldLen = 0 then
      .error (.code boatErrorCommonUtility) state
    else .ok () state

/-- The block limit: the number in the answer of the node and 500. -/
def blocklimitOf (storage : Block 32) (text : List Char) : BoatFieldMax 32 :=
  let (bytes, len) := utilityHexToBin 32 text .leftTrim false
  ⟨storage.overlay bytes, len⟩

def raiseBlocklimit (blocklimit : BoatFieldMax 32) : BoatFieldMax 32 :=
  let raised := trimLeft
    (addToBigend (blocklimit.field.bytes.take blocklimit.fieldLen) 500)
  ⟨(Block.zero 32).overlay raised, raised.length⟩

/-- `BoatFiscobcosParseRpcResponseStringResult` into the result buffer. -/
def keepBlockNumber (env : SendEnv) (response : List Char) : SendM Unit :=
  fun state =>
    keepParsed (fiscobcosParseJsonResult env.cJSONParse env.malloc response []
      state.resultBuf) state

/-- The number of the current block out of the result buffer. -/
def setBlockNumber : SendM Unit :=
  fun state =>
    setNonEmpty (·.blocklimit) (fun fields =>
      { fields with
        blocklimit := blocklimitOf fields.blocklimit.field
          (state.resultBuf.content.getD []) }) state

def initBlocklimit (env : SendEnv) (blockNumber : NodeAnswer) : SendM Unit :=
  match blockNumber with
  | .error _ => sendThrow boatErrorCommonInvalidArgument
  | .ok response => do
      keepBlockNumber env response
      setBlockNumber
      modifyFields fun fields =>
        { fields with blocklimit := raiseBlocklimit fields.blocklimit }

/-- The recipient of `BoatFiscobcosTxInit`; `stack` is what its local array
held before. -/
def fiscobcosInitRecipient (stack : Block 20) (recipientStr : List Char) :
    SendM Unit :=
  match fiscobcosRecipient stack recipientStr with
  | .error code => sendThrow code
  | .ok recipient => txSetRecipient recipient

/-- The fields behind the recipient: chain, group, block limit and no value. -/
def fiscobcosInitGroup (env : SendEnv) (args : FiscobcosInitArgs) :
    SendM Unit := do
  setNonEmpty (·.chainid) fun fields =>
    { fields with chainid := .ofHexStr fields.chainid.field args.chainidStr }
  setNonEmpty (·.groupid) fun fields =>
    { fields with groupid := .ofHexStr fields.groupid.field args.groupidStr }
  initBlocklimit env args.blockNumber
  txSetValue none

/-- `BoatFiscobcosTxInit`. -/
def boatFiscobcosTxInit (env : SendEnv) (stack : Block 20)
    (args : FiscobcosInitArgs) : SendM Unit :=
  match args.gaspriceStr, args.recipientStr with
  | some gaspriceStr, some recipientStr => do
      clearFields false
      fiscobcosTxSetGasPrice (some (localField gaspriceStr))
      txSetGasLimit (some (.ofHexStr (.zero 32) args.gaslimitStr))
      fiscobcosInitRecipient stack recipientStr
      fiscobcosInitGroup env args
  | _, _ => sendThrow boatErrorCommonInvalidArgument

end BoatFramework
