/-
The messages that `boathlfabric.c` packs: the headers, the proposal's payload,
the transaction over the endorsements, and the signed envelope in the send
buffer.
-/
import BoatFramework.Base.ProtobufFields
import BoatFramework.Hlfabric.TxExec
import BoatFramework.Http2.SendBuf
import BoatFramework.Utility.HexConvert

namespace BoatFramework

open Protobuf

def boatErrorCommonGenRandFail : BoatResult := -10110000

/-- `BOAT_HLFABRIC_ARGS_MAX_NUM`. -/
def boatHlfabricArgsMaxNum : Nat := 10

structure BoatHlfabricTimestamp where
  sec : UInt64
  nanos : UInt64

/-- A pointer that may be NULL is none here. -/
structure BoatHlfabricChaincodeId where
  path : Option CString
  name : Option CString
  version : Option CString

/-- The first `nArgs` places of the array of arguments. -/
abbrev BoatHlfabricArgs :=
  {args : List (Option CString) // args.length ≤ boatHlfabricArgsMaxNum}

/-- What the packers read of a transaction; the nonce is as long as its length
says. -/
structure BoatHlfabricVariable where
  timestamp : BoatHlfabricTimestamp
  nonce : List UInt8
  chaincodeId : BoatHlfabricChaincodeId
  args : BoatHlfabricArgs
  channelId : Option CString
  orgName : Option CString

/-- `BoatHlfabricTxSetArgs`: the arguments behind the first one end with NULL;
the tenth is kept, but it is refused. -/
def boatHlfabricTxSetArgs (arg1 : Option CString) (others : List CString) :
    BoatResult × BoatHlfabricArgs :=
  (if boatHlfabricArgsMaxNum ≤ others.length + 1 then
      boatErrorCommonOutOfMemory
    else boatSuccess,
    ⟨(arg1 :: others.map some).take boatHlfabricArgsMaxNum,
      List.length_take_le _ _⟩)

/-- The hash and the signature; a signature need not have the PKCS format. -/
structure FabricCrypto where
  sha256 : List UInt8 → Except BoatResult (Bytes 32)
  sign : Bytes 32 → Except BoatResult (Option (List UInt8))

/-- A block is reserved for as many bytes as a length of some bits counts, and
all are written into it. -/
def inBlock (bits : Nat) (bytes : List UInt8) : Outcome (List UInt8) :=
  if bytes.length < 2 ^ bits then .ok bytes else .error .undefined

def packFields (bits : Nat) (fields : List Field) : Outcome (List UInt8) :=
  inBlock bits (writeFields fields)

/-- A text is left out where its pointer is NULL. -/
def textField (number : Nat) (text : Option CString) : List Field :=
  (text.map fun text => .bytes number text.bytes).toList

/-- A signed number of 32 bits on the wire. -/
def int32Wire (n : Nat) : Nat :=
  if n % 2 ^ 32 < 2 ^ 31 then n % 2 ^ 32 else n % 2 ^ 32 + (2 ^ 64 - 2 ^ 32)

def FabricCrypto.hash (crypto : FabricCrypto) (bytes : List UInt8) :
    Outcome (Bytes 32) :=
  match crypto.sha256 bytes with
  | .ok digest => .ok digest
  | .error code => boatThrow code

section Headers

variable (crypto : FabricCrypto) (accountCertContent : BoatCertInfoCfg)
  (var : BoatHlfabricVariable)

def creatorFields (idBytes : List UInt8) : List Field :=
  textField 1 var.orgName ++ [.bytes 2 idBytes]

/-- The transaction id in binary, and the header. -/
def hlfabricSignatureHeaderPacked : Outcome (Bytes 32 × List UInt8) := do
  let idBytes ← loadAt accountCertContent.content.1 0
    accountCertContent.length.toNat
  let creator ← packFields 32 (creatorFields var idBytes)
  let txIdRawMaterial ← inBlock 32 (var.nonce ++ creator)
  let txIdBin ← crypto.hash txIdRawMaterial
  let header ← packFields 32 [.bytes 1 creator, .bytes 2 var.nonce]
  .ok (txIdBin, header)

def chaincodeIdFields : List Field :=
  textField 1 var.chaincodeId.path ++
    (textField 2 var.chaincodeId.name ++ textField 3 var.chaincodeId.version)

def timestampFields : List Field :=
  [.uint 1 var.timestamp.sec.toNat,
    .uint 2 (int32Wire var.timestamp.nanos.toNat)]

/-- `txIdString`. -/
def txIdText (txIdBin : Bytes 32) : List UInt8 :=
  asciiBytes (utilityBinToHex txIdBin.1 .leftTrimUnfmtData false false)

def channelHeaderFields (txIdBin : Bytes 32) : List Field :=
  [.uint 1 3, .bytes 3 (writeFields (timestampFields var))] ++
    (textField 4 var.channelId ++
      [.bytes 5 (txIdText txIdBin),
        .bytes 7 (writeFields
          [.bytes 2 (writeFields (chaincodeIdFields var))])])

def hlfabricChannelHeaderPacked (txIdBin : Bytes 32) : Outcome (List UInt8) :=
  packFields 32 (channelHeaderFields var txIdBin)

end Headers

section Payloads

variable (crypto : FabricCrypto) (accountCertContent : BoatCertInfoCfg)
  (var : BoatHlfabricVariable)

/-- An argument; where it is NULL, one without bytes. -/
def argField (arg : Option CString) : Field :=
  .bytes 1 ((arg.map CString.bytes).getD [])

def chaincodeSpecFields : List Field :=
  [.uint 1 1, .bytes 2 (writeFields (chaincodeIdFields var)),
    .bytes 3 (writeFields (var.args.1.map argField))]

/-- Both lengths have 16 bits. -/
def hlfabricProposalPayloadDataPacked : Outcome (List UInt8) := do
  let chaincodeInvocationSpec ←
    packFields 16 [.bytes 1 (writeFields (chaincodeSpecFields var))]
  packFields 16 [.bytes 1 chaincodeInvocationSpec]

def endorsementField (endorsement : Endorsement) : Field :=
  .bytes 2 (writeFields
    [.bytes 1 endorsement.endorser, .bytes 2 endorsement.signature])

def endorsedActionFields (action : EndorsedAction) : List Field :=
  .bytes 1 action.proposalResponsePayload ::
    action.endorsements.map endorsementField

/-- Where the signature header fails, a pointer that was never set is freed. -/
def hlfabricTransactionPayloadDataPacked (action : EndorsedAction) :
    Outcome (List UInt8) := do
  let payloadData ← hlfabricProposalPayloadDataPacked var
  let chaincodeActionPayload ← packFields 32
    [.bytes 1 payloadData, .bytes 2 (writeFields (endorsedActionFields action))]
  match hlfabricSignatureHeaderPacked crypto accountCertContent var with
  | .error _ => .error .undefined
  | .ok (_, header) =>
      packFields 32 [.bytes 1 (writeFields
        [.bytes 1 header, .bytes 2 chaincodeActionPayload])]

/-- The data of a proposal, or of the transaction over an action. -/
def payloadDataPacked : Option EndorsedAction → Outcome (List UInt8)
  | none => hlfabricProposalPayloadDataPacked var
  | some action =>
      hlfabricTransactionPayloadDataPacked crypto accountCertContent var action

/-- An error of an inner packer, under the code of the outer one. -/
def packetFail {α : Type} : Outcome α → Outcome α
  | .error (.code _) => boatThrow boatErrorCommonProtoPacketFail
  | run => run

def hlfabricPayloadPacked (action : Option EndorsedAction) :
    Outcome (List UInt8) := do
  let (txIdBin, signatureHeader) ← packetFail
    (hlfabricSignatureHeaderPacked crypto accountCertContent var)
  let channelHeader ← packetFail (hlfabricChannelHeaderPacked var txIdBin)
  let data ← packetFail
    (payloadDataPacked crypto accountCertContent var action)
  packFields 32 [.bytes 1 (writeFields
    [.bytes 1 channelHeader, .bytes 2 signatureHeader]), .bytes 2 data]

/-- What is signed: the payload, or nothing where packing it has failed, whose
result is overwritten. -/
def signedPayload (action : Option EndorsedAction) : Outcome (List UInt8) :=
  match hlfabricPayloadPacked crypto accountCertContent var action with
  | .error (.code _) => .ok []
  | run => run

/-- A proposal gets what `BoatRandom` gives as its nonce, a transaction keeps
that of its proposal. -/
def passVariable (random : Except BoatResult (Bytes 24)) :
    Option EndorsedAction → Outcome BoatHlfabricVariable
  | some _ => .ok var
  | none =>
      match random with
      | .error _ => boatThrow boatErrorCommonGenRandFail
      | .ok nonce => .ok { var with nonce := nonce.1 }

/-- `hlfabricProposalTransactionPacked` up to the envelope. -/
def envelopePacked (random : Except BoatResult (Bytes 24))
    (action : Option EndorsedAction) :
    Outcome (BoatHlfabricVariable × List UInt8) := do
  let var ← passVariable var random action
  let payload ← signedPayload crypto accountCertContent var action
  let digest ← crypto.hash payload
  match crypto.sign digest with
  | .error _ => boatThrow boatErrorCommonGenSignFail
  | .ok none => boatThrow boatErrorCommonGenSignFail
  | .ok (some signature) =>
      .ok (var, writeFields [.bytes 1 payload, .bytes 2 signature])

/-- The whole function: the envelope goes into the send buffer. -/
def hlfabricProposalTransactionPacked
    (random : Except BoatResult (Bytes 24)) (action : Option EndorsedAction) :
    FrameM BoatHlfabricVariable := do
  match envelopePacked crypto accountCertContent var random action with
  | .error e => throw e
  | .ok (var, envelope) =>
      hlfabricFrame envelope
      pure var

end Payloads

end BoatFramework
