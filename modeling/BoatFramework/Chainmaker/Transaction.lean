/-
The ChainMaker transaction: the parameters that are set one call at a time, the
messages of the protocol, and `hlchainmakerTransactionPacked`, which signs a
payload and frames the request for it.
-/
import BoatFramework.Base.Hex
import BoatFramework.Http2.SendBuf
import BoatFramework.Network.Packed
import BoatFramework.Tx.Fields

namespace BoatFramework

def boatHlchainmakerArgsMaxNum : Nat := 10

/-- A failure of the request, or what the response buffer points at. -/
inductive Http2Reply where
  | failed (code : RpcFailure)
  | received (http2Res : Option (List UInt8))

/-- The bytes behind the header of a frame, as `httpResLen - 5` and
`http2Res + 5` are read; a body that is shorter than the header has a length
that wraps around, and reading it is undefined. -/
def grpcMessage (body : List UInt8) : Outcome (List UInt8) :=
  if body.length < 5 then .error .undefined else .ok (body.drop 5)

/-- A pointer to text: the caller's, into the frame of the call that runs, or
into the frame of one that has returned. -/
inductive ParamText where
  | caller (text : CString)
  | frame (text : List Char)
  | dangling
deriving DecidableEq

/-- The bytes behind a pointer. -/
def ParamText.bytes : ParamText → Outcome (List UInt8)
  | .caller text => .ok text.bytes
  | .frame text => .ok (asciiBytes text)
  | .dangling => .error .undefined

/-- A pointer after the frame of the running call is gone. -/
def ParamText.expire : ParamText → ParamText
  | .frame _ => .dangling
  | other => other

/-- `BoatKeyValuePair`; a pointer that was never set is null. -/
structure BoatKeyValuePair where
  key : Option ParamText
  value : Option ParamText
deriving DecidableEq

def BoatKeyValuePair.expire (pair : BoatKeyValuePair) : BoatKeyValuePair :=
  ⟨pair.key.map ParamText.expire, pair.value.map ParamText.expire⟩

structure BoatTransactionParams where
  nParameters : Nat
  parameters : {pairs : List BoatKeyValuePair //
    pairs.length = boatHlchainmakerArgsMaxNum}

namespace BoatTransactionParams

/-- The pairs that are in use. -/
def list (params : BoatTransactionParams) : List BoatKeyValuePair :=
  params.parameters.1.take params.nParameters

/-- Change the pair behind those in use. -/
def modifyNext (params : BoatTransactionParams)
    (change : BoatKeyValuePair → BoatKeyValuePair) : BoatTransactionParams where
  nParameters := params.nParameters
  parameters := ⟨params.parameters.1.modify params.nParameters change, by
    rw [List.length_modify, params.parameters.2]⟩

def setKey (params : BoatTransactionParams) (key : ParamText) :
    BoatTransactionParams :=
  params.modifyNext fun pair => { pair with key := some key }

/-- Set the value of the next pair, which is in use from then on. -/
def setValue (params : BoatTransactionParams) (value : ParamText) :
    BoatTransactionParams :=
  { params.modifyNext fun pair => { pair with value := some value } with
    nParameters := params.nParameters + 1 }

/-- The parameters after the frame of the running call is gone. -/
def expire (params : BoatTransactionParams) : BoatTransactionParams where
  nParameters := params.nParameters
  parameters := ⟨params.parameters.1.map BoatKeyValuePair.expire, by
    rw [List.length_map, params.parameters.2]⟩

end BoatTransactionParams

structure BoatChainmakerTx where
  networkInfo : BoatChainmakerNetworkData
  transPara : BoatTransactionParams
  gasLimit : UInt64

/-- The loop of `BoatChainmakerAddTxParam` from its step `i`; arguments that
are read but were not given are undefined. -/
def addTxParamLoop (length : Nat) :
    Nat → List (Option ParamText) → BoatTransactionParams →
      Outcome Unit × BoatTransactionParams
  | i, args, params =>
    if i < length then
      match args with
      | [] => (.error .undefined, params)
      | none :: _ => (boatThrow boatErrorCommonInvalidArgument, params)
      | some text :: rest =>
          addTxParamLoop length (i + 1) rest
            (if i % 2 = 1 then params.setValue text else params.setKey text)
    else (.ok (), params)

/-- `BoatChainmakerAddTxParam`. -/
def boatChainmakerAddTxParam (length : UInt8) (arg : Option ParamText)
    (args : List (Option ParamText)) (params : BoatTransactionParams) :
    Outcome Unit × BoatTransactionParams :=
  if boatHlchainmakerArgsMaxNum < length.toNat ∨ length.toNat % 2 = 1 then
    (boatThrow boatErrorCommonInvalidArgument, params)
  else
    let cleared := { params with nParameters := 0 }
    addTxParamLoop length.toNat 1 args
      (match arg with
        | some key => cleared.setKey key
        | none => cleared)

inductive TxType where
  | invokeUserContract
  | queryUserContract
  | querySystemContract

def TxType.number : TxType → Nat
  | .invokeUserContract => 0
  | .queryUserContract => 1
  | .querySystemContract => 3

section Messages

/-- The message `Common__KeyValuePair`. -/
structure KeyValuePair where
  key : List UInt8
  value : List UInt8
deriving DecidableEq

def KeyValuePair.pack (message : KeyValuePair) : List UInt8 :=
  Protobuf.stringField 1 message.key ++ Protobuf.stringField 2 message.value

/-- The message `Common__ChainmakerPayload`, with the one field of its limit. -/
structure ChainmakerPayload where
  chainId : CString
  txType : TxType
  txId : List Char
  timestamp : Nat
  contractName : CString
  method : CString
  parameters : List KeyValuePair
  sequence : Nat
  gasLimit : UInt64

def ChainmakerPayload.pack (message : ChainmakerPayload) : List UInt8 :=
  Protobuf.stringField 1 message.chainId.bytes ++
    (Protobuf.uintField 2 message.txType.number ++
      (Protobuf.stringField 3 (asciiBytes message.txId) ++
        (Protobuf.uintField 4 message.timestamp ++
          (Protobuf.stringField 6 message.contractName.bytes ++
            (Protobuf.stringField 7 message.method.bytes ++
              (Protobuf.repeatedField 8 KeyValuePair.pack message.parameters ++
                (Protobuf.uintField 9 message.sequence ++
                  Protobuf.lengthField 10
                    (Protobuf.uintField 1 message.gasLimit.toNat))))))))

/-- The message `Accesscontrol__Member`. -/
structure Member where
  orgId : CString
  memberType : UInt32
  memberInfo : List UInt8

def Member.pack (message : Member) : List UInt8 :=
  Protobuf.stringField 1 message.orgId.bytes ++
    (Protobuf.uintField 2 message.memberType.toNat ++
      Protobuf.stringField 3 message.memberInfo)

/-- The message `Common__TxRequest`, with its one endorsement. -/
structure TxRequest where
  payload : ChainmakerPayload
  signer : Member
  signature : List UInt8

def TxRequest.pack (message : TxRequest) : List UInt8 :=
  Protobuf.lengthField 1 message.payload.pack ++
    Protobuf.lengthField 2 (Protobuf.lengthField 1 message.signer.pack ++
      Protobuf.stringField 2 message.signature)

end Messages

/-- The message `Common__ContractResult`. -/
structure ContractResult where
  result : List UInt8
  message : List Char
  gasUsed : UInt64

/-- The message `Common__TxResponse`. -/
structure TxResponse where
  code : Int
  message : List Char
  contractResult : Option ContractResult
  txId : List Char

/-- The message `Common__Result`. -/
structure TxResult where
  code : Int
  contractResult : Option ContractResult

/-- The message `Common__TransactionInfoWithRWSet`: its transaction, and the
result of that. -/
structure TransactionInfoWithRWSet where
  transaction : Option (Option TxResult)

/-- What the calls of an invocation meet outside: for the id of each number its
random bytes, if there are any; for the packing of each number the time, and
what its allocations, its hash and its signature come to; the reply to its
request; and the functions that unpack. -/
structure ChainmakerEnv where
  random : Nat → Option (Block 32)
  times : Nat → Nat
  sign : Nat → List UInt8 → Except RealFailure (List UInt8)
  reply : Nat → Http2Reply
  unpackTxResponse : List UInt8 → Option TxResponse
  unpackRwset : List UInt8 → Option TransactionInfoWithRWSet

structure BoatResponseData where
  code : Int
  message : Option (List Char)
  txId : List Char
  gasUsed : UInt64
  contractCode : Int
  contractMessage : Option (List Char)

structure ChainmakerState where
  tx : BoatChainmakerTx
  sendBuf : SendBuf
  ids : Nat
  packings : Nat
  requests : List TxRequest
  responseData : BoatResponseData

abbrev ChainmakerM := EStateM Failure ChainmakerState

/-- The pair of messages for a pair of pointers; a null key is left out. -/
def packPair (pair : BoatKeyValuePair) : Outcome KeyValuePair := do
  let key ← (pair.key.map ParamText.bytes).getD (.ok [])
  let value ← (pair.value.map ParamText.bytes).getD (.error .undefined)
  pure ⟨key, value⟩

/-- The payload of a transaction record. -/
def chainmakerPayload (tx : BoatChainmakerTx) (method contractName : CString)
    (txType : TxType) (txId : List Char) (timestamp : Nat) :
    Outcome ChainmakerPayload := do
  let parameters ← tx.transPara.list.mapM packPair
  pure {
    chainId := tx.networkInfo.chainId
    txType := txType
    txId := txId
    timestamp := timestamp
    contractName := contractName
    method := method
    parameters := parameters
    sequence := 0
    gasLimit := tx.gasLimit }

/-- The request for a payload and its signature. -/
def chainmakerRequest (tx : BoatChainmakerTx) (payload : ChainmakerPayload)
    (signature : List UInt8) : Outcome TxRequest := do
  let cert := tx.networkInfo.clientSignCertContent
  let memberInfo ← if 1024 < cert.length.toNat then .error .undefined
    else .ok (cert.content.1.take cert.length.toNat)
  pure {
    payload := payload
    signer := ⟨tx.networkInfo.orgId, tx.networkInfo.clientMemberType,
      memberInfo⟩
    signature := signature }

/-- The request of the packing of a number, or why there is none. -/
def packedRequest (env : ChainmakerEnv) (n : Nat) (tx : BoatChainmakerTx)
    (method contractName : CString) (txType : TxType) (txId : List Char) :
    Outcome TxRequest := do
  let payload ← chainmakerPayload tx method contractName txType txId
    (env.times n)
  match env.sign n payload.pack with
  | .error failure => .error failure
  | .ok signature => chainmakerRequest tx payload signature

/-- `hlchainmakerTransactionPacked`. -/
def hlchainmakerTransactionPacked (env : ChainmakerEnv)
    (method contractName : CString) (txType : TxType) (txId : List Char) :
    ChainmakerM Unit :=
  fun state =>
    let counted := { state with packings := state.packings + 1 }
    match packedRequest env state.packings state.tx method contractName txType
        txId with
    | .error failure => .error failure counted
    | .ok request =>
        match hlchainmakerFrame request.pack state.sendBuf with
        | .error failure sendBuf => .error failure { counted with sendBuf }
        | .ok _ sendBuf =>
            .ok () { counted with
              sendBuf, requests := state.requests ++ [request] }

end BoatFramework
