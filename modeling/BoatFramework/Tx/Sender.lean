/-
`EthSendRawtx` and its hand-copied variants.  One list object is built over
string objects that point into the transaction record, encoded and hashed, then
edited in place and encoded again; the state keeps the pointers and the lengths
taken when an object was initialized, so an encoding reads what the storage
holds at that time.
-/
import BoatFramework.Tx.Fields
import BoatFramework.Web3.ParseResult

namespace BoatFramework

/-- What a node is asked to do with the signed transaction. -/
structure SendRequest where
  methodName : List Char
  signedtx : List Char
  extra : List (List Char)
deriving DecidableEq

/-- The calls a sender makes that others observe. -/
inductive SendEvent where
  | hashed (message : List UInt8)
  | sent (request : SendRequest)
deriving DecidableEq

/-- `BoatSignatureResult` without its PKCS form, which no sender reads. -/
structure BoatSignatureResult where
  nativeFormatUsed : Bool
  nativeSign : Block 64
  signPrefixUsed : Bool
  signPrefix : UInt8

/-- What the node answers to a query, or why it does not. -/
abbrev NodeAnswer := Except RpcFailure (List Char)

/-- What the senders call outside the transaction code. -/
structure SendEnv where
  malloc : Nat → Option (List UInt8)
  keccak256 : List UInt8 → List UInt8
  keystoreSign : List UInt8 → Except RpcFailure (Block 64 × UInt8)
  signatureToAsn1 : Block 64 → Option (List UInt8)
  sendRawTransaction : SendRequest → NodeAnswer
  cJSONParse : List Char → Option Json

/-- `BoatSignature`: the keystore's signature in both formats, its recovery
byte always used. -/
def boatSignature (env : SendEnv) (digest : List UInt8) :
    Except BoatResult BoatSignatureResult :=
  match env.keystoreSign digest with
  | .error code => .error code
  | .ok (signature, signPrefix) =>
      match env.signatureToAsn1 signature with
      | none => .error boatError
      | some _ => .ok ⟨true, signature, true, signPrefix⟩

structure SendState where
  tx : BoatTx
  stringLen : RlpVar → Nat
  descriptors : List RlpVar
  stream : Option (List UInt8)
  resultBuf : ResultBuffer
  events : List SendEvent

abbrev SendM := EStateM Failure SendState

/-- Leave the sender with a result code. -/
def sendThrow {α : Type} (code : BoatResult) : SendM α :=
  fun state => .error (.code code) state

namespace SendState

/-- The state with other raw transaction fields. -/
@[simps]
def setFields (state : SendState) (fields : RawtxFields) : SendState :=
  { state with tx := { state.tx with rawtxFields := fields } }

/-- The state with the length of an object taken from its field. -/
@[simps]
def initLen (state : SendState) (object : RlpVar) : SendState :=
  { state with
    stringLen := Function.update state.stringLen object
      (state.tx.rawtxFields.stringLen object) }

/-- The state with an object appended to the list. -/
@[simps]
def push (state : SendState) (object : RlpVar) : SendState :=
  { state with descriptors := state.descriptors ++ [object] }

/-- The state with an object put at an index of the list. -/
@[simps]
def putAt (state : SendState) (index : Nat) (object : RlpVar) : SendState :=
  { state with descriptors := state.descriptors.set index object }

@[simps]
def setStream (state : SendState) (stream : Option (List UInt8)) : SendState :=
  { state with stream }

@[simps]
def record (state : SendState) (event : SendEvent) : SendState :=
  { state with events := state.events ++ [event] }

@[simps]
def setTxHash (state : SendState) (txHash : BoatFieldMax 32) : SendState :=
  { state with tx := { state.tx with txHash } }

@[simps]
def setResultBuf (state : SendState) (resultBuf : ResultBuffer) : SendState :=
  { state with resultBuf }

/-- The state with an empty list object. -/
@[simps]
def initList (state : SendState) : SendState :=
  { state with descriptors := [], stream := none }

/-- The bytes a string object denotes now. -/
def stringBytes (state : SendState) (object : RlpVar) : List UInt8 :=
  ((state.tx.rawtxFields.stringPtr object).getD []).take
    (state.stringLen object)

/-- A length beyond the storage of its object. -/
def overruns (state : SendState) (object : RlpVar) : Bool :=
  decide (((state.tx.rawtxFields.stringPtr object).getD []).length <
    state.stringLen object)

def nullString (state : SendState) (object : RlpVar) : Bool :=
  decide (state.tx.rawtxFields.stringPtr object = none ∧
    state.stringLen object ≠ 0)

end SendState

/-- Change the raw transaction fields. -/
def modifyFields (change : RawtxFields → RawtxFields) : SendM Unit :=
  fun state => .ok () (state.setFields (change state.tx.rawtxFields))

def recordEvent (event : SendEvent) : SendM Unit :=
  fun state => .ok () (state.record event)

/-- `RlpInitStringObject` on the object of a field. -/
def initStringObject (fail : BoatResult) (object : RlpVar) : SendM Unit :=
  fun state =>
    if state.tx.rawtxFields.stringPtr object = none ∧
        state.tx.rawtxFields.stringLen object ≠ 0 then
      .error (.code fail) state
    else .ok () (state.initLen object)

/-- `RlpEncoderAppendObjectToList`: the index, `none` for a negative one. -/
def appendObject (object : RlpVar) : SendM (Option Nat) :=
  fun state =>
    if state.descriptors.length < maxRlpListDescNum then
      .ok (some state.descriptors.length) (state.push object)
    else .ok none state

/-- `RlpEncoderReplaceObjectInList`. -/
def replaceObject (index : Nat) (object : RlpVar) : SendM (Option Nat) :=
  fun state =>
    if index < state.descriptors.length then
      .ok (some index) (state.putAt index object)
    else .ok none state

/-- Put an object over its placeholder or behind the other members. -/
def putObject (replaceIndex : Option Nat) (object : RlpVar) :
    SendM (Option Nat) :=
  match replaceIndex with
  | some index => replaceObject index object
  | none => appendObject object

/-- Leave the sender when a checked index is negative. -/
def checkIndex (checked : Bool) (fail : BoatResult) (index : Option Nat) :
    SendM Unit :=
  if index.isNone && checked then sendThrow fail else pure ()

/-- `RlpEncode` and `RlpGetEncodedStream` on the list object. -/
def encodeTx (env : SendEnv) : SendM (List UInt8) :=
  fun state =>
    if state.descriptors.any state.nullString then
      .error (.code boatErrorRlpEncoderFail) state
    else if state.descriptors.any state.overruns then .error .undefined state
    else
      match rlpEncode env.malloc (.list (state.descriptors.map
          fun object => .string (state.stringBytes object))) none with
      | .error .undefined => .error .undefined state
      | .error (.code _) => .error (.code boatErrorRlpEncoderFail) state
      | .ok stream => .ok stream (state.setStream (some stream))

/-- `RlpReEncode`: the old stream is deleted first. -/
def reEncodeTx (env : SendEnv) : SendM (List UInt8) :=
  fun state => encodeTx env (state.setStream none)

/-- What distinguishes the variants of the sender. -/
structure Sender where
  leading : List RlpVar
  /-- The objects whose append is followed by no check of the index. -/
  unchecked : List RlpVar
  /-- Whether the sender knows the form of EIP-155. -/
  eip155 : Bool
  /-- What the constant added to the parity is outside EIP-155. -/
  plainBase : BoatTx → Nat
  /-- What happens to a field before its object is initialized. -/
  prepare : SendEnv → RlpVar → SendM Unit
  /-- Whether the list is encoded after each append, the result unused. -/
  encodeEach : Bool
  reinitFail : RlpVar → BoatResult
  reappendFail : RlpVar → BoatResult
  /-- Spare bytes of the hexadecimal buffer. -/
  hexSpare : Nat
  request : BoatTx → List Char → SendRequest
  parseResult : SendEnv → List Char → ResultBuffer →
    Outcome (BoatResult × ResultBuffer)

/-- The sender uses the form of EIP-155 for this transaction. -/
def Sender.usesEip155 (sender : Sender) (tx : BoatTx) : Bool :=
  sender.eip155 && tx.networkInfo.eip155Compatibility

/-- An encoding whose result nobody looks at. -/
def encodeUnchecked (env : SendEnv) : SendM Unit :=
  fun state =>
    match encodeTx env state with
    | .ok _ state' => .ok () state'
    | .error .undefined state' => .error .undefined state'
    | .error (.code _) state' => .ok () state'

/-- Initialize the object of a field and append it to the list. -/
def appendField (sender : Sender) (env : SendEnv) (object : RlpVar) :
    SendM Unit := do
  sender.prepare env object
  initStringObject boatErrorRlpStringInitFail object
  let index ← appendObject object
  checkIndex (object ∉ sender.unchecked) boatErrorRlpEncoderAppendFail index
  if sender.encodeEach then encodeUnchecked env else pure ()

/-- The chain id in place of `v`, with `r` and `s` empty. -/
def setPlaceholders (networkInfo : NetworkInfo) (fields : RawtxFields) :
    RawtxFields :=
  let chainIdBytes := utilityUint32ToBigend networkInfo.chainId .leftTrim
  { fields with
    v := ⟨fields.v.field.overlay chainIdBytes, chainIdBytes.length⟩
    rLen := 0
    sLen := 0 }

/-- Append the object of a placeholder and keep its index. -/
def appendPlaceholder (object : RlpVar) : SendM Nat := do
  initStringObject boatErrorRlpStringInitFail object
  let index ← appendObject object
  checkIndex true boatErrorRlpEncoderAppendFail index
  pure (index.getD 0)

/-- The three placeholders of EIP-155 and the indices they got. -/
def appendPlaceholders : SendM (Nat × Nat × Nat) := do
  fun state => modifyFields (setPlaceholders state.tx.networkInfo) state
  let vIndex ← appendPlaceholder .v
  let rIndex ← appendPlaceholder .r
  let sIndex ← appendPlaceholder .s
  pure (vIndex, rIndex, sIndex)

/-- Keep the trimmed halves of the signature. -/
def setSignature (signature : BoatSignatureResult) (fields : RawtxFields) :
    RawtxFields :=
  let r32B :=
    if signature.nativeFormatUsed then
      fields.r32B.overlay (signature.nativeSign.bytes.take 32)
    else fields.r32B
  let s32B :=
    if signature.nativeFormatUsed then
      fields.s32B.overlay (signature.nativeSign.bytes.drop 32)
    else fields.s32B
  let trimmedR := utilityTrimBin r32B.bytes .leftTrim true
  let trimmedS := utilityTrimBin s32B.bytes .leftTrim true
  { fields with
    r32B := r32B.overlay trimmedR
    rLen := trimmedR.length
    s32B := s32B.overlay trimmedS
    sLen := trimmedS.length }

/-- The recovery byte of a signature, zero when it gives none. -/
def sigParity (signature : BoatSignatureResult) : Nat :=
  if signature.signPrefixUsed then signature.signPrefix.toNat else 0

/-- The value of `v`, in 32-bit arithmetic. -/
def Sender.vValue (sender : Sender) (tx : BoatTx) (parity : Nat) : Nat :=
  if sender.usesEip155 tx then
    buint32 (tx.networkInfo.chainId * 2 + parity + 35)
  else parity + sender.plainBase tx

def setV (value : Nat) (fields : RawtxFields) : RawtxFields :=
  let vBytes := utilityUint32ToBigend value .leftTrim
  { fields with v := ⟨fields.v.field.overlay vBytes, vBytes.length⟩ }

/-- Keep the signature and the `v` that goes with it. -/
def keepSignature (sender : Sender) (signature : BoatSignatureResult) :
    SendM Unit :=
  fun state =>
    modifyFields (fun fields =>
      setV (sender.vValue state.tx (sigParity signature))
        (setSignature signature fields)) state

/-- Hash the message, sign the hash and keep the signature. -/
def signTx (sender : Sender) (env : SendEnv) (message : List UInt8) :
    SendM Unit := do
  recordEvent (.hashed message)
  match boatSignature env (env.keccak256 message) with
  | .error _ => sendThrow boatErrorCommonGenSignFail
  | .ok signature => keepSignature sender signature

/-- Initialize an object again and put it into the list. -/
def relistField (sender : Sender) (replaceIndex : Option Nat)
    (object : RlpVar) : SendM Unit := do
  initStringObject (sender.reinitFail object) object
  let index ← putObject replaceIndex object
  checkIndex true (sender.reappendFail object) index

/-- The text of the stream in a buffer of its own.  The size of the buffer is
computed in 32-bit arithmetic. -/
def streamToHex (sender : Sender) (env : SendEnv) (stream : List UInt8) :
    SendM (List Char) :=
  fun state =>
    let size := buint32 (stream.length * 2 + 2 + 1 + sender.hexSpare)
    match env.malloc size with
    | none => .error (.code boatErrorCommonOutOfMemory) state
    | some _ =>
        if size < 43 ∨ size < stream.length * 2 + 3 then
          .error .undefined state
        else
          .ok (utilityBinToHex stream .leftTrimUnfmtData true false) state

/-- Take the transaction hash from the result buffer. -/
def keepTxHash : SendM Unit :=
  fun state =>
    let (bytes, len) :=
      utilityHexToBin 32 (state.resultBuf.content.getD []) .trimNo false
    .ok () (state.setTxHash ⟨state.tx.txHash.field.overlay bytes, len⟩)

/-- Take what a parser left in the result buffer, or leave with its code. -/
def keepParsed (parsed : Outcome (BoatResult × ResultBuffer)) : SendM Unit :=
  fun state =>
    match parsed with
    | .error failure => .error failure state
    | .ok (result, resultBuf) =>
        if result = boatSuccess then .ok () (state.setResultBuf resultBuf)
        else .error (.code result) (state.setResultBuf resultBuf)

/-- Parse a response into the result buffer. -/
def parseResponse (sender : Sender) (env : SendEnv) (response : List Char) :
    SendM Unit :=
  fun state =>
    keepParsed (sender.parseResult env response state.resultBuf) state

/-- Ask the node to send the transaction. -/
def requestSend (sender : Sender) (env : SendEnv) (signedtx : List Char) :
    SendM (List Char) :=
  fun state =>
    let request := sender.request state.tx signedtx
    match env.sendRawTransaction request with
    | .error code => .error (.code code) (state.record (.sent request))
    | .ok response => .ok response (state.record (.sent request))

/-- Send the transaction and take its hash from the response. -/
def sendToNode (sender : Sender) (env : SendEnv) (signedtx : List Char) :
    SendM Unit := do
  let response ← requestSend sender env signedtx
  parseResponse sender env response
  keepTxHash

/-- `RlpInitListObject`, after the transaction hash was cleared. -/
def initTx (env : SendEnv) : SendM Unit :=
  fun state =>
    let cleared := state.setTxHash ⟨state.tx.txHash.field, 0⟩
    match env.malloc 128 with
    | none => .error (.code boatErrorRlpListInitFail) cleared
    | some _ => .ok () cleared.initList

/-- The placeholders where the form of EIP-155 is in use. -/
def addPlaceholders (sender : Sender) : SendM (Option (Nat × Nat × Nat)) :=
  fun state =>
    if sender.usesEip155 state.tx then
      (do return some (← appendPlaceholders)) state
    else .ok none state

/-- The common body of the senders. -/
def sendRawtx (sender : Sender) (env : SendEnv) : SendM Unit := do
  initTx env
  sender.leading.forM (appendField sender env)
  let indices ← addPlaceholders sender
  let message ← encodeTx env
  signTx sender env message
  relistField sender (indices.map (·.1)) .v
  relistField sender (indices.map (·.2.1)) .r
  relistField sender (indices.map (·.2.2)) .s
  let stream ← reEncodeTx env
  let signedtx ← streamToHex sender env stream
  sendToNode sender env signedtx

def keepFields (_ : SendEnv) (_ : RlpVar) : SendM Unit :=
  pure ()

/-- Six fields, the codes of the re-encoding mixed, and one append unchecked. -/
def ethSender : Sender where
  leading := [.nonce, .gasprice, .gaslimit, .recipient, .value, .data]
  unchecked := [.gaslimit]
  eip155 := true
  plainBase := fun _ => 27
  prepare := keepFields
  encodeEach := false
  reinitFail := fun
    | .r => boatErrorRlpEncoderFail
    | _ => boatErrorRlpStringInitFail
  reappendFail := fun
    | .v => boatErrorRlpEncoderReplaceFail
    | _ => boatErrorRlpEncoderFail
  hexSpare := 0
  request := fun _ signedtx =>
    ⟨"eth_sendRawTransaction".toList, signedtx, []⟩
  parseResult := fun env response buffer =>
    ethParseJsonResult env.cJSONParse env.malloc response [] buffer

def platonSender : Sender where
  leading := [.nonce, .gasprice, .gaslimit, .recipient, .value, .data]
  unchecked := []
  eip155 := true
  plainBase := fun _ => 27
  prepare := keepFields
  encodeEach := false
  reinitFail := fun _ => boatErrorRlpStringInitFail
  reappendFail := fun _ => boatErrorRlpEncoderAppendFail
  hexSpare := 0
  request := fun _ signedtx =>
    ⟨"platon_sendRawTransaction".toList, signedtx, []⟩
  parseResult := fun env response buffer =>
    platonParseJsonResult env.cJSONParse env.malloc response [] buffer

/-- The transaction type is the seventh item. -/
def platoneSender : Sender where
  leading :=
    [.nonce, .gasprice, .gaslimit, .recipient, .value, .data, .txtype]
  unchecked := []
  eip155 := true
  plainBase := fun _ => 27
  prepare := keepFields
  encodeEach := false
  reinitFail := fun _ => boatErrorRlpStringInitFail
  reappendFail := fun _ => boatErrorRlpEncoderAppendFail
  hexSpare := 0
  request := fun _ signedtx =>
    ⟨"eth_sendRawTransaction".toList, signedtx, []⟩
  parseResult := fun env response buffer =>
    platoneParseJsonResult env.cJSONParse env.malloc response [] buffer

/-- The reserved segment is always sent empty. -/
def clearExtraData (_ : SendEnv) (object : RlpVar) : SendM Unit :=
  if object = .extraData then
    modifyFields fun fields =>
      { fields with extraData := ⟨fields.extraData.fieldPtr, 0⟩ }
  else pure ()

/-- Ten fields and no form of EIP-155; the group id goes with the request. -/
def fiscobcosSender : Sender where
  leading :=
    [.nonce, .gasprice, .gaslimit, .blocklimit, .recipient, .value, .data,
      .chainid, .groupid, .extraData]
  unchecked := [.data]
  eip155 := false
  plainBase := fun _ => 27
  prepare := clearExtraData
  encodeEach := false
  reinitFail := fun _ => boatErrorRlpStringInitFail
  reappendFail := fun _ => boatErrorRlpEncoderAppendFail
  hexSpare := 0
  request := fun tx signedtx =>
    let groupid := tx.rawtxFields.groupid
    ⟨"sendRawTransaction".toList, signedtx,
      [utilityBinToHex (groupid.field.bytes.take groupid.fieldLen)
        .leftTrimQuantity false false]⟩
  parseResult := fun env response buffer =>
    fiscobcosParseJsonResult env.cJSONParse env.malloc response [] buffer

/-- The data of a private transaction is the hash in the result buffer, in a
block of 64 bytes. -/
def fillPrivateData (env : SendEnv) (object : RlpVar) : SendM Unit :=
  fun state =>
    if object = .data ∧ state.tx.isPrivate = true then
      match env.malloc 64 with
      | none => .error (.code boatErrorCommonOutOfMemory) state
      | some block =>
          let written := (utilityHexToBin 64
            (state.resultBuf.content.getD []) .trimNo false).1
          let data := (written ++ block.drop written.length).take 64
          .ok () (state.setFields
            { state.tx.rawtxFields with data := ⟨some data, 64⟩ })
    else .ok () state

/-- Quorum encodes after every append and has a private form of its own. -/
def quorumSender : Sender where
  leading := [.nonce, .gasprice, .gaslimit, .recipient, .value, .data]
  unchecked := [.gaslimit]
  eip155 := true
  plainBase := fun tx => if tx.isPrivate then 37 else 27
  prepare := fillPrivateData
  encodeEach := true
  reinitFail := fun
    | .r => boatErrorRlpEncoderFail
    | _ => boatErrorRlpStringInitFail
  reappendFail := fun
    | .v => boatErrorRlpEncoderReplaceFail
    | _ => boatErrorRlpEncoderFail
  hexSpare := 80
  request := fun tx signedtx =>
    if tx.isPrivate then
      ⟨"eth_sendRawPrivateTransaction".toList, signedtx,
        ["ROAZBWtSacxXQrOe3FGAqJDyJjFePR5ce4TSIzmJ0Bc=".toList]⟩
    else ⟨"eth_sendRawTransaction".toList, signedtx, []⟩
  parseResult := fun env response buffer =>
    quorumParseJsonResult env.cJSONParse env.malloc response "tx".toList
      "input".toList buffer

def ethSendRawtx := sendRawtx ethSender
def platonSendRawtx := sendRawtx platonSender
def platoneSendRawtx := sendRawtx platoneSender
def fiscobcosSendRawtx := sendRawtx fiscobcosSender
def quorumSendRawtx := sendRawtx quorumSender

end BoatFramework
