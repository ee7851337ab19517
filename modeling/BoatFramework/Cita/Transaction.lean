/-
The CITA transaction: the record, the messages it is packed into, and
`CitaSendRawtx`, which signs one message and sends the other as hexadecimal
text.
-/
import BoatFramework.Base.Protobuf
import BoatFramework.Network.Packed
import BoatFramework.Tx.Sender

namespace BoatFramework

structure BoatCitaRawtxFields where
  nonce : BoatFieldMax 32
  quota : UInt64
  validUntilBlock : UInt64
  recipient : Block 20
  value : BoatFieldMax 32
  data : BoatFieldVariable

/-- The raw fields after `memset`. -/
def BoatCitaRawtxFields.zero : BoatCitaRawtxFields where
  nonce := ⟨.zero 32, 0⟩
  quota := 0
  validUntilBlock := 0
  recipient := .zero 20
  value := ⟨.zero 32, 0⟩
  data := ⟨none, 0⟩

structure BoatCitaTx where
  networkInfo : BoatCitaNetworkData
  txHash : BoatFieldMax 32
  rawtxFields : BoatCitaRawtxFields

/-- The message `Transaction`, with the values of `TRANSACTION__INIT`. -/
structure Transaction where
  «to» : List UInt8 := []
  nonce : List Char := []
  quota : UInt64 := 0
  validUntilBlock : UInt64 := 0
  data : List UInt8 := []
  value : List UInt8 := []
  chainId : UInt32 := 0
  version : UInt32 := 0
  toV1 : List UInt8 := []
  chainIdV1 : List UInt8 := []

def Transaction.pack (message : Transaction) : List UInt8 :=
  Protobuf.stringField 1 message.to ++
    (Protobuf.stringField 2 (asciiBytes message.nonce) ++
      (Protobuf.uintField 3 message.quota.toNat ++
        (Protobuf.uintField 4 message.validUntilBlock.toNat ++
          (Protobuf.stringField 5 message.data ++
            (Protobuf.stringField 6 message.value ++
              (Protobuf.uintField 7 message.chainId.toNat ++
                (Protobuf.uintField 8 message.version.toNat ++
                  (Protobuf.stringField 9 message.toV1 ++
                    Protobuf.stringField 10 message.chainIdV1))))))))

/-- The message `UnverifiedTransaction`. -/
structure UnverifiedTransaction where
  transaction : Transaction
  signature : List UInt8
  crypto : Nat := 0

def UnverifiedTransaction.pack (message : UnverifiedTransaction) :
    List UInt8 :=
  Protobuf.lengthField 1 message.transaction.pack ++
    (Protobuf.stringField 2 message.signature ++
      Protobuf.uintField 3 message.crypto)

/-- The text that stands for the message in a request. -/
def UnverifiedTransaction.hexStr (message : UnverifiedTransaction) :
    List Char :=
  utilityBinToHex message.pack .leftTrimUnfmtData true false

/-- The bytes a field denotes; a length its storage does not have is
undefined. -/
def fieldBytes (storage : Option (List UInt8)) (fieldLen : Nat) :
    Outcome (List UInt8) :=
  if (storage.getD []).length < fieldLen then .error .undefined
  else .ok ((storage.getD []).take fieldLen)

/-- The text of the first 16 bytes of the nonce field. -/
def citaNonceStr (nonce : BoatFieldMax 32) : List Char :=
  utilityBinToHex (nonce.field.bytes.take 16) .leftTrimUnfmtData false false

/-- The message of a transaction record. -/
def citaTransaction (tx : BoatCitaTx) : Outcome Transaction := do
  let data ← fieldBytes tx.rawtxFields.data.fieldPtr
    tx.rawtxFields.data.fieldLen
  let value ← fieldBytes (some tx.rawtxFields.value.field.bytes)
    tx.rawtxFields.value.fieldLen
  pure {
    nonce := citaNonceStr tx.rawtxFields.nonce
    quota := tx.rawtxFields.quota
    validUntilBlock := tx.rawtxFields.validUntilBlock
    data := data
    value := value
    version := tx.networkInfo.version
    toV1 := tx.rawtxFields.recipient.bytes
    chainIdV1 := tx.networkInfo.chainIdBuf.1 }

/-- `sign_result`: the trimmed halves of the signature and its recovery byte,
copied into zeros. -/
def citaSignResult (signature : BoatSignatureResult) : Bytes 65 :=
  let trimedR :=
    utilityTrimBin (signature.nativeSign.bytes.take 32) .leftTrim true
  let trimedS :=
    utilityTrimBin (signature.nativeSign.bytes.drop 32) .leftTrim true
  let signResult : Bytes 65 := ⟨List.replicate 65 0, List.length_replicate⟩
  ((signResult.write 0 trimedR).write 32 trimedS).write 64
    [signature.signPrefix]

/-- A result that is not a text is left in the buffer as `null`. -/
def citaCopyNull (buffer : ResultBuffer) : Outcome ResultBuffer :=
  if buffer.content = none ∨ buffer.fieldLen < 5 then .error .undefined
  else .ok { buffer with content := some "null".toList }

/-- What `cita_parse_json_result` makes of the `result` member. -/
def citaParseResult (malloc : Nat → Option (List UInt8))
    (childName : List Char) (buffer : ResultBuffer) :
    Option Json → Outcome (BoatResult × ResultBuffer)
  | none => .ok (boatErrorWeb3JsonGetobjFail, buffer)
  | some (.object members) =>
      match (Json.object members).getObjectItem childName with
      | none => .ok (boatErrorWeb3JsonGetobjFail, buffer)
      | some (.string text) => .ok (copyResult malloc text buffer)
      | some _ => (citaCopyNull buffer).map (boatSuccess, ·)
  | some (.string text) => .ok (copyResult malloc text buffer)
  | some .null => .ok (boatErrorJsonObjIsNull, buffer)
  | some _ => .ok (boatErrorWeb3JsonParseFail, buffer)

/-- `cita_parse_json_result`. -/
def citaParseJsonResult (cJSONParse : List Char → Option Json)
    (malloc : Nat → Option (List UInt8)) (jsonString childName : List Char)
    (buffer : ResultBuffer) : Outcome (BoatResult × ResultBuffer) :=
  match cJSONParse jsonString with
  | none => .ok (boatErrorWeb3JsonParseFail, buffer)
  | some json => do
      let result ← json.namedItem "result".toList
      citaParseResult malloc childName buffer result

structure CitaState where
  tx : BoatCitaTx
  resultBuf : ResultBuffer
  events : List SendEvent

abbrev CitaM := EStateM Failure CitaState

namespace CitaM

def ofOutcome {α : Type} (outcome : Outcome α) : CitaM α :=
  fun state =>
    match outcome with
    | .ok a => .ok a state
    | .error failure => .error failure state

def recordEvent (event : SendEvent) : CitaM Unit :=
  fun state => .ok () { state with events := state.events ++ [event] }

end CitaM

variable (env : SendEnv)

/-- Reserve memory for `size` bytes; the size is a 32-bit number, and bytes
beyond it are written outside the block. -/
def citaMalloc (refused : BoatResult) (size : Nat) : CitaM Unit :=
  fun state =>
    match env.malloc (buint32 size) with
    | none => .error (.code refused) state
    | some _ =>
        if buint32 size < size then .error .undefined state
        else .ok () state

/-- The signature over the hash of a message. -/
def citaSign (message : List UInt8) : CitaM BoatSignatureResult := do
  CitaM.recordEvent (.hashed message)
  match boatSignature env (env.keccak256 message) with
  | .error _ => throw (.code boatErrorCommonGenSignFail)
  | .ok signature => pure signature

/-- Parse a response and take the transaction hash from it. -/
def citaKeepAnswer (response : List Char) : CitaM Unit :=
  fun state =>
    match citaParseJsonResult env.cJSONParse env.malloc response "hash".toList
        state.resultBuf with
    | .error failure => .error failure state
    | .ok (result, resultBuf) =>
        let (bytes, len) :=
          utilityHexToBin 32 (resultBuf.content.getD []) .trimNo false
        let txHash : BoatFieldMax 32 :=
          ⟨state.tx.txHash.field.overlay bytes, len⟩
        if result ≠ boatSuccess then
          .error (.code result) { state with resultBuf }
        else .ok () { state with resultBuf, tx := { state.tx with txHash } }

/-- Ask the node to send the transaction. -/
def citaSendToNode (signedtx : List Char) : CitaM Unit := do
  let request : SendRequest := ⟨"sendRawTransaction".toList, signedtx, []⟩
  CitaM.recordEvent (.sent request)
  match env.sendRawTransaction request with
  | .error code => throw (.code code)
  | .ok response => citaKeepAnswer env response

/-- The steps of `CitaSendRawtx` in front of the request.  Without memory for
the message it is left with the result it started from, which is success. -/
def citaBuildRawtx : CitaM (List Char) := do
  citaMalloc env boatErrorCommonOutOfMemory 33
  let state ← get
  let transaction ← CitaM.ofOutcome (citaTransaction state.tx)
  citaMalloc env boatSuccess transaction.pack.length
  let signature ← citaSign env transaction.pack
  let unverified : UnverifiedTransaction := {
    transaction := transaction
    signature := (citaSignResult signature).1 }
  citaMalloc env boatErrorCommonGenSignFail unverified.pack.length
  citaMalloc env boatErrorCommonOutOfMemory
    (unverified.pack.length * 2 + 2 + 1)
  pure unverified.hexStr

def citaSendRawtx : CitaM Unit := do
  let signedtx ← citaBuildRawtx env
  citaSendToNode env signedtx

end BoatFramework
