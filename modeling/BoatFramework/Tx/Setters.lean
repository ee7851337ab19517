/-
How the fields of a transaction get their values: initialization from strings
and the setters of the Ethereum family, each with its own route into the field.
-/
import BoatFramework.Tx.ChainId

namespace BoatFramework

open ByteString

def boatStringMaxLen : Nat := 4096

/-- `UtilityStringIsHex`: `0x`, then digits up to the terminator. -/
def utilityStringIsHex : List Char → Bool
  | '0' :: x :: digits =>
      (x == 'x' || x == 'X') && decide (digits.length + 2 < boatStringMaxLen) &&
        digits.all fun c => (Hex.value c).isSome
  | _ => false

/-- The nonce that stands for the transaction count of the node. -/
def boatNonceAuto : UInt64 := 0xFFFFFFFFFFFFFFFF

/-- A field filled by `UtilityHexToBin` with zeros trimmed and zero as the
empty string. -/
def BoatFieldMax.ofHex {size : Nat} (storage : Block size)
    (text : List Char) : BoatFieldMax size :=
  let (bytes, len) := utilityHexToBin size text .leftTrim true
  ⟨storage.overlay bytes, len⟩

/-- What the chains do differently in front of the senders. -/
structure TxApi where
  /-- The parser of an answer that is a string. -/
  parseString : SendEnv → List Char → ResultBuffer →
    Outcome (BoatResult × ResultBuffer)
  /-- Whether the text of a recipient is let through before anything else. -/
  checkRecipient : List Char → Bool
  /-- The recipient a text stands for, or the code that refuses it. -/
  recipient : List Char → Except BoatResult (Block 20)
  /-- Whether a gas price is taken from a string or from the node. -/
  gasPriceGiven : Bool
  hasTxtype : Bool

/-- Take the string of an answer into the result buffer. -/
def keepAnswer (api : TxApi) (env : SendEnv) (response : List Char) :
    SendM Unit :=
  fun state =>
    keepParsed (api.parseString env response state.resultBuf) state

/-- Change the fields from what the result buffer holds. -/
def modifyFromBuffer (change : List Char → RawtxFields → RawtxFields) :
    SendM Unit :=
  fun state =>
    .ok () (state.setFields
      (change (state.resultBuf.content.getD []) state.tx.rawtxFields))

/-- `BoatEthTxSetNonce` and its copies.  A given nonce goes through
`UtilityUint64ToBigend`, the automatic one through `UtilityHexToBin`. -/
def txSetNonce (api : TxApi) (env : SendEnv) (nonce : UInt64)
    (txCount : NodeAnswer) : SendM Unit :=
  if nonce = boatNonceAuto then
    match txCount with
    | .error code => sendThrow code
    | .ok response => do
        keepAnswer api env response
        modifyFromBuffer fun text fields =>
          { fields with nonce := .ofHex fields.nonce.field text }
  else
    modifyFields fun fields =>
      let bytes := utilityUint64ToBigend nonce.toNat .leftTrim
      { fields with nonce := ⟨fields.nonce.field.overlay bytes, bytes.length⟩ }

/-- `BoatEthTxSetGasPrice` and its copies: the given field as it is, or the
price of the node. -/
def txSetGasPrice (api : TxApi) (env : SendEnv)
    (gasPrice : Option (BoatFieldMax 32)) (netPrice : NodeAnswer) :
    SendM Unit :=
  match gasPrice with
  | some gasprice => modifyFields fun fields => { fields with gasprice }
  | none =>
      match netPrice with
      | .error _ => sendThrow boatErrorWeb3GetGaspriceFail
      | .ok response => do
          keepAnswer api env response
          modifyFromBuffer fun text fields =>
            { fields with gasprice := .ofHex fields.gasprice.field text }

def txSetGasLimit (gasLimit : Option (BoatFieldMax 32)) : SendM Unit :=
  match gasLimit with
  | some gaslimit => modifyFields fun fields => { fields with gaslimit }
  | none => sendThrow boatErrorCommonInvalidArgument

def txSetRecipient (recipient : Block 20) : SendM Unit :=
  modifyFields fun fields => { fields with recipient }

/-- `BoatEthTxSetValue` and its copies; no field means zero. -/
def txSetValue (value : Option (BoatFieldMax 32)) : SendM Unit :=
  match value with
  | some value => modifyFields fun fields => { fields with value }
  | none =>
      modifyFields fun fields =>
        { fields with value := ⟨fields.value.field, 0⟩ }

def txSetData (data : Option BoatFieldVariable) : SendM Unit :=
  match data with
  | some data => modifyFields fun fields => { fields with data }
  | none =>
      modifyFields fun fields =>
        { fields with data := ⟨fields.data.fieldPtr, 0⟩ }

/-- `BoatPlatoneTxSetTxtype`. -/
def txSetTxtype (txtype : UInt32) : SendM Unit :=
  modifyFields fun fields => { fields with txtype := txtype.toNat }

/-- The arguments of `BoatEthTxInit` and its copies; PlatONE reads the type and
Quorum whether the transaction is private. -/
structure TxInitArgs where
  gaspriceStr : Option (List Char)
  gaslimitStr : Option (List Char)
  recipientStr : List Char
  netPrice : NodeAnswer
  txtype : UInt32
  isPrivate : Bool

/-- The storage of a local `BoatFieldMax32B`, whatever it held before. -/
def localField (text : List Char) : BoatFieldMax 32 :=
  .ofHex (.zero 32) text

/-- The state with the raw fields zeroed. -/
@[simps]
def SendState.clear (state : SendState) (isPrivate : Bool) : SendState :=
  { state with tx := { state.tx with rawtxFields := .zero, isPrivate } }

def clearFields (isPrivate : Bool) : SendM Unit :=
  fun state => .ok () (state.clear isPrivate)

/-- The gas price a transaction starts with.  Quorum copies the text `0x0` over
the storage and leaves the length zero. -/
def txInitGasPrice (api : TxApi) (env : SendEnv) (args : TxInitArgs) :
    SendM Unit :=
  if api.gasPriceGiven then
    txSetGasPrice api env (args.gaspriceStr.map localField) args.netPrice
  else
    modifyFields fun fields =>
      { fields with
        gasprice := ⟨fields.gasprice.field.overlay [0x30, 0x78, 0x30, 0x00],
          fields.gasprice.fieldLen⟩ }

/-- Set the recipient a text stands for. -/
def txInitRecipient (api : TxApi) (recipientStr : List Char) : SendM Unit :=
  match api.recipient recipientStr with
  | .error code => sendThrow code
  | .ok recipient => txSetRecipient recipient

/-- The texts `BoatEthTxInit` refuses before it changes anything. -/
def txInitRefuses (api : TxApi) (args : TxInitArgs) : Bool :=
  (args.gaspriceStr.any fun text => !utilityStringIsHex text) ||
    (args.gaslimitStr.any fun text => !utilityStringIsHex text) ||
    !api.checkRecipient args.recipientStr

/-- `BoatEthTxInit` and its copies. -/
def txInit (api : TxApi) (env : SendEnv) (args : TxInitArgs) : SendM Unit :=
  if txInitRefuses api args then sendThrow boatErrorCommonInvalidArgument
  else do
    clearFields args.isPrivate
    txInitGasPrice api env args
    txSetGasLimit (some (localField (args.gaslimitStr.getD [])))
    txInitRecipient api args.recipientStr
    txSetValue none
    if api.hasTxtype then txSetTxtype args.txtype else pure ()

/-- A recipient in hexadecimal, 42 characters long. -/
def checkHexRecipient (recipientStr : List Char) : Bool :=
  utilityStringIsHex recipientStr && decide (recipientStr.length = 42)

def hexRecipient (recipientStr : List Char) : Except BoatResult (Block 20) :=
  let (bytes, len) := utilityHexToBin 20 recipientStr .trimNo true
  if len = 0 then .error boatErrorCommonUtility
  else .ok ((Block.zero 20).overlay bytes)

/-- PlatON takes the recipient in the Bech32 form. -/
def bech32Recipient (boatEthBech32Decode : List Char → Option (Block 20))
    (recipientStr : List Char) : Except BoatResult (Block 20) :=
  match boatEthBech32Decode recipientStr with
  | none => .error boatErrorCommonInvalidArgument
  | some recipient => .ok recipient

/-- A call of one of the setters, with the node's answer where it asks. -/
inductive Setter where
  | nonce (nonce : UInt64) (txCount : NodeAnswer)
  | gasPrice (gasPrice : Option (BoatFieldMax 32)) (netPrice : NodeAnswer)
  | gasLimit (gasLimit : Option (BoatFieldMax 32))
  | recipient (recipient : Block 20)
  | value (value : Option (BoatFieldMax 32))
  | data (data : Option BoatFieldVariable)
  | txtype (txtype : UInt32)

def Setter.call (api : TxApi) (env : SendEnv) : Setter → SendM Unit
  | .nonce number txCount => txSetNonce api env number txCount
  | .gasPrice given netPrice => txSetGasPrice api env given netPrice
  | .gasLimit given => txSetGasLimit given
  | .recipient address => txSetRecipient address
  | .value given => txSetValue given
  | .data given => txSetData given
  | .txtype kind => txSetTxtype kind

/-- A transaction is initialized, then set up by any calls of the setters. -/
def buildTx (api : TxApi) (env : SendEnv) (args : TxInitArgs)
    (setters : List Setter) : SendM Unit := do
  txInit api env args
  setters.forM (Setter.call api env)

def ethApi : TxApi where
  parseString := fun env response buffer =>
    ethParseJsonResult env.cJSONParse env.malloc response [] buffer
  checkRecipient := checkHexRecipient
  recipient := hexRecipient
  gasPriceGiven := true
  hasTxtype := false

def platonApi (boatEthBech32Decode : List Char → Option (Block 20)) :
    TxApi where
  parseString := fun env response buffer =>
    platonParseJsonResult env.cJSONParse env.malloc response [] buffer
  checkRecipient := fun text => decide (text.length < boatStringMaxLen)
  recipient := bech32Recipient boatEthBech32Decode
  gasPriceGiven := true
  hasTxtype := false

def platoneApi : TxApi where
  parseString := fun env response buffer =>
    platoneParseJsonResult env.cJSONParse env.malloc response [] buffer
  checkRecipient := checkHexRecipient
  recipient := hexRecipient
  gasPriceGiven := true
  hasTxtype := true

def quorumApi : TxApi where
  parseString := fun env response buffer =>
    quorumParseJsonResult env.cJSONParse env.malloc response [] [] buffer
  checkRecipient := checkHexRecipient
  recipient := hexRecipient
  gasPriceGiven := false
  hasTxtype := false

end BoatFramework
