/-
`BoatChainmakerContractInvoke`: one request for the call and, where the caller
waits for it, queries for the transaction until one shows that the contract
succeeded.
-/
import BoatFramework.Chainmaker.Transaction

namespace BoatFramework

def boatRetryCnt : Nat := 10
def boatTxidLen : Nat := 65

variable (env : ChainmakerEnv)

/-- The id of a number; without random bytes there is none. -/
def txIdOf (n : Nat) : Outcome (List Char) :=
  match env.random n with
  | none => boatThrow boatError
  | some bytes => .ok (Hex.toHex bytes.bytes)

/-- `BoatChainmakerTxRequest`, behind the packing of a number. -/
def boatChainmakerTxRequest (n : Nat) : Outcome TxResponse :=
  match env.reply n with
  | .failed code => .error (.code code)
  | .received none => boatThrow boatErrorHttp2ReceiveFail
  | .received (some body) => do
      let message ← grpcMessage body
      match env.unpackTxResponse message with
      | none => boatThrow boatErrorRlpEncoderFail
      | some response => pure response

namespace ChainmakerM

def ofOutcome {α : Type} (outcome : Outcome α) : ChainmakerM α :=
  fun state =>
    match outcome with
    | .ok a => .ok a state
    | .error failure => .error failure state

def modifyResponse (change : BoatResponseData → BoatResponseData) :
    ChainmakerM Unit :=
  modify fun state => { state with responseData := change state.responseData }

end ChainmakerM

/-- `get_tx_id`. -/
def getTxId : ChainmakerM (List Char) :=
  fun state => ChainmakerM.ofOutcome (txIdOf env state.ids)
    { state with ids := state.ids + 1 }

def txIdKey : CString := ⟨asciiBytes "txId".toList, by decide⟩
def getTxByTxId : CString := ⟨asciiBytes "GET_TX_BY_TX_ID".toList, by decide⟩
def chainQuery : CString := ⟨asciiBytes "CHAIN_QUERY".toList, by decide⟩

/-- The parameters of the query for a transaction, put over those that the
record had. -/
def queryParams (invokeTxId : List Char) (params : BoatTransactionParams) :
    BoatTransactionParams :=
  (boatChainmakerAddTxParam 2 (some (.caller txIdKey))
    [some (.frame invokeTxId)] params).2

/-- What one query comes to: the result and the response it leaves, with
another one to follow or not. -/
inductive PollStep where
  | again (result : BoatResult) (response : Option TxResponse)
  | leave (result : BoatResult) (response : Option TxResponse)

/-- What is kept of the result of the contract. -/
def keepContractResult (result : ContractResult) (response : TxResponse)
    (data : BoatResponseData) : BoatResponseData :=
  { data with
    contractMessage := some result.message
    gasUsed := result.gasUsed
    txId :=
      if response.txId.length < boatTxidLen then response.txId else data.txId }

/-- Look at the result in a response whose code is success.  The branch of a
contract that failed assigns to the loop variable where a comparison would
stand, so that no query follows. -/
def judgeResult (response : TxResponse) : ChainmakerM PollStep :=
  match response.contractResult with
  | none => throw .undefined
  | some contractResult =>
      match env.unpackRwset contractResult.result with
      | none => do
          ChainmakerM.modifyResponse fun data =>
            { data with contractCode := boatError }
          pure (.again boatSuccess none)
      | some ⟨some (some ⟨code, result⟩)⟩ => do
          ChainmakerM.modifyResponse fun data =>
            { data with contractCode := code }
          match result with
          | none => throw .undefined
          | some result =>
              if code = boatSuccess then
                ChainmakerM.modifyResponse (keepContractResult result response)
                pure (.leave boatSuccess (some response))
              else
                ChainmakerM.modifyResponse fun data =>
                  { data with contractMessage := some result.message }
                pure (.leave boatSuccess none)
      | some _ => throw .undefined

/-- Look at a response that arrived. -/
def judgeResponse (response : TxResponse) : ChainmakerM PollStep := do
  ChainmakerM.modifyResponse fun data => { data with code := response.code }
  if response.code = boatSuccess then judgeResult env response
  else pure (.again boatSuccess (some response))

/-- The query with some id; `kept` is the response of an earlier one. -/
def queryOnce (invokeTxId txId : List Char) (kept : Option TxResponse) :
    ChainmakerM PollStep :=
  fun state =>
    let n := state.packings
    let queried := { state with
      tx := { state.tx with
        transPara := queryParams invokeTxId state.tx.transPara } }
    match hlchainmakerTransactionPacked env getTxByTxId chainQuery
        .queryUserContract txId queried with
    | .error .undefined after => .error .undefined after
    | .error (.code result) after => .ok (.again result kept) after
    | .ok _ after =>
        match boatChainmakerTxRequest env n with
        | .error .undefined => .error .undefined after
        | .error (.code result) => .ok (.again result none) after
        | .ok response => judgeResponse env response after

/-- One step of the loop. -/
def pollOnce (invokeTxId : List Char) (kept : Option TxResponse) :
    ChainmakerM PollStep := do
  let txId ← getTxId env
  queryOnce env invokeTxId txId kept

/-- The loop over the rounds that are left. -/
def pollLoop (invokeTxId : List Char) :
    Nat → BoatResult → Option TxResponse →
      ChainmakerM (BoatResult × Option TxResponse)
  | 0, result, kept => pure (result, kept)
  | rounds + 1, _, kept => do
      match ← pollOnce env invokeTxId kept with
      | .again result response => pollLoop invokeTxId rounds result response
      | .leave result response => pure (result, response)

/-- Leave with a result code; success is no failure. -/
def returnResult (result : BoatResult) : ChainmakerM Unit :=
  if result = boatSuccess then pure () else throw (.code result)

/-- The queries of a call that is waited for. -/
def waitForResult (invokeTxId : List Char) (response : TxResponse) :
    ChainmakerM Unit := do
  let (result, kept) ← pollLoop env invokeTxId boatRetryCnt boatSuccess
    (some response)
  match result == boatSuccess, kept with
  | true, some response =>
      ChainmakerM.modifyResponse fun data =>
        { data with message := some response.message }
  | _, _ =>
      ChainmakerM.modifyResponse fun data => { data with code := boatError }
  returnResult result

/-- `BoatChainmakerResponseInit`; the codes stay as they are. -/
def responseInit (data : BoatResponseData) : BoatResponseData :=
  { data with message := none, contractMessage := none }

/-- The body of the function. -/
def contractInvoke (method contractName : CString) (syncResult : Bool) :
    ChainmakerM Unit := do
  ChainmakerM.modifyResponse responseInit
  let invokeTxId ← getTxId env
  let n := (← get).packings
  hlchainmakerTransactionPacked env method contractName .invokeUserContract
    invokeTxId
  let response ← ChainmakerM.ofOutcome (boatChainmakerTxRequest env n)
  ChainmakerM.modifyResponse fun data => { data with code := response.code }
  if response.code ≠ boatSuccess then
    ChainmakerM.modifyResponse fun data =>
      { data with message := some response.message }
    throw (.code boatError)
  else if syncResult then waitForResult env invokeTxId response
  else pure ()

/-- The state after the frame of the function is gone. -/
def ChainmakerState.expire (state : ChainmakerState) : ChainmakerState :=
  { state with
    tx := { state.tx with transPara := state.tx.transPara.expire } }

/-- `BoatChainmakerContractInvoke`. -/
def boatChainmakerContractInvoke (method contractName : CString)
    (syncResult : Bool) : ChainmakerM Unit :=
  fun state =>
    match contractInvoke env method contractName syncResult state with
    | .ok _ after => .ok () after.expire
    | .error failure after => .error failure after.expire

end BoatFramework
