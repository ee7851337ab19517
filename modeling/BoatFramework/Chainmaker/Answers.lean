/-
What one packing and the request behind it come to, and the three ways an
invocation goes on after its first request.
-/
import BoatFramework.Chainmaker.Invoke

namespace BoatFramework

/-- The bytes of a request fit behind the header in the send buffer. -/
def TxRequest.Fits (request : TxRequest) : Prop :=
  request.pack.length + 5 ≤ boatHttp2SendBufMaxLen

instance (request : TxRequest) : Decidable request.Fits :=
  inferInstanceAs (Decidable (_ ≤ _))

section Answer

variable (env : ChainmakerEnv) (n : Nat) (tx : BoatChainmakerTx)
  (method contractName : CString) (txType : TxType) (txId : List Char)

/-- The request that the packing of a number leaves in the send buffer. -/
def bufferedRequest : Outcome TxRequest := do
  let request ← packedRequest env n tx method contractName txType txId
  if request.Fits then pure request else .error .undefined

/-- The answer to that request. -/
def requestAnswer : Outcome TxResponse := do
  let _ ← bufferedRequest env n tx method contractName txType txId
  boatChainmakerTxRequest env n

end Answer

/-- What a packing leaves: it is counted, and nothing but the send buffer and
the requests changes. -/
structure PackedFrom (state after : ChainmakerState) : Prop where
  tx : after.tx = state.tx
  ids : after.ids = state.ids
  packings : after.packings = state.packings + 1
  responseData : after.responseData = state.responseData

section Packing

variable {env : ChainmakerEnv} {method contractName : CString}
  {txType : TxType} {txId : List Char}

theorem hlchainmakerFrame_fits {packed : List UInt8} (buf : SendBuf)
    (hfits : packed.length + 5 ≤ boatHttp2SendBufMaxLen) :
    hlchainmakerFrame packed buf = .ok () (buf.framed packed) :=
  frame_fits .hlchainmaker hfits

theorem hlchainmakerFrame_long {packed : List UInt8} (buf : SendBuf)
    (hlong : ¬packed.length + 5 ≤ boatHttp2SendBufMaxLen) :
    ∃ after, hlchainmakerFrame packed buf = .error .undefined after := by
  have hheader : 0 + (grpcHeader (buint32 packed.length)).length ≤
      boatHttp2SendBufMaxLen := by
    rw [length_grpcHeader]
    decide
  have hcopy (buf : SendBuf) :
      FrameM.copy 5 packed buf = .error .undefined buf :=
    if_pos (by omega)
  unfold hlchainmakerFrame
  exact ⟨_, (Exec.bind_ok rfl).trans
    ((Exec.bind_ok (copy_fits hheader)).trans (hcopy _))⟩

theorem hlchainmakerTransactionPacked_ok (state : ChainmakerState)
    {request : TxRequest}
    (hrequest : bufferedRequest env state.packings state.tx method contractName
      txType txId = .ok request) :
    ∃ after, hlchainmakerTransactionPacked env method contractName txType txId
        state = .ok () after ∧ PackedFrom state after ∧
      after.requests = state.requests ++ [request] := by
  obtain ⟨packed, hpacked, hfits⟩ := Exec.except_bind_eq_ok.mp hrequest
  split at hfits
  next hfits' =>
    obtain rfl := Except.ok.inj hfits
    unfold hlchainmakerTransactionPacked
    rw [hpacked]
    dsimp only
    rw [hlchainmakerFrame_fits state.sendBuf hfits']
    exact ⟨_, rfl, ⟨rfl, rfl, rfl, rfl⟩, rfl⟩
  next => cases hfits

theorem hlchainmakerTransactionPacked_error (state : ChainmakerState)
    {failure : Failure}
    (hrequest : bufferedRequest env state.packings state.tx method contractName
      txType txId = .error failure) :
    ∃ after, hlchainmakerTransactionPacked env method contractName txType txId
        state = .error failure after ∧ PackedFrom state after ∧
      after.requests = state.requests := by
  unfold hlchainmakerTransactionPacked
  unfold bufferedRequest at hrequest
  cases hpacked : packedRequest env state.packings state.tx method contractName
      txType txId with
  | error packingFailure =>
      rw [hpacked] at hrequest
      cases hrequest
      exact ⟨_, rfl, ⟨rfl, rfl, rfl, rfl⟩, rfl⟩
  | ok request =>
      rw [hpacked, Exec.except_ok_bind] at hrequest
      split at hrequest
      next => cases hrequest
      next hlong =>
        cases hrequest
        obtain ⟨sendBuf, hframe⟩ := hlchainmakerFrame_long state.sendBuf hlong
        dsimp only
        rw [hframe]
        exact ⟨_, rfl, ⟨rfl, rfl, rfl, rfl⟩, rfl⟩

/-- A request depends on the pairs of the record that are in use, its network
and its limit. -/
theorem packedRequest_congr {tx tx' : BoatChainmakerTx} (n : Nat)
    (hlist : tx.transPara.list = tx'.transPara.list)
    (hnetwork : tx.networkInfo = tx'.networkInfo)
    (hgas : tx.gasLimit = tx'.gasLimit) :
    packedRequest env n tx method contractName txType txId =
      packedRequest env n tx' method contractName txType txId := by
  simp only [packedRequest, chainmakerPayload, chainmakerRequest, hlist,
    hnetwork, hgas]

theorem requestAnswer_congr {tx tx' : BoatChainmakerTx} (n : Nat)
    (hlist : tx.transPara.list = tx'.transPara.list)
    (hnetwork : tx.networkInfo = tx'.networkInfo)
    (hgas : tx.gasLimit = tx'.gasLimit) :
    requestAnswer env n tx method contractName txType txId =
      requestAnswer env n tx' method contractName txType txId := by
  rw [requestAnswer, requestAnswer, bufferedRequest, bufferedRequest,
    packedRequest_congr n hlist hnetwork hgas]

end Packing

section Failures

/-- The failures of a computation are not the code of success. -/
def FailsReally {α : Type} (outcome : Outcome α) : Prop :=
  outcome ≠ .error (.code boatSuccess)

theorem FailsReally.bind {α β : Type} {first : Outcome α}
    {next : α → Outcome β} (hfirst : FailsReally first)
    (hnext : ∀ a, FailsReally (next a)) : FailsReally (first >>= next) := by
  cases first with
  | error failure => exact fun heq => hfirst (congrArg _ (Except.error.inj heq))
  | ok a => exact hnext a

theorem FailsReally.ok {α : Type} (a : α) : FailsReally (.ok a) :=
  fun heq => nomatch heq

theorem FailsReally.undefined {α : Type} :
    FailsReally (.error .undefined : Outcome α) :=
  fun heq => nomatch heq

theorem FailsReally.thrown {α : Type} {code : BoatResult}
    (hcode : code ≠ boatSuccess) : FailsReally (boatThrow code : Outcome α) :=
  fun heq => hcode (Failure.code.inj (Except.error.inj heq))

theorem FailsReally.mapM {α β : Type} {step : α → Outcome β}
    (hstep : ∀ a, FailsReally (step a)) (list : List α) :
    FailsReally (list.mapM step) := by
  induction list with
  | nil => exact .ok []
  | cons head tail ih =>
      rw [List.mapM_cons]
      exact .bind (hstep head) fun _ => .bind ih fun _ => .ok _

theorem ParamText.bytes_failsReally (text : ParamText) :
    FailsReally text.bytes := by
  cases text with
  | dangling => exact .undefined
  | _ => exact .ok _

theorem packPair_failsReally (pair : BoatKeyValuePair) :
    FailsReally (packPair pair) := by
  apply FailsReally.bind
  · cases pair.key with
    | none => exact .ok []
    | some text => exact text.bytes_failsReally
  · intro key
    apply FailsReally.bind
    · cases pair.value with
      | none => exact .undefined
      | some text => exact text.bytes_failsReally
    · exact fun value => .ok _

variable {env : ChainmakerEnv} {method contractName : CString}
  {txType : TxType} {txId : List Char}

theorem packedRequest_failsReally (n : Nat) (tx : BoatChainmakerTx) :
    FailsReally (packedRequest env n tx method contractName txType txId) := by
  apply FailsReally.bind
  · exact .bind (.mapM packPair_failsReally _) fun _ => .ok _
  · intro payload
    split
    next failure _ => exact fun heq => failure.2 (Except.error.inj heq)
    next signature _ =>
      simp only [chainmakerRequest]
      split
      · exact .undefined
      · exact .ok _

theorem boatChainmakerTxRequest_failsReally (n : Nat) :
    FailsReally (boatChainmakerTxRequest env n) := by
  unfold boatChainmakerTxRequest
  split
  next code _ => exact .thrown code.2
  next => exact .thrown (by decide)
  next body _ =>
    apply FailsReally.bind
    · unfold grpcMessage
      split
      · exact .undefined
      · exact .ok _
    · intro message
      split
      · exact .thrown (by decide)
      · exact .ok _

theorem bufferedRequest_failsReally (n : Nat) (tx : BoatChainmakerTx) :
    FailsReally (bufferedRequest env n tx method contractName txType txId) := by
  apply FailsReally.bind (packedRequest_failsReally n tx)
  intro request
  split
  · exact .ok _
  · exact .undefined

theorem requestAnswer_failsReally (n : Nat) (tx : BoatChainmakerTx) :
    FailsReally (requestAnswer env n tx method contractName txType txId) :=
  .bind (bufferedRequest_failsReally n tx) fun _ =>
    boatChainmakerTxRequest_failsReally n

theorem txIdOf_failsReally (n : Nat) : FailsReally (txIdOf env n) := by
  unfold txIdOf
  split
  · exact .thrown (by decide)
  · exact .ok _

end Failures

section Ids

variable {env : ChainmakerEnv} {state : ChainmakerState}

theorem getTxId_ok {txId : List Char} (hid : txIdOf env state.ids = .ok txId) :
    getTxId env state = .ok txId { state with ids := state.ids + 1 } := by
  rw [getTxId, hid]
  rfl

theorem getTxId_error {failure : Failure}
    (hid : txIdOf env state.ids = .error failure) :
    getTxId env state = .error failure { state with ids := state.ids + 1 } := by
  rw [getTxId, hid]
  rfl

end Ids

section FirstRequest

variable (env : ChainmakerEnv) (method contractName : CString)

/-- The request that an invocation sends for its contract. -/
def invokedRequest (state : ChainmakerState) : Outcome TxRequest := do
  let txId ← txIdOf env state.ids
  bufferedRequest env state.packings state.tx method contractName
    .invokeUserContract txId

/-- The answer to the first request of an invocation. -/
def firstAnswer (state : ChainmakerState) : Outcome TxResponse := do
  let _ ← invokedRequest env method contractName state
  boatChainmakerTxRequest env state.packings

/-- The id of the transaction that an invocation makes. -/
def invokeId (state : ChainmakerState) : List Char :=
  (txIdOf env state.ids).toOption.getD []

/-- What the first request leaves of the state. -/
structure FirstDone (state after : ChainmakerState) : Prop where
  tx : after.tx = state.tx
  ids : after.ids = state.ids + 1
  packings : ∀ txId, txIdOf env state.ids = .ok txId →
    after.packings = state.packings + 1
  responseData : after.responseData = responseInit state.responseData
  requests : after.requests = state.requests ++
    (invokedRequest env method contractName state).toOption.toList

/-- The invocation behind the answer to its first request. -/
def behindAnswer (invokeTxId : List Char) (syncResult : Bool)
    (response : TxResponse) : ChainmakerM Unit := do
  ChainmakerM.modifyResponse fun data => { data with code := response.code }
  if response.code ≠ boatSuccess then
    ChainmakerM.modifyResponse fun data =>
      { data with message := some response.message }
    throw (.code boatError)
  else if syncResult then waitForResult env invokeTxId response
  else pure ()

variable (syncResult : Bool) (state : ChainmakerState)

/-- An invocation behind its id. -/
theorem contractInvoke_identified {txId : List Char}
    (hid : txIdOf env state.ids = .ok txId) :
    contractInvoke env method contractName syncResult state =
      (hlchainmakerTransactionPacked env method contractName
        .invokeUserContract txId >>= fun _ =>
          ChainmakerM.ofOutcome (boatChainmakerTxRequest env state.packings) >>=
            behindAnswer env txId syncResult)
        { state with
          ids := state.ids + 1
          responseData := responseInit state.responseData } := by
  have hdrawn := @getTxId_ok env
    { state with responseData := responseInit state.responseData } txId hid
  exact Exec.bind_ok hdrawn

/-- An invocation fails with its first request or goes on with the answer. -/
theorem contractInvoke_first :
    ∃ mid, FirstDone env method contractName state mid ∧
      contractInvoke env method contractName syncResult state =
        (ChainmakerM.ofOutcome (firstAnswer env method contractName state) >>=
          behindAnswer env (invokeId env state) syncResult) mid := by
  cases hid : txIdOf env state.ids with
  | error failure =>
      refine ⟨{ state with
        ids := state.ids + 1
        responseData := responseInit state.responseData },
        ⟨rfl, rfl, fun txId htxId => ?_, rfl, ?_⟩, ?_⟩
      · cases hid.symm.trans htxId
      · rw [invokedRequest, hid]
        exact (List.append_nil _).symm
      · have hdrawn := @getTxId_error env
          { state with responseData := responseInit state.responseData }
          failure hid
        rw [firstAnswer, invokedRequest, hid]
        exact (Exec.bind_ok rfl).trans (Exec.bind_error hdrawn)
  | ok txId =>
      rw [contractInvoke_identified env method contractName syncResult state
        hid, invokeId, firstAnswer, invokedRequest, hid, Exec.except_ok_bind]
      cases hrequest : bufferedRequest env state.packings state.tx method
          contractName .invokeUserContract txId with
      | error failure =>
          obtain ⟨mid, hpack, hmid, hrequests⟩ :=
            hlchainmakerTransactionPacked_error { state with
              ids := state.ids + 1
              responseData := responseInit state.responseData } hrequest
          refine ⟨mid, ⟨hmid.tx, hmid.ids, fun _ _ => hmid.packings,
            hmid.responseData, ?_⟩, ?_⟩
          · rw [hrequests, invokedRequest, hid, Exec.except_ok_bind, hrequest]
            exact (List.append_nil _).symm
          · rw [Exec.bind_error hpack]
            rfl
      | ok request =>
          obtain ⟨mid, hpack, hmid, hrequests⟩ :=
            hlchainmakerTransactionPacked_ok { state with
              ids := state.ids + 1
              responseData := responseInit state.responseData } hrequest
          refine ⟨mid, ⟨hmid.tx, hmid.ids, fun _ _ => hmid.packings,
            hmid.responseData, ?_⟩, ?_⟩
          · rw [hrequests, invokedRequest, hid, Exec.except_ok_bind, hrequest]
            rfl
          · rw [Exec.bind_ok hpack]
            rfl

variable {env} {method} {contractName} {syncResult} {state}

theorem firstAnswer_failsReally :
    FailsReally (firstAnswer env method contractName state) := by
  apply FailsReally.bind
  · exact .bind (txIdOf_failsReally _) fun _ => bufferedRequest_failsReally _ _
  · exact fun _ => boatChainmakerTxRequest_failsReally _

theorem contractInvoke_failed {failure : Failure}
    (hanswer : firstAnswer env method contractName state = .error failure) :
    ∃ after, FirstDone env method contractName state after ∧
      contractInvoke env method contractName syncResult state =
        .error failure after := by
  obtain ⟨mid, hmid, hrun⟩ :=
    contractInvoke_first env method contractName syncResult state
  refine ⟨mid, hmid, ?_⟩
  rw [hrun, hanswer]
  rfl

/-- A response whose code is not success ends the invocation. -/
theorem contractInvoke_refused {response : TxResponse}
    (hanswer : firstAnswer env method contractName state = .ok response)
    (hcode : response.code ≠ boatSuccess) :
    ∃ after, after.tx = state.tx ∧ after.responseData.code = response.code ∧
      contractInvoke env method contractName syncResult state =
        .error (.code boatError) after := by
  obtain ⟨mid, hmid, hrun⟩ :=
    contractInvoke_first env method contractName syncResult state
  have hbehind : contractInvoke env method contractName syncResult state =
      behindAnswer env (invokeId env state) syncResult response mid := by
    rw [hrun, hanswer]
    rfl
  unfold behindAnswer at hbehind
  rw [if_pos hcode] at hbehind
  refine ⟨{ mid with
    responseData := { mid.responseData with
      code := response.code, message := some response.message } },
    hmid.tx, rfl, hbehind.trans rfl⟩

/-- Otherwise it waits if it was asked to. -/
theorem contractInvoke_accepted {response : TxResponse}
    (hanswer : firstAnswer env method contractName state = .ok response)
    (hcode : response.code = boatSuccess) :
    ∃ mid, mid.tx = state.tx ∧ mid.ids = state.ids + 1 ∧
      mid.packings = state.packings + 1 ∧
      mid.responseData.code = boatSuccess ∧
      contractInvoke env method contractName syncResult state =
        if syncResult then waitForResult env (invokeId env state) response mid
        else .ok () mid := by
  obtain ⟨mid, hmid, hrun⟩ :=
    contractInvoke_first env method contractName syncResult state
  have hbehind : contractInvoke env method contractName syncResult state =
      behindAnswer env (invokeId env state) syncResult response mid := by
    rw [hrun, hanswer]
    rfl
  unfold behindAnswer at hbehind
  rw [if_neg (not_not.mpr hcode)] at hbehind
  obtain ⟨request, hrequest, _⟩ := Exec.except_bind_eq_ok.mp hanswer
  obtain ⟨txId, hid, _⟩ := Exec.except_bind_eq_ok.mp hrequest
  refine ⟨{ mid with
    responseData := { mid.responseData with code := response.code } },
    hmid.tx, hmid.ids, hmid.packings txId hid, hcode, hbehind.trans ?_⟩
  cases syncResult <;> rfl

end FirstRequest

section Sample

/-- A record for a small network, with no parameters. -/
def chainmakerSampleTx : BoatChainmakerTx where
  networkInfo := {
    networkIndex := 1
    clientMemberType := 0
    clientSignCertContent := ⟨1, ⟨0x61 :: List.replicate 1023 0, by
      rw [List.length_cons, List.length_replicate]⟩⟩
    nodeUrl := ⟨[0x61], by decide⟩
    hostName := ⟨[0x61], by decide⟩
    chainId := ⟨[0x61], by decide⟩
    orgId := ⟨[0x61], by decide⟩
    caTlsCertContent := ⟨0, zeroBytes 1024⟩
    clientTlsCertContent := ⟨0, zeroBytes 1024⟩
    clientTlsPrivkeyData := ⟨0, zeroBytes 512⟩ }
  transPara := {
    nParameters := 0
    parameters := ⟨List.replicate 10 ⟨none, none⟩, List.length_replicate⟩ }
  gasLimit := 1

/-- A node that accepts the first request and answers every other one with the
code 4; the bytes of a code are read as the unpacker reads them. -/
def chainmakerSampleEnv : ChainmakerEnv where
  random _ := some ⟨List.replicate 32 1, List.length_replicate⟩
  times _ := 1
  sign _ _ := .ok [1]
  reply n := .received (some (if n = 0 then [0, 0, 0, 0, 0]
    else [0, 0, 0, 0, 2, 8, 4]))
  unpackTxResponse
    | [] => some ⟨0, [], none, []⟩
    | [8, code] => some ⟨code.toNat, [], none, []⟩
    | _ => none
  unpackRwset
    | [] => some ⟨none⟩
    | _ => none

def chainmakerSampleState : ChainmakerState where
  tx := chainmakerSampleTx
  sendBuf := .zeros 0
  ids := 0
  packings := 0
  requests := []
  responseData := ⟨0, none, [], 0, 0, none⟩

def sampleName : CString := ⟨[0x61], by decide⟩

theorem chainmakerSample_first :
    firstAnswer chainmakerSampleEnv sampleName sampleName
      chainmakerSampleState = .ok ⟨0, [], none, []⟩ :=
  rfl

end Sample

end BoatFramework
