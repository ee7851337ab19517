/-
The parameters of one ChainMaker transaction over any sequence of calls that
add parameters or invoke.  A call that fails, and an invocation, should leave
them.  Adding resets their number in front of the arguments, and a call that
waits puts its own query into them.
-/
import BoatFramework.Chainmaker.Polling

namespace BoatFramework

/-- A call on the transaction. -/
inductive ParamCall where
  | addTxParam (length : UInt8) (arg : Option CString)
      (args : List (Option CString))
  | contractInvoke (method contractName : CString) (syncResult : Bool)

variable (env : ChainmakerEnv)

/-- `BoatChainmakerAddTxParam` on the parameters in the state. -/
def addTxParam (length : UInt8) (arg : Option CString)
    (args : List (Option CString)) : ChainmakerM Unit :=
  fun state =>
    match boatChainmakerAddTxParam length (arg.map ParamText.caller)
        (callerTexts args) state.tx.transPara with
    | (outcome, transPara) => ChainmakerM.ofOutcome outcome
        { state with tx := { state.tx with transPara } }

def ParamCall.run : ParamCall → ChainmakerM Unit
  | .addTxParam length arg args => BoatFramework.addTxParam length arg args
  | .contractInvoke method contractName syncResult =>
      boatChainmakerContractInvoke env method contractName syncResult

/-- The state after a sequence of calls. -/
def stateAfter (calls : List ParamCall) (state : ChainmakerState) :
    ChainmakerState :=
  calls.foldl (fun state call => Exec.final (call.run env state)) state

/-- The parameters in use. -/
def ChainmakerState.list (state : ChainmakerState) : List BoatKeyValuePair :=
  state.tx.transPara.list

/-- An invocation, or a call that returns an error. -/
def ParamCall.SetsNothing (state : ChainmakerState) : ParamCall → Prop
  | .addTxParam length arg args => ∃ code after,
      BoatFramework.addTxParam length arg args state = .error (.code code) after
  | .contractInvoke _ _ _ => True

/-- What a call should do to the parameters. -/
def ParamCall.Keeps (call : ParamCall) (state : ChainmakerState) : Prop :=
  call.SetsNothing state → (Exec.final (call.run env state)).list = state.list

/-- Every call that should leave the parameters leaves them, and where such
calls alone stand between two invocations, these send the same ones. -/
structure ParamsKept (calls : List ParamCall) (state : ChainmakerState) :
    Prop where
  step : ∀ front call back, calls = front ++ call :: back →
    call.Keeps env (stateAfter env front state)
  resent : ∀ front between back, calls = front ++ between ++ back →
    (∀ before call after, between = before ++ call :: after →
      call.SetsNothing (stateAfter env (front ++ before) state)) →
    ∀ method contractName method' contractName' request request',
      invokedRequest env method contractName (stateAfter env front state) =
        .ok request →
      invokedRequest env method' contractName'
        (stateAfter env (front ++ between) state) = .ok request' →
      request.payload.parameters = request'.payload.parameters

/-- When a call that adds parameters or invokes leaves the parameters as it
should: no null pointer stands among the arguments, or the texts in front of
it are the pairs in use; and no waiting follows the first request, or its first
query gets no id. -/
def ParamCall.KeepsWhen (state : ChainmakerState) : ParamCall → Prop
  | .addTxParam length arg args => LengthAllowed length →
      ∀ texts, readArguments (length.toNat - 1) (callerTexts args) =
          (boatThrow boatErrorCommonInvalidArgument, texts) →
        pairsFrom 1 (firstKey (arg.map ParamText.caller) state.tx.transPara) texts =
          state.list
  | .contractInvoke method contractName syncResult => syncResult = true →
      ∀ response, firstAnswer env method contractName state = .ok response →
        response.code = boatSuccess →
        ∀ txId, txIdOf env (state.ids + 1) ≠ .ok txId

section Steps

variable {env} {state : ChainmakerState}

theorem readArguments_error {wanted : Nat} {args : List (Option ParamText)}
    {code : BoatResult}
    (hread : (readArguments wanted args).1 = .error (.code code)) :
    code = boatErrorCommonInvalidArgument := by
  induction wanted generalizing args with
  | zero => cases hread
  | succ wanted ih =>
      match args, hread with
      | none :: _, hread => exact (Failure.code.inj (Except.error.inj hread)).symm
      | some _ :: _, hread => exact ih hread

/-- What `addTxParam` leaves. -/
theorem final_addTxParam (length : UInt8) (arg : Option CString)
    (args : List (Option CString)) :
    (Exec.final (addTxParam length arg args state)).list =
      (boatChainmakerAddTxParam length (arg.map ParamText.caller)
        (callerTexts args) state.tx.transPara).2.list := by
  unfold addTxParam
  rcases boatChainmakerAddTxParam length (arg.map ParamText.caller)
    (callerTexts args) state.tx.transPara with ⟨_ | _, transPara⟩
  · rfl
  · rfl

theorem addTxParam_setsNothing (length : UInt8) (arg : Option CString)
    (args : List (Option CString)) :
    (ParamCall.addTxParam length arg args).SetsNothing state ↔
      ∃ code, (boatChainmakerAddTxParam length (arg.map ParamText.caller)
        (callerTexts args) state.tx.transPara).1 =
          .error (.code code) := by
  change (∃ code after, addTxParam length arg args state = _) ↔ _
  unfold addTxParam
  rcases boatChainmakerAddTxParam length (arg.map ParamText.caller)
    (callerTexts args) state.tx.transPara with
    ⟨failure | _, transPara⟩
  · constructor
    · rintro ⟨code, after, hrun⟩
      cases hrun
      exact ⟨code, rfl⟩
    · rintro ⟨code, hcode⟩
      cases hcode
      exact ⟨code, _, rfl⟩
  · constructor
    · rintro ⟨code, after, hrun⟩
      cases hrun
    · rintro ⟨code, hcode⟩
      cases hcode

/-- Adding keeps the parameters as its condition says. -/
theorem addTxParam_keeps_iff (length : UInt8) (arg : Option CString)
    (args : List (Option CString)) :
    (ParamCall.addTxParam length arg args).Keeps env state ↔
      (ParamCall.addTxParam length arg args).KeepsWhen env state := by
  unfold ParamCall.Keeps
  rw [addTxParam_setsNothing]
  change (_ → (Exec.final (addTxParam length arg args state)).list = _) ↔ _
  rw [final_addTxParam]
  by_cases hlength : LengthAllowed length
  · obtain ⟨houtcome, hlist⟩ :=
      boatChainmakerAddTxParam_read length (arg.map ParamText.caller)
        (callerTexts args) state.tx.transPara hlength
    rw [houtcome, hlist]
    constructor
    · intro hkeeps _ texts hread
      rw [hread] at hkeeps
      exact hkeeps ⟨_, rfl⟩
    · rintro hwhen ⟨code, hcode⟩
      apply hwhen hlength
      obtain rfl := readArguments_error hcode
      exact Prod.ext hcode rfl
  · rw [boatChainmakerAddTxParam_rejected _ _ _ _ hlength]
    constructor
    · exact fun _ hallowed => absurd hallowed hlength
    · exact fun _ _ => rfl

end Steps

section Invocations

variable {env} {invokeTxId : List Char} {state : ChainmakerState}

theorem modifyResponse_keeps (change : BoatResponseData → BoatResponseData) :
    Exec.Keeps ChainmakerState.list (ChainmakerM.modifyResponse change) :=
  fun _ => rfl

theorem throw_keeps {α : Type} (failure : Failure) :
    Exec.Keeps ChainmakerState.list (throw failure : ChainmakerM α) :=
  fun _ => rfl

theorem judgeResponse_keeps (response : TxResponse) :
    Exec.Keeps ChainmakerState.list (judgeResponse env response) := by
  apply Exec.Keeps.bind (modifyResponse_keeps _)
  intro _
  apply Exec.Keeps.ite
  · unfold judgeResult
    split
    · exact throw_keeps _
    · split
      · exact (modifyResponse_keeps _).bind fun _ => .pure _
      · apply (modifyResponse_keeps _).bind
        intro _
        split
        · exact throw_keeps _
        · apply Exec.Keeps.ite
          · exact (modifyResponse_keeps _).bind fun _ => .pure _
          · exact (modifyResponse_keeps _).bind fun _ => .pure _
      · exact throw_keeps _
  · exact .pure _

/-- Every query is left in the parameters, whatever stood there. -/
theorem pollOnce_list (kept : Option TxResponse) (state : ChainmakerState)
    (hlist : (∃ txId, txIdOf env state.ids = .ok txId) ∨
      state.list = queryList invokeTxId) :
    (Exec.final (pollOnce env invokeTxId kept state)).list =
      queryList invokeTxId := by
  cases hid : txIdOf env state.ids with
  | error failure =>
      rw [pollOnce_stopped kept hid]
      rcases hlist with ⟨txId, hother⟩ | hlist
      · cases hid.symm.trans hother
      · exact hlist
  | ok txId =>
      rw [pollOnce_identified kept hid]
      obtain ⟨after, kept', htx, _, _, hrun⟩ :=
        @queryOnce_answer env invokeTxId txId kept
          { state with ids := state.ids + 1 }
      have hafter : after.list = queryList invokeTxId := by
        rw [ChainmakerState.list, htx]
        exact queryParams_list _
      have hkeeps : Exec.Keeps ChainmakerState.list (PollStep.ofAnswer env kept'
          (queryAnswer env invokeTxId state.tx state.packings txId)) := by
        unfold PollStep.ofAnswer
        split
        · exact throw_keeps _
        · exact .pure _
        · exact judgeResponse_keeps _
      rw [hrun, hkeeps, hafter]

theorem pollLoop_list (rounds : Nat) (result : BoatResult)
    (kept : Option TxResponse)
    (hlist : 0 < rounds ∧ (∃ txId, txIdOf env state.ids = .ok txId) ∨
      state.list = queryList invokeTxId) :
    (Exec.final (pollLoop env invokeTxId rounds result kept state)).list =
      queryList invokeTxId := by
  induction rounds generalizing result kept state with
  | zero => exact hlist.resolve_left fun hfirst => Nat.lt_irrefl 0 hfirst.1
  | succ rounds ih =>
      have hround := pollOnce_list kept state (hlist.imp_left And.right)
      unfold pollLoop
      rcases Exec.final_bind (pollOnce env invokeTxId kept) _ state with
        ⟨step, mid, hrun, hfinal⟩ | hfinal
      · rw [hrun] at hround
        rw [hfinal]
        cases step with
        | again result' kept' => exact ih result' kept' (.inr hround)
        | leave result' kept' => exact hround
      · rw [hfinal]
        exact hround

theorem reportResult_keeps (result : BoatResult) (kept : Option TxResponse) :
    Exec.Keeps ChainmakerState.list (reportResult result kept) := by
  have hreturn : Exec.Keeps ChainmakerState.list (returnResult result) :=
    .ite (.pure ()) (throw_keeps _)
  unfold reportResult
  split
  · exact (modifyResponse_keeps _).bind fun _ => hreturn
  · exact (modifyResponse_keeps _).bind fun _ => hreturn

theorem waitForResult_final (response : TxResponse) (state : ChainmakerState) :
    (Exec.final (waitForResult env invokeTxId response state)).list =
      (Exec.final (pollLoop env invokeTxId boatRetryCnt boatSuccess
        (some response) state)).list := by
  have hreport (pair : BoatResult × Option TxResponse) :
      Exec.Keeps ChainmakerState.list (reportResult pair.1 pair.2) :=
    reportResult_keeps pair.1 pair.2
  exact Exec.view_bind hreport state

/-- A call that waits leaves its query. -/
theorem waitForResult_list (response : TxResponse) {state : ChainmakerState}
    {txId : List Char} (hid : txIdOf env state.ids = .ok txId) :
    (Exec.final (waitForResult env invokeTxId response state)).list =
      queryList invokeTxId :=
  (waitForResult_final response state).trans
    (pollLoop_list _ _ _ (.inl ⟨by decide, txId, hid⟩))

/-- Without an id for its first query it leaves what there was. -/
theorem waitForResult_stopped (response : TxResponse) {state : ChainmakerState}
    {failure : Failure} (hid : txIdOf env state.ids = .error failure) :
    (Exec.final (waitForResult env invokeTxId response state)).list =
      state.list := by
  have hloop : pollLoop env invokeTxId boatRetryCnt boatSuccess (some response)
      state = .error (.code boatError) { state with ids := state.ids + 1 } :=
    Exec.bind_error (pollOnce_stopped (some response) hid)
  rw [waitForResult_final, hloop]
  rfl

variable {method contractName : CString} {syncResult : Bool}

/-- What an invocation leaves, once its frame is gone. -/
theorem final_contractInvoke :
    (Exec.final (boatChainmakerContractInvoke env method contractName syncResult
      state)).list =
      (Exec.final (contractInvoke env method contractName syncResult
        state)).list.map BoatKeyValuePair.expire := by
  rw [boatChainmakerContractInvoke_eq, final_expired]
  exact BoatTransactionParams.list_expire _

/-- A first request that was packed has a text behind every value. -/
theorem firstAnswer_values {response : TxResponse}
    (hanswer : firstAnswer env method contractName state = .ok response)
    {pair : BoatKeyValuePair} (hpair : pair ∈ state.list) :
    pair.value ≠ some .dangling := by
  obtain ⟨request, hinvoked, _⟩ := Exec.except_bind_eq_ok.mp hanswer
  obtain ⟨txId, _, hrequest⟩ := Exec.except_bind_eq_ok.mp hinvoked
  obtain ⟨request, hpacked, _⟩ := Exec.except_bind_eq_ok.mp hrequest
  obtain ⟨payload, hpayload, _⟩ := Exec.except_bind_eq_ok.mp hpacked
  obtain ⟨parameters, hmap, _⟩ := Exec.except_bind_eq_ok.mp hpayload
  obtain ⟨message, hmessage⟩ := (Exec.except_mapM_eq_ok hmap).2 pair hpair
  intro hdangling
  obtain ⟨key, _, hvalue⟩ := Exec.except_bind_eq_ok.mp hmessage
  rw [hdangling] at hvalue
  cases hvalue

/-- The body of an invocation leaves the parameters where it does not wait. -/
theorem contractInvoke_list
    (hwhen : (ParamCall.contractInvoke method contractName
      syncResult).KeepsWhen env state) :
    (Exec.final (contractInvoke env method contractName syncResult
      state)).list = state.list := by
  cases hanswer : firstAnswer env method contractName state with
  | error failure =>
      obtain ⟨after, hdone, hrun⟩ :=
        @contractInvoke_failed env method contractName syncResult state _
          hanswer
      rw [hrun]
      exact congrArg (fun tx => tx.transPara.list) hdone.tx
  | ok response =>
      by_cases hcode : response.code = boatSuccess
      · obtain ⟨mid, htx, hids, _, _, hrun⟩ :=
          @contractInvoke_accepted env method contractName syncResult state _
            hanswer hcode
        have hlist : mid.list = state.list :=
          congrArg (fun tx => tx.transPara.list) htx
        rw [hrun]
        split
        next hsync =>
          cases hid : txIdOf env (state.ids + 1) with
          | error failure =>
              rw [← hids] at hid
              rw [waitForResult_stopped response hid, hlist]
          | ok txId => exact absurd hid (hwhen hsync response hanswer hcode txId)
        next => exact hlist
      · obtain ⟨after, htx, _, hrun⟩ :=
          @contractInvoke_refused env method contractName syncResult state _
            hanswer hcode
        rw [hrun]
        exact congrArg (fun tx => tx.transPara.list) htx

/-- An invocation keeps the parameters as its condition says. -/
theorem contractInvoke_keeps_iff (houtside : state.tx.transPara.Outside) :
    (ParamCall.contractInvoke method contractName syncResult).Keeps env state ↔
      (ParamCall.contractInvoke method contractName syncResult).KeepsWhen env
        state := by
  have hsame : state.list.map BoatKeyValuePair.expire = state.list :=
    (BoatTransactionParams.list_expire _).symm.trans houtside.list_expire
  change (True → (Exec.final (boatChainmakerContractInvoke env method
    contractName syncResult state)).list = _) ↔ _
  rw [final_contractInvoke]
  constructor
  · intro hkeeps hsync response hanswer hcode txId hid
    have hlist := hkeeps trivial
    obtain ⟨mid, _, hids, _, _, hrun⟩ :=
      @contractInvoke_accepted env method contractName syncResult state _
        hanswer hcode
    rw [← hids] at hid
    rw [hrun, if_pos hsync, waitForResult_list response hid] at hlist
    have hquery : (⟨some (.caller txIdKey), some .dangling⟩ :
        BoatKeyValuePair) ∈ state.list := by
      rw [← hlist]
      exact List.mem_singleton.mpr rfl
    exact firstAnswer_values hanswer hquery rfl
  · intro hwhen _
    rw [contractInvoke_list hwhen, hsame]

end Invocations

section Runs

variable {env} {state : ChainmakerState}

theorem keeps_iff (call : ParamCall) (houtside : state.tx.transPara.Outside) :
    call.Keeps env state ↔ call.KeepsWhen env state := by
  cases call with
  | addTxParam length arg args => exact addTxParam_keeps_iff length arg args
  | contractInvoke method contractName syncResult =>
      exact contractInvoke_keeps_iff houtside

/-- No call leaves a pointer into its frame that is still to expire. -/
theorem outside_run (call : ParamCall) (houtside : state.tx.transPara.Outside) :
    (Exec.final (call.run env state)).tx.transPara.Outside := by
  cases call with
  | addTxParam length arg args =>
      have hadded := boatChainmakerAddTxParam_outside length arg args houtside
      change (Exec.final (addTxParam length arg args state)).tx.transPara.Outside
      unfold addTxParam
      revert hadded
      rcases boatChainmakerAddTxParam length (arg.map ParamText.caller)
        (callerTexts args) state.tx.transPara with ⟨_ | _, transPara⟩
      · exact id
      · exact id
  | contractInvoke method contractName syncResult =>
      change (Exec.final (boatChainmakerContractInvoke env method contractName
        syncResult state)).tx.transPara.Outside
      rw [boatChainmakerContractInvoke_eq, final_expired]
      exact outside_expire _

theorem outside_stateAfter (calls : List ParamCall)
    (houtside : state.tx.transPara.Outside) :
    (stateAfter env calls state).tx.transPara.Outside := by
  induction calls generalizing state with
  | nil => exact houtside
  | cons call calls ih => exact ih (outside_run call houtside)

theorem stateAfter_append (front back : List ParamCall) :
    stateAfter env (front ++ back) state =
      stateAfter env back (stateAfter env front state) :=
  List.foldl_append

/-- Calls that set nothing, each under its condition, leave the parameters. -/
theorem list_stateAfter {calls : List ParamCall}
    (houtside : state.tx.transPara.Outside)
    (hcalls : ∀ before call after, calls = before ++ call :: after →
      call.SetsNothing (stateAfter env before state) ∧
        call.KeepsWhen env (stateAfter env before state)) :
    (stateAfter env calls state).list = state.list := by
  induction calls generalizing state with
  | nil => rfl
  | cons call calls ih =>
      obtain ⟨hsets, hwhen⟩ := hcalls [] call calls rfl
      have hstep : (Exec.final (call.run env state)).list = state.list :=
        (keeps_iff call houtside).mpr hwhen hsets
      rw [← hstep]
      apply ih (outside_run call houtside)
      intro before other after heq
      exact hcalls (call :: before) other after (by rw [heq, List.cons_append])

theorem chainmakerRequest_payload {tx : BoatChainmakerTx}
    {payload : ChainmakerPayload} {signature : List UInt8} {request : TxRequest}
    (hrequest : chainmakerRequest tx payload signature = .ok request) :
    request.payload = payload := by
  simp only [chainmakerRequest] at hrequest
  split at hrequest
  next => cases hrequest
  next =>
    obtain rfl := Except.ok.inj hrequest
    rfl

/-- An invocation sends the parameters in use. -/
theorem invokedRequest_parameters {method contractName : CString}
    {request : TxRequest}
    (hrequest : invokedRequest env method contractName state = .ok request) :
    state.list.mapM packPair = .ok request.payload.parameters := by
  obtain ⟨txId, _, hrequest⟩ := Exec.except_bind_eq_ok.mp hrequest
  obtain ⟨packed, hpacked, hfits⟩ := Exec.except_bind_eq_ok.mp hrequest
  obtain ⟨payload, hpayload, hsigned⟩ := Exec.except_bind_eq_ok.mp hpacked
  obtain ⟨parameters, hmap, hrecord⟩ := Exec.except_bind_eq_ok.mp hpayload
  obtain rfl := Except.ok.inj hrecord
  split at hfits
  next =>
    obtain rfl := Except.ok.inj hfits
    split at hsigned
    next => cases hsigned
    next signature _ =>
      rw [chainmakerRequest_payload hsigned]
      exact hmap
  next => cases hfits

end Runs

/-- The parameters are kept over a sequence of calls when each call meets its
condition. -/
theorem paramsKept_iff (calls : List ParamCall) (state : ChainmakerState) :
    ParamsKept env calls state.expire ↔
      ∀ front call back, calls = front ++ call :: back →
        call.KeepsWhen env (stateAfter env front state.expire) := by
  have houtside (front : List ParamCall) :
      (stateAfter env front state.expire).tx.transPara.Outside :=
    outside_stateAfter front (outside_expire _)
  constructor
  · intro hkept front call back hcalls
    exact (keeps_iff call (houtside front)).mp (hkept.step front call back hcalls)
  · intro hwhen
    constructor
    · intro front call back hcalls
      exact (keeps_iff call (houtside front)).mpr (hwhen front call back hcalls)
    · intro front between back hcalls hsets method contractName method'
        contractName' request request' hrequest hrequest'
      have hlist : (stateAfter env (front ++ between) state.expire).list =
          (stateAfter env front state.expire).list := by
        rw [stateAfter_append]
        apply list_stateAfter (houtside front)
        intro before call after heq
        rw [← stateAfter_append]
        refine ⟨hsets before call after heq,
          hwhen (front ++ before) call (after ++ back) ?_⟩
        rw [hcalls, heq]
        simp
      have hsent := invokedRequest_parameters hrequest
      have hsent' := invokedRequest_parameters hrequest'
      rw [hlist] at hsent'
      exact Except.ok.inj (hsent.symm.trans hsent')

/-- A null pointer among the arguments loses the parameters that were set, and
so does a call that waits. -/
theorem not_paramsKept :
    ¬ParamsKept chainmakerSampleEnv
        [.addTxParam 2 (some sampleName) [some sampleName],
          .addTxParam 2 (some sampleName) [none]] chainmakerSampleState ∧
      ¬ParamsKept chainmakerSampleEnv
        [.contractInvoke sampleName sampleName true] chainmakerSampleState := by
  constructor
  · intro hkept
    have hlist := hkept.step
      [.addTxParam 2 (some sampleName) [some sampleName]]
      (.addTxParam 2 (some sampleName) [none]) [] rfl ⟨_, _, rfl⟩
    exact absurd (congrArg List.length hlist) (by decide)
  · intro hkept
    have hwhen := (contractInvoke_keeps_iff (by decide)).mp
      (hkept.step [] (.contractInvoke sampleName sampleName true) [] rfl)
    exact hwhen rfl _ chainmakerSample_first rfl _ rfl

end BoatFramework
