/-
A call that waits for its transaction.  Each round asks the node and judges
what it answers; the rounds should go on until one shows that the contract
succeeded, and the call should report success exactly then.  A contract that
failed and a transaction that stays unknown are reported as success of the
call.
-/
import BoatFramework.Chainmaker.Answers
import BoatFramework.Chainmaker.TxParams

namespace BoatFramework

/-- What one round says of the transaction; it stops the call where its query
gets no id. -/
inductive PollVerdict where
  | undefined
  | stopped
  | failed
  | refused
  | unreadable
  | contractFailed
  | succeeded
deriving DecidableEq

/-- The verdicts after which another query follows. -/
def PollVerdict.retried : PollVerdict → Bool
  | .failed | .refused | .unreadable => true
  | _ => false

section Verdicts

variable (env : ChainmakerEnv)

/-- What the result in a response shows. -/
def resultVerdict (response : TxResponse) : PollVerdict :=
  match response.contractResult with
  | none => .undefined
  | some contractResult =>
      match env.unpackRwset contractResult.result with
      | none => .unreadable
      | some ⟨some (some ⟨code, some _⟩)⟩ =>
          if code = boatSuccess then .succeeded else .contractFailed
      | some _ => .undefined

def responseVerdict (response : TxResponse) : PollVerdict :=
  if response.code = boatSuccess then resultVerdict env response
  else .refused

/-- The answer to a query with some id for a transaction. -/
def queryAnswer (invokeTxId : List Char) (tx : BoatChainmakerTx) (n : Nat)
    (txId : List Char) : Outcome TxResponse :=
  requestAnswer env n
    { tx with transPara := queryParams invokeTxId tx.transPara } getTxByTxId
    chainQuery .queryUserContract txId

def answerVerdict : Outcome TxResponse → PollVerdict
  | .error .undefined => .undefined
  | .error (.code _) => .failed
  | .ok response => responseVerdict env response

/-- The verdict of a query, by the numbers of its packing and of its id; where
there is no id the call stops. -/
def queryVerdict (invokeTxId : List Char) (tx : BoatChainmakerTx)
    (n id : Nat) : PollVerdict :=
  match txIdOf env id with
  | .error _ => .stopped
  | .ok txId => answerVerdict env (queryAnswer env invokeTxId tx n txId)

variable (method contractName : CString) (state : ChainmakerState)

/-- The verdict of a query behind the first request; that has the numbers that
the state is at. -/
def pollVerdict (i : Nat) : PollVerdict :=
  queryVerdict env (invokeId env state) state.tx (state.packings + 1 + i)
    (state.ids + 1 + i)

/-- The first request got a response with the code of success. -/
def Accepted : Prop :=
  ∃ response, firstAnswer env method contractName state = .ok response ∧
    response.code = boatSuccess

/-- The call reports success: by its result, by the code of the response, and
after that number of queries. -/
def ReportsSuccess (queries : Nat) : Prop :=
  ∃ after, boatChainmakerContractInvoke env method contractName true state =
      .ok () after ∧
    after.responseData.code = boatSuccess ∧
    after.packings = state.packings + 1 + queries

/-- The call reports an error, with no sign of success. -/
def ReportsError (after : ChainmakerState) : Prop :=
  ∃ code, code ≠ boatSuccess ∧
    boatChainmakerContractInvoke env method contractName true state =
      .error (.code code) after ∧
    after.responseData.code ≠ boatSuccess

/-- What a call that waits should report: success when a query shows it, with
no query behind that one, and else an error, after all queries where the first
request was accepted. -/
structure ReportsWell : Prop where
  seen : Accepted env method contractName state →
    ∀ i < boatRetryCnt, pollVerdict env state i = .succeeded →
      (∀ j < i, pollVerdict env state j ≠ .succeeded) →
      ReportsSuccess env method contractName state (i + 1)
  unseen : Accepted env method contractName state →
    (∀ i < boatRetryCnt, pollVerdict env state i ≠ .succeeded) →
      ∃ after, ReportsError env method contractName state after ∧
        after.packings = state.packings + 1 + boatRetryCnt
  notAccepted : ¬Accepted env method contractName state →
    ∃ after, ReportsError env method contractName state after

/-- Nothing but retried verdicts in front of the success, or all of them
retried and the last one a query that failed. -/
def PollsSettled : Prop :=
  ∃ i < boatRetryCnt, (∀ j < i, (pollVerdict env state j).retried = true) ∧
    (pollVerdict env state i = .succeeded ∨
      i + 1 = boatRetryCnt ∧ pollVerdict env state i = .failed)

/-- When a call that waits reports what it should. -/
def ReportsWhen : Prop :=
  match firstAnswer env method contractName state with
  | .error .undefined => False
  | .error (.code _) => state.responseData.code ≠ boatSuccess
  | .ok response => response.code = boatSuccess → PollsSettled env state

end Verdicts

section Round

variable {env : ChainmakerEnv} {invokeTxId : List Char}

/-- The parameters of a query. -/
def queryList (invokeTxId : List Char) : List BoatKeyValuePair :=
  [⟨some (.caller txIdKey), some (.frame invokeTxId)⟩]

theorem queryParams_list (params : BoatTransactionParams) :
    (queryParams invokeTxId params).list = queryList invokeTxId :=
  (boatChainmakerAddTxParam_read 2 (some (.caller txIdKey))
    [some (.frame invokeTxId)] params (by decide)).2

theorem queryAnswer_congr {tx tx' : BoatChainmakerTx} (n : Nat)
    (txId : List Char) (hnetwork : tx.networkInfo = tx'.networkInfo)
    (hgas : tx.gasLimit = tx'.gasLimit) :
    queryAnswer env invokeTxId tx n txId =
      queryAnswer env invokeTxId tx' n txId :=
  requestAnswer_congr n
    ((queryParams_list _).trans (queryParams_list _).symm) hnetwork hgas

/-- What rounds leave of the state. -/
structure RoundsDone (rounds : Nat) (state after : ChainmakerState) : Prop where
  networkInfo : after.tx.networkInfo = state.tx.networkInfo
  gasLimit : after.tx.gasLimit = state.tx.gasLimit
  packings : after.packings = state.packings + rounds
  ids : after.ids = state.ids + rounds

/-- The result and the response that a round with a verdict leaves. -/
def PollVerdict.Leaves : PollVerdict → BoatResult → Option TxResponse →
    ChainmakerState → Prop
  | .undefined, _, _, _ => False
  | .stopped, _, _, _ => False
  | .failed, result, _, _ => result ≠ boatSuccess
  | .refused, result, kept, after => result = boatSuccess ∧ kept.isSome ∧
      after.responseData.code ≠ boatSuccess
  | .succeeded, result, kept, after => result = boatSuccess ∧ kept.isSome ∧
      after.responseData.code = boatSuccess
  | _, result, kept, _ => result = boatSuccess ∧ kept = none

/-- The step that leaves a result and a response. -/
def PollVerdict.step (verdict : PollVerdict) (result : BoatResult)
    (kept : Option TxResponse) : PollStep :=
  if verdict.retried then .again result kept else .leave result kept

/-- What judging an answer comes to: no defined end, or the step of the
verdict with other data of the response. -/
def PollVerdict.Judges (verdict : PollVerdict) (program : ChainmakerM PollStep)
    (state : ChainmakerState) : Prop :=
  (verdict = .undefined ∧ ∃ after, program state = .error .undefined after) ∨
    ∃ data result kept,
      verdict.Leaves result kept { state with responseData := data } ∧
      program state =
        .ok (verdict.step result kept) { state with responseData := data }

theorem judgeResult_verdict (response : TxResponse) {state : ChainmakerState}
    (hcode : state.responseData.code = boatSuccess) :
    (resultVerdict env response).Judges (judgeResult env response) state := by
  unfold PollVerdict.Judges resultVerdict judgeResult
  cases response.contractResult with
  | none => exact .inl ⟨rfl, _, rfl⟩
  | some contractResult =>
      dsimp only
      rcases env.unpackRwset contractResult.result with
        _ | ⟨_ | _ | ⟨code, _ | result⟩⟩
      · exact .inr ⟨_, _, _, ⟨rfl, rfl⟩, rfl⟩
      · exact .inl ⟨rfl, _, rfl⟩
      · exact .inl ⟨rfl, _, rfl⟩
      · exact .inl ⟨rfl, _, rfl⟩
      · by_cases hsuccess : code = boatSuccess
        · simp only [if_pos hsuccess]
          exact .inr ⟨keepContractResult result response
            { state.responseData with contractCode := code }, _, _,
            ⟨rfl, rfl, hcode⟩, rfl⟩
        · simp only [if_neg hsuccess]
          exact .inr ⟨_, _, _, ⟨rfl, rfl⟩, rfl⟩

theorem judgeResponse_verdict (response : TxResponse)
    (state : ChainmakerState) :
    (responseVerdict env response).Judges (judgeResponse env response) state := by
  unfold responseVerdict
  by_cases hcode : response.code = boatSuccess
  · rw [if_pos hcode]
    have hjudge := @judgeResult_verdict env response
      { state with
        responseData := { state.responseData with code := response.code } }
      hcode
    have hrun : judgeResponse env response state = judgeResult env response
      { state with
        responseData := { state.responseData with code := response.code } } := by
      unfold judgeResponse
      rw [if_pos hcode]
      rfl
    unfold PollVerdict.Judges
    rw [hrun]
    exact hjudge
  · rw [if_neg hcode]
    unfold PollVerdict.Judges judgeResponse
    rw [if_neg hcode]
    exact .inr ⟨{ state.responseData with code := response.code }, boatSuccess,
      some response, ⟨rfl, rfl, hcode⟩, rfl⟩

/-- The query of one round, on the parameters that are put into the record. -/
def queried (invokeTxId : List Char) (state : ChainmakerState) :
    ChainmakerState :=
  { state with
    tx := { state.tx with
      transPara := queryParams invokeTxId state.tx.transPara } }

/-- What a round makes of the answer to its query. -/
def PollStep.ofAnswer (env : ChainmakerEnv) (kept : Option TxResponse) :
    Outcome TxResponse → ChainmakerM PollStep
  | .error .undefined => throw .undefined
  | .error (.code result) => pure (.again result kept)
  | .ok response => judgeResponse env response

theorem queryOnce_answer (txId : List Char) (kept : Option TxResponse)
    (state : ChainmakerState) :
    ∃ after kept', after.tx = (queried invokeTxId state).tx ∧
      after.packings = state.packings + 1 ∧ after.ids = state.ids ∧
      queryOnce env invokeTxId txId kept state = PollStep.ofAnswer env kept'
        (queryAnswer env invokeTxId state.tx state.packings txId) after := by
  unfold queryOnce queryAnswer requestAnswer
  cases hrequest : bufferedRequest env state.packings
      (queried invokeTxId state).tx getTxByTxId chainQuery .queryUserContract
      txId with
  | error failure =>
      obtain ⟨after, hpack, hafter, _⟩ :=
        hlchainmakerTransactionPacked_error (queried invokeTxId state) hrequest
      unfold queried at hpack hrequest hafter
      dsimp only at hafter ⊢
      rw [hpack, hrequest]
      refine ⟨after, kept, hafter.tx, hafter.packings, hafter.ids, ?_⟩
      cases failure <;> rfl
  | ok request =>
      obtain ⟨after, hpack, hafter, _⟩ :=
        hlchainmakerTransactionPacked_ok (queried invokeTxId state) hrequest
      unfold queried at hpack hrequest hafter
      dsimp only at hafter ⊢
      rw [hpack, hrequest, Exec.except_ok_bind]
      refine ⟨after, none, hafter.tx, hafter.packings, hafter.ids, ?_⟩
      cases boatChainmakerTxRequest env state.packings with
      | error failure => cases failure <;> rfl
      | ok response => rfl

theorem txIdOf_error {n : Nat} {failure : Failure}
    (hid : txIdOf env n = .error failure) : failure = .code boatError := by
  unfold txIdOf at hid
  split at hid
  · exact (Except.error.inj hid).symm
  · cases hid

/-- Without an id the round ends the call. -/
theorem pollOnce_stopped (kept : Option TxResponse) {state : ChainmakerState}
    {failure : Failure} (hid : txIdOf env state.ids = .error failure) :
    pollOnce env invokeTxId kept state =
      .error (.code boatError) { state with ids := state.ids + 1 } := by
  have hdrawn := getTxId_error hid
  rw [txIdOf_error hid] at hdrawn
  exact Exec.bind_error hdrawn

theorem pollOnce_identified (kept : Option TxResponse) {state : ChainmakerState}
    {txId : List Char} (hid : txIdOf env state.ids = .ok txId) :
    pollOnce env invokeTxId kept state = queryOnce env invokeTxId txId kept
      { state with ids := state.ids + 1 } := by
  exact Exec.bind_ok (getTxId_ok hid)

/-- The verdict of the round that is so many behind a state. -/
def verdictAt (env : ChainmakerEnv) (invokeTxId : List Char)
    (state : ChainmakerState) (i : Nat) : PollVerdict :=
  queryVerdict env invokeTxId state.tx (state.packings + i) (state.ids + i)

/-- How a call is ended by a round that leaves nothing; that many packings were
made before. -/
def PollVerdict.Breaks {α : Type} (verdict : PollVerdict) (packings : Nat)
    (ended : EStateM.Result Failure ChainmakerState α) : Prop :=
  match verdict with
  | .undefined => ∃ after, ended = .error .undefined after
  | .stopped => ∃ after, ended = .error (.code boatError) after ∧
      after.packings = packings
  | _ => False

/-- One round goes the way of its verdict. -/
theorem pollOnce_verdict (kept : Option TxResponse) (state : ChainmakerState) :
    (verdictAt env invokeTxId state 0).Breaks state.packings
      (pollOnce env invokeTxId kept state) ∨
    ∃ after result kept', RoundsDone 1 state after ∧
      (verdictAt env invokeTxId state 0).Leaves result kept' after ∧
      pollOnce env invokeTxId kept state =
        .ok ((verdictAt env invokeTxId state 0).step result kept') after := by
  unfold verdictAt queryVerdict
  rw [Nat.add_zero, Nat.add_zero]
  cases hid : txIdOf env state.ids with
  | error failure =>
      exact .inl ⟨_, pollOnce_stopped kept hid, rfl⟩
  | ok txId =>
      have hreal : FailsReally
          (queryAnswer env invokeTxId state.tx state.packings txId) :=
        requestAnswer_failsReally _ _
      obtain ⟨after, kept', htx, hpackings, hids, hrun⟩ :=
        @queryOnce_answer env invokeTxId txId kept
          { state with ids := state.ids + 1 }
      have hafter : RoundsDone 1 state after := by
        constructor
        · rw [htx]
          rfl
        · rw [htx]
          rfl
        · exact hpackings
        · exact hids
      rw [pollOnce_identified kept hid, hrun]
      dsimp only
      rcases hanswer : queryAnswer env invokeTxId state.tx state.packings txId
        with (result | _) | response
      · refine .inr ⟨after, result, kept', hafter, fun hresult => hreal ?_, rfl⟩
        rw [hanswer, hresult]
      · exact .inl ⟨_, rfl⟩
      · rcases judgeResponse_verdict response after with
          ⟨hverdict, hundefined⟩ | ⟨data, result, kept'', hleaves, hjudge⟩
        · refine .inl ?_
          rw [answerVerdict, hverdict]
          exact hundefined
        · exact .inr ⟨{ after with responseData := data }, result, kept'',
            ⟨hafter.networkInfo, hafter.gasLimit, hafter.packings, hafter.ids⟩,
            hleaves, hjudge⟩

end Round

section Loop

variable {env : ChainmakerEnv} {invokeTxId : List Char}

theorem RoundsDone.verdictAt {rounds : Nat} {state after : ChainmakerState}
    (hdone : RoundsDone rounds state after) (i : Nat) :
    BoatFramework.verdictAt env invokeTxId after i =
      BoatFramework.verdictAt env invokeTxId state (rounds + i) := by
  unfold BoatFramework.verdictAt queryVerdict
  rw [hdone.packings, hdone.ids, Nat.add_assoc, Nat.add_assoc]
  simp only [queryAnswer_congr _ _ hdone.networkInfo hdone.gasLimit]

theorem PollVerdict.Breaks.not_retried {α : Type} {verdict : PollVerdict}
    {packings : Nat} {ended : EStateM.Result Failure ChainmakerState α}
    (hbreaks : verdict.Breaks packings ended) : verdict.retried = false := by
  cases verdict with
  | undefined => rfl
  | stopped => rfl
  | _ => exact hbreaks.elim

/-- What is broken off does not go on. -/
theorem PollVerdict.Breaks.bind {α β : Type} {verdict : PollVerdict}
    {packings : Nat} {program : ChainmakerM α} {state : ChainmakerState}
    (hbreaks : verdict.Breaks packings (program state))
    (next : α → ChainmakerM β) :
    verdict.Breaks packings ((program >>= next) state) := by
  cases verdict with
  | undefined =>
      obtain ⟨after, hrun⟩ := hbreaks
      exact ⟨after, Exec.bind_error hrun⟩
  | stopped =>
      obtain ⟨after, hrun, hpackings⟩ := hbreaks
      exact ⟨after, Exec.bind_error hrun, hpackings⟩
  | _ => exact hbreaks.elim

theorem RoundsDone.trans {first second : Nat} {state mid after : ChainmakerState}
    (hfirst : RoundsDone first state mid)
    (hsecond : RoundsDone second mid after) :
    RoundsDone (first + second) state after := by
  constructor
  · rw [hsecond.networkInfo, hfirst.networkInfo]
  · rw [hsecond.gasLimit, hfirst.gasLimit]
  · rw [hsecond.packings, hfirst.packings, Nat.add_assoc]
  · rw [hsecond.ids, hfirst.ids, Nat.add_assoc]

/-- A round that is retried hands what it left to the next one. -/
theorem pollLoop_again (rounds : Nat) (result : BoatResult)
    (kept : Option TxResponse) (state : ChainmakerState)
    (hretried : (verdictAt env invokeTxId state 0).retried = true) :
    ∃ after result' kept', RoundsDone 1 state after ∧
      (verdictAt env invokeTxId state 0).Leaves result' kept' after ∧
      pollLoop env invokeTxId (rounds + 1) result kept state =
        pollLoop env invokeTxId rounds result' kept' after := by
  rcases pollOnce_verdict kept state with
    hbreaks | ⟨after, result', kept', hdone, hleaves, hrun⟩
  · rw [hbreaks.not_retried] at hretried
    cases hretried
  · rw [PollVerdict.step, if_pos hretried] at hrun
    exact ⟨after, result', kept', hdone, hleaves, Exec.bind_ok hrun⟩

/-- A round that is not retried ends the loop. -/
theorem pollLoop_leave (rounds : Nat) (result : BoatResult)
    (kept : Option TxResponse) (state : ChainmakerState)
    (hretried : (verdictAt env invokeTxId state 0).retried = false) :
    (verdictAt env invokeTxId state 0).Breaks state.packings
      (pollLoop env invokeTxId (rounds + 1) result kept state) ∨
    ∃ after result' kept', RoundsDone 1 state after ∧
      (verdictAt env invokeTxId state 0).Leaves result' kept' after ∧
      pollLoop env invokeTxId (rounds + 1) result kept state =
        .ok (result', kept') after := by
  rcases pollOnce_verdict kept state with
    hbreaks | ⟨after, result', kept', hdone, hleaves, hrun⟩
  · exact .inl (hbreaks.bind _)
  · rw [PollVerdict.step, hretried] at hrun
    exact .inr ⟨after, result', kept', hdone, hleaves, Exec.bind_ok hrun⟩

/-- The loop over rounds that are retried goes on with what the last of them
left. -/
theorem pollLoop_retried {rounds : Nat} (more : Nat) (result : BoatResult)
    (kept : Option TxResponse) (state : ChainmakerState)
    (hretried : ∀ i < rounds, (verdictAt env invokeTxId state i).retried = true) :
    ∃ after result' kept', RoundsDone rounds state after ∧
      pollLoop env invokeTxId (rounds + more) result kept state =
        pollLoop env invokeTxId more result' kept' after := by
  induction rounds generalizing more with
  | zero =>
      rw [Nat.zero_add]
      exact ⟨state, result, kept, ⟨rfl, rfl, rfl, rfl⟩, rfl⟩
  | succ rounds ih =>
      obtain ⟨mid, midResult, midKept, hmid, hfront⟩ := ih (more + 1)
        fun i hi => hretried i (Nat.lt_succ_of_lt hi)
      have hlast := hretried rounds (Nat.lt_succ_self _)
      rw [← Nat.add_zero rounds, ← hmid.verdictAt] at hlast
      obtain ⟨after, result', kept', hafter, _, hagain⟩ :=
        pollLoop_again more midResult midKept mid hlast
      refine ⟨after, result', kept', hmid.trans hafter, ?_⟩
      rw [Nat.add_right_comm, Nat.add_assoc, hfront, hagain]

/-- The round that ends the loop: not retried, or the last one. -/
structure EndsAt (env : ChainmakerEnv) (invokeTxId : List Char)
    (state : ChainmakerState) (i : Nat) : Prop where
  lt : i < boatRetryCnt
  front : ∀ j < i, (verdictAt env invokeTxId state j).retried = true
  ends : (verdictAt env invokeTxId state i).retried = true →
    i + 1 = boatRetryCnt

theorem exists_endsAt (state : ChainmakerState) :
    ∃ i, EndsAt env invokeTxId state i := by
  by_cases hleft : ∃ i, i < boatRetryCnt ∧
      (verdictAt env invokeTxId state i).retried = false
  · refine ⟨Nat.find hleft, (Nat.find_spec hleft).1, ?_, ?_⟩
    · intro j hj
      have hmin := Nat.find_min hleft hj
      have hlt : j < boatRetryCnt := hj.trans (Nat.find_spec hleft).1
      simpa [hlt] using hmin
    · intro hretried
      rw [(Nat.find_spec hleft).2] at hretried
      cases hretried
  · have hall : ∀ i < boatRetryCnt,
        (verdictAt env invokeTxId state i).retried = true := by
      simpa using hleft
    exact ⟨9, by decide, fun j hj => hall j (hj.trans (by decide)), fun _ => rfl⟩

/-- The loop ends with its round. -/
theorem pollLoop_endsAt (result : BoatResult) (kept : Option TxResponse)
    {state : ChainmakerState} {i : Nat}
    (hends : EndsAt env invokeTxId state i) :
    (verdictAt env invokeTxId state i).Breaks (state.packings + i)
      (pollLoop env invokeTxId boatRetryCnt result kept state) ∨
    ∃ after result' kept', RoundsDone (i + 1) state after ∧
      (verdictAt env invokeTxId state i).Leaves result' kept' after ∧
      pollLoop env invokeTxId boatRetryCnt result kept state =
        .ok (result', kept') after := by
  obtain ⟨more, hmore⟩ := Nat.exists_eq_add_of_le hends.lt
  obtain ⟨mid, midResult, midKept, hmid, hfront⟩ :=
    pollLoop_retried (more + 1) result kept state hends.front
  have hverdict : verdictAt env invokeTxId mid 0 =
      verdictAt env invokeTxId state i :=
    hmid.verdictAt 0
  rw [hmore, Nat.succ_eq_add_one, Nat.add_right_comm, Nat.add_assoc, hfront,
    ← hmid.packings, ← hverdict]
  by_cases hretried : (verdictAt env invokeTxId mid 0).retried = true
  · have hlast : more = 0 := by
      have hlength := hends.ends (hverdict ▸ hretried)
      omega
    obtain ⟨after, result', kept', hafter, hleaves, hagain⟩ :=
      pollLoop_again more midResult midKept mid hretried
    subst hlast
    exact .inr ⟨after, result', kept', hmid.trans hafter, hleaves, hagain⟩
  · rcases pollLoop_leave more midResult midKept mid (by simpa using hretried)
      with hbreaks | ⟨after, result', kept', hafter, hleaves, hleave⟩
    · exact .inl hbreaks
    · exact .inr ⟨after, result', kept', hmid.trans hafter, hleaves, hleave⟩

/-- How a call that waited ends, with so many packings in front of its last
round: with the success of the contract, with a failure, or with a result of
success for a transaction that did not succeed. -/
def PollVerdict.Ends (verdict : PollVerdict) (packings : Nat)
    (ended : EStateM.Result Failure ChainmakerState Unit) : Prop :=
  match verdict with
  | .undefined => ∃ after, ended = .error .undefined after
  | .stopped => ∃ after, ended = .error (.code boatError) after ∧
      after.packings = packings
  | .failed => ∃ code after, code ≠ boatSuccess ∧
      ended = .error (.code code) after ∧
      after.responseData.code ≠ boatSuccess ∧ after.packings = packings + 1
  | .succeeded => ∃ after, ended = .ok () after ∧
      after.responseData.code = boatSuccess ∧ after.packings = packings + 1
  | _ => ∃ after, ended = .ok () after ∧ after.responseData.code ≠ boatSuccess

/-- The waiting behind its loop. -/
def reportResult (result : BoatResult) (kept : Option TxResponse) :
    ChainmakerM Unit := do
  match result == boatSuccess, kept with
  | true, some response =>
      ChainmakerM.modifyResponse fun data =>
        { data with message := some response.message }
  | _, _ =>
      ChainmakerM.modifyResponse fun data => { data with code := boatError }
  returnResult result

theorem reportResult_ends {verdict : PollVerdict} {result : BoatResult}
    {kept : Option TxResponse} {state : ChainmakerState} {packings : Nat}
    (hleaves : verdict.Leaves result kept state)
    (hpackings : state.packings = packings + 1) :
    verdict.Ends packings (reportResult result kept state) := by
  have herror : boatError ≠ boatSuccess := by decide
  cases verdict with
  | undefined => exact hleaves.elim
  | stopped => exact hleaves.elim
  | failed =>
      have hfailed : result ≠ boatSuccess := hleaves
      have hcode : (result == boatSuccess) = false := by simpa using hfailed
      have hrun : reportResult result kept state = .error (.code result)
          { state with
            responseData := { state.responseData with code := boatError } } := by
        unfold reportResult returnResult
        rw [hcode, if_neg hfailed]
        rfl
      rw [hrun]
      exact ⟨result, _, hfailed, rfl, herror, hpackings⟩
  | refused =>
      obtain ⟨rfl, hkept, hcode⟩ := hleaves
      obtain ⟨response, rfl⟩ := Option.isSome_iff_exists.mp hkept
      exact ⟨_, rfl, hcode⟩
  | succeeded =>
      obtain ⟨rfl, hkept, hcode⟩ := hleaves
      obtain ⟨response, rfl⟩ := Option.isSome_iff_exists.mp hkept
      exact ⟨_, rfl, hcode, hpackings⟩
  | unreadable =>
      obtain ⟨rfl, rfl⟩ := hleaves
      exact ⟨_, rfl, herror⟩
  | contractFailed =>
      obtain ⟨rfl, rfl⟩ := hleaves
      exact ⟨_, rfl, herror⟩

theorem PollVerdict.Breaks.ends {verdict : PollVerdict} {packings : Nat}
    {ended : EStateM.Result Failure ChainmakerState Unit}
    (hbreaks : verdict.Breaks packings ended) : verdict.Ends packings ended := by
  cases verdict with
  | undefined => exact hbreaks
  | stopped => exact hbreaks
  | _ => exact hbreaks.elim

/-- A call that waits ends as the last verdict says. -/
theorem waitForResult_ends (response : TxResponse) {state : ChainmakerState}
    {i : Nat} (hends : EndsAt env invokeTxId state i) :
    (verdictAt env invokeTxId state i).Ends (state.packings + i)
      (waitForResult env invokeTxId response state) := by
  have hwait : waitForResult env invokeTxId response =
      (pollLoop env invokeTxId boatRetryCnt boatSuccess (some response) >>=
        fun pair => reportResult pair.1 pair.2) := rfl
  rw [hwait]
  rcases pollLoop_endsAt boatSuccess (some response) hends with
    hbreaks | ⟨after, result, kept, hdone, hleaves, hrun⟩
  · exact (hbreaks.bind _).ends
  · rw [Exec.bind_ok hrun]
    exact reportResult_ends hleaves hdone.packings

end Loop

section Reports

variable {env : ChainmakerEnv} {method contractName : CString}
  {state : ChainmakerState}

/-- The end of the body as the caller sees it. -/
def expired : EStateM.Result Failure ChainmakerState Unit →
    EStateM.Result Failure ChainmakerState Unit
  | .ok _ after => .ok () after.expire
  | .error failure after => .error failure after.expire

theorem boatChainmakerContractInvoke_eq (syncResult : Bool) :
    boatChainmakerContractInvoke env method contractName syncResult state =
      expired (contractInvoke env method contractName syncResult state) :=
  rfl

theorem final_expired (ended : EStateM.Result Failure ChainmakerState Unit) :
    Exec.final (expired ended) = (Exec.final ended).expire := by
  cases ended <;> rfl

theorem PollVerdict.Ends.expired {verdict : PollVerdict} {packings : Nat}
    {ended : EStateM.Result Failure ChainmakerState Unit}
    (hends : verdict.Ends packings ended) :
    verdict.Ends packings (BoatFramework.expired ended) := by
  cases verdict with
  | undefined =>
      obtain ⟨after, rfl⟩ := hends
      exact ⟨_, rfl⟩
  | stopped =>
      obtain ⟨after, rfl, hpackings⟩ := hends
      exact ⟨_, rfl, hpackings⟩
  | failed =>
      obtain ⟨code, after, hcode, rfl, hresponse⟩ := hends
      exact ⟨code, _, hcode, rfl, hresponse⟩
  | _ =>
      obtain ⟨after, rfl, hresponse⟩ := hends
      exact ⟨_, rfl, hresponse⟩

/-- The last query of a call whose first request was accepted. -/
theorem accepted_ends (haccepted : Accepted env method contractName state) :
    ∃ i < boatRetryCnt,
      (∀ j < i, (pollVerdict env state j).retried = true) ∧
      ((pollVerdict env state i).retried = true → i + 1 = boatRetryCnt) ∧
      (pollVerdict env state i).Ends (state.packings + 1 + i)
        (boatChainmakerContractInvoke env method contractName true state) := by
  obtain ⟨response, hanswer, hcode⟩ := haccepted
  obtain ⟨mid, htx, hids, hpackings, _, hrun⟩ :=
    @contractInvoke_accepted env method contractName true state response
      hanswer hcode
  rw [if_pos rfl] at hrun
  have hverdict (i : Nat) : verdictAt env (invokeId env state) mid i =
      pollVerdict env state i := by
    rw [verdictAt, htx, hpackings, hids]
    rfl
  obtain ⟨i, hends⟩ := @exists_endsAt env (invokeId env state) mid
  have hended := waitForResult_ends response hends
  rw [hverdict, hpackings] at hended
  refine ⟨i, hends.lt, fun j hj => ?_, ?_, ?_⟩
  · rw [← hverdict]
    exact hends.front j hj
  · rw [← hverdict]
    exact hends.ends
  · rw [boatChainmakerContractInvoke_eq, hrun]
    exact hended.expired

theorem retried_ne_succeeded {verdict : PollVerdict}
    (hretried : verdict.retried = true) : verdict ≠ .succeeded := by
  rintro rfl
  cases hretried

/-- A call that reports well has a result: success, or an error behind all
queries, with the sign of it in the code of the response. -/
theorem ReportsWell.reported
    (hwell : ReportsWell env method contractName state)
    (haccepted : Accepted env method contractName state) :
    (∃ queries, ReportsSuccess env method contractName state queries) ∨
      ∃ after, ReportsError env method contractName state after ∧
        after.packings = state.packings + 1 + boatRetryCnt := by
  by_cases hseen : ∃ i, i < boatRetryCnt ∧ pollVerdict env state i = .succeeded
  · obtain ⟨hlt, hverdict⟩ := Nat.find_spec hseen
    refine .inl ⟨_, hwell.seen haccepted _ hlt hverdict fun j hj heq => ?_⟩
    exact Nat.find_min hseen hj ⟨hj.trans hlt, heq⟩
  · have hunseen : ∀ i < boatRetryCnt, pollVerdict env state i ≠ .succeeded := by
      simpa using hseen
    exact .inr (hwell.unseen haccepted hunseen)

/-- A verdict that does not settle the call ends it without a report. -/
theorem PollVerdict.Ends.unreported {verdict : PollVerdict} {i : Nat}
    (hends : verdict.Ends (state.packings + 1 + i)
      (boatChainmakerContractInvoke env method contractName true state))
    (hlt : i < boatRetryCnt) (hsucceeded : verdict ≠ .succeeded)
    (hfailed : verdict ≠ .failed) :
    (∀ queries, ¬ReportsSuccess env method contractName state queries) ∧
      ∀ after, ReportsError env method contractName state after →
        after.packings ≠ state.packings + 1 + boatRetryCnt := by
  constructor
  · rintro queries ⟨after, hrun, hcode, _⟩
    rw [hrun] at hends
    cases verdict with
    | undefined =>
        obtain ⟨_, hended⟩ := hends
        cases hended
    | stopped =>
        obtain ⟨_, hended, _⟩ := hends
        cases hended
    | failed => exact hfailed rfl
    | succeeded => exact hsucceeded rfl
    | _ =>
        obtain ⟨_, hended, hresponse⟩ := hends
        cases hended
        exact hresponse hcode
  · rintro after ⟨code, _, hrun, _⟩
    rw [hrun] at hends
    cases verdict with
    | failed => exact absurd rfl hfailed
    | succeeded => exact absurd rfl hsucceeded
    | undefined =>
        obtain ⟨_, hended⟩ := hends
        cases hended
    | stopped =>
        obtain ⟨_, hended, hpackings⟩ := hends
        cases hended
        omega
    | _ =>
        obtain ⟨_, hended, _⟩ := hends
        cases hended

/-- The accepted case of the condition. -/
theorem reportsWell_accepted
    (haccepted : Accepted env method contractName state) :
    ReportsWell env method contractName state ↔ PollsSettled env state := by
  obtain ⟨i, hlt, hfront, hlast, hended⟩ := accepted_ends haccepted
  constructor
  · intro hwell
    by_cases hsucceeded : pollVerdict env state i = .succeeded
    · exact ⟨i, hlt, hfront, .inl hsucceeded⟩
    · by_cases hfailed : pollVerdict env state i = .failed
      · exact ⟨i, hlt, hfront, .inr ⟨hlast (by rw [hfailed]; rfl), hfailed⟩⟩
      · obtain ⟨hnone, hnoError⟩ := hended.unreported hlt hsucceeded hfailed
        rcases hwell.reported haccepted with
          ⟨queries, hreport⟩ | ⟨after, hreport, hpackings⟩
        · exact absurd hreport (hnone queries)
        · exact absurd hpackings (hnoError after hreport)
  · rintro ⟨k, hk, hkfront, hsettled⟩
    have hik : k = i := by
      rcases Nat.lt_trichotomy k i with hbefore | heq | hbehind
      · rcases hsettled with hsucceeded | ⟨hkLast, _⟩
        · exact absurd hsucceeded (retried_ne_succeeded (hfront k hbefore))
        · omega
      · exact heq
      · have hend := hlast (hkfront i hbehind)
        omega
    subst hik
    rcases hsettled with hsucceeded | ⟨hkLast, hfailed⟩
    · rw [hsucceeded] at hended
      obtain ⟨after, hrun, hcode, hpackings⟩ := hended
      constructor
      · intro _ j _ hj hfirst
        have heq : j = k := by
          rcases Nat.lt_trichotomy j k with hbefore | heq | hbehind
          · exact absurd hj (retried_ne_succeeded (hkfront j hbefore))
          · exact heq
          · exact absurd hsucceeded (hfirst k hbehind)
        subst heq
        exact ⟨after, hrun, hcode, hpackings⟩
      · exact fun _ hunseen => absurd hsucceeded (hunseen k hk)
      · exact fun hnot => absurd haccepted hnot
    · rw [hfailed] at hended
      obtain ⟨code, after, hcode, hrun, hresponse, hpackings⟩ := hended
      rw [Nat.add_assoc _ k 1, hkLast] at hpackings
      constructor
      · intro _ j hj hsucceeded _
        rcases Nat.lt_or_ge j k with hbefore | hge
        · exact absurd hsucceeded (retried_ne_succeeded (hkfront j hbefore))
        · obtain rfl : j = k := by omega
          rw [hfailed] at hsucceeded
          cases hsucceeded
      · exact fun _ _ => ⟨after, ⟨code, hcode, hrun, hresponse⟩, hpackings⟩
      · exact fun hnot => absurd haccepted hnot

/-- Without a response of success nothing is polled. -/
theorem reportsWell_notAccepted
    (hnot : ¬Accepted env method contractName state) :
    ReportsWell env method contractName state ↔
      ∃ after, ReportsError env method contractName state after := by
  constructor
  · exact fun hwell => hwell.notAccepted hnot
  · intro hreport
    exact ⟨fun haccepted => absurd haccepted hnot,
      fun haccepted => absurd haccepted hnot, fun _ => hreport⟩

theorem not_accepted {failure : Failure}
    (hanswer : firstAnswer env method contractName state = .error failure) :
    ¬Accepted env method contractName state := by
  rintro ⟨response, hresponse, _⟩
  rw [hanswer] at hresponse
  cases hresponse

/-- A first request that failed leaves the code of the response as it was. -/
theorem reportsWell_failed {code : BoatResult}
    (hanswer : firstAnswer env method contractName state =
      .error (.code code)) :
    ReportsWell env method contractName state ↔
      state.responseData.code ≠ boatSuccess := by
  rw [reportsWell_notAccepted (not_accepted hanswer)]
  obtain ⟨after, hdone, hrun⟩ :=
    @contractInvoke_failed env method contractName true state _ hanswer
  have hended : boatChainmakerContractInvoke env method contractName true
      state = .error (.code code) after.expire := by
    rw [boatChainmakerContractInvoke_eq, hrun]
    rfl
  have hresponse : after.expire.responseData.code =
      state.responseData.code := by
    change after.responseData.code = _
    rw [hdone.responseData]
    rfl
  constructor
  · rintro ⟨other, _, _, hother, hcode⟩
    rw [hended] at hother
    cases hother
    exact hresponse ▸ hcode
  · intro hcode
    have hreal : code ≠ boatSuccess := by
      rintro rfl
      exact firstAnswer_failsReally hanswer
    exact ⟨_, code, hreal, hended, hresponse ▸ hcode⟩

theorem not_reportsWell_undefined
    (hanswer : firstAnswer env method contractName state =
      .error .undefined) : ¬ReportsWell env method contractName state := by
  rw [reportsWell_notAccepted (not_accepted hanswer)]
  obtain ⟨after, hdone, hrun⟩ :=
    @contractInvoke_failed env method contractName true state _ hanswer
  rintro ⟨_, _, _, hended, _⟩
  rw [boatChainmakerContractInvoke_eq, hrun] at hended
  cases hended

theorem reportsWell_refused {response : TxResponse}
    (hanswer : firstAnswer env method contractName state = .ok response)
    (hcode : response.code ≠ boatSuccess) :
    ReportsWell env method contractName state := by
  have hnot : ¬Accepted env method contractName state := by
    rintro ⟨other, hother, hsuccess⟩
    rw [hanswer] at hother
    cases hother
    exact hcode hsuccess
  obtain ⟨after, _, hresponse, hrun⟩ :=
    @contractInvoke_refused env method contractName true state _ hanswer hcode
  rw [reportsWell_notAccepted hnot]
  refine ⟨after.expire, boatError, by decide, ?_, ?_⟩
  · rw [boatChainmakerContractInvoke_eq, hrun]
    rfl
  · exact fun hsuccess => hcode (hresponse.symm.trans hsuccess)

end Reports

/-- A call that waits reports what it should under its condition only. -/
theorem reportsWell_iff (env : ChainmakerEnv) (method contractName : CString)
    (state : ChainmakerState) :
    ReportsWell env method contractName state ↔
      ReportsWhen env method contractName state := by
  unfold ReportsWhen
  rcases hanswer : firstAnswer env method contractName state with
    (code | _) | response
  · exact reportsWell_failed hanswer
  · exact iff_of_false (not_reportsWell_undefined hanswer) id
  · by_cases hcode : response.code = boatSuccess
    · rw [reportsWell_accepted ⟨response, hanswer, hcode⟩]
      exact ⟨fun hsettled _ => hsettled, fun hwhen => hwhen hcode⟩
    · exact iff_of_true (reportsWell_refused hanswer hcode)
        fun hsuccess => absurd hsuccess hcode

section Pending

theorem chainmakerSample_verdict : ∀ i < boatRetryCnt,
    pollVerdict chainmakerSampleEnv chainmakerSampleState i = .refused := by
  decide +kernel

/-- A transaction that stays unknown to the node is reported as success. -/
theorem not_reportsWell :
    ¬ReportsWell chainmakerSampleEnv sampleName sampleName
      chainmakerSampleState := by
  intro hwell
  obtain ⟨i, hi, _, hsettled⟩ :=
    (reportsWell_accepted ⟨_, chainmakerSample_first, rfl⟩).mp hwell
  rw [chainmakerSample_verdict i hi] at hsettled
  rcases hsettled with hsucceeded | ⟨_, hfailed⟩
  · cases hsucceeded
  · cases hfailed

end Pending

end BoatFramework
