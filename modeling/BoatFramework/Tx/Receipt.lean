/-
The poll for the receipt of a transaction: `BoatEthGetTransactionReceipt`, and
the synchronous send that ends with it.
-/
import BoatFramework.Tx.Chains

namespace BoatFramework

/-- The answers to the receipt queries for a transaction hash, by poll. -/
abbrev ReceiptNode := List Char → Nat → NodeAnswer

/-- Seconds between two polls. -/
def boatEthMineInterval : Nat := 3

/-- Seconds to wait for a transaction being mined. -/
def boatEthWaitPendingTxTimeout : Nat := 30

/-- The timeout goes down by the interval at each pending answer. -/
def receiptPolls : Nat := boatEthWaitPendingTxTimeout / boatEthMineInterval

/-- The text of the transaction hash that is asked for. -/
def txHashStr (state : SendState) : List Char :=
  utilityBinToHex (state.tx.txHash.field.bytes.take state.tx.txHash.fieldLen)
    .leftTrimUnfmtData true false

/-- The verdict over a receipt: both branches leave the loop with success. -/
def judgeReceipt : SendM Unit :=
  fun state =>
    match state.resultBuf.content with
    | none => .error .undefined state
    | some status => if status = "0x1".toList then .ok () state else .ok () state

/-- `BoatEthParseRpcResponseResult` for the status of a receipt. -/
def parseStatus (env : SendEnv) (response : List Char)
    (buffer : ResultBuffer) : Outcome (BoatResult × ResultBuffer) :=
  ethParseJsonResult env.cJSONParse env.malloc response "status".toList buffer

/-- Judge what was parsed, or poll again. -/
def judgeParsed (again : SendM Unit) (parsed : BoatResult × ResultBuffer) :
    SendM Unit :=
  fun state =>
    let kept := state.setResultBuf parsed.2
    if parsed.1 = boatErrorJsonObjIsNull then again kept
    else if parsed.1 = boatSuccess then judgeReceipt kept
    else .error (.code boatErrorWalletResultParseFail) kept

def judgeAnswer (env : SendEnv) (again : SendM Unit) (response : List Char) :
    SendM Unit :=
  fun state =>
    match parseStatus env response state.resultBuf with
    | .error failure => .error failure state
    | .ok parsed => judgeParsed again parsed state

/-- The loop with `polls` polls left; `poll` counts the ones made. -/
def pollReceipt (env : SendEnv) (answers : Nat → NodeAnswer) :
    Nat → Nat → SendM Unit
  | 0, _ => sendThrow boatErrorCommonTxPending
  | polls + 1, poll =>
      match answers poll with
      | .error code => sendThrow code
      | .ok response =>
          judgeAnswer env (pollReceipt env answers polls (poll + 1)) response

def boatEthGetTransactionReceipt (env : SendEnv) (node : ReceiptNode) :
    SendM Unit :=
  fun state => pollReceipt env (node (txHashStr state)) receiptPolls 0 state

def boatEthSendRawtxWithReceipt (env : SendEnv) (node : ReceiptNode) :
    SendM Unit := do
  ethSendRawtx env
  boatEthGetTransactionReceipt env node

section Answers

variable (env : SendEnv)

/-- The `result` member of an answer that parses. -/
def answerResult (answer : NodeAnswer) : Option Json :=
  match answer with
  | .error _ => none
  | .ok response =>
      (env.cJSONParse response).bind (Json.getObjectItem "result".toList)

/-- The transaction is not mined yet. -/
def Pending (answer : NodeAnswer) : Prop :=
  answerResult env answer = some .null

/-- The status member of a receipt. -/
def receiptStatus (answer : NodeAnswer) : Option Json :=
  match answerResult env answer with
  | some (.object members) =>
      Json.getObjectItem "status".toList (.object members)
  | _ => none

/-- A receipt whose status is the string `0x1`. -/
def Mined (answer : NodeAnswer) : Prop :=
  receiptStatus env answer = some (.string "0x1".toList)

/-- An answer that ends the poll with success without saying that the
transaction was mined: a receipt with another status, whatever its type, or a
result that is a plain string. -/
def Misjudged (answer : NodeAnswer) : Prop :=
  (∃ status, receiptStatus env answer = some status ∧
    status ≠ .string "0x1".toList) ∨
  ∃ text, answerResult env answer = some (.string text)

/-- An answer that is an array with items: its parse is undefined. -/
def NamelessAnswer (answer : NodeAnswer) : Prop :=
  ∃ response, answer = .ok response ∧ Nameless (env.cJSONParse response)

variable {env}

theorem not_nameless_of_result {response : List Char} {result : Json}
    (hresult : answerResult env (.ok response) = some result) :
    ¬ Nameless (env.cJSONParse response) := by
  obtain ⟨json, hjson, hresult⟩ := Option.bind_eq_some_iff.mp hresult
  rw [hjson]
  exact not_nameless_of_some hresult

theorem not_pending_of_status {answer : NodeAnswer} {status : Json}
    (hstatus : receiptStatus env answer = some status) :
    ¬ Pending env answer := by
  intro hpending
  rw [Pending] at hpending
  rw [receiptStatus, hpending] at hstatus
  cases hstatus

theorem Mined.not_pending {answer : NodeAnswer} (hmined : Mined env answer) :
    ¬ Pending env answer :=
  not_pending_of_status hmined

theorem Misjudged.not_pending {answer : NodeAnswer}
    (hmisjudged : Misjudged env answer) : ¬ Pending env answer := by
  rcases hmisjudged with ⟨status, hstatus, _⟩ | ⟨text, htext⟩
  · exact not_pending_of_status hstatus
  · intro hpending
    rw [Pending, htext] at hpending
    cases hpending

theorem Misjudged.not_mined {answer : NodeAnswer}
    (hmisjudged : Misjudged env answer) : ¬ Mined env answer := by
  intro hmined
  rw [Mined] at hmined
  rcases hmisjudged with ⟨status, hstatus, hne⟩ | ⟨text, htext⟩
  · rw [hstatus] at hmined
    exact hne (Option.some.inj hmined)
  · rw [receiptStatus, htext] at hmined
    cases hmined

theorem Misjudged.named {response : List Char}
    (hmisjudged : Misjudged env (.ok response)) :
    ¬ Nameless (env.cJSONParse response) := by
  rcases hmisjudged with ⟨status, hstatus, _⟩ | ⟨text, htext⟩
  · unfold receiptStatus at hstatus
    split at hstatus
    next members hresult => exact not_nameless_of_result hresult
    next => cases hstatus
  · exact not_nameless_of_result htext

end Answers

section Parse

variable (env : SendEnv) (response : List Char) (buffer : ResultBuffer)

/-- A pending answer leaves the buffer as it is. -/
theorem parseStatus_pending (hpending : Pending env (.ok response)) :
    parseStatus env response buffer =
      .ok (boatErrorJsonObjIsNull, buffer) := by
  have hnamed := not_nameless_of_result hpending
  obtain ⟨json, hjson, hresult⟩ := Option.bind_eq_some_iff.mp hpending
  rw [parseStatus, ethParseJsonResult_named _ buffer hjson hnamed, hresult]
  rfl

/-- How an answer that is not pending parses: not at all for an array, a
failure for an answer without a verdict, else a text to copy or a status that is
no text. -/
inductive Verdict : Outcome (BoatResult × ResultBuffer) → Prop where
  | undefined (hnameless : Nameless (env.cJSONParse response)) :
      Verdict (.error .undefined)
  | failed (code : BoatResult) (hcode : code ≠ boatSuccess)
      (hnull : code ≠ boatErrorJsonObjIsNull)
      (hjudged : ¬ Misjudged env (.ok response)) : Verdict (.ok (code, buffer))
  | copied (text : List Char)
      (hjudged : Mined env (.ok response) ∨ Misjudged env (.ok response)) :
      Verdict (.ok (copyResult env.malloc text buffer))
  | skipped (hjudged : Misjudged env (.ok response)) :
      Verdict (.ok (boatSuccess, buffer))

/-- The status of a receipt: absent, a text to copy, or no text. -/
theorem parseChild_verdict {members : List (List Char × Json)}
    (hanswer : answerResult env (.ok response) = some (.object members))
    (hreceipt : receiptStatus env (.ok response) =
      Json.getObjectItem "status".toList (.object members)) :
    Verdict env response buffer (.ok
      (ethParseChild env.malloc "status".toList (.object members) buffer)) := by
  cases hstatus : Json.getObjectItem "status".toList (.object members) with
  | none =>
      rw [hstatus] at hreceipt
      simp only [ethParseChild, hstatus]
      exact .failed _ (by decide) (by decide)
        (by simp [Misjudged, hreceipt, hanswer])
  | some status =>
      rw [hstatus] at hreceipt
      cases status with
      | string text =>
          simp only [ethParseChild, hstatus]
          apply Verdict.copied
          by_cases hmined : text = "0x1".toList
          · rw [hmined] at hreceipt
            exact .inl hreceipt
          · refine .inr (.inl ⟨_, hreceipt, ?_⟩)
            exact fun hsame => hmined (Json.string.inj hsame)
      | _ =>
          simp only [ethParseChild, hstatus]
          exact .skipped (.inl ⟨_, hreceipt, by simp⟩)

theorem parseStatus_verdict (hpending : ¬ Pending env (.ok response)) :
    Verdict env response buffer (parseStatus env response buffer) := by
  have hanswer : answerResult env (.ok response) =
      (env.cJSONParse response).bind
        (Json.getObjectItem "result".toList) := rfl
  by_cases hnameless : Nameless (env.cJSONParse response)
  · rw [parseStatus, ethParseJsonResult_nameless _ buffer hnameless]
    exact .undefined hnameless
  cases hjson : env.cJSONParse response with
  | none =>
      rw [hjson, Option.bind_none] at hanswer
      simp only [parseStatus, ethParseJsonResult, hjson]
      exact .failed _ (by decide) (by decide)
        (by simp [Misjudged, receiptStatus, hanswer])
  | some json =>
      rw [parseStatus, ethParseJsonResult_named _ buffer hjson hnameless]
      rw [hjson, Option.bind_some] at hanswer
      cases hresult : json.getObjectItem "result".toList with
      | none =>
          rw [hresult] at hanswer
          exact .failed _ (by decide) (by decide)
            (by simp [Misjudged, receiptStatus, hanswer])
      | some result =>
          rw [hresult] at hanswer
          cases result with
          | null => exact absurd hanswer hpending
          | string text => exact .copied text (.inr (.inr ⟨text, hanswer⟩))
          | object members =>
              exact parseChild_verdict env response buffer hanswer
                (by rw [receiptStatus, hanswer])
          | _ =>
              exact .failed _ (by decide) (by decide)
                (by simp [Misjudged, receiptStatus, hanswer])

end Parse

section Poll

variable {env : SendEnv} {answers : Nat → NodeAnswer} {state state' : SendState}

theorem judgeAnswer_pending {again : SendM Unit} {response : List Char}
    (hpending : Pending env (.ok response)) :
    judgeAnswer env again response state = again state := by
  rw [judgeAnswer, parseStatus_pending env response _ hpending]
  rfl

theorem judgeReceipt_some {buffer : ResultBuffer} {status : List Char}
    (hbuffer : buffer.content = some status) :
    judgeReceipt (state.setResultBuf buffer) =
      .ok () (state.setResultBuf buffer) := by
  simp [judgeReceipt, hbuffer]

/-- A verdict ends the poll: with success only for an answer that counts as
mined. -/
theorem judgeAnswer_ok {again : SendM Unit} {response : List Char}
    (hverdict : Verdict env response state.resultBuf
      (parseStatus env response state.resultBuf))
    (hrun : judgeAnswer env again response state = .ok () state') :
    Mined env (.ok response) ∨ Misjudged env (.ok response) := by
  unfold judgeAnswer at hrun
  revert hrun hverdict
  generalize parseStatus env response state.resultBuf = parsed
  intro hverdict hrun
  cases hverdict with
  | undefined => cases hrun
  | failed code hcode hnull _ =>
      simp only [judgeParsed, if_neg hnull, if_neg hcode] at hrun
      cases hrun
  | copied _ hjudged => exact hjudged
  | skipped hjudged => exact .inr hjudged

/-- With memory granted and a buffer there, every answer that is misjudged ends
the poll with success. -/
theorem judgeAnswer_of_misjudged {again : SendM Unit} {response : List Char}
    (hgrants : ∀ size, (env.malloc size).isSome)
    (hbuffer : state.resultBuf.content ≠ none)
    (hverdict : Verdict env response state.resultBuf
      (parseStatus env response state.resultBuf))
    (hmisjudged : Misjudged env (.ok response)) :
    ∃ state', judgeAnswer env again response state = .ok () state' := by
  unfold judgeAnswer
  revert hverdict
  generalize parseStatus env response state.resultBuf = parsed
  intro hverdict
  cases hverdict with
  | undefined hnameless => exact absurd hnameless hmisjudged.named
  | failed _ _ _ hjudged => exact absurd hmisjudged hjudged
  | copied text _ =>
      have hcode := copyResult_of_grants hgrants text state.resultBuf
      have hcopy : copyResult env.malloc text state.resultBuf =
          (boatSuccess, (copyResult env.malloc text state.resultBuf).2) :=
        Prod.ext hcode rfl
      have hcontent := copyResult_success hcopy
      rw [hcopy]
      exact ⟨_, judgeReceipt_some hcontent⟩
  | skipped _ =>
      obtain ⟨status, hstatus⟩ := Option.ne_none_iff_exists'.mp hbuffer
      exact ⟨_, judgeReceipt_some hstatus⟩

/-- An answer that is judged right ends the poll with a result code, if not
with success. -/
theorem judgeAnswer_code {again : SendM Unit} {response : List Char}
    {failure : Failure}
    (hverdict : Verdict env response state.resultBuf
      (parseStatus env response state.resultBuf))
    (hmisjudged : ¬ Misjudged env (.ok response))
    (hnamed : ¬ Nameless (env.cJSONParse response))
    (hrun : judgeAnswer env again response state = .error failure state') :
    ∃ code, failure = .code code ∧ code ≠ boatSuccess := by
  unfold judgeAnswer at hrun
  revert hrun hverdict
  generalize parseStatus env response state.resultBuf = parsed
  intro hverdict hrun
  cases hverdict with
  | undefined hnameless => exact absurd hnameless hnamed
  | failed code hcode hnull _ =>
      simp only [judgeParsed, if_neg hnull, if_neg hcode] at hrun
      cases hrun
      exact ⟨_, rfl, by decide⟩
  | copied text _ =>
      cases hcopy : copyResult env.malloc text state.resultBuf with
      | mk code buffer =>
          have hnull : code ≠ boatErrorJsonObjIsNull :=
            fun hsame => copyResult_ne_null text _
              ((congrArg Prod.fst hcopy).trans hsame)
          simp only [hcopy, judgeParsed, if_neg hnull] at hrun
          split at hrun
          next hcode =>
            subst hcode
            rw [judgeReceipt_some (copyResult_success hcopy)] at hrun
            cases hrun
          next =>
            cases hrun
            exact ⟨_, rfl, by decide⟩
  | skipped hjudged => exact absurd hjudged hmisjudged

/-- A poll that succeeds met an answer that counts as mined, behind pending
answers only; by induction on the polls left. -/
theorem pollReceipt_ok {polls poll : Nat}
    (hrun : pollReceipt env answers polls poll state = .ok () state') :
    ∃ n, poll ≤ n ∧ n < poll + polls ∧
      (∀ m, poll ≤ m → m < n → Pending env (answers m)) ∧
      (Mined env (answers n) ∨ Misjudged env (answers n)) := by
  induction polls generalizing poll state with
  | zero => cases hrun
  | succ polls ih =>
      rw [pollReceipt] at hrun
      cases hanswer : answers poll with
      | error code =>
          rw [hanswer] at hrun
          cases hrun
      | ok response =>
          rw [hanswer] at hrun
          by_cases hpending : Pending env (.ok response)
          · simp only [judgeAnswer_pending hpending] at hrun
            obtain ⟨n, hle, hlt, hbefore, hjudged⟩ := ih hrun
            refine ⟨n, by omega, by omega, fun m hm hmn => ?_, hjudged⟩
            rcases Nat.eq_or_lt_of_le hm with rfl | hm
            · rwa [hanswer]
            · exact hbefore m hm hmn
          · have hjudged := judgeAnswer_ok
              (parseStatus_verdict env response _ hpending) hrun
            exact ⟨poll, Nat.le_refl _, by omega, by omega, hanswer ▸ hjudged⟩

/-- Pending answers are passed over. -/
theorem pollReceipt_pending {polls n : Nat} (poll : Nat)
    (hbefore : ∀ m, poll ≤ m → m < poll + n → Pending env (answers m)) :
    pollReceipt env answers (n + polls) poll state =
      pollReceipt env answers polls (poll + n) state := by
  induction n generalizing poll with
  | zero => rw [Nat.zero_add, Nat.add_zero]
  | succ n ih =>
      rw [Nat.add_right_comm, pollReceipt]
      have hpending := hbefore poll (Nat.le_refl _) (by omega)
      cases hanswer : answers poll with
      | error code =>
          rw [hanswer] at hpending
          cases hpending
      | ok response =>
          rw [hanswer] at hpending
          simp only [judgeAnswer_pending hpending]
          rw [ih (poll + 1) fun m hm hmn => hbefore m (by omega) (by omega),
            Nat.add_assoc, Nat.add_comm 1 n]

/-- A misjudged answer behind pending ones ends the poll with success. -/
theorem pollReceipt_of_misjudged {polls poll : Nat}
    (hgrants : ∀ size, (env.malloc size).isSome)
    (hbuffer : state.resultBuf.content ≠ none)
    (hmisjudged : Misjudged env (answers poll)) :
    ∃ state', pollReceipt env answers (polls + 1) poll state =
      .ok () state' := by
  rw [pollReceipt]
  cases hanswer : answers poll with
  | error code =>
      rw [hanswer] at hmisjudged
      simp [Misjudged, receiptStatus, answerResult] at hmisjudged
  | ok response =>
      rw [hanswer] at hmisjudged
      exact judgeAnswer_of_misjudged hgrants hbuffer
        (parseStatus_verdict env response _ hmisjudged.not_pending) hmisjudged

theorem pollReceipt_of_nameless {polls poll : Nat}
    (hnameless : NamelessAnswer env (answers poll)) :
    pollReceipt env answers (polls + 1) poll state =
      .error .undefined state := by
  obtain ⟨response, hanswer, hnameless⟩ := hnameless
  rw [pollReceipt, hanswer]
  simp only [judgeAnswer, parseStatus]
  rw [ethParseJsonResult_nameless _ _ hnameless]

/-- A poll whose answers are judged right ends with a result code, if not with
success; by induction on the polls left. -/
theorem pollReceipt_code {polls poll : Nat} {failure : Failure}
    (hright : ∀ n, poll ≤ n → n < poll + polls →
      (∀ m, poll ≤ m → m < n → Pending env (answers m)) →
      ¬ Misjudged env (answers n) ∧ ¬ NamelessAnswer env (answers n))
    (hrun : pollReceipt env answers polls poll state =
      .error failure state') :
    ∃ code, failure = .code code ∧ code ≠ boatSuccess := by
  induction polls generalizing poll state with
  | zero =>
      cases hrun
      exact ⟨_, rfl, by decide⟩
  | succ polls ih =>
      rw [pollReceipt] at hrun
      obtain ⟨hjudged, hnamed⟩ := hright poll (Nat.le_refl _) (by omega)
        fun m hm hmn => absurd hm (by omega)
      cases hanswer : answers poll with
      | error code =>
          rw [hanswer] at hrun
          cases hrun
          exact ⟨code.1, rfl, code.2⟩
      | ok response =>
          rw [hanswer] at hrun hjudged hnamed
          by_cases hpending : Pending env (.ok response)
          · simp only [judgeAnswer_pending hpending] at hrun
            refine ih (fun n hle hlt hbefore => ?_) hrun
            refine hright n (by omega) (by omega) fun m hm hmn => ?_
            rcases Nat.eq_or_lt_of_le hm with rfl | hm
            · rwa [hanswer]
            · exact hbefore m hm hmn
          · exact judgeAnswer_code
              (parseStatus_verdict env response _ hpending) hjudged
              (fun hnameless => hnamed ⟨response, rfl, hnameless⟩) hrun

/-- How a run ends, whatever state it leaves. -/
def outcome (run : EStateM.Result Failure SendState Unit) : Option Failure :=
  match run with
  | .ok _ _ => none
  | .error failure _ => some failure

/-- The code a parse leaves. -/
def parseCode (env : SendEnv) (response : List Char) (buffer : ResultBuffer) :
    Outcome BoatResult :=
  (parseStatus env response buffer).map (·.1)

/-- The end of a poll behind a parse with that code. -/
def codeOutcome : Outcome BoatResult → Option Failure
  | .error failure => some failure
  | .ok code =>
      if code = boatSuccess then none
      else some (.code boatErrorWalletResultParseFail)

/-- The end of a poll hangs on the code of the parse alone. -/
theorem judgeAnswer_outcome {again : SendM Unit} {response : List Char}
    (hpending : ¬ Pending env (.ok response))
    (hbuffer : state.resultBuf.content ≠ none) :
    outcome (judgeAnswer env again response state) =
      codeOutcome (parseCode env response state.resultBuf) := by
  have hverdict := parseStatus_verdict env response state.resultBuf hpending
  rw [judgeAnswer, parseCode]
  revert hverdict
  generalize parseStatus env response state.resultBuf = parsed
  intro hverdict
  cases hverdict with
  | undefined => rfl
  | failed code hcode hnull _ =>
      simp only [judgeParsed, if_neg hnull, if_neg hcode, Except.map,
        codeOutcome]
      rfl
  | copied text _ =>
      cases hcopy : copyResult env.malloc text state.resultBuf with
      | mk code buffer =>
          have hnull : code ≠ boatErrorJsonObjIsNull :=
            fun hsame => copyResult_ne_null text _
              ((congrArg Prod.fst hcopy).trans hsame)
          simp only [judgeParsed, if_neg hnull, Except.map, codeOutcome]
          split
          next hcode =>
            subst hcode
            rw [judgeReceipt_some (copyResult_success hcopy)]
            rfl
          next => rfl
  | skipped _ =>
      obtain ⟨status, hstatus⟩ := Option.ne_none_iff_exists'.mp hbuffer
      have hrun : judgeParsed again (boatSuccess, state.resultBuf) state =
          .ok () _ := judgeReceipt_some hstatus
      simp only [hrun]
      rfl

/-- The bytes in a buffer do not tell how a parse ends. -/
theorem parseCode_congr {response : List Char} {buffer buffer' : ResultBuffer}
    (hsize : buffer.fieldLen = buffer'.fieldLen) :
    parseCode env response buffer = parseCode env response buffer' := by
  have hcopy (text : List Char) : copyResult env.malloc text buffer =
      copyResult env.malloc text buffer' := by
    rw [copyResult, copyResult, hsize]
  have hchild (members : List (List Char × Json)) :
      (ethParseChild env.malloc "status".toList (.object members) buffer).1 =
        (ethParseChild env.malloc "status".toList (.object members)
          buffer').1 := by
    simp only [ethParseChild, hcopy]
    cases Json.getObjectItem "status".toList (.object members) with
    | none => rfl
    | some status => cases status <;> rfl
  unfold parseCode parseStatus ethParseJsonResult
  cases env.cJSONParse response with
  | none => rfl
  | some json =>
      simp only
      cases json.namedItem "result".toList with
      | error failure => rfl
      | ok result =>
          apply congrArg Except.ok
          cases result with
          | none => rfl
          | some result =>
              cases result with
              | string text => exact congrArg Prod.fst (hcopy text)
              | object members => exact hchild members
              | _ => rfl

/-- From any poll on, the end does not depend on the bytes that an earlier
response left in the buffer. -/
theorem pollReceipt_outcome_congr {polls poll : Nat} {other : SendState}
    (hbuffer : state.resultBuf.content ≠ none)
    (hother : other.resultBuf.content ≠ none)
    (hsize : state.resultBuf.fieldLen = other.resultBuf.fieldLen) :
    outcome (pollReceipt env answers polls poll state) =
      outcome (pollReceipt env answers polls poll other) := by
  induction polls generalizing poll with
  | zero => rfl
  | succ polls ih =>
      rw [pollReceipt]
      cases answers poll with
      | error code => rfl
      | ok response =>
          by_cases hpending : Pending env (.ok response)
          · simp only [judgeAnswer_pending hpending]
            exact ih
          · simp only [judgeAnswer_outcome hpending hbuffer,
              judgeAnswer_outcome hpending hother,
              parseCode_congr hsize]

end Poll

/-- The last answer among the polls is a receipt with the status `0x1`. -/
def LastMined (env : SendEnv) (answers : Nat → NodeAnswer) : Prop :=
  ∃ n < receiptPolls, (∀ m < n, Pending env (answers m)) ∧
    Mined env (answers n)

/-- The first answer that is not pending is none that is misjudged, and no
array with items. -/
def JudgedRight (env : SendEnv) (answers : Nat → NodeAnswer) : Prop :=
  ∀ n < receiptPolls, (∀ m < n, Pending env (answers m)) →
    ¬ Misjudged env (answers n) ∧ ¬ NamelessAnswer env (answers n)

/-- The poll ends with success only behind a receipt with the status `0x1`,
else with an error code. -/
structure VerdictSound (env : SendEnv) (node : ReceiptNode)
    (state : SendState) : Prop where
  mined : ∀ state',
    boatEthGetTransactionReceipt env node state = .ok () state' →
      LastMined env (node (txHashStr state))
  code : ∀ failure state',
    boatEthGetTransactionReceipt env node state = .error failure state' →
      ∃ code, failure = .code code ∧ code ≠ boatSuccess

section Verdicts

variable {env : SendEnv} {node : ReceiptNode} {state : SendState}

theorem verdictSound_of_judgedRight
    (hright : JudgedRight env (node (txHashStr state))) :
    VerdictSound env node state := by
  constructor
  · intro state' hrun
    obtain ⟨n, _, hlt, hbefore, hjudged⟩ := pollReceipt_ok hrun
    rw [Nat.zero_add] at hlt
    have hpending := fun m hmn => hbefore m (Nat.zero_le m) hmn
    rcases hjudged with hmined | hmisjudged
    · exact ⟨n, hlt, hpending, hmined⟩
    · exact absurd hmisjudged (hright n hlt hpending).1
  · intro failure state' hrun
    refine pollReceipt_code (fun n _ hlt hbefore => ?_) hrun
    exact hright n (by omega) fun m hmn => hbefore m (Nat.zero_le m) hmn

theorem judgedRight_of_verdictSound
    (hgrants : ∀ size, (env.malloc size).isSome)
    (hbuffer : state.resultBuf.content ≠ none)
    (hsound : VerdictSound env node state) :
    JudgedRight env (node (txHashStr state)) := by
  intro n hlt hbefore
  obtain ⟨polls, hpolls⟩ : ∃ polls, receiptPolls = n + (polls + 1) :=
    ⟨receiptPolls - n - 1, by omega⟩
  have hrun : boatEthGetTransactionReceipt env node state =
      pollReceipt env (node (txHashStr state)) (polls + 1) (0 + n) state := by
    rw [boatEthGetTransactionReceipt, hpolls]
    exact pollReceipt_pending 0 fun m _ hmn => hbefore m (by omega)
  rw [Nat.zero_add] at hrun
  constructor
  · intro hmisjudged
    obtain ⟨state', hpoll⟩ :=
      pollReceipt_of_misjudged hgrants hbuffer hmisjudged
    obtain ⟨last, _, hlast, hmined⟩ := hsound.mined state' (hrun.trans hpoll)
    rcases Nat.lt_trichotomy n last with hlt | rfl | hgt
    · exact hmisjudged.not_pending (hlast n hlt)
    · exact hmisjudged.not_mined hmined
    · exact hmined.not_pending (hbefore last hgt)
  · intro hnameless
    have hpoll := hrun.trans (pollReceipt_of_nameless hnameless)
    obtain ⟨code, hcode, _⟩ := hsound.code _ _ hpoll
    cases hcode

end Verdicts

/-- The synchronous send is the send followed by the poll. -/
theorem sendRawtxWithReceipt_ok_iff {env : SendEnv} {node : ReceiptNode}
    {before state' : SendState} :
    boatEthSendRawtxWithReceipt env node before = .ok () state' ↔
      ∃ sent, ethSendRawtx env before = .ok () sent ∧
        boatEthGetTransactionReceipt env node sent = .ok () state' := by
  constructor
  · intro hrun
    obtain ⟨_, sent, hsend, hpoll⟩ := Exec.bind_eq_ok.mp hrun
    exact ⟨sent, hsend, hpoll⟩
  · rintro ⟨sent, hsend, hpoll⟩
    exact Exec.bind_eq_ok.mpr ⟨(), sent, hsend, hpoll⟩

/-- The verdict of a poll, and of a synchronous send, is sound where the first
answer that is not pending is neither misjudged nor an array with items; with
memory granted only there.  It never depends on the bytes left in the result
buffer. -/
theorem receipt_verdictSound_iff (env : SendEnv) (node : ReceiptNode) :
    (∀ state, JudgedRight env (node (txHashStr state)) →
      VerdictSound env node state) ∧
    (∀ state, (∀ size, (env.malloc size).isSome) →
      state.resultBuf.content ≠ none →
      (VerdictSound env node state ↔
        JudgedRight env (node (txHashStr state)))) ∧
    (∀ before state',
      boatEthSendRawtxWithReceipt env node before = .ok () state' ↔
        ∃ sent, ethSendRawtx env before = .ok () sent ∧
          boatEthGetTransactionReceipt env node sent = .ok () state') ∧
    ∀ state other : SendState, ∀ answers polls poll,
      state.resultBuf.content ≠ none → other.resultBuf.content ≠ none →
      state.resultBuf.fieldLen = other.resultBuf.fieldLen →
      outcome (pollReceipt env answers polls poll state) =
        outcome (pollReceipt env answers polls poll other) :=
  ⟨fun _ hright => verdictSound_of_judgedRight hright,
    fun _ hgrants hbuffer =>
      ⟨judgedRight_of_verdictSound hgrants hbuffer,
        verdictSound_of_judgedRight⟩,
    fun _ _ => sendRawtxWithReceipt_ok_iff,
    fun _ _ _ _ _ hbuffer hother hsize =>
      pollReceipt_outcome_congr hbuffer hother hsize⟩

/-- A node that answers every receipt query with the status `0x0`. -/
def failedReceiptEnv : SendEnv :=
  { sampleEnv 1 with
    cJSONParse := fun text =>
      if text = [] then
        some (.object [("result".toList, .string "0x1f".toList)])
      else
        some (.object [("result".toList,
          .object [("status".toList, .string "0x0".toList)])]) }

/-- A transaction that failed is reported as sent and mined. -/
theorem sendRawtxWithReceipt_failed_receipt :
    ∃ sent state',
      ethSendRawtx failedReceiptEnv (sampleState ⟨1, true⟩ .zero) =
        .ok () sent ∧
      boatEthSendRawtxWithReceipt failedReceiptEnv
        (fun _ _ => .ok ['r']) (sampleState ⟨1, true⟩ .zero) =
          .ok () state' ∧
      receiptStatus failedReceiptEnv (.ok ['r']) =
        some (.string "0x0".toList) ∧
      ¬ LastMined failedReceiptEnv (fun _ => .ok ['r']) := by
  obtain ⟨state', hrun⟩ := exists_of_succeeds
    (boatEthSendRawtxWithReceipt failedReceiptEnv
      (fun _ _ => .ok ['r']) (sampleState ⟨1, true⟩ .zero)) (by decide +kernel)
  obtain ⟨sent, hsend, _⟩ := sendRawtxWithReceipt_ok_iff.mp hrun
  have hstatus : receiptStatus failedReceiptEnv (.ok ['r']) =
      some (.string "0x0".toList) := rfl
  refine ⟨sent, state', hsend, hrun, hstatus, ?_⟩
  rintro ⟨n, _, _, hmined⟩
  rw [Mined, hstatus] at hmined
  simp at hmined

end BoatFramework
