/-
Histories of `BoatHlfabricTxEvaluate` and `BoatHlfabricTxSubmit` on one
transaction object: which endorsements a call finds in it, and which ones a
submission sends.
-/
import BoatFramework.Hlfabric.Submit
import Mathlib.Algebra.GroupWithZero.Nat

namespace BoatFramework

open Exec

/-- A call on a transaction object, with what it meets. -/
structure FabricCall where
  funType : FabricFunType
  world : FabricWorld
  nodeCfg : BoatHlfabricNodesCfg

/-- What it leaves, and what its orderers were sent. -/
structure FabricCallEnd where
  result : BoatResult
  tx : BoatHlfabricTx
  sent : Option EndorsedAction

section Calls

variable (messages : FabricMessages)

def FabricCall.run (call : FabricCall) (tx : BoatHlfabricTx) :
    Outcome FabricCallEnd :=
  match call.funType with
  | .evaluate => do
      let ended ← boatHlfabricTxEvaluate messages call.world call.nodeCfg tx
      .ok ⟨ended.result, ended.tx, ended.sent⟩
  | .submit => do
      let ended ← boatHlfabricTxSubmit messages call.world call.nodeCfg tx
      .ok ⟨ended.result, ended.tx, ended.transaction.bind ExecEnd.sent⟩

/-- The endorsers that a submission asks. -/
def FabricCall.asked (call : FabricCall) : List NodeAttempt :=
  askedOfLayouts messages (endorserGroups call.world.network call.nodeCfg)

/-- The endorsements that a submission receives. -/
def FabricCall.received (call : FabricCall) : List (List UInt8 × Endorsement) :=
  match call.funType with
  | .evaluate => []
  | .submit =>
      if call.world.packed none = boatSuccess then
        collected messages (call.asked messages)
      else []

/-- The endorsers' answers of a submission are read alone. -/
def FabricCall.ReadsAlone (call : FabricCall) : Prop :=
  call.funType = .submit → AllReadAlone 0 (call.asked messages)

/-- What stays stored behind a call: a query and a submission that succeeds
leave nothing, one that fails adds what it has received. -/
def leftBehind (entries : List (List UInt8 × Endorsement))
    (step : FabricCall × FabricCallEnd) : List (List UInt8 × Endorsement) :=
  match step.1.funType with
  | .evaluate => []
  | .submit =>
      if step.2.result = boatSuccess then []
      else entries ++ step.1.received messages

def leftStored (past : List (FabricCall × FabricCallEnd)) :
    List (List UInt8 × Endorsement) :=
  past.foldl (leftBehind messages) []

/-- The calls on an object that is initialised once. -/
inductive FabricHistory :
    List (FabricCall × FabricCallEnd) → BoatHlfabricTx → Prop
  | init : FabricHistory [] .init
  | call {past : List (FabricCall × FabricCallEnd)} {tx : BoatHlfabricTx}
      {call : FabricCall} {ended : FabricCallEnd}
      (hpast : FabricHistory past tx) (halone : call.ReadsAlone messages)
      (hrun : call.run messages tx = .ok ended) :
      FabricHistory (past ++ [(call, ended)]) ended.tx

/-- What one call does to the stored answers, and what it sends. -/
structure CallKeeps (tx : BoatHlfabricTx)
    (entries : List (List UInt8 × Endorsement))
    (step : FabricCall × FabricCallEnd) : Prop where
  stores : step.2.tx.Stores (leftBehind messages entries step)
  room : (leftBehind messages entries step).length ≤ boatHlfabricEndorserMaxNum
  sent : ∀ action, step.2.sent = some action →
    sentAction tx (entries ++ step.1.received messages) = some action ∧
      (entries ++ step.1.received messages).length ≤ boatHlfabricEndorserMaxNum

end Calls

section Steps

variable {messages : FabricMessages} {world : FabricWorld}
  {nodeCfg : BoatHlfabricNodesCfg} {tx : BoatHlfabricTx}
  {entries : List (List UInt8 × Endorsement)} {call : FabricCall}
  {ended : FabricCallEnd}

theorem BoatHlfabricTx.release_stores (tx : BoatHlfabricTx) :
    tx.release.Stores [] :=
  ⟨rfl, fun i hi => absurd hi (Nat.not_lt_zero i)⟩

/-- The orderers' part stores only what it succeeds with. -/
theorem askOrderers_tx {attempts : List NodeAttempt} {s s' : ExecState}
    (hrun : askOrderers messages attempts s = .ok s') :
    s'.result = boatSuccess ∨ s'.tx = s.tx := by
  induction attempts generalizing s with
  | nil =>
      obtain rfl := Except.ok.inj hrun
      exact .inr rfl
  | cons head tail ih =>
      rw [askOrderers] at hrun
      obtain ⟨received, _, hrest⟩ := except_bind_eq_ok.mp hrun
      by_cases haccepts : received.message.bind messages.submitResponse =
          some commonStatusSuccess
      · simp only [if_pos haccepts] at hrest
        obtain ⟨stored, _, hend⟩ := except_bind_eq_ok.mp hrest
        obtain rfl := Except.ok.inj hend
        exact .inl rfl
      · simp only [if_neg haccepts] at hrest
        have hlast := ih hrest
        exact hlast

/-- The orderers' part of a submission that has come to its end. -/
theorem boatHlfabricTxExec_transaction_ok {ordered : ExecEnd}
    (hrun : boatHlfabricTxExec messages world nodeCfg .transaction .submit tx =
      .ok ordered) :
    (ordered.result = boatSuccess ∨
      ordered.tx = { tx with evaluateRes := [] }) ∧
    ∀ action, ordered.sent = some action → tx.endorsedAction = .ok action := by
  cases haction :
      ({ tx with evaluateRes := [] } : BoatHlfabricTx).endorsedAction with
  | error e =>
      change (({ tx with evaluateRes := [] } : BoatHlfabricTx).endorsedAction
        >>= _) = _ at hrun
      rw [haction] at hrun
      cases hrun
  | ok action =>
      rw [boatHlfabricTxExec_transaction haction] at hrun
      split at hrun
      next =>
        obtain rfl := Except.ok.inj hrun
        exact ⟨.inr rfl, fun _ hsent => by cases hsent⟩
      next =>
        obtain ⟨s, horders, hend⟩ := except_bind_eq_ok.mp hrun
        obtain rfl := Except.ok.inj hend
        refine ⟨askOrderers_tx horders, fun other hsent => ?_⟩
        obtain rfl := Option.some.inj hsent
        exact haction

/-- A proposal that is not packed leaves the object as it was. -/
theorem boatHlfabricTxSubmit_unpacked
    (hpacked : world.packed none ≠ boatSuccess) :
    boatHlfabricTxSubmit messages world nodeCfg tx =
      .ok ⟨boatErrorCommonProtoPacketFail, { tx with evaluateRes := [] }, [],
        none⟩ := by
  rw [boatHlfabricTxSubmit, boatHlfabricTxExec]
  simp only [if_pos hpacked]
  rfl

/-- What stays behind a submission that fails. -/
theorem leftBehind_failed (hfailed : ended.result ≠ boatSuccess) :
    leftBehind messages entries (⟨.submit, world, nodeCfg⟩, ended) =
      entries ++
        (⟨.submit, world, nodeCfg⟩ : FabricCall).received messages :=
  if_neg hfailed

theorem leftBehind_succeeded (hsuccess : ended.result = boatSuccess) :
    leftBehind messages entries (⟨.submit, world, nodeCfg⟩, ended) = [] :=
  if_pos hsuccess

/-- A submission that fails keeps what the history needs where it stores what
it has received. -/
theorem CallKeeps.failed (hfailed : ended.result ≠ boatSuccess)
    (hstores : ended.tx.Stores (entries ++
      (⟨.submit, world, nodeCfg⟩ : FabricCall).received messages))
    (hroom : (entries ++ (⟨.submit, world, nodeCfg⟩ : FabricCall).received
      messages).length ≤ boatHlfabricEndorserMaxNum)
    (hsent : ∀ action, ended.sent = some action → sentAction tx (entries ++
      (⟨.submit, world, nodeCfg⟩ : FabricCall).received messages) =
        some action) :
    CallKeeps messages tx entries (⟨.submit, world, nodeCfg⟩, ended) where
  stores := by
    rw [leftBehind_failed hfailed]
    exact hstores
  room := by
    rw [leftBehind_failed hfailed]
    exact hroom
  sent action hsome := ⟨hsent action hsome, hroom⟩

/-- What is sent is what was stored behind the endorsers' part. -/
theorem sent_of_stores {proposed : BoatHlfabricTx} {ordered : ExecEnd}
    {stored : List (List UInt8 × Endorsement)} (hstores : proposed.Stores stored)
    (hfirst : stored.length ≤ 0 → proposed.response 0 = tx.response 0)
    (hordered : boatHlfabricTxExec messages world nodeCfg .transaction .submit
      proposed = .ok ordered) (action : EndorsedAction)
    (hsent : ordered.sent = some action) :
    sentAction tx stored = some action := by
  obtain ⟨hread, hgone⟩ := endorsedAction_of_stores hstores hfirst
  have haction := (boatHlfabricTxExec_transaction_ok hordered).2 action hsent
  cases hstored : sentAction tx stored with
  | none =>
      rw [hgone hstored] at haction
      cases haction
  | some other =>
      rw [hread other hstored] at haction
      rw [Except.ok.inj haction]

/-- Behind the endorsers' part all that was received is stored. -/
theorem proposalRun_ok {result : BoatResult} {s' : ExecState}
    (hstores : tx.Stores entries)
    (hroom : entries.length ≤ boatHlfabricEndorserMaxNum)
    (halone : (⟨.submit, world, nodeCfg⟩ : FabricCall).ReadsAlone messages)
    (hpacked : world.packed none = boatSuccess)
    (hrun : proposalRun messages world nodeCfg tx = .ok (result, s')) :
    s'.tx.Stores (entries ++
        (⟨.submit, world, nodeCfg⟩ : FabricCall).received messages) ∧
      (entries ++ (⟨.submit, world, nodeCfg⟩ : FabricCall).received
        messages).length ≤ boatHlfabricEndorserMaxNum ∧
      ((entries ++ (⟨.submit, world, nodeCfg⟩ : FabricCall).received
        messages).length ≤ 0 → s'.tx.response 0 = tx.response 0) := by
  have hreceived :
      (⟨.submit, world, nodeCfg⟩ : FabricCall).received messages =
        collected messages
          (askedOfLayouts messages (endorserGroups world.network nodeCfg)) :=
    if_pos hpacked
  have hgoes := @proposalRun_goes messages world nodeCfg _ _ hstores hroom
    (halone rfl)
  rw [hreceived]
  by_cases hfits : (entries ++ collected messages (askedOfLayouts messages
      (endorserGroups world.network nodeCfg))).length ≤
        boatHlfabricEndorserMaxNum
  · obtain ⟨s'', hsame, hbehind⟩ := hgoes.fits hfits
    rw [hrun] at hsame
    obtain ⟨_, rfl⟩ := Prod.mk.inj (Except.ok.inj hsame)
    exact ⟨hbehind.state.stores, hfits, hbehind.others 0⟩
  · rw [hgoes.full (Nat.lt_of_not_le hfits)] at hrun
    cases hrun

/-- A submission keeps what the history needs. -/
theorem boatHlfabricTxSubmit_keeps (hstores : tx.Stores entries)
    (hroom : entries.length ≤ boatHlfabricEndorserMaxNum)
    (halone : (⟨.submit, world, nodeCfg⟩ : FabricCall).ReadsAlone messages)
    (hrun : (⟨.submit, world, nodeCfg⟩ : FabricCall).run messages tx =
      .ok ended) :
    CallKeeps messages tx entries (⟨.submit, world, nodeCfg⟩, ended) := by
  obtain ⟨submitted, hsubmit, hend⟩ := except_bind_eq_ok.mp hrun
  obtain rfl := Except.ok.inj hend
  by_cases hpacked : world.packed none = boatSuccess
  · rw [boatHlfabricTxSubmit_packed tx hpacked] at hsubmit
    obtain ⟨⟨result, s'⟩, hproposal, hsubmit⟩ := except_bind_eq_ok.mp hsubmit
    obtain ⟨hstored, hfits, hfirst⟩ :=
      proposalRun_ok hstores hroom halone hpacked hproposal
    by_cases hserved : result = boatSuccess
    · simp only [hserved, ne_eq, not_true_eq_false, if_false] at hsubmit
      obtain ⟨ordered, hordered, hend⟩ := except_bind_eq_ok.mp hsubmit
      obtain rfl := Except.ok.inj hend
      have hsent := sent_of_stores hstored hfirst hordered
      by_cases hsuccess : ordered.result = boatSuccess
      · refine ⟨?_, ?_, fun action hsome => ⟨hsent action hsome, hfits⟩⟩
        · rw [leftBehind_succeeded (show _ = boatSuccess from hsuccess),
            if_neg (not_not.mpr hsuccess)]
          exact ordered.tx.release_stores
        · rw [leftBehind_succeeded (show _ = boatSuccess from hsuccess)]
          exact Nat.zero_le _
      · refine CallKeeps.failed hsuccess ?_ hfits hsent
        have htx := (boatHlfabricTxExec_transaction_ok hordered).1
        rw [if_pos hsuccess, htx.resolve_left hsuccess]
        exact hstored
    · simp only [if_pos (show result ≠ boatSuccess from hserved)] at hsubmit
      obtain rfl := Except.ok.inj hsubmit
      exact CallKeeps.failed hserved hstored hfits fun _ hsome => by cases hsome
  · have hfailed : boatErrorCommonProtoPacketFail ≠ boatSuccess := by decide
    have hnone :
        (⟨.submit, world, nodeCfg⟩ : FabricCall).received messages = [] :=
      if_neg hpacked
    rw [boatHlfabricTxSubmit_unpacked hpacked] at hsubmit
    obtain rfl := Except.ok.inj hsubmit
    refine CallKeeps.failed hfailed ?_ ?_ fun _ hsome => by cases hsome
    · rw [hnone, List.append_nil]
      exact hstores
    · rw [hnone, List.append_nil]
      exact hroom

/-- And so does every call. -/
theorem FabricCall.run_keeps (hstores : tx.Stores entries)
    (hroom : entries.length ≤ boatHlfabricEndorserMaxNum)
    (halone : call.ReadsAlone messages)
    (hrun : call.run messages tx = .ok ended) :
    CallKeeps messages tx entries (call, ended) := by
  obtain ⟨funType, world, nodeCfg⟩ := call
  cases funType with
  | submit => exact boatHlfabricTxSubmit_keeps hstores hroom halone hrun
  | evaluate =>
      obtain ⟨evaluated, hevaluate, hend⟩ := except_bind_eq_ok.mp hrun
      obtain rfl := Except.ok.inj hend
      obtain ⟨queried, hexec, hend⟩ := except_bind_eq_ok.mp hevaluate
      obtain rfl := Except.ok.inj hend
      refine ⟨queried.tx.release_stores, Nat.zero_le _, fun action hsome => ?_⟩
      have hnone : queried.sent = none := by
        rw [boatHlfabricTxExec] at hexec
        simp only at hexec
        split at hexec
        next =>
          obtain rfl := Except.ok.inj hexec
          rfl
        next =>
          obtain ⟨_, _, hend⟩ := except_bind_eq_ok.mp hexec
          obtain rfl := Except.ok.inj hend
          rfl
      rw [hnone] at hsome
      cases hsome

end Steps

section Histories

variable {messages : FabricMessages} {tx : BoatHlfabricTx}
  {past before after failed : List (FabricCall × FabricCallEnd)}
  {step : FabricCall × FabricCallEnd} {call : FabricCall}
  {ended : FabricCallEnd} {action : EndorsedAction}

theorem leftStored_concat (past : List (FabricCall × FabricCallEnd))
    (step : FabricCall × FabricCallEnd) :
    leftStored messages (past ++ [step]) =
      leftBehind messages (leftStored messages past) step := by
  rw [leftStored, List.foldl_append]
  rfl

/-- Every object stores what its history leaves over, ten answers at most. -/
theorem FabricHistory.stores (hhistory : FabricHistory messages past tx) :
    tx.Stores (leftStored messages past) ∧
      (leftStored messages past).length ≤ boatHlfabricEndorserMaxNum := by
  induction hhistory with
  | init =>
      exact ⟨⟨rfl, fun i hi => absurd hi (Nat.not_lt_zero i)⟩, Nat.zero_le _⟩
  | call _ halone hrun ih =>
      have hkeeps := FabricCall.run_keeps ih.1 ih.2 halone hrun
      rw [leftStored_concat]
      exact ⟨hkeeps.stores, hkeeps.room⟩

/-- A history at one of its calls. -/
theorem FabricHistory.split
    (hhistory : FabricHistory messages (before ++ step :: after) tx) :
    ∃ mid, FabricHistory messages before mid ∧ step.1.ReadsAlone messages ∧
      step.1.run messages mid = .ok step.2 := by
  generalize hall : before ++ step :: after = all at hhistory
  induction hhistory generalizing after with
  | init => exact absurd hall (List.append_ne_nil_of_right_ne_nil _
      (List.cons_ne_nil _ _))
  | call hpast halone hrun ih =>
      rcases List.eq_nil_or_concat after with rfl | ⟨front, last, rfl⟩
      · obtain ⟨rfl, hlast⟩ := List.append_inj' hall rfl
        obtain rfl := List.singleton_inj.mp hlast
        exact ⟨_, hpast, halone, hrun⟩
      · rw [List.concat_eq_append, ← List.cons_append, ← List.append_assoc]
          at hall
        obtain ⟨hfront, _⟩ := List.append_inj' hall rfl
        exact ih hfront

/-- What any submission of a history sends: all endorsements that were left over
and those that it has received, under the payload of the first of them, ten at
most. -/
theorem FabricHistory.sends
    (hhistory : FabricHistory messages (before ++ (call, ended) :: after) tx)
    (hsent : ended.sent = some action) :
    action.endorsements =
        (leftStored messages before ++ call.received messages).map Prod.snd ∧
      action.endorsements.length ≤ boatHlfabricEndorserMaxNum ∧
      ∀ first ∈ (leftStored messages before ++ call.received messages).head?,
        action.proposalResponsePayload = first.1 := by
  obtain ⟨mid, hbefore, halone, hrun⟩ := hhistory.split
  obtain ⟨hstores, hroom⟩ := hbefore.stores
  obtain ⟨haction, hfits⟩ :=
    (FabricCall.run_keeps hstores hroom halone hrun).sent action hsent
  change sentAction mid (leftStored messages before ++ call.received messages) = _
    at haction
  cases hall : leftStored messages before ++ call.received messages with
  | nil =>
      rw [hall] at haction
      obtain ⟨payload, _, rfl⟩ := Option.map_eq_some_iff.mp haction
      exact ⟨rfl, Nat.zero_le _, fun _ hmem => by cases hmem⟩
  | cons first rest =>
      change (leftStored messages before ++ call.received messages).length ≤ _
        at hfits
      rw [hall] at haction hfits
      obtain rfl := Option.some.inj haction
      refine ⟨rfl, ?_, fun other hmem => ?_⟩
      · rw [List.length_map]
        exact hfits
      · obtain rfl := Option.some.inj hmem
        rfl

/-- It sends its own endorsements alone exactly where nothing was left over. -/
theorem FabricHistory.sends_own_iff
    (hhistory : FabricHistory messages (before ++ (call, ended) :: after) tx)
    (hsent : ended.sent = some action) :
    action.endorsements = (call.received messages).map Prod.snd ↔
      leftStored messages before = [] := by
  obtain ⟨hendorsements, _⟩ := hhistory.sends hsent
  rw [hendorsements]
  constructor
  · intro hsame
    have hlength := congrArg List.length hsame
    rw [List.length_map, List.length_map, List.length_append] at hlength
    exact List.eq_nil_of_length_eq_zero (by omega)
  · intro hnil
    rw [hnil, List.nil_append]

/-- Behind any history, the endorsers' part of a submission is undefined exactly
where its endorsements and those left over are more than ten. -/
theorem FabricHistory.proposals_undefined_iff
    (hhistory : FabricHistory messages past tx)
    (halone : AllReadAlone 0 (call.asked messages)) :
    proposalRun messages call.world call.nodeCfg tx = .error .undefined ↔
      boatHlfabricEndorserMaxNum < (leftStored messages past ++
        collected messages (call.asked messages)).length := by
  obtain ⟨hstores, hroom⟩ := hhistory.stores
  have hgoes := proposalRun_goes hstores hroom halone
  constructor
  · intro hrun
    refine Nat.lt_of_not_le fun hfits => ?_
    obtain ⟨s', hok, _⟩ := hgoes.fits hfits
    rw [hrun] at hok
    cases hok
  · exact hgoes.full

/-- Behind submissions that fail all that they received is left over. -/
theorem leftStored_failed (hfailed : ∀ step ∈ failed,
      step.1.funType = .submit ∧ step.2.result ≠ boatSuccess) :
    leftStored messages (past ++ failed) = leftStored messages past ++
      failed.flatMap fun step => step.1.received messages := by
  induction failed generalizing past with
  | nil =>
      rw [List.append_nil, List.flatMap_nil, List.append_nil]
  | cons step rest ih =>
      obtain ⟨⟨hsubmit, hresult⟩, hrest⟩ := List.forall_mem_cons.mp hfailed
      have hstep : leftBehind messages (leftStored messages past) step =
          leftStored messages past ++ step.1.received messages := by
        rw [leftBehind, hsubmit]
        exact if_neg hresult
      rw [← List.singleton_append, ← List.append_assoc, ih hrest,
        leftStored_concat, hstep, List.flatMap_append, List.flatMap_singleton,
        List.append_assoc]

/-- One behind the other, submissions that fail have received ten endorsements
at most: a run in which they receive more has no end. -/
theorem FabricHistory.failed_bound
    (hhistory : FabricHistory messages (past ++ failed) tx)
    (hfailed : ∀ step ∈ failed,
      step.1.funType = .submit ∧ step.2.result ≠ boatSuccess) :
    (leftStored messages past).length +
        (failed.map fun step => (step.1.received messages).length).sum ≤
      boatHlfabricEndorserMaxNum := by
  have hroom := hhistory.stores.2
  rw [leftStored_failed hfailed, List.length_append, List.length_flatMap] at hroom
  exact hroom

end Histories

section Samples

/-- An endorser that endorses, and an orderer that does not answer. -/
def silentOrderers : FabricWorld :=
  ⟨fun _ => boatSuccess, fun request =>
    if request.type = .proposal then answerOf sampleResponse
    else ⟨[], boatError⟩⟩

def unorderedSubmit : FabricCall :=
  ⟨.submit, silentOrderers, sampleNodes⟩

def orderedSubmit : FabricCall :=
  ⟨.submit, answeringWorld sampleResponse acceptingAnswer, sampleNodes⟩

theorem unorderedSubmit_readsAlone :
    unorderedSubmit.ReadsAlone sampleMessages :=
  fun _ => ⟨fun _ => .inl ⟨rfl, by decide⟩, trivial⟩

theorem orderedSubmit_readsAlone : orderedSubmit.ReadsAlone sampleMessages :=
  fun _ => ⟨fun _ => .inl ⟨rfl, by decide⟩, trivial⟩

/-- What a call leaves, where it comes to an end. -/
def FabricCall.ending (call : FabricCall) (tx : BoatHlfabricTx) :
    FabricCallEnd :=
  (call.run sampleMessages tx).toOption.getD ⟨boatError, tx, none⟩

/-- A submission that was not ordered, and its history. -/
theorem unorderedSubmit_history : ∃ ended : FabricCallEnd,
    ended.result ≠ boatSuccess ∧
      FabricHistory sampleMessages [(unorderedSubmit, ended)] ended.tx := by
  have hrun : unorderedSubmit.run sampleMessages .init = .ok _ := rfl
  have hhistory := FabricHistory.init.call unorderedSubmit_readsAlone hrun
  exact ⟨_, by decide, hhistory⟩

/-- The submission behind it sends two endorsements. -/
theorem FabricHistory.sends_sample : ∃ (ended : FabricCallEnd)
    (action : EndorsedAction), ended.sent = some action ∧
      action.endorsements.length = 2 := by
  have hfirst : unorderedSubmit.run sampleMessages .init =
      .ok (unorderedSubmit.ending .init) := rfl
  have hhistory := FabricHistory.init.call unorderedSubmit_readsAlone hfirst
  have hsecond : orderedSubmit.run sampleMessages
      (unorderedSubmit.ending .init).tx =
        .ok (orderedSubmit.ending (unorderedSubmit.ending .init).tx) := rfl
  have hboth := hhistory.call orderedSubmit_readsAlone hsecond
  refine ⟨orderedSubmit.ending (unorderedSubmit.ending .init).tx, _, rfl, ?_⟩
  rw [(FabricHistory.sends hboth rfl).1]
  rfl

/-- Behind it there is room for another endorsement. -/
theorem FabricHistory.proposals_undefined_sample : ∃ tx : BoatHlfabricTx,
    tx.responseCount = 1 ∧ proposalRun sampleMessages orderedSubmit.world
      orderedSubmit.nodeCfg tx ≠ .error .undefined := by
  obtain ⟨ended, hfailed, hhistory⟩ := unorderedSubmit_history
  have hcount : (leftStored sampleMessages [(unorderedSubmit, ended)]).length =
      1 := by
    rw [leftStored, List.foldl_cons, List.foldl_nil, leftBehind]
    change (if ended.result = boatSuccess then _ else _ : List _).length = 1
    rw [if_neg hfailed]
    rfl
  refine ⟨ended.tx, hhistory.stores.1.1.trans hcount, fun hrun => ?_⟩
  have hover := (FabricHistory.proposals_undefined_iff hhistory
    (orderedSubmit_readsAlone rfl)).mp hrun
  rw [List.length_append, hcount] at hover
  exact absurd hover (by decide)

theorem FabricHistory.failed_bound_sample : ∃ ended : FabricCallEnd,
    (leftStored sampleMessages []).length +
        ([(unorderedSubmit, ended)].map fun step =>
          (step.1.received sampleMessages).length).sum ≤
      boatHlfabricEndorserMaxNum := by
  obtain ⟨ended, hfailed, hhistory⟩ := unorderedSubmit_history
  refine ⟨ended, FabricHistory.failed_bound hhistory fun step hmem => ?_⟩
  obtain rfl := List.mem_singleton.mp hmem
  exact ⟨rfl, hfailed⟩

end Samples

end BoatFramework
