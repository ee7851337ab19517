/-
`BoatHlfabricTxExec` and the two calls over it: the layouts, groups and nodes
that are asked, the answers that are stored in the transaction, and what the
orderers are sent.
-/
import BoatFramework.Hlfabric.Attempts
import BoatFramework.Network.Hlfabric
import Mathlib.Logic.Function.Basic

namespace BoatFramework

open Exec

def boatErrorCommonProtoPacketFail : BoatResult := -10100002

/-- `COMMON__STATUS__SUCCESS`. -/
def commonStatusSuccess : Int := 200

/-- `BOAT_HLFABRIC_ENDORSER_MAX_NUM`. -/
def boatHlfabricEndorserMaxNum : Nat := 10

structure Endorsement where
  endorser : List UInt8
  signature : List UInt8
deriving DecidableEq

/-- What is read of a `Protos__ProposalResponse`. -/
structure ProposalResponse where
  payload : List UInt8
  endorsement : Option Endorsement

structure ChaincodeResponse where
  status : Int
  payload : List UInt8

/-- The messages that are unpacked, as far as they are read: the answer of an
endorser, the extension of its payload, the response in that, and the status of
an orderer. -/
structure FabricMessages where
  proposalResponse : List UInt8 → Option ProposalResponse
  proposalResponsePayload : List UInt8 → Option (Option (List UInt8))
  chaincodeAction : List UInt8 → Option (Option ChaincodeResponse)
  submitResponse : List UInt8 → Option Int

inductive FabricType where
  | idle
  | proposal
  | transaction
deriving DecidableEq

inductive FabricFunType where
  | evaluate
  | submit

/-- What the pointers of a stored answer point at.  A freed answer has its
lengths and pointers left. -/
inductive StoredFields where
  | null
  | answer (payload : List UInt8) (endorsement : Endorsement)
  | freed (payload : List UInt8) (endorsement : Endorsement)

structure BoatHlfabricSingleEndorserResponse where
  responseType : FabricType
  fields : StoredFields

/-- The part of the transaction that its calls leave to each other.  Places of
`response` from ten on are outside of the array; the block of `evaluateRes` is
there where its length is not zero. -/
structure BoatHlfabricTx where
  responseCount : Nat
  response : Nat → BoatHlfabricSingleEndorserResponse
  evaluateRes : List UInt8

/-- The transaction as `BoatHlfabricTxInit` leaves it. -/
def BoatHlfabricTx.init : BoatHlfabricTx :=
  ⟨0, fun _ => ⟨.idle, .null⟩, []⟩

/-- The next place of the array is written. -/
def BoatHlfabricTx.store (tx : BoatHlfabricTx)
    (write : BoatHlfabricSingleEndorserResponse →
      BoatHlfabricSingleEndorserResponse) : Outcome BoatHlfabricTx :=
  if tx.responseCount < boatHlfabricEndorserMaxNum then
    .ok { tx with
      response := Function.update tx.response tx.responseCount
        (write (tx.response tx.responseCount))
      responseCount := tx.responseCount + 1 }
  else .error .undefined

def StoredFields.free : StoredFields → StoredFields
  | .answer payload endorsement => .freed payload endorsement
  | fields => fields

/-- The stored answers of endorsers are freed, and counted no longer. -/
def BoatHlfabricTx.release (tx : BoatHlfabricTx) : BoatHlfabricTx :=
  { tx with
    response := fun i =>
      if i < tx.responseCount ∧ (tx.response i).responseType = .proposal then
        { tx.response i with fields := (tx.response i).fields.free }
      else tx.response i
    responseCount := 0 }

/-- What of the stored answers goes into the transaction. -/
structure EndorsedAction where
  proposalResponsePayload : List UInt8
  endorsements : List Endorsement
deriving DecidableEq

/-- A payload without bytes is not read. -/
def StoredFields.payload : StoredFields → Outcome (List UInt8)
  | .null => .ok []
  | .answer payload _ => .ok payload
  | .freed payload _ =>
      if payload = [] then .ok [] else .error .undefined

def StoredFields.endorsement : StoredFields → Outcome Endorsement
  | .null => .ok ⟨[], []⟩
  | .answer _ endorsement => .ok endorsement
  | .freed _ endorsement =>
      if endorsement = ⟨[], []⟩ then .ok ⟨[], []⟩ else .error .undefined

/-- The part of `hlfabricTransactionPayloadDataPacked` that reads them. -/
def BoatHlfabricTx.endorsedAction (tx : BoatHlfabricTx) :
    Outcome EndorsedAction := do
  let payload ← (tx.response 0).fields.payload
  let endorsements ← (List.range tx.responseCount).mapM fun i =>
    (tx.response i).fields.endorsement
  .ok ⟨payload, endorsements⟩

/-- What a query gets from the payload of an endorser's answer. -/
inductive QueryEnd where
  | empty
  | refused
  | broken
  | value (payload : List UInt8)

/-- The run of `BoatHlfabricTxExec` over the nodes. -/
structure ExecState where
  tx : BoatHlfabricTx
  fabricHttp2res : Http2Response
  result : BoatResult
  asked : List NodeAttempt

/-- How the turn of a node ends. -/
inductive NodeEnd where
  | continued
  | counted
  | returned

/-- How the loop over a group ends. -/
inductive GroupEnd where
  | reached
  | exhausted (valid : Nat)
  | returned

/-- A group, with what its endorsers do when they are asked. -/
structure EndorserGroup where
  quantities : Nat
  answers : List NodeAttempt

section Exec

variable (messages : FabricMessages)

/-- The payload and the endorsement of an answer. -/
def FabricMessages.endorsed (message : Option (List UInt8)) :
    Option (List UInt8 × Endorsement) := do
  let response ← messages.proposalResponse (← message)
  some (response.payload, ← response.endorsement)

def FabricMessages.query (payload : List UInt8) : QueryEnd :=
  if payload = [] then .empty
  else
    match messages.proposalResponsePayload payload with
    | none => .refused
    | some none => .refused
    | some (some extension) =>
        match messages.chaincodeAction extension with
        | none => .refused
        | some none => .broken
        | some (some response) =>
            if response.status = commonStatusSuccess then
              .value response.payload
            else .refused

/-- What a query does with an answer that was stored. -/
def queryTurn (s : ExecState) : QueryEnd → Outcome (NodeEnd × ExecState)
  | .empty => .ok (.returned, s)
  | .refused => .ok (.continued, s)
  | .broken => .error .undefined
  | .value value =>
      .ok (.returned, { s with tx := { s.tx with evaluateRes := value } })

/-- What is done with an endorsement. -/
def takeAnswer (funType : FabricFunType) (s : ExecState) :
    Option (List UInt8 × Endorsement) → Outcome (NodeEnd × ExecState)
  | none => .ok (.continued, s)
  | some (payload, endorsement) => do
      let tx ← s.tx.store fun _ => ⟨.proposal, .answer payload endorsement⟩
      match funType with
      | .submit => .ok (.counted, { s with tx := tx })
      | .evaluate => queryTurn { s with tx := tx } (messages.query payload)

/-- The body of the loop over the endorsers of a group. -/
def askEndorser (funType : FabricFunType) (attempt : NodeAttempt)
    (s : ExecState) : Outcome (NodeEnd × ExecState) := do
  let received ← receiveProposal attempt s.fabricHttp2res
  takeAnswer messages funType
    ⟨s.tx, received.fabricHttp2res, received.result, s.asked ++ [attempt]⟩
    (messages.endorsed received.message)

def askGroup (funType : FabricFunType) (quantities : Nat) :
    List NodeAttempt → Nat → ExecState → Outcome (GroupEnd × ExecState)
  | [], valid, s => .ok (.exhausted valid, s)
  | attempt :: rest, valid, s => do
      match ← askEndorser messages funType attempt s with
      | (.continued, s) => askGroup funType quantities rest valid s
      | (.returned, s) => .ok (.returned, s)
      | (.counted, s) =>
          if quantities ≤ valid + 1 then .ok (.reached, s)
          else askGroup funType quantities rest (valid + 1) s

/-- The groups of a layout, and the result where the function is left there. -/
def askLayout (funType : FabricFunType) :
    List EndorserGroup → ExecState → Outcome (Option BoatResult × ExecState)
  | [], s => .ok (none, s)
  | group :: rest, s => do
      match ← askGroup messages funType group.quantities group.answers 0 s with
      | (.returned, s) => .ok (some s.result, s)
      | (.reached, s) =>
          if rest.isEmpty then .ok (some boatSuccess, s)
          else askLayout funType rest s
      | (.exhausted valid, s) =>
          if valid < group.quantities then .ok (some boatError, s)
          else askLayout funType rest s

def askLayouts (funType : FabricFunType) :
    List (List EndorserGroup) → ExecState → Outcome (BoatResult × ExecState)
  | [], s => .ok (s.result, s)
  | layout :: rest, s => do
      match ← askLayout messages funType layout s with
      | (some result, s) => .ok (result, s)
      | (none, s) => askLayouts funType rest s

def askOrderers : List NodeAttempt → ExecState → Outcome ExecState
  | [], s => .ok s
  | attempt :: rest, s => do
      let received ← receiveTransaction attempt s.fabricHttp2res
      let s : ExecState :=
        ⟨s.tx, received.fabricHttp2res, received.result, s.asked ++ [attempt]⟩
      if received.message.bind messages.submitResponse =
          some commonStatusSuccess then do
        let tx ← s.tx.store fun entry =>
          { entry with responseType := .transaction }
        .ok { s with tx := tx, result := boatSuccess }
      else askOrderers rest s

end Exec

/-- What a node is asked: which part of the run, and its place in the
configuration with what stands there. -/
structure NodeRequest where
  type : FabricType
  node : BoatHlfabricNodeInfoCfg
  tlsCAchain : BoatCertInfoCfg
  layout : Nat
  group : Nat
  index : Nat

/-- What a call meets: the result of `hlfabricProposalTransactionPacked`, for a
proposal or for what is endorsed, and what the nodes do. -/
structure FabricWorld where
  packed : Option EndorsedAction → BoatResult
  network : NodeRequest → NodeAttempt

section Answers

variable (network : NodeRequest → NodeAttempt)

def groupAnswers (type : FabricType) (layout group : Nat)
    (groupCfg : BoatHlfabricNodeGroupCfg) : List NodeAttempt :=
  groupCfg.endorser.1.mapIdx fun index node =>
    network ⟨type, node, groupCfg.tlsOrgCertContent, layout, group, index⟩

def endorserGroups (nodeCfg : BoatHlfabricNodesCfg) :
    List (List EndorserGroup) :=
  nodeCfg.layoutCfg.1.mapIdx fun layout layoutCfg =>
    layoutCfg.groupCfg.1.mapIdx fun group groupCfg =>
      ⟨groupCfg.quantities.toNat,
        groupAnswers network .proposal layout group groupCfg⟩

def ordererAnswers (nodeCfg : BoatHlfabricNodesCfg) : List NodeAttempt :=
  groupAnswers network .transaction 0 0 nodeCfg.orderCfg

end Answers

/-- What `BoatHlfabricTxExec` leaves: its result, the transaction, the nodes
that were asked, and what the orderers were sent. -/
structure ExecEnd where
  result : BoatResult
  tx : BoatHlfabricTx
  asked : List NodeAttempt
  sent : Option EndorsedAction

section Calls

variable (messages : FabricMessages) (world : FabricWorld)
  (nodeCfg : BoatHlfabricNodesCfg)

def boatHlfabricTxExec (type : FabricType) (funType : FabricFunType)
    (tx : BoatHlfabricTx) : Outcome ExecEnd := do
  let tx := { tx with evaluateRes := [] }
  let s : ExecState := ⟨tx, ⟨0, .null⟩, boatSuccess, []⟩
  match type with
  | .proposal =>
      if world.packed none ≠ boatSuccess then
        .ok ⟨boatErrorCommonProtoPacketFail, tx, [], none⟩
      else do
        let (result, s) ← askLayouts messages funType
          (endorserGroups world.network nodeCfg) s
        .ok ⟨result, s.tx, s.asked, none⟩
  | _ => do
      let action ← tx.endorsedAction
      if world.packed (some action) ≠ boatSuccess then
        .ok ⟨boatErrorCommonProtoPacketFail, tx, [], none⟩
      else do
        let s ← askOrderers messages (ordererAnswers world.network nodeCfg) s
        .ok ⟨s.result, s.tx, s.asked, some action⟩

def boatHlfabricTxEvaluate (tx : BoatHlfabricTx) : Outcome ExecEnd := do
  let ended ← boatHlfabricTxExec messages world nodeCfg .proposal .evaluate tx
  .ok { ended with tx := ended.tx.release }

/-- What `BoatHlfabricTxSubmit` leaves: its result, the transaction, the
endorsers that were asked, and what the run over the orderers has left where it
was come to. -/
structure SubmitEnd where
  result : BoatResult
  tx : BoatHlfabricTx
  proposals : List NodeAttempt
  transaction : Option ExecEnd

def boatHlfabricTxSubmit (tx : BoatHlfabricTx) : Outcome SubmitEnd := do
  let proposed ←
    boatHlfabricTxExec messages world nodeCfg .proposal .submit tx
  if proposed.result ≠ boatSuccess then
    .ok ⟨proposed.result, proposed.tx, proposed.asked, none⟩
  else do
    let ordered ←
      boatHlfabricTxExec messages world nodeCfg .transaction .submit proposed.tx
    .ok ⟨ordered.result,
      if ordered.result ≠ boatSuccess then ordered.tx else ordered.tx.release,
      proposed.asked, some ordered⟩

end Calls

section Turns

variable {messages : FabricMessages} {attempt : NodeAttempt} {s : ExecState}
  {kept : List UInt8}

/-- What the loop has behind an attempt that is read alone. -/
structure Behind (s : ExecState) (kept : List UInt8) (attempt : NodeAttempt)
    (s' : ExecState) : Prop where
  asked : s'.asked = s.asked ++ [attempt]
  result : s'.result = attempt.outcome
  left : ∃ left, s'.fabricHttp2res.Keeps left ∧ left.length < 2 ^ 32 ∧
    left.length = pendingBehind kept.length attempt

/-- An endorsement comes with an outcome that is success. -/
theorem outcome_of_endorsed {answer : List UInt8 × Endorsement}
    (hendorsed : messages.endorsed attempt.message = some answer) :
    attempt.outcome = boatSuccess := by
  cases hown : attempt.message with
  | none =>
      rw [hown] at hendorsed
      cases hendorsed
  | some message =>
      unfold NodeAttempt.message at hown
      split at hown
      next hanswer =>
        rw [NodeAttempt.outcome, if_neg (not_not.mpr hanswer.1),
          if_neg (Nat.not_lt.mpr hanswer.2)]
      next => cases hown

/-- A node that is read alone is asked. -/
theorem askEndorser_alone (messages : FabricMessages) (funType : FabricFunType)
    (hkeeps : s.fabricHttp2res.Keeps kept) (hkept : kept.length < 2 ^ 32)
    (halone : ReadAlone kept.length attempt) :
    ∃ s', Behind s kept attempt s' ∧ s'.tx = s.tx ∧
      askEndorser messages funType attempt s =
        takeAnswer messages funType s' (messages.endorsed attempt.message) := by
  obtain ⟨received, left, hrun, hmessage, hresult, hleft, hlength⟩ :=
    receiveProposal_alone hkeeps hkept halone
  have hbound : left.length < 2 ^ 32 := by
    rw [hlength]
    exact pendingBehind_lt kept.length attempt
  refine ⟨⟨s.tx, received.fabricHttp2res, received.result,
    s.asked ++ [attempt]⟩, ⟨rfl, hresult, left, hleft, hbound, hlength⟩, rfl,
    ?_⟩
  rw [askEndorser, hrun, except_ok_bind, hmessage]

end Turns

section Samples

theorem length_one_lt {α : Type} (a : α) : [a].length < 0x100 := by
  rw [List.length_singleton]
  decide

/-- An array of one element. -/
def oneCounted {α : Type} (a : α) : Counted α :=
  ⟨[a], length_one_lt a⟩

def sampleNode : BoatHlfabricNodeInfoCfg :=
  ⟨.ofBuffer [0x61], .ofBuffer [0x62]⟩

def sampleGroup : BoatHlfabricNodeGroupCfg :=
  ⟨oneCounted sampleNode, 1, ⟨0, zeroBytes 1024⟩⟩

/-- One endorser, whose endorsement is asked for, and one orderer. -/
def sampleNodes : BoatHlfabricNodesCfg :=
  ⟨oneCounted ⟨oneCounted sampleGroup⟩, sampleGroup⟩

/-- A chaincode action whose response has status 200 and the payload `1`. -/
def sampleAction : List UInt8 :=
  [0x1A, 0x06, 0x08, 0xC8, 0x01, 0x1A, 0x01, 0x31]

def samplePayload : List UInt8 :=
  [0x12, 0x08] ++ sampleAction

/-- An endorser's answer with that payload and an empty endorsement. -/
def sampleResponse : List UInt8 :=
  [0x2A, 0x0A] ++ samplePayload ++ [0x32, 0x00]

/-- An answer without a payload. -/
def emptyResponse : List UInt8 :=
  [0x32, 0x00]

/-- The messages above, and those of orderers with a status of one or two
bytes. -/
def sampleMessages : FabricMessages where
  proposalResponse bytes :=
    if bytes = sampleResponse then some ⟨samplePayload, some ⟨[], []⟩⟩
    else if bytes = emptyResponse then some ⟨[], some ⟨[], []⟩⟩
    else none
  proposalResponsePayload bytes :=
    if bytes = samplePayload then some (some sampleAction) else none
  chaincodeAction bytes :=
    if bytes = sampleAction then some (some ⟨200, [0x31]⟩) else none
  submitResponse bytes :=
    if bytes = [0x08, 0xC8, 0x01] then some 200
    else if bytes = [0x08, 0x01] then some 1
    else none

/-- A message behind its header, in one chunk. -/
def answerOf (message : List UInt8) : NodeAttempt :=
  ⟨[[0, 0, 0, 0, UInt8.ofNat message.length] ++ message], boatSuccess⟩

/-- Every endorser gives one answer, and every orderer another one. -/
def answeringWorld (endorser orderer : List UInt8) : FabricWorld :=
  ⟨fun _ => boatSuccess, fun request =>
    answerOf (if request.type = .proposal then endorser else orderer)⟩

end Samples

end BoatFramework
