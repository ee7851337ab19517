/-
`BoatHlfabricTxSubmit`: when it returns success with a layout that is met and an
orderer that accepts, and only then.
-/
import BoatFramework.Hlfabric.Proposals

namespace BoatFramework

open Exec

section Orderers

variable (messages : FabricMessages)

/-- An orderer answers with the status of success. -/
def OrderAccepted (attempt : NodeAttempt) : Prop :=
  attempt.message.bind messages.submitResponse = some commonStatusSuccess

instance (attempt : NodeAttempt) : Decidable (OrderAccepted messages attempt) :=
  inferInstanceAs (Decidable (_ = _))

/-- Up to the first message that is handed over, the orderers' answers are read
alone. -/
def OrderersAlone : Nat → List NodeAttempt → Prop
  | _, [] => True
  | pending, attempt :: rest =>
      ReadAlone pending attempt ∧
        (attempt.message = none →
          OrderersAlone (pendingBehind pending attempt) rest)

/-- The orderers give a right answer: the first one with a message accepts, and
finds room for its answer, or it does not and others come, all silent; without a
message the last one has failed. -/
def OrderersMeet (stored : Nat) : BoatResult → List NodeAttempt → Prop
  | last, [] => last ≠ boatSuccess
  | _, attempt :: rest =>
      if OrderAccepted messages attempt then stored < boatHlfabricEndorserMaxNum
      else if attempt.message = none then
        OrderersMeet stored attempt.result rest
      else rest ≠ [] ∧ ∀ other ∈ rest, other.Silent

/-- The run over the orderers ends, with success exactly where one accepts. -/
def OrdersRight (run : Outcome ExecState) : Prop :=
  ∃ s', run = .ok s' ∧
    (s'.result = boatSuccess ↔ ∃ attempt ∈ s'.asked, OrderAccepted messages attempt)

end Orderers

section Run

variable {messages : FabricMessages} {s : ExecState} {n : Nat}
  {attempt : NodeAttempt}

theorem orderAccepted_of_none (hnone : attempt.message = none) :
    ¬OrderAccepted messages attempt := by
  intro haccepts
  rw [OrderAccepted, hnone] at haccepts
  cases haccepts

theorem noneAccepted_append {asked : List NodeAttempt}
    (hasked : ∀ other ∈ asked, ¬OrderAccepted messages other)
    (hrefused : ¬OrderAccepted messages attempt) :
    ∀ other ∈ asked ++ [attempt], ¬OrderAccepted messages other := by
  intro other hmem
  rcases List.mem_append.mp hmem with hbefore | hlast
  · exact hasked other hbefore
  · obtain rfl := List.mem_singleton.mp hlast
    exact hrefused

/-- Nobody has accepted: the end is right where it is no success. -/
theorem ordersRight_ok_iff
    (hasked : ∀ other ∈ s.asked, ¬OrderAccepted messages other) :
    OrdersRight messages (.ok s) ↔ s.result ≠ boatSuccess := by
  constructor
  · rintro ⟨s', hrun, hright⟩ hsuccess
    obtain rfl := Except.ok.inj hrun
    obtain ⟨other, hmem, haccepts⟩ := hright.mp hsuccess
    exact hasked other hmem haccepts
  · intro hfailed
    refine ⟨s, rfl, iff_of_false hfailed ?_⟩
    rintro ⟨other, hmem, haccepts⟩
    exact hasked other hmem haccepts

/-- Nothing is right behind a run that is undefined. -/
theorem not_ordersRight_error : ¬OrdersRight messages (.error .undefined) := by
  rintro ⟨s', hrun, _⟩
  cases hrun

/-- Behind the freed block of a message that was not accepted. -/
theorem askOrderers_freed_iff (hlen : 5 ≤ n)
    (hfreed : s.fabricHttp2res = ⟨n, .freed⟩)
    (hasked : ∀ other ∈ s.asked, ¬OrderAccepted messages other)
    (attempts : List NodeAttempt) :
    OrdersRight messages (askOrderers messages attempts s) ↔
      (attempts = [] → s.result ≠ boatSuccess) ∧
        ∀ other ∈ attempts, other.Silent := by
  induction attempts generalizing s with
  | nil =>
      rw [askOrderers, ordersRight_ok_iff hasked]
      exact ⟨fun hfailed => ⟨fun _ => hfailed, fun _ hmem =>
        absurd hmem List.not_mem_nil⟩, fun h => h.1 rfl⟩
  | cons head tail ih =>
      rw [List.forall_mem_cons, askOrderers, hfreed]
      by_cases hsilent : head.Silent
      · have hnone : head.message = none := if_neg fun h => hsilent.2 h.1
        have hrest := @ih ⟨s.tx, ⟨n, .freed⟩, head.result, s.asked ++ [head]⟩ rfl
          (noneAccepted_append hasked (orderAccepted_of_none hnone))
        rw [receiveTransaction_silent n hsilent, except_ok_bind]
        refine hrest.trans ⟨fun h => ⟨fun hnil => ?_, hsilent, h.2⟩, fun h =>
          ⟨fun _ => hsilent.2, h.2.2⟩⟩
        cases hnil
      · rw [receiveTransaction_freed hlen hsilent]
        exact iff_of_false not_ordersRight_error fun h => hsilent h.2.1

/-- An orderer that accepts ends the run. -/
theorem askOrderers_accepted_iff {own : List UInt8} {res : Http2Response}
    (tail : List NodeAttempt)
    (hreceive : receiveTransaction attempt s.fabricHttp2res =
      .ok ⟨some own, boatSuccess, res⟩)
    (hown : attempt.message = some own) (haccepts : OrderAccepted messages attempt) :
    OrdersRight messages (askOrderers messages (attempt :: tail) s) ↔
      s.tx.responseCount < boatHlfabricEndorserMaxNum := by
  have hstatus : (some own).bind messages.submitResponse =
      some commonStatusSuccess := by
    rw [← hown]
    exact haccepts
  rw [askOrderers, hreceive, except_ok_bind]
  simp only [if_pos hstatus]
  by_cases hroom : s.tx.responseCount < boatHlfabricEndorserMaxNum
  · refine iff_of_true ?_ hroom
    rw [BoatHlfabricTx.store, if_pos hroom]
    exact ⟨_, rfl, iff_of_true rfl ⟨attempt, List.mem_append_right _
      (List.mem_singleton_self attempt), haccepts⟩⟩
  · refine iff_of_false ?_ hroom
    rw [BoatHlfabricTx.store, if_neg hroom]
    exact not_ordersRight_error

/-- The run over the orderers is right exactly where they meet what it needs. -/
theorem askOrderers_right_iff {kept : List UInt8}
    (hkeeps : s.fabricHttp2res.Keeps kept) (hkept : kept.length < 2 ^ 32)
    (hasked : ∀ other ∈ s.asked, ¬OrderAccepted messages other)
    (attempts : List NodeAttempt)
    (halone : OrderersAlone kept.length attempts) :
    OrdersRight messages (askOrderers messages attempts s) ↔
      OrderersMeet messages s.tx.responseCount s.result attempts := by
  induction attempts generalizing s kept with
  | nil => exact ordersRight_ok_iff hasked
  | cons head tail ih =>
      obtain ⟨hmissing, hgiven⟩ :=
        receiveTransaction_alone hkeeps hkept halone.1
      rw [OrderersMeet]
      cases hown : head.message with
      | none =>
          have hrefused : ¬OrderAccepted messages head := orderAccepted_of_none hown
          obtain ⟨received, left, hrun, hmessage, hresult, hleft, hlength⟩ :=
            hmissing hown
          have hbound : left.length < 2 ^ 32 := by
            rw [hlength]
            exact pendingBehind_lt kept.length head
          have hrest := @ih ⟨s.tx, received.fabricHttp2res, received.result,
            s.asked ++ [head]⟩ left hleft hbound
            (noneAccepted_append hasked hrefused)
            (by rw [hlength]; exact halone.2 hown)
          have hstatus : ¬received.message.bind messages.submitResponse =
              some commonStatusSuccess := by
            rw [hmessage]
            exact (Option.some_ne_none _).symm
          rw [if_neg hrefused, if_pos rfl, ← hresult, askOrderers, hrun,
            except_ok_bind]
          simp only [if_neg hstatus]
          exact hrest
      | some own =>
          obtain ⟨n, hlen, hrun⟩ := hgiven own hown
          by_cases haccepts : OrderAccepted messages head
          · rw [if_pos haccepts]
            exact askOrderers_accepted_iff tail hrun hown haccepts
          · have hrest := @askOrderers_freed_iff messages
              ⟨s.tx, ⟨n, .freed⟩, boatSuccess, s.asked ++ [head]⟩ n hlen rfl
              (noneAccepted_append hasked haccepts) tail
            have hstatus : ¬(some own).bind messages.submitResponse =
                some commonStatusSuccess := by
              rw [← hown]
              exact haccepts
            rw [if_neg haccepts, if_neg (Option.some_ne_none own), askOrderers,
              hrun, except_ok_bind]
            simp only [if_neg hstatus]
            refine hrest.trans (and_congr_left fun _ => ?_)
            exact ⟨fun h hnil => h hnil rfl, fun hne hnil => absurd hnil hne⟩

end Run

section Action

/-- The payload of a stored answer, where it is still there or empty. -/
def StoredFields.kept : StoredFields → Option (List UInt8)
  | .null => some []
  | .answer payload _ => some payload
  | .freed payload _ => if payload = [] then some [] else none

/-- What goes into the transaction: the payload of the first stored answer, and
all endorsements.  Where none is stored the first place is as it was left. -/
def sentAction (tx : BoatHlfabricTx) :
    List (List UInt8 × Endorsement) → Option EndorsedAction
  | [] => (tx.response 0).fields.kept.map fun payload => ⟨payload, []⟩
  | first :: rest => some ⟨first.1, (first :: rest).map Prod.snd⟩

theorem StoredFields.payload_of_kept {fields : StoredFields}
    {payload : List UInt8} (hkept : fields.kept = some payload) :
    fields.payload = .ok payload := by
  cases fields with
  | null =>
      obtain rfl := Option.some.inj hkept
      rfl
  | answer own endorsement =>
      obtain rfl := Option.some.inj hkept
      rfl
  | freed own endorsement =>
      by_cases hempty : own = []
      · rw [StoredFields.kept, if_pos hempty] at hkept
        obtain rfl := Option.some.inj hkept
        exact if_pos hempty
      · rw [StoredFields.kept, if_neg hempty] at hkept
        cases hkept

theorem StoredFields.payload_of_lost {fields : StoredFields}
    (hlost : fields.kept = none) : fields.payload = .error .undefined := by
  cases fields with
  | null => cases hlost
  | answer payload endorsement => cases hlost
  | freed payload endorsement =>
      by_cases hempty : payload = []
      · rw [StoredFields.kept, if_pos hempty] at hlost
        cases hlost
      · exact if_neg hempty

/-- The endorsements that are read are the stored ones. -/
theorem endorsements_of_stores {tx : BoatHlfabricTx}
    {stored : List (List UInt8 × Endorsement)} (hstores : tx.Stores stored) :
    ((List.range tx.responseCount).mapM fun i =>
      (tx.response i).fields.endorsement) = .ok (stored.map Prod.snd) := by
  have hread : ∀ i ∈ List.range tx.responseCount,
      (tx.response i).fields.endorsement =
        .ok (stored.getD i ([], ⟨[], []⟩)).2 := by
    intro i hmem
    have hi : i < stored.length := by
      rw [← hstores.1]
      exact List.mem_range.mp hmem
    rw [hstores.2 i hi, List.getD_eq_getElem _ _ hi]
    rfl
  rw [except_mapM_ok hread]
  congr 1
  apply List.ext_getElem
  · rw [List.length_map, List.length_map, List.length_range, hstores.1]
  · intro i _ hi
    rw [List.length_map] at hi
    rw [List.getElem_map, List.getElem_range, List.getElem_map,
      List.getD_eq_getElem _ _ hi]

/-- What goes into the transaction, from what is stored. -/
theorem endorsedAction_of_stores {tx tx' : BoatHlfabricTx}
    {stored : List (List UInt8 × Endorsement)} (hstores : tx'.Stores stored)
    (hfirst : stored.length ≤ 0 → tx'.response 0 = tx.response 0) :
    (∀ action, sentAction tx stored = some action →
      tx'.endorsedAction = .ok action) ∧
    (sentAction tx stored = none → tx'.endorsedAction = .error .undefined) := by
  have hothers := endorsements_of_stores hstores
  rw [BoatHlfabricTx.endorsedAction]
  cases stored with
  | nil =>
      rw [hfirst (Nat.le_refl 0), sentAction]
      constructor
      · intro action haction
        obtain ⟨payload, hkept, rfl⟩ := Option.map_eq_some_iff.mp haction
        rw [StoredFields.payload_of_kept hkept, except_ok_bind, hothers]
        rfl
      · intro hnone
        have hlost := Option.map_eq_none_iff.mp hnone
        rw [StoredFields.payload_of_lost hlost]
        rfl
  | cons first rest =>
      have hread : (tx'.response 0).fields.payload = .ok first.1 := by
        rw [hstores.2 0 (Nat.succ_pos _)]
        rfl
      refine ⟨fun action haction => ?_, fun hnone => by cases hnone⟩
      obtain rfl := Option.some.inj haction
      rw [hread, except_ok_bind, hothers]
      rfl

end Action

section Submit

variable (messages : FabricMessages) (world : FabricWorld)
  (nodeCfg : BoatHlfabricNodesCfg)

/-- Some layout is met by what its endorsers answer. -/
def SomeLayoutMet : Prop :=
  ∃ layout ∈ endorserGroups world.network nodeCfg, LayoutMet messages layout

/-- What is stored behind the endorsers' part. -/
def storedBehind (entries : List (List UInt8 × Endorsement)) :
    List (List UInt8 × Endorsement) :=
  entries ++ collected messages
    (askedOfLayouts messages (endorserGroups world.network nodeCfg))

/-- What a submission owes: it is successful exactly where a layout is met and an
orderer that it asked accepts, and where a layout is met it comes to the
orderers. -/
structure SubmittedRight (ended : SubmitEnd) : Prop where
  result : ended.result = boatSuccess ↔
    SomeLayoutMet messages world nodeCfg ∧
      ∃ ordered ∈ ended.transaction, ∃ attempt ∈ ordered.asked,
        OrderAccepted messages attempt
  tried : world.packed none = boatSuccess →
    SomeLayoutMet messages world nodeCfg → ended.transaction ≠ none

def SubmitsRight (run : Outcome SubmitEnd) : Prop :=
  ∃ ended, run = .ok ended ∧ SubmittedRight messages world nodeCfg ended

/-- What a right submission needs: room for the endorsements, success of the
endorsers' part where a layout is met, and behind it a payload that is still
there and orderers that give a right answer. -/
structure SubmitMeets (tx : BoatHlfabricTx)
    (entries : List (List UInt8 × Endorsement)) : Prop where
  fits : (storedBehind messages world nodeCfg entries).length ≤
    boatHlfabricEndorserMaxNum
  served : SomeLayoutMet messages world nodeCfg →
    Served messages boatSuccess (endorserGroups world.network nodeCfg)
  ordered : Served messages boatSuccess
      (endorserGroups world.network nodeCfg) →
    ∃ action ∈ sentAction tx (storedBehind messages world nodeCfg entries),
      world.packed (some action) = boatSuccess →
        OrderersMeet messages
          (storedBehind messages world nodeCfg entries).length boatSuccess
          (ordererAnswers world.network nodeCfg)

end Submit

section Claim

variable {messages : FabricMessages} {world : FabricWorld}
  {nodeCfg : BoatHlfabricNodesCfg} {tx : BoatHlfabricTx}
  {entries : List (List UInt8 × Endorsement)}

/-- A configuration that is accepted has a layout. -/
theorem endorserGroups_ne_nil
    (hchecked : boatHlfabricCheckNodefig nodeCfg = .ok ())
    (network : NodeRequest → NodeAttempt) :
    endorserGroups network nodeCfg ≠ [] := by
  intro hnil
  have hlength := congrArg List.length hnil
  rw [endorserGroups, List.length_mapIdx, List.length_nil] at hlength
  rw [boatHlfabricCheckNodefig, hlength] at hchecked
  cases hchecked

/-- A part that succeeds over some layout has met one. -/
theorem Served.someMet {last : BoatResult} {layouts : List (List EndorserGroup)}
    (hserved : Served messages last layouts) (hne : layouts ≠ []) :
    ∃ layout ∈ layouts, LayoutMet messages layout := by
  cases layouts with
  | nil => exact absurd rfl hne
  | cons layout rest => exact ⟨layout, List.mem_cons_self, hserved.1⟩

/-- The run over the endorsers, in the state of a call. -/
def proposalRun (messages : FabricMessages) (world : FabricWorld)
    (nodeCfg : BoatHlfabricNodesCfg) (tx : BoatHlfabricTx) :
    Outcome (BoatResult × ExecState) :=
  askLayouts messages .submit (endorserGroups world.network nodeCfg)
    ⟨{ tx with evaluateRes := [] }, ⟨0, .null⟩, boatSuccess, []⟩

theorem proposalRun_goes (hstores : tx.Stores entries)
    (hroom : entries.length ≤ boatHlfabricEndorserMaxNum)
    (halone : AllReadAlone 0
      (askedOfLayouts messages (endorserGroups world.network nodeCfg))) :
    Goes messages (proposalRun messages world nodeCfg tx)
      ⟨{ tx with evaluateRes := [] }, ⟨0, .null⟩, boatSuccess, []⟩ 0 entries
      (askedOfLayouts messages (endorserGroups world.network nodeCfg))
      (layoutsResult messages boatSuccess
        (endorserGroups world.network nodeCfg)) := by
  have hat : StoredAt ⟨{ tx with evaluateRes := [] }, ⟨0, .null⟩, boatSuccess, []⟩ 0
      entries :=
    ⟨⟨[], ⟨rfl, fun hne => absurd rfl hne⟩, rfl, by decide⟩, hstores, hroom⟩
  exact askLayouts_goes _ hat halone

/-- Behind the endorsers' part: the rest of a submission. -/
theorem boatHlfabricTxSubmit_packed (tx : BoatHlfabricTx)
    (hpacked : world.packed none = boatSuccess) :
    boatHlfabricTxSubmit messages world nodeCfg tx =
      proposalRun messages world nodeCfg tx >>= fun proposed =>
        if proposed.1 ≠ boatSuccess then
          .ok ⟨proposed.1, proposed.2.tx, proposed.2.asked, none⟩
        else
          boatHlfabricTxExec messages world nodeCfg .transaction .submit
            proposed.2.tx >>= fun ordered =>
              .ok ⟨ordered.result,
                if ordered.result ≠ boatSuccess then ordered.tx
                else ordered.tx.release,
                proposed.2.asked, some ordered⟩ := by
  have hgo : ¬world.packed none ≠ boatSuccess := not_not.mpr hpacked
  rw [boatHlfabricTxSubmit, boatHlfabricTxExec]
  simp only [if_neg hgo]
  change ((proposalRun messages world nodeCfg tx >>= _) >>= _) = _
  cases proposalRun messages world nodeCfg tx with
  | error e => rfl
  | ok proposed => rfl

/-- The orderers' part of a call, over a packed transaction. -/
theorem boatHlfabricTxExec_transaction {action : EndorsedAction}
    (haction : ({ tx with evaluateRes := [] } : BoatHlfabricTx).endorsedAction =
      .ok action) :
    boatHlfabricTxExec messages world nodeCfg .transaction .submit tx =
      if world.packed (some action) ≠ boatSuccess then
        .ok ⟨boatErrorCommonProtoPacketFail, { tx with evaluateRes := [] }, [],
          none⟩
      else
        askOrderers messages (ordererAnswers world.network nodeCfg)
          ⟨{ tx with evaluateRes := [] }, ⟨0, .null⟩, boatSuccess, []⟩ >>=
            fun s => .ok ⟨s.result, s.tx, s.asked, some action⟩ := by
  change (({ tx with evaluateRes := [] } : BoatHlfabricTx).endorsedAction >>= _)
    = _
  rw [haction]
  rfl

/-- An undefined payload is not sent. -/
theorem boatHlfabricTxExec_freed
    (haction : ({ tx with evaluateRes := [] } : BoatHlfabricTx).endorsedAction =
      .error .undefined) :
    boatHlfabricTxExec messages world nodeCfg .transaction .submit tx =
      .error .undefined := by
  change (({ tx with evaluateRes := [] } : BoatHlfabricTx).endorsedAction >>= _)
    = _
  rw [haction]
  rfl

/-- What is read for the transaction does not depend on the answer of a query. -/
theorem endorsedAction_evaluateRes (tx : BoatHlfabricTx) (value : List UInt8) :
    ({ tx with evaluateRes := value } : BoatHlfabricTx).endorsedAction =
      tx.endorsedAction :=
  rfl

theorem layoutsResult_served_iff :
    layoutsResult messages boatSuccess
        (endorserGroups world.network nodeCfg) = boatSuccess ↔
      Served messages boatSuccess (endorserGroups world.network nodeCfg) :=
  layoutsResult_eq_success_iff _ _

/-- A submission that does not come to the orderers is right where it fails, and
no layout was met if its proposal was packed. -/
theorem submitsRight_unordered_iff {result : BoatResult}
    {proposals : List NodeAttempt} (hfailed : result ≠ boatSuccess) :
    SubmitsRight messages world nodeCfg (.ok ⟨result, tx, proposals, none⟩) ↔
      (world.packed none = boatSuccess →
        ¬SomeLayoutMet messages world nodeCfg) := by
  constructor
  · rintro ⟨ended, hrun, hright⟩ hpacked hmet
    obtain rfl := Except.ok.inj hrun
    exact hright.tried hpacked hmet rfl
  · intro hnone
    refine ⟨_, rfl, iff_of_false hfailed ?_, fun hpacked hmet =>
      absurd hmet (hnone hpacked)⟩
    rintro ⟨_, ordered, hmem, _⟩
    cases hmem

/-- One that comes to them is right where they are. -/
theorem submitsRight_ordered_iff {run : Outcome ExecState}
    {action : EndorsedAction} {proposals : List NodeAttempt}
    (hmet : SomeLayoutMet messages world nodeCfg) :
    SubmitsRight messages world nodeCfg
        ((run >>= fun s => .ok (⟨s.result, s.tx, s.asked, some action⟩ : ExecEnd))
          >>= fun ordered => .ok ⟨ordered.result,
            if ordered.result ≠ boatSuccess then ordered.tx
            else ordered.tx.release, proposals, some ordered⟩) ↔
      OrdersRight messages run := by
  cases run with
  | error e =>
      refine iff_of_false ?_ ?_
      · rintro ⟨ended, hrun, _⟩
        cases hrun
      · rintro ⟨s', hrun, _⟩
        cases hrun
  | ok s =>
      constructor
      · rintro ⟨ended, hrun, hright⟩
        obtain rfl := Except.ok.inj hrun
        refine ⟨s, rfl, fun hsuccess => ?_, fun haccepted => ?_⟩
        · obtain ⟨_, ordered, hmem, haccepted⟩ := hright.result.mp hsuccess
          obtain rfl := Option.some.inj hmem
          exact haccepted
        · exact hright.result.mpr ⟨hmet, _, rfl, haccepted⟩
      · rintro ⟨s', hrun, hright⟩
        obtain rfl := Except.ok.inj hrun
        refine ⟨_, rfl, ⟨fun hsuccess => ?_, ?_⟩, fun _ _ => ?_⟩
        · exact ⟨hmet, _, rfl, hright.mp hsuccess⟩
        · rintro ⟨_, ordered, hmem, haccepted⟩
          obtain rfl := Option.some.inj hmem
          exact hright.mpr haccepted
        · exact Option.some_ne_none _

/-- The orderers' part behind the stored answers. -/
theorem orderedPart_right_iff {proposed : BoatHlfabricTx}
    {stored : List (List UInt8 × Endorsement)} {proposals : List NodeAttempt}
    (hstores : proposed.Stores stored)
    (hfirst : stored.length ≤ 0 → proposed.response 0 = tx.response 0)
    (hmet : SomeLayoutMet messages world nodeCfg)
    (halone : OrderersAlone 0 (ordererAnswers world.network nodeCfg)) :
    SubmitsRight messages world nodeCfg
        (boatHlfabricTxExec messages world nodeCfg .transaction .submit proposed
          >>= fun ordered => .ok ⟨ordered.result,
            if ordered.result ≠ boatSuccess then ordered.tx
            else ordered.tx.release, proposals, some ordered⟩) ↔
      ∃ action ∈ sentAction tx stored, world.packed (some action) = boatSuccess →
        OrderersMeet messages stored.length boatSuccess
          (ordererAnswers world.network nodeCfg) := by
  obtain ⟨hread, hgone⟩ := endorsedAction_of_stores hstores hfirst
  rw [← endorsedAction_evaluateRes proposed []] at hread hgone
  cases haction : sentAction tx stored with
  | none =>
      rw [boatHlfabricTxExec_freed (hgone haction)]
      refine iff_of_false ?_ ?_
      · rintro ⟨ended, hrun, _⟩
        cases hrun
      · rintro ⟨action, hmem, _⟩
        cases hmem
  | some action =>
      rw [boatHlfabricTxExec_transaction (hread action haction)]
      by_cases hpacked : world.packed (some action) = boatSuccess
      · have horders := @askOrderers_right_iff messages
          ⟨{ proposed with evaluateRes := [] }, ⟨0, .null⟩, boatSuccess, []⟩ []
          ⟨rfl, fun hne => absurd rfl hne⟩ (by decide)
          (fun _ hmem => absurd hmem List.not_mem_nil) _ halone
        rw [if_neg (not_not.mpr hpacked), submitsRight_ordered_iff hmet]
        change OrdersRight messages _ ↔ OrderersMeet messages
          proposed.responseCount _ _ at horders
        rw [horders, hstores.1]
        constructor
        · exact fun hmeets => ⟨action, rfl, fun _ => hmeets⟩
        · rintro ⟨other, hmem, hmeets⟩
          obtain rfl := Option.some.inj hmem
          exact hmeets hpacked
      · have hfailed : boatErrorCommonProtoPacketFail ≠ boatSuccess := by decide
        rw [if_pos hpacked]
        refine iff_of_true ⟨_, rfl, iff_of_false hfailed ?_, fun _ _ =>
          Option.some_ne_none _⟩ ⟨action, rfl, fun h => absurd h hpacked⟩
        rintro ⟨_, ordered, hmem, attempt, hasked, _⟩
        obtain rfl := Option.some.inj hmem
        cases hasked

/-- A submission is right exactly where its proposal is not packed or its
endorsers and orderers meet what it needs. -/
theorem boatHlfabricTxSubmit_right_iff (tx : BoatHlfabricTx)
    (hstores : tx.Stores entries)
    (hroom : entries.length ≤ boatHlfabricEndorserMaxNum)
    (hchecked : boatHlfabricCheckNodefig nodeCfg = .ok ())
    (hproposals : AllReadAlone 0
      (askedOfLayouts messages (endorserGroups world.network nodeCfg)))
    (horders : OrderersAlone 0 (ordererAnswers world.network nodeCfg)) :
    SubmitsRight messages world nodeCfg
        (boatHlfabricTxSubmit messages world nodeCfg tx) ↔
      (world.packed none = boatSuccess →
        SubmitMeets messages world nodeCfg tx entries) := by
  by_cases hpacked : world.packed none = boatSuccess
  · have hgoes := @proposalRun_goes messages world nodeCfg _ _ hstores hroom
      hproposals
    rw [boatHlfabricTxSubmit_packed tx hpacked]
    by_cases hfits : (storedBehind messages world nodeCfg entries).length ≤
        boatHlfabricEndorserMaxNum
    · obtain ⟨s', hrun, hbehind⟩ := hgoes.fits hfits
      rw [hrun, except_ok_bind]
      by_cases hserved : Served messages boatSuccess
          (endorserGroups world.network nodeCfg)
      · have hmet : SomeLayoutMet messages world nodeCfg :=
          hserved.someMet (endorserGroups_ne_nil hchecked _)
        have hsuccess := layoutsResult_served_iff.mpr hserved
        simp only [hsuccess, ne_eq, not_true_eq_false, if_false]
        rw [@orderedPart_right_iff _ _ _ tx _ _ _ hbehind.state.stores
          (hbehind.others 0) hmet horders]
        exact ⟨fun hordered _ => ⟨hfits, fun _ => hserved, fun _ => hordered⟩,
          fun hmeets => (hmeets hpacked).ordered hserved⟩
      · have hfailed := mt layoutsResult_served_iff.mp hserved
        simp only [if_pos hfailed]
        rw [submitsRight_unordered_iff hfailed]
        exact ⟨fun hnone _ => ⟨hfits, fun hmet => absurd hmet (hnone hpacked),
          fun h => absurd h hserved⟩, fun hmeets _ hmet =>
            hserved ((hmeets hpacked).served hmet)⟩
    · rw [hgoes.full (Nat.lt_of_not_le hfits)]
      refine iff_of_false ?_ fun hmeets => hfits (hmeets hpacked).fits
      rintro ⟨ended, hrun, _⟩
      cases hrun
  · have hfailed : boatErrorCommonProtoPacketFail ≠ boatSuccess := by decide
    have hrun : boatHlfabricTxSubmit messages world nodeCfg tx =
        .ok ⟨boatErrorCommonProtoPacketFail, { tx with evaluateRes := [] }, [],
          none⟩ := by
      rw [boatHlfabricTxSubmit, boatHlfabricTxExec]
      simp only [if_pos (show world.packed none ≠ boatSuccess from hpacked)]
      rfl
    rw [hrun, submitsRight_unordered_iff hfailed]
    exact ⟨fun _ h => absurd h hpacked, fun _ h => absurd h hpacked⟩

/-- What the sample orderer answers. -/
def acceptingAnswer : List UInt8 :=
  [0x08, 0xC8, 0x01]

/-- One endorser endorses, one orderer accepts. -/
theorem boatHlfabricTxSubmit_right_sample :
    SubmitsRight sampleMessages (answeringWorld sampleResponse acceptingAnswer)
      sampleNodes (boatHlfabricTxSubmit sampleMessages
        (answeringWorld sampleResponse acceptingAnswer) sampleNodes .init) := by
  have hproposals : AllReadAlone 0 (askedOfLayouts sampleMessages
      (endorserGroups (answeringWorld sampleResponse acceptingAnswer).network
        sampleNodes)) :=
    ⟨fun _ => .inl ⟨rfl, by decide⟩, trivial⟩
  have horders : OrderersAlone 0 (ordererAnswers
      (answeringWorld sampleResponse acceptingAnswer).network sampleNodes) :=
    ⟨fun _ => .inl ⟨rfl, by decide⟩, fun _ => trivial⟩
  have hempty : BoatHlfabricTx.init.Stores [] :=
    ⟨rfl, fun i hi => absurd hi (Nat.not_lt_zero i)⟩
  refine (boatHlfabricTxSubmit_right_iff .init hempty (Nat.zero_le _) rfl
    hproposals horders).mpr fun _ => ⟨by decide, fun _ => ⟨by decide,
      .inl (by decide)⟩, fun _ => ⟨_, rfl, fun _ => ?_⟩⟩
  exact (if_pos (by decide)).mpr (by decide)

end Claim

end BoatFramework
