/-
`BoatHlfabricTxEvaluate`: when it returns success with the answer of a node that
it asked, and only then.
-/
import BoatFramework.Hlfabric.TxExec

namespace BoatFramework

open Exec

section Query

variable (messages : FabricMessages)

/-- What a query gets from a node, where the node gives an endorsement. -/
def queryOf (attempt : NodeAttempt) : Option QueryEnd :=
  (messages.endorsed attempt.message).map fun answer => messages.query answer.1

/-- A node answers with the status of success and a value. -/
def AnswersWith (attempt : NodeAttempt) (value : List UInt8) : Prop :=
  queryOf messages attempt = some (.value value)

/-- The run over the nodes, one behind the other: whether it stops at one. -/
def queryNodes : List NodeAttempt → ExecState → Outcome (Bool × ExecState)
  | [], s => .ok (false, s)
  | attempt :: rest, s => do
      match ← askEndorser messages .evaluate attempt s with
      | (.continued, s) => queryNodes rest s
      | (_, s) => .ok (true, s)

/-- The nodes that a query comes to: a group that asks for an endorsement is
the last one. -/
def queriedNodes : List EndorserGroup → List NodeAttempt
  | [] => []
  | group :: rest =>
      if 0 < group.quantities then group.answers
      else group.answers ++ queriedNodes rest

/-- Some group asks for an endorsement. -/
def asksSome (groups : List EndorserGroup) : Bool :=
  groups.any fun group => 0 < group.quantities

/-- From a state on, the nodes that are reached are read alone. -/
def ReachedAlone : Nat → List NodeAttempt → Prop
  | _, [] => True
  | pending, attempt :: rest =>
      ReadAlone pending attempt ∧
        ((∀ q ∈ queryOf messages attempt, q = .refused) →
          ReachedAlone (pendingBehind pending attempt) rest)

/-- The nodes give a right answer: behind `stored` endorsements there is room
for each one, the first that does not refuse has a value, and where none does
either a group asks for endorsements or the last node has failed. -/
def QueryMeets (asks : Bool) : List NodeAttempt → Nat → BoatResult → Prop
  | [], _, last => asks = false → last ≠ boatSuccess
  | attempt :: rest, stored, _ =>
      match queryOf messages attempt with
      | none => QueryMeets asks rest stored attempt.outcome
      | some .refused =>
          stored < boatHlfabricEndorserMaxNum ∧
            QueryMeets asks rest (stored + 1) boatSuccess
      | some (.value _) => stored < boatHlfabricEndorserMaxNum
      | some _ => False

/-- What a call owes: it is successful exactly where a node that it asked has
answered with success, and then hands out that answer, else nothing. -/
structure EvaluatedRight (ended : ExecEnd) : Prop where
  result : ended.result = boatSuccess ↔
    ∃ attempt ∈ ended.asked, ∃ value, AnswersWith messages attempt value
  value : ended.result = boatSuccess → ∃ attempt ∈ ended.asked,
    AnswersWith messages attempt ended.tx.evaluateRes
  nothing : ended.result ≠ boatSuccess → ended.tx.evaluateRes = []

/-- The call ends, and right. -/
def EvaluatesRight (run : Outcome ExecEnd) : Prop :=
  ∃ ended, run = .ok ended ∧ EvaluatedRight messages ended

end Query

section Step

variable {messages : FabricMessages} {s : ExecState}

/-- An endorsement is stored where there is room. -/
theorem takeAnswer_evaluate (messages : FabricMessages) (s : ExecState)
    (answer : List UInt8 × Endorsement) :
    (boatHlfabricEndorserMaxNum ≤ s.tx.responseCount →
      takeAnswer messages .evaluate s (some answer) = .error .undefined) ∧
    (s.tx.responseCount < boatHlfabricEndorserMaxNum → ∃ tx,
      tx.responseCount = s.tx.responseCount + 1 ∧
      tx.evaluateRes = s.tx.evaluateRes ∧
      takeAnswer messages .evaluate s (some answer) =
        queryTurn { s with tx := tx } (messages.query answer.1)) := by
  constructor
  · intro hfull
    rw [takeAnswer, BoatHlfabricTx.store, if_neg (Nat.not_lt.mpr hfull)]
    rfl
  · intro hroom
    have hstore : s.tx.store (fun _ => ⟨.proposal, .answer answer.1 answer.2⟩) =
        .ok _ := if_pos hroom
    refine ⟨_, ?_, ?_, by rw [takeAnswer, hstore, except_ok_bind]⟩
    · rfl
    · rfl

end Step

section Run

variable {messages : FabricMessages} {s : ExecState} {kept : List UInt8}
  {asks : Bool}

/-- What the run over the nodes comes to, as what the call leaves. -/
def endOfQuery (asks : Bool) (ended : Bool × ExecState) : ExecEnd :=
  ⟨if ended.1 = false ∧ asks = true then boatError else ended.2.result,
    ended.2.tx, ended.2.asked, none⟩

theorem Behind.chunk {s' : ExecState} {attempt : NodeAttempt}
    (hbehind : Behind s kept attempt s') (tx : BoatHlfabricTx) :
    Behind s kept attempt { s' with tx := tx } :=
  ⟨hbehind.asked, hbehind.result, hbehind.left⟩

theorem queryNodes_continued {s' : ExecState} {head : NodeAttempt}
    {tail : List NodeAttempt}
    (hask : askEndorser messages .evaluate head s = .ok (.continued, s')) :
    queryNodes messages (head :: tail) s = queryNodes messages tail s' := by
  rw [queryNodes, hask]
  rfl

theorem queryNodes_returned {s' : ExecState} {head : NodeAttempt}
    {tail : List NodeAttempt}
    (hask : askEndorser messages .evaluate head s = .ok (.returned, s')) :
    queryNodes messages (head :: tail) s = .ok (true, s') := by
  rw [queryNodes, hask]
  rfl

theorem queryNodes_undefined {head : NodeAttempt} {tail : List NodeAttempt}
    (hask : askEndorser messages .evaluate head s = .error .undefined) :
    queryNodes messages (head :: tail) s = .error .undefined := by
  rw [queryNodes, hask]
  rfl

theorem not_right_of_error {p : Bool × ExecState → Prop} {e : Failure}
    {run : Outcome (Bool × ExecState)} (hrun : run = .error e) :
    ¬∃ ended, run = .ok ended ∧ p ended := by
  rintro ⟨ended, hok, _⟩
  rw [hrun] at hok
  cases hok

/-- A run that stops with success is right exactly where a node has answered
with what is handed out. -/
theorem right_of_stopped {s' : ExecState}
    (hanswer : ∃ attempt ∈ s'.asked, AnswersWith messages attempt s'.tx.evaluateRes)
    (hresult : s'.result = boatSuccess) :
    EvaluatedRight messages (endOfQuery asks (true, s')) where
  result := by
    obtain ⟨attempt, hmem, hvalue⟩ := hanswer
    exact iff_of_true hresult ⟨attempt, hmem, _, hvalue⟩
  value _ := hanswer
  nothing hfailed := absurd hresult hfailed

theorem not_right_of_nobody {stopped : Bool} {s' : ExecState}
    (hresult : (endOfQuery asks (stopped, s')).result = boatSuccess)
    (hnobody : ∀ attempt ∈ s'.asked, ∀ value,
      ¬AnswersWith messages attempt value) :
    ¬EvaluatedRight messages (endOfQuery asks (stopped, s')) := by
  intro hright
  obtain ⟨attempt, hmem, value, hanswer⟩ := hright.result.mp hresult
  exact hnobody attempt hmem value hanswer

/-- A run over nodes none of which has answered so far is right where the nodes
give a right answer. -/
theorem queryNodes_right_iff (hkeeps : s.fabricHttp2res.Keeps kept)
    (hkept : kept.length < 2 ^ 32) (hnothing : s.tx.evaluateRes = [])
    (hbefore : ∀ attempt ∈ s.asked, ∀ value, ¬AnswersWith messages attempt value)
    (nodes : List NodeAttempt) (halone : ReachedAlone messages kept.length nodes) :
    (∃ ended, queryNodes messages nodes s = .ok ended ∧
        EvaluatedRight messages (endOfQuery asks ended)) ↔
      QueryMeets messages asks nodes s.tx.responseCount s.result := by
  induction nodes generalizing s kept with
  | nil =>
      rw [QueryMeets]
      constructor
      · rintro ⟨ended, hrun, hright⟩ hasks hlast
        obtain rfl := Except.ok.inj hrun
        have hended : (endOfQuery asks (false, s)).result = boatSuccess := by
          rw [endOfQuery, hasks]
          exact hlast
        exact not_right_of_nobody hended hbefore hright
      · intro hlast
        have hfailed : (endOfQuery asks (false, s)).result ≠ boatSuccess := by
          cases asks with
          | false => exact hlast rfl
          | true => exact (by decide : boatError ≠ boatSuccess)
        refine ⟨_, rfl, iff_of_false hfailed ?_, fun h => absurd h hfailed,
          fun _ => hnothing⟩
        rintro ⟨attempt, hmem, value, hanswer⟩
        exact hbefore attempt hmem value hanswer
  | cons head tail ih =>
      obtain ⟨hhead, hrest⟩ := halone
      obtain ⟨s', hbehind, htx, hask⟩ :=
        askEndorser_alone messages .evaluate hkeeps hkept hhead
      obtain ⟨left, hleft, hbound, hlength⟩ := hbehind.left
      have hasked (hsilent : ∀ value, ¬AnswersWith messages head value) :
          ∀ attempt ∈ s'.asked, ∀ value, ¬AnswersWith messages attempt value := by
        intro attempt hmem
        rw [hbehind.asked, List.mem_append, List.mem_singleton] at hmem
        rcases hmem with hmem | rfl
        · exact hbefore attempt hmem
        · exact hsilent
      rcases hendorsed : messages.endorsed head.message with _ | answer
      · have hquery : queryOf messages head = none := by
          rw [queryOf, hendorsed]
          rfl
        have hnobody := hasked fun value hanswer => by
          rw [AnswersWith, hquery] at hanswer
          cases hanswer
        have htail : ReachedAlone messages left.length tail := by
          rw [hlength]
          exact hrest fun q hq => by
            rw [hquery] at hq
            cases hq
        rw [hendorsed] at hask
        rw [queryNodes_continued hask, ih hleft hbound (by rw [htx, hnothing])
          hnobody htail, htx, hbehind.result, QueryMeets, hquery]
      · have hquery : queryOf messages head =
            some (messages.query answer.1) := by
          rw [queryOf, hendorsed]
          rfl
        have hsuccess : s'.result = boatSuccess :=
          hbehind.result.trans (outcome_of_endorsed hendorsed)
        obtain ⟨hfull, hroom⟩ :=
          takeAnswer_evaluate messages s' answer
        rw [htx] at hfull hroom
        rw [hendorsed] at hask
        rw [QueryMeets, hquery]
        by_cases hfits : s.tx.responseCount < boatHlfabricEndorserMaxNum
        · obtain ⟨tx, hcount, hsame, hturn⟩ := hroom hfits
          rw [hturn] at hask
          cases hq : messages.query answer.1 with
          | empty =>
              rw [hq] at hask hquery
              have hnobody := hasked fun value hanswer => by
                rw [AnswersWith, hquery] at hanswer
                cases hanswer
              rw [queryNodes_returned hask]
              refine iff_of_false ?_ id
              rintro ⟨ended, hrun, hright⟩
              obtain rfl := Except.ok.inj hrun
              have hended : (endOfQuery asks
                  (true, { s' with tx := tx })).result = boatSuccess := hsuccess
              exact not_right_of_nobody hended hnobody hright
          | refused =>
              rw [hq] at hask hquery
              have hnobody := hasked fun value hanswer => by
                rw [AnswersWith, hquery] at hanswer
                cases hanswer
              have htail : ReachedAlone messages left.length tail := by
                rw [hlength]
                exact hrest fun q hq => by
                  rw [hquery] at hq
                  exact (Option.some.inj hq).symm
              rw [queryNodes_continued hask, @ih { s' with tx := tx } left hleft
                hbound (hsame.trans hnothing) hnobody htail]
              simp only [hcount, hsuccess, hfits, true_and]
          | broken =>
              rw [hq] at hask
              exact iff_of_false
                (not_right_of_error (queryNodes_undefined hask)) id
          | value value =>
              rw [hq] at hask hquery
              rw [queryNodes_returned hask]
              refine iff_of_true ⟨_, rfl, right_of_stopped ?_ hsuccess⟩ hfits
              refine ⟨head, ?_, hquery⟩
              change head ∈ s'.asked
              rw [hbehind.asked]
              exact List.mem_append_right _ List.mem_cons_self
        · rw [hfull (Nat.le_of_not_lt hfits)] at hask
          refine iff_of_false
            (not_right_of_error (queryNodes_undefined hask)) ?_
          cases messages.query answer.1 with
          | empty => exact id
          | refused => exact fun h => hfits h.1
          | broken => exact id
          | value value => exact hfits

end Run

section Layouts

variable (messages : FabricMessages)

theorem queryTurn_ne_counted {s s' : ExecState} (q : QueryEnd) :
    queryTurn s q ≠ .ok (.counted, s') := by
  cases q with
  | empty => exact fun h => by cases h
  | refused => exact fun h => by cases h
  | broken => exact fun h => by cases h
  | value value => exact fun h => by cases h

/-- A query does not count endorsements. -/
theorem askEndorser_ne_counted (attempt : NodeAttempt) {s s' : ExecState} :
    askEndorser messages .evaluate attempt s ≠ .ok (.counted, s') := by
  intro hask
  obtain ⟨received, _, htake⟩ := except_bind_eq_ok.mp hask
  rcases hendorsed : messages.endorsed received.message with _ | answer
  · rw [hendorsed] at htake
    cases htake
  · rw [hendorsed] at htake
    obtain ⟨tx, _, hturn⟩ := except_bind_eq_ok.mp htake
    exact queryTurn_ne_counted _ hturn

/-- The loop over a group asks its nodes one behind the other. -/
theorem askGroup_evaluate (quantities valid : Nat) (nodes : List NodeAttempt)
    (s : ExecState) :
    askGroup messages .evaluate quantities nodes valid s =
      (fun ended : Bool × ExecState =>
        (if ended.1 then .returned else .exhausted valid, ended.2)) <$>
          queryNodes messages nodes s := by
  induction nodes generalizing s with
  | nil => rfl
  | cons head tail ih =>
      rw [askGroup, queryNodes]
      cases hask : askEndorser messages .evaluate head s with
      | error e => rfl
      | ok ended =>
          obtain ⟨turn, s'⟩ := ended
          cases turn with
          | continued => exact ih s'
          | counted => exact absurd hask (askEndorser_ne_counted messages head)
          | returned => rfl

theorem queryNodes_append (front back : List NodeAttempt) (s : ExecState) :
    queryNodes messages (front ++ back) s =
      queryNodes messages front s >>= fun ended =>
        if ended.1 then .ok ended else queryNodes messages back ended.2 := by
  induction front generalizing s with
  | nil => rfl
  | cons head tail ih =>
      rw [List.cons_append, queryNodes, queryNodes]
      cases hask : askEndorser messages .evaluate head s with
      | error e => rfl
      | ok ended =>
          obtain ⟨turn, s'⟩ := ended
          cases turn with
          | continued => exact ih s'
          | counted => rfl
          | returned => rfl

theorem asksSome_cons (head : EndorserGroup) (tail : List EndorserGroup) :
    asksSome (head :: tail) = (decide (0 < head.quantities) || asksSome tail) :=
  rfl

/-- Behind a group that asks for endorsements no node is asked. -/
theorem queriedNodes_append (front back : List EndorserGroup) :
    queriedNodes (front ++ back) =
      queriedNodes front ++ if asksSome front then [] else queriedNodes back := by
  induction front with
  | nil => rfl
  | cons head tail ih =>
      rw [List.cons_append, queriedNodes, queriedNodes, ih, asksSome_cons]
      by_cases hasks : 0 < head.quantities
      · rw [if_pos hasks, if_pos hasks, decide_eq_true hasks, Bool.true_or,
          if_pos rfl, List.append_nil]
      · rw [if_neg hasks, if_neg hasks, decide_eq_false hasks, Bool.false_or,
          List.append_assoc]

/-- The groups of a layout. -/
theorem askLayout_evaluate (groups : List EndorserGroup) (s : ExecState) :
    askLayout messages .evaluate groups s =
      (fun ended : Bool × ExecState =>
        (if ended.1 then some ended.2.result
          else if asksSome groups then some boatError else none, ended.2)) <$>
            queryNodes messages (queriedNodes groups) s := by
  induction groups generalizing s with
  | nil => rfl
  | cons head tail ih =>
      rw [askLayout, askGroup_evaluate, queriedNodes]
      by_cases hasks : 0 < head.quantities
      · rw [if_pos hasks, asksSome_cons, decide_eq_true hasks, Bool.true_or]
        cases queryNodes messages head.answers s with
        | error e => rfl
        | ok ended =>
            obtain ⟨stopped, s'⟩ := ended
            cases stopped with
            | true => rfl
            | false => exact if_pos hasks
      · rw [if_neg hasks, asksSome_cons, decide_eq_false hasks, Bool.false_or,
          queryNodes_append]
        cases queryNodes messages head.answers s with
        | error e => rfl
        | ok ended =>
            obtain ⟨stopped, s'⟩ := ended
            cases stopped with
            | true => rfl
            | false => exact (if_neg hasks).trans (ih s')

/-- And all layouts. -/
theorem askLayouts_evaluate (layouts : List (List EndorserGroup))
    (s : ExecState) :
    askLayouts messages .evaluate layouts s =
      (fun ended : Bool × ExecState =>
        ((endOfQuery (asksSome layouts.flatten) ended).result, ended.2)) <$>
          queryNodes messages (queriedNodes layouts.flatten) s := by
  induction layouts generalizing s with
  | nil => rfl
  | cons head tail ih =>
      have hflat : asksSome (head :: tail).flatten =
          (asksSome head || asksSome tail.flatten) := List.any_append
      have hqueried := queriedNodes_append head tail.flatten
      rw [askLayouts, askLayout_evaluate, hflat, List.flatten_cons, hqueried]
      cases hasks : asksSome head with
      | true =>
          have hnone : queriedNodes head ++ (if true = true then []
              else queriedNodes tail.flatten) = queriedNodes head := List.append_nil _
          rw [hnone]
          cases queryNodes messages (queriedNodes head) s with
          | error e => rfl
          | ok ended =>
              obtain ⟨stopped, s'⟩ := ended
              cases stopped with
              | true => rfl
              | false => rfl
      | false =>
          have hmore : queriedNodes head ++ (if false = true then []
              else queriedNodes tail.flatten) =
                queriedNodes head ++ queriedNodes tail.flatten := rfl
          rw [hmore, queryNodes_append]
          cases queryNodes messages (queriedNodes head) s with
          | error e => rfl
          | ok ended =>
              obtain ⟨stopped, s'⟩ := ended
              cases stopped with
              | true => rfl
              | false => exact ih s'

end Layouts

section Claim

variable {messages : FabricMessages} {world : FabricWorld}
  {nodeCfg : BoatHlfabricNodesCfg}

/-- The groups of all layouts, in the order in which they are asked. -/
def allGroups (world : FabricWorld) (nodeCfg : BoatHlfabricNodesCfg) :
    List EndorserGroup :=
  (endorserGroups world.network nodeCfg).flatten

/-- The state in which the first node is asked. -/
def askingState (tx : BoatHlfabricTx) : ExecState :=
  ⟨{ tx with evaluateRes := [] }, ⟨0, .null⟩, boatSuccess, []⟩

/-- With a packed proposal an evaluation is the run over the nodes. -/
theorem boatHlfabricTxEvaluate_packed (tx : BoatHlfabricTx)
    (hpacked : world.packed none = boatSuccess) :
    boatHlfabricTxEvaluate messages world nodeCfg tx =
      (fun ended : Bool × ExecState =>
        (fun ended : ExecEnd => { ended with tx := ended.tx.release })
          (endOfQuery (asksSome (allGroups world nodeCfg)) ended)) <$>
            queryNodes messages (queriedNodes (allGroups world nodeCfg))
              (askingState tx) := by
  have hgo : ¬world.packed none ≠ boatSuccess := not_not.mpr hpacked
  have hrun := askLayouts_evaluate messages (endorserGroups world.network nodeCfg)
    (askingState tx)
  rw [boatHlfabricTxEvaluate, boatHlfabricTxExec]
  simp only [if_neg hgo]
  change ((askLayouts messages .evaluate (endorserGroups world.network nodeCfg)
    (askingState tx) >>= _) >>= _) = _
  rw [hrun]
  change ((_ <$> queryNodes messages (queriedNodes (allGroups world nodeCfg)) _ >>= _)
    >>= _) = _
  cases queryNodes messages (queriedNodes (allGroups world nodeCfg))
    (askingState tx) with
  | error e => rfl
  | ok ended => rfl

/-- What is released is not what is handed out. -/
theorem evaluatedRight_release_iff (ended : ExecEnd) :
    EvaluatedRight messages { ended with tx := ended.tx.release } ↔
      EvaluatedRight messages ended :=
  ⟨fun hright => ⟨hright.result, hright.value, hright.nothing⟩,
    fun hright => ⟨hright.result, hright.value, hright.nothing⟩⟩

/-- An evaluation is right exactly where its proposal is not packed or the nodes
that it comes to give a right answer. -/
theorem boatHlfabricTxEvaluate_right_iff (tx : BoatHlfabricTx)
    (halone : ReachedAlone messages 0 (queriedNodes (allGroups world nodeCfg))) :
    EvaluatesRight messages
        (boatHlfabricTxEvaluate messages world nodeCfg tx) ↔
      (world.packed none = boatSuccess →
        QueryMeets messages (asksSome (allGroups world nodeCfg))
          (queriedNodes (allGroups world nodeCfg)) tx.responseCount boatSuccess) := by
  by_cases hpacked : world.packed none = boatSuccess
  · have hright := @queryNodes_right_iff messages (askingState tx) []
      (asksSome (allGroups world nodeCfg)) ⟨rfl, fun hne => absurd rfl hne⟩
      (by decide) rfl (fun _ hmem => absurd hmem List.not_mem_nil) _ halone
    rw [EvaluatesRight, boatHlfabricTxEvaluate_packed tx hpacked]
    refine Iff.trans ?_ (hright.trans ⟨fun hmeets _ => hmeets, fun hmeets =>
      hmeets hpacked⟩)
    constructor
    · rintro ⟨ended, hrun, hright⟩
      cases hquery : queryNodes messages (queriedNodes (allGroups world nodeCfg))
        (askingState tx) with
      | error e =>
          rw [hquery] at hrun
          cases hrun
      | ok found =>
          rw [hquery] at hrun
          obtain rfl := Except.ok.inj hrun
          exact ⟨found, rfl, (evaluatedRight_release_iff _).mp hright⟩
    · rintro ⟨found, hquery, hright⟩
      rw [hquery]
      exact ⟨_, rfl, (evaluatedRight_release_iff _).mpr hright⟩
  · refine iff_of_true ⟨⟨boatErrorCommonProtoPacketFail,
      ({ tx with evaluateRes := [] } : BoatHlfabricTx).release, [], none⟩, ?_,
      ?_⟩ fun h => absurd h hpacked
    · rw [boatHlfabricTxEvaluate, boatHlfabricTxExec]
      simp only [if_pos (show world.packed none ≠ boatSuccess from hpacked)]
      rfl
    · have hfailed : boatErrorCommonProtoPacketFail ≠ boatSuccess := by decide
      refine ⟨iff_of_false hfailed ?_, fun h => absurd h hfailed, fun _ => rfl⟩
      rintro ⟨_, hmem, _⟩
      exact absurd hmem List.not_mem_nil

/-- The endorser's answer is read. -/
theorem boatHlfabricTxEvaluate_right_sample :
    EvaluatesRight sampleMessages (boatHlfabricTxEvaluate sampleMessages
      (answeringWorld sampleResponse []) sampleNodes .init) := by
  have halone : ReachedAlone sampleMessages 0 (queriedNodes (allGroups
      (answeringWorld sampleResponse []) sampleNodes)) :=
    ⟨fun _ => .inl ⟨rfl, by decide⟩, fun _ => trivial⟩
  refine (boatHlfabricTxEvaluate_right_iff .init halone).mpr fun _ => ?_
  exact (by decide : 0 < boatHlfabricEndorserMaxNum)

/-- An answer without a payload is taken for a success without a value. -/
theorem not_boatHlfabricTxEvaluate_right :
    boatHlfabricCheckNodefig sampleNodes = .ok () ∧
      ¬EvaluatesRight sampleMessages (boatHlfabricTxEvaluate sampleMessages
        (answeringWorld emptyResponse []) sampleNodes .init) := by
  refine ⟨rfl, ?_⟩
  rintro ⟨ended, hrun, hright⟩
  obtain rfl := Except.ok.inj hrun
  obtain ⟨attempt, hmem, hanswer⟩ := hright.value rfl
  obtain rfl := List.mem_singleton.mp hmem
  cases hanswer

end Claim

end BoatFramework
