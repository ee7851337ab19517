/-
The endorsers' part of `BoatHlfabricTxSubmit`: which of them are asked, which
answers are stored, and when the part succeeds.
-/
import BoatFramework.Hlfabric.TxExec

namespace BoatFramework

open Exec

section Inputs

variable (messages : FabricMessages)

/-- The payload and the endorsement that an endorser gives. -/
def endorsementOf (attempt : NodeAttempt) :
    Option (List UInt8 × Endorsement) :=
  messages.endorsed attempt.message

def collected (attempts : List NodeAttempt) :
    List (List UInt8 × Endorsement) :=
  attempts.filterMap (endorsementOf messages)

/-- A group gives as many endorsements as are asked for. -/
def GroupMet (group : EndorserGroup) : Prop :=
  group.quantities ≤ (collected messages group.answers).length

instance (group : EndorserGroup) : Decidable (GroupMet messages group) :=
  Nat.decLe _ _

def LayoutMet (layout : List EndorserGroup) : Prop :=
  ∀ group ∈ layout, GroupMet messages group

instance (layout : List EndorserGroup) : Decidable (LayoutMet messages layout) :=
  List.decidableBAll _ layout

/-- The endorsers of a group that are asked: up to the one whose endorsement is
the last that is needed. -/
def askedOf : Nat → List NodeAttempt → List NodeAttempt
  | _, [] => []
  | needed, attempt :: rest =>
      attempt ::
        if (endorsementOf messages attempt).isNone then askedOf needed rest
        else if needed ≤ 1 then [] else askedOf (needed - 1) rest

/-- Behind a group that falls short nobody is asked. -/
def askedOfLayout : List EndorserGroup → List NodeAttempt
  | [] => []
  | group :: rest =>
      askedOf messages group.quantities group.answers ++
        if GroupMet messages group then askedOfLayout rest else []

/-- The last group of a layout has an endorsement. -/
def EndsEndorsed (layout : List EndorserGroup) : Prop :=
  ∃ group ∈ layout.getLast?, collected messages group.answers ≠ []

instance (layout : List EndorserGroup) :
    Decidable (EndsEndorsed messages layout) :=
  inferInstanceAs (Decidable (∃ group ∈ layout.getLast?, _))

/-- A layout is passed by: each group has what it asks for, but the last one has
no endorsement. -/
def PassedBy (layout : List EndorserGroup) : Prop :=
  LayoutMet messages layout ∧ ¬EndsEndorsed messages layout

instance (layout : List EndorserGroup) : Decidable (PassedBy messages layout) :=
  inferInstanceAs (Decidable (_ ∧ _))

def askedOfLayouts : List (List EndorserGroup) → List NodeAttempt
  | [] => []
  | layout :: rest =>
      askedOfLayout messages layout ++
        if PassedBy messages layout then askedOfLayouts rest else []

/-- The outcome of the last of a number of attempts. -/
def lastOutcome (last : BoatResult) (attempts : List NodeAttempt) :
    BoatResult :=
  attempts.foldl (fun _ attempt => attempt.outcome) last

def pendingAfter (pending : Nat) (attempts : List NodeAttempt) : Nat :=
  attempts.foldl pendingBehind pending

/-- The part succeeds: the first layout that is not passed by is met, or all are
passed by and the last attempt has succeeded. -/
def Served (last : BoatResult) : List (List EndorserGroup) → Prop
  | [] => last = boatSuccess
  | layout :: rest =>
      LayoutMet messages layout ∧
        (EndsEndorsed messages layout ∨
          Served (lastOutcome last (askedOfLayout messages layout)) rest)

end Inputs

theorem allReadAlone_append (pending : Nat) (front back : List NodeAttempt) :
    AllReadAlone pending (front ++ back) ↔
      AllReadAlone pending front ∧
        AllReadAlone (pendingAfter pending front) back := by
  induction front generalizing pending with
  | nil => exact (and_iff_right trivial).symm
  | cons head tail ih =>
      rw [List.cons_append, AllReadAlone, AllReadAlone, ih, and_assoc]
      rfl

/-- The stored answers of a transaction. -/
def BoatHlfabricTx.Stores (tx : BoatHlfabricTx)
    (entries : List (List UInt8 × Endorsement)) : Prop :=
  tx.responseCount = entries.length ∧
    ∀ i (hi : i < entries.length), tx.response i =
      ⟨.proposal, .answer (entries[i]).1 (entries[i]).2⟩

/-- A state of the loop: so many bytes are left in the buffer, and these answers
are stored. -/
structure StoredAt (s : ExecState) (pending : Nat)
    (entries : List (List UInt8 × Endorsement)) : Prop where
  left : ∃ kept, s.fabricHttp2res.Keeps kept ∧ kept.length = pending ∧
    pending < 2 ^ 32
  stores : s.tx.Stores entries
  room : entries.length ≤ boatHlfabricEndorserMaxNum

/-- The state behind a number of attempts. -/
structure Behinds (messages : FabricMessages) (s : ExecState) (pending : Nat)
    (entries : List (List UInt8 × Endorsement)) (attempts : List NodeAttempt)
    (s' : ExecState) : Prop where
  state : StoredAt s' (pendingAfter pending attempts)
    (entries ++ collected messages attempts)
  asked : s'.asked = s.asked ++ attempts
  result : s'.result = lastOutcome s.result attempts
  others : ∀ i, (entries ++ collected messages attempts).length ≤ i →
    s'.tx.response i = s.tx.response i

/-- A part of the run: with room for what it stores it ends in one way, without
it is undefined. -/
structure Goes (messages : FabricMessages) {ε : Type}
    (run : Outcome (ε × ExecState)) (s : ExecState) (pending : Nat)
    (entries : List (List UInt8 × Endorsement)) (attempts : List NodeAttempt)
    (ended : ε) : Prop where
  fits : (entries ++ collected messages attempts).length ≤
      boatHlfabricEndorserMaxNum →
    ∃ s', run = .ok (ended, s') ∧ Behinds messages s pending entries attempts s'
  full : boatHlfabricEndorserMaxNum <
      (entries ++ collected messages attempts).length →
    run = .error .undefined

section Parts

variable {messages : FabricMessages} {s : ExecState} {pending : Nat}
  {entries : List (List UInt8 × Endorsement)} {attempt : NodeAttempt}
  {attempts : List NodeAttempt} {ε δ : Type}

theorem BoatHlfabricTx.Stores.store {tx : BoatHlfabricTx}
    (hstores : tx.Stores entries) (answer : List UInt8 × Endorsement) :
    (entries.length < boatHlfabricEndorserMaxNum → ∃ tx',
      tx.store (fun _ => ⟨.proposal, .answer answer.1 answer.2⟩) = .ok tx' ∧
        tx'.Stores (entries ++ [answer]) ∧
        ∀ i, entries.length < i → tx'.response i = tx.response i) ∧
    (boatHlfabricEndorserMaxNum ≤ entries.length →
      tx.store (fun _ => ⟨.proposal, .answer answer.1 answer.2⟩) =
        .error .undefined) := by
  obtain ⟨hcount, hentries⟩ := hstores
  constructor
  · intro hroom
    rw [← hcount] at hroom
    refine ⟨_, if_pos hroom, ⟨?_, fun i hi => ?_⟩, fun i hi => ?_⟩
    · rw [List.length_append, ← hcount]
      rfl
    · by_cases hlast : i = tx.responseCount
      · subst hlast
        have hget : (entries ++ [answer])[tx.responseCount] = answer := by
          simp only [hcount, List.getElem_concat_length]
        rw [hget]
        exact Function.update_self _ _ _
      · rw [List.length_append, List.length_singleton] at hi
        have hbefore : i < entries.length := by omega
        rw [List.getElem_append_left hbefore, ← hentries i hbefore]
        exact Function.update_of_ne hlast _ _
    · rw [← hcount] at hi
      exact Function.update_of_ne (Nat.ne_of_gt hi) _ _
  · intro hfull
    exact if_neg (by omega)

theorem collected_append (front back : List NodeAttempt) :
    collected messages (front ++ back) =
      collected messages front ++ collected messages back :=
  List.filterMap_append

/-- The empty part. -/
theorem Goes.nothing (hat : StoredAt s pending entries) (ended : ε) :
    Goes messages (.ok (ended, s)) s pending entries [] ended where
  fits _ := by
    refine ⟨s, rfl, ?_, (List.append_nil _).symm, rfl, fun _ _ => rfl⟩
    rw [collected, List.filterMap_nil, List.append_nil]
    exact hat
  full hfull := by
    rw [collected, List.filterMap_nil, List.append_nil] at hfull
    exact absurd hat.room (Nat.not_le.mpr hfull)

theorem Behinds.trans {front back : List NodeAttempt} {mid s' : ExecState}
    (hfront : Behinds messages s pending entries front mid)
    (hback : Behinds messages mid (pendingAfter pending front)
      (entries ++ collected messages front) back s') :
    Behinds messages s pending entries (front ++ back) s' where
  state := by
    have hstate := hback.state
    rw [List.append_assoc, ← collected_append] at hstate
    rw [pendingAfter, List.foldl_append]
    exact hstate
  asked := by
    rw [hback.asked, hfront.asked, List.append_assoc]
  result := by
    rw [hback.result, hfront.result, lastOutcome, lastOutcome, lastOutcome,
      List.foldl_append]
  others i hi := by
    rw [collected_append, ← List.append_assoc] at hi
    rw [hback.others i hi]
    apply hfront.others i
    rw [List.length_append] at hi
    exact Nat.le_trans (Nat.le_add_right _ _) hi

/-- One part behind another one. -/
theorem Goes.bind {run : Outcome (ε × ExecState)}
    {next : ε × ExecState → Outcome (δ × ExecState)}
    {front back : List NodeAttempt} {first : ε} {last : δ}
    (hfirst : Goes messages run s pending entries front first)
    (hnext : ∀ mid, Behinds messages s pending entries front mid →
      Goes messages (next (first, mid)) mid (pendingAfter pending front)
        (entries ++ collected messages front) back last) :
    Goes messages (run >>= next) s pending entries (front ++ back) last where
  fits hfits := by
    rw [collected_append, ← List.append_assoc] at hfits
    have hroom : (entries ++ collected messages front).length ≤
        boatHlfabricEndorserMaxNum := by
      rw [List.length_append] at hfits
      omega
    obtain ⟨mid, hrun, hmid⟩ := hfirst.fits hroom
    obtain ⟨s', hlast, hs'⟩ := (hnext mid hmid).fits hfits
    exact ⟨s', by rw [hrun, except_ok_bind, hlast], hmid.trans hs'⟩
  full hfull := by
    rw [collected_append, ← List.append_assoc] at hfull
    by_cases hroom : (entries ++ collected messages front).length ≤
        boatHlfabricEndorserMaxNum
    · obtain ⟨mid, hrun, hmid⟩ := hfirst.fits hroom
      rw [hrun, except_ok_bind]
      exact (hnext mid hmid).full hfull
    · rw [hfirst.full (Nat.lt_of_not_le hroom)]
      rfl

/-- The turn of an endorser that is read alone. -/
theorem askEndorser_goes (hat : StoredAt s pending entries)
    (halone : ReadAlone pending attempt) :
    Goes messages (askEndorser messages .submit attempt s) s pending entries
      [attempt]
      (if (endorsementOf messages attempt).isNone then NodeEnd.continued
        else .counted) := by
  obtain ⟨⟨kept, hkeeps, rfl, hbound⟩, hstores, hroom⟩ := hat
  obtain ⟨mid, hbehind, htx, hask⟩ :=
    askEndorser_alone messages .submit hkeeps hbound halone
  have hleft : ∃ left, mid.fabricHttp2res.Keeps left ∧
      left.length = pendingAfter kept.length [attempt] ∧
      pendingAfter kept.length [attempt] < 2 ^ 32 := by
    obtain ⟨left, hleft, hlt, hlength⟩ := hbehind.left
    exact ⟨left, hleft, hlength, pendingBehind_lt _ _⟩
  rw [hask]
  rcases hanswer : endorsementOf messages attempt with _ | answer
  · have hnone : collected messages [attempt] = [] := by
      rw [collected, List.filterMap_cons_none hanswer, List.filterMap_nil]
    rw [endorsementOf] at hanswer
    rw [hanswer]
    constructor
    · intro _
      refine ⟨mid, rfl, ⟨hleft, ?_, ?_⟩, hbehind.asked, hbehind.result,
        fun i _ => by rw [htx]⟩
      · rw [hnone, List.append_nil, htx]
        exact hstores
      · rw [hnone, List.append_nil]
        exact hroom
    · intro hfull
      rw [hnone, List.append_nil] at hfull
      exact absurd hroom (Nat.not_le.mpr hfull)
  · have hone : collected messages [attempt] = [answer] := by
      rw [collected, List.filterMap_cons_some hanswer, List.filterMap_nil]
    rw [endorsementOf] at hanswer
    rw [hanswer, takeAnswer, htx]
    obtain ⟨hstore, hover⟩ := hstores.store answer
    constructor
    · intro hfits
      rw [hone, List.length_append, List.length_singleton] at hfits
      obtain ⟨tx, hrun, hadded, hothers⟩ := hstore hfits
      rw [hrun]
      refine ⟨_, rfl, ⟨hleft, ?_, ?_⟩, hbehind.asked, hbehind.result,
        fun i hi => hothers i ?_⟩
      · rw [hone]
        exact hadded
      · rw [hone, List.length_append, List.length_singleton]
        exact hfits
      · rw [hone, List.length_append, List.length_singleton] at hi
        exact hi
    · intro hfull
      rw [hone, List.length_append, List.length_singleton] at hfull
      rw [hover (Nat.le_of_lt_succ hfull)]
      rfl

theorem collected_cons_none {rest : List NodeAttempt}
    (hanswer : endorsementOf messages attempt = none) :
    collected messages (attempt :: rest) = collected messages rest :=
  List.filterMap_cons_none hanswer

theorem length_collected_cons {rest : List NodeAttempt}
    {answer : List UInt8 × Endorsement}
    (hanswer : endorsementOf messages attempt = some answer) :
    (collected messages (attempt :: rest)).length =
      (collected messages rest).length + 1 := by
  rw [collected, List.filterMap_cons_some hanswer, List.length_cons]
  rfl

/-- The loop over a group whose nodes are read alone. -/
theorem askGroup_goes (quantities : Nat) (nodes : List NodeAttempt)
    {valid : Nat} (hvalid : valid < quantities ∨ valid = 0)
    (hat : StoredAt s pending entries) (halone : AllReadAlone pending
      (askedOf messages (quantities - valid) nodes)) :
    Goes messages (askGroup messages .submit quantities nodes valid s) s pending
      entries (askedOf messages (quantities - valid) nodes)
      (if max 1 (quantities - valid) ≤ (collected messages nodes).length then
        .reached
      else .exhausted (valid + (collected messages nodes).length)) := by
  induction nodes generalizing s pending entries valid with
  | nil =>
      have hnone : ¬max 1 (quantities - valid) ≤ 0 := by omega
      rw [askedOf, collected, List.filterMap_nil, List.length_nil,
        if_neg hnone]
      exact Goes.nothing hat _
  | cons head tail ih =>
      rw [askedOf] at halone ⊢
      have hturn := @askEndorser_goes messages _ _ _ _ hat halone.1
      rw [askGroup]
      rcases hanswer : endorsementOf messages head with _ | answer
      · rw [hanswer] at hturn halone
        rw [collected_cons_none hanswer]
        exact Goes.bind hturn fun mid hmid => ih hvalid hmid.state halone.2
      · rw [hanswer] at hturn halone
        rw [length_collected_cons hanswer]
        by_cases hlast : quantities - valid ≤ 1
        · have hreached : max 1 (quantities - valid) ≤
              (collected messages tail).length + 1 := by omega
          have hstop : quantities ≤ valid + 1 := by omega
          rw [if_pos hreached]
          simp only [Option.isNone_some, Bool.false_eq_true, if_false,
            if_pos hlast]
          refine Goes.bind hturn fun mid hmid => ?_
          change Goes messages (if quantities ≤ valid + 1 then _ else _) _ _ _ _ _
          rw [if_pos hstop]
          exact Goes.nothing hmid.state _
        · have hgoOn : ¬quantities ≤ valid + 1 := by omega
          have hneeded : quantities - valid - 1 = quantities - (valid + 1) := by
            omega
          simp only [Option.isNone_some, Bool.false_eq_true, if_false,
            if_neg hlast, hneeded] at halone ⊢
          refine Goes.bind hturn fun mid hmid => ?_
          change Goes messages (if quantities ≤ valid + 1 then _ else _) _ _ _ _ _
          rw [if_neg hgoOn]
          have hrest := ih (.inl (by omega)) hmid.state halone.2
          have hsame : (max 1 (quantities - (valid + 1)) ≤
              (collected messages tail).length) =
                (max 1 (quantities - valid) ≤
                  (collected messages tail).length + 1) := by
            apply propext
            omega
          have hcount : valid + 1 + (collected messages tail).length =
              valid + ((collected messages tail).length + 1) := by omega
          simp only [hsame, hcount] at hrest
          exact hrest

theorem layoutMet_cons {group : EndorserGroup} {rest : List EndorserGroup} :
    LayoutMet messages (group :: rest) ↔
      GroupMet messages group ∧ LayoutMet messages rest :=
  List.forall_mem_cons

theorem endsEndorsed_cons {group : EndorserGroup} {rest : List EndorserGroup}
    (hne : rest ≠ []) :
    EndsEndorsed messages (group :: rest) ↔ EndsEndorsed messages rest := by
  rw [EndsEndorsed, EndsEndorsed, List.getLast?_cons_of_ne_nil hne]

theorem endsEndorsed_singleton {group : EndorserGroup} :
    EndsEndorsed messages [group] ↔ collected messages group.answers ≠ [] := by
  constructor
  · rintro ⟨last, hlast, hsome⟩
    obtain rfl := Option.some.inj hlast
    exact hsome
  · exact fun hsome => ⟨group, rfl, hsome⟩

/-- How the loop over a layout ends. -/
def layoutEnd (messages : FabricMessages) (layout : List EndorserGroup) :
    Option BoatResult :=
  if LayoutMet messages layout then
    if EndsEndorsed messages layout then some boatSuccess else none
  else some boatError

/-- In front of other groups a group that is met decides nothing. -/
theorem layoutEnd_cons {group : EndorserGroup} {rest : List EndorserGroup}
    (hmet : GroupMet messages group)
    (hrest : rest = [] → collected messages group.answers = []) :
    layoutEnd messages (group :: rest) = layoutEnd messages rest := by
  have hlayout : LayoutMet messages (group :: rest) ↔ LayoutMet messages rest :=
    layoutMet_cons.trans (and_iff_right hmet)
  have hends : EndsEndorsed messages (group :: rest) ↔
      EndsEndorsed messages rest := by
    by_cases hnil : rest = []
    · subst hnil
      rw [endsEndorsed_singleton]
      refine iff_of_false (fun hsome => hsome (hrest rfl)) ?_
      rintro ⟨_, hlast, _⟩
      cases hlast
    · exact endsEndorsed_cons hnil
  rw [layoutEnd, layoutEnd]
  simp only [hlayout, hends]

/-- The loop over the groups of a layout. -/
theorem askLayout_goes (layout : List EndorserGroup)
    (hat : StoredAt s pending entries)
    (halone : AllReadAlone pending (askedOfLayout messages layout)) :
    Goes messages (askLayout messages .submit layout s) s pending entries
      (askedOfLayout messages layout) (layoutEnd messages layout) := by
  induction layout generalizing s pending entries with
  | nil => exact Goes.nothing hat none
  | cons group rest ih =>
      rw [askedOfLayout, allReadAlone_append] at halone
      have hgroup := @askGroup_goes messages _ _ _ group.quantities
        group.answers 0 (.inr rfl) hat halone.1
      rw [askedOfLayout, askLayout]
      refine Goes.bind hgroup fun mid hmid => ?_
      have hlength : collected messages group.answers = [] ↔
          (collected messages group.answers).length = 0 :=
        List.length_eq_zero_iff.symm
      by_cases hmet : GroupMet messages group
      · have hquantities : group.quantities ≤
            (collected messages group.answers).length := hmet
        rw [if_pos hmet] at halone ⊢
        have hrest := ih hmid.state halone.2
        by_cases hsome : collected messages group.answers = []
        · have hzero := hlength.mp hsome
          have hnot : ¬max 1 (group.quantities - 0) ≤
              (collected messages group.answers).length := by omega
          have hgoOn : ¬0 + (collected messages group.answers).length <
              group.quantities := by omega
          rw [if_neg hnot, layoutEnd_cons hmet fun _ => hsome]
          change Goes messages (if 0 + (collected messages group.answers).length <
            group.quantities then _ else _) _ _ _ _ _
          rw [if_neg hgoOn]
          exact hrest
        · have hpos : (collected messages group.answers).length ≠ 0 :=
            fun hzero => hsome (hlength.mpr hzero)
          have hreached : max 1 (group.quantities - 0) ≤
              (collected messages group.answers).length := by omega
          rw [if_pos hreached]
          cases rest with
          | nil =>
              have hend : layoutEnd messages [group] = some boatSuccess := by
                rw [layoutEnd, if_pos (layoutMet_cons.mpr ⟨hmet, fun _ hmem =>
                  absurd hmem List.not_mem_nil⟩),
                  if_pos (endsEndorsed_singleton.mpr hsome)]
              rw [hend]
              exact Goes.nothing hmid.state _
          | cons next others =>
              rw [layoutEnd_cons hmet fun hnil => by cases hnil]
              exact hrest
      · have hshort : ¬group.quantities ≤
            (collected messages group.answers).length := hmet
        have hnot : ¬max 1 (group.quantities - 0) ≤
            (collected messages group.answers).length := by omega
        have hstop : 0 + (collected messages group.answers).length <
            group.quantities := by omega
        have hend : layoutEnd messages (group :: rest) = some boatError :=
          if_neg fun hall => hmet (layoutMet_cons.mp hall).1
        rw [if_neg hmet, if_neg hnot, hend]
        change Goes messages (if 0 + (collected messages group.answers).length <
          group.quantities then _ else _) _ _ _ _ _
        rw [if_pos hstop]
        exact Goes.nothing hmid.state _

/-- The result of the part. -/
def layoutsResult (messages : FabricMessages) (last : BoatResult) :
    List (List EndorserGroup) → BoatResult
  | [] => last
  | layout :: rest =>
      (layoutEnd messages layout).getD
        (layoutsResult messages
          (lastOutcome last (askedOfLayout messages layout)) rest)

theorem layoutsResult_eq_success_iff (last : BoatResult)
    (layouts : List (List EndorserGroup)) :
    layoutsResult messages last layouts = boatSuccess ↔
      Served messages last layouts := by
  induction layouts generalizing last with
  | nil => exact Iff.rfl
  | cons layout rest ih =>
      rw [layoutsResult, layoutEnd, Served]
      by_cases hmet : LayoutMet messages layout
      · rw [if_pos hmet]
        by_cases hends : EndsEndorsed messages layout
        · rw [if_pos hends]
          exact iff_of_true rfl ⟨hmet, .inl hends⟩
        · rw [if_neg hends, Option.getD_none, ih]
          exact ⟨fun hserved => ⟨hmet, .inr hserved⟩, fun h =>
            h.2.resolve_left hends⟩
      · rw [if_neg hmet]
        have hfailed : boatError ≠ boatSuccess := by decide
        exact iff_of_false hfailed fun h => hmet h.1

/-- The loop over the layouts. -/
theorem askLayouts_goes (layouts : List (List EndorserGroup))
    (hat : StoredAt s pending entries)
    (halone : AllReadAlone pending (askedOfLayouts messages layouts)) :
    Goes messages (askLayouts messages .submit layouts s) s pending entries
      (askedOfLayouts messages layouts)
      (layoutsResult messages s.result layouts) := by
  induction layouts generalizing s pending entries with
  | nil => exact Goes.nothing hat s.result
  | cons layout rest ih =>
      rw [askedOfLayouts, allReadAlone_append] at halone
      have hlayout := @askLayout_goes messages _ _ _ layout hat halone.1
      rw [askedOfLayouts, askLayouts, layoutsResult]
      refine Goes.bind hlayout fun mid hmid => ?_
      by_cases hmet : LayoutMet messages layout
      · by_cases hends : EndsEndorsed messages layout
        · have hnot : ¬PassedBy messages layout := fun h => h.2 hends
          rw [if_neg hnot, layoutEnd, if_pos hmet, if_pos hends]
          exact Goes.nothing hmid.state _
        · have hpassed : PassedBy messages layout := ⟨hmet, hends⟩
          rw [if_pos hpassed] at halone ⊢
          rw [layoutEnd, if_pos hmet, if_neg hends, ← hmid.result]
          exact ih hmid.state halone.2
      · have hnot : ¬PassedBy messages layout := fun h => hmet h.1
        rw [if_neg hnot, layoutEnd, if_neg hmet]
        exact Goes.nothing hmid.state _

end Parts

end BoatFramework
