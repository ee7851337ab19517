/-
The synchronous sends: a send followed by the poll for the receipt.  The poll
is decided by the first answer that is not pending, and whatever that receipt
reports ends it with success.
-/
import BoatFramework.Cita.Signature
import BoatFramework.Tx.Amounts
import BoatFramework.Tx.Quorum
import BoatFramework.Tx.ReceiptPoll

namespace BoatFramework

/-- The value is a text. -/
def Json.isText : Json → Bool
  | .string _ => true
  | _ => false

section Parse

variable (env : SendEnv) (passes : Json → ResultBuffer → Prop)
  (buffer : ResultBuffer)

/-- How a parser takes what an answer tells. -/
inductive Parsed :
    ReceiptAnswer → Outcome (BoatResult × ResultBuffer) → Prop where
  | pending : Parsed .pending (.ok (boatErrorJsonObjIsNull, buffer))
  | unreadable (code : BoatResult) (hcode : code ≠ boatSuccess)
      (hnull : code ≠ boatErrorJsonObjIsNull) :
      Parsed .unreadable (.ok (code, buffer))
  | undefined : Parsed .unreadable (.error .undefined)
  | bare (text : List Char) :
      Parsed (.bare text) (.ok (copyResult env.malloc text buffer))
  | text (text : List Char) :
      Parsed (.reported (.string text))
        (.ok (copyResult env.malloc text buffer))
  | passed (status : Json) (kept : ResultBuffer) (htext : status.isText = false)
      (hpasses : passes status buffer) (hkept : kept.content ≠ none) :
      Parsed (.reported status) (.ok (boatSuccess, kept))
  | stopped (status : Json) (parsed : Outcome (BoatResult × ResultBuffer))
      (htext : status.isText = false) (hpasses : ¬passes status buffer)
      (hparsed : ∀ kept, parsed = .ok (boatSuccess, kept) →
        kept.content = none)
      (hnull : ∀ kept, parsed ≠ .ok (boatErrorJsonObjIsNull, kept)) :
      Parsed (.reported status) parsed

/-- The parser of a poll reads every answer. -/
def ReceiptPoll.Reads (poll : ReceiptPoll) (env : SendEnv)
    (passes : Json → ResultBuffer → Prop) : Prop :=
  ∀ response buffer, Parsed env passes buffer
    (readReceipt env poll.childName (.ok response))
    (poll.parse env response poll.childName buffer)

end Parse

/-- A status that is no text is passed over with what the buffer holds. -/
def passesFilled (_ : Json) (buffer : ResultBuffer) : Prop :=
  buffer.content ≠ none

/-- Quorum looks into a status that is an object for a member without a name. -/
def passesQuorum (env : SendEnv) (status : Json) (buffer : ResultBuffer) :
    Prop :=
  match status with
  | .object children =>
      match (Json.object children).getObjectItem [] with
      | none => False
      | some (.string text) => Held env text buffer
      | some _ => buffer.content ≠ none
  | _ => buffer.content ≠ none

/-- CITA writes `null` over what the buffer holds. -/
def passesCita (_ : Json) (buffer : ResultBuffer) : Prop :=
  buffer.content ≠ none ∧ 5 ≤ buffer.fieldLen

section Parsers

variable {env : SendEnv} {passes : Json → ResultBuffer → Prop}
  {buffer : ResultBuffer}

/-- A parser that leaves the code of success and the buffer behind. -/
theorem Parsed.of_filled {status : Json} (htext : status.isText = false)
    (hpasses : passes status buffer ↔ buffer.content ≠ none) :
    Parsed env passes buffer (.reported status)
      (.ok (boatSuccess, buffer)) := by
  by_cases hfilled : buffer.content = none
  · refine .stopped status _ htext (fun h => hpasses.mp h hfilled) ?_ ?_
    · intro kept hkept
      cases hkept
      exact hfilled
    · intro kept hkept
      cases hkept
  · exact .passed status buffer htext (hpasses.mpr hfilled) hfilled

theorem Held.content (text : List Char) (hheld : Held env text buffer) :
    (copyResult env.malloc text buffer).2.content ≠ none := by
  rw [copyResult_success (Prod.ext hheld rfl)]
  exact Option.some_ne_none text

/-- A parser that copies a text for a status of another type. -/
theorem Parsed.of_copied {status : Json} {text : List Char}
    (htext : status.isText = false)
    (hpasses : passes status buffer ↔ Held env text buffer) :
    Parsed env passes buffer (.reported status)
      (.ok (copyResult env.malloc text buffer)) := by
  by_cases hheld : Held env text buffer
  · have hcopy : copyResult env.malloc text buffer =
        (boatSuccess, (copyResult env.malloc text buffer).2) :=
      Prod.ext hheld rfl
    rw [hcopy]
    exact .passed status _ htext (hpasses.mpr hheld) (hheld.content text)
  · refine .stopped status _ htext (fun h => hheld (hpasses.mp h)) ?_ ?_
    · intro kept hkept
      exact absurd (congrArg Prod.fst (Except.ok.inj hkept)) hheld
    · intro kept hkept
      exact copyResult_ne_null text _ (congrArg Prod.fst (Except.ok.inj hkept))

/-- What the parsers make of the `result` member alike. -/
def resultWith (env : SendEnv) (buffer : ResultBuffer)
    (child : List (List Char × Json) → Outcome (BoatResult × ResultBuffer)) :
    Option Json → Outcome (BoatResult × ResultBuffer)
  | none => .ok (boatErrorWeb3JsonGetobjFail, buffer)
  | some (.object members) => child members
  | some (.string text) => .ok (copyResult env.malloc text buffer)
  | some .null => .ok (boatErrorJsonObjIsNull, buffer)
  | some _ => .ok (boatErrorWeb3JsonParseFail, buffer)

/-- The walk to the `result` member that the parsers share. -/
def parseWith (env : SendEnv) (buffer : ResultBuffer)
    (child : List (List Char × Json) → Outcome (BoatResult × ResultBuffer))
    (parsed : Option Json) : Outcome (BoatResult × ResultBuffer) :=
  match parsed with
  | none => .ok (boatErrorWeb3JsonParseFail, buffer)
  | some json => json.namedItem "result".toList >>= resultWith env buffer child

theorem resultWith_parsed {childName : List Char}
    {child : List (List Char × Json) → Outcome (BoatResult × ResultBuffer)}
    (hchild : ∀ members, Parsed env passes buffer
      (resultAnswer childName (some (.object members))) (child members))
    (result : Option Json) :
    Parsed env passes buffer (resultAnswer childName result)
      (resultWith env buffer child result) := by
  cases result with
  | none => exact .unreadable _ (by decide) (by decide)
  | some result =>
      cases result with
      | null => exact .pending
      | string text => exact .bare text
      | object members => exact hchild members
      | _ => exact .unreadable _ (by decide) (by decide)

theorem parseWith_parsed {childName : List Char} {response : List Char}
    {child : List (List Char × Json) → Outcome (BoatResult × ResultBuffer)}
    (hchild : ∀ members, Parsed env passes buffer
      (resultAnswer childName (some (.object members))) (child members)) :
    Parsed env passes buffer (readReceipt env childName (.ok response))
      (parseWith env buffer child (env.cJSONParse response)) := by
  rw [readReceipt, parseWith.eq_def]
  cases env.cJSONParse response with
  | none => exact .unreadable _ (by decide) (by decide)
  | some json =>
      rw [Option.bind_some]
      simp only
      by_cases hnameless : Nameless (some json)
      · obtain ⟨_, _, hjson⟩ := hnameless
        cases hjson
        exact .undefined
      · rw [Json.namedItem_of_named _ hnameless, Exec.except_ok_bind]
        exact resultWith_parsed hchild _

/-- A parser that takes the `result` member as the shared walk does. -/
theorem parseWith_eq {response : List Char}
    {child : List (List Char × Json) → Outcome (BoatResult × ResultBuffer)}
    {result : Option Json → BoatResult × ResultBuffer}
    (hresult : ∀ found, .ok (result found) =
      resultWith env buffer child found) :
    (match env.cJSONParse response with
      | none => .ok (boatErrorWeb3JsonParseFail, buffer)
      | some json => (json.namedItem "result".toList).map result) =
      parseWith env buffer child (env.cJSONParse response) := by
  rw [parseWith.eq_def]
  cases env.cJSONParse response with
  | none => rfl
  | some json =>
      simp only
      cases json.namedItem "result".toList with
      | error failure => rfl
      | ok found => exact hresult found

/-- A receipt is read where its member is. -/
theorem parsed_member {childName : List Char}
    {members : List (List Char × Json)}
    {parsed : Outcome (BoatResult × ResultBuffer)}
    (hnone : (Json.object members).getObjectItem childName = none →
      parsed = .ok (boatErrorWeb3JsonGetobjFail, buffer))
    (htext : ∀ text, (Json.object members).getObjectItem childName =
        some (.string text) →
      parsed = .ok (copyResult env.malloc text buffer))
    (hother : ∀ status, (Json.object members).getObjectItem childName =
        some status → status.isText = false →
      Parsed env passes buffer (.reported status) parsed) :
    Parsed env passes buffer (resultAnswer childName (some (.object members)))
      parsed := by
  rw [resultAnswer]
  cases hstatus : (Json.object members).getObjectItem childName with
  | none =>
      rw [hnone hstatus]
      exact .unreadable _ (by decide) (by decide)
  | some status =>
      cases hkind : status.isText with
      | false => exact hother status hstatus hkind
      | true =>
          cases status with
          | string text =>
              rw [htext text hstatus]
              exact .text text
          | _ => cases hkind

theorem ethParse_reads (poll : ReceiptPoll)
    (hparse : poll.parse = parseRpcResponseResult) :
    poll.Reads env passesFilled := by
  intro response buffer
  have hwith : poll.parse env response poll.childName buffer =
      parseWith env buffer
        (fun members => .ok (ethParseChild env.malloc poll.childName
          (.object members) buffer)) (env.cJSONParse response) := by
    rw [hparse]
    refine parseWith_eq fun found => ?_
    cases found with
    | none => rfl
    | some found => cases found <;> rfl
  rw [hwith]
  refine parseWith_parsed fun members => parsed_member ?_ ?_ ?_
  · intro hnone
    rw [ethParseChild, hnone]
  · intro text htext
    rw [ethParseChild, htext]
  · intro status hstatus htext
    rw [ethParseChild, hstatus]
    cases status with
    | string => cases htext
    | _ => exact .of_filled rfl Iff.rfl

/-- The grandchild that Quorum looks for in a status that is an object. -/
theorem quorumChild_parsed (children : List (List Char × Json)) :
    Parsed env (passesQuorum env) buffer (.reported (.object children))
      (.ok (ethParseChild env.malloc [] (.object children) buffer)) := by
  cases hchild : (Json.object children).getObjectItem [] with
  | none =>
      rw [ethParseChild, hchild]
      refine .stopped _ _ rfl ?_ ?_ ?_
      · simp [passesQuorum, hchild]
      · intro kept hkept
        cases hkept
      · intro kept hkept
        cases hkept
  | some child =>
      rw [ethParseChild, hchild]
      cases child with
      | string text =>
          exact .of_copied rfl (by simp only [passesQuorum, hchild])
      | _ => exact .of_filled rfl (by simp only [passesQuorum, hchild])

/-- What Quorum makes of a receipt. -/
def quorumMember (env : SendEnv) (childName : List Char)
    (buffer : ResultBuffer) (members : List (List Char × Json)) :
    Outcome (BoatResult × ResultBuffer) :=
  .ok (match (Json.object members).getObjectItem childName with
    | none => (boatErrorWeb3JsonGetobjFail, buffer)
    | some (.object children) =>
        ethParseChild env.malloc [] (.object children) buffer
    | some (.string text) => copyResult env.malloc text buffer
    | some _ => (boatSuccess, buffer))

theorem quorumReceiptPoll_reads :
    quorumReceiptPoll.Reads env (passesQuorum env) := by
  intro response buffer
  have hwith : quorumReceiptPoll.parse env response
      quorumReceiptPoll.childName buffer =
      parseWith env buffer
        (quorumMember env quorumReceiptPoll.childName buffer)
        (env.cJSONParse response) := by
    refine parseWith_eq fun found => ?_
    cases found with
    | none => rfl
    | some found => cases found <;> rfl
  rw [hwith]
  refine parseWith_parsed fun members => parsed_member ?_ ?_ ?_
  · intro hnone
    rw [quorumMember, hnone]
  · intro text htext
    rw [quorumMember, htext]
  · intro status hstatus htext
    rw [quorumMember, hstatus]
    cases status with
    | string => cases htext
    | object children => exact quorumChild_parsed children
    | _ => exact .of_filled rfl Iff.rfl

/-- What CITA makes of a receipt. -/
def citaMember (env : SendEnv) (childName : List Char) (buffer : ResultBuffer)
    (members : List (List Char × Json)) :
    Outcome (BoatResult × ResultBuffer) :=
  match (Json.object members).getObjectItem childName with
  | none => .ok (boatErrorWeb3JsonGetobjFail, buffer)
  | some (.string text) => .ok (copyResult env.malloc text buffer)
  | some _ => (citaCopyNull buffer).map (boatSuccess, ·)

/-- A message that is no text is taken where the buffer holds five bytes. -/
theorem citaCopyNull_parsed {status : Json} (htext : status.isText = false) :
    Parsed env passesCita buffer (.reported status)
      ((citaCopyNull buffer).map (boatSuccess, ·)) := by
  unfold citaCopyNull
  split
  next hsmall =>
    refine .stopped status _ htext ?_ ?_ ?_
    · rintro ⟨hfilled, hlen⟩
      rcases hsmall with hnone | hlt
      · exact hfilled hnone
      · exact absurd hlt (Nat.not_lt.mpr hlen)
    · intro kept hkept
      cases hkept
    · intro kept hkept
      cases hkept
  next hroom =>
    rw [not_or, Nat.not_lt] at hroom
    exact .passed status _ htext hroom (Option.some_ne_none _)

theorem citaReceiptPoll_reads : citaReceiptPoll.Reads env passesCita := by
  intro response buffer
  have hwith : citaReceiptPoll.parse env response citaReceiptPoll.childName
      buffer =
      parseWith env buffer (citaMember env citaReceiptPoll.childName buffer)
        (env.cJSONParse response) := by
    have hresult (found : Option Json) :
        citaParseResult env.malloc citaReceiptPoll.childName buffer found =
          resultWith env buffer
            (citaMember env citaReceiptPoll.childName buffer) found := by
      cases found with
      | none => rfl
      | some found => cases found <;> rfl
    rw [parseWith.eq_def]
    change citaParseRpcResponseResult env response _ buffer = _
    rw [citaParseRpcResponseResult, citaParseJsonResult]
    cases env.cJSONParse response with
    | none => rfl
    | some json => exact congrArg (json.namedItem _ >>= ·) (funext hresult)
  rw [hwith]
  refine parseWith_parsed fun members => parsed_member ?_ ?_ ?_
  · intro hnone
    rw [citaMember, hnone]
  · intro text htext
    rw [citaMember, htext]
  · intro status hstatus htext
    rw [citaMember, hstatus]
    cases status with
    | string => cases htext
    | _ => exact citaCopyNull_parsed htext

end Parsers

section Ends

variable {env : SendEnv} {passes : Json → ResultBuffer → Prop}
  {buffer : ResultBuffer}

theorem Parsed.ne_null {told : ReceiptAnswer}
    {parsed : Outcome (BoatResult × ResultBuffer)}
    (hparsed : Parsed env passes buffer told parsed)
    (hends : told.waits = false) (kept : ResultBuffer) :
    parsed ≠ .ok (boatErrorJsonObjIsNull, kept) := by
  intro hkept
  cases hparsed with
  | pending => cases hends
  | unreadable code _ hnull =>
      exact hnull (congrArg Prod.fst (Except.ok.inj hkept))
  | undefined => cases hkept
  | bare text =>
      exact copyResult_ne_null text _ (congrArg Prod.fst (Except.ok.inj hkept))
  | text text =>
      exact copyResult_ne_null text _ (congrArg Prod.fst (Except.ok.inj hkept))
  | passed => cases hkept
  | stopped _ _ _ _ _ hnull => exact hnull kept hkept

/-- The parse succeeds with a text in the buffer for the answers that end the
poll with success. -/
theorem Parsed.success_iff {told : ReceiptAnswer}
    {parsed : Outcome (BoatResult × ResultBuffer)}
    (hparsed : Parsed env passes buffer told parsed) :
    (∃ kept, parsed = .ok (boatSuccess, kept) ∧ kept.content ≠ none) ↔
      told.Ends passes env buffer := by
  have hcopy (text : List Char) :
      (∃ kept, Except.ok (copyResult env.malloc text buffer) =
          (.ok (boatSuccess, kept) : Outcome _) ∧ kept.content ≠ none) ↔
        Held env text buffer := by
    constructor
    · rintro ⟨kept, hkept, _⟩
      exact congrArg Prod.fst (Except.ok.inj hkept)
    · intro hheld
      exact ⟨_, congrArg Except.ok (Prod.ext hheld rfl), hheld.content text⟩
  cases hparsed with
  | pending =>
      refine iff_of_false ?_ id
      rintro ⟨kept, hkept, _⟩
      cases hkept
  | unreadable code hcode _ =>
      refine iff_of_false ?_ id
      rintro ⟨kept, hkept, _⟩
      exact hcode (congrArg Prod.fst (Except.ok.inj hkept))
  | undefined =>
      refine iff_of_false ?_ id
      rintro ⟨kept, hkept, _⟩
      cases hkept
  | bare text => exact hcopy text
  | text text => exact hcopy text
  | passed status kept htext hpasses hkept =>
      refine iff_of_true ⟨kept, rfl, hkept⟩ ?_
      cases status with
      | string => cases htext
      | _ => exact hpasses
  | stopped status parsed htext hpasses hparsed _ =>
      refine iff_of_false ?_ ?_
      · rintro ⟨kept, hkept, hcontent⟩
        exact hcontent (hparsed kept hkept)
      · cases status with
        | string => cases htext
        | _ => exact hpasses

theorem ReceiptAnswer.Ends.waits {told : ReceiptAnswer}
    (hends : told.Ends passes env buffer) : told.waits = false := by
  cases told with
  | pending => exact hends.elim
  | _ => rfl

theorem eq_pending_of_waits {told : ReceiptAnswer}
    (hwaits : told.waits = true) : told = .pending := by
  cases told with
  | pending => rfl
  | _ => cases hwaits

theorem compare_ok_iff {poll : ReceiptPoll} :
    (∃ kept, poll.compare buffer = .ok () kept) ↔ buffer.content ≠ none := by
  unfold ReceiptPoll.compare
  cases hcontent : buffer.content with
  | none =>
      refine iff_of_false ?_ fun h => h rfl
      rintro ⟨kept, hkept⟩
      cases hkept
  | some status =>
      simp only
      exact iff_of_true ⟨buffer, ite_self _⟩ (Option.some_ne_none status)

/-- What was parsed ends the poll with success: with the code of success and a
text to compare. -/
theorem judge_ok_iff {poll : ReceiptPoll}
    (parsed : BoatResult × ResultBuffer) :
    (∃ kept, poll.judge ReceiptPoll.timedOut parsed buffer = .ok () kept) ↔
      ∃ kept, Except.ok parsed = (.ok (boatSuccess, kept) : Outcome _) ∧
        kept.content ≠ none := by
  obtain ⟨code, parsed⟩ := parsed
  simp only [ReceiptPoll.judge]
  split
  next hnull =>
    refine iff_of_false ?_ ?_
    · rintro ⟨kept, hkept⟩
      cases hkept
    · rintro ⟨kept, hkept, _⟩
      cases hkept
      cases hnull
  next =>
    split
    next hcode =>
      rw [compare_ok_iff]
      constructor
      · intro hfilled
        exact ⟨parsed, congrArg Except.ok (Prod.ext hcode rfl), hfilled⟩
      · rintro ⟨kept, hkept, hfilled⟩
        cases hkept
        exact hfilled
    next hcode =>
      refine iff_of_false ?_ ?_
      · rintro ⟨kept, hkept⟩
        cases hkept
      · rintro ⟨kept, hkept, _⟩
        exact hcode (congrArg Prod.fst (Except.ok.inj hkept))

end Ends

section Rounds

variable {poll : ReceiptPoll} {env : SendEnv}
  {passes : Json → ResultBuffer → Prop}

/-- A pending answer is passed over with the buffer as it was. -/
theorem ReceiptPoll.Reads.round_waits (hreads : poll.Reads env passes)
    (again : ReceiptM) (answer : NodeAnswer)
    (hwaits : (readReceipt env poll.childName answer).waits = true) :
    poll.round env again answer = again := by
  funext buffer
  cases answer with
  | error code => cases hwaits
  | ok response =>
      have hparsed := hreads response buffer
      simp only [ReceiptPoll.round]
      revert hparsed hwaits
      generalize poll.parse env response poll.childName buffer = parsed
      generalize readReceipt env poll.childName (.ok response) = told
      intro hwaits hparsed
      cases hparsed with
      | pending => exact if_pos rfl
      | _ => cases hwaits

/-- Any other answer ends the loop: the rest of it is not run. -/
theorem ReceiptPoll.Reads.round_ends (hreads : poll.Reads env passes)
    (again : ReceiptM) (answer : NodeAnswer)
    (hends : (readReceipt env poll.childName answer).waits = false) :
    poll.round env again answer =
      poll.round env ReceiptPoll.timedOut answer := by
  funext buffer
  cases answer with
  | error code => rfl
  | ok response =>
      have hparsed := hreads response buffer
      simp only [ReceiptPoll.round]
      revert hparsed hends
      generalize poll.parse env response poll.childName buffer = parsed
      generalize readReceipt env poll.childName (.ok response) = told
      intro hends hparsed
      have hnull := hparsed.ne_null hends
      cases parsed with
      | error failure => rfl
      | ok parsed =>
          have hcode : parsed.1 ≠ boatErrorJsonObjIsNull :=
            fun heq => hnull parsed.2 (heq ▸ rfl)
          simp only [ReceiptPoll.judge, if_neg hcode]

/-- A round ends with success where the answer does. -/
theorem ReceiptPoll.Reads.round_ok_iff (hreads : poll.Reads env passes)
    (answer : NodeAnswer) (buffer : ResultBuffer) :
    (∃ kept, poll.round env ReceiptPoll.timedOut answer buffer = .ok () kept) ↔
      (readReceipt env poll.childName answer).Ends passes env buffer := by
  cases answer with
  | error code =>
      refine iff_of_false ?_ id
      rintro ⟨kept, hkept⟩
      cases hkept
  | ok response =>
      rw [← (hreads response buffer).success_iff]
      simp only [ReceiptPoll.round]
      cases poll.parse env response poll.childName buffer with
      | error failure =>
          refine iff_of_false ?_ ?_
          · rintro ⟨kept, hkept⟩
            cases hkept
          · rintro ⟨kept, hkept, _⟩
            cases hkept
      | ok parsed => exact judge_ok_iff parsed

/-- The poll succeeds where the first answer that is not pending ends it so. -/
def ReceiptPoll.EndsWell (poll : ReceiptPoll) (env : SendEnv)
    (passes : Json → ResultBuffer → Prop) (answers : Nat → NodeAnswer)
    (buffer : ResultBuffer) : Prop :=
  ∃ n < poll.polls,
    (∀ m < n, readReceipt env poll.childName (answers m) = .pending) ∧
    (readReceipt env poll.childName (answers n)).Ends passes env buffer

theorem ReceiptPoll.Reads.wait_ok_iff (hreads : poll.Reads env passes)
    (answers : Nat → NodeAnswer) (buffer : ResultBuffer) :
    (∃ kept, poll.wait env answers buffer = .ok () kept) ↔
      poll.EndsWell env passes answers buffer := by
  have hrun (kept : ResultBuffer) : poll.wait env answers buffer =
        .ok () kept ↔
      ∃ n < poll.polls,
        (∀ m < n, (readReceipt env poll.childName (answers m)).waits = true) ∧
        (readReceipt env poll.childName (answers n)).waits = false ∧
        poll.round env ReceiptPoll.timedOut (answers n) buffer =
          .ok () kept := by
    refine Poll.run_eq_ok hreads.round_waits hreads.round_ends ?_
    intro _ _ hexpired
    cases hexpired
  constructor
  · rintro ⟨kept, hkept⟩
    obtain ⟨n, hlt, hbefore, _, hround⟩ := (hrun kept).mp hkept
    exact ⟨n, hlt, fun m hm => eq_pending_of_waits (hbefore m hm),
      (hreads.round_ok_iff _ _).mp ⟨kept, hround⟩⟩
  · rintro ⟨n, hlt, hbefore, hends⟩
    obtain ⟨kept, hround⟩ := (hreads.round_ok_iff _ _).mpr hends
    exact ⟨kept, (hrun kept).mpr ⟨n, hlt,
      fun m hm => congrArg ReceiptAnswer.waits (hbefore m hm),
      hends.waits, hround⟩⟩

end Rounds

section Sends

variable (env : SendEnv) (node : ReceiptAnswers)

/-- The poll for the hash that a sender left in the transaction. -/
def waitReceipt (poll : ReceiptPoll) (extra : BoatTx → List (List Char)) :
    SendM Unit :=
  fun state =>
    match poll.wait env
        (node ⟨poll.methodName, txHashStr state, extra state.tx⟩)
        state.resultBuf with
    | .ok _ buffer => .ok () (state.setResultBuf buffer)
    | .error failure buffer => .error failure (state.setResultBuf buffer)

/-- A sender, and the poll that a synchronous transaction has behind it. -/
structure SyncSend where
  send : SendM Unit
  poll : ReceiptPoll
  extra : BoatTx → List (List Char)

/-- `BoatPlatONSendRawtxWithReceipt` and its copies. -/
def SyncSend.sendRawtxWithReceipt (sync : SyncSend) : SendM Unit := do
  sync.send
  waitReceipt env node sync.poll sync.extra

/-- `BoatPlatONTxSend` and its copies. -/
def SyncSend.txSend (sync : SyncSend) (isSyncTx : Bool) : SendM Unit :=
  if isSyncTx then sync.sendRawtxWithReceipt env node else sync.send

/-- The text of the group id. -/
def groupidHexstr (tx : BoatTx) : List Char :=
  utilityBinToHex (tx.rawtxFields.groupid.field.bytes.take
    tx.rawtxFields.groupid.fieldLen) .leftTrimQuantity false false

/-- A private transaction is filled in first. -/
def quorumSend (fillTransaction : QuorumFillRequest → NodeAnswer)
    (privatefor : Block 44) : SendM Unit :=
  fun state =>
    if state.tx.isPrivate then
      quorumSendFilltx env fillTransaction privatefor state
    else quorumSendRawtx env state

/-- `VenachainSendRawtx` is `EthSendRawtx` under another name. -/
def venachainSendRawtx : SendM Unit := sendRawtx ethSender env

def boatEthSync : SyncSend := ⟨ethSendRawtx env, ethReceiptPoll, fun _ => []⟩

def boatPlatONSync : SyncSend :=
  ⟨platonSendRawtx env, platonReceiptPoll, fun _ => []⟩

def boatPlatoneSync : SyncSend :=
  ⟨platoneSendRawtx env, platoneReceiptPoll, fun _ => []⟩

def boatVenachainSync : SyncSend :=
  ⟨venachainSendRawtx env, venachainReceiptPoll, fun _ => []⟩

def boatQuorumSync (fillTransaction : QuorumFillRequest → NodeAnswer)
    (privatefor : Block 44) : SyncSend :=
  ⟨quorumSend env fillTransaction privatefor, quorumReceiptPoll, fun _ => []⟩

def boatFiscobcosSync : SyncSend :=
  ⟨fiscobcosSendRawtx env, fiscobcosReceiptPoll, fun tx => [groupidHexstr tx]⟩

def boatPlatONTxSend := (boatPlatONSync env).txSend env node
def boatPlatoneTxSend := (boatPlatoneSync env).txSend env node
def boatVenachainTxSend := (boatVenachainSync env).txSend env node
def boatFiscobcosTxSend := (boatFiscobcosSync env).txSend env node

def boatQuorumTxSend (fillTransaction : QuorumFillRequest → NodeAnswer)
    (privatefor : Block 44) :=
  (boatQuorumSync env fillTransaction privatefor).txSend env node

end Sends

/-- The chains whose senders share a state. -/
inductive SyncChain where
  | ethereum | platon | platone | venachain | fiscobcos
  | quorum (fillTransaction : QuorumFillRequest → NodeAnswer)
      (privatefor : Block 44)

def SyncChain.sync (env : SendEnv) : SyncChain → SyncSend
  | .ethereum => boatEthSync env
  | .platon => boatPlatONSync env
  | .platone => boatPlatoneSync env
  | .venachain => boatVenachainSync env
  | .fiscobcos => boatFiscobcosSync env
  | .quorum fillTransaction privatefor =>
      boatQuorumSync env fillTransaction privatefor

/-- When the parser of a chain passes over a status that is no text. -/
def SyncChain.passes (env : SendEnv) : SyncChain → Json → ResultBuffer → Prop
  | .quorum _ _ => passesQuorum env
  | _ => passesFilled

theorem SyncChain.reads (env : SendEnv) (chain : SyncChain) :
    (chain.sync env).poll.Reads env (chain.passes env) := by
  cases chain with
  | quorum => exact quorumReceiptPoll_reads
  | _ => exact ethParse_reads _ rfl

section Sync

variable {env : SendEnv} {node : ReceiptAnswers} {sync : SyncSend}
  {passes : Json → ResultBuffer → Prop} {before : SendState}

/-- The answers to the receipt queries behind a send. -/
def SyncSend.answers (sync : SyncSend) (node : ReceiptAnswers)
    (sent : SendState) : Nat → NodeAnswer :=
  node ⟨sync.poll.methodName, txHashStr sent, sync.extra sent.tx⟩

theorem waitReceipt_ok_iff (hreads : sync.poll.Reads env passes)
    (sent : SendState) :
    (∃ after, waitReceipt env node sync.poll sync.extra sent =
        .ok () after) ↔
      sync.poll.EndsWell env passes (sync.answers node sent)
        sent.resultBuf := by
  rw [← hreads.wait_ok_iff, SyncSend.answers]
  unfold waitReceipt
  cases sync.poll.wait env _ sent.resultBuf with
  | ok _ buffer => exact iff_of_true ⟨_, rfl⟩ ⟨buffer, rfl⟩
  | error failure buffer =>
      refine iff_of_false ?_ ?_
      · rintro ⟨after, hafter⟩
        cases hafter
      · rintro ⟨kept, hkept⟩
        cases hkept

theorem SyncSend.txSend_ok_iff (hreads : sync.poll.Reads env passes) :
    (∃ after, sync.txSend env node true before = .ok () after) ↔
      ∃ sent, sync.send before = .ok () sent ∧
        sync.poll.EndsWell env passes (sync.answers node sent)
          sent.resultBuf := by
  constructor
  · rintro ⟨after, hafter⟩
    obtain ⟨_, sent, hsend, hwait⟩ := Exec.bind_eq_ok.mp hafter
    exact ⟨sent, hsend, (waitReceipt_ok_iff hreads sent).mp ⟨after, hwait⟩⟩
  · rintro ⟨sent, hsend, hends⟩
    obtain ⟨after, hwait⟩ := (waitReceipt_ok_iff hreads sent).mpr hends
    exact ⟨after, Exec.bind_eq_ok.mpr ⟨(), sent, hsend, hwait⟩⟩

end Sync

/-- A synchronous send of any of the chains succeeds exactly when the
transaction went out and the first answer behind pending ones, within the
budget of polls, is a text or a receipt with the member, whatever it reports. -/
theorem syncSend_ok_iff (env : SendEnv) (node : ReceiptAnswers)
    (chain : SyncChain) (before : SendState) :
    (∃ after, (chain.sync env).txSend env node true before = .ok () after) ↔
      ∃ sent, (chain.sync env).send before = .ok () sent ∧
        (chain.sync env).poll.EndsWell env (chain.passes env)
          ((chain.sync env).answers node sent) sent.resultBuf :=
  SyncSend.txSend_ok_iff (chain.reads env)

section Ethereum

/-- Run the poll of the result buffer inside the state of a sender. -/
def onResultBuf (program : ReceiptM) : SendM Unit :=
  fun state =>
    match program state.resultBuf with
    | .ok _ buffer => .ok () (state.setResultBuf buffer)
    | .error failure buffer => .error failure (state.setResultBuf buffer)

/-- The judgement written out for Ethereum is the shared one. -/
theorem judgeParsed_eq {rest : ReceiptM} {again : SendM Unit}
    (hrest : ∀ state, again state = onResultBuf rest state)
    (parsed : BoatResult × ResultBuffer) (state : SendState) :
    judgeParsed again parsed state =
      onResultBuf (ethReceiptPoll.judge rest parsed) state := by
  simp only [judgeParsed, onResultBuf, ReceiptPoll.judge]
  split
  · exact hrest (state.setResultBuf parsed.2)
  · split
    · unfold judgeReceipt ReceiptPoll.compare
      simp only [SendState.setResultBuf_resultBuf]
      cases parsed.2.content with
      | none => rfl
      | some status =>
          simp only [ite_self]
    · rfl

/-- The poll written out for Ethereum is an instance of the shared one; by
induction on the polls left. -/
theorem pollReceipt_eq (env : SendEnv) (answers : Nat → NodeAnswer)
    (polls poll : Nat) (state : SendState) :
    pollReceipt env answers polls poll state =
      onResultBuf (Poll.run (ethReceiptPoll.round env) ReceiptPoll.timedOut
        answers polls poll) state := by
  induction polls generalizing poll state with
  | zero => rfl
  | succ polls ih =>
      rw [pollReceipt, Poll.run]
      cases answers poll with
      | error code => rfl
      | ok response =>
          have hparse : ethReceiptPoll.parse env response
              ethReceiptPoll.childName state.resultBuf =
              parseStatus env response state.resultBuf := rfl
          simp only [judgeAnswer, onResultBuf, ReceiptPoll.round, hparse]
          cases parseStatus env response state.resultBuf with
          | error failure => rfl
          | ok parsed => exact judgeParsed_eq (ih (poll + 1)) parsed state

theorem boatEthTxSend_eq (env : SendEnv) (node : ReceiptAnswers)
    (isSyncTx : Bool) :
    boatEthTxSend env
        (fun txHashStr => node ⟨ethReceiptPoll.methodName, txHashStr, []⟩)
        isSyncTx =
      (boatEthSync env).txSend env node isSyncTx := by
  cases isSyncTx with
  | false => rfl
  | true =>
      refine congrArg (ethSendRawtx env >>= ·) ?_
      funext _ sent
      exact pollReceipt_eq env _ receiptPolls 0 sent

end Ethereum

section Cita

variable (env : SendEnv) (node : ReceiptAnswers)

/-- `BoatCitaGetTransactionReceipt`. -/
def boatCitaGetTransactionReceipt : CitaM Unit :=
  fun state =>
    let txHashStr := utilityBinToHex
      (state.tx.txHash.field.bytes.take state.tx.txHash.fieldLen)
      .leftTrimUnfmtData true false
    match citaReceiptPoll.wait env
        (node ⟨citaReceiptPoll.methodName, txHashStr, []⟩)
        state.resultBuf with
    | .ok _ resultBuf => .ok () { state with resultBuf }
    | .error failure resultBuf => .error failure { state with resultBuf }

/-- The poll follows a send that leaves the code of success, also one that was
left early with it. -/
def boatCitaSendRawtxWithReceipt : CitaM Unit :=
  fun state =>
    match citaSendRawtx env state with
    | .ok _ sent => boatCitaGetTransactionReceipt env node sent
    | .error failure sent =>
        if failure = .code boatSuccess then
          boatCitaGetTransactionReceipt env node sent
        else .error failure sent

def boatCitaTxSend (isSyncTx : Bool) : CitaM Unit :=
  if isSyncTx then boatCitaSendRawtxWithReceipt env node else citaSendRawtx env

end Cita

section CitaSync

variable {env : SendEnv} {node : ReceiptAnswers} {before sent : CitaState}

/-- No run of the program is left with the code of success. -/
def NeverBlank {α : Type} (program : CitaM α) : Prop :=
  ∀ state left, program state ≠ .error (.code boatSuccess) left

theorem NeverBlank.bind {α β : Type} {first : CitaM α} {next : α → CitaM β}
    (hfirst : NeverBlank first) (hnext : ∀ a, NeverBlank (next a)) :
    NeverBlank (first >>= next) := by
  intro state left hrun
  rcases Exec.bind_eq_error.mp hrun with hrun | ⟨a, mid, _, hrun⟩
  · exact hfirst state left hrun
  · exact hnext a mid left hrun

theorem citaMalloc_neverBlank {refused : BoatResult} {size : Nat}
    (hrefused : refused ≠ boatSuccess) :
    NeverBlank (citaMalloc env refused size) := by
  intro state left hrun
  unfold citaMalloc at hrun
  split at hrun
  · cases hrun
    exact hrefused rfl
  · split at hrun <;> cases hrun

theorem citaSign_neverBlank (message : List UInt8) :
    NeverBlank (citaSign env message) := by
  apply NeverBlank.bind
  · intro state left hrun
    cases hrun
  · intro _ state left hrun
    cases hsign : boatSignature env (env.keccak256 message) with
    | error code =>
        rw [hsign] at hrun
        cases hrun
    | ok signature =>
        rw [hsign] at hrun
        cases hrun

/-- A parse of CITA fails by undefined behaviour only. -/
theorem citaParse_error {response childName : List Char}
    {buffer : ResultBuffer} {failure : Failure}
    (hparse : citaParseJsonResult env.cJSONParse env.malloc response childName
      buffer = .error failure) : failure = .undefined := by
  have hcopy (hnull : (citaCopyNull buffer).map (boatSuccess, ·) =
      .error failure) : failure = .undefined := by
    unfold citaCopyNull at hnull
    split at hnull
    · cases hnull
      rfl
    · cases hnull
  rw [citaParseJsonResult] at hparse
  cases hjson : env.cJSONParse response with
  | none =>
      rw [hjson] at hparse
      cases hparse
  | some json =>
      rw [hjson] at hparse
      simp only at hparse
      by_cases hnameless : Nameless (some json)
      · obtain ⟨_, _, harray⟩ := hnameless
        cases harray
        cases hparse
        rfl
      rw [Json.namedItem_of_named _ hnameless, Exec.except_ok_bind] at hparse
      generalize json.getObjectItem "result".toList = result at hparse
      cases result with
      | none => cases hparse
      | some result =>
          cases result with
          | object members =>
              simp only [citaParseResult] at hparse
              generalize (Json.object members).getObjectItem childName =
                status at hparse
              cases status with
              | none => cases hparse
              | some status =>
                  cases status with
                  | string text => cases hparse
                  | _ => exact hcopy hparse
          | _ => cases hparse

theorem citaKeepAnswer_neverBlank (response : List Char) :
    NeverBlank (citaKeepAnswer env response) := by
  intro state left hrun
  unfold citaKeepAnswer at hrun
  split at hrun
  next failure hparse =>
    cases hrun
    cases citaParse_error hparse
  next result resultBuf hparse =>
    by_cases hcode : result = boatSuccess
    · subst hcode
      cases hrun
    · simp only [ne_eq, hcode, not_false_eq_true, if_true] at hrun
      cases hrun
      exact hcode rfl

theorem citaSendToNode_neverBlank (signedtx : List Char) :
    NeverBlank (citaSendToNode env signedtx) := by
  apply NeverBlank.bind
  · intro state left hrun
    cases hrun
  · intro _
    split
    next code _ =>
      intro state left hrun
      exact code.2 (Failure.code.inj (EStateM.Result.error.inj hrun).1)
    next response _ => exact citaKeepAnswer_neverBlank response

/-- Memory for the message of a transaction is refused: the send is left early,
with nothing sent. -/
def MessageRefused (env : SendEnv) (before : CitaState) : Prop :=
  (env.malloc 33).isSome ∧ ∃ transaction,
    citaTransaction before.tx = .ok transaction ∧
    env.malloc (buint32 transaction.pack.length) = none

theorem citaTransaction_error {tx : BoatCitaTx} {failure : Failure}
    (htransaction : citaTransaction tx = .error failure) :
    failure = .undefined := by
  unfold citaTransaction fieldBytes at htransaction
  split at htransaction
  · cases htransaction
    rfl
  · rw [Exec.except_ok_bind] at htransaction
    split at htransaction <;> cases htransaction
    rfl

theorem citaMalloc_ok_iff {refused : BoatResult} {size : Nat}
    {mid : CitaState} :
    citaMalloc env refused size before = .ok () mid ↔
      mid = before ∧ (env.malloc (buint32 size)).isSome ∧
        size ≤ buint32 size := by
  unfold citaMalloc
  cases env.malloc (buint32 size) with
  | none => simp
  | some block =>
      simp only
      split
      next hlt => simp [hlt]
      next hle => simp [Nat.not_lt.mp hle, eq_comm]

theorem ofOutcome_ok {α : Type} {outcome : Outcome α} {a : α}
    (houtcome : outcome = .ok a) :
    CitaM.ofOutcome outcome before = .ok a before := by
  rw [houtcome]
  rfl

theorem ofOutcome_neverBlank {α : Type} {outcome : Outcome α}
    (houtcome : ∀ failure, outcome = .error failure → failure = .undefined) :
    NeverBlank (CitaM.ofOutcome outcome) := by
  intro state left hrun
  cases outcome with
  | ok a => cases hrun
  | error failure =>
      cases houtcome failure rfl
      cases hrun

/-- The steps behind the message: the signature and the text. -/
theorem citaRest_neverBlank (transaction : Transaction) :
    NeverBlank (do
      let signature ← citaSign env transaction.pack
      let unverified : UnverifiedTransaction := {
        transaction := transaction
        signature := (citaSignResult signature).1 }
      citaMalloc env boatErrorCommonGenSignFail unverified.pack.length
      citaMalloc env boatErrorCommonOutOfMemory
        (unverified.pack.length * 2 + 2 + 1)
      pure unverified.hexStr) := by
  refine (citaSign_neverBlank _).bind fun signature => ?_
  refine (citaMalloc_neverBlank (by decide)).bind fun _ => ?_
  refine (citaMalloc_neverBlank (by decide)).bind fun _ => ?_
  intro state left hrun
  cases hrun

/-- Only a refused message leaves the steps in front of the request with the
code of success. -/
theorem citaBuildRawtx_blank_iff :
    citaBuildRawtx env before = .error (.code boatSuccess) sent ↔
      sent = before ∧ MessageRefused env before := by
  constructor
  · intro hbuild
    rcases Exec.bind_eq_error.mp hbuild with hfirst | ⟨_, _, hnonce, hrest⟩
    · exact absurd hfirst (citaMalloc_neverBlank (by decide) before sent)
    clear hbuild
    obtain ⟨rfl, hsome, _⟩ := citaMalloc_ok_iff.mp hnonce
    rcases Exec.bind_eq_error.mp hrest with hget | ⟨_, _, hget, hmessage⟩
    · cases hget
    cases hget
    rcases Exec.bind_eq_error.mp hmessage with hfields |
      ⟨transaction, mid, hfields, hpack⟩
    · exact absurd hfields (ofOutcome_neverBlank
        (fun _ => citaTransaction_error) _ sent)
    obtain ⟨htransaction, rfl⟩ := citaOutcome_eq_ok hfields
    rcases Exec.bind_eq_error.mp hpack with hmalloc | ⟨_, mid, _, hsign⟩
    · unfold citaMalloc at hmalloc
      split at hmalloc
      next hnone =>
        cases hmalloc
        exact ⟨rfl, hsome, transaction, htransaction, hnone⟩
      next => split at hmalloc <;> cases hmalloc
    · exact absurd hsign (citaRest_neverBlank transaction mid sent)
  · rintro ⟨rfl, hsome, transaction, htransaction, hnone⟩
    have hnonce : citaMalloc env boatErrorCommonOutOfMemory 33 sent =
        .ok () sent :=
      citaMalloc_ok_iff.mpr ⟨rfl, hsome, by decide⟩
    have hfields : CitaM.ofOutcome (citaTransaction sent.tx) sent =
        .ok transaction sent :=
      ofOutcome_ok htransaction
    refine (Exec.bind_ok hnonce).trans ?_
    refine (Exec.bind_ok hfields).trans (Exec.bind_error ?_)
    unfold citaMalloc
    rw [hnone]

theorem citaSendRawtx_blank_iff :
    citaSendRawtx env before = .error (.code boatSuccess) sent ↔
      sent = before ∧ MessageRefused env before := by
  rw [← citaBuildRawtx_blank_iff]
  constructor
  · intro hrun
    rcases Exec.bind_eq_error.mp hrun with hrun | ⟨signedtx, mid, _, hrun⟩
    · exact hrun
    · exact absurd hrun (citaSendToNode_neverBlank signedtx mid sent)
  · exact Exec.bind_error

/-- The answers to the receipt queries for the hash in a transaction. -/
def citaAnswers (node : ReceiptAnswers) (sent : CitaState) :
    Nat → NodeAnswer :=
  node ⟨citaReceiptPoll.methodName, utilityBinToHex
    (sent.tx.txHash.field.bytes.take sent.tx.txHash.fieldLen)
    .leftTrimUnfmtData true false, []⟩

theorem boatCitaGetTransactionReceipt_ok_iff :
    (∃ after, boatCitaGetTransactionReceipt env node sent = .ok () after) ↔
      citaReceiptPoll.EndsWell env passesCita (citaAnswers node sent)
        sent.resultBuf := by
  rw [← citaReceiptPoll_reads.wait_ok_iff, citaAnswers]
  unfold boatCitaGetTransactionReceipt
  simp only
  cases citaReceiptPoll.wait env _ sent.resultBuf with
  | ok _ buffer => exact iff_of_true ⟨_, rfl⟩ ⟨buffer, rfl⟩
  | error failure buffer =>
      refine iff_of_false ?_ ?_
      · rintro ⟨after, hafter⟩
        cases hafter
      · rintro ⟨kept, hkept⟩
        cases hkept

end CitaSync

/-- A synchronous send of CITA succeeds exactly when the poll ends well, and
the poll is reached not only behind a transaction that went out but also
behind one whose message got no memory. -/
theorem boatCitaTxSend_sync_ok_iff (env : SendEnv) (node : ReceiptAnswers)
    (before : CitaState) :
    (∃ after, boatCitaTxSend env node true before = .ok () after) ↔
      ∃ sent, (citaSendRawtx env before = .ok () sent ∨
          sent = before ∧ MessageRefused env before) ∧
        citaReceiptPoll.EndsWell env passesCita (citaAnswers node sent)
          sent.resultBuf := by
  simp only [← citaSendRawtx_blank_iff, ← boatCitaGetTransactionReceipt_ok_iff]
  change (∃ after, boatCitaSendRawtxWithReceipt env node before = _) ↔ _
  unfold boatCitaSendRawtxWithReceipt
  cases hsend : citaSendRawtx env before with
  | ok _ sent => simp
  | error failure sent =>
      by_cases hblank : failure = .code boatSuccess
      · simp [hblank]
      · simp [hblank]

end BoatFramework
