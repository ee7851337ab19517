/-
What a sender asks the node to send, whether or not the run succeeds: nothing,
or the one request that the steps in front of it built, which carries what was
signed.
-/
import BoatFramework.Tx.Signed

namespace BoatFramework

def SendEvent.request? : SendEvent → Option SendRequest
  | .sent request => some request
  | .hashed _ => none

/-- The requests that went out. -/
def SendState.sends (state : SendState) : List SendRequest :=
  state.events.filterMap SendEvent.request?

theorem SendState.sends_of_events {state state' : SendState}
    {message : List UInt8} {request : SendRequest}
    (hevents : state'.events = state.events ++ [.hashed message, .sent request]) :
    state'.sends = state.sends ++ [request] := by
  rw [SendState.sends, hevents, List.filterMap_append]
  rfl

variable {sender : Sender} {env : SendEnv}

/-- A sender whose preparations send nothing. -/
def Sender.Quiet (sender : Sender) (env : SendEnv) : Prop :=
  ∀ object, Exec.Keeps SendState.sends (sender.prepare env object)

theorem encodeTx_keeps : Exec.Keeps SendState.sends (encodeTx env) := by
  intro state
  unfold encodeTx
  split
  · rfl
  · split
    · rfl
    · split <;> rfl

theorem initStringObject_keeps (fail : BoatResult) (object : RlpVar) :
    Exec.Keeps SendState.sends (initStringObject fail object) := by
  intro state
  unfold initStringObject
  split <;> rfl

theorem appendObject_keeps (object : RlpVar) :
    Exec.Keeps SendState.sends (appendObject object) := by
  intro state
  unfold appendObject
  split <;> rfl

theorem putObject_keeps (replaceIndex : Option Nat) (object : RlpVar) :
    Exec.Keeps SendState.sends (putObject replaceIndex object) := by
  cases replaceIndex with
  | none => exact appendObject_keeps object
  | some index =>
      intro state
      unfold putObject replaceObject
      simp only
      split <;> rfl

theorem sendThrow_keeps {α : Type} (code : BoatResult) :
    Exec.Keeps SendState.sends (sendThrow code : SendM α) :=
  fun _ => rfl

theorem checkIndex_keeps (checked : Bool) (fail : BoatResult)
    (index : Option Nat) :
    Exec.Keeps SendState.sends (checkIndex checked fail index) :=
  Exec.Keeps.ite (sendThrow_keeps fail) (Exec.Keeps.pure ())

theorem encodeUnchecked_keeps :
    Exec.Keeps SendState.sends (encodeUnchecked env) := by
  intro state
  have hencode : (Exec.final (encodeTx env state)).sends = state.sends :=
    encodeTx_keeps state
  unfold encodeUnchecked
  split
  all_goals
    next hrun =>
      rw [hrun] at hencode
      exact hencode

theorem appendField_keeps (hquiet : sender.Quiet env) (object : RlpVar) :
    Exec.Keeps SendState.sends (appendField sender env object) := by
  refine (hquiet object).bind fun _ => ?_
  refine (initStringObject_keeps _ object).bind fun _ => ?_
  refine (appendObject_keeps object).bind fun index => ?_
  refine (checkIndex_keeps _ _ index).bind fun _ => ?_
  exact encodeUnchecked_keeps.ite (Exec.Keeps.pure ())

theorem appendPlaceholder_keeps (object : RlpVar) :
    Exec.Keeps SendState.sends (appendPlaceholder object) := by
  refine (initStringObject_keeps _ object).bind fun _ => ?_
  refine (appendObject_keeps object).bind fun index => ?_
  exact (checkIndex_keeps _ _ index).bind fun _ => Exec.Keeps.pure _

theorem addPlaceholders_keeps :
    Exec.Keeps SendState.sends (addPlaceholders sender) := by
  have hplaceholders : Exec.Keeps SendState.sends appendPlaceholders := by
    refine Exec.Keeps.bind (fun _ => rfl) fun _ => ?_
    refine (appendPlaceholder_keeps .v).bind fun _ => ?_
    refine (appendPlaceholder_keeps .r).bind fun _ => ?_
    exact (appendPlaceholder_keeps .s).bind fun _ => Exec.Keeps.pure _
  intro state
  unfold addPlaceholders
  split
  · exact (hplaceholders.bind fun _ => Exec.Keeps.pure _) state
  · rfl

theorem signTx_keeps (message : List UInt8) :
    Exec.Keeps SendState.sends (signTx sender env message) := by
  have hrecord : Exec.Keeps SendState.sends (recordEvent (.hashed message)) := by
    intro state
    simp [recordEvent, Exec.final, SendState.sends, SendState.record,
      SendEvent.request?]
  refine hrecord.bind fun _ => ?_
  split
  · exact sendThrow_keeps _
  · exact fun _ => rfl

theorem relistField_keeps (replaceIndex : Option Nat) (object : RlpVar) :
    Exec.Keeps SendState.sends (relistField sender replaceIndex object) := by
  refine (initStringObject_keeps _ object).bind fun _ => ?_
  refine (putObject_keeps replaceIndex object).bind fun index => ?_
  exact checkIndex_keeps _ _ index

theorem streamToHex_keeps (stream : List UInt8) :
    Exec.Keeps SendState.sends (streamToHex sender env stream) := by
  intro state
  unfold streamToHex
  simp only
  split
  · rfl
  · split <;> rfl

theorem initTx_keeps : Exec.Keeps SendState.sends (initTx env) := by
  intro state
  unfold initTx
  simp only
  split <;> rfl

/-- The steps in front of the request send nothing. -/
theorem buildRawtx_keeps (hquiet : sender.Quiet env) :
    Exec.Keeps SendState.sends (buildRawtx sender env) := by
  refine initTx_keeps.bind fun _ => ?_
  refine (Exec.Keeps.forM (appendField_keeps hquiet) _).bind fun _ => ?_
  refine addPlaceholders_keeps.bind fun indices => ?_
  refine encodeTx_keeps.bind fun message => ?_
  refine (signTx_keeps message).bind fun _ => ?_
  refine (relistField_keeps _ .v).bind fun _ => ?_
  refine (relistField_keeps _ .r).bind fun _ => ?_
  refine (relistField_keeps _ .s).bind fun _ => ?_
  refine Exec.Keeps.bind (fun state => ?_) streamToHex_keeps
  exact encodeTx_keeps _

theorem parseResponse_events (response : List Char) :
    Exec.Keeps SendState.events (parseResponse sender env response) :=
  fun state => keepParsed_keeps _ (fun _ _ => rfl) _ state

theorem parseResponse_keeps (response : List Char) :
    Exec.Keeps SendState.sends (parseResponse sender env response) :=
  fun state => congrArg (List.filterMap SendEvent.request?)
    (parseResponse_events response state)

/-- The node is asked once, with the request of the sender. -/
theorem sendToNode_events (signedtx : List Char) (state : SendState) :
    (Exec.final (sendToNode sender env signedtx state)).events =
      state.events ++ [.sent (sender.request state.tx signedtx)] := by
  have hrest (response : List Char) : Exec.Keeps SendState.events (do
      parseResponse sender env response
      keepTxHash) :=
    (parseResponse_events response).bind fun _ _ => rfl
  rw [sendToNode, Exec.view_bind hrest]
  unfold requestSend
  simp only
  split <;> rfl

theorem sendToNode_sends (signedtx : List Char) (state : SendState) :
    (Exec.final (sendToNode sender env signedtx state)).sends =
      state.sends ++ [sender.request state.tx signedtx] := by
  rw [SendState.sends, sendToNode_events, List.filterMap_append]
  rfl

/-- A run sends nothing, or what it built. -/
theorem sendRawtx_sends (hquiet : sender.Quiet env) (state : SendState) :
    (Exec.final (sendRawtx sender env state)).sends = state.sends ∨
      ∃ signedtx mid, buildRawtx sender env state = .ok signedtx mid ∧
        (Exec.final (sendRawtx sender env state)).sends =
          state.sends ++ [sender.request mid.tx signedtx] := by
  have hkeeps := buildRawtx_keeps hquiet state
  rw [sendRawtx_eq]
  rcases Exec.final_bind (buildRawtx sender env) (sendToNode sender env) state
    with ⟨signedtx, mid, hbuild, hfinal⟩ | hfinal
  · rw [hbuild] at hkeeps
    refine .inr ⟨signedtx, mid, hbuild, ?_⟩
    rw [hfinal, sendToNode_sends, ← hkeeps]
    rfl
  · rw [hfinal]
    exact .inl hkeeps

/-- What a run that sends hashed, signed and sent.  The fields are those of the
transaction, except for the objects the sender prepares. -/
def RawtxSent (sender : Sender) (changes : List RlpVar) (env : SendEnv)
    (state state' : SendState) : Prop :=
  ∃ fields message signature stream request,
    (∀ object, object ∉ changes →
      RawtxFields.bytes fields object = state.tx.rawtxFields.bytes object) ∧
    state'.events = state.events ++ [.hashed message, .sent request] ∧
    boatSignature env (env.keccak256 message) = .ok signature ∧
    message = Rlp.encode (itemsOf (sender.leading.map fields.bytes ++
      sender.placeholders state.tx)) ∧
    stream = Rlp.encode (itemsOf (sender.leading.map fields.bytes ++
      sender.signatureItems state.tx signature)) ∧
    stream.length < 2 ^ 32 ∧
    request.signedtx = '0' :: 'x' :: Hex.toHex stream

variable {changes : List RlpVar} {state state' : SendState}

theorem RawtxSent.sends_ne
    (hsent : RawtxSent sender changes env state state') :
    state'.sends ≠ state.sends := by
  obtain ⟨_, _, _, _, request, _, hevents, _⟩ := hsent
  rw [SendState.sends_of_events hevents]
  exact fun h => List.cons_ne_nil _ _ (List.append_right_eq_self.mp h)

/-- What was built is sent. -/
theorem rawtxSent_of_built (hsender : sender.WellFormed changes)
    (hmalloc : Fresh env.malloc) {signedtx : List Char} {mid : SendState}
    (hbuild : buildRawtx sender env state = .ok signedtx mid) :
    RawtxSent sender changes env state
      (Exec.final (sendToNode sender env signedtx mid)) := by
  obtain ⟨fields, message, signature, stream, hbuilt, hsignedtx⟩ :=
    buildRawtx_ok hsender hmalloc hbuild
  refine ⟨fields, message, signature, stream, sender.request mid.tx signedtx,
    hbuilt.unchanged, ?_, hbuilt.signed, hbuilt.messageItems,
    hbuilt.streamItems, hbuilt.size, ?_⟩
  · rw [sendToNode_events, hbuilt.events, List.append_assoc]
    rfl
  · rw [hsender.signedtx_request, hsignedtx]

/-- A run that sends anything sends what was signed. -/
theorem sendRawtx_sent (hsender : sender.WellFormed changes)
    (hquiet : sender.Quiet env) (hmalloc : Fresh env.malloc)
    (hsent : (Exec.final (sendRawtx sender env state)).sends ≠ state.sends) :
    RawtxSent sender changes env state
      (Exec.final (sendRawtx sender env state)) := by
  rw [sendRawtx_eq] at hsent ⊢
  rcases Exec.final_bind (buildRawtx sender env) (sendToNode sender env) state
    with ⟨signedtx, mid, hbuild, hfinal⟩ | hfinal
  · rw [hfinal]
    exact rawtxSent_of_built hsender hmalloc hbuild
  · rw [hfinal] at hsent
    exact absurd (buildRawtx_keeps hquiet state) hsent

/-- So does a run that succeeds. -/
theorem sendRawtx_ok (hsender : sender.WellFormed changes)
    (hmalloc : Fresh env.malloc)
    (hrun : sendRawtx sender env state = .ok () state') :
    RawtxSent sender changes env state state' := by
  rw [sendRawtx_eq] at hrun
  obtain ⟨signedtx, mid, hbuild, hnode⟩ := Exec.bind_eq_ok.mp hrun
  have hsent := rawtxSent_of_built hsender hmalloc hbuild
  rw [hnode] at hsent
  exact hsent

theorem sendRawtx_sends_ne (hsender : sender.WellFormed changes)
    (hmalloc : Fresh env.malloc)
    (hrun : sendRawtx sender env state = .ok () state') :
    (Exec.final (sendRawtx sender env state)).sends ≠ state.sends := by
  have hsent := (sendRawtx_ok hsender hmalloc hrun).sends_ne
  rw [hrun]
  exact hsent

end BoatFramework
