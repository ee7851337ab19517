/-
The senders of the chains, each an instance of the common body, and what their
runs send: the list that was signed, closed by the signature over its hash.
-/
import BoatFramework.Tx.Sent

namespace BoatFramework

open ByteString

section Prepare

variable {changes : List RlpVar} {object : RlpVar} {state mid : SendState}

/-- A preparation that gives its own field other storage. -/
theorem prepared_setFields {fields : RawtxFields} (hchanges : object ∈ changes)
    (hptr : ∀ other, other ≠ object →
      fields.stringPtr other = state.tx.rawtxFields.stringPtr other)
    (hlen : ∀ other, other ≠ object →
      fields.stringLen other = state.tx.rawtxFields.stringLen other) :
    Prepared changes object state (state.setFields fields) := by
  refine ⟨rfl, rfl, rfl, rfl, rfl, fun other hother => ?_,
    fun other hother => ?_⟩
  · exact hptr other fun heq => hother ⟨heq, heq ▸ hchanges⟩
  · exact hlen other fun heq => hother ⟨heq, heq ▸ hchanges⟩

theorem keepFields_prepared (env : SendEnv)
    (hrun : keepFields env object state = .ok () mid) :
    Prepared changes object state mid := by
  obtain ⟨_, rfl⟩ := Exec.pure_eq_ok.mp hrun
  exact ⟨rfl, rfl, rfl, rfl, rfl, fun _ _ => rfl, fun _ _ => rfl⟩

theorem clearExtraData_prepared (env : SendEnv)
    (hrun : clearExtraData env object state = .ok () mid) :
    Prepared [.extraData] object state mid := by
  unfold clearExtraData at hrun
  split at hrun
  next hobject =>
    cases hrun
    subst hobject
    refine prepared_setFields List.mem_cons_self ?_ ?_
    · intro other hother
      cases other <;> rfl
    · intro other hother
      cases other <;> first | rfl | exact absurd rfl hother
  next =>
    exact keepFields_prepared env hrun

theorem fillPrivateData_prepared (env : SendEnv)
    (hrun : fillPrivateData env object state = .ok () mid) :
    Prepared [.data] object state mid := by
  unfold fillPrivateData at hrun
  split at hrun
  next hobject =>
    obtain ⟨rfl, _⟩ := hobject
    split at hrun
    · cases hrun
    · cases hrun
      refine prepared_setFields List.mem_cons_self ?_ ?_
      · intro other hother
        cases other <;> first | rfl | exact absurd rfl hother
      · intro other hother
        cases other <;> first | rfl | exact absurd rfl hother
  next =>
    exact keepFields_prepared env hrun

end Prepare

theorem ethSender_wellFormed : ethSender.WellFormed [] where
  length_leading := by decide
  nodup_leading := by decide
  leading_unsigned := by decide
  prepared env _ _ _ hrun := keepFields_prepared env hrun
  signedtx_request _ _ := rfl
  plainBase_congr _ _ _ := rfl

theorem ethSender_quiet (env : SendEnv) : ethSender.Quiet env :=
  fun _ _ => rfl

theorem platonSender_wellFormed : platonSender.WellFormed [] where
  length_leading := by decide
  nodup_leading := by decide
  leading_unsigned := by decide
  prepared env _ _ _ hrun := keepFields_prepared env hrun
  signedtx_request _ _ := rfl
  plainBase_congr _ _ _ := rfl

theorem platonSender_quiet (env : SendEnv) : platonSender.Quiet env :=
  fun _ _ => rfl

theorem platoneSender_wellFormed : platoneSender.WellFormed [] where
  length_leading := by decide
  nodup_leading := by decide
  leading_unsigned := by decide
  prepared env _ _ _ hrun := keepFields_prepared env hrun
  signedtx_request _ _ := rfl
  plainBase_congr _ _ _ := rfl

theorem platoneSender_quiet (env : SendEnv) : platoneSender.Quiet env :=
  fun _ _ => rfl

theorem fiscobcosSender_wellFormed :
    fiscobcosSender.WellFormed [.extraData] where
  length_leading := by decide
  nodup_leading := by decide
  leading_unsigned := by decide
  prepared env _ _ _ hrun := clearExtraData_prepared env hrun
  signedtx_request _ _ := rfl
  plainBase_congr _ _ _ := rfl

theorem fiscobcosSender_quiet (env : SendEnv) : fiscobcosSender.Quiet env := by
  intro object state
  change (Exec.final (clearExtraData env object state)).sends = _
  unfold clearExtraData
  split <;> rfl

theorem quorumSender_wellFormed : quorumSender.WellFormed [.data] where
  length_leading := by decide
  nodup_leading := by decide
  leading_unsigned := by decide
  prepared env _ _ _ hrun := fillPrivateData_prepared env hrun
  signedtx_request tx _ := by
    simp only [quorumSender]
    split <;> rfl
  plainBase_congr _ _ hprivate := by
    simp only [quorumSender, hprivate]

theorem quorumSender_quiet (env : SendEnv) : quorumSender.Quiet env := by
  intro object state
  change (Exec.final (fillPrivateData env object state)).sends = _
  unfold fillPrivateData
  split
  · split <;> rfl
  · rfl

/-- The protocols whose senders build such a list. -/
inductive Chain where
  | ethereum
  | platon
  | platone
  | fiscobcos

namespace Chain

def sender : Chain → Sender
  | .ethereum => ethSender
  | .platon => platonSender
  | .platone => platoneSender
  | .fiscobcos => fiscobcosSender

/-- The number of items in front of the signature. -/
def leadingCount : Chain → Nat
  | .ethereum => 6
  | .platon => 6
  | .platone => 7
  | .fiscobcos => 10

/-- Whether the chain knows the form of EIP-155. -/
def knowsEip155 : Chain → Bool
  | .fiscobcos => false
  | _ => true

theorem wellFormed (chain : Chain) :
    ∃ changes, chain.sender.WellFormed changes := by
  cases chain with
  | ethereum => exact ⟨_, ethSender_wellFormed⟩
  | platon => exact ⟨_, platonSender_wellFormed⟩
  | platone => exact ⟨_, platoneSender_wellFormed⟩
  | fiscobcos => exact ⟨_, fiscobcosSender_wellFormed⟩

theorem quiet (chain : Chain) (env : SendEnv) : chain.sender.Quiet env := by
  cases chain with
  | ethereum => exact ethSender_quiet env
  | platon => exact platonSender_quiet env
  | platone => exact platoneSender_quiet env
  | fiscobcos => exact fiscobcosSender_quiet env

theorem length_leading (chain : Chain) :
    chain.sender.leading.length = chain.leadingCount := by
  cases chain <;> rfl

theorem eip155_sender (chain : Chain) :
    chain.sender.eip155 = chain.knowsEip155 := by
  cases chain <;> rfl

end Chain

/-- The request carries the text of a list of byte strings. -/
structure SendRequest.Carries (request : SendRequest)
    (items : List (List UInt8)) : Prop where
  size : (Rlp.encode (itemsOf items)).length < 2 ^ 32
  text : request.signedtx = '0' :: 'x' :: Hex.toHex (Rlp.encode (itemsOf items))

/-- A request stands for one list of byte strings at most. -/
theorem SendRequest.Carries.unique {request : SendRequest}
    {left right : List (List UInt8)} (hleft : request.Carries left)
    (hright : request.Carries right) : left = right := by
  have htext : Hex.toHex (Rlp.encode (itemsOf left)) =
      Hex.toHex (Rlp.encode (itemsOf right)) := by
    simpa using hleft.text.symm.trans hright.text
  have hstream := congrArg Hex.ofHex htext
  rw [Hex.ofHex_toHex, Hex.ofHex_toHex] at hstream
  have hleftSize := hleft.size
  have hrightSize := hright.size
  have hitems := Rlp.encode_injective _ _ (by omega) (by omega)
    (Option.some.inj hstream)
  rw [itemsOf, itemsOf, Rlp.Item.list.injEq] at hitems
  exact List.map_injective_iff.mpr (fun _ _ hitem => by simpa using hitem)
    hitems

/-- A run leaves a request that carries the leading items it hashed, closed by
`v`, `r` and `s` of the signature over that hash. -/
def SendsSigned (chain : Chain) (env : SendEnv) (state state' : SendState) :
    Prop :=
  ∃ leading signed v request signature,
    leading.length = chain.leadingCount ∧
    signed = leading ++
      (if chain.knowsEip155 && state.tx.networkInfo.eip155Compatibility then
        [utilityUint32ToBigend state.tx.networkInfo.chainId .leftTrim, [], []]
      else []) ∧
    state'.events = state.events ++
      [.hashed (Rlp.encode (itemsOf signed)), .sent request] ∧
    boatSignature env (env.keccak256 (Rlp.encode (itemsOf signed))) =
      .ok signature ∧
    v = utilityUint32ToBigend
      (chain.sender.vValue state.tx (sigParity signature)) .leftTrim ∧
    request.Carries (leading ++
      [v, trimLeft signature.rHalf, trimLeft signature.sHalf])

/-- What is sent is what was signed, whether or not the run succeeds. -/
theorem sendRawtx_sendsSigned (chain : Chain) {env : SendEnv}
    {state : SendState} (hmalloc : Fresh env.malloc)
    (hsent : (Exec.final (sendRawtx chain.sender env state)).sends ≠
      state.sends) :
    SendsSigned chain env state
      (Exec.final (sendRawtx chain.sender env state)) := by
  obtain ⟨changes, hsender⟩ := chain.wellFormed
  obtain ⟨fields, message, signature, stream, request, _, hevents, hsignature,
    hmessage, hstream, hsize, hrequest⟩ :=
      sendRawtx_sent hsender (chain.quiet env) hmalloc hsent
  refine ⟨chain.sender.leading.map fields.bytes, _, _, request, signature,
    ?_, rfl, ?_, ?_, rfl, ?_⟩
  · rw [List.length_map, chain.length_leading]
  · rw [hevents, hmessage, Sender.placeholders, Sender.usesEip155,
      chain.eip155_sender]
  · rw [← hsignature, hmessage, Sender.placeholders, Sender.usesEip155,
      chain.eip155_sender]
  · rw [Sender.signatureItems] at hstream
    exact ⟨hstream ▸ hsize, hstream ▸ hrequest⟩

section Sample

/-- A keystore with one signature of the given parity, and a node that answers
with a transaction hash. -/
def sampleEnv (parity : UInt8) : SendEnv where
  malloc := zeroMalloc
  keccak256 := fun _ => List.replicate 32 0
  keystoreSign := fun _ => .ok (⟨List.replicate 64 1, rfl⟩, parity)
  signatureToAsn1 := fun signature => some signature.bytes
  sendRawTransaction := fun _ => .ok []
  cJSONParse := fun _ =>
    some (.object [("result".toList, .string "0x1f".toList)])

/-- The raw fields after `memset`. -/
def RawtxFields.zero : RawtxFields where
  nonce := ⟨.zero 32, 0⟩
  gasprice := ⟨.zero 32, 0⟩
  gaslimit := ⟨.zero 32, 0⟩
  recipient := .zero 20
  value := ⟨.zero 32, 0⟩
  data := ⟨none, 0⟩
  v := ⟨.zero 4, 0⟩
  r32B := .zero 32
  rLen := 0
  s32B := .zero 32
  sLen := 0
  txtype := 0
  blocklimit := ⟨.zero 32, 0⟩
  chainid := ⟨.zero 32, 0⟩
  groupid := ⟨.zero 32, 0⟩
  extraData := ⟨none, 0⟩

def sampleState (networkInfo : NetworkInfo) (rawtxFields : RawtxFields) :
    SendState where
  tx :=
    { networkInfo
      txHash := ⟨.zero 32, 0⟩
      isPrivate := false
      rawtxFields }
  stringLen := fun _ => 0
  descriptors := []
  stream := none
  resultBuf := ⟨none, 0⟩
  events := []

/-- Whether a run ends without an error. -/
def succeeds (run : EStateM.Result Failure SendState Unit) : Bool :=
  match run with
  | .ok _ _ => true
  | .error _ _ => false

theorem exists_of_succeeds (run : EStateM.Result Failure SendState Unit)
    (hrun : succeeds run = true) : ∃ state', run = .ok () state' := by
  cases run with
  | ok _ state' => exact ⟨state', rfl⟩
  | error _ _ => cases hrun

/-- A zero transaction on chain 1 with a run of the Ethereum sender. -/
theorem sendRawtx_sendsSigned_sample :
    ∃ state', sendRawtx Chain.ethereum.sender (sampleEnv 1)
        (sampleState ⟨1, true⟩ .zero) = .ok () state' ∧
      SendsSigned .ethereum (sampleEnv 1) (sampleState ⟨1, true⟩ .zero)
        state' := by
  obtain ⟨state', hrun⟩ := exists_of_succeeds
    (sendRawtx Chain.ethereum.sender (sampleEnv 1)
      (sampleState ⟨1, true⟩ .zero)) (by decide +kernel)
  have hsigned := sendRawtx_sendsSigned .ethereum zeroMalloc_fresh
    (sendRawtx_sends_ne ethSender_wellFormed zeroMalloc_fresh hrun)
  rw [hrun] at hsigned
  exact ⟨state', hrun, hsigned⟩

end Sample

end BoatFramework
