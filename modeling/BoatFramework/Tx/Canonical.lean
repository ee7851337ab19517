/-
Which integer items of a transaction are canonical: no leading zero byte, and
zero as the empty string.  The routes through `UtilityHexToBin` always give
that; the conversion of a host integer spells zero as one zero byte, and a field
given by the caller is sent as it is.
-/
import BoatFramework.Tx.Setters

namespace BoatFramework

open ByteString

/-- The objects whose item is an integer. -/
def RlpVar.isInteger : RlpVar → Bool
  | .nonce | .gasprice | .gaslimit | .value | .txtype => true
  | .v | .r | .s => true
  | _ => false

/-- The object a setter writes. -/
def Setter.target : Setter → RlpVar
  | .nonce _ _ => .nonce
  | .gasPrice _ _ => .gasprice
  | .gasLimit _ => .gaslimit
  | .recipient _ => .recipient
  | .value _ => .value
  | .data _ => .data
  | .txtype _ => .txtype

/-- A field given by the caller is canonical up to its length. -/
def BoatFieldMax.IsCanonical {size : Nat} (given : BoatFieldMax size) : Prop :=
  Canonical (given.field.bytes.take given.fieldLen)

/-- The inputs of a setter that reach the wire as a canonical integer: no
explicit nonce zero, no transaction type zero, and given fields that are
canonical themselves. -/
def Setter.CanonicalInput : Setter → Prop
  | .nonce number _ => number ≠ 0
  | .gasPrice given _ => ∀ gasprice ∈ given, gasprice.IsCanonical
  | .gasLimit given => ∀ gaslimit ∈ given, gaslimit.IsCanonical
  | .recipient _ => True
  | .value given => ∀ value ∈ given, value.IsCanonical
  | .data _ => True
  | .txtype kind => kind ≠ 0

/-- A step wrote the field of one object, canonically if and only if `ok`, and
left the other fields and the network alone. -/
structure Wrote (object : RlpVar) (ok : Prop) (state state' : SendState) :
    Prop where
  networkInfo : state'.tx.networkInfo = state.tx.networkInfo
  others : ∀ other, other ≠ object →
    state'.tx.rawtxFields.bytes other = state.tx.rawtxFields.bytes other
  canonical : object.isInteger = true →
    (Canonical (state'.tx.rawtxFields.bytes object) ↔ ok)

section Writes

variable {api : TxApi} {env : SendEnv} {state state' : SendState}

/-- What `UtilityHexToBin` leaves in a field is canonical. -/
theorem isCanonical_ofHex {size : Nat} (storage : Block size)
    (text : List Char) : (BoatFieldMax.ofHex storage text).IsCanonical := by
  obtain ⟨hsize, hlen⟩ := utilityHexToBin_length size text .leftTrim true
  have hcanonical := utilityHexToBin_canonical size text
  have htake := congrArg
    (List.take (utilityHexToBin size text .leftTrim true).2)
    (storage.take_overlay hsize)
  rw [List.take_take, Nat.min_eq_left hlen] at htake
  rwa [← htake] at hcanonical

theorem modifyFields_wrote {object : RlpVar} {ok : Prop}
    {change : RawtxFields → RawtxFields}
    (hothers : ∀ fields other, other ≠ object →
      RawtxFields.bytes (change fields) other = fields.bytes other)
    (hcanonical : ∀ fields, object.isInteger = true →
      (Canonical (RawtxFields.bytes (change fields) object) ↔ ok))
    (hrun : modifyFields change state = .ok () state') :
    Wrote object ok state state' := by
  cases hrun
  exact ⟨rfl, hothers _, hcanonical _⟩

/-- A field taken from an answer of the node. -/
theorem modifyFromAnswer_wrote {object : RlpVar} {response : List Char}
    {change : List Char → RawtxFields → RawtxFields}
    (hothers : ∀ text fields other, other ≠ object →
      RawtxFields.bytes (change text fields) other = fields.bytes other)
    (hcanonical : ∀ text fields,
      Canonical (RawtxFields.bytes (change text fields) object))
    (hrun : (do keepAnswer api env response; modifyFromBuffer change : SendM Unit)
      state = .ok () state') :
    Wrote object True state state' := by
  obtain ⟨_, kept, hkeep, hmodify⟩ := Exec.bind_eq_ok.mp hrun
  obtain ⟨_, _, rfl⟩ := keepParsed_ok_iff.mp hkeep
  cases hmodify
  exact ⟨rfl, hothers _ _, fun _ => iff_true_intro (hcanonical _ _)⟩

theorem Wrote.congr {object : RlpVar} {ok ok' : Prop}
    (hwrote : Wrote object ok state state') (hok : ok ↔ ok') :
    Wrote object ok' state state' :=
  ⟨hwrote.networkInfo, hwrote.others,
    fun hinteger => (hwrote.canonical hinteger).trans hok⟩

theorem txSetNonce_wrote {number : UInt64} {txCount : NodeAnswer}
    (hrun : txSetNonce api env number txCount state = .ok () state') :
    Wrote .nonce (number ≠ 0) state state' := by
  unfold txSetNonce at hrun
  split at hrun
  next hauto =>
    cases txCount with
    | error code => cases hrun
    | ok response =>
        refine (modifyFromAnswer_wrote ?_ ?_ hrun).congr ?_
        · intro text fields other hother
          cases other <;> first | rfl | exact absurd rfl hother
        · intro text fields
          exact isCanonical_ofHex _ _
        · simp [hauto, boatNonceAuto]
  next =>
    refine modifyFields_wrote ?_ ?_ hrun
    · intro fields other hother
      cases other <;> first | rfl | exact absurd rfl hother
    · intro fields _
      have hlt : number.toNat < 256 ^ 8 := number.toNat_lt
      have hsize : (utilityUint64ToBigend number.toNat .leftTrim).length ≤ 32 :=
        (length_utilityUintToBigend_le (by omega) _ _).trans (by omega)
      have hbytes := fields.nonce.field.take_overlay hsize
      rw [RawtxFields.bytes, RawtxFields.stringPtr, RawtxFields.stringLen,
        Option.getD_some, hbytes, utilityUint64ToBigend,
        canonical_utilityUintToBigend hlt, ne_eq, ne_eq,
        ← UInt64.toNat_inj, UInt64.toNat_zero]

theorem txSetGasPrice_wrote {given : Option (BoatFieldMax 32)}
    {netPrice : NodeAnswer}
    (hrun : txSetGasPrice api env given netPrice state = .ok () state') :
    Wrote .gasprice (∀ gasprice ∈ given, gasprice.IsCanonical) state state' := by
  cases given with
  | none =>
      cases netPrice with
      | error code => cases hrun
      | ok response =>
          refine (modifyFromAnswer_wrote ?_ ?_ hrun).congr (by simp)
          · intro text fields other hother
            cases other <;> first | rfl | exact absurd rfl hother
          · intro text fields
            exact isCanonical_ofHex _ _
  | some gasprice =>
      rw [txSetGasPrice] at hrun
      refine modifyFields_wrote ?_ ?_ hrun
      · intro fields other hother
        cases other <;> first | rfl | exact absurd rfl hother
      · intro fields _
        simp only [Option.mem_some, forall_eq']
        rfl

theorem txSetGasLimit_wrote {given : Option (BoatFieldMax 32)}
    (hrun : txSetGasLimit given state = .ok () state') :
    Wrote .gaslimit (∀ gaslimit ∈ given, gaslimit.IsCanonical) state state' := by
  cases given with
  | none => cases hrun
  | some gaslimit =>
      rw [txSetGasLimit] at hrun
      refine modifyFields_wrote ?_ ?_ hrun
      · intro fields other hother
        cases other <;> first | rfl | exact absurd rfl hother
      · intro fields _
        simp only [Option.mem_some, forall_eq']
        rfl

theorem txSetValue_wrote {given : Option (BoatFieldMax 32)}
    (hrun : txSetValue given state = .ok () state') :
    Wrote .value (∀ value ∈ given, value.IsCanonical) state state' := by
  cases given with
  | none =>
      rw [txSetValue] at hrun
      refine modifyFields_wrote ?_ ?_ hrun
      · intro fields other hother
        cases other <;> first | rfl | exact absurd rfl hother
      · intro fields _
        exact iff_of_true canonical_nil (by simp)
  | some value =>
      rw [txSetValue] at hrun
      refine modifyFields_wrote ?_ ?_ hrun
      · intro fields other hother
        cases other <;> first | rfl | exact absurd rfl hother
      · intro fields _
        simp only [Option.mem_some, forall_eq']
        rfl

theorem txSetRecipient_wrote {address : Block 20}
    (hrun : txSetRecipient address state = .ok () state') :
    Wrote .recipient True state state' := by
  refine modifyFields_wrote ?_ (fun _ hinteger => by cases hinteger) hrun
  intro fields other hother
  cases other <;> first | rfl | exact absurd rfl hother

theorem txSetData_wrote {given : Option BoatFieldVariable}
    (hrun : txSetData given state = .ok () state') :
    Wrote .data True state state' := by
  cases given with
  | none =>
      rw [txSetData] at hrun
      refine modifyFields_wrote ?_ (fun _ hinteger => by cases hinteger) hrun
      intro fields other hother
      cases other <;> first | rfl | exact absurd rfl hother
  | some data =>
      rw [txSetData] at hrun
      refine modifyFields_wrote ?_ (fun _ hinteger => by cases hinteger) hrun
      intro fields other hother
      cases other <;> first | rfl | exact absurd rfl hother

theorem txSetTxtype_wrote {kind : UInt32}
    (hrun : txSetTxtype kind state = .ok () state') :
    Wrote .txtype (kind ≠ 0) state state' := by
  refine modifyFields_wrote ?_ ?_ hrun
  · intro fields other hother
    cases other <;> first | rfl | exact absurd rfl hother
  · intro fields _
    have hlt : kind.toNat < 256 ^ 8 := kind.toNat_lt.trans (by omega)
    rw [RawtxFields.bytes, RawtxFields.stringPtr, RawtxFields.stringLen,
      Option.getD_some, List.take_length, utilityUint64ToBigend,
      canonical_utilityUintToBigend hlt, ne_eq, ne_eq, ← UInt32.toNat_inj,
      UInt32.toNat_zero]

/-- What one call of a setter writes. -/
theorem Setter.call_wrote {setter : Setter}
    (hrun : setter.call api env state = .ok () state') :
    Wrote setter.target setter.CanonicalInput state state' := by
  cases setter with
  | nonce number txCount => exact txSetNonce_wrote hrun
  | gasPrice given netPrice => exact txSetGasPrice_wrote hrun
  | gasLimit given => exact txSetGasLimit_wrote hrun
  | recipient address => exact txSetRecipient_wrote hrun
  | value given => exact txSetValue_wrote hrun
  | data given => exact txSetData_wrote hrun
  | txtype kind => exact txSetTxtype_wrote hrun

end Writes

/-- The integer fields are canonical exactly where `ok` says so. -/
def CanonicalWhere (ok : RlpVar → Prop) (state : SendState) : Prop :=
  ∀ object, object.isInteger = true →
    (Canonical (state.tx.rawtxFields.bytes object) ↔ ok object)

theorem Wrote.canonicalWhere {object : RlpVar} {ok : RlpVar → Prop}
    {written : Prop} {state state' : SendState}
    (hwrote : Wrote object written state state')
    (hok : CanonicalWhere ok state) :
    CanonicalWhere (Function.update ok object written) state' := by
  intro other hinteger
  by_cases hother : other = object
  · subst hother
    rw [Function.update_self]
    exact hwrote.canonical hinteger
  · rw [Function.update_of_ne hother, hwrote.others other hother]
    exact hok other hinteger

theorem CanonicalWhere.congr {ok ok' : RlpVar → Prop} {state : SendState}
    (hcanonical : CanonicalWhere ok state)
    (hok : ∀ object, object.isInteger = true → (ok object ↔ ok' object)) :
    CanonicalWhere ok' state :=
  fun object hinteger =>
    (hcanonical object hinteger).trans (hok object hinteger)

/-- Zeroed fields are empty but for the transaction type, which is a host
integer. -/
theorem canonicalWhere_clear (state : SendState) (isPrivate : Bool) :
    CanonicalWhere (· ≠ .txtype) (state.clear isPrivate) := by
  intro object hinteger
  cases object with
  | txtype =>
      have hzero : ¬ Canonical (RawtxFields.zero.bytes .txtype) := by decide
      exact iff_of_false hzero (by simp)
  | nonce | gasprice | gaslimit | value | v | r | s =>
      exact iff_of_true canonical_nil (by simp)
  | _ => cases hinteger

/-- Initialization gives canonical fields, the transaction type apart. -/
def initCanonical (api : TxApi) (args : TxInitArgs) : RlpVar → Prop
  | .txtype => api.hasTxtype = true ∧ args.txtype ≠ 0
  | _ => True

/-- Whether the input that set an object last is canonical. -/
def inputsCanonical (api : TxApi) (args : TxInitArgs) (setters : List Setter) :
    RlpVar → Prop :=
  setters.foldl
    (fun ok setter => Function.update ok setter.target setter.CanonicalInput)
    (initCanonical api args)

section Build

variable {api : TxApi} {env : SendEnv} {args : TxInitArgs}
  {state state' : SendState}

theorem txInitGasPrice_wrote
    (hzero : state.tx.rawtxFields.gasprice.fieldLen = 0)
    (hrun : txInitGasPrice api env args state = .ok () state') :
    Wrote .gasprice True state state' := by
  unfold txInitGasPrice at hrun
  split at hrun
  · refine (txSetGasPrice_wrote hrun).congr (iff_true_intro ?_)
    intro gasprice hgasprice
    obtain ⟨text, _, rfl⟩ := Option.mem_map.mp hgasprice
    exact isCanonical_ofHex _ _
  · cases hrun
    refine ⟨rfl, ?_, fun _ => iff_true_intro ?_⟩
    · intro other hother
      cases other <;> first | rfl | exact absurd rfl hother
    · simp [RawtxFields.bytes, RawtxFields.stringLen, hzero, canonical_nil]

theorem txInitRecipient_wrote {recipientStr : List Char}
    (hrun : txInitRecipient api recipientStr state = .ok () state') :
    Wrote .recipient True state state' := by
  unfold txInitRecipient at hrun
  cases hrecipient : api.recipient recipientStr with
  | error code =>
      rw [hrecipient] at hrun
      cases hrun
  | ok recipient =>
      rw [hrecipient] at hrun
      exact txSetRecipient_wrote hrun

/-- An initialized transaction. -/
theorem txInit_canonicalWhere
    (hrun : txInit api env args state = .ok () state') :
    state'.tx.networkInfo = state.tx.networkInfo ∧
      CanonicalWhere (initCanonical api args) state' := by
  unfold txInit at hrun
  split at hrun
  · cases hrun
  · obtain ⟨_, cleared, hclear, hrun⟩ := Exec.bind_eq_ok.mp hrun
    obtain ⟨_, priced, hprice, hrun⟩ := Exec.bind_eq_ok.mp hrun
    obtain ⟨_, limited, hlimit, hrun⟩ := Exec.bind_eq_ok.mp hrun
    obtain ⟨_, addressed, haddress, hrun⟩ := Exec.bind_eq_ok.mp hrun
    obtain ⟨_, valued, hvalue, htxtype⟩ := Exec.bind_eq_ok.mp hrun
    cases hclear
    have hcanonical := (txSetValue_wrote hvalue).canonicalWhere
      ((txInitRecipient_wrote haddress).canonicalWhere
        ((txSetGasLimit_wrote hlimit).canonicalWhere
          ((txInitGasPrice_wrote rfl hprice).canonicalWhere
            (canonicalWhere_clear state args.isPrivate))))
    have hnetwork : valued.tx.networkInfo = state.tx.networkInfo := by
      rw [(txSetValue_wrote hvalue).networkInfo,
        (txInitRecipient_wrote haddress).networkInfo,
        (txSetGasLimit_wrote hlimit).networkInfo,
        (txInitGasPrice_wrote rfl hprice).networkInfo]
      rfl
    cases hkind : api.hasTxtype with
    | false =>
        rw [hkind] at htxtype
        obtain ⟨_, rfl⟩ := Exec.pure_eq_ok.mp htxtype
        refine ⟨hnetwork, hcanonical.congr fun object hinteger => ?_⟩
        cases object <;>
          simp [initCanonical, Function.update, hkind, localField,
            isCanonical_ofHex]
    | true =>
        rw [hkind] at htxtype
        have hwrote := txSetTxtype_wrote htxtype
        refine ⟨hwrote.networkInfo.trans hnetwork,
          (hwrote.canonicalWhere hcanonical).congr fun object hinteger => ?_⟩
        cases object <;>
          simp [initCanonical, Function.update, hkind, localField,
            isCanonical_ofHex]

/-- The setters called after one another, by induction on the calls. -/
theorem setters_canonicalWhere {setters : List Setter}
    {ok : RlpVar → Prop} (hok : CanonicalWhere ok state)
    (hrun : setters.forM (Setter.call api env) state = .ok () state') :
    state'.tx.networkInfo = state.tx.networkInfo ∧
      CanonicalWhere (setters.foldl (fun ok setter =>
        Function.update ok setter.target setter.CanonicalInput) ok) state' := by
  induction setters generalizing state ok with
  | nil =>
      obtain ⟨_, rfl⟩ := Exec.pure_eq_ok.mp hrun
      exact ⟨rfl, hok⟩
  | cons setter setters ih =>
      obtain ⟨mid, hcall, hrest⟩ := Exec.forM_cons_eq_ok hrun
      have hwrote := Setter.call_wrote hcall
      obtain ⟨hnetwork, hcanonical⟩ := ih (hwrote.canonicalWhere hok) hrest
      exact ⟨hnetwork.trans hwrote.networkInfo, hcanonical⟩

/-- The integer fields of a transaction as it was built. -/
theorem buildTx_canonicalWhere {setters : List Setter}
    (hrun : buildTx api env args setters state = .ok () state') :
    state'.tx.networkInfo = state.tx.networkInfo ∧
      CanonicalWhere (inputsCanonical api args setters) state' := by
  obtain ⟨_, initialized, hinit, hsetters⟩ := Exec.bind_eq_ok.mp hrun
  obtain ⟨hinitNetwork, hinitCanonical⟩ := txInit_canonicalWhere hinit
  obtain ⟨hnetwork, hcanonical⟩ :=
    setters_canonicalWhere hinitCanonical hsetters
  exact ⟨hnetwork.trans hinitNetwork, hcanonical⟩

end Build

/-- The protocols of the Ethereum family. -/
inductive EthFamily where
  | ethereum
  | platon (boatEthBech32Decode : List Char → Option (Block 20))
  | platone
  | quorum

namespace EthFamily

def sender : EthFamily → Sender
  | .ethereum => ethSender
  | .platon _ => platonSender
  | .platone => platoneSender
  | .quorum => quorumSender

def api : EthFamily → TxApi
  | .ethereum => ethApi
  | .platon boatEthBech32Decode => platonApi boatEthBech32Decode
  | .platone => platoneApi
  | .quorum => quorumApi

theorem wellFormed (family : EthFamily) :
    ∃ changes, family.sender.WellFormed changes ∧
      ∀ object ∈ changes, object.isInteger = false := by
  cases family with
  | ethereum => exact ⟨_, ethSender_wellFormed, by simp⟩
  | platon _ => exact ⟨_, platonSender_wellFormed, by simp⟩
  | platone => exact ⟨_, platoneSender_wellFormed, by simp⟩
  | quorum => exact ⟨_, quorumSender_wellFormed, by simp [RlpVar.isInteger]⟩

theorem quiet (family : EthFamily) (env : SendEnv) :
    family.sender.Quiet env := by
  cases family with
  | ethereum => exact ethSender_quiet env
  | platon _ => exact platonSender_quiet env
  | platone => exact platoneSender_quiet env
  | quorum => exact quorumSender_quiet env

theorem eip155_sender (family : EthFamily) : family.sender.eip155 = true := by
  cases family <;> rfl

theorem plainBase_pos (family : EthFamily) (tx : BoatTx) :
    0 < family.sender.plainBase tx ∧ family.sender.plainBase tx ≤ 37 := by
  cases family with
  | quorum =>
      simp only [sender, quorumSender]
      split <;> decide
  | _ => exact ⟨(by decide : 0 < 27), (by decide : 27 ≤ 37)⟩

end EthFamily

/-- When the inputs of a transaction give canonical integers only: the fields
as they were set, a chain id other than zero where EIP-155 signs it, and no `v`
that wraps to zero. -/
structure CanonicalInputs (family : EthFamily) (args : TxInitArgs)
    (setters : List Setter) (networkInfo : NetworkInfo) (parity : Nat) :
    Prop where
  fields : ∀ object ∈ family.sender.leading, object.isInteger = true →
    inputsCanonical family.api args setters object
  chainId : networkInfo.eip155Compatibility = true → networkInfo.chainId ≠ 0
  v : networkInfo.eip155Compatibility = true →
    buint32 (networkInfo.chainId * 2 + parity + 35) ≠ 0

/-- The integer items of the signed and of the sent list are canonical.  The
leading items carry the object they come from. -/
structure IntegersCanonical (leading : List (RlpVar × List UInt8))
    (placeholders signatureItems : List (List UInt8)) : Prop where
  leading : ∀ entry ∈ leading, entry.1.isInteger = true → Canonical entry.2
  placeholders : ∀ item ∈ placeholders, Canonical item
  signatureItems : ∀ item ∈ signatureItems, Canonical item

section Items

variable (family : EthFamily) (tx : BoatTx)

theorem placeholders_canonical (hnetwork : tx.networkInfo.Accepted) :
    (∀ item ∈ family.sender.placeholders tx, Canonical item) ↔
      (tx.networkInfo.eip155Compatibility = true →
        tx.networkInfo.chainId ≠ 0) := by
  have hlt : tx.networkInfo.chainId < 256 ^ 4 :=
    (NetworkInfo.accepted_iff _).mp hnetwork
  rw [Sender.placeholders, Sender.usesEip155, family.eip155_sender,
    Bool.true_and]
  split
  next heip155 =>
    simp [heip155, canonical_nil, utilityUint32ToBigend,
      canonical_utilityUintToBigend hlt]
  next hplain => simp [hplain]

theorem signatureItems_canonical (signature : BoatSignatureResult) :
    (∀ item ∈ family.sender.signatureItems tx signature, Canonical item) ↔
      (tx.networkInfo.eip155Compatibility = true →
        buint32 (tx.networkInfo.chainId * 2 + sigParity signature + 35) ≠
          0) := by
  have hbase := family.plainBase_pos tx
  have hparity : sigParity signature < 256 := by
    rw [sigParity]
    split
    · exact signature.signPrefix.toNat_lt
    · decide
  have hvalue : family.sender.vValue tx (sigParity signature) < 256 ^ 4 := by
    rw [Sender.vValue]
    split
    · exact buint32_lt _
    · omega
  simp only [Sender.signatureItems, List.mem_cons, List.not_mem_nil,
    or_false, forall_eq_or_imp, forall_eq, canonical_trimLeft, and_true,
    utilityUint32ToBigend, canonical_utilityUintToBigend hvalue]
  rw [Sender.vValue, Sender.usesEip155, family.eip155_sender, Bool.true_and]
  split
  next heip155 => simp [heip155]
  next hplain =>
    refine iff_of_true ?_ fun heip155 => absurd heip155 hplain
    omega

end Items

section Send

variable (family : EthFamily) {env : SendEnv} {args : TxInitArgs}
  {setters : List Setter} {state built : SendState}

/-- What a run of a sender hashed and sent, the leading items with the objects
they come from. -/
structure SentEntries (family : EthFamily) (env : SendEnv)
    (built sent : SendState) (leading : List (RlpVar × List UInt8))
    (signature : BoatSignatureResult) : Prop where
  objects : leading.map (·.1) = family.sender.leading
  sent : ∃ message request,
    sent.events = built.events ++ [.hashed message, .sent request] ∧
    boatSignature env (env.keccak256 message) = .ok signature ∧
    message = Rlp.encode (itemsOf (leading.map (·.2) ++
      family.sender.placeholders built.tx)) ∧
    request.Carries (leading.map (·.2) ++
      family.sender.signatureItems built.tx signature)

/-- The integers among the leading items are the fields as they were built. -/
theorem sendRawtx_entries (hmalloc : Fresh env.malloc)
    (hsends : (Exec.final (sendRawtx family.sender env built)).sends ≠
      built.sends) :
    ∃ leading signature, SentEntries family env built
        (Exec.final (sendRawtx family.sender env built)) leading signature ∧
      ∀ entry ∈ leading, entry.1.isInteger = true →
        entry.2 = built.tx.rawtxFields.bytes entry.1 := by
  obtain ⟨changes, hsender, hchanges⟩ := family.wellFormed
  obtain ⟨fields, message, signature, stream, request, hfields, hevents,
    hsignature, hmessage, hstream, hsize, hrequest⟩ :=
      sendRawtx_sent hsender (family.quiet env) hmalloc hsends
  have hitems : (family.sender.leading.map fun object =>
      (object, fields.bytes object)).map (·.2) =
        family.sender.leading.map fields.bytes := by
    simp [Function.comp_def]
  refine ⟨family.sender.leading.map fun object => (object, fields.bytes object),
    signature, ⟨by simp [Function.comp_def], message, request, hevents,
      hsignature, ?_, ?_⟩, ?_⟩
  · rw [hitems]
    exact hmessage
  · rw [hitems]
    exact ⟨hstream ▸ hsize, hstream ▸ hrequest⟩
  · intro entry hentry hinteger
    obtain ⟨object, _, rfl⟩ := List.mem_map.mp hentry
    refine hfields object fun hmem => ?_
    rw [hchanges object hmem] at hinteger
    cases hinteger

/-- The integers of a transaction that was built and sent, whether or not the
send succeeds, are canonical if and only if its inputs give canonical
integers. -/
theorem sendRawtx_integersCanonical_iff (hmalloc : Fresh env.malloc)
    (hnetwork : state.tx.networkInfo.Accepted)
    (hbuild : buildTx family.api env args setters state = .ok () built)
    (hsends : (Exec.final (sendRawtx family.sender env built)).sends ≠
      built.sends) :
    ∃ leading signature, SentEntries family env built
        (Exec.final (sendRawtx family.sender env built)) leading signature ∧
      (IntegersCanonical leading (family.sender.placeholders built.tx)
          (family.sender.signatureItems built.tx signature) ↔
        CanonicalInputs family args setters state.tx.networkInfo
          (sigParity signature)) := by
  obtain ⟨leading, signature, hsent, hentries⟩ :=
    sendRawtx_entries family hmalloc hsends
  obtain ⟨hbuiltNetwork, hcanonical⟩ := buildTx_canonicalWhere hbuild
  have hleading : (∀ entry ∈ leading, entry.1.isInteger = true →
      Canonical entry.2) ↔
        ∀ object ∈ family.sender.leading, object.isInteger = true →
          inputsCanonical family.api args setters object := by
    rw [← hsent.objects, List.forall_mem_map]
    refine forall₂_congr fun entry hentry => forall_congr' fun hinteger => ?_
    rw [hentries entry hentry hinteger]
    exact hcanonical entry.1 hinteger
  have hchain := placeholders_canonical family built.tx
    (hbuiltNetwork ▸ hnetwork)
  have hv := signatureItems_canonical family built.tx signature
  rw [hbuiltNetwork] at hchain hv
  refine ⟨leading, signature, hsent, ?_⟩
  constructor
  · intro hcanonical
    exact ⟨hleading.mp hcanonical.leading, hchain.mp hcanonical.placeholders,
      hv.mp hcanonical.signatureItems⟩
  · intro hinputs
    exact ⟨hleading.mpr hinputs.fields, hchain.mpr hinputs.chainId,
      hv.mpr hinputs.v⟩

/-- Texts that initialize a transaction with gas price and gas limit 1. -/
def sampleArgs : TxInitArgs where
  gaspriceStr := some "0x01".toList
  gaslimitStr := some "0x01".toList
  recipientStr := "0x1111111111111111111111111111111111111111".toList
  netPrice := .ok []
  txtype := 0
  isPrivate := false

/-- A build and a run of the Ethereum sender that both succeed. -/
theorem exists_sample_run (setters : List Setter)
    (hrun : succeeds ((do
        buildTx ethApi (sampleEnv 1) sampleArgs setters
        ethSendRawtx (sampleEnv 1)) (sampleState ⟨1, true⟩ .zero)) = true) :
    ∃ built sent,
      buildTx ethApi (sampleEnv 1) sampleArgs setters
        (sampleState ⟨1, true⟩ .zero) = .ok () built ∧
      ethSendRawtx (sampleEnv 1) built = .ok () sent := by
  obtain ⟨sent, hsent⟩ := exists_of_succeeds _ hrun
  obtain ⟨_, built, hbuild, hsend⟩ := Exec.bind_eq_ok.mp hsent
  exact ⟨built, sent, hbuild, hsend⟩

/-- The transaction with the nonce 1 is built and sent on chain 1. -/
theorem sendRawtx_integersCanonical_iff_sample :
    ∃ built sent,
      buildTx ethApi (sampleEnv 1) sampleArgs [.nonce 1 (.ok [])]
        (sampleState ⟨1, true⟩ .zero) = .ok () built ∧
      ethSendRawtx (sampleEnv 1) built = .ok () sent ∧
      ∃ leading signature,
        SentEntries .ethereum (sampleEnv 1) built sent leading signature ∧
        (IntegersCanonical leading (ethSender.placeholders built.tx)
            (ethSender.signatureItems built.tx signature) ↔
          CanonicalInputs .ethereum sampleArgs [.nonce 1 (.ok [])] ⟨1, true⟩
            (sigParity signature)) := by
  obtain ⟨built, sent, hbuild, hsend⟩ := exists_sample_run
    [.nonce 1 (.ok [])] (by decide +kernel)
  have hcanonical := sendRawtx_integersCanonical_iff .ethereum zeroMalloc_fresh
    ((NetworkInfo.accepted_iff _).mpr (by decide)) hbuild
    (sendRawtx_sends_ne ethSender_wellFormed zeroMalloc_fresh hsend)
  rw [show sendRawtx EthFamily.ethereum.sender (sampleEnv 1) built = _ from
    hsend] at hcanonical
  exact ⟨built, sent, hbuild, hsend, hcanonical⟩

/-- A first transaction, of nonce zero, is sent with the nonce `00`. -/
theorem sendRawtx_nonce_zero_not_canonical :
    ∃ built sent,
      buildTx ethApi (sampleEnv 1) sampleArgs [.nonce 0 (.ok [])]
        (sampleState ⟨1, true⟩ .zero) = .ok () built ∧
      ethSendRawtx (sampleEnv 1) built = .ok () sent ∧
      ∃ leading signature,
        SentEntries .ethereum (sampleEnv 1) built sent leading signature ∧
        (RlpVar.nonce, [0]) ∈ leading ∧
        ¬ IntegersCanonical leading (ethSender.placeholders built.tx)
            (ethSender.signatureItems built.tx signature) := by
  obtain ⟨built, sent, hbuild, hsend⟩ := exists_sample_run
    [.nonce 0 (.ok [])] (by decide +kernel)
  obtain ⟨leading, signature, hsent, hentries⟩ :=
    sendRawtx_entries .ethereum zeroMalloc_fresh
      (sendRawtx_sends_ne ethSender_wellFormed zeroMalloc_fresh hsend)
  rw [show sendRawtx EthFamily.ethereum.sender (sampleEnv 1) built = _ from
    hsend] at hsent
  have hbytes : (Exec.final (buildTx ethApi (sampleEnv 1) sampleArgs
      [.nonce 0 (.ok [])] (sampleState ⟨1, true⟩ .zero))).tx.rawtxFields.bytes
        .nonce = [0] := by decide +kernel
  rw [hbuild] at hbytes
  have hnonce : RlpVar.nonce ∈ leading.map (·.1) := by
    rw [hsent.objects]
    decide
  obtain ⟨⟨object, item⟩, hentry, rfl⟩ := List.mem_map.mp hnonce
  obtain rfl : item = [0] := (hentries _ hentry rfl).trans hbytes
  refine ⟨built, sent, hbuild, hsend, leading, signature, hsent, hentry,
    fun hcanonical => ?_⟩
  exact absurd (hcanonical.leading _ hentry rfl) (by decide)

end Send

end BoatFramework
