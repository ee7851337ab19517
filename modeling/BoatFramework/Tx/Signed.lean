/-
What is built is what was signed: the list for the node carries the leading
items of the list that was hashed, followed by the signature over that hash.
-/
import BoatFramework.Tx.SenderRun

namespace BoatFramework

open ByteString

/-- Preparing a field touches its storage only, and only if it is one of the
objects the sender changes. -/
structure Prepared (changes : List RlpVar) (object : RlpVar)
    (state mid : SendState) : Prop where
  networkInfo : mid.tx.networkInfo = state.tx.networkInfo
  isPrivate : mid.tx.isPrivate = state.tx.isPrivate
  descriptors : mid.descriptors = state.descriptors
  lengths : mid.stringLen = state.stringLen
  events : mid.events = state.events
  stringPtr : ∀ other, ¬ (other = object ∧ other ∈ changes) →
    mid.tx.rawtxFields.stringPtr other = state.tx.rawtxFields.stringPtr other
  stringLen : ∀ other, ¬ (other = object ∧ other ∈ changes) →
    mid.tx.rawtxFields.stringLen other = state.tx.rawtxFields.stringLen other

/-- The effect of appending the fields of a list of objects. -/
structure Appended (changes objects : List RlpVar)
    (state state' : SendState) : Prop where
  networkInfo : state'.tx.networkInfo = state.tx.networkInfo
  isPrivate : state'.tx.isPrivate = state.tx.isPrivate
  events : state'.events = state.events
  descriptors : state'.descriptors = state.descriptors ++ objects
  stringPtr : ∀ other, ¬ (other ∈ objects ∧ other ∈ changes) →
    state'.tx.rawtxFields.stringPtr other = state.tx.rawtxFields.stringPtr other
  stringLen : ∀ other, ¬ (other ∈ objects ∧ other ∈ changes) →
    state'.tx.rawtxFields.stringLen other = state.tx.rawtxFields.stringLen other
  kept : ∀ other, other ∉ objects →
    state'.stringLen other = state.stringLen other
  captured : ∀ object ∈ objects,
    state'.stringLen object = state'.tx.rawtxFields.stringLen object

/-- What a sender must satisfy: distinct leading objects that leave room for a
signature, and a preparation that stays with its field. -/
structure Sender.WellFormed (sender : Sender) (changes : List RlpVar) :
    Prop where
  length_leading : sender.leading.length ≤ 12
  nodup_leading : sender.leading.Nodup
  leading_unsigned : ∀ object ∈ sender.leading, ¬ object.IsSignature
  prepared : ∀ env object state mid,
    sender.prepare env object state = .ok () mid →
      Prepared changes object state mid
  signedtx_request : ∀ tx signedtx,
    (sender.request tx signedtx).signedtx = signedtx
  plainBase_congr : ∀ left right : BoatTx, left.isPrivate = right.isPrivate →
    sender.plainBase left = sender.plainBase right

section Run

variable {sender : Sender} {changes : List RlpVar} {env : SendEnv}
  {state state' : SendState}

theorem appendField_appended (hsender : sender.WellFormed changes)
    {object : RlpVar} (hroom : state.descriptors.length < maxRlpListDescNum)
    (hrun : appendField sender env object state = .ok () state') :
    Appended changes [object] state state' := by
  obtain ⟨mid, stream, hprepare, rfl⟩ := appendField_ok
    (fun mid hprepare => by
      rw [(hsender.prepared env object state mid hprepare).descriptors]
      exact hroom) hrun
  have hprepared := hsender.prepared env object state mid hprepare
  refine ⟨hprepared.networkInfo, hprepared.isPrivate, hprepared.events, ?_,
    ?_, ?_, ?_, ?_⟩
  · simp [hprepared.descriptors]
  · intro other hother
    exact hprepared.stringPtr other (by simpa using hother)
  · intro other hother
    exact hprepared.stringLen other (by simpa using hother)
  · intro other hother
    have hne : other ≠ object := by simpa using hother
    simp [hne, hprepared.lengths]
  · intro other hother
    obtain rfl : other = object := by simpa using hother
    simp

theorem Appended.cons {object : RlpVar} {objects : List RlpVar}
    {mid : SendState} (hobject : object ∉ objects)
    (hfirst : Appended changes [object] state mid)
    (hrest : Appended changes objects mid state') :
    Appended changes (object :: objects) state state' := by
  refine ⟨hrest.networkInfo.trans hfirst.networkInfo,
    hrest.isPrivate.trans hfirst.isPrivate, hrest.events.trans hfirst.events,
    ?_, ?_, ?_, ?_, ?_⟩
  · rw [hrest.descriptors, hfirst.descriptors, List.append_assoc]
    rfl
  · intro other hother
    rw [hrest.stringPtr other fun hmem =>
        hother ⟨List.mem_cons_of_mem _ hmem.1, hmem.2⟩,
      hfirst.stringPtr other fun hmem =>
        hother ⟨List.mem_cons.mpr (.inl (by simpa using hmem.1)), hmem.2⟩]
  · intro other hother
    rw [hrest.stringLen other fun hmem =>
        hother ⟨List.mem_cons_of_mem _ hmem.1, hmem.2⟩,
      hfirst.stringLen other fun hmem =>
        hother ⟨List.mem_cons.mpr (.inl (by simpa using hmem.1)), hmem.2⟩]
  · intro other hother
    rw [List.mem_cons, not_or] at hother
    rw [hrest.kept other hother.2, hfirst.kept other (by simpa using hother.1)]
  · intro other hother
    rcases List.mem_cons.mp hother with rfl | hmem
    · rw [hrest.kept other hobject,
        hrest.stringLen other fun hmem => hobject hmem.1,
        hfirst.captured other (by simp)]
    · exact hrest.captured other hmem

/-- Appending a list of fields, by induction on the list. -/
theorem appendFields_appended (hsender : sender.WellFormed changes)
    {objects : List RlpVar} (hnodup : objects.Nodup)
    (hroom : state.descriptors.length + objects.length ≤ maxRlpListDescNum)
    (hrun : objects.forM (appendField sender env) state = .ok () state') :
    Appended changes objects state state' := by
  induction objects generalizing state with
  | nil =>
      obtain ⟨_, rfl⟩ := Exec.pure_eq_ok.mp hrun
      exact ⟨rfl, rfl, rfl, by simp, fun _ _ => rfl, fun _ _ => rfl,
        fun _ _ => rfl, by simp⟩
  | cons object objects ih =>
      obtain ⟨mid, hhead, htail⟩ := Exec.forM_cons_eq_ok hrun
      rw [List.length_cons] at hroom
      obtain ⟨hobject, hnodup⟩ := List.nodup_cons.mp hnodup
      have hfirst := appendField_appended hsender (by omega) hhead
      refine hfirst.cons hobject (ih hnodup ?_ htail)
      rw [hfirst.descriptors, List.length_append, List.length_singleton]
      omega

/-- An appended object denotes the bytes of its field. -/
theorem Appended.stringBytes {objects : List RlpVar}
    (happended : Appended changes objects state state') {object : RlpVar}
    (hobject : object ∈ objects) :
    state'.stringBytes object = state'.tx.rawtxFields.bytes object := by
  rw [SendState.stringBytes, RawtxFields.bytes,
    happended.captured object hobject]

/-- The three objects of the signature, put over their placeholders or behind
the leading members, stand behind the leading members either way. -/
theorem relistFields_ok {leading : List RlpVar}
    {indices : Option (Nat × Nat × Nat)}
    {afterV afterR : SendState}
    (hindices :
      (indices = some (leading.length, leading.length + 1,
          leading.length + 2) ∧
        state.descriptors = leading ++ [.v, .r, .s]) ∨
      (indices = none ∧ state.descriptors = leading))
    (hv : relistField sender (indices.map (·.1)) .v state = .ok () afterV)
    (hr : relistField sender (indices.map (·.2.1)) .r afterV = .ok () afterR)
    (hs : relistField sender (indices.map (·.2.2)) .s afterR = .ok () state') :
    state'.tx = state.tx ∧ state'.events = state.events ∧
      state'.descriptors = leading ++ [.v, .r, .s] ∧
      ∀ object, state'.stringBytes object =
        if object.IsSignature then state.tx.rawtxFields.bytes object
        else state.stringBytes object := by
  obtain rfl := relistField_ok hv
  obtain rfl := relistField_ok hr
  obtain rfl := relistField_ok hs
  rcases hindices with ⟨rfl, hdescriptors⟩ | ⟨rfl, hdescriptors⟩
  · refine ⟨rfl, rfl, ?_, ?_⟩
    · simp [SendState.relist, hdescriptors]
    · intro object
      simp only [Option.map_some, SendState.relist, stringBytes_putAt,
        stringBytes_initLen]
      cases object <;> simp [RlpVar.IsSignature]
  · refine ⟨rfl, rfl, ?_, ?_⟩
    · simp [SendState.relist, hdescriptors]
    · intro object
      simp only [Option.map_none, SendState.relist, stringBytes_push,
        stringBytes_initLen]
      cases object <;> simp [RlpVar.IsSignature]

/-- The items that stand for the signature in the list that is hashed. -/
def Sender.placeholders (sender : Sender) (tx : BoatTx) :
    List (List UInt8) :=
  if sender.usesEip155 tx then
    [utilityUint32ToBigend tx.networkInfo.chainId .leftTrim, [], []]
  else []

/-- The three items of a signature. -/
def Sender.signatureItems (sender : Sender) (tx : BoatTx)
    (signature : BoatSignatureResult) : List (List UInt8) :=
  [utilityUint32ToBigend (sender.vValue tx (sigParity signature)) .leftTrim,
    trimLeft signature.rHalf, trimLeft signature.sHalf]

/-- A list of byte strings as an item. -/
def itemsOf (fields : List (List UInt8)) : Rlp.Item :=
  .list (fields.map .str)

/-- The state behind the placeholders: the leading objects denote their fields
as before, and the placeholders follow them where EIP-155 is in use. -/
theorem addPlaceholders_placed {leading : List RlpVar} {placed : SendState}
    {indices : Option (Nat × Nat × Nat)}
    (hleading : ∀ object ∈ leading, ¬ object.IsSignature)
    (hdescriptors : state.descriptors = leading)
    (hplaced : addPlaceholders sender state = .ok indices placed) :
    placed.tx.networkInfo = state.tx.networkInfo ∧
      placed.tx.isPrivate = state.tx.isPrivate ∧
      placed.events = state.events ∧
      (∀ object ∈ leading,
        placed.stringBytes object = state.stringBytes object) ∧
      ((indices = some (leading.length, leading.length + 1,
            leading.length + 2) ∧
          placed.descriptors = leading ++ [.v, .r, .s]) ∨
        (indices = none ∧ placed.descriptors = leading)) ∧
      placed.descriptors.map placed.stringBytes =
        leading.map placed.stringBytes ++ sender.placeholders state.tx := by
  rcases addPlaceholders_ok hplaced with
    ⟨heip155, hindices, rfl⟩ | ⟨hplain, hindices, rfl⟩
  · obtain ⟨hv, hr, hs⟩ := bytes_setPlaceholders state.tx.rawtxFields
      state.tx.networkInfo
    refine ⟨rfl, rfl, rfl, ?_, .inl ⟨by rw [hindices, hdescriptors], ?_⟩, ?_⟩
    · intro object hobject
      have hunsigned := hleading object hobject
      simp only [RlpVar.IsSignature, not_or] at hunsigned
      obtain ⟨hneV, hneR, hneS⟩ := hunsigned
      simp only [SendState.pushSignature, stringBytes_push,
        stringBytes_initLen, hneV, hneR, hneS, ↓reduceIte]
      exact stringBytes_setFields _ _ (setPlaceholders_stringPtr _ _
        (hleading object hobject))
    · simp [SendState.pushSignature, hdescriptors]
    · simp [SendState.pushSignature, hdescriptors, Sender.placeholders,
        heip155, stringBytes_initLen, hv, hr, hs]
  · refine ⟨rfl, rfl, rfl, fun _ _ => rfl, .inr ⟨hindices, hdescriptors⟩, ?_⟩
    rw [hdescriptors]
    simp [Sender.placeholders, hplain]

theorem Sender.vValue_congr (hsender : sender.WellFormed changes)
    {left right : BoatTx} (hnetwork : left.networkInfo = right.networkInfo)
    (hprivate : left.isPrivate = right.isPrivate) (parity : Nat) :
    sender.vValue left parity = sender.vValue right parity := by
  have huses : sender.usesEip155 left = sender.usesEip155 right := by
    rw [usesEip155, usesEip155, hnetwork]
  rw [vValue, vValue, huses, hnetwork,
    hsender.plainBase_congr left right hprivate]

/-- The items the list holds once the signature is in it. -/
theorem relistFields_items {leading : List RlpVar} {signed : SendState}
    {signature : BoatSignatureResult} {value : Nat}
    (hleading : ∀ object ∈ leading, ¬ object.IsSignature)
    (hnative : signature.nativeFormatUsed = true)
    (hfields : state.tx.rawtxFields =
      setV value (setSignature signature signed.tx.rawtxFields))
    (hdescriptors : state'.descriptors = leading ++ [.v, .r, .s])
    (hbytes : ∀ object, state'.stringBytes object =
      if object.IsSignature then state.tx.rawtxFields.bytes object
      else state.stringBytes object) :
    state'.descriptors.map state'.stringBytes =
      leading.map state.stringBytes ++
        [utilityUint32ToBigend value .leftTrim, trimLeft signature.rHalf,
          trimLeft signature.sHalf] := by
  have hv := bytes_setV (setSignature signature signed.tx.rawtxFields) value
  obtain ⟨hr, hs⟩ := bytes_setSignature signed.tx.rawtxFields hnative
  have hlead : leading.map state'.stringBytes = leading.map state.stringBytes :=
    List.map_congr_left fun object hobject => by
      rw [hbytes object, if_neg (hleading object hobject)]
  rw [hdescriptors, List.map_append, hlead]
  simp only [List.map_cons, List.map_nil, hbytes, hfields,
    RlpVar.IsSignature, true_or, or_true, ↓reduceIte, hv]
  rw [← hr, ← hs]
  rfl

/-- What stands ready when a sender turns to the node: the fields of the
transaction, except for the objects it prepares, were hashed and signed, and
the list with the signature was encoded. -/
structure BuiltTx (sender : Sender) (changes : List RlpVar) (env : SendEnv)
    (state mid : SendState) (fields : RawtxFields) (message : List UInt8)
    (signature : BoatSignatureResult) (stream : List UInt8) : Prop where
  appended : ∃ appended,
    sender.leading.forM (appendField sender env)
      (state.setTxHash ⟨state.tx.txHash.field, 0⟩).initList =
        .ok () appended ∧
      appended.tx.rawtxFields = fields
  unchanged : ∀ object, object ∉ changes →
    fields.bytes object = state.tx.rawtxFields.bytes object
  isPrivate : mid.tx.isPrivate = state.tx.isPrivate
  unsigned : ∀ object, ¬ object.IsSignature →
    mid.tx.rawtxFields.bytes object = fields.bytes object
  events : mid.events = state.events ++ [.hashed message]
  signed : boatSignature env (env.keccak256 message) = .ok signature
  messageItems : message = Rlp.encode (itemsOf (sender.leading.map fields.bytes ++
    sender.placeholders state.tx))
  streamItems : stream = Rlp.encode (itemsOf (sender.leading.map fields.bytes ++
    sender.signatureItems state.tx signature))
  size : stream.length < 2 ^ 32

theorem bytes_congr {left right : RawtxFields} {object : RlpVar}
    (hptr : left.stringPtr object = right.stringPtr object)
    (hlen : left.stringLen object = right.stringLen object) :
    left.bytes object = right.bytes object := by
  rw [RawtxFields.bytes, RawtxFields.bytes, hptr, hlen]

theorem bytes_setSignature_unsigned (fields : RawtxFields) (value : Nat)
    (signature : BoatSignatureResult) {object : RlpVar}
    (hobject : ¬ object.IsSignature) :
    (setV value (setSignature signature fields)).bytes object =
      fields.bytes object := by
  cases object <;> first | rfl | simp [RlpVar.IsSignature] at hobject

theorem bytes_setPlaceholders_unsigned (fields : RawtxFields)
    (networkInfo : NetworkInfo) {object : RlpVar}
    (hobject : ¬ object.IsSignature) :
    (setPlaceholders networkInfo fields).bytes object = fields.bytes object := by
  cases object <;> first | rfl | simp [RlpVar.IsSignature] at hobject

theorem addPlaceholders_unsigned {placed : SendState}
    {indices : Option (Nat × Nat × Nat)}
    (hplaced : addPlaceholders sender state = .ok indices placed)
    {object : RlpVar} (hobject : ¬ object.IsSignature) :
    placed.tx.rawtxFields.bytes object = state.tx.rawtxFields.bytes object := by
  rcases addPlaceholders_ok hplaced with ⟨_, _, rfl⟩ | ⟨_, _, rfl⟩
  · exact bytes_setPlaceholders_unsigned _ _ hobject
  · rfl

/-- What the steps in front of the request leave when they succeed. -/
theorem buildRawtx_ok (hsender : sender.WellFormed changes)
    (hmalloc : Fresh env.malloc) {signedtx : List Char} {mid : SendState}
    (hrun : buildRawtx sender env state = .ok signedtx mid) :
    ∃ fields message signature stream,
      BuiltTx sender changes env state mid fields message signature stream ∧
        signedtx = '0' :: 'x' :: Hex.toHex stream := by
  obtain ⟨_, cleared, hinit, hrun⟩ := Exec.bind_eq_ok.mp hrun
  obtain ⟨_, appended, happend, hrun⟩ := Exec.bind_eq_ok.mp hrun
  obtain ⟨indices, placed, hplaced, hrun⟩ := Exec.bind_eq_ok.mp hrun
  obtain ⟨message, encoded, hmessage, hrun⟩ := Exec.bind_eq_ok.mp hrun
  obtain ⟨_, signed, hsigned, hrun⟩ := Exec.bind_eq_ok.mp hrun
  obtain ⟨_, afterV, hv, hrun⟩ := Exec.bind_eq_ok.mp hrun
  obtain ⟨_, afterR, hr, hrun⟩ := Exec.bind_eq_ok.mp hrun
  obtain ⟨_, relisted, hs, hrun⟩ := Exec.bind_eq_ok.mp hrun
  obtain ⟨stream, reEncoded, hstream, htext⟩ := Exec.bind_eq_ok.mp hrun
  obtain rfl := initTx_ok hinit
  have hlength := hsender.length_leading
  have happended := appendFields_appended hsender hsender.nodup_leading
    (by simp [maxRlpListDescNum]; omega) happend
  have hdescriptors : appended.descriptors = sender.leading := by
    simp [happended.descriptors]
  obtain ⟨hnetwork, hprivate, hevents, hleadBytes, hindices, hitems⟩ :=
    addPlaceholders_placed hsender.leading_unsigned hdescriptors hplaced
  have hleading : sender.leading.map placed.stringBytes =
      sender.leading.map appended.tx.rawtxFields.bytes :=
    List.map_congr_left fun object hobject => by
      rw [hleadBytes object hobject, happended.stringBytes hobject]
  obtain ⟨hmessageItems, _⟩ := encodeTx_message hmalloc hmessage
  obtain rfl := encodeTx_state hmessage
  obtain ⟨signature, hsignature, hsignedEq⟩ := signTx_ok hsigned
  obtain ⟨hnative, _⟩ := boatSignature_ok hsignature
  have hsignedDescriptors : signed.descriptors = placed.descriptors := by
    rw [hsignedEq]
    rfl
  have hsignedBytes : sender.leading.map signed.stringBytes =
      sender.leading.map placed.stringBytes :=
    List.map_congr_left fun object hobject => by
      rw [hsignedEq]
      exact stringBytes_setFields _ _ (setSignature_stringPtr _ _ _
        (hsender.leading_unsigned object hobject))
  have hchain : appended.tx.networkInfo = state.tx.networkInfo :=
    happended.networkInfo
  have hkind : appended.tx.isPrivate = state.tx.isPrivate :=
    happended.isPrivate
  have hsignatureItems : sender.signatureItems placed.tx signature =
      sender.signatureItems state.tx signature := by
    rw [Sender.signatureItems, Sender.signatureItems,
      Sender.vValue_congr hsender (hnetwork.trans hchain)
        (hprivate.trans hkind)]
  have hplaceholders : sender.placeholders appended.tx =
      sender.placeholders state.tx := by
    have huses : sender.usesEip155 appended.tx =
        sender.usesEip155 state.tx := by
      rw [Sender.usesEip155, Sender.usesEip155, hchain]
    rw [Sender.placeholders, Sender.placeholders, huses, hchain]
  rw [← hsignedDescriptors] at hindices
  obtain ⟨htx, hrelistedEvents, hrelisted, hrelistedBytes⟩ :=
    relistFields_ok hindices hv hr hs
  have hsentItems : relisted.descriptors.map relisted.stringBytes =
      sender.leading.map signed.stringBytes ++
        sender.signatureItems placed.tx signature :=
    relistFields_items hsender.leading_unsigned hnative
      (by rw [hsignedEq]; rfl) hrelisted hrelistedBytes
  obtain ⟨hstreamItems, hsize⟩ := encodeTx_message hmalloc hstream
  obtain rfl := encodeTx_state hstream
  obtain ⟨rfl, rfl⟩ := streamToHex_ok htext
  refine ⟨appended.tx.rawtxFields, message, signature, stream,
    ⟨⟨appended, happend, rfl⟩, ?_, ?_, ?_, ?_, hsignature, ?_, ?_, hsize⟩, ?_⟩
  · intro object hobject
    exact bytes_congr
      (happended.stringPtr object fun hmem => hobject hmem.2)
      (happended.stringLen object fun hmem => hobject hmem.2)
  · change relisted.tx.isPrivate = _
    rw [htx, hsignedEq]
    exact hprivate.trans hkind
  · intro object hobject
    change relisted.tx.rawtxFields.bytes object = _
    rw [htx, hsignedEq, ← addPlaceholders_unsigned hplaced hobject]
    exact bytes_setSignature_unsigned _ _ _ hobject
  · simp only [SendState.setStream_events, hrelistedEvents, hsignedEq,
      SendState.setFields_events, SendState.record_events, hevents,
      happended.events]
    rfl
  · rw [hmessageItems, ← hplaceholders, ← hleading, ← hitems]
    simp [itemsOf, Function.comp_def]
  · rw [hstreamItems, ← hsignatureItems, ← hleading, ← hsignedBytes,
      ← hsentItems]
    simp [itemsOf, Function.comp_def]
  · refine utilityBinToHex_unfmtData ?_ false
    rw [hstreamItems]
    exact Rlp.encode_ne_nil _

end Run

end BoatFramework
