/-
The two passes of a submission over the packers, as a node reads them: the
envelope of the proposal that endorsers sign, and the one of the transaction
that orderers get, are about one transaction.
-/
import BoatFramework.Hlfabric.Packing

namespace BoatFramework

open Protobuf Exec

section Reading

/-- The endorsement in a field, as a node reads it. -/
def readEndorsement (bytes : List UInt8) : Option Endorsement := do
  let fields ← parseFields bytes
  some ⟨(contentOf 1 fields).getD [], (contentOf 2 fields).getD []⟩

/-- All endorsements of an endorsed action. -/
def readEndorsements (bytes : List UInt8) : Option (List Endorsement) := do
  let fields ← parseFields bytes
  (contentsOf 2 fields).mapM readEndorsement

/-- An envelope is signed: its second field is a signature of the first. -/
def SignedBy (crypto : FabricCrypto) (envelope : List UInt8) : Prop :=
  ∃ payload digest signature, contentAt [1] envelope = some payload ∧
    crypto.sha256 payload = .ok digest ∧
    crypto.sign digest = .ok (some signature) ∧
    contentAt [2] envelope = some signature

/-- The envelopes of a proposal and of a transaction are about one transaction:
their headers are the same bytes, also where the transaction repeats one, the
transaction carries the proposal's payload and what the endorsers gave, the
transaction id is the hash of the nonce and the creator in the header, and both
are signed. -/
structure OneTransaction (crypto : FabricCrypto) (nonce : List UInt8)
    (action : EndorsedAction) (proposal transaction : List UInt8) : Prop where
  channelHeader : ∃ header, contentAt [1, 1, 1] proposal = some header ∧
    contentAt [1, 1, 1] transaction = some header
  signatureHeader : ∃ header, contentAt [1, 1, 2] proposal = some header ∧
    contentAt [1, 1, 2] transaction = some header ∧
    contentAt [1, 2, 1, 1] transaction = some header
  proposalPayload : ∃ payload, contentAt [1, 2] proposal = some payload ∧
    contentAt [1, 2, 1, 2, 1] transaction = some payload
  txId : ∃ creator digest, contentAt [1, 1, 2, 1] proposal = some creator ∧
    contentAt [1, 1, 2, 2] proposal = some nonce ∧
    crypto.sha256 (nonce ++ creator) = .ok digest ∧
    contentAt [1, 1, 1, 5] proposal = some (asciiBytes (Hex.toHex digest.1))
  responsePayload : contentAt [1, 2, 1, 2, 2, 1] transaction =
    some action.proposalResponsePayload
  endorsements : (contentAt [1, 2, 1, 2, 2] transaction).bind
    readEndorsements = some action.endorsements
  proposalSigned : SignedBy crypto proposal
  transactionSigned : SignedBy crypto transaction

end Reading

/-- A run that ends without a code of its own. -/
def NeverRefuses {α : Type} (run : Outcome α) : Prop :=
  ∀ code, run ≠ .error (.code code)

section Refusals

variable {α β : Type} {crypto : FabricCrypto}
  {accountCertContent : BoatCertInfoCfg} {var : BoatHlfabricVariable}

theorem neverRefuses_ok (a : α) : NeverRefuses (.ok a : Outcome α) :=
  fun _ hrun => by cases hrun

theorem NeverRefuses.bind {run : Outcome α} {next : α → Outcome β}
    (hrun : NeverRefuses run) (hnext : ∀ a, NeverRefuses (next a)) :
    NeverRefuses (run >>= next) := by
  cases run with
  | ok a => exact hnext a
  | error e =>
      cases e with
      | code code => exact absurd rfl (hrun code)
      | undefined => exact fun _ hcode => by cases hcode

theorem NeverRefuses.packetFail {run : Outcome α} (hrun : NeverRefuses run) :
    packetFail run = run := by
  cases run with
  | ok a => rfl
  | error e =>
      cases e with
      | code code => exact absurd rfl (hrun code)
      | undefined => rfl

theorem inBlock_neverRefuses (bits : Nat) (bytes : List UInt8) :
    NeverRefuses (inBlock bits bytes) := by
  unfold inBlock
  split
  next => exact neverRefuses_ok bytes
  next => exact fun _ hcode => by cases hcode

theorem packFields_neverRefuses (bits : Nat) (fields : List Field) :
    NeverRefuses (packFields bits fields) :=
  inBlock_neverRefuses bits _

theorem loadAt_neverRefuses (block : List UInt8) (offset len : Nat) :
    NeverRefuses (loadAt block offset len) := by
  unfold loadAt
  split
  next => exact neverRefuses_ok _
  next => exact fun _ hcode => by cases hcode

theorem signatureHeader_neverRefuses
    (hhash : ∀ bytes, ∃ digest, crypto.sha256 bytes = .ok digest) :
    NeverRefuses
      (hlfabricSignatureHeaderPacked crypto accountCertContent var) := by
  refine (loadAt_neverRefuses _ _ _).bind fun idBytes => ?_
  refine (packFields_neverRefuses _ _).bind fun creator => ?_
  refine (inBlock_neverRefuses _ _).bind fun material => ?_
  obtain ⟨digest, hdigest⟩ := hhash material
  have hrun : crypto.hash material = .ok digest := by
    rw [FabricCrypto.hash, hdigest]
  rw [hrun, except_ok_bind]
  exact (packFields_neverRefuses _ _).bind fun _ => neverRefuses_ok _

theorem proposalPayload_neverRefuses (var : BoatHlfabricVariable) :
    NeverRefuses (hlfabricProposalPayloadDataPacked var) :=
  (packFields_neverRefuses _ _).bind fun _ => packFields_neverRefuses _ _

theorem payloadData_neverRefuses (action : Option EndorsedAction) :
    NeverRefuses (payloadDataPacked crypto accountCertContent var action) := by
  cases action with
  | none => exact proposalPayload_neverRefuses var
  | some action =>
      refine (proposalPayload_neverRefuses var).bind fun payloadData => ?_
      refine (packFields_neverRefuses _ _).bind fun payload => ?_
      split
      next => exact fun _ hcode => by cases hcode
      next => exact packFields_neverRefuses _ _

/-- Where the hash does not fail, packing a payload does not either. -/
theorem hlfabricPayloadPacked_neverRefuses
    (hhash : ∀ bytes, ∃ digest, crypto.sha256 bytes = .ok digest)
    (action : Option EndorsedAction) :
    NeverRefuses
      (hlfabricPayloadPacked crypto accountCertContent var action) := by
  rw [hlfabricPayloadPacked, (signatureHeader_neverRefuses hhash).packetFail,
    (payloadData_neverRefuses action).packetFail]
  apply (signatureHeader_neverRefuses hhash).bind
  rintro ⟨txIdBin, signatureHeader⟩
  have hchannel : NeverRefuses (hlfabricChannelHeaderPacked var txIdBin) :=
    packFields_neverRefuses _ _
  dsimp only
  rw [hchannel.packetFail]
  refine hchannel.bind fun channelHeader => ?_
  exact (payloadData_neverRefuses action).bind fun _ =>
    packFields_neverRefuses _ _

end Refusals

section Packed

variable {crypto : FabricCrypto} {accountCertContent : BoatCertInfoCfg}
  {var : BoatHlfabricVariable} {action : Option EndorsedAction}

theorem packFields_eq_ok {bits : Nat} {fields : List Field}
    {bytes : List UInt8} (hrun : packFields bits fields = .ok bytes) :
    bytes = writeFields fields := by
  rw [packFields, inBlock] at hrun
  split at hrun
  next => exact (Except.ok.inj hrun).symm
  next => cases hrun

/-- What is in a signature header, and what the transaction id is made of. -/
theorem signatureHeader_eq_ok {txIdBin : Bytes 32} {header : List UInt8}
    (hrun : hlfabricSignatureHeaderPacked crypto accountCertContent var =
      .ok (txIdBin, header)) :
    ∃ creator, header = writeFields [.bytes 1 creator, .bytes 2 var.nonce] ∧
      crypto.sha256 (var.nonce ++ creator) = .ok txIdBin := by
  obtain ⟨_, _, hrun⟩ := except_bind_eq_ok.mp hrun
  obtain ⟨creator, _, hrun⟩ := except_bind_eq_ok.mp hrun
  obtain ⟨material, hmaterial, hrun⟩ := except_bind_eq_ok.mp hrun
  obtain ⟨digest, hdigest, hrun⟩ := except_bind_eq_ok.mp hrun
  obtain ⟨bytes, hbytes, hrun⟩ := except_bind_eq_ok.mp hrun
  obtain ⟨rfl, rfl⟩ := Prod.mk.inj (Except.ok.inj hrun)
  refine ⟨creator, packFields_eq_ok hbytes, ?_⟩
  rw [inBlock] at hmaterial
  split at hmaterial
  next =>
    obtain rfl := Except.ok.inj hmaterial
    rw [FabricCrypto.hash] at hdigest
    split at hdigest
    next hsha =>
      rw [hsha, Except.ok.inj hdigest]
    next => cases hdigest
  next => cases hmaterial

theorem packetFail_eq_ok {α : Type} {run : Outcome α} {a : α}
    (hrun : packetFail run = .ok a) : run = .ok a := by
  unfold packetFail at hrun
  split at hrun
  next => cases hrun
  next => exact hrun

/-- The parts of a payload. -/
theorem hlfabricPayloadPacked_eq_ok {payload : List UInt8}
    (hrun : hlfabricPayloadPacked crypto accountCertContent var action =
      .ok payload) :
    ∃ txIdBin signatureHeader data,
      hlfabricSignatureHeaderPacked crypto accountCertContent var =
        .ok (txIdBin, signatureHeader) ∧
      payloadDataPacked crypto accountCertContent var action = .ok data ∧
      payload = writeFields [.bytes 1 (writeFields
        [.bytes 1 (writeFields (channelHeaderFields var txIdBin)),
          .bytes 2 signatureHeader]), .bytes 2 data] := by
  obtain ⟨⟨txIdBin, signatureHeader⟩, hheader, hrun⟩ :=
    except_bind_eq_ok.mp hrun
  obtain ⟨channelHeader, hchannel, hrun⟩ := except_bind_eq_ok.mp hrun
  obtain ⟨data, hdata, hrun⟩ := except_bind_eq_ok.mp hrun
  obtain rfl := packFields_eq_ok (packetFail_eq_ok hchannel)
  exact ⟨txIdBin, signatureHeader, data, packetFail_eq_ok hheader,
    packetFail_eq_ok hdata, packFields_eq_ok hrun⟩

/-- The parts of a transaction's data. -/
theorem transactionPayload_eq_ok {endorsed : EndorsedAction}
    {data : List UInt8}
    (hrun : hlfabricTransactionPayloadDataPacked crypto accountCertContent var
      endorsed = .ok data) :
    ∃ payloadData txIdBin header,
      hlfabricProposalPayloadDataPacked var = .ok payloadData ∧
      hlfabricSignatureHeaderPacked crypto accountCertContent var =
        .ok (txIdBin, header) ∧
      data = writeFields [.bytes 1 (writeFields [.bytes 1 header,
        .bytes 2 (writeFields [.bytes 1 payloadData,
          .bytes 2 (writeFields (endorsedActionFields endorsed))])])] := by
  obtain ⟨payloadData, hpayload, hrun⟩ := except_bind_eq_ok.mp hrun
  obtain ⟨chaincodeActionPayload, hchaincode, hrun⟩ :=
    except_bind_eq_ok.mp hrun
  obtain rfl := packFields_eq_ok hchaincode
  split at hrun
  next => cases hrun
  next txIdBin header hheader =>
    exact ⟨payloadData, txIdBin, header, hpayload, hheader,
      packFields_eq_ok hrun⟩

/-- The parts of an envelope, where the hash does not fail. -/
theorem envelopePacked_eq_ok {random : Except BoatResult (Bytes 24)}
    {var' : BoatHlfabricVariable} {envelope : List UInt8}
    (hhash : ∀ bytes, ∃ digest, crypto.sha256 bytes = .ok digest)
    (hrun : envelopePacked crypto accountCertContent var random action =
      .ok (var', envelope)) :
    passVariable var random action = .ok var' ∧
      ∃ payload digest signature,
        hlfabricPayloadPacked crypto accountCertContent var' action =
          .ok payload ∧
        crypto.sha256 payload = .ok digest ∧
        crypto.sign digest = .ok (some signature) ∧
        envelope = writeFields [.bytes 1 payload, .bytes 2 signature] := by
  obtain ⟨passed, hpassed, hrun⟩ := except_bind_eq_ok.mp hrun
  obtain ⟨payload, hpayload, hrun⟩ := except_bind_eq_ok.mp hrun
  obtain ⟨digest, hdigest, hrun⟩ := except_bind_eq_ok.mp hrun
  split at hrun
  next => cases hrun
  next => cases hrun
  next signature hsignature =>
    obtain ⟨rfl, rfl⟩ := Prod.mk.inj (Except.ok.inj hrun)
    refine ⟨hpassed, payload, digest, signature, ?_, ?_, hsignature, rfl⟩
    · rw [signedPayload] at hpayload
      split at hpayload
      next hcode => exact absurd hcode (hlfabricPayloadPacked_neverRefuses
        hhash action _)
      next => exact hpayload
    · rw [FabricCrypto.hash] at hdigest
      split at hdigest
      next hsha =>
        rw [hsha, Except.ok.inj hdigest]
      next => cases hdigest

end Packed

section Contents

variable {crypto : FabricCrypto} {var : BoatHlfabricVariable}
  {front back : List UInt8} {path : List Nat}

/-- A message of two fields. -/
def pairMessage (front back : List UInt8) : List UInt8 :=
  writeFields [.bytes 1 front, .bytes 2 back]

theorem pair_numbered (front back : List UInt8) :
    ∀ field ∈ [Field.bytes 1 front, .bytes 2 back], field.Numbered := by
  simp [Field.Numbered]

theorem single_numbered (content : List UInt8) :
    ∀ field ∈ [Field.bytes 1 content], field.Numbered := by
  simp [Field.Numbered]

/-- No longer than the wire format can say. -/
def Short (bytes : List UInt8) : Prop :=
  bytes.length < 2 ^ 64

theorem Short.content {fields : List Field} {number : Nat}
    {content : List UInt8} (hshort : Short (writeFields fields))
    (hmem : Field.bytes number content ∈ fields) : Short content :=
  Nat.lt_of_le_of_lt (length_content_le hmem) hshort

theorem Short.left (hshort : Short (pairMessage front back)) :
    Short front :=
  @Short.content _ 1 _ hshort List.mem_cons_self

theorem Short.right (hshort : Short (pairMessage front back)) :
    Short back :=
  @Short.content _ 2 _ hshort (List.mem_cons_of_mem _ List.mem_cons_self)

theorem contentAt_pair_first (hshort : Short (pairMessage front back)) :
    contentAt (1 :: path) (pairMessage front back) = contentAt path front :=
  contentAt_cons (pair_numbered front back) hshort rfl

theorem contentAt_pair_second (hshort : Short (pairMessage front back)) :
    contentAt (2 :: path) (pairMessage front back) = contentAt path back :=
  contentAt_cons (pair_numbered front back) hshort rfl

theorem contentAt_single (hshort : Short (writeFields [.bytes 1 front])) :
    contentAt (1 :: path) (writeFields [.bytes 1 front]) =
      contentAt path front :=
  contentAt_cons (single_numbered front) hshort rfl

theorem textField_numbered {number : Nat} (hnumber : number < 2 ^ 29)
    (text : Option CString) :
    ∀ field ∈ textField number text, field.Numbered := by
  intro field hmem
  cases text with
  | none => cases hmem
  | some text =>
      obtain rfl := List.mem_singleton.mp hmem
      exact hnumber

theorem channelHeader_numbered (txIdBin : Bytes 32) :
    ∀ field ∈ channelHeaderFields var txIdBin, field.Numbered := by
  intro field hmem
  rcases List.mem_append.mp hmem with hfront | hback
  · rcases List.mem_cons.mp hfront with rfl | hlast
    · exact ⟨by decide, by decide⟩
    · obtain rfl := List.mem_singleton.mp hlast
      exact (by decide : 3 < 2 ^ 29)
  · rcases List.mem_append.mp hback with hchannel | hrest
    · exact textField_numbered (by decide) _ field hchannel
    · rcases List.mem_cons.mp hrest with rfl | hlast
      · exact (by decide : 5 < 2 ^ 29)
      · obtain rfl := List.mem_singleton.mp hlast
        exact (by decide : 7 < 2 ^ 29)

theorem contentOf_txId (txIdBin : Bytes 32) :
    contentOf 5 (channelHeaderFields var txIdBin) = some (txIdText txIdBin) := by
  rw [channelHeaderFields, textField]
  cases var.channelId with
  | none => rfl
  | some channelId => rfl

theorem txIdText_eq (txIdBin : Bytes 32) :
    txIdText txIdBin = asciiBytes (Hex.toHex txIdBin.1) := by
  rw [txIdText, utilityBinToHex_bare]

/-- The id that a node reads in a channel header. -/
theorem contentAt_txId {txIdBin : Bytes 32}
    (hshort : Short (writeFields (channelHeaderFields var txIdBin))) :
    contentAt [5] (writeFields (channelHeaderFields var txIdBin)) =
      some (asciiBytes (Hex.toHex txIdBin.1)) := by
  rw [contentAt_cons (channelHeader_numbered txIdBin) hshort
    (contentOf_txId txIdBin), txIdText_eq]
  rfl

end Contents

section Endorsed

variable {action : EndorsedAction}

theorem endorsedAction_numbered (action : EndorsedAction) :
    ∀ field ∈ endorsedActionFields action, field.Numbered := by
  intro field hmem
  rcases List.mem_cons.mp hmem with rfl | hrest
  · exact (by decide : 1 < 2 ^ 29)
  · obtain ⟨endorsement, _, rfl⟩ := List.mem_map.mp hrest
    exact (by decide : 2 < 2 ^ 29)

theorem contentsOf_endorsements (number : Nat)
    (endorsements : List Endorsement) :
    contentsOf number (endorsements.map endorsementField) =
      if number = 2 then endorsements.map fun endorsement =>
        pairMessage endorsement.endorser endorsement.signature
      else [] := by
  induction endorsements with
  | nil => exact (ite_self _).symm
  | cons head tail ih =>
      rw [contentsOf] at ih ⊢
      by_cases htwo : number = 2
      · subst htwo
        simpa [endorsementField, pairMessage] using ih
      · have hother : ¬2 = number := fun h => htwo h.symm
        simp [endorsementField, htwo, hother]

theorem contentOf_responsePayload (action : EndorsedAction) :
    contentOf 1 (endorsedActionFields action) =
      some action.proposalResponsePayload := by
  have hothers := contentsOf_endorsements 1 action.endorsements
  rw [if_neg (by decide)] at hothers
  rw [contentOf, endorsedActionFields, contentsOf, List.filterMap_cons]
  change (action.proposalResponsePayload ::
    contentsOf 1 (action.endorsements.map endorsementField)).getLast? = _
  rw [hothers]
  rfl

theorem readEndorsement_written {endorsement : Endorsement}
    (hshort : Short (pairMessage endorsement.endorser endorsement.signature)) :
    readEndorsement (pairMessage endorsement.endorser endorsement.signature) =
      some endorsement := by
  have hparse := parseFields_short
    (pair_numbered endorsement.endorser endorsement.signature) hshort
  rw [readEndorsement, pairMessage, hparse]
  rfl

theorem mapM_readEndorsement {endorsements : List Endorsement}
    (hshort : ∀ endorsement ∈ endorsements,
      Short (pairMessage endorsement.endorser endorsement.signature)) :
    (endorsements.map fun endorsement =>
      pairMessage endorsement.endorser endorsement.signature).mapM
        readEndorsement = some endorsements := by
  induction endorsements with
  | nil => rfl
  | cons head tail ih =>
      obtain ⟨hhead, htail⟩ := List.forall_mem_cons.mp hshort
      rw [List.map_cons, List.mapM_cons, readEndorsement_written hhead,
        ih htail]
      rfl

/-- A node reads the endorsements that were packed. -/
theorem readEndorsements_written
    (hshort : Short (writeFields (endorsedActionFields action))) :
    readEndorsements (writeFields (endorsedActionFields action)) =
      some action.endorsements := by
  have hcontents : contentsOf 2 (endorsedActionFields action) =
      action.endorsements.map fun endorsement =>
        pairMessage endorsement.endorser endorsement.signature := by
    have hall := contentsOf_endorsements 2 action.endorsements
    rw [if_pos rfl] at hall
    exact hall
  rw [readEndorsements,
    parseFields_short (endorsedAction_numbered action) hshort]
  simp only [Option.bind_eq_bind, Option.bind_some, hcontents]
  apply mapM_readEndorsement
  intro endorsement hmem
  exact hshort.content (List.mem_cons_of_mem _
    (List.mem_map.mpr ⟨endorsement, hmem, rfl⟩))

end Endorsed

section Frames

variable {packed : List UInt8} {buf after : SendBuf} {crypto : FabricCrypto}
  {accountCertContent : BoatCertInfoCfg} {var var' : BoatHlfabricVariable}
  {random : Except BoatResult (Bytes 24)} {action : Option EndorsedAction}

theorem hlfabricFrame_fits (hrun : hlfabricFrame packed buf = .ok () after) :
    packed.length + 5 ≤ boatHttp2SendBufMaxLen := by
  obtain ⟨_, mid, _, hrun⟩ := Exec.bind_eq_ok.mp hrun
  split at hrun
  next => cases hrun
  next =>
    obtain ⟨_, late, _, hrun⟩ := Exec.bind_eq_ok.mp hrun
    rw [FrameM.copy] at hrun
    split at hrun
    next => cases hrun
    next hfits =>
      rw [Nat.add_comm]
      exact Nat.le_of_not_lt hfits

/-- What a pass puts into the send buffer. -/
theorem hlfabricProposalTransactionPacked_eq_ok
    (hrun : hlfabricProposalTransactionPacked crypto accountCertContent var
      random action buf = .ok var' after) :
    ∃ envelope, envelopePacked crypto accountCertContent var random action =
        .ok (var', envelope) ∧
      envelope.length + 5 ≤ boatHttp2SendBufMaxLen ∧
      IsGrpcFrame envelope (after.block.1.take after.fieldLen) := by
  rw [hlfabricProposalTransactionPacked] at hrun
  rcases hpacked : envelopePacked crypto accountCertContent var random action
    with e | ⟨passed, envelope⟩
  · rw [hpacked] at hrun
    cases hrun
  · rw [hpacked] at hrun
    obtain ⟨_, mid, hframe, hrun⟩ := Exec.bind_eq_ok.mp hrun
    obtain ⟨rfl, rfl⟩ := Exec.pure_eq_ok.mp hrun
    have hfits := hlfabricFrame_fits hframe
    have hwell := (framesWell_iff .hlfabric envelope).mpr hfits true buf
    exact ⟨envelope, rfl, hfits, (hwell.success mid hframe).2.2⟩

/-- An envelope that fits is framed. -/
theorem hlfabricProposalTransactionPacked_of_fits {envelope : List UInt8}
    (hpacked : envelopePacked crypto accountCertContent var random action =
      .ok (var', envelope))
    (hfits : envelope.length + 5 ≤ boatHttp2SendBufMaxLen) :
    hlfabricProposalTransactionPacked crypto accountCertContent var random action
      buf = .ok var' (buf.framed envelope) := by
  rw [hlfabricProposalTransactionPacked, hpacked]
  exact Exec.bind_eq_ok.mpr ⟨(), _, frame_fits .hlfabric hfits, rfl⟩

end Frames

section Agreement

variable {crypto : FabricCrypto} {accountCertContent : BoatCertInfoCfg}
  {var : BoatHlfabricVariable} {action : Option EndorsedAction}
  {payload signature : List UInt8}

theorem signedBy_of_packed {digest : Bytes 32}
    (hshort : Short (pairMessage payload signature))
    (hdigest : crypto.sha256 payload = .ok digest)
    (hsign : crypto.sign digest = .ok (some signature)) :
    SignedBy crypto (pairMessage payload signature) :=
  ⟨payload, digest, signature, contentAt_pair_first hshort, hdigest, hsign,
    contentAt_pair_second hshort⟩

/-- The ways to the parts of an envelope. -/
structure EnvelopeParts (envelope channelHeader signatureHeader data :
    List UInt8) : Prop where
  channel : ∀ path, contentAt (1 :: 1 :: 1 :: path) envelope =
    contentAt path channelHeader
  header : ∀ path, contentAt (1 :: 1 :: 2 :: path) envelope =
    contentAt path signatureHeader
  body : ∀ path, contentAt (1 :: 2 :: path) envelope = contentAt path data
  channelShort : Short channelHeader
  headerShort : Short signatureHeader
  bodyShort : Short data

theorem envelopeParts_of_packed (channelHeader signatureHeader data signature :
      List UInt8)
    (hshort : Short (pairMessage (pairMessage
      (pairMessage channelHeader signatureHeader) data) signature)) :
    EnvelopeParts (pairMessage (pairMessage
      (pairMessage channelHeader signatureHeader) data) signature)
      channelHeader signatureHeader data := by
  have hpayload := hshort.left
  have hheader := hpayload.left
  refine ⟨fun path => ?_, fun path => ?_, fun path => ?_, hheader.left,
    hheader.right, hpayload.right⟩
  · rw [contentAt_pair_first hshort, contentAt_pair_first hpayload,
      contentAt_pair_first hheader]
  · rw [contentAt_pair_first hshort, contentAt_pair_first hpayload,
      contentAt_pair_second hheader]
  · rw [contentAt_pair_first hshort, contentAt_pair_second hpayload]

/-- What a pass has sent, where the hash does not fail. -/
structure Passed (crypto : FabricCrypto) (accountCertContent : BoatCertInfoCfg)
    (var : BoatHlfabricVariable) (action : Option EndorsedAction)
    (envelope : List UInt8) (txIdBin : Bytes 32)
    (signatureHeader data : List UInt8) : Prop where
  header : hlfabricSignatureHeaderPacked crypto accountCertContent var =
    .ok (txIdBin, signatureHeader)
  body : payloadDataPacked crypto accountCertContent var action = .ok data
  parts : EnvelopeParts envelope
    (writeFields (channelHeaderFields var txIdBin)) signatureHeader data
  signed : SignedBy crypto envelope

theorem envelopePacked_passed {random : Except BoatResult (Bytes 24)}
    {var' : BoatHlfabricVariable} {envelope : List UInt8}
    (hhash : ∀ bytes, ∃ digest, crypto.sha256 bytes = .ok digest)
    (hrun : envelopePacked crypto accountCertContent var random action =
      .ok (var', envelope)) (hshort : Short envelope) :
    passVariable var random action = .ok var' ∧
      ∃ txIdBin signatureHeader data, Passed crypto accountCertContent var'
        action envelope txIdBin signatureHeader data := by
  obtain ⟨hvar, payload, digest, signature, hpayload, hdigest, hsign, rfl⟩ :=
    envelopePacked_eq_ok hhash hrun
  obtain ⟨txIdBin, signatureHeader, data, hheader, hdata, rfl⟩ :=
    hlfabricPayloadPacked_eq_ok hpayload
  exact ⟨hvar, txIdBin, signatureHeader, data, hheader, hdata,
    envelopeParts_of_packed _ _ _ _ hshort,
    signedBy_of_packed hshort hdigest hsign⟩

/-- The parts of a transaction's data, as a node finds them. -/
theorem transactionData_parts {endorsed : EndorsedAction}
    {data signatureHeader : List UInt8} {txIdBin : Bytes 32}
    (hdata : hlfabricTransactionPayloadDataPacked crypto accountCertContent var
      endorsed = .ok data)
    (hheader : hlfabricSignatureHeaderPacked crypto accountCertContent var =
      .ok (txIdBin, signatureHeader)) (hshort : Short data) :
    ∃ payloadData, hlfabricProposalPayloadDataPacked var = .ok payloadData ∧
      contentAt [1, 1] data = some signatureHeader ∧
      contentAt [1, 2, 1] data = some payloadData ∧
      contentAt [1, 2, 2, 1] data = some endorsed.proposalResponsePayload ∧
      (contentAt [1, 2, 2] data).bind readEndorsements =
        some endorsed.endorsements := by
  obtain ⟨payloadData, other, header, hpayload, hsame, rfl⟩ :=
    transactionPayload_eq_ok hdata
  rw [hheader] at hsame
  obtain ⟨_, rfl⟩ := Prod.mk.inj (Except.ok.inj hsame)
  have hinner : Short (pairMessage signatureHeader (pairMessage payloadData
      (writeFields (endorsedActionFields endorsed)))) :=
    @Short.content _ 1 _ hshort List.mem_cons_self
  have haction := hinner.right
  have hendorsed := haction.right
  refine ⟨payloadData, hpayload, ?_, ?_, ?_, ?_⟩
  · rw [contentAt_single hshort]
    exact contentAt_pair_first hinner
  · rw [contentAt_single hshort]
    exact (contentAt_pair_second hinner).trans (contentAt_pair_first haction)
  · rw [contentAt_single hshort]
    refine (contentAt_pair_second hinner).trans
      ((contentAt_pair_second haction).trans ?_)
    exact contentAt_cons (endorsedAction_numbered endorsed) hendorsed
      (contentOf_responsePayload endorsed)
  · rw [contentAt_single hshort]
    have hway := (@contentAt_pair_second _ _ [2] hinner).trans
      (contentAt_pair_second haction)
    change (contentAt [2, 2] (pairMessage signatureHeader (pairMessage payloadData
      (writeFields (endorsedActionFields endorsed))))).bind _ = _
    rw [hway]
    exact readEndorsements_written hendorsed

/-- The nonce of a proposal is what `BoatRandom` has given. -/
theorem passVariable_proposal {random : Except BoatResult (Bytes 24)}
    {var' : BoatHlfabricVariable}
    (hvar : passVariable var random none = .ok var') :
    ∃ nonce : Bytes 24, random = .ok nonce ∧ var'.nonce = nonce.1 := by
  cases random with
  | error code => cases hvar
  | ok nonce =>
      obtain rfl := Except.ok.inj hvar
      exact ⟨nonce, rfl, rfl⟩

/-- The two passes of a submission, where the hash does not fail: what they put
into the send buffer are two frames, whose envelopes are about one transaction
with the nonce of the proposal. -/
theorem hlfabricPasses_oneTransaction {random random' : Except BoatResult (Bytes 24)}
    {endorsed : EndorsedAction} {var' var'' : BoatHlfabricVariable}
    {buf buf' proposed ordered : SendBuf}
    (hhash : ∀ bytes, ∃ digest, crypto.sha256 bytes = .ok digest)
    (hproposal : hlfabricProposalTransactionPacked crypto accountCertContent var
      random none buf = .ok var' proposed)
    (htransaction : hlfabricProposalTransactionPacked crypto accountCertContent
      var' random' (some endorsed) buf' = .ok var'' ordered) :
    ∃ (nonce : Bytes 24) (proposal transaction : List UInt8),
      random = .ok nonce ∧
      IsGrpcFrame proposal (proposed.block.1.take proposed.fieldLen) ∧
      IsGrpcFrame transaction (ordered.block.1.take ordered.fieldLen) ∧
      OneTransaction crypto nonce.1 endorsed proposal transaction := by
  have hmax : boatHttp2SendBufMaxLen = 8192 := rfl
  obtain ⟨proposal, hfirst, hfits, hframe⟩ :=
    hlfabricProposalTransactionPacked_eq_ok hproposal
  obtain ⟨transaction, hsecond, hfits', hframe'⟩ :=
    hlfabricProposalTransactionPacked_eq_ok htransaction
  have hshort : Short proposal := by
    rw [Short]
    omega
  have hshort' : Short transaction := by
    rw [Short]
    omega
  obtain ⟨hvar, txIdBin, signatureHeader, data, hone⟩ :=
    envelopePacked_passed hhash hfirst hshort
  obtain ⟨hvar', txIdBin', signatureHeader', data', htwo⟩ :=
    envelopePacked_passed hhash hsecond hshort'
  obtain rfl := Except.ok.inj hvar'
  obtain ⟨rfl, rfl⟩ := Prod.mk.inj
    (Except.ok.inj (hone.header.symm.trans htwo.header))
  obtain ⟨creator, hheader, hdigest⟩ := signatureHeader_eq_ok hone.header
  obtain ⟨nonce, hrandom, hvalue⟩ := passVariable_proposal hvar
  rw [hvalue] at hheader hdigest
  obtain ⟨payloadData, hpayload, hrepeated, hcarried, hresponse, hendorsed⟩ :=
    transactionData_parts htwo.body htwo.header htwo.parts.bodyShort
  obtain rfl := Except.ok.inj (hone.body.symm.trans hpayload)
  have hheaderShort : Short (pairMessage creator nonce.1) := by
    have hlength := hone.parts.headerShort
    rw [hheader] at hlength
    exact hlength
  refine ⟨nonce, proposal, transaction, hrandom, hframe, hframe',
    ⟨_, hone.parts.channel [], htwo.parts.channel []⟩,
    ⟨signatureHeader, hone.parts.header [], htwo.parts.header [],
      (htwo.parts.body [1, 1]).trans hrepeated⟩,
    ⟨data, hone.parts.body [], (htwo.parts.body [1, 2, 1]).trans hcarried⟩,
    ⟨creator, txIdBin, ?_, ?_, hdigest, ?_⟩,
    (htwo.parts.body [1, 2, 2, 1]).trans hresponse, ?_, hone.signed,
    htwo.signed⟩
  · rw [hone.parts.header [1], hheader]
    exact contentAt_pair_first hheaderShort
  · rw [hone.parts.header [2], hheader]
    exact contentAt_pair_second hheaderShort
  · rw [hone.parts.channel [5]]
    exact contentAt_txId hone.parts.channelShort
  · rw [htwo.parts.body [1, 2, 2]]
    exact hendorsed

end Agreement

section Samples

/-- A hash that is always the same, and a signature. -/
def sampleCrypto : FabricCrypto :=
  ⟨fun _ => .ok (zeroBytes 32), fun _ => .ok (some [5])⟩

def sampleVariable : BoatHlfabricVariable :=
  ⟨⟨0, 0⟩, [], ⟨none, some (.ofBuffer [0x63]), none⟩,
    ⟨[some (.ofBuffer [0x71])], Nat.le_add_left 1 9⟩, none, none⟩

def sampleEndorsed : EndorsedAction :=
  ⟨[7], [⟨[8], [9]⟩]⟩

set_option maxRecDepth 20000 in
theorem hlfabricPasses_sample : ∃ nonce proposal transaction : List UInt8,
    OneTransaction sampleCrypto nonce sampleEndorsed proposal transaction := by
  have hfirst : envelopePacked sampleCrypto ⟨0, zeroBytes 1024⟩ sampleVariable
      (.ok (zeroBytes 24)) none = .ok (_, _) := rfl
  have hsecond : envelopePacked sampleCrypto ⟨0, zeroBytes 1024⟩
      { sampleVariable with nonce := (zeroBytes 24).1 } (.error 0)
      (some sampleEndorsed) = .ok (_, _) := rfl
  obtain ⟨nonce, proposal, transaction, _, _, _, hone⟩ :=
    @hlfabricPasses_oneTransaction sampleCrypto ⟨0, zeroBytes 1024⟩
      sampleVariable _ _ _ _ _ (.zeros 0) (.zeros 0) _ _
      (fun bytes => ⟨zeroBytes 32, rfl⟩)
      (hlfabricProposalTransactionPacked_of_fits hfirst (by decide +kernel))
      (hlfabricProposalTransactionPacked_of_fits hsecond (by decide +kernel))
  exact ⟨nonce.1, proposal, transaction, hone⟩

end Samples

end BoatFramework
