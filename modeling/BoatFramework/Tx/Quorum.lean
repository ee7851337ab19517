/-
Private transactions of Quorum.  The payload goes to the recipients with a
first request, whose answer is the hash that stands in for it; the transaction
over the hash is signed and sent, with the recipients, in a second one.
-/
import BoatFramework.Tx.Chains
import BoatFramework.Utility.CString

namespace BoatFramework

open ByteString

structure QuorumFillRequest where
  methodName : List Char
  recipient : List Char
  data : List Char
  privateFor : List Char

/-- The recipients that `BoatQuorumTxSetPrivateFor` keeps: 44 bytes, with no
room for a terminator behind a key of full length. -/
def quorumPrivateFor (privatefor : Block 44) : List Char :=
  charsOf (CString.ofBuffer privatefor.bytes).bytes

/-- The text of bytes in a buffer for `len` of them, written without a look at
what the allocation returned. -/
def fillHex (env : SendEnv) (len : Nat) (bytes : List UInt8) :
    Outcome (List Char) :=
  let text := utilityBinToHex bytes .leftTrimUnfmtData true false
  match env.malloc (buint32 (len * 2 + 2 + 1)) with
  | none => .error .undefined
  | some block =>
      if block.length ≤ text.length then .error .undefined else .ok text

/-- The text of the payload; a length beyond its storage is undefined. -/
def fillData (env : SendEnv) (data : BoatFieldVariable) :
    Outcome (List Char) :=
  match data.fieldPtr with
  | none => fillHex env data.fieldLen []
  | some payload =>
      if payload.length < data.fieldLen then .error .undefined
      else fillHex env data.fieldLen (payload.take data.fieldLen)

/-- The request of `QuorumSendFilltx`.  `%s` reads the recipients up to a
terminator, on into the value behind them. -/
def quorumFillRequest (env : SendEnv) (privatefor : Block 44) (tx : BoatTx) :
    Outcome QuorumFillRequest := do
  let fields := tx.rawtxFields
  let data ← fillData env fields.data
  let recipient ← fillHex env 20 fields.recipient.bytes
  let privateFor ← cString (privatefor.bytes ++ fields.value.field.bytes)
  return ⟨"eth_fillTransaction".toList, recipient, data,
    charsOf privateFor.bytes⟩

/-- Ask the node to give the payload to the recipients. -/
def requestFill (env : SendEnv)
    (fillTransaction : QuorumFillRequest → NodeAnswer)
    (privatefor : Block 44) : SendM (List Char) :=
  fun state =>
    match quorumFillRequest env privatefor state.tx with
    | .error failure => .error failure state
    | .ok request =>
        match fillTransaction request with
        | .error code => .error (.code code) state
        | .ok response => .ok response state

/-- The first request, its answer kept in the result buffer. -/
def quorumFilltx (env : SendEnv)
    (fillTransaction : QuorumFillRequest → NodeAnswer)
    (privatefor : Block 44) : SendM Unit := do
  let response ← requestFill env fillTransaction privatefor
  parseResponse quorumSender env response

def quorumSendFilltx (env : SendEnv)
    (fillTransaction : QuorumFillRequest → NodeAnswer)
    (privatefor : Block 44) : SendM Unit := do
  quorumFilltx env fillTransaction privatefor
  quorumSendRawtx env

/-- The hash in the answer of a node to the first request. -/
def payloadHash (cJSONParse : List Char → Option Json) (response : List Char) :
    Option (List UInt8) := do
  let json ← cJSONParse response
  let result ← json.getObjectItem "result".toList
  let tx ← result.getObjectItem "tx".toList
  match ← tx.getObjectItem "input".toList with
  | .string text => Hex.ofHex (text.drop (hexStart text))
  | _ => none

/-- Both requests name the recipients the caller set, and the data that was
signed is the hash of the first answer. -/
structure PrivateConsistent (env : SendEnv) (privatefor : Block 44)
    (fill : QuorumFillRequest) (response : List Char) (request : SendRequest) :
    Prop where
  filled : fill.privateFor = quorumPrivateFor privatefor
  sent : request.extra = [quorumPrivateFor privatefor]
  data : ∃ items hash, request.Carries items ∧ items[5]? = some hash ∧
    payloadHash env.cJSONParse response = some hash

/-- The recipient written into `QuorumSendRawtx`. -/
def exampleRecipient : List Char :=
  "ROAZBWtSacxXQrOe3FGAqJDyJjFePR5ce4TSIzmJ0Bc=".toList

section Run

variable {env : SendEnv} {state state' mid : SendState} {object : RlpVar}

theorem fillPrivateData_other (hobject : object ≠ .data)
    (hrun : quorumSender.prepare env object state = .ok () mid) :
    mid = state := by
  change fillPrivateData env object state = _ at hrun
  unfold fillPrivateData at hrun
  rw [if_neg fun h => hobject h.1] at hrun
  cases hrun
  rfl

/-- The data of a private transaction, made of what the buffer holds. -/
def privateData (block : List UInt8) (buffer : ResultBuffer) : List UInt8 :=
  let written := (utilityHexToBin 64 (buffer.content.getD []) .trimNo false).1
  (written ++ block.drop written.length).take 64

theorem fillPrivateData_data (hprivate : state.tx.isPrivate = true)
    (hrun : quorumSender.prepare env .data state = .ok () mid) :
    ∃ block, env.malloc 64 = some block ∧
      mid = state.setFields { state.tx.rawtxFields with
        data := ⟨some (privateData block state.resultBuf), 64⟩ } := by
  change fillPrivateData env .data state = _ at hrun
  unfold fillPrivateData at hrun
  rw [if_pos ⟨rfl, hprivate⟩] at hrun
  split at hrun
  · cases hrun
  next block hmalloc =>
    cases hrun
    exact ⟨block, hmalloc, rfl⟩

/-- The fields in front of the data leave the buffer alone. -/
theorem appendFields_before {objects : List RlpVar}
    (hdata : RlpVar.data ∉ objects)
    (hroom : state.descriptors.length + objects.length ≤ maxRlpListDescNum)
    (hrun : objects.forM (appendField quorumSender env) state =
      .ok () state') :
    state'.resultBuf = state.resultBuf ∧
      state'.tx.isPrivate = state.tx.isPrivate ∧
      state'.descriptors.length = state.descriptors.length + objects.length := by
  induction objects generalizing state with
  | nil =>
      obtain ⟨_, rfl⟩ := Exec.pure_eq_ok.mp hrun
      exact ⟨rfl, rfl, rfl⟩
  | cons object objects ih =>
      have hobject : object ≠ .data := (List.ne_of_not_mem_cons hdata).symm
      have hobjects := List.not_mem_of_not_mem_cons hdata
      obtain ⟨mid, hhead, htail⟩ := Exec.forM_cons_eq_ok hrun
      rw [List.length_cons] at hroom
      have hkept {prepared : SendState}
          (hprepare : quorumSender.prepare env object state =
            .ok () prepared) : prepared = state :=
        fillPrivateData_other hobject hprepare
      obtain ⟨prepared, stream, hprepare, rfl⟩ := appendField_ok
        (fun prepared hprepare => by
          rw [hkept hprepare]
          omega) hhead
      obtain rfl := hkept hprepare
      have hlength : ((((prepared.initLen object).push object).setStream
          stream).descriptors).length = prepared.descriptors.length + 1 := by
        simp
      obtain ⟨hbuffer, hprivate, hdescriptors⟩ := ih hobjects (by omega) htail
      refine ⟨hbuffer, hprivate, ?_⟩
      rw [hdescriptors, hlength, List.length_cons]
      omega

/-- The data that is signed comes from the buffer the run started with. -/
theorem builtTx_data {fields : RawtxFields} {message stream : List UInt8}
    {signature : BoatSignatureResult} (hprivate : state.tx.isPrivate = true)
    (hbuilt : BuiltTx quorumSender [.data] env state mid fields message
      signature stream) :
    ∃ block, env.malloc 64 = some block ∧
      fields.bytes .data = (privateData block state.resultBuf).take 64 := by
  obtain ⟨appended, hrun, rfl⟩ := hbuilt.appended
  have hleading : quorumSender.leading =
      [.nonce, .gasprice, .gaslimit, .recipient, .value] ++ [.data] := rfl
  rw [hleading] at hrun
  obtain ⟨before, hbefore, hlast⟩ := Exec.forM_append_eq_ok hrun
  obtain ⟨hbuffer, hkind, hlength⟩ :=
    appendFields_before (by decide) (by
      change 5 ≤ 15
      decide) hbefore
  obtain ⟨after, hdata, hnil⟩ := Exec.forM_cons_eq_ok hlast
  obtain ⟨_, rfl⟩ := Exec.pure_eq_ok.mp hnil
  have hbeforePrivate : before.tx.isPrivate = true := hkind.trans hprivate
  have hroom : before.descriptors.length < maxRlpListDescNum := by
    rw [hlength]
    change 5 < 15
    decide
  obtain ⟨prepared, stream', hprepare, rfl⟩ := appendField_ok
    (fun prepared hprepare => by
      obtain ⟨_, _, rfl⟩ := fillPrivateData_data hbeforePrivate hprepare
      exact hroom) hdata
  obtain ⟨block, hblock, rfl⟩ := fillPrivateData_data hbeforePrivate hprepare
  refine ⟨block, hblock, ?_⟩
  change (privateData block before.resultBuf).take 64 = _
  rw [hbuffer]
  rfl

theorem length_privateData {block : List UInt8} (hblock : block.length = 64)
    (buffer : ResultBuffer) : (privateData block buffer).length = 64 := by
  unfold privateData
  simp only [List.length_take, List.length_append, List.length_drop, hblock]
  omega

variable {request : SendRequest}

/-- The second request of a private transaction. -/
theorem quorumSendRawtx_request (hmalloc : Fresh env.malloc)
    (hprivate : state.tx.isPrivate = true)
    (hsent : (Exec.final (quorumSendRawtx env state)).sends =
      state.sends ++ [request]) :
    request.extra = [exampleRecipient] ∧ ∃ items block,
      request.Carries items ∧ env.malloc 64 = some block ∧
      items[5]? = some (privateData block state.resultBuf) := by
  rcases sendRawtx_sends (quorumSender_quiet env) state with
    hnone | ⟨signedtx, mid, hbuild, hsends⟩
  · have hsame := hnone.symm.trans hsent
    exact absurd (List.self_eq_append_right.mp hsame) (List.cons_ne_nil _ _)
  have hrequest : quorumSender.request mid.tx signedtx = request := by
    have hboth := hsends.symm.trans hsent
    exact List.singleton_inj.mp (List.append_cancel_left hboth)
  obtain ⟨fields, message, signature, stream, hbuilt, rfl⟩ :=
    buildRawtx_ok quorumSender_wellFormed hmalloc hbuild
  obtain ⟨block, hblock, hdata⟩ := builtTx_data hprivate hbuilt
  have hlength := length_privateData (hmalloc 64 block hblock) state.resultBuf
  rw [List.take_of_length_le hlength.le] at hdata
  have hmid : mid.tx.isPrivate = true := hbuilt.isPrivate.trans hprivate
  have hform : quorumSender.request mid.tx ('0' :: 'x' :: Hex.toHex stream) =
      ⟨"eth_sendRawPrivateTransaction".toList, '0' :: 'x' :: Hex.toHex stream,
        [exampleRecipient]⟩ :=
    if_pos hmid
  rw [hform] at hrequest
  subst hrequest
  refine ⟨rfl, quorumSender.leading.map fields.bytes ++
    quorumSender.signatureItems state.tx signature, block, ⟨?_, ?_⟩, hblock, ?_⟩
  · exact hbuilt.streamItems ▸ hbuilt.size
  · rw [← hbuilt.streamItems]
  · rw [← hdata]
    rfl

theorem quorumFilltx_keeps (env : SendEnv)
    (fillTransaction : QuorumFillRequest → NodeAnswer) (privatefor : Block 44) :
    Exec.Keeps SendState.sends
      (quorumFilltx env fillTransaction privatefor) := by
  refine Exec.Keeps.bind (fun state => ?_) parseResponse_keeps
  unfold requestFill
  split
  · rfl
  · split <;> rfl

/-- The first request was answered, and the answer is in the buffer. -/
theorem quorumFilltx_ok {fillTransaction : QuorumFillRequest → NodeAnswer}
    {privatefor : Block 44}
    (hrun : quorumFilltx env fillTransaction privatefor state =
      .ok () state') :
    ∃ fill response parsed,
      quorumFillRequest env privatefor state.tx = .ok fill ∧
      fillTransaction fill = .ok response ∧
      quorumParseJsonResult env.cJSONParse env.malloc response "tx".toList
        "input".toList state.resultBuf = .ok (boatSuccess, parsed) ∧
      state' = state.setResultBuf parsed := by
  obtain ⟨response, asked, hask, hparse⟩ := Exec.bind_eq_ok.mp hrun
  unfold requestFill at hask
  split at hask
  · cases hask
  next fill hfill =>
    split at hask
    · cases hask
    next response' hanswer =>
      cases hask
      obtain ⟨parsed, hparsed, rfl⟩ := keepParsed_ok_iff.mp hparse
      exact ⟨fill, response, parsed, hfill, hanswer, hparsed, rfl⟩

/-- A hash in the answer is in the buffer once the answer was parsed. -/
theorem payloadHash_parsed {cJSONParse : List Char → Option Json}
    {malloc : Nat → Option (List UInt8)} {response : List Char}
    {buffer parsed : ResultBuffer} {hash : List UInt8}
    (hhash : payloadHash cJSONParse response = some hash)
    (hparsed : quorumParseJsonResult cJSONParse malloc response "tx".toList
      "input".toList buffer = .ok (boatSuccess, parsed)) :
    ∃ text, parsed.content = some text ∧
      Hex.ofHex (text.drop (hexStart text)) = some hash := by
  unfold payloadHash at hhash
  obtain ⟨json, hjson, hhash⟩ := Option.bind_eq_some_iff.mp hhash
  obtain ⟨result, hresult, hhash⟩ := Option.bind_eq_some_iff.mp hhash
  obtain ⟨tx, htx, hhash⟩ := Option.bind_eq_some_iff.mp hhash
  obtain ⟨input, hinput, hhash⟩ := Option.bind_eq_some_iff.mp hhash
  cases input with
  | string text =>
      refine ⟨text, ?_, hhash⟩
      cases result with
      | object members =>
          cases tx with
          | object children =>
              rw [quorumParseJsonResult, hjson] at hparsed
              obtain ⟨found, hfound, hparsed⟩ :=
                Exec.except_map_eq_ok.mp hparsed
              rw [← Json.namedItem_ok hfound, hresult] at hparsed
              simp only [quorumParseResult, htx, ethParseChild,
                hinput] at hparsed
              exact copyResult_success hparsed
          | _ => cases hinput
      | _ => cases htx
  | _ => cases hhash

theorem privateData_hash {block hash : List UInt8} {buffer : ResultBuffer}
    {text : List Char} (htext : buffer.content = some text)
    (hhash : Hex.ofHex (text.drop (hexStart text)) = some hash)
    (hlength : hash.length = 64) : privateData block buffer = hash := by
  have hne : hash ≠ [] := by
    rintro rfl
    cases hlength
  rw [privateData, htext, Option.getD_some,
    utilityHexToBin_ofHex hhash hne hlength.le]
  exact List.take_left' hlength

/-- What `%s` prints is the key when a zero byte follows it. -/
theorem charsOf_ofBuffer_iff {privatefor : Block 44} {value : Block 32}
    (hkey : quorumPrivateFor privatefor = exampleRecipient) :
    charsOf (CString.ofBuffer (privatefor.bytes ++ value.bytes)).bytes =
      quorumPrivateFor privatefor ↔ value.bytes.head? = some 0 := by
  have hfull : (privatefor.bytes.takeWhile (· ≠ 0)).length =
      privatefor.bytes.length := by
    have hlength := congrArg List.length hkey
    rw [quorumPrivateFor, charsOf, List.length_map] at hlength
    exact hlength.trans privatefor.length_bytes.symm
  have hall : privatefor.bytes.takeWhile (· ≠ 0) = privatefor.bytes :=
    (List.takeWhile_prefix _).eq_of_length hfull
  simp only [quorumPrivateFor, charsOf, CString.ofBuffer, List.takeWhile_append,
    ↓reduceIte, hall, List.map_append, List.append_right_eq_self,
    List.map_eq_nil_iff]
  have hvalue := value.length_bytes
  cases hbytes : value.bytes with
  | nil =>
      rw [hbytes] at hvalue
      cases hvalue
  | cons byte bytes =>
      by_cases hbyte : byte = 0
      · simp [hbyte]
      · simp [hbyte]

/-- What a private transaction needs to come through as it was meant: the key
of the example, no text behind the key, and a hash of 64 bytes. -/
structure PrivateInputs (env : SendEnv) (privatefor : Block 44)
    (fields : RawtxFields) (response : List Char) : Prop where
  recipient : quorumPrivateFor privatefor = exampleRecipient
  behind : fields.value.field.bytes.head? = some 0
  hash : ∃ hash, payloadHash env.cJSONParse response = some hash ∧
    hash.length = 64

variable {fillTransaction : QuorumFillRequest → NodeAnswer}
  {privatefor : Block 44}

/-- What the two requests of a run are made of. -/
theorem quorumSendFilltx_requests (hmalloc : Fresh env.malloc)
    (hprivate : state.tx.isPrivate = true)
    (hsent : (Exec.final (quorumSendFilltx env fillTransaction privatefor
      state)).sends = state.sends ++ [request]) :
    ∃ fill response parsed items block,
      quorumFillRequest env privatefor state.tx = .ok fill ∧
      fillTransaction fill = .ok response ∧
      quorumParseJsonResult env.cJSONParse env.malloc response "tx".toList
        "input".toList state.resultBuf = .ok (boatSuccess, parsed) ∧
      request.extra = [exampleRecipient] ∧ request.Carries items ∧
      env.malloc 64 = some block ∧
      items[5]? = some (privateData block parsed) := by
  have hkeeps := quorumFilltx_keeps env fillTransaction privatefor state
  unfold quorumSendFilltx at hsent
  rcases Exec.final_bind (quorumFilltx env fillTransaction privatefor)
    (fun _ => quorumSendRawtx env) state with ⟨_, filled, hfilled, hfinal⟩ | hfinal
  · obtain ⟨fill, response, parsed, hfill, hanswer, hparsed, rfl⟩ :=
      quorumFilltx_ok hfilled
    rw [hfinal] at hsent
    have hkind : (state.setResultBuf parsed).tx.isPrivate = true := hprivate
    obtain ⟨hextra, items, block, hcarries, hblock, hdata⟩ :=
      quorumSendRawtx_request hmalloc hkind hsent
    exact ⟨fill, response, parsed, items, block, hfill, hanswer, hparsed,
      hextra, hcarries, hblock, hdata⟩
  · rw [hfinal, hkeeps] at hsent
    exact absurd (List.self_eq_append_right.mp hsent) (List.cons_ne_nil _ _)

theorem quorumFillRequest_privateFor {fill : QuorumFillRequest} {tx : BoatTx}
    (hfill : quorumFillRequest env privatefor tx = .ok fill) :
    fill.privateFor = charsOf (CString.ofBuffer
      (privatefor.bytes ++ tx.rawtxFields.value.field.bytes)).bytes := by
  obtain ⟨data, -, hfill⟩ := Exec.except_bind_eq_ok.mp hfill
  obtain ⟨recipient, -, hfill⟩ := Exec.except_bind_eq_ok.mp hfill
  obtain ⟨text, htext, hfill⟩ := Exec.except_bind_eq_ok.mp hfill
  cases hfill
  unfold cString at htext
  split at htext
  · cases htext
    rfl
  · cases htext

/-- A private transaction comes through as it was meant with those inputs, and
with no others. -/
theorem quorumSendFilltx_consistent_iff (hmalloc : Fresh env.malloc)
    (hprivate : state.tx.isPrivate = true)
    (hsent : (Exec.final (quorumSendFilltx env fillTransaction privatefor
      state)).sends = state.sends ++ [request]) :
    ∃ fill response, quorumFillRequest env privatefor state.tx = .ok fill ∧
      fillTransaction fill = .ok response ∧
      (PrivateConsistent env privatefor fill response request ↔
        PrivateInputs env privatefor state.tx.rawtxFields response) := by
  obtain ⟨fill, response, parsed, items, block, hfill, hanswer, hparsed, hextra,
    hcarries, hblock, hdata⟩ := quorumSendFilltx_requests hmalloc hprivate hsent
  refine ⟨fill, response, hfill, hanswer, ?_⟩
  have hprinted := quorumFillRequest_privateFor hfill
  constructor
  · rintro ⟨hfilled, hrecipients, others, hash, hothers, hitem, hhash⟩
    have hkey : quorumPrivateFor privatefor = exampleRecipient := by
      rw [hextra] at hrecipients
      exact (List.singleton_inj.mp hrecipients).symm
    rw [hothers.unique hcarries, hdata] at hitem
    cases hitem
    exact ⟨hkey, (charsOf_ofBuffer_iff hkey).mp (hprinted ▸ hfilled), _, hhash,
      length_privateData (hmalloc 64 block hblock) parsed⟩
  · rintro ⟨hkey, hbehind, hash, hhash, hlength⟩
    obtain ⟨text, htext, hdigits⟩ := payloadHash_parsed hhash hparsed
    refine ⟨?_, ?_, items, hash, hcarries, ?_, hhash⟩
    · rw [hprinted]
      exact (charsOf_ofBuffer_iff hkey).mpr hbehind
    · rw [hextra, hkey]
    · rw [hdata, privateData_hash htext hdigits hlength]

section Sample

def exampleHash : List Char :=
  '0' :: 'x' :: List.replicate 128 'a'

/-- A node that answers the first request with a hash of 64 bytes. -/
def quorumEnv : SendEnv :=
  { sampleEnv 1 with
    cJSONParse := fun _ => some (.object [("result".toList,
      .object [("tx".toList, .object [("input".toList,
        .string exampleHash)])])]) }

def privateState : SendState :=
  let state := sampleState ⟨1, false⟩ .zero
  { state with tx := { state.tx with isPrivate := true } }

/-- A key of 44 characters. -/
def keyOf (text : List Char) : Block 44 :=
  (Block.zero 44).overlay (text.map fun c => UInt8.ofNat c.toNat)

theorem privateState_sends (privatefor : Block 44)
    (hlength : (Exec.final (quorumSendFilltx quorumEnv (fun _ => .ok [])
      privatefor privateState)).sends.length = 1) :
    ∃ request, (Exec.final (quorumSendFilltx quorumEnv (fun _ => .ok [])
      privatefor privateState)).sends = privateState.sends ++ [request] :=
  List.length_eq_one_iff.mp hlength

/-- With the key of the example and a hash of 64 bytes the two requests
agree. -/
theorem quorumSendFilltx_consistent_example :
    ∃ request fill, (Exec.final (quorumSendFilltx quorumEnv (fun _ => .ok [])
        (keyOf exampleRecipient) privateState)).sends = [request] ∧
      PrivateConsistent quorumEnv (keyOf exampleRecipient) fill [] request := by
  obtain ⟨request, hsent⟩ := privateState_sends (keyOf exampleRecipient)
    (by decide +kernel)
  obtain ⟨fill, response, -, hanswer, hiff⟩ :=
    quorumSendFilltx_consistent_iff zeroMalloc_fresh rfl hsent
  cases hanswer
  refine ⟨request, fill, hsent, hiff.mpr ⟨?_, rfl, List.replicate 64 0xaa, ?_, rfl⟩⟩
  · decide +kernel
  · decide +kernel

/-- Another key is left out of the second request. -/
theorem not_quorumSendFilltx_consistent :
    ¬∀ (env : SendEnv) (fillTransaction : QuorumFillRequest → NodeAnswer)
        (privatefor : Block 44) (state : SendState) (request : SendRequest),
      Fresh env.malloc → state.tx.isPrivate = true →
      (Exec.final (quorumSendFilltx env fillTransaction privatefor
        state)).sends = state.sends ++ [request] →
      ∃ fill response, quorumFillRequest env privatefor state.tx = .ok fill ∧
        fillTransaction fill = .ok response ∧
        PrivateConsistent env privatefor fill response request := by
  intro hall
  obtain ⟨request, hsent⟩ := privateState_sends
    (keyOf (List.replicate 44 'A')) (by decide +kernel)
  obtain ⟨fill, response, -, -, hconsistent⟩ :=
    hall _ _ _ _ _ zeroMalloc_fresh rfl hsent
  obtain ⟨_, _, _, _, _, _, _, _, hextra, -⟩ :=
    quorumSendFilltx_requests zeroMalloc_fresh rfl hsent
  have hkey := List.singleton_inj.mp (hconsistent.sent.symm.trans hextra)
  exact absurd hkey (by decide +kernel)

end Sample

end Run

end BoatFramework
