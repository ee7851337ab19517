/-
What a run of a sender that succeeds hashed, signed and sent.  Each step has one
lemma that gives the state it leaves; the run puts them together.
-/
import BoatFramework.Base.Exec
import BoatFramework.Rlp.Encoder
import BoatFramework.Tx.Sender

namespace BoatFramework

open ByteString

/-- The bytes of a field: its storage up to its effective length. -/
def RawtxFields.bytes (fields : RawtxFields) (object : RlpVar) : List UInt8 :=
  ((fields.stringPtr object).getD []).take (fields.stringLen object)

/-- The steps of a sender in front of its request. -/
def buildRawtx (sender : Sender) (env : SendEnv) : SendM (List Char) := do
  initTx env
  sender.leading.forM (appendField sender env)
  let indices ← addPlaceholders sender
  let message ← encodeTx env
  signTx sender env message
  relistField sender (indices.map (·.1)) .v
  relistField sender (indices.map (·.2.1)) .r
  relistField sender (indices.map (·.2.2)) .s
  let stream ← reEncodeTx env
  streamToHex sender env stream

theorem sendRawtx_eq (sender : Sender) (env : SendEnv) :
    sendRawtx sender env = buildRawtx sender env >>= sendToNode sender env := by
  simp only [buildRawtx, bind_assoc]
  rfl

section Steps

variable {env : SendEnv} {state state' : SendState}

theorem initTx_ok (hrun : initTx env state = .ok () state') :
    state' = (state.setTxHash ⟨state.tx.txHash.field, 0⟩).initList := by
  unfold initTx at hrun
  simp only at hrun
  split at hrun
  · cases hrun
  · cases hrun
    rfl

theorem initStringObject_ok {fail : BoatResult} {object : RlpVar}
    (hrun : initStringObject fail object state = .ok () state') :
    state' = state.initLen object := by
  unfold initStringObject at hrun
  split at hrun
  · cases hrun
  · cases hrun
    rfl

theorem appendObject_ok {object : RlpVar} {index : Option Nat}
    (hrun : appendObject object state = .ok index state') :
    (state.descriptors.length < maxRlpListDescNum ∧
      index = some state.descriptors.length ∧ state' = state.push object) ∨
    (¬ state.descriptors.length < maxRlpListDescNum ∧ index = none ∧
      state' = state) := by
  unfold appendObject at hrun
  split at hrun
  next hroom =>
    cases hrun
    exact .inl ⟨hroom, rfl, rfl⟩
  next hfull =>
    cases hrun
    exact .inr ⟨hfull, rfl, rfl⟩

/-- An encoding changes nothing but the stream of the list. -/
theorem encodeTx_state {message : List UInt8}
    (hrun : encodeTx env state = .ok message state') :
    state' = state.setStream (some message) := by
  unfold encodeTx at hrun
  split at hrun
  · cases hrun
  · split at hrun
    · cases hrun
    · split at hrun
      · cases hrun
      · cases hrun
      · cases hrun
        rfl

theorem encodeTx_error {failure : Failure}
    (hrun : encodeTx env state = .error failure state') : state' = state := by
  unfold encodeTx at hrun
  split at hrun
  · cases hrun
    rfl
  · split at hrun
    · cases hrun
      rfl
    · split at hrun
      · cases hrun
        rfl
      · cases hrun
        rfl
      · cases hrun

/-- The stream is the encoding of what the string objects denote at that time,
of a 32-bit length. -/
theorem encodeTx_message {message : List UInt8} (hmalloc : Fresh env.malloc)
    (hrun : encodeTx env state = .ok message state') :
    message = Rlp.encode (.list (state.descriptors.map
        fun object => .str (state.stringBytes object))) ∧
      message.length < 2 ^ 32 := by
  unfold encodeTx at hrun
  split at hrun
  · cases hrun
  · split at hrun
    · cases hrun
    · split at hrun
      · cases hrun
      · cases hrun
      next stream hencode =>
        cases hrun
        obtain ⟨hstream, hsize⟩ :=
          rlpEncode_sound hmalloc _ none _ (by simp) hencode
        refine ⟨?_, hsize ▸ rlpRecursiveCalcEncodingSize_lt _⟩
        rw [hstream, RlpObject.encoding, RlpObject.toItem_list,
          RlpObject.toItems_eq_map, List.map_map]
        simp [Function.comp_def]

theorem encodeUnchecked_ok
    (hrun : encodeUnchecked env state = .ok () state') :
    ∃ stream, state' = state.setStream stream := by
  unfold encodeUnchecked at hrun
  split at hrun
  next message after hencode =>
    cases hrun
    exact ⟨_, encodeTx_state hencode⟩
  · cases hrun
  next code after hencode =>
    cases hrun
    exact ⟨state.stream, encodeTx_error hencode⟩

theorem checkIndex_ok {checked : Bool} {fail : BoatResult}
    {index : Option Nat}
    (hrun : checkIndex checked fail index state = .ok () state') :
    state' = state ∧ (index = none → checked = false) := by
  unfold checkIndex at hrun
  split at hrun
  · cases hrun
  next hchecked =>
    obtain ⟨_, rfl⟩ := Exec.pure_eq_ok.mp hrun
    refine ⟨rfl, fun hnone => ?_⟩
    simpa [hnone] using hchecked

/-- An append in a list with room keeps everything but the object's length, its
place in the list and the stream. -/
theorem appendField_ok {sender : Sender} {object : RlpVar}
    (hroom : ∀ mid, sender.prepare env object state = .ok () mid →
      mid.descriptors.length < maxRlpListDescNum)
    (hrun : appendField sender env object state = .ok () state') :
    ∃ mid stream, sender.prepare env object state = .ok () mid ∧
      state' = ((mid.initLen object).push object).setStream stream := by
  obtain ⟨_, mid, hprepare, hinitRun⟩ := Exec.bind_eq_ok.mp hrun
  obtain ⟨_, initialized, hinit, happendRun⟩ := Exec.bind_eq_ok.mp hinitRun
  obtain ⟨index, appended, happend, hcheckRun⟩ := Exec.bind_eq_ok.mp happendRun
  obtain ⟨_, checked, hcheck, hencode⟩ := Exec.bind_eq_ok.mp hcheckRun
  obtain rfl := initStringObject_ok hinit
  obtain ⟨rfl, _⟩ := checkIndex_ok hcheck
  rcases appendObject_ok happend with ⟨_, _, rfl⟩ | ⟨hfull, _, _⟩
  · split at hencode
    · obtain ⟨stream, rfl⟩ := encodeUnchecked_ok hencode
      exact ⟨mid, stream, hprepare, rfl⟩
    · obtain ⟨_, rfl⟩ := Exec.pure_eq_ok.mp hencode
      exact ⟨mid, mid.stream, hprepare, rfl⟩
  · exact absurd (hroom mid hprepare) hfull

theorem appendPlaceholder_ok {object : RlpVar} {index : Nat}
    (hrun : appendPlaceholder object state = .ok index state') :
    index = state.descriptors.length ∧
      state' = (state.initLen object).push object := by
  obtain ⟨_, initialized, hinit, happendRun⟩ := Exec.bind_eq_ok.mp hrun
  obtain ⟨found, appended, happend, hcheckRun⟩ := Exec.bind_eq_ok.mp happendRun
  obtain ⟨_, checked, hcheck, hpure⟩ := Exec.bind_eq_ok.mp hcheckRun
  obtain rfl := initStringObject_ok hinit
  obtain ⟨rfl, hfound⟩ := checkIndex_ok hcheck
  obtain ⟨rfl, rfl⟩ := Exec.pure_eq_ok.mp hpure
  rcases appendObject_ok happend with ⟨_, rfl, rfl⟩ | ⟨_, rfl, _⟩
  · exact ⟨rfl, rfl⟩
  · cases hfound rfl

/-- The state with the three objects of a signature appended. -/
def SendState.pushSignature (state : SendState) : SendState :=
  ((((((state.initLen .v).push .v).initLen .r).push .r).initLen .s).push .s)

/-- The placeholders stand behind the leading members, in order. -/
theorem appendPlaceholders_ok {indices : Nat × Nat × Nat}
    (hrun : appendPlaceholders state = .ok indices state') :
    indices = (state.descriptors.length, state.descriptors.length + 1,
        state.descriptors.length + 2) ∧
      state' = (state.setFields (setPlaceholders state.tx.networkInfo
        state.tx.rawtxFields)).pushSignature := by
  obtain ⟨_, replaced, hreplace, hvRun⟩ := Exec.bind_eq_ok.mp hrun
  obtain ⟨vIndex, afterV, hv, hrRun⟩ := Exec.bind_eq_ok.mp hvRun
  obtain ⟨rIndex, afterR, hr, hsRun⟩ := Exec.bind_eq_ok.mp hrRun
  obtain ⟨sIndex, afterS, hs, hpure⟩ := Exec.bind_eq_ok.mp hsRun
  obtain ⟨rfl, rfl⟩ := Exec.pure_eq_ok.mp hpure
  cases hreplace
  obtain ⟨rfl, rfl⟩ := appendPlaceholder_ok hv
  obtain ⟨rfl, rfl⟩ := appendPlaceholder_ok hr
  obtain ⟨rfl, rfl⟩ := appendPlaceholder_ok hs
  exact ⟨by simp, rfl⟩

theorem addPlaceholders_ok {sender : Sender}
    {indices : Option (Nat × Nat × Nat)}
    (hrun : addPlaceholders sender state = .ok indices state') :
    (sender.usesEip155 state.tx = true ∧
      indices = some (state.descriptors.length, state.descriptors.length + 1,
        state.descriptors.length + 2) ∧
      state' = (state.setFields (setPlaceholders state.tx.networkInfo
        state.tx.rawtxFields)).pushSignature) ∨
    (sender.usesEip155 state.tx = false ∧ indices = none ∧
      state' = state) := by
  unfold addPlaceholders at hrun
  split at hrun
  next heip155 =>
    obtain ⟨found, placed, hplaced, hpure⟩ := Exec.bind_eq_ok.mp hrun
    obtain ⟨rfl, rfl⟩ := Exec.pure_eq_ok.mp hpure
    obtain ⟨rfl, rfl⟩ := appendPlaceholders_ok hplaced
    exact .inl ⟨heip155, rfl, rfl⟩
  next hplain =>
    cases hrun
    exact .inr ⟨by simpa using hplain, rfl, rfl⟩

theorem signTx_ok {sender : Sender} {message : List UInt8}
    (hrun : signTx sender env message state = .ok () state') :
    ∃ signature, boatSignature env (env.keccak256 message) = .ok signature ∧
      state' = (state.record (.hashed message)).setFields
        (setV (sender.vValue state.tx (sigParity signature))
          (setSignature signature state.tx.rawtxFields)) := by
  obtain ⟨_, recorded, hrecord, hsign⟩ := Exec.bind_eq_ok.mp hrun
  cases hrecord
  cases hsignature : boatSignature env (env.keccak256 message) with
  | error code =>
      rw [hsignature] at hsign
      cases hsign
  | ok signature =>
      rw [hsignature] at hsign
      cases hsign
      exact ⟨signature, rfl, rfl⟩

/-- The state with an object initialized again and put into the list. -/
def SendState.relist (state : SendState) (object : RlpVar) :
    Option Nat → SendState
  | some index => (state.initLen object).putAt index object
  | none => (state.initLen object).push object

theorem relistField_ok {sender : Sender} {replaceIndex : Option Nat}
    {object : RlpVar}
    (hrun : relistField sender replaceIndex object state = .ok () state') :
    state' = state.relist object replaceIndex := by
  obtain ⟨_, initialized, hinit, hputRun⟩ := Exec.bind_eq_ok.mp hrun
  obtain ⟨found, put, hput, hcheck⟩ := Exec.bind_eq_ok.mp hputRun
  obtain rfl := initStringObject_ok hinit
  obtain ⟨rfl, hfound⟩ := checkIndex_ok hcheck
  cases replaceIndex with
  | none =>
      rcases appendObject_ok hput with ⟨_, _, rfl⟩ | ⟨_, rfl, _⟩
      · rfl
      · cases hfound rfl
  | some index =>
      simp only [putObject, replaceObject] at hput
      split at hput
      · cases hput
        rfl
      · cases hput
        cases hfound rfl

theorem streamToHex_ok {sender : Sender} {stream : List UInt8}
    {signedtx : List Char}
    (hrun : streamToHex sender env stream state = .ok signedtx state') :
    state' = state ∧
      signedtx = utilityBinToHex stream .leftTrimUnfmtData true false := by
  unfold streamToHex at hrun
  simp only at hrun
  split at hrun
  · cases hrun
  · split at hrun
    · cases hrun
    · cases hrun
      exact ⟨rfl, rfl⟩

/-- What is kept of a parse that succeeds. -/
theorem keepParsed_ok_iff {parsed : Outcome (BoatResult × ResultBuffer)} :
    keepParsed parsed state = .ok () state' ↔
      ∃ buffer, parsed = .ok (boatSuccess, buffer) ∧
        state' = state.setResultBuf buffer := by
  unfold keepParsed
  constructor
  · intro hrun
    split at hrun
    · cases hrun
    next result buffer =>
      split at hrun
      next hsuccess =>
        cases hrun
        exact ⟨buffer, by rw [hsuccess], rfl⟩
      next => cases hrun
  · rintro ⟨buffer, rfl, rfl⟩
    rfl

theorem keepParsed_code {parsed : Outcome (BoatResult × ResultBuffer)}
    {code : BoatResult} {buffer : ResultBuffer}
    (hparsed : parsed = .ok (code, buffer)) (hcode : code ≠ boatSuccess) :
    keepParsed parsed state =
      .error (.code code) (state.setResultBuf buffer) := by
  subst hparsed
  exact if_neg hcode

theorem keepParsed_undefined {parsed : Outcome (BoatResult × ResultBuffer)}
    (hparsed : parsed = .error .undefined) :
    keepParsed parsed state = .error .undefined state := by
  subst hparsed
  rfl

/-- Nothing but the result buffer is changed. -/
theorem keepParsed_keeps {view : Type} (look : SendState → view)
    (hlook : ∀ state buffer, look (SendState.setResultBuf state buffer) =
      look state)
    (parsed : Outcome (BoatResult × ResultBuffer)) :
    Exec.Keeps look (keepParsed parsed) := by
  intro state
  unfold keepParsed
  cases parsed with
  | error failure => rfl
  | ok parsed =>
      obtain ⟨result, buffer⟩ := parsed
      simp only
      split
      · exact hlook state buffer
      · exact hlook state buffer

end Steps

section Bytes

variable (state : SendState) (fields : RawtxFields)

theorem stringBytes_initLen (object other : RlpVar) :
    (state.initLen object).stringBytes other =
      if other = object then state.tx.rawtxFields.bytes object
      else state.stringBytes other := by
  unfold SendState.stringBytes RawtxFields.bytes
  by_cases hother : other = object
  · subst hother
    simp
  · simp [hother]

@[simp] theorem stringBytes_push (object other : RlpVar) :
    (state.push object).stringBytes other = state.stringBytes other :=
  rfl

@[simp] theorem stringBytes_putAt (index : Nat) (object other : RlpVar) :
    (state.putAt index object).stringBytes other = state.stringBytes other :=
  rfl

@[simp] theorem stringBytes_setStream (stream : Option (List UInt8))
    (object : RlpVar) :
    (state.setStream stream).stringBytes object = state.stringBytes object :=
  rfl

@[simp] theorem stringBytes_record (event : SendEvent) (object : RlpVar) :
    (state.record event).stringBytes object = state.stringBytes object :=
  rfl

/-- Other fields denote the same bytes where their storage is the same. -/
theorem stringBytes_setFields {object : RlpVar}
    (hptr : fields.stringPtr object = state.tx.rawtxFields.stringPtr object) :
    (state.setFields fields).stringBytes object = state.stringBytes object := by
  simp [SendState.stringBytes, hptr]

/-- The objects that carry a signature. -/
def RlpVar.IsSignature (object : RlpVar) : Prop :=
  object = .v ∨ object = .r ∨ object = .s

instance (object : RlpVar) : Decidable object.IsSignature :=
  inferInstanceAs (Decidable (_ ∨ _ ∨ _))

theorem setPlaceholders_stringPtr (networkInfo : NetworkInfo)
    {object : RlpVar} (hobject : ¬ object.IsSignature) :
    (setPlaceholders networkInfo fields).stringPtr object =
      fields.stringPtr object := by
  cases object <;> first | rfl | simp [RlpVar.IsSignature] at hobject

theorem setSignature_stringPtr (value : Nat)
    (signature : BoatSignatureResult) {object : RlpVar}
    (hobject : ¬ object.IsSignature) :
    (setV value (setSignature signature fields)).stringPtr object =
      fields.stringPtr object := by
  cases object <;> first | rfl | simp [RlpVar.IsSignature] at hobject

theorem bytes_setV (value : Nat) :
    (setV value fields).bytes .v = utilityUint32ToBigend value .leftTrim :=
  Block.take_overlay _ (length_utilityUintToBigend_le (by omega) value _)

theorem bytes_setPlaceholders (networkInfo : NetworkInfo) :
    (setPlaceholders networkInfo fields).bytes .v =
        utilityUint32ToBigend networkInfo.chainId .leftTrim ∧
      (setPlaceholders networkInfo fields).bytes .r = [] ∧
      (setPlaceholders networkInfo fields).bytes .s = [] :=
  ⟨Block.take_overlay _ (length_utilityUintToBigend_le (by omega) _ _), rfl,
    rfl⟩

/-- The two halves of a signature. -/
def BoatSignatureResult.rHalf (signature : BoatSignatureResult) : List UInt8 :=
  signature.nativeSign.bytes.take 32

def BoatSignatureResult.sHalf (signature : BoatSignatureResult) : List UInt8 :=
  signature.nativeSign.bytes.drop 32

theorem Block.bytes_overlay_full {size : Nat} (block : Block size)
    {out : List UInt8} (hout : out.length = size) :
    (block.overlay out).bytes = out := by
  have htake := block.take_overlay hout.le
  rwa [hout, List.take_of_length_le (block.overlay out).length_bytes.le]
    at htake

/-- The trimmed halves of the signature are what `r` and `s` denote. -/
theorem bytes_setSignature {signature : BoatSignatureResult}
    (hnative : signature.nativeFormatUsed = true) :
    (setSignature signature fields).bytes .r = trimLeft signature.rHalf ∧
      (setSignature signature fields).bytes .s = trimLeft signature.sHalf := by
  have hlength := signature.nativeSign.length_bytes
  have hr : (signature.nativeSign.bytes.take 32).length = 32 := by
    rw [List.length_take]
    omega
  have hs : (signature.nativeSign.bytes.drop 32).length = 32 := by
    rw [List.length_drop]
    omega
  have hrTrim := length_trimLeft_le (signature.nativeSign.bytes.take 32)
  have hsTrim := length_trimLeft_le (signature.nativeSign.bytes.drop 32)
  simp only [RawtxFields.bytes, RawtxFields.stringPtr, RawtxFields.stringLen,
    setSignature, hnative, ↓reduceIte, Option.getD_some,
    Block.bytes_overlay_full _ hr, Block.bytes_overlay_full _ hs,
    utilityTrimBin_zeroAsNull, BoatSignatureResult.rHalf,
    BoatSignatureResult.sHalf]
  exact ⟨Block.take_overlay _ (by omega), Block.take_overlay _ (by omega)⟩

theorem boatSignature_ok {env : SendEnv} {digest : List UInt8}
    {signature : BoatSignatureResult}
    (hsign : boatSignature env digest = .ok signature) :
    signature.nativeFormatUsed = true ∧ signature.signPrefixUsed = true := by
  unfold boatSignature at hsign
  split at hsign
  · cases hsign
  · split at hsign
    · cases hsign
    · cases hsign
      exact ⟨rfl, rfl⟩

end Bytes

end BoatFramework
