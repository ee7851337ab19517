/-
The signature in a CITA transaction.  The sender trims the halves of a
signature and copies what is left to the front of their places, so that a half
with a leading zero byte moves to the left.
-/
import BoatFramework.Base.ZeroPad
import BoatFramework.Cita.Transaction
import BoatFramework.Tx.Chains

namespace BoatFramework

open ByteString

def CitaState.sends (state : CitaState) : List SendRequest :=
  state.events.filterMap SendEvent.request?

/-- The request for a signed transaction. -/
def citaRequest (unverified : UnverifiedTransaction) : SendRequest :=
  ⟨"sendRawTransaction".toList, unverified.hexStr, []⟩

/-- The two halves of a signature, each in its 32 bytes, and its recovery
byte. -/
def BoatSignatureResult.rsv (signature : BoatSignatureResult) : List UInt8 :=
  signature.rHalf ++ (signature.sHalf ++ [signature.signPrefix])

section Messages

variable {transaction : Transaction} {left right : List UInt8} {crypto : Nat}

theorem UnverifiedTransaction.pack_inj (hlen : left.length = right.length) :
    UnverifiedTransaction.pack ⟨transaction, left, crypto⟩ =
        UnverifiedTransaction.pack ⟨transaction, right, crypto⟩ ↔
      left = right := by
  constructor
  · intro hpack
    have hfield := List.append_cancel_right (List.append_cancel_left hpack)
    unfold Protobuf.stringField at hfield
    by_cases hnil : left = []
    · subst hnil
      exact (List.length_eq_zero_iff.mp hlen.symm).symm
    · have hne : right ≠ [] := by
        rintro rfl
        exact hnil (List.length_eq_zero_iff.mp hlen)
      rw [if_neg hnil, if_neg hne, Protobuf.lengthField, Protobuf.lengthField,
        hlen] at hfield
      exact List.append_cancel_left (List.append_cancel_left hfield)
  · rintro rfl
    rfl

theorem UnverifiedTransaction.pack_ne_nil (message : UnverifiedTransaction) :
    message.pack ≠ [] := by
  intro hnil
  have hfield := Protobuf.length_lengthField 1 message.transaction.pack
  rw [(List.append_eq_nil_iff.mp hnil).1] at hfield
  exact absurd hfield (by simp)

theorem UnverifiedTransaction.hexStr_inj (hlen : left.length = right.length) :
    UnverifiedTransaction.hexStr ⟨transaction, left, crypto⟩ =
        UnverifiedTransaction.hexStr ⟨transaction, right, crypto⟩ ↔
      left = right := by
  rw [hexStr, hexStr, utilityBinToHex_unfmtData (pack_ne_nil _),
    utilityBinToHex_unfmtData (pack_ne_nil _), ← pack_inj hlen]
  constructor
  · intro htext
    exact Hex.toHex_injective (List.cons.inj (List.cons.inj htext).2).2
  · intro hpack
    rw [hpack]

end Messages

section Layout

variable (signature : BoatSignatureResult)

theorem BoatSignatureResult.length_rHalf : signature.rHalf.length = 32 := by
  rw [rHalf, List.length_take, signature.nativeSign.length_bytes]
  rfl

theorem BoatSignatureResult.length_sHalf : signature.sHalf.length = 32 := by
  rw [sHalf, List.length_drop, signature.nativeSign.length_bytes]

theorem BoatSignatureResult.length_rsv : signature.rsv.length = 65 := by
  rw [rsv, List.length_append, List.length_append, signature.length_rHalf,
    signature.length_sHalf]
  rfl

/-- Each half as it is placed: trimmed at the left, zeros behind it. -/
theorem citaSignResult_eq :
    (citaSignResult signature).1 =
      (trimLeft signature.rHalf).rightpad 32 0 ++
        ((trimLeft signature.sHalf).rightpad 32 0 ++
          [signature.signPrefix]) := by
  have hr := length_trimLeft_le signature.rHalf
  have hs := length_trimLeft_le signature.sHalf
  rw [signature.length_rHalf] at hr
  rw [signature.length_sHalf] at hs
  have hfront := length_rightpad_of_le hr
  have hback := length_rightpad_of_le hs
  have hlast : ((trimLeft signature.rHalf).rightpad 32 0 ++
      (trimLeft signature.sHalf).rightpad 32 0).length = 64 := by
    rw [List.length_append, hfront, hback]
  have hrWrite : ByteFile.write (List.replicate 65 0) 0
      (trimLeft signature.rHalf) =
        (trimLeft signature.rHalf).rightpad 32 0 ++ List.replicate 33 0 :=
    (ByteFile.write_append [] _ _).trans (append_drop_zeros hr 33)
  have hsWrite := ByteFile.write_append
    ((trimLeft signature.rHalf).rightpad 32 0) (List.replicate 33 0)
      (trimLeft signature.sHalf)
  rw [hfront, append_drop_zeros hs 1, ← List.append_assoc] at hsWrite
  have hvWrite := ByteFile.write_append
    ((trimLeft signature.rHalf).rightpad 32 0 ++
      (trimLeft signature.sHalf).rightpad 32 0) (List.replicate 1 0)
        [signature.signPrefix]
  rw [hlast] at hvWrite
  simp only [citaSignResult, utilityTrimBin_zeroAsNull]
  change ((Bytes.write (Bytes.write _ 0 (trimLeft signature.rHalf)) 32
    (trimLeft signature.sHalf)).write 64 _).1 = _
  rw [Bytes.write_val (Nat.le_refl 65), Bytes.write_val (by omega),
    Bytes.write_val (by omega), hrWrite, hsWrite, hvWrite, List.append_assoc]
  rfl

/-- The halves stand in their places where nothing of them was trimmed. -/
theorem citaSignResult_eq_rsv_iff :
    (citaSignResult signature).1 = signature.rsv ↔
      Flush signature.rHalf ∧ Flush signature.sHalf := by
  have hr := length_trimLeft_le signature.rHalf
  have hs := length_trimLeft_le signature.sHalf
  rw [← rightpad_trimLeft_iff, ← rightpad_trimLeft_iff, citaSignResult_eq,
    BoatSignatureResult.rsv, signature.length_rHalf, signature.length_sHalf]
  rw [signature.length_rHalf] at hr
  rw [signature.length_sHalf] at hs
  constructor
  · intro heq
    obtain ⟨hfirst, hrest⟩ := List.append_inj heq (by
      rw [length_rightpad_of_le hr, signature.length_rHalf])
    exact ⟨hfirst, List.append_cancel_right hrest⟩
  · rintro ⟨hfirst, hsecond⟩
    rw [hfirst, hsecond]

end Layout

section Run

variable {env : SendEnv}

theorem citaMalloc_keeps (refused : BoatResult) (size : Nat) :
    Exec.Keeps id (citaMalloc env refused size) := by
  intro state
  unfold citaMalloc
  split
  · rfl
  · split <;> rfl

theorem citaOutcome_keeps {α : Type} (outcome : Outcome α) :
    Exec.Keeps id (CitaM.ofOutcome outcome) := by
  intro state
  unfold CitaM.ofOutcome
  split <;> rfl

theorem citaOutcome_eq_ok {α : Type} {outcome : Outcome α} {a : α}
    {state mid : CitaState}
    (hrun : CitaM.ofOutcome outcome state = .ok a mid) :
    outcome = .ok a ∧ mid = state := by
  cases outcome with
  | error failure => cases hrun
  | ok value =>
      cases hrun
      exact ⟨rfl, rfl⟩

theorem citaSign_keeps (message : List UInt8) :
    Exec.Keeps CitaState.sends (citaSign env message) := by
  have hrecord : Exec.Keeps CitaState.sends
      (CitaM.recordEvent (.hashed message)) := by
    intro state
    simp [CitaM.recordEvent, Exec.final, CitaState.sends, SendEvent.request?]
  apply hrecord.bind
  intro _
  split
  · exact fun _ => rfl
  · exact fun _ => rfl

theorem citaSign_ok {message : List UInt8} {state mid : CitaState}
    {signature : BoatSignatureResult}
    (hrun : citaSign env message state = .ok signature mid) :
    boatSignature env (env.keccak256 message) = .ok signature := by
  obtain ⟨_, recorded, _, hsign⟩ := Exec.bind_eq_ok.mp hrun
  cases hsignature : boatSignature env (env.keccak256 message) with
  | error code =>
      rw [hsignature] at hsign
      cases hsign
  | ok result =>
      rw [hsignature] at hsign
      rw [(Exec.pure_eq_ok.mp hsign).1]

theorem citaKeepAnswer_keeps (response : List Char) :
    Exec.Keeps CitaState.sends (citaKeepAnswer env response) := by
  intro state
  unfold citaKeepAnswer
  split
  · rfl
  · simp only
    split <;> rfl

/-- The node is asked once. -/
theorem citaSendToNode_sends (signedtx : List Char) (state : CitaState) :
    (Exec.final (citaSendToNode env signedtx state)).sends =
      state.sends ++ [⟨"sendRawTransaction".toList, signedtx, []⟩] := by
  unfold citaSendToNode
  refine (Exec.view_bind (fun _ => ?_) state).trans List.filterMap_append
  split
  · exact fun _ => rfl
  · exact citaKeepAnswer_keeps _

/-- The steps in front of the request send nothing. -/
theorem citaBuildRawtx_keeps :
    Exec.Keeps CitaState.sends (citaBuildRawtx env) := by
  have hmalloc refused size :
      Exec.Keeps CitaState.sends (citaMalloc env refused size) :=
    fun state => congrArg CitaState.sends (citaMalloc_keeps refused size state)
  have houtcome {α : Type} (outcome : Outcome α) :
      Exec.Keeps CitaState.sends (CitaM.ofOutcome outcome) :=
    fun state => congrArg CitaState.sends (citaOutcome_keeps outcome state)
  apply (hmalloc _ _).bind
  intro _
  apply Exec.Keeps.bind (fun _ => rfl)
  intro state
  apply (houtcome _).bind
  intro transaction
  apply (hmalloc _ _).bind
  intro _
  apply (citaSign_keeps _).bind
  intro signature
  apply (hmalloc _ _).bind
  intro _
  apply (hmalloc _ _).bind
  intro _
  exact fun _ => rfl

/-- What is built: the text of the message that was signed, with the
signature. -/
theorem citaBuildRawtx_ok {state mid : CitaState} {signedtx : List Char}
    (hrun : citaBuildRawtx env state = .ok signedtx mid) :
    ∃ transaction signature,
      citaTransaction state.tx = .ok transaction ∧
      boatSignature env (env.keccak256 transaction.pack) = .ok signature ∧
      signedtx = UnverifiedTransaction.hexStr
        ⟨transaction, (citaSignResult signature).1, 0⟩ := by
  obtain ⟨_, first, hfirst, hrun⟩ := Exec.bind_eq_ok.mp hrun
  obtain ⟨_, _, hget, hrun⟩ := Exec.bind_eq_ok.mp hrun
  cases hget
  obtain ⟨transaction, second, hmessage, hrun⟩ := Exec.bind_eq_ok.mp hrun
  obtain ⟨_, third, _, hrun⟩ := Exec.bind_eq_ok.mp hrun
  obtain ⟨signature, fourth, hsign, hrun⟩ := Exec.bind_eq_ok.mp hrun
  obtain ⟨_, _, _, hrun⟩ := Exec.bind_eq_ok.mp hrun
  obtain ⟨_, _, _, hrun⟩ := Exec.bind_eq_ok.mp hrun
  refine ⟨transaction, signature, ?_, citaSign_ok hsign,
    (Exec.pure_eq_ok.mp hrun).1.symm⟩
  have hstate := @citaMalloc_keeps env boatErrorCommonOutOfMemory 33 state
  rw [hfirst] at hstate
  obtain rfl : first = state := hstate
  exact (citaOutcome_eq_ok hmessage).1

/-- A run sends nothing, or the message it signed with the signature. -/
theorem citaSendRawtx_sends (state : CitaState) :
    (Exec.final (citaSendRawtx env state)).sends = state.sends ∨
      ∃ transaction signature,
        citaTransaction state.tx = .ok transaction ∧
        boatSignature env (env.keccak256 transaction.pack) = .ok signature ∧
        (Exec.final (citaSendRawtx env state)).sends = state.sends ++
          [citaRequest ⟨transaction, (citaSignResult signature).1, 0⟩] := by
  rcases citaBuildRawtx_keeps.view_bind state with
    hstop | ⟨signedtx, mid, hbuild, hmid, hfinal⟩
  · exact .inl hstop
  · obtain ⟨transaction, signature, htransaction, hsign, rfl⟩ :=
      citaBuildRawtx_ok hbuild
    refine .inr ⟨transaction, signature, htransaction, hsign, ?_⟩
    rw [citaSendRawtx, hfinal, citaSendToNode_sends, hmid]
    rfl

section Sent

variable {state : CitaState} {request : SendRequest}
  {transaction : Transaction} {signature : BoatSignatureResult}

/-- The request that went out is the one for what was signed. -/
theorem citaSendRawtx_request
    (htransaction : citaTransaction state.tx = .ok transaction)
    (hsign : boatSignature env (env.keccak256 transaction.pack) = .ok signature)
    (hsent : (Exec.final (citaSendRawtx env state)).sends =
      state.sends ++ [request]) :
    request = citaRequest ⟨transaction, (citaSignResult signature).1, 0⟩ := by
  rcases @citaSendRawtx_sends env state with
    hnone | ⟨message, result, hmessage, hresult, hone⟩
  · rw [hnone] at hsent
    exact absurd hsent.symm (by simp)
  · obtain rfl := Except.ok.inj (hmessage.symm.trans htransaction)
    obtain rfl := Except.ok.inj (hresult.symm.trans hsign)
    have hrequest := List.append_cancel_left (hsent.symm.trans hone)
    exact List.singleton_inj.mp hrequest

theorem citaRequest_rsv_iff :
    citaRequest ⟨transaction, (citaSignResult signature).1, 0⟩ =
        citaRequest ⟨transaction, signature.rsv, 0⟩ ↔
      Flush signature.rHalf ∧ Flush signature.sHalf := by
  rw [← citaSignResult_eq_rsv_iff]
  have hlen : (citaSignResult signature).1.length = signature.rsv.length := by
    rw [(citaSignResult signature).2, signature.length_rsv]
  constructor
  · intro heq
    exact (UnverifiedTransaction.hexStr_inj hlen).mp
      (congrArg SendRequest.signedtx heq)
  · intro heq
    rw [heq]

/-- The signature goes out as its two halves and its recovery byte, each in
its place, where no half starts with a zero byte that is not all of it. -/
theorem citaSendRawtx_rsv_iff
    (htransaction : citaTransaction state.tx = .ok transaction)
    (hsign : boatSignature env (env.keccak256 transaction.pack) = .ok signature)
    (hsent : (Exec.final (citaSendRawtx env state)).sends =
      state.sends ++ [request]) :
    request = citaRequest ⟨transaction, signature.rsv, 0⟩ ↔
      Flush signature.rHalf ∧ Flush signature.sHalf := by
  rw [citaSendRawtx_request htransaction hsign hsent]
  exact citaRequest_rsv_iff

end Sent

end Run

section Sample

/-- A keystore whose every signature starts with a given byte. -/
def citaSampleEnv (first : UInt8) : SendEnv :=
  { sampleEnv 1 with
    keystoreSign := fun _ => .ok (⟨first :: List.replicate 63 1, rfl⟩, 1) }

def citaSampleState : CitaState where
  tx :=
    { networkInfo :=
        ⟨0, 1, zeroBytes 32, zeroBytes 127⟩
      txHash := ⟨.zero 32, 0⟩
      rawtxFields := .zero }
  resultBuf := ⟨none, 0⟩
  events := []

/-- What the sample sends for a signature. -/
theorem citaSample_sent (first : UInt8)
    (hsends : (Exec.final (citaSendRawtx (citaSampleEnv first)
      citaSampleState)).sends ≠ []) :
    ∃ transaction request signature,
      citaTransaction citaSampleState.tx = .ok transaction ∧
      boatSignature (citaSampleEnv first)
        ((citaSampleEnv first).keccak256 transaction.pack) = .ok signature ∧
      signature.rHalf = first :: List.replicate 31 1 ∧
      signature.sHalf = List.replicate 32 1 ∧
      (Exec.final (citaSendRawtx (citaSampleEnv first) citaSampleState)).sends =
        citaSampleState.sends ++ [request] := by
  rcases @citaSendRawtx_sends (citaSampleEnv first) citaSampleState with
    hnone | ⟨transaction, signature, htransaction, hsign, hone⟩
  · exact absurd hnone hsends
  · refine ⟨transaction, _, signature, htransaction, hsign, ?_, ?_, hone⟩
    · cases hsign
      rfl
    · cases hsign
      rfl

/-- A signature without a leading zero byte. -/
theorem citaSendRawtx_rsv_iff_sample :
    ∃ transaction request signature,
      citaTransaction citaSampleState.tx = .ok transaction ∧
      boatSignature (citaSampleEnv 1)
        ((citaSampleEnv 1).keccak256 transaction.pack) = .ok signature ∧
      (Exec.final (citaSendRawtx (citaSampleEnv 1) citaSampleState)).sends =
        citaSampleState.sends ++ [request] ∧
      (request = citaRequest ⟨transaction, signature.rsv, 0⟩ ↔
        Flush signature.rHalf ∧ Flush signature.sHalf) := by
  obtain ⟨transaction, request, signature, htransaction, hsign, _, _, hsent⟩ :=
    citaSample_sent 1 (by decide +kernel)
  exact ⟨transaction, request, signature, htransaction, hsign, hsent,
    citaSendRawtx_rsv_iff htransaction hsign hsent⟩

/-- A signature whose first half starts with a zero byte goes out with that
half moved. -/
theorem not_citaSendRawtx_rsv :
    ¬∀ (env : SendEnv) (state : CitaState) (transaction : Transaction)
        (request : SendRequest) (signature : BoatSignatureResult),
      citaTransaction state.tx = .ok transaction →
      boatSignature env (env.keccak256 transaction.pack) = .ok signature →
      (Exec.final (citaSendRawtx env state)).sends = state.sends ++ [request] →
      request = citaRequest ⟨transaction, signature.rsv, 0⟩ := by
  intro hclaim
  obtain ⟨transaction, request, signature, htransaction, hsign, hr, _, hsent⟩ :=
    citaSample_sent 0 (by decide +kernel)
  have hrequest := hclaim _ _ _ _ _ htransaction hsign hsent
  rw [citaSendRawtx_request htransaction hsign hsent,
    citaRequest_rsv_iff, hr] at hrequest
  rcases hrequest.1 with hcanonical | hzero
  · exact hcanonical rfl
  · exact absurd (hzero 1 (by decide)) (by decide)

end Sample

end BoatFramework
