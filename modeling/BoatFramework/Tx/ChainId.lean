/-
The chain id in the `v` of an EIP-155 transaction.  A 32-bit chain id gets into
a wallet unchecked, and `v` is computed in 32-bit arithmetic.
-/
import BoatFramework.Tx.Chains

namespace BoatFramework

open ByteString

/-- `BoatEthNetworkConfig` without the node address, which no sender reads. -/
structure EthNetworkConfig where
  chainId : UInt32
  eip155Compatibility : Bool

/-- `BoATEthNetworkCreate`, read back by index: the chain id as given. -/
def boatEthNetworkCreate (networkConfig : EthNetworkConfig) : NetworkInfo where
  chainId := networkConfig.chainId.toNat
  eip155Compatibility := networkConfig.eip155Compatibility

def boatEthWalletChangeChainID (networkInfo : NetworkInfo)
    (newChainID : UInt32) : NetworkInfo :=
  { networkInfo with chainId := newChainID.toNat }

def boatEthWalletChangeEIP155Comp (networkInfo : NetworkInfo)
    (eip155Compatibility : Bool) : NetworkInfo :=
  { networkInfo with eip155Compatibility }

/-- The networks a wallet can hold: created, then changed any number of
times. -/
inductive NetworkInfo.Accepted : NetworkInfo → Prop where
  | create (networkConfig : EthNetworkConfig) :
      Accepted (boatEthNetworkCreate networkConfig)
  | changeChainID {networkInfo : NetworkInfo} (newChainID : UInt32) :
      Accepted networkInfo →
        Accepted (boatEthWalletChangeChainID networkInfo newChainID)
  | changeEIP155Comp {networkInfo : NetworkInfo} (eip155Compatibility : Bool) :
      Accepted networkInfo →
        Accepted (boatEthWalletChangeEIP155Comp networkInfo
          eip155Compatibility)

/-- Every 32-bit chain id is accepted, and no other. -/
theorem NetworkInfo.accepted_iff (networkInfo : NetworkInfo) :
    networkInfo.Accepted ↔ networkInfo.chainId < 2 ^ 32 := by
  constructor
  · intro haccepted
    induction haccepted with
    | create networkConfig => exact networkConfig.chainId.toNat_lt
    | changeChainID newChainID _ _ => exact newChainID.toNat_lt
    | changeEIP155Comp _ _ ih => exact ih
  · intro hlt
    have hcreate := Accepted.create
      ⟨UInt32.ofNat networkInfo.chainId, networkInfo.eip155Compatibility⟩
    rwa [boatEthNetworkCreate, UInt32.toNat_ofNat_of_lt' hlt] at hcreate

/-- What `v` is to be for a parity, as an unbounded integer. -/
def NetworkInfo.vOf (networkInfo : NetworkInfo) (parity : Nat) : Nat :=
  if networkInfo.eip155Compatibility then 2 * networkInfo.chainId + 35 + parity
  else 27 + parity

/-- The chain id a receiver takes from the `v` of EIP-155. -/
def recoverChainId (v : Nat) : Nat :=
  (v - 35) / 2

def recoverParity (v : Nat) : Nat :=
  (v - 35) % 2

/-- The integer an item carries is the `v` of a parity, and a receiver gets the
chain id and the parity back from it. -/
structure NetworkInfo.VExact (networkInfo : NetworkInfo) (parity : Nat)
    (item : List UInt8) : Prop where
  value : ofBigEndian item = networkInfo.vOf parity
  chainId : networkInfo.eip155Compatibility = true →
    recoverChainId (ofBigEndian item) = networkInfo.chainId
  parity : networkInfo.eip155Compatibility = true →
    recoverParity (ofBigEndian item) = parity

section Run

variable {env : SendEnv} {state : SendState}

/-- The seventh item of what a run sends is the 32-bit `v` of its
signature. -/
theorem ethSendRawtx_vItem (hmalloc : Fresh env.malloc)
    (hsent : (Exec.final (ethSendRawtx env state)).sends ≠ state.sends) :
    ∃ message request signature leading tail,
      (Exec.final (ethSendRawtx env state)).events =
        state.events ++ [.hashed message, .sent request] ∧
      boatSignature env (env.keccak256 message) = .ok signature ∧
      leading.length = 6 ∧
      request.Carries (leading ++ utilityUint32ToBigend
        (ethSender.vValue state.tx (sigParity signature)) .leftTrim ::
          tail) := by
  obtain ⟨fields, message, signature, stream, request, _, hevents, hsignature,
    _, hstream, hsize, hrequest⟩ :=
      sendRawtx_sent ethSender_wellFormed (ethSender_quiet env) hmalloc hsent
  exact ⟨message, request, signature, ethSender.leading.map fields.bytes, _,
    hevents, hsignature, rfl, hstream ▸ hsize, hstream ▸ hrequest⟩

/-- The item is exact unless the sum wraps. -/
theorem vExact_iff (tx : BoatTx) {parity : Nat} (hparity : parity ≤ 1) :
    tx.networkInfo.VExact parity
        (utilityUint32ToBigend (ethSender.vValue tx parity) .leftTrim) ↔
      tx.networkInfo.eip155Compatibility = false ∨
        2 * tx.networkInfo.chainId + 35 + parity < 2 ^ 32 := by
  cases hform : tx.networkInfo.eip155Compatibility with
  | false =>
      have hvalue : ethSender.vValue tx parity = parity + 27 := by
        simp [Sender.vValue, Sender.usesEip155, hform, ethSender]
      have hitem := ofBigEndian_utilityUintToBigend
        (show parity + 27 < 256 ^ 4 by omega)
      rw [hvalue, utilityUint32ToBigend]
      simp only [true_or, iff_true]
      refine ⟨?_, by simp [hform], by simp [hform]⟩
      rw [hitem, NetworkInfo.vOf, hform, if_neg Bool.false_ne_true, add_comm]
  | true =>
      have hvalue : ethSender.vValue tx parity =
          buint32 (tx.networkInfo.chainId * 2 + parity + 35) := by
        simp [Sender.vValue, Sender.usesEip155, hform, ethSender]
      have hlt : buint32 (tx.networkInfo.chainId * 2 + parity + 35) < 256 ^ 4 :=
        buint32_lt _
      have hitem := ofBigEndian_utilityUintToBigend hlt
      have hvOf : tx.networkInfo.vOf parity =
          2 * tx.networkInfo.chainId + 35 + parity := by
        rw [NetworkInfo.vOf, hform, if_pos rfl]
      rw [hvalue, utilityUint32ToBigend]
      simp only [Bool.true_eq_false, false_or]
      constructor
      · intro hexact
        have hwrap := hexact.value
        rw [hitem, hvOf] at hwrap
        exact hwrap ▸ buint32_lt _
      · intro hfits
        rw [buint32_of_lt (by omega)] at hitem ⊢
        refine ⟨by rw [hitem, hvOf]; omega, fun _ => ?_, fun _ => ?_⟩
        · rw [hitem, recoverChainId]
          omega
        · rw [hitem, recoverParity]
          omega

theorem boatSignature_parity {digest : List UInt8}
    {signature : BoatSignatureResult}
    (hkeystore : ∀ digest native parity,
      env.keystoreSign digest = .ok (native, parity) → parity.toNat ≤ 1)
    (hsign : boatSignature env digest = .ok signature) :
    sigParity signature ≤ 1 := by
  unfold boatSignature at hsign
  split at hsign
  · cases hsign
  next native parity hkey =>
    split at hsign
    · cases hsign
    · cases hsign
      exact hkeystore digest native parity hkey

/-- The `v` of a sent transaction is exact if and only if EIP-155 is not in use
or the sum stays below `2 ^ 32`. -/
theorem ethSendRawtx_vExact_iff (hmalloc : Fresh env.malloc)
    (hkeystore : ∀ digest native parity,
      env.keystoreSign digest = .ok (native, parity) → parity.toNat ≤ 1)
    (hsent : (Exec.final (ethSendRawtx env state)).sends ≠ state.sends) :
    ∃ message request signature,
      (Exec.final (ethSendRawtx env state)).events =
        state.events ++ [.hashed message, .sent request] ∧
      boatSignature env (env.keccak256 message) = .ok signature ∧
      (∃ items, request.Carries items) ∧
      ∀ items, request.Carries items → ∃ item, items[6]? = some item ∧
        (state.tx.networkInfo.VExact (sigParity signature) item ↔
          state.tx.networkInfo.eip155Compatibility = false ∨
            2 * state.tx.networkInfo.chainId + 35 + sigParity signature <
              2 ^ 32) := by
  obtain ⟨message, request, signature, leading, tail, hevents, hsignature,
    hleading, hcarries⟩ := ethSendRawtx_vItem hmalloc hsent
  refine ⟨message, request, signature, hevents, hsignature, ⟨_, hcarries⟩,
    fun items hitems => ?_⟩
  obtain rfl := hitems.unique hcarries
  refine ⟨_, ?_, vExact_iff state.tx
    (boatSignature_parity hkeystore hsignature)⟩
  rw [List.getElem?_append_right hleading.le, hleading]
  rfl

/-- On chain 1 the item sent for parity 1 is 38. -/
theorem ethSendRawtx_vExact_iff_sample :
    ∃ state', ethSendRawtx (sampleEnv 1) (sampleState ⟨1, true⟩ .zero) =
        .ok () state' ∧
      ∃ message request signature,
        state'.events = [.hashed message, .sent request] ∧
        boatSignature (sampleEnv 1) ((sampleEnv 1).keccak256 message) =
          .ok signature ∧
        (∃ items, request.Carries items) ∧
        ∀ items, request.Carries items → ∃ item, items[6]? = some item ∧
          (NetworkInfo.VExact ⟨1, true⟩ (sigParity signature) item ↔
            true = false ∨ 2 * 1 + 35 + sigParity signature < 2 ^ 32) := by
  obtain ⟨state', hrun⟩ := exists_of_succeeds
    (ethSendRawtx (sampleEnv 1) (sampleState ⟨1, true⟩ .zero))
    (by decide +kernel)
  have hkeystore : ∀ digest native parity,
      (sampleEnv 1).keystoreSign digest = .ok (native, parity) →
        parity.toNat ≤ 1 := by
    rintro _ _ _ ⟨⟩
    decide
  have hvExact := ethSendRawtx_vExact_iff zeroMalloc_fresh hkeystore
    (sendRawtx_sends_ne ethSender_wellFormed zeroMalloc_fresh hrun)
  rw [show ethSendRawtx (sampleEnv 1) (sampleState ⟨1, true⟩ .zero) = _ from
    hrun] at hvExact
  exact ⟨state', hrun, hvExact⟩

/-- On the accepted chain `2 ^ 31` the item sent for parity 0 is 35, the item of
chain 0. -/
theorem ethSendRawtx_v_wraps :
    (boatEthNetworkCreate ⟨2147483648, true⟩).Accepted ∧
    ∃ state' message request items,
      ethSendRawtx (sampleEnv 0) (sampleState
        (boatEthNetworkCreate ⟨2147483648, true⟩) .zero) = .ok () state' ∧
      state'.events = [.hashed message, .sent request] ∧
      request.Carries items ∧
      items[6]? = some [35] ∧
      ofBigEndian [35] ≠ 2 * 2147483648 + 35 + 0 := by
  obtain ⟨state', hrun⟩ := exists_of_succeeds
    (ethSendRawtx (sampleEnv 0) (sampleState
      (boatEthNetworkCreate ⟨2147483648, true⟩) .zero)) (by decide +kernel)
  obtain ⟨message, request, signature, leading, tail, hevents, hsignature,
    hleading, hcarries⟩ := ethSendRawtx_vItem zeroMalloc_fresh
      (sendRawtx_sends_ne ethSender_wellFormed zeroMalloc_fresh hrun)
  rw [hrun] at hevents
  have hparity : sigParity signature = 0 := by
    cases hsignature
    rfl
  refine ⟨.create _, state', message, request, _, hrun, hevents, hcarries, ?_,
    by decide⟩
  rw [List.getElem?_append_right hleading.le, hleading, hparity]
  rfl

end Run

end BoatFramework
