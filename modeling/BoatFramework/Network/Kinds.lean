/-
The network code of the ten protocols: each gives network data the index it is
made with, and stores it as a body of at least two bytes behind its length.
-/
import BoatFramework.Base.Exec
import BoatFramework.Network.Ethereum
import BoatFramework.Network.Hlfabric
import BoatFramework.Network.StoreSteps

namespace BoatFramework

open Exec

/-- The generated functions that unpack stored messages. -/
structure NetworkUnpack where
  fabric : List UInt8 → Option FabricNetworkData
  chainmaker : List UInt8 → Option ChainmakerNetworkData
  cita : List UInt8 → Option CitaNetworkData

/-- The protocols that are compiled in. -/
def boatNetworks (unpack : NetworkUnpack) : List NetworkKind :=
  [boatEthNetwork, boatHlfabricNetwork unpack.fabric, boatPlatonNetwork,
    boatPlatoneNetwork, boatFiscobcosNetwork, boatHwbcsNetwork unpack.fabric,
    boatChainmakerNetwork unpack.chainmaker, boatVenachainNetwork,
    boatQuorumNetwork, boatCitaNetwork unpack.cita]

variable {unpack : NetworkUnpack} {kind : NetworkKind}
  {protocol : BoatProtocolType} {packed networkData : List UInt8}

theorem packedNetworkData_eq
    (hstored : packedNetworkData packed = .ok networkData) :
    networkData = addLWithOffset packed := by
  unfold packedNetworkData boatThrow at hstored
  simp only at hstored
  split at hstored
  next => cases hstored
  next => exact (except_guard_eq_ok hstored).2.symm

/-- What is stored of a message is its fields, two bytes at least. -/
theorem packedNetworkData_body (hsized : Protobuf.Sized packed)
    (hstored : packedNetworkData packed = .ok networkData) :
    ∃ body, 2 ≤ body.length ∧ networkData = addLWithOffset body := by
  have heq := packedNetworkData_eq hstored
  rcases hsized with rfl | hsized
  · cases hstored
  · exact ⟨packed, hsized, heq⟩

theorem ethNetworkKind_body {data : BoatEthNetworkData}
    (hstored : boatEthGetNetworkData data = .ok networkData) :
    ∃ body, 2 ≤ body.length ∧ networkData = addLWithOffset body := by
  obtain ⟨nodeUrl, _, hstored⟩ := except_bind_eq_ok.mp hstored
  refine ⟨_, ?_, (except_guard_eq_ok hstored).2.symm⟩
  rw [List.length_append]
  exact Nat.le_add_right 2 _

theorem hlfabricNetworkKind_body {data : BoatHlfabricNetworkData}
    (hstored : boatHlfabricGetNetworkData data = .ok networkData) :
    ∃ body, 2 ≤ body.length ∧ networkData = addLWithOffset body := by
  obtain ⟨message, _, hstored⟩ := except_bind_eq_ok.mp hstored
  refine packedNetworkData_body ?_ hstored
  refine (Protobuf.uintField_sized 1 _).append ?_
  refine (Protobuf.stringField_sized 2 _).append ?_
  refine (Protobuf.stringField_sized 3 _).append ?_
  refine (Protobuf.stringField_sized 4 _).append ?_
  exact (Protobuf.repeatedField_sized 5 _ _).append
    (Protobuf.repeatedField_sized 6 _ _)

theorem boatChainmakerNetwork_body {data : BoatChainmakerNetworkData}
    (hstored : boatChainmakerGetNetworkData data = .ok networkData) :
    ∃ body, 2 ≤ body.length ∧ networkData = addLWithOffset body := by
  obtain ⟨_, _, hstored⟩ := except_bind_eq_ok.mp hstored
  obtain ⟨_, _, hstored⟩ := except_bind_eq_ok.mp hstored
  obtain ⟨_, _, hstored⟩ := except_bind_eq_ok.mp hstored
  obtain ⟨_, _, hstored⟩ := except_bind_eq_ok.mp hstored
  refine packedNetworkData_body ?_ hstored
  refine (Protobuf.uintField_sized 1 _).append ?_
  refine (Protobuf.uintField_sized 2 _).append ?_
  refine (Protobuf.stringField_sized 3 _).append ?_
  refine (Protobuf.stringField_sized 4 _).append ?_
  refine (Protobuf.stringField_sized 5 _).append ?_
  refine (Protobuf.stringField_sized 6 _).append ?_
  refine (Protobuf.stringField_sized 7 _).append ?_
  refine (Protobuf.stringField_sized 8 _).append ?_
  exact (Protobuf.stringField_sized 9 _).append
    (Protobuf.stringField_sized 10 _)

theorem CitaNetworkData.pack_sized (message : CitaNetworkData) :
    Protobuf.Sized message.pack := by
  refine (Protobuf.uintField_sized 1 _).append ?_
  refine (Protobuf.uintField_sized 2 _).append ?_
  exact (Protobuf.stringField_sized 3 _).append
    (Protobuf.lengthField_sized 4 _)

theorem boatCitaNetwork_body {data : BoatCitaNetworkData}
    (hstored : boatCitaGetNetworkData data = .ok networkData) :
    ∃ body, 2 ≤ body.length ∧ networkData = addLWithOffset body := by
  obtain ⟨_, _, hstored⟩ := except_bind_eq_ok.mp hstored
  exact packedNetworkData_body (CitaNetworkData.pack_sized _) hstored

/-- What the network code of a protocol stores is a body behind its length. -/
theorem boatNetworks_body (hkind : kind ∈ boatNetworks unpack)
    {data : kind.Data} (hstored : kind.getNetworkData data = .ok networkData) :
    ∃ body, 2 ≤ body.length ∧ networkData = addLWithOffset body := by
  simp only [boatNetworks, List.mem_cons, List.not_mem_nil, or_false] at hkind
  rcases hkind with rfl | rfl | rfl | rfl | rfl | rfl | rfl | rfl | rfl | rfl
  · exact ethNetworkKind_body hstored
  · exact hlfabricNetworkKind_body hstored
  · exact ethNetworkKind_body hstored
  · exact ethNetworkKind_body hstored
  · exact ethNetworkKind_body hstored
  · exact hlfabricNetworkKind_body hstored
  · exact boatChainmakerNetwork_body hstored
  · exact ethNetworkKind_body hstored
  · exact ethNetworkKind_body hstored
  · exact boatCitaNetwork_body hstored

theorem ethNetworkKind_lawful (protocol : BoatProtocolType) :
    (ethNetworkKind protocol).Lawful where
  index_eq networkConfig index data hfilled := by
    obtain ⟨nodeUrl, _, hfilled⟩ := except_bind_eq_ok.mp hfilled
    obtain ⟨nodeUrlStr, _, hfilled⟩ := except_bind_eq_ok.mp hfilled
    obtain rfl := Except.ok.inj hfilled
    rfl
  stored _ _ hstored _ := ethNetworkKind_body hstored

section Ethereum

variable {networkData : BoatEthNetworkData} {nodeUrl : CString}

/-- The four values of a network behind their lengths. -/
def ethBody (networkData : BoatEthNetworkData) (nodeUrl : CString) :
    List UInt8 :=
  addLWithOffset [networkData.networkIndex] ++
    (addLWithOffset (enumBytes networkData.chainId) ++
      (addLWithOffset [if networkData.eip155Compatibility then 1 else 0] ++
        addLWithOffset (nodeUrl.bytes ++ [0])))

theorem length_ethBody (networkData : BoatEthNetworkData) (nodeUrl : CString) :
    (ethBody networkData nodeUrl).length =
      nodeUrl.bytes.length + 10 +
        utilityGetTLVLLFromLen (nodeUrl.bytes.length + 1) := by
  have hurl : nodeUrl.bytes ++ [0] ≠ [] := by simp
  unfold ethBody
  simp only [List.length_append]
  have hchain : enumBytes networkData.chainId ≠ [] := List.cons_ne_nil _ _
  rw [length_addL (List.cons_ne_nil _ _), length_addL hchain,
    length_addL (List.cons_ne_nil _ _), length_addL hurl, List.length_append,
    length_enumBytes, List.length_singleton, List.length_singleton,
    List.length_singleton]
  change 1 + 1 + (1 + 4 + (1 + 1 + (_ + (_ + 1)))) = _
  omega

/-- The block for network data is as long as it is. -/
theorem boatEthGetNetworkDataLen_eq (networkData : BoatEthNetworkData)
    (nodeUrl : CString) :
    boatEthGetNetworkDataLen nodeUrl =
      (addLWithOffset (ethBody networkData nodeUrl)).length := by
  have hbody := length_ethBody networkData nodeUrl
  have hne : ethBody networkData nodeUrl ≠ [] :=
    List.ne_nil_of_length_pos (by omega)
  rw [length_addL hne, hbody]
  unfold boatEthGetNetworkDataLen
  simp only
  have hsum : 1 + utilityGetTLVLLFromLen 1 + (4 + utilityGetTLVLLFromLen 4) +
      (1 + utilityGetTLVLLFromLen 1) + (nodeUrl.bytes.length + 1 +
        utilityGetTLVLLFromLen (nodeUrl.bytes.length + 1)) =
      nodeUrl.bytes.length + 10 +
        utilityGetTLVLLFromLen (nodeUrl.bytes.length + 1) := by
    change 1 + 1 + (4 + 1) + (1 + 1) + _ = _
    omega
  rw [hsum]
  exact Nat.add_comm _ _

theorem boatEthGetNetworkData_ok
    (htext : cString networkData.nodeUrlStr.1 = .ok nodeUrl) :
    boatEthGetNetworkData networkData =
      .ok (addLWithOffset (ethBody networkData nodeUrl)) := by
  refine except_bind_eq_ok.mpr ⟨nodeUrl, htext, if_neg ?_⟩
  rw [boatEthGetNetworkDataLen_eq networkData nodeUrl]
  exact Nat.lt_irrefl _

theorem length_ethStored (hlen : nodeUrl.bytes.length < 127) :
    (addLWithOffset (ethBody networkData nodeUrl)).length < 3 + 0x10000 := by
  have hbody := length_ethBody networkData nodeUrl
  have hurl := utilityGetTLVLLFromLen_le (nodeUrl.bytes.length + 1)
  have hall := utilityGetTLVLLFromLen_le (ethBody networkData nodeUrl).length
  rw [length_addL (List.ne_nil_of_length_pos (by omega))]
  omega

end Ethereum

/-- The networks of the six protocols fit, where the URL ends in its field. -/
theorem ethNetworkKind_fits (protocol : BoatProtocolType)
    {networkConfig : BoatEthNetworkConfig}
    (hurl : 0 ∈ networkConfig.nodeUrlStr.1) :
    (ethNetworkKind protocol).Fits networkConfig := by
  intro index
  have hlen := length_ofBuffer hurl
  rw [networkConfig.nodeUrlStr.2] at hlen
  obtain ⟨nodeUrlStr, hfield, hblock⟩ := charField_ok hlen
  have htext : cString nodeUrlStr.1 =
      .ok (CString.ofBuffer networkConfig.nodeUrlStr.1) := by
    rw [hblock, cString_append]
  have hfilled : boatEthNetworkData networkConfig index =
      .ok ⟨index, networkConfig.chainId, networkConfig.eip155Compatibility,
        nodeUrlStr⟩ := by
    refine except_bind_eq_ok.mpr ⟨_, if_pos hurl, ?_⟩
    exact except_bind_eq_ok.mpr ⟨nodeUrlStr, hfield, rfl⟩
  have hform : (ethNetworkKind protocol).storedForm networkConfig index =
      boatEthGetNetworkData ⟨index, networkConfig.chainId,
        networkConfig.eip155Compatibility, nodeUrlStr⟩ := by
    change (boatEthNetworkData networkConfig index >>= _) = _
    rw [hfilled]
    rfl
  rw [hform, boatEthGetNetworkData_ok htext]
  exact length_ethStored hlen

theorem hlfabricNetworkKind_lawful (protocol : BoatProtocolType)
    (unpack : List UInt8 → Option FabricNetworkData) :
    (hlfabricNetworkKind protocol unpack).Lawful where
  index_eq networkConfig index data hfilled := by
    obtain rfl := Except.ok.inj hfilled
    rfl
  stored _ _ hstored _ := hlfabricNetworkKind_body hstored

theorem boatChainmakerNetwork_lawful
    (unpack : List UInt8 → Option ChainmakerNetworkData) :
    (boatChainmakerNetwork unpack).Lawful where
  index_eq networkConfig index data hfilled := by
    obtain rfl := Except.ok.inj hfilled
    rfl
  stored _ _ hstored _ := boatChainmakerNetwork_body hstored

theorem boatCitaNetwork_lawful
    (unpack : List UInt8 → Option CitaNetworkData) :
    (boatCitaNetwork unpack).Lawful where
  index_eq networkConfig index data hfilled := by
    obtain ⟨_, _, hfilled⟩ := except_bind_eq_ok.mp hfilled
    obtain ⟨_, _, hfilled⟩ := except_bind_eq_ok.mp hfilled
    obtain rfl := Except.ok.inj hfilled
    rfl
  stored _ _ hstored _ := boatCitaNetwork_body hstored

theorem boatNetworks_lawful (hkind : kind ∈ boatNetworks unpack) :
    kind.Lawful := by
  simp only [boatNetworks, List.mem_cons, List.not_mem_nil, or_false] at hkind
  rcases hkind with rfl | rfl | rfl | rfl | rfl | rfl | rfl | rfl | rfl | rfl
  · exact ethNetworkKind_lawful .ethereum
  · exact hlfabricNetworkKind_lawful .hlfabric unpack.fabric
  · exact ethNetworkKind_lawful .platon
  · exact ethNetworkKind_lawful .platone
  · exact ethNetworkKind_lawful .fiscobcos
  · exact hlfabricNetworkKind_lawful .hwbcs unpack.fabric
  · exact boatChainmakerNetwork_lawful unpack.chainmaker
  · exact ethNetworkKind_lawful .venachain
  · exact ethNetworkKind_lawful .quorum
  · exact boatCitaNetwork_lawful unpack.cita

end BoatFramework
