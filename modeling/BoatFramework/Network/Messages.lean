/-
The messages of stored networks as the wire format gives them: what is packed is
unpacked again.
-/
import BoatFramework.Base.ProtobufMessage
import BoatFramework.Network.Kinds

namespace BoatFramework

open Protobuf

/-- The text of a field, which ends at its first NUL. -/
def cStringField (number : Nat) (fields : List Field) : CString :=
  CString.ofBuffer (textOf number fields)

def uint32Field (number : Nat) (fields : List Field) : UInt32 :=
  UInt32.ofNat (uintOf number fields)

theorem uint32_numbered {number : Nat} (hnumber : number < 2 ^ 29)
    (value : UInt32) :
    ∀ field ∈ uintFields number value.toNat, field.Numbered :=
  uintFields_numbered hnumber (Nat.lt_trans value.toNat_lt (by decide))

section Cita

def CitaNetworkData.fields (message : CitaNetworkData) : List Field :=
  uintFields 1 message.index.toNat ++
    (uintFields 2 message.version.toNat ++
      (textFields 3 message.nodeUrlStr.bytes ++
        contentFields 4 [message.chainIdStr]))

def CitaNetworkData.ofFields (fields : List Field) : CitaNetworkData :=
  ⟨uint32Field 1 fields, uint32Field 2 fields, cStringField 3 fields,
    textOf 4 fields⟩

def CitaNetworkData.unpack (bytes : List UInt8) : Option CitaNetworkData :=
  (parseFields bytes).bind fun fields => some (CitaNetworkData.ofFields fields)

variable (message : CitaNetworkData)

theorem CitaNetworkData.pack_eq :
    message.pack = writeFields message.fields := by
  unfold CitaNetworkData.pack CitaNetworkData.fields
  simp only [writeFields_append, writeFields_uintFields, writeFields_textFields]
  rw [← List.map_id [message.chainIdStr], writeFields_contentFields,
    repeatedField, List.map_singleton, List.flatten_singleton]
  rfl

theorem CitaNetworkData.fields_numbered :
    ∀ field ∈ message.fields, field.Numbered := by
  refine List.forall_mem_append.mpr ⟨uint32_numbered (by decide) _, ?_⟩
  refine List.forall_mem_append.mpr ⟨uint32_numbered (by decide) _, ?_⟩
  exact List.forall_mem_append.mpr ⟨textFields_numbered (by decide) _,
    contentFields_numbered (by decide) _⟩

theorem CitaNetworkData.ofFields_fields :
    CitaNetworkData.ofFields message.fields = message := by
  cases message
  simp [CitaNetworkData.ofFields, CitaNetworkData.fields, uint32Field,
    cStringField, uintOf, textOf, contentOf, ofBuffer_bytes]

theorem CitaNetworkData.unpack_pack (hshort : message.pack.length < 2 ^ 64) :
    CitaNetworkData.unpack message.pack = some message := by
  rw [message.pack_eq] at hshort ⊢
  exact parseFields_bind message.fields_numbered hshort
    (congrArg some message.ofFields_fields)

end Cita

section Chainmaker

def ChainmakerNetworkData.fields (message : ChainmakerNetworkData) :
    List Field :=
  uintFields 1 message.index.toNat ++
    (uintFields 2 message.clientMemberType.toNat ++
      (textFields 3 message.clientSignCertContent.bytes ++
        (textFields 4 message.nodeUrl.bytes ++
          (textFields 5 message.hostName.bytes ++
            (textFields 6 message.chainId.bytes ++
              (textFields 7 message.orgId.bytes ++
                (textFields 8 message.caTlsCertContent.bytes ++
                  (textFields 9 message.clientTlsCertContent.bytes ++
                    textFields 10 message.clientTlsPrivkeyData.bytes))))))))

def ChainmakerNetworkData.ofFields (fields : List Field) :
    ChainmakerNetworkData :=
  ⟨uint32Field 1 fields, uint32Field 2 fields, cStringField 3 fields,
    cStringField 4 fields, cStringField 5 fields, cStringField 6 fields,
    cStringField 7 fields, cStringField 8 fields, cStringField 9 fields,
    cStringField 10 fields⟩

def ChainmakerNetworkData.unpack (bytes : List UInt8) :
    Option ChainmakerNetworkData :=
  (parseFields bytes).bind fun fields =>
    some (ChainmakerNetworkData.ofFields fields)

variable (message : ChainmakerNetworkData)

theorem ChainmakerNetworkData.pack_eq :
    message.pack = writeFields message.fields := by
  unfold ChainmakerNetworkData.pack ChainmakerNetworkData.fields
  simp only [writeFields_append, writeFields_uintFields, writeFields_textFields]

theorem ChainmakerNetworkData.fields_numbered :
    ∀ field ∈ message.fields, field.Numbered := by
  refine List.forall_mem_append.mpr ⟨uint32_numbered (by decide) _, ?_⟩
  refine List.forall_mem_append.mpr ⟨uint32_numbered (by decide) _, ?_⟩
  refine List.forall_mem_append.mpr ⟨textFields_numbered (by decide) _, ?_⟩
  refine List.forall_mem_append.mpr ⟨textFields_numbered (by decide) _, ?_⟩
  refine List.forall_mem_append.mpr ⟨textFields_numbered (by decide) _, ?_⟩
  refine List.forall_mem_append.mpr ⟨textFields_numbered (by decide) _, ?_⟩
  refine List.forall_mem_append.mpr ⟨textFields_numbered (by decide) _, ?_⟩
  refine List.forall_mem_append.mpr ⟨textFields_numbered (by decide) _, ?_⟩
  exact List.forall_mem_append.mpr ⟨textFields_numbered (by decide) _,
    textFields_numbered (by decide) _⟩

theorem ChainmakerNetworkData.ofFields_fields :
    ChainmakerNetworkData.ofFields message.fields = message := by
  cases message
  simp [ChainmakerNetworkData.ofFields, ChainmakerNetworkData.fields,
    uint32Field, cStringField, uintOf, textOf, contentOf, ofBuffer_bytes]

theorem ChainmakerNetworkData.unpack_pack
    (hshort : message.pack.length < 2 ^ 64) :
    ChainmakerNetworkData.unpack message.pack = some message := by
  rw [message.pack_eq] at hshort ⊢
  exact parseFields_bind message.fields_numbered hshort
    (congrArg some message.ofFields_fields)

end Chainmaker

section Fabric

def FabricNodeInfo.fields (message : FabricNodeInfo) : List Field :=
  textFields 1 message.nodeurl.bytes ++ textFields 2 message.hostname.bytes

def FabricNodeInfo.unpack (bytes : List UInt8) : Option FabricNodeInfo :=
  (parseFields bytes).bind fun fields =>
    some ⟨cStringField 1 fields, cStringField 2 fields⟩

def FabricNodeGroupCfg.fields (message : FabricNodeGroupCfg) : List Field :=
  uintFields 1 message.quantities.toNat ++
    (contentFields 2 (message.endorser.map FabricNodeInfo.pack) ++
      textFields 3 message.tlsorgcertcontent.bytes)

def FabricNodeGroupCfg.ofFields (fields : List Field) :
    Option FabricNodeGroupCfg := do
  let endorser ← (contentsOf 2 fields).mapM FabricNodeInfo.unpack
  some ⟨uint32Field 1 fields, endorser, cStringField 3 fields⟩

def FabricNodeGroupCfg.unpack (bytes : List UInt8) :
    Option FabricNodeGroupCfg :=
  (parseFields bytes).bind FabricNodeGroupCfg.ofFields

def FabricNodeLayoutCfg.fields (message : FabricNodeLayoutCfg) : List Field :=
  contentFields 1 (message.groupcfg.map FabricNodeGroupCfg.pack)

def FabricNodeLayoutCfg.unpack (bytes : List UInt8) :
    Option FabricNodeLayoutCfg :=
  (parseFields bytes).bind fun fields => do
    let groupcfg ← (contentsOf 1 fields).mapM FabricNodeGroupCfg.unpack
    some ⟨groupcfg⟩

def FabricNetworkData.fields (message : FabricNetworkData) : List Field :=
  uintFields 1 message.index.toNat ++
    (textFields 2 message.accountcertcontent.bytes ++
      (textFields 3 message.accountclienttlsprikey.bytes ++
        (textFields 4 message.accountclienttlscert.bytes ++
          (contentFields 5 (message.layoutcfg.map FabricNodeLayoutCfg.pack) ++
            contentFields 6
              (message.ordercfg.toList.map FabricNodeGroupCfg.pack)))))

def FabricNetworkData.ofFields (fields : List Field) :
    Option FabricNetworkData := do
  let layoutcfg ← (contentsOf 5 fields).mapM FabricNodeLayoutCfg.unpack
  let ordercfg ← (contentOf 6 fields).mapM FabricNodeGroupCfg.unpack
  some ⟨uint32Field 1 fields, cStringField 2 fields, cStringField 3 fields,
    cStringField 4 fields, layoutcfg, ordercfg⟩

def FabricNetworkData.unpack (bytes : List UInt8) : Option FabricNetworkData :=
  (parseFields bytes).bind FabricNetworkData.ofFields

theorem FabricNodeInfo.pack_eq (message : FabricNodeInfo) :
    message.pack = writeFields message.fields := by
  unfold FabricNodeInfo.pack FabricNodeInfo.fields
  simp only [writeFields_append, writeFields_textFields]

theorem FabricNodeGroupCfg.pack_eq (message : FabricNodeGroupCfg) :
    message.pack = writeFields message.fields := by
  unfold FabricNodeGroupCfg.pack FabricNodeGroupCfg.fields
  simp only [writeFields_append, writeFields_uintFields, writeFields_textFields,
    writeFields_contentFields]

theorem FabricNodeLayoutCfg.pack_eq (message : FabricNodeLayoutCfg) :
    message.pack = writeFields message.fields := by
  unfold FabricNodeLayoutCfg.pack FabricNodeLayoutCfg.fields
  rw [writeFields_contentFields]

theorem FabricNetworkData.pack_eq (message : FabricNetworkData) :
    message.pack = writeFields message.fields := by
  unfold FabricNetworkData.pack FabricNetworkData.fields
  simp only [writeFields_append, writeFields_uintFields, writeFields_textFields,
    writeFields_contentFields]

theorem FabricNodeInfo.unpack_pack (message : FabricNodeInfo)
    (hshort : message.pack.length < 2 ^ 64) :
    FabricNodeInfo.unpack message.pack = some message := by
  rw [message.pack_eq] at hshort ⊢
  refine parseFields_bind ?_ hshort ?_
  · exact List.forall_mem_append.mpr ⟨textFields_numbered (by decide) _,
      textFields_numbered (by decide) _⟩
  · cases message
    simp [FabricNodeInfo.fields, cStringField, textOf, contentOf, ofBuffer_bytes]

theorem FabricNodeGroupCfg.unpack_pack (message : FabricNodeGroupCfg)
    (hshort : message.pack.length < 2 ^ 64) :
    FabricNodeGroupCfg.unpack message.pack = some message := by
  rw [message.pack_eq] at hshort ⊢
  have hendorser : (message.endorser.map FabricNodeInfo.pack).mapM
      FabricNodeInfo.unpack = some message.endorser := by
    refine mapM_read fun endorser hmem => endorser.unpack_pack ?_
    refine Nat.lt_of_le_of_lt (length_inside_le 2 ?_
      (List.mem_map_of_mem hmem)) hshort
    exact List.subset_append_of_subset_right _ (List.subset_append_left _ _)
  refine parseFields_bind ?_ hshort ?_
  · refine List.forall_mem_append.mpr ⟨uint32_numbered (by decide) _, ?_⟩
    exact List.forall_mem_append.mpr ⟨contentFields_numbered (by decide) _,
      textFields_numbered (by decide) _⟩
  · simp [FabricNodeGroupCfg.ofFields, FabricNodeGroupCfg.fields, uint32Field,
      cStringField, uintOf, textOf, contentOf, ofBuffer_bytes, hendorser]

theorem FabricNodeLayoutCfg.unpack_pack (message : FabricNodeLayoutCfg)
    (hshort : message.pack.length < 2 ^ 64) :
    FabricNodeLayoutCfg.unpack message.pack = some message := by
  rw [message.pack_eq] at hshort ⊢
  have hgroupcfg : (message.groupcfg.map FabricNodeGroupCfg.pack).mapM
      FabricNodeGroupCfg.unpack = some message.groupcfg := by
    refine mapM_read fun groupcfg hmem => groupcfg.unpack_pack ?_
    exact Nat.lt_of_le_of_lt (length_inside_le 1 (List.Subset.refl _)
      (List.mem_map_of_mem hmem)) hshort
  refine parseFields_bind (contentFields_numbered (by decide) _) hshort ?_
  simp [FabricNodeLayoutCfg.fields, hgroupcfg]

/-- The message of a network comes out of its bytes with all that is nested in
it. -/
theorem FabricNetworkData.unpack_pack (message : FabricNetworkData)
    (hshort : message.pack.length < 2 ^ 64) :
    FabricNetworkData.unpack message.pack = some message := by
  rw [message.pack_eq] at hshort ⊢
  have hlayoutcfg : (message.layoutcfg.map FabricNodeLayoutCfg.pack).mapM
      FabricNodeLayoutCfg.unpack = some message.layoutcfg := by
    refine mapM_read fun layoutcfg hmem => layoutcfg.unpack_pack ?_
    refine Nat.lt_of_le_of_lt (length_inside_le 5 ?_
      (List.mem_map_of_mem hmem)) hshort
    exact List.subset_append_of_subset_right _
      (List.subset_append_of_subset_right _
        (List.subset_append_of_subset_right _
          (List.subset_append_of_subset_right _ (List.subset_append_left _ _))))
  have hordercfg : (message.ordercfg.map FabricNodeGroupCfg.pack).mapM
      FabricNodeGroupCfg.unpack = some message.ordercfg := by
    cases horder : message.ordercfg with
    | none => rfl
    | some ordercfg =>
        have hinside : contentFields 6 [ordercfg.pack] ⊆ message.fields := by
          rw [FabricNetworkData.fields, horder]
          exact List.subset_append_of_subset_right _
            (List.subset_append_of_subset_right _
              (List.subset_append_of_subset_right _
                (List.subset_append_of_subset_right _
                  (List.subset_append_right _ _))))
        have hunpack := ordercfg.unpack_pack (Nat.lt_of_le_of_lt
          (length_inside_le 6 hinside List.mem_cons_self) hshort)
        simp [hunpack]
  have hlast : message.ordercfg.toList.getLast? = message.ordercfg := by
    cases message.ordercfg <;> rfl
  refine parseFields_bind ?_ hshort ?_
  · refine List.forall_mem_append.mpr ⟨uint32_numbered (by decide) _, ?_⟩
    refine List.forall_mem_append.mpr ⟨textFields_numbered (by decide) _, ?_⟩
    refine List.forall_mem_append.mpr ⟨textFields_numbered (by decide) _, ?_⟩
    refine List.forall_mem_append.mpr ⟨textFields_numbered (by decide) _, ?_⟩
    exact List.forall_mem_append.mpr ⟨contentFields_numbered (by decide) _,
      contentFields_numbered (by decide) _⟩
  · simp [FabricNetworkData.ofFields, FabricNetworkData.fields, uint32Field,
      cStringField, uintOf, textOf, contentOf, ofBuffer_bytes, hlayoutcfg,
      hlast, hordercfg]

end Fabric

end BoatFramework
