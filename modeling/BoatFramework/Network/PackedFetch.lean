/-
Fetching a network with a packed message as soon as it is created: what is read
is what network data is made of the message that was packed.
-/
import BoatFramework.Network.EthRoundTrip

namespace BoatFramework

open Fuse Exec

/-- Network code that stores a packed message behind its length.  Bytes that
were packed, and that the two bytes of a length can count, are unpacked to the
message they were packed of. -/
structure NetworkKind.Packs (kind : NetworkKind) {Message : Type}
    (pack : Message → List UInt8) (unpackMessage : List UInt8 → Option Message)
    (toProto : kind.Data → Outcome Message)
    (fromProto : Message → Outcome kind.Data) : Prop where
  lawful : kind.Lawful
  sized : ∀ message, Protobuf.Sized (pack message)
  stores : ∀ data, kind.getNetworkData data =
    (toProto data >>= fun message => packedNetworkData (pack message))
  reads : kind.getNetworkFromNvram =
    packedNetworkFromNvram unpackMessage fromProto
  unpacks : ∀ message, (pack message).length < 0x10000 →
    unpackMessage (pack message) = some message

variable {unpack : NetworkUnpack} {d d' : Device} {kind : NetworkKind}
  {storeType : BoatStoreType} {offset : Nat} {networkConfig : kind.Config}
  {index : UInt8} {networkData : List UInt8}

/-- What is stored in RAM has room there. -/
theorem store_ram_fits {storeFile : BoatStoreFile} {data : List UInt8}
    {s t : Fused Device}
    (hstore : boatStoreSoftRotNvram storeFile offset data .ram s = .ok () t) :
    data ≠ [] ∧ offset + data.length ≤ storeFile.room .ram := by
  obtain ⟨_, _, hrun, hstore⟩ := bind_eq_ok.mp hstore
  have hmax := (failIf_eq_ok hrun).1
  obtain ⟨_, _, hrun, hstore⟩ := bind_eq_ok.mp hstore
  have hargs := (failIf_eq_ok hrun).1
  obtain ⟨_, _, _, hstore⟩ := bind_eq_ok.mp hstore
  obtain ⟨_, _, hrun, _⟩ := bind_eq_ok.mp hstore
  have hblock := Nat.not_lt.mp (failIf_eq_ok hrun).1
  have hsmall : storeFile.rambufLen < 2 ^ 32 := by
    cases storeFile <;> decide
  refine ⟨fun hnil => hargs (Or.inl (hnil ▸ rfl)), ?_⟩
  rw [buint32_of_lt (by omega)] at hmax
  exact Nat.le_min.mpr ⟨Nat.not_lt.mp hmax, hblock⟩

/-- A create call for RAM that succeeds writes the stored form behind the
count. -/
theorem networkCreate_ram_stores (hlawful : kind.Lawful)
    (hcreate : networkCreate kind networkConfig .ram ⟨d, none⟩ =
      .ok index ⟨d', none⟩) :
    index = 0 ∧ ∃ networkData,
      kind.storedForm networkConfig 0 = .ok networkData ∧ networkData ≠ [] ∧
        4 + 5 + networkData.length ≤ BoatStoreFile.network.room .ram ∧
        d' = d.writeNetworkIn .ram 4 0 kind.protocol 0 networkData := by
  obtain ⟨_, _, hcheck, hrun⟩ := bind_eq_ok.mp hcreate
  obtain ⟨hchecked, rfl⟩ := ofOutcome_eq_ok hcheck
  obtain ⟨networkIndex, _, hindex, hrun⟩ := bind_eq_ok.mp hrun
  obtain ⟨rfl, rfl⟩ := pure_eq_ok.mp hindex
  obtain ⟨stored, _, hfill, hrun⟩ := bind_eq_ok.mp hrun
  obtain ⟨hfilled, rfl⟩ := ofOutcome_eq_ok hfill
  obtain ⟨_, _, hstore, hlast⟩ := bind_eq_ok.mp hrun
  obtain ⟨rfl, rfl⟩ := pure_eq_ok.mp hlast
  obtain ⟨num, hnum⟩ := readNumOrZero_ram d .network
  obtain ⟨_, _, hcount, hstore⟩ := bind_eq_ok.mp hstore
  rw [hnum.run] at hcount
  cases hcount
  obtain ⟨_, _, hpass, happend⟩ := bind_eq_ok.mp hstore
  obtain ⟨_, rfl⟩ := failIf_eq_ok hpass
  rw [if_pos rfl] at happend
  obtain ⟨_, _, hskip, happend⟩ := bind_eq_ok.mp happend
  obtain ⟨rfl, rfl⟩ := pure_eq_ok.mp hskip
  obtain ⟨networkData, _, hform, happend⟩ := bind_eq_ok.mp happend
  obtain ⟨hdata, rfl⟩ := ofOutcome_eq_ok hform
  obtain ⟨_, _, hmalloc, hwrite⟩ := bind_eq_ok.mp happend
  cases hmalloc
  rw [hlawful.index_eq _ _ _ hfilled] at hwrite
  have hroom : networkData ≠ [] ∧ 4 + 5 + networkData.length ≤
      BoatStoreFile.network.room .ram := by
    obtain ⟨_, _, _, hdataWrite⟩ := bind_eq_ok.mp hwrite
    obtain ⟨_, _, _, hdataWrite⟩ := bind_eq_ok.mp hdataWrite
    obtain ⟨_, _, hdataWrite, _⟩ := bind_eq_ok.mp hdataWrite
    exact store_ram_fits hdataWrite
  have hspared := writeNetworkIn_spared d kind.protocol 0
    (by decide : BoatStoreType.ram ≠ .unknown) hroom.1 hroom.2 0
  rw [hspared.run] at hwrite
  cases hwrite
  exact ⟨rfl, networkData, except_bind_eq_ok.mpr ⟨_, hchecked,
    except_bind_eq_ok.mpr ⟨_, hfilled, hdata⟩⟩, hroom.1, hroom.2, rfl⟩

/-- A network that is written to RAM is the only one there. -/
theorem holdsNetworks_ram (d : Device) (network : NetworkRecord)
    (hroom : 4 + 5 + (LengthValue.encode network.body).length ≤
      BoatStoreFile.network.room .ram) :
    (d.writeNetworkIn .ram 4 0 network.protocol network.index
      (LengthValue.encode network.body)).HoldsNetworks .ram [network] := by
  have hdata := network.length_data
  exact holdsNetworks_writeNetworkIn (d := d) network
    (fun hne => absurd rfl hne) (by
      change 4 + 0 + _ ≤ _
      omega)

/-- The body of a record lies behind its protocol and its index. -/
theorem holds_networkBody {network : NetworkRecord}
    {front back : List NetworkRecord}
    (hholds : d.Holds .network storeType offset
      (networkBytes (front ++ network :: back))) :
    d.Holds .network storeType (offset + (networkBytes front).length + 5)
      (LengthValue.encode network.body) := by
  rw [networkBytes_append, networkBytes_cons, NetworkRecord.record,
    List.append_assoc, List.append_assoc] at hholds
  obtain ⟨_, hrecord⟩ := holds_append.mp hholds
  obtain ⟨_, hindex⟩ := holds_append.mp hrecord
  obtain ⟨_, hdata⟩ := holds_append.mp hindex
  exact (holds_append.mp hdata).1

/-- A network that was created is a record behind others that do not have its
index. -/
structure NetworkLast (kind : NetworkKind) (networkConfig : kind.Config)
    (storeType : BoatStoreType) (index : UInt8) (others : List NetworkRecord)
    (network : NetworkRecord) (d' : Device) : Prop where
  known : storeType ≠ .unknown
  is : network.Is kind.protocol index
  form : kind.storedForm networkConfig index =
    .ok (LengthValue.encode network.body)
  fresh : index ∉ others.map (·.index)
  few : others.length ≤ 5
  kept : storeType = if index = 0 then .ram else .flash
  small : index.toNat ≤ boatMaxNetworkNum
  held : d'.HoldsNetworks storeType (others ++ [network])

section Last

variable {others : List NetworkRecord} {network : NetworkRecord}
  (hlast : NetworkLast kind networkConfig storeType index others network d')

include hlast

/-- A fetch by the index comes to the network that was created. -/
theorem NetworkLast.getNetworkByIndex_eq :
    getNetworkByIndex kind index ⟨d', none⟩ =
      kind.getNetworkFromNvram (4 + (networkBytes others).length + 5) storeType
        ⟨d', none⟩ := by
  have hfew := hlast.few
  refine getNetworkByIndex_run hlast.known hlast.is ?_ hlast.held ?_ hlast.kept
    hlast.small
  · intro other hother his
    refine hlast.fresh ?_
    rw [← his.1]
    exact List.mem_map_of_mem hother
  · rw [List.length_append, List.length_singleton]
    omega

theorem NetworkLast.holds :
    d'.Holds .network storeType (4 + (networkBytes others).length + 5)
      (LengthValue.encode network.body) :=
  holds_networkBody (hlast.held.networkBody (by simp))

end Last

/-- A packed message is read where it stands. -/
theorem packedNetworkFromNvram_run {Message Data : Type}
    {unpackMessage : List UInt8 → Option Message}
    {fromProto : Message → Outcome Data} {body : List UInt8} {message : Message}
    (hknown : storeType ≠ .unknown)
    (hholds : d.Holds .network storeType offset (LengthValue.encode body))
    (htwo : 2 ≤ body.length) (hlen : body.length < 0x10000)
    (hunpack : unpackMessage body = some message) :
    packedNetworkFromNvram unpackMessage fromProto offset storeType ⟨d, none⟩ =
      withCode boatError (ofOutcome (fromProto message)) ⟨d, none⟩ := by
  have hroom := BoatStoreFile.network.room_lt storeType
  have hfits := hholds.2
  have hlength := LengthValue.length_encode body
  have hheader := (LengthValue.length_header body.length).1
  obtain ⟨_, hbody⟩ := holds_append.mp hholds
  rw [← utilityGetTLVLLFromLen_eq] at hbody hlength hheader
  rw [← List.append_nil (LengthValue.encode body)] at hholds
  have hlengthRead := readLength_runs hholds hknown
    (by rw [List.append_nil]; omega) hlen
  have hbodyRead := hbody.read hknown (by omega : 0 < body.length)
    (Nat.le_refl _)
  rw [List.take_length] at hbodyRead
  unfold packedNetworkFromNvram
  refine (run_bind_ok hlengthRead.spared.run).trans ?_
  rw [advance_of_lt (by omega)]
  have hmalloc : boatMalloc boatErrorCommonOutOfMemory ⟨d, none⟩ =
      .ok () ⟨d, none⟩ := rfl
  refine (run_bind_ok hmalloc).trans ?_
  refine (run_bind_ok hbodyRead.spared.run).trans ?_
  simp only [hunpack]

/-- A message of some bytes that a length can count is stored behind it. -/
theorem packedNetworkData_ok {packed : List UInt8} (htwo : 2 ≤ packed.length)
    (hlen : packed.length < 0x10000) :
    packedNetworkData packed = .ok (LengthValue.encode packed) := by
  have hhead := utilityGetTLVLLFromLen_le packed.length
  have hne : packed ≠ [] := List.ne_nil_of_length_pos (by omega)
  unfold packedNetworkData
  simp only [buint32_of_lt (show packed.length < 2 ^ 32 by omega)]
  rw [if_neg (by omega), buint32_of_lt (by omega), if_neg (Nat.lt_irrefl _),
    addLWithOffset_eq_encode hne hlen]

/-- Network data was filled in when a create call succeeds. -/
theorem networkCreate_filled {s t : Fused Device}
    (hcreate : networkCreate kind networkConfig storeType s = .ok index t) :
    ∃ data, kind.networkData networkConfig index = .ok data := by
  obtain ⟨_, _, _, hrun⟩ := bind_eq_ok.mp hcreate
  obtain ⟨_, _, _, hrun⟩ := bind_eq_ok.mp hrun
  obtain ⟨data, _, hfill, hrun⟩ := bind_eq_ok.mp hrun
  obtain ⟨_, _, _, hlast⟩ := bind_eq_ok.mp hrun
  obtain ⟨rfl, _⟩ := pure_eq_ok.mp hlast
  exact ⟨data, (ofOutcome_eq_ok hfill).1⟩

theorem withCode_eq_ok {α : Type} {code : BoatResult} {outcome : Outcome α}
    {v : α} {s : Fused Device} :
    withCode code (ofOutcome outcome) s = .ok v s ↔ outcome = .ok v := by
  cases outcome with
  | ok w =>
      change EStateM.Result.ok w s = .ok v s ↔ _
      simp
  | error failure =>
      cases failure with
      | code result =>
          change EStateM.Result.error _ s = .ok v s ↔ _
          simp
      | undefined =>
          change EStateM.Result.error _ s = .ok v s ↔ _
          simp

section Create

variable {Message : Type} {pack : Message → List UInt8}
  {unpackMessage : List UInt8 → Option Message}
  {toProto : kind.Data → Outcome Message}
  {fromProto : Message → Outcome kind.Data}
  (hpacks : kind.Packs pack unpackMessage toProto fromProto)

include hpacks

theorem NetworkKind.Packs.storedForm_eq {data : kind.Data} {message : Message}
    (hcheck : kind.checkConfig networkConfig = .ok ())
    (hfilled : kind.networkData networkConfig index = .ok data)
    (hmessage : toProto data = .ok message) (htwo : 2 ≤ (pack message).length)
    (hlen : (pack message).length < 0x10000) :
    kind.storedForm networkConfig index =
      .ok (LengthValue.encode (pack message)) := by
  rw [storedForm_of_ok hcheck, hfilled, except_ok_bind, hpacks.stores, hmessage]
  exact packedNetworkData_ok htwo hlen

/-- A configuration fits whose message is not too long under any index. -/
theorem NetworkKind.Packs.fits
    (hcheck : kind.checkConfig networkConfig = .ok ())
    (hmessage : ∀ index, ∃ data message,
      kind.networkData networkConfig index = .ok data ∧
        toProto data = .ok message ∧ 2 ≤ (pack message).length ∧
        (pack message).length < 0x10000) :
    kind.Fits networkConfig := by
  intro index
  obtain ⟨data, message, hfilled, hmessage, htwo, hlen⟩ := hmessage index
  have hheader := (LengthValue.length_header (pack message).length).2
  rw [hpacks.storedForm_eq hcheck hfilled hmessage htwo hlen]
  change (LengthValue.encode (pack message)).length < _
  rw [LengthValue.length_encode]
  omega

variable (hfits : kind.Fits networkConfig)

include hfits

/-- The stored form of a configuration that fits is a message that can be
unpacked. -/
theorem NetworkKind.Packs.body
    (hform : kind.storedForm networkConfig index = .ok networkData) :
    ∃ data message, kind.networkData networkConfig index = .ok data ∧
      toProto data = .ok message ∧ 2 ≤ (pack message).length ∧
      (pack message).length < 0x10000 ∧
      networkData = LengthValue.encode (pack message) ∧
      unpackMessage (pack message) = some message := by
  have hshort := hfits index
  rw [hform] at hshort
  obtain ⟨_, data, hfilled, hdata⟩ := storedForm_ok hform
  rw [hpacks.stores] at hdata
  obtain ⟨message, hmessage, hstored⟩ := except_bind_eq_ok.mp hdata
  have htwo : 2 ≤ (pack message).length := by
    rcases hpacks.sized message with hnil | htwo
    · rw [hnil] at hstored
      cases hstored
    · exact htwo
  obtain rfl := packedNetworkData_eq hstored
  obtain ⟨hlen, hencode⟩ := addLWithOffset_short htwo hshort
  exact ⟨data, message, hfilled, hmessage, htwo, hlen, hencode,
    hpacks.unpacks message hlen⟩

/-- A create call that succeeds leaves the network behind the others. -/
theorem NetworkKind.Packs.created (hreach : NetworksReachable unpack d)
    (hcreate : networkCreate kind networkConfig storeType ⟨d, none⟩ =
      .ok index ⟨d', none⟩) :
    ∃ others network,
      NetworkLast kind networkConfig storeType index others network d' := by
  cases storeType with
  | unknown => exact absurd hcreate networkCreate_unknown
  | flash =>
      obtain ⟨networks, hheld, htidy⟩ := hreach.tidy
      have hends := networkCreate_adds hheld htidy hpacks.lawful hfits
      cases hends.ok hcreate with
      | added network _ hfree hprotocol hform hregion =>
          obtain ⟨hindex, hfresh⟩ := firstFree_mem hfree
          obtain ⟨hne, hmax⟩ := mem_persistentIndices hindex
          exact ⟨networks, network, by decide, ⟨rfl, hprotocol⟩, hform, hfresh,
            htidy.few, by rw [if_neg hne], hmax, hregion⟩
  | ram =>
      obtain ⟨rfl, networkData, hform, _, hroom, rfl⟩ :=
        networkCreate_ram_stores hpacks.lawful hcreate
      obtain ⟨data, message, _, _, htwo, hlen, rfl, _⟩ :=
        hpacks.body hfits hform
      exact ⟨[], ⟨kind.protocol, 0, pack message, htwo, hlen⟩, by decide,
        ⟨rfl, rfl⟩, hform, List.not_mem_nil, Nat.zero_le 5, rfl, by decide,
        holdsNetworks_ram d ⟨kind.protocol, 0, pack message, htwo, hlen⟩ hroom⟩

/-- A fetch by the index of a network that was just created gives what is made
of its message. -/
theorem NetworkKind.Packs.fetch (hreach : NetworksReachable unpack d)
    (hcreate : networkCreate kind networkConfig storeType ⟨d, none⟩ =
      .ok index ⟨d', none⟩) :
    ∃ data message, kind.networkData networkConfig index = .ok data ∧
      toProto data = .ok message ∧ ∀ fetched,
        getNetworkByIndex kind index ⟨d', none⟩ = .ok fetched ⟨d', none⟩ ↔
          fromProto message = .ok fetched := by
  obtain ⟨others, network, hlast⟩ := hpacks.created hfits hreach hcreate
  obtain ⟨data, message, hfilled, hmessage, htwo, hlen, hbody, hunpack⟩ :=
    hpacks.body hfits hlast.form
  obtain ⟨_, hshort⟩ := network.sized
  have hsame := LengthValue.encode_inj hshort hlen hbody
  have hholds := hlast.holds
  rw [hsame] at hholds
  refine ⟨data, message, hfilled, hmessage, fun fetched => ?_⟩
  rw [hlast.getNetworkByIndex_eq, hpacks.reads,
    packedNetworkFromNvram_run hlast.known hholds htwo hlen hunpack]
  exact withCode_eq_ok

end Create

/-- The first network on a device without storage. -/
theorem networkCreate_blank (hlawful : kind.Lawful) {body : List UInt8}
    (hlen : body.length < 0x10000)
    (hform : kind.storedForm networkConfig 1 =
      .ok (LengthValue.encode body)) :
    networkCreate kind networkConfig .flash ⟨blankDevice, none⟩ =
      .ok 1 ⟨blankDevice.writeNetwork 4 0 kind.protocol 1
        (LengthValue.encode body), none⟩ := by
  have hheld : blankDevice.HoldsNetworks .flash [] :=
    Or.inl ⟨rfl, Or.inl (Nat.zero_le _)⟩
  have hheader := (LengthValue.length_header body.length).2
  have hlength := LengthValue.length_encode body
  have hstores := networkCreate_stores hheld hlawful (by decide) rfl hform
    (LengthValue.encode_ne_nil _) (by omega)
  exact hstores

end BoatFramework
