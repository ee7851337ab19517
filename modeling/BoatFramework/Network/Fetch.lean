/-
Fetching a network: a fetch that succeeds gives what is read from the body of
the one record that has the protocol and the index, wherever it lies.
-/
import BoatFramework.Network.Runs

namespace BoatFramework

open Fuse Exec

/-- A body from which every successful read gives this network data, on
whatever device and at whatever place it stands. -/
def NetworkKind.ReadAs (kind : NetworkKind) (body : List UInt8)
    (data : kind.Data) : Prop :=
  ∀ d offset, d.Holds .network .flash offset (LengthValue.encode body) →
    offset + (LengthValue.encode body).length <
      BoatStoreFile.network.room .flash →
      Yields (· = data) (kind.getNetworkFromNvram offset .flash) d

/-- A body that the network code of a kind stores. -/
def NetworkKind.Stored (kind : NetworkKind) (body : List UInt8) : Prop :=
  ∃ data, kind.getNetworkData data = .ok (LengthValue.encode body)

variable {unpack : NetworkUnpack} {d : Device} {kind : NetworkKind}
  {networks : List NetworkRecord} {offset len : Nat}
  {content value : List UInt8} {index : UInt8}

/-- A read of content and perhaps of what stands behind it. -/
theorem read_yields (hholds : d.Holds .network .flash offset content)
    (hpos : 0 < len)
    (hfits : offset + len ≤ BoatStoreFile.network.room .flash) :
    Yields (fun bytes => ∃ rest, bytes = (content ++ rest).take len)
      (boatReadSoftRotNvram .network offset len .flash) d := by
  have hknown : BoatStoreType.flash ≠ .unknown := by decide
  have hread := (read_runs (d := d) hknown hpos hfits).spared
  cases hlook : d.look .network offset len .flash with
  | error e =>
      rw [hlook] at hread
      exact hread.yields_error
  | ok bytes =>
      rw [hlook] at hread
      refine hread.yields.mono ?_
      rintro _ rfl
      have hbytes := read_of_look (by decide) hlook
      obtain ⟨⟨front, back, hfile, hfront⟩, _⟩ := hholds
      unfold ByteFile.read at hbytes
      split at hbytes
      next =>
        refine ⟨back, ?_⟩
        rw [← Option.some.inj hbytes, hfile, ← hfront, List.drop_left]
      next => cases hbytes

theorem readLength_yields
    (hholds : d.Holds .network .flash offset (LengthValue.encode value))
    (hlen : value.length < 0x10000)
    (hfits : offset + 3 ≤ BoatStoreFile.network.room .flash) :
    Yields (· = value.length) (readLength .network offset .flash) d := by
  refine (read_yields hholds (by decide) hfits).bind ?_
  rintro _ ⟨rest, rfl⟩
  exact Yields.pure (lengthOf_encode hlen rest)

theorem readValue_yields (hholds : d.Holds .network .flash offset value)
    (hne : value ≠ []) :
    Yields (· = value)
      (boatReadSoftRotNvram .network offset value.length .flash) d := by
  have hread := hholds.read (by decide) (List.length_pos_of_ne_nil hne)
    (Nat.le_refl _)
  rw [List.take_length] at hread
  exact hread.spared.yields

theorem ofOutcome_yields {α : Type} (outcome : Outcome α) :
    Yields (fun v => outcome = .ok v) (ofOutcome outcome) d := by
  cases outcome with
  | ok v => exact Yields.pure rfl
  | error failure => exact Yields.throw

theorem withCode_yields {α : Type} {P : α → Prop} {c : Nvram α}
    {code : BoatResult} (hyields : Yields P c d) :
    Yields P (withCode code c) d := by
  intro v t hrun
  obtain ⟨r, mid, hcall, hrun⟩ := bind_eq_ok.mp hrun
  cases hc : c ⟨d, none⟩ with
  | ok w s =>
      rw [attemptCall_ok hc] at hcall
      cases hcall
      cases hrun
      exact hyields _ _ hc
  | error failure s =>
      cases failure with
      | code result =>
          rw [attemptCall_error hc] at hcall
          cases hcall
          cases hrun
      | undefined =>
          have hundefined : attemptCall c ⟨d, none⟩ = .error .undefined s := by
            rw [attemptCall, attempt, hc]
            rfl
          rw [hundefined] at hcall
          cases hcall

/-- The value behind a length, and the offset behind it. -/
theorem readParam_yields {frame : NetworkFrame} {given : Option Nat}
    {size : Nat}
    (hholds : d.Holds .network .flash offset (LengthValue.encode value))
    (hne : value ≠ []) (hlen : value.length < 0x10000)
    (hfits : offset + 3 ≤ BoatStoreFile.network.room .flash) :
    Yields (fun param => param = (value,
        offset + (LengthValue.encode value).length) ∧ value.length ≤ size)
      (readParam frame .flash given size offset) d := by
  have hroom := BoatStoreFile.network.room_lt .flash
  have hend := hholds.2
  have hlength := LengthValue.length_encode value
  rw [← utilityGetTLVLLFromLen_eq] at hlength
  obtain ⟨_, hvalue⟩ := holds_append.mp hholds
  rw [← utilityGetTLVLLFromLen_eq] at hvalue
  have hadvance : advance offset (utilityGetTLVLLFromLen value.length) =
      offset + utilityGetTLVLLFromLen value.length :=
    advance_of_lt (by omega)
  unfold readParam
  refine (readLength_yields hholds hlen hfits).bind ?_
  rintro _ rfl
  refine Yields.pass fun _ => Yields.pass fun _ => ?_
  rw [hadvance]
  refine (readValue_yields hvalue hne).bind ?_
  rintro _ rfl
  refine Yields.pass fun hsize => Yields.pure ⟨?_, Nat.not_lt.mp hsize⟩
  rw [hlength, advance_of_lt (by omega), Nat.add_assoc]

section Ethereum

variable {networkData : BoatEthNetworkData} {nodeUrl : CString}

/-- The values of a network as they are read back. -/
def ethReadBack (networkData : BoatEthNetworkData) (nodeUrl : CString) :
    BoatEthNetworkData :=
  { networkData with
    nodeUrlStr := ⟨(nodeUrl.bytes ++ [0] ++ List.replicate 127 0).take 127,
      by simp⟩ }

theorem ethBody_eq (hlen : nodeUrl.bytes.length < 127) :
    ethBody networkData nodeUrl =
      LengthValue.encode [networkData.networkIndex] ++
        (LengthValue.encode (enumBytes networkData.chainId) ++
          (LengthValue.encode
              [if networkData.eip155Compatibility then 1 else 0] ++
            LengthValue.encode (nodeUrl.bytes ++ [0]))) := by
  have hurl : (nodeUrl.bytes ++ [0]).length < 0x10000 := by
    rw [List.length_append, List.length_singleton]
    omega
  have hchain : enumBytes networkData.chainId ≠ [] := List.cons_ne_nil _ _
  rw [ethBody, addLWithOffset_eq_encode (by simp) (by simp),
    addLWithOffset_eq_encode hchain (by simp [length_enumBytes]),
    addLWithOffset_eq_encode (by simp) (by simp),
    addLWithOffset_eq_encode (by simp) hurl]

theorem boatEthGetNetworkFromNvram_yields (hlen : nodeUrl.bytes.length < 127)
    (hholds : d.Holds .network .flash offset
      (LengthValue.encode (ethBody networkData nodeUrl)))
    (hfits : offset + (LengthValue.encode
      (ethBody networkData nodeUrl)).length <
        BoatStoreFile.network.room .flash) :
    Yields (· = ethReadBack networkData nodeUrl)
      (boatEthGetNetworkFromNvram offset .flash) d := by
  have hroom := BoatStoreFile.network.room_lt .flash
  have hbody := length_ethBody networkData nodeUrl
  have hhead := utilityGetTLVLLFromLen_le (nodeUrl.bytes.length + 1)
  have hlength := LengthValue.length_encode (ethBody networkData nodeUrl)
  have hheader := LengthValue.length_header
    (ethBody networkData nodeUrl).length
  rw [← utilityGetTLVLLFromLen_eq] at hlength hheader
  obtain ⟨_, hvalues⟩ := holds_append.mp hholds
  have hadvance : advance offset (utilityGetTLVLLFromLen
      (ethBody networkData nodeUrl).length) = offset +
        utilityGetTLVLLFromLen (ethBody networkData nodeUrl).length :=
    advance_of_lt (by omega)
  unfold boatEthGetNetworkFromNvram
  refine (readLength_yields hholds (by omega) (by omega)).bind ?_
  rintro _ rfl
  rw [hadvance]
  have hbound : offset + utilityGetTLVLLFromLen
      (ethBody networkData nodeUrl).length + 11 <
        BoatStoreFile.network.room .flash := by
    have hone : 1 ≤ utilityGetTLVLLFromLen (nodeUrl.bytes.length + 1) := by
      rw [utilityGetTLVLLFromLen_eq]
      exact (LengthValue.length_header _).1
    omega
  rw [← utilityGetTLVLLFromLen_eq] at hvalues
  generalize offset + utilityGetTLVLLFromLen
    (ethBody networkData nodeUrl).length = start at hvalues hbound ⊢
  rw [ethBody_eq hlen] at hvalues
  obtain ⟨hindex, hvalues⟩ := holds_append.mp hvalues
  obtain ⟨hchain, hvalues⟩ := holds_append.mp hvalues
  obtain ⟨heip, hurl⟩ := holds_append.mp hvalues
  have htwo : (LengthValue.encode [networkData.networkIndex]).length = 2 := rfl
  have hfive : (LengthValue.encode (enumBytes networkData.chainId)).length =
      5 := rfl
  have hflag : (LengthValue.encode
      [if networkData.eip155Compatibility then 1 else 0]).length = 2 := rfl
  refine (readParam_yields hindex (by simp) (by simp) (by omega)).bind ?_
  rintro _ ⟨rfl, _⟩
  refine (readParam_yields hchain (List.cons_ne_nil _ _)
    (by rw [length_enumBytes]; decide) (by omega)).bind ?_
  rintro _ ⟨rfl, _⟩
  refine (readParam_yields heip (by simp) (by simp) (by omega)).bind ?_
  rintro _ ⟨rfl, _⟩
  refine (readParam_yields hurl (by simp) (by simp; omega) (by omega)).bind ?_
  rintro _ ⟨rfl, _⟩
  have hbool : decide (([if networkData.eip155Compatibility then
      (1 : UInt8) else 0] : List UInt8).getD 0 0 ≠ 0) =
        networkData.eip155Compatibility := by
    cases networkData.eip155Compatibility <;> rfl
  refine Yields.pure ?_
  rw [enumOfBytes_enumBytes, hbool]
  rfl

end Ethereum

/-- The values whose stored form a body is. -/
theorem ethNetworkKind_stored {body : List UInt8} (protocol : BoatProtocolType)
    (hstored : (ethNetworkKind protocol).Stored body)
    (hlen : body.length < 0x10000) :
    ∃ networkData nodeUrl, nodeUrl.bytes.length < 127 ∧
      body = ethBody networkData nodeUrl := by
  obtain ⟨networkData, hstored⟩ := hstored
  obtain ⟨nodeUrl, htext, _⟩ := except_bind_eq_ok.mp hstored
  have hurl := (cString_eq_ok htext).1
  rw [networkData.nodeUrlStr.2] at hurl
  have hform := (boatEthGetNetworkData_ok htext).symm.trans hstored
  have hlength := length_ethBody networkData nodeUrl
  have hhead := utilityGetTLVLLFromLen_le (nodeUrl.bytes.length + 1)
  refine ⟨networkData, nodeUrl, hurl, ?_⟩
  refine LengthValue.encode_inj hlen (by omega) ?_
  rw [← Except.ok.inj hform]
  exact addLWithOffset_eq_encode (List.ne_nil_of_length_pos (by omega))
    (by omega)

theorem ethNetworkKind_reads {body : List UInt8} (protocol : BoatProtocolType)
    (hstored : (ethNetworkKind protocol).Stored body)
    (hlen : body.length < 0x10000) :
    ∃ data, (ethNetworkKind protocol).ReadAs body data := by
  obtain ⟨networkData, nodeUrl, hurl, rfl⟩ :=
    ethNetworkKind_stored protocol hstored hlen
  exact ⟨_, fun d offset hholds hfits =>
    boatEthGetNetworkFromNvram_yields hurl hholds hfits⟩

section Packed

variable {Message Data : Type} {unpackMessage : List UInt8 → Option Message}
  {getNetworkFromProto : Message → Outcome Data} {body : List UInt8}

/-- What is read of a packed message is what its body unpacks to. -/
theorem packedNetworkFromNvram_yields
    (hholds : d.Holds .network .flash offset (LengthValue.encode body))
    (hne : body ≠ []) (hlen : body.length < 0x10000)
    (hfits : offset + (LengthValue.encode body).length <
      BoatStoreFile.network.room .flash) :
    Yields (fun data => ∃ message, unpackMessage body = some message ∧
        getNetworkFromProto message = .ok data)
      (packedNetworkFromNvram unpackMessage getNetworkFromProto offset .flash)
      d := by
  have hroom := BoatStoreFile.network.room_lt .flash
  have hpos := List.length_pos_of_ne_nil hne
  have hlength := LengthValue.length_encode body
  have hheader := (LengthValue.length_header body.length).1
  obtain ⟨_, hbody⟩ := holds_append.mp hholds
  rw [← utilityGetTLVLLFromLen_eq] at hbody hlength hheader
  unfold packedNetworkFromNvram
  refine (readLength_yields hholds hlen (by omega)).bind ?_
  rintro _ rfl
  refine Yields.bind (P := fun _ => True) ?_ fun _ _ => ?_
  · intro v t hrun
    cases hrun
    exact ⟨rfl, trivial⟩
  rw [advance_of_lt (by omega)]
  refine (readValue_yields hbody hne).bind ?_
  intro networkcontent hcontent
  rw [hcontent]
  cases hunpack : unpackMessage body with
  | none => exact Yields.throw
  | some message =>
      refine (withCode_yields (ofOutcome_yields _)).mono ?_
      exact fun data hdata => ⟨message, rfl, hdata⟩

/-- What one device gives for a packed message every device gives. -/
theorem packed_readAs {getNetworkFromProto : Message → Outcome kind.Data}
    (hread : kind.getNetworkFromNvram =
      packedNetworkFromNvram unpackMessage getNetworkFromProto)
    (hholds : d.Holds .network .flash offset (LengthValue.encode body))
    (hne : body ≠ []) (hlen : body.length < 0x10000)
    (hfits : offset + (LengthValue.encode body).length <
      BoatStoreFile.network.room .flash) :
    Yields (kind.ReadAs body) (kind.getNetworkFromNvram offset .flash) d := by
  rw [hread]
  refine (packedNetworkFromNvram_yields hholds hne hlen hfits).mono ?_
  rintro data ⟨message, hmessage, hdata⟩ d' offset' hholds' hfits'
  rw [hread]
  refine (packedNetworkFromNvram_yields hholds' hne hlen hfits').mono ?_
  rintro data' ⟨message', hmessage', hdata'⟩
  rw [hmessage] at hmessage'
  obtain rfl := Option.some.inj hmessage'
  exact Except.ok.inj (hdata'.symm.trans hdata)

end Packed

/-- A network that was stored is read from its body alone. -/
theorem boatNetworks_readAs {network : NetworkRecord}
    (hkind : kind ∈ boatNetworks unpack) (hstored : kind.Stored network.body)
    (hholds : d.Holds .network .flash offset (LengthValue.encode network.body))
    (hfits : offset + (LengthValue.encode network.body).length <
      BoatStoreFile.network.room .flash) :
    Yields (kind.ReadAs network.body) (kind.getNetworkFromNvram offset .flash)
      d := by
  obtain ⟨htwo, hlen⟩ := network.sized
  have hne : network.body ≠ [] := List.ne_nil_of_length_pos (by omega)
  have heth (protocol : BoatProtocolType)
      (hstored : (ethNetworkKind protocol).Stored network.body) :
      Yields ((ethNetworkKind protocol).ReadAs network.body)
        ((ethNetworkKind protocol).getNetworkFromNvram offset .flash) d := by
    obtain ⟨data, hread⟩ := ethNetworkKind_reads protocol hstored hlen
    refine (hread d offset hholds hfits).mono ?_
    rintro _ rfl
    exact hread
  simp only [boatNetworks, List.mem_cons, List.not_mem_nil, or_false] at hkind
  rcases hkind with rfl | rfl | rfl | rfl | rfl | rfl | rfl | rfl | rfl | rfl
  · exact heth .ethereum hstored
  · exact packed_readAs rfl hholds hne hlen hfits
  · exact heth .platon hstored
  · exact heth .platone hstored
  · exact heth .fiscobcos hstored
  · exact packed_readAs rfl hholds hne hlen hfits
  · exact packed_readAs rfl hholds hne hlen hfits
  · exact heth .venachain hstored
  · exact heth .quorum hstored
  · exact packed_readAs rfl hholds hne hlen hfits

/-- The scan of a fetch reads a network of the protocol and the index only. -/
theorem readNetworkAt_yields (hkind : kind ∈ boatNetworks unpack)
    (hstored : ∀ network ∈ networks, network.protocol = kind.protocol →
      kind.Stored network.body)
    (hholds : networks ≠ [] →
      d.Holds .network .flash offset (networkBytes networks))
    (hfits : offset + (networkBytes networks).length <
      BoatStoreFile.network.room .flash) :
    Yields (fun data => ∃ network ∈ networks,
        network.Is kind.protocol index ∧ kind.ReadAs network.body data)
      (readNetworkAt kind index .flash networks.length offset) d := by
  induction networks generalizing offset with
  | nil => exact Yields.throw
  | cons head tail ih =>
      have hreads := networkReads (hholds (by simp)) (by decide)
      have hroom := BoatStoreFile.network.room_lt .flash
      have hdata := head.length_data
      rw [length_networkBytes_cons] at hfits
      refine hreads.protocol.spared.yields.bind ?_
      intro protocolType hprotocol
      refine hreads.index.spared.yields.bind ?_
      intro networkIndex hindex
      by_cases hhere : networkIndex = index ∧
          enumOfBytes protocolType = kind.protocol.value
      · rw [if_pos hhere, advance_of_lt (by omega)]
        have hhead : head.Is kind.protocol index := by
          rw [hprotocol, hindex] at hhere
          exact NetworkRecord.is_iff.mp hhere
        have hvalue := hholds (by simp)
        rw [networkBytes_cons, NetworkRecord.record, List.append_assoc,
          List.append_assoc] at hvalue
        have hbody := (holds_append.mp (holds_append.mp
          (holds_append.mp hvalue).2).2).1
        refine (boatNetworks_readAs hkind
          (hstored head List.mem_cons_self hhead.2) hbody ?_).mono ?_
        · change offset + 4 + 1 + _ < _
          omega
        · exact fun data hread => ⟨head, List.mem_cons_self, hhead, hread⟩
      · rw [if_neg hhere]
        refine hreads.length.spared.yields.bind ?_
        intro networkLength hlength
        rw [hlength, hreads.next]
        refine (ih (fun network hmem => hstored network
          (List.mem_cons_of_mem head hmem)) (fun _ => hreads.tail)
            (by omega)).mono ?_
        rintro data ⟨network, hmem, his, hread⟩
        exact ⟨network, List.mem_cons_of_mem head hmem, his, hread⟩

/-- A fetch of a persistent network. -/
theorem getNetworkByIndex_yields (hkind : kind ∈ boatNetworks unpack)
    (hheld : d.HoldsNetworks .flash networks) (hfew : networks.length ≤ 5)
    (hstored : ∀ network ∈ networks, network.protocol = kind.protocol →
      kind.Stored network.body) (hindex : index ≠ 0) :
    Yields (fun data => ∃ network ∈ networks,
        network.Is kind.protocol index ∧ kind.ReadAs network.body data)
      (getNetworkByIndex kind index) d := by
  have hbytes := length_networkBytes_le networks
  have hroom : BoatStoreFile.network.room .flash = 2 ^ 32 - 1 - 1472 := rfl
  unfold getNetworkByIndex
  rw [if_neg hindex]
  refine Yields.pass fun _ => ?_
  by_cases hnone : networks = []
  · obtain ⟨code, hnum⟩ := readNetworkNum_none hheld hnone
    exact hnum.bind_error.spared.yields_error
  · have hnum := readNetworkNum_runs hheld hnone (by omega)
    refine hnum.spared.yields.bind ?_
    rintro _ rfl
    exact readNetworkAt_yields hkind hstored
      (fun hne => hheld.networkBody hne) (by omega)

section Found

variable {storeType : BoatStoreType} {network : NetworkRecord}
  {front back : List NetworkRecord} (hknown : storeType ≠ .unknown)
  (hhere : network.Is kind.protocol index)
  (habsent : ∀ other ∈ front, ¬other.Is kind.protocol index)

include hknown hhere habsent

/-- The scan of a fetch comes to the first network of the protocol and the
index. -/
theorem readNetworkAt_run
    (hholds : d.Holds .network storeType offset
      (networkBytes (front ++ network :: back))) :
    readNetworkAt kind index storeType (front ++ network :: back).length offset
        ⟨d, none⟩ =
      kind.getNetworkFromNvram (offset + (networkBytes front).length + 5)
        storeType ⟨d, none⟩ := by
  induction front generalizing offset with
  | nil =>
      have hroom := BoatStoreFile.network.room_lt storeType
      have hreads := networkReads hholds hknown
      have hfits := hholds.2
      have height := network.length_record_bounds.1
      rw [List.nil_append, length_networkBytes_cons] at hfits
      have hmove : advance offset 5 = offset + 5 := advance_of_lt (by omega)
      refine (run_bind_ok hreads.protocol.spared.run).trans ?_
      refine (run_bind_ok hreads.index.spared.run).trans ?_
      rw [if_pos (NetworkRecord.is_iff.mpr hhere), hmove]
      rfl
  | cons head tail ih =>
      have hreads := networkReads hholds hknown
      have hhead := habsent head List.mem_cons_self
      have htail := ih (fun other hother => habsent other
        (List.mem_cons_of_mem head hother)) hreads.tail
      refine (run_bind_ok hreads.protocol.spared.run).trans ?_
      refine (run_bind_ok hreads.index.spared.run).trans ?_
      rw [if_neg (mt NetworkRecord.is_iff.mp hhead)]
      refine (run_bind_ok hreads.length.spared.run).trans ?_
      rw [hreads.next, length_networkBytes_cons, ← Nat.add_assoc]
      exact htail

/-- A fetch of a network that is there reads its network data. -/
theorem getNetworkByIndex_run
    (hheld : d.HoldsNetworks storeType (front ++ network :: back))
    (hcount : (front ++ network :: back).length < 0x100)
    (hstore : storeType = if index = 0 then .ram else .flash)
    (hmax : index.toNat ≤ boatMaxNetworkNum) :
    getNetworkByIndex kind index ⟨d, none⟩ =
      kind.getNetworkFromNvram (4 + (networkBytes front).length + 5) storeType
        ⟨d, none⟩ := by
  have hne : front ++ network :: back ≠ [] := by simp
  have hnum := readNetworkNum_held hheld hknown hne hcount
  unfold getNetworkByIndex
  have hpass : (failIf (boatMaxNetworkNum < index.toNat)
      (Failure.code boatErrorNetworkIndexExceed) : Nvram Unit) ⟨d, none⟩ =
        .ok () ⟨d, none⟩ := by
    rw [failIf, if_neg (Nat.not_lt.mpr hmax)]
    rfl
  refine (run_bind_ok hpass).trans ?_
  rw [← hstore]
  refine (run_bind_ok hnum.spared.run).trans ?_
  exact readNetworkAt_run hknown hhere habsent (hheld.networkBody hne)

end Found

end BoatFramework
