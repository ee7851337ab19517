/-
What a list call reads of the networks of Ethereum and of CITA that were stored:
each as it was stored, but a last network of Ethereum without a URL only where
the file goes on behind it.
-/
import BoatFramework.Network.Lists
import BoatFramework.Network.PackedRoundTrip

namespace BoatFramework

open Fuse Exec

variable {unpack : NetworkUnpack} {d : Device} {storeType : BoatStoreType}
  {offset : Nat} {network : NetworkRecord} {records : List NetworkRecord}
  {body rest : List UInt8} {nodeUrl : CString}

/-- The network data of a first record. -/
theorem holds_firstData
    (hholds : d.Holds .network storeType offset
      (networkBytes (network :: records))) :
    d.Holds .network storeType (offset + 5)
      (LengthValue.encode network.body ++ networkBytes records) := by
  rw [networkBytes_cons, NetworkRecord.record, List.append_assoc,
    List.append_assoc] at hholds
  obtain ⟨_, hvalue⟩ := holds_append.mp hholds
  exact (holds_append.mp hvalue).2

section Ethereum

variable {networkData : BoatEthNetworkData}

/-- The body of a network without a URL has eleven bytes. -/
theorem length_ethBody_eq_iff (networkData : BoatEthNetworkData)
    (nodeUrl : CString) :
    (ethBody networkData nodeUrl).length = 11 ↔ nodeUrl.bytes = [] := by
  have hbody := length_ethBody networkData nodeUrl
  have hhead := LengthValue.length_header (nodeUrl.bytes.length + 1)
  rw [utilityGetTLVLLFromLen_eq] at hbody
  constructor
  · intro heleven
    exact List.eq_nil_of_length_eq_zero (by omega)
  · intro hnil
    rw [hbody, hnil]
    rfl

/-- What was read has the stored form that it was read from. -/
theorem ethReadBack_entry (hshort : nodeUrl.bytes.length < 127)
    (hbody : network.body = ethBody networkData nodeUrl) :
    boatEthNetwork.Entry (ethReadBack networkData nodeUrl) network := by
  have hlength := length_ethBody networkData nodeUrl
  have hhead := utilityGetTLVLLFromLen_le (nodeUrl.bytes.length + 1)
  have hencode : addLWithOffset (ethBody networkData nodeUrl) =
      LengthValue.encode (ethBody networkData nodeUrl) :=
    addLWithOffset_eq_encode (List.ne_nil_of_length_pos (by omega)) (by omega)
  change boatEthGetNetworkData _ = .ok (LengthValue.encode network.body)
  rw [hbody, ← hencode]
  exact boatEthGetNetworkData_ok (cString_ethReadBack networkData hshort)

theorem boatEthNetwork_fitsRam : boatEthNetwork.FitsRam := by
  intro data networkData hstored
  obtain ⟨nodeUrl, htext, _⟩ := except_bind_eq_ok.mp hstored
  have hshort := (cString_eq_ok htext).1
  rw [data.nodeUrlStr.2] at hshort
  have hform := (boatEthGetNetworkData_ok htext).symm.trans hstored
  have hlength := length_ethBody data nodeUrl
  have hhead := utilityGetTLVLLFromLen_le (nodeUrl.bytes.length + 1)
  have hlen := length_ethForm data hshort
  have hencode : addLWithOffset (ethBody data nodeUrl) =
      LengthValue.encode (ethBody data nodeUrl) :=
    addLWithOffset_eq_encode (List.ne_nil_of_length_pos (by omega)) (by omega)
  rw [hencode] at hform
  obtain rfl := Except.ok.inj hform
  have hroom : BoatStoreFile.network.room .ram = 5120 := rfl
  omega

/-- A last network of Ethereum has a URL, or a byte behind it. -/
def LastReadable (d : Device) (storeType : BoatStoreType) (offset : Nat)
    (records : List NetworkRecord) : Prop :=
  ∀ front network, records = front ++ [network] →
    network.protocol = .ethereum → network.body.length ≠ 11 ∨
      BoatStoreFile.network.origin storeType + offset +
          (networkBytes records).length <
        (d.bytes .network storeType).length

theorem LastReadable.tail
    (hlast : LastReadable d storeType offset (network :: records)) :
    LastReadable d storeType (offset + network.record.length) records := by
  intro front last hsplit hprotocol
  rcases hlast (network :: front) last (by rw [hsplit]; rfl) hprotocol with
    hurl | hbehind
  · exact Or.inl hurl
  · rw [length_networkBytes_cons] at hbehind
    exact Or.inr (by omega)

/-- The reader of a first network, where it has a URL or a byte behind it. -/
theorem boatEthGetNetworkFromNvram_first (hknown : storeType ≠ .unknown)
    (hshort : nodeUrl.bytes.length < 127)
    (hbody : network.body = ethBody networkData nodeUrl)
    (hholds : d.Holds .network storeType offset
      (networkBytes (network :: records)))
    (hmore : records = [] → offset + (networkBytes [network]).length <
        BoatStoreFile.network.room storeType ∧
      (nodeUrl.bytes ≠ [] ∨ BoatStoreFile.network.origin storeType + offset +
          (networkBytes [network]).length <
        (d.bytes .network storeType).length)) :
    boatEthGetNetworkFromNvram (offset + 5) storeType ⟨d, none⟩ =
      .ok (ethReadBack networkData nodeUrl) ⟨d, none⟩ := by
  have hdata := network.length_data
  have hform := holds_firstData hholds
  have hhead := (LengthValue.length_header (nodeUrl.bytes ++ [0]).length).1
  have hlength := LengthValue.length_encode (nodeUrl.bytes ++ [0])
  rw [List.length_append, List.length_singleton] at hhead hlength
  rw [hbody] at hform hdata
  cases records with
  | cons head tail =>
      have height := head.length_record_bounds.1
      refine boatEthGetNetworkFromNvram_ok hshort hknown hform ?_
      rw [List.length_append, length_networkBytes_cons]
      omega
  | nil =>
      have hnil : networkBytes [] = [] := rfl
      obtain ⟨hroom, hmore⟩ := hmore rfl
      rw [length_networkBytes_cons, hnil, List.length_nil] at hroom
      rw [hnil, List.append_nil] at hform
      rcases hmore with hurl | hbehind
      · have hpos := List.length_pos_of_ne_nil hurl
        rw [← List.append_nil (LengthValue.encode _)] at hform
        refine boatEthGetNetworkFromNvram_ok hshort hknown hform ?_
        rw [List.append_nil]
        omega
      · rw [length_networkBytes_cons, hnil, List.length_nil] at hbehind
        obtain ⟨byte, hform⟩ := hform.exists_behind (by omega) (by omega)
        refine boatEthGetNetworkFromNvram_ok hshort hknown hform ?_
        rw [List.length_append, List.length_singleton]
        omega

/-- A last network of Ethereum has room for one more byte behind it. -/
def LastRoom (storeType : BoatStoreType) (offset : Nat)
    (records : List NetworkRecord) : Prop :=
  ∀ front network, records = front ++ [network] →
    network.protocol = .ethereum →
      offset + (networkBytes records).length <
        BoatStoreFile.network.room storeType

theorem LastRoom.tail (hroom : LastRoom storeType offset (network :: records)) :
    LastRoom storeType (offset + network.record.length) records := by
  intro front last hsplit hprotocol
  have hbehind := hroom (network :: front) last (by rw [hsplit]; rfl) hprotocol
  rw [length_networkBytes_cons] at hbehind
  omega

/-- All networks of Ethereum are read, a last one where it can be. -/
theorem ethNetworksRead (hknown : storeType ≠ .unknown)
    (hholds : records ≠ [] →
      d.Holds .network storeType offset (networkBytes records))
    (hroom : LastRoom storeType offset records)
    (hstored : ∀ network ∈ records, network.protocol = .ethereum →
      boatEthNetwork.Stored network.body)
    (hlast : LastReadable d storeType offset records) :
    ∃ networks, NetworksRead boatEthNetwork storeType d offset records
      networks := by
  induction records generalizing offset with
  | nil => exact ⟨[], .nil offset⟩
  | cons head tail ih =>
      have hhere := hholds (List.cons_ne_nil _ _)
      obtain ⟨networks, hrest⟩ := ih
        (fun _ => (networkReads hhere hknown).tail) hroom.tail
        (fun network hmem => hstored network (List.mem_cons_of_mem head hmem))
        hlast.tail
      by_cases hown : head.protocol = .ethereum
      · obtain ⟨networkData, nodeUrl, hshort, hbody⟩ := ethNetworkKind_stored
          .ethereum (hstored head List.mem_cons_self hown) head.sized.2
        have hread := boatEthGetNetworkFromNvram_first hknown hshort hbody hhere
          (by
            rintro rfl
            refine ⟨hroom [] head rfl hown, ?_⟩
            rcases hlast [] head rfl hown with hurl | hbehind
            · rw [hbody, ne_eq, length_ethBody_eq_iff] at hurl
              exact Or.inl hurl
            · exact Or.inr hbehind)
        exact ⟨_, .same hown hread (ethReadBack_entry hshort hbody) hrest⟩
      · exact ⟨networks, .foreign hown hrest⟩

/-- Where the last network in flash cannot be read there is no list. -/
theorem not_listsNetworks_of_last {persistent onetime front : List NetworkRecord}
    (hheld : d.ListHeld persistent onetime)
    (hstored : ∀ network ∈ persistent, network.protocol = .ethereum →
      boatEthNetwork.Stored network.body)
    (hsplit : persistent = front ++ [network])
    (hown : network.protocol = .ethereum) (hurl : network.body.length = 11)
    (hend : d.file.1.length ≤ 1472 + 4 + (networkBytes persistent).length) :
    ¬ListsNetworks boatEthNetwork d boatEthGetNetworkList := by
  have hfew := hheld.tidy.few
  subst hsplit
  have hholds := hheld.flash.networkBody (by simp)
  obtain ⟨networkData, nodeUrl, _, hbody⟩ := ethNetworkKind_stored
    .ethereum (hstored network (by simp) hown) network.sized.2
  have hnil : nodeUrl.bytes = [] := by
    rw [hbody, length_ethBody_eq_iff] at hurl
    exact hurl
  have hlength := network.length_data
  rw [LengthValue.length_encode, hurl] at hlength
  change 5 + (1 + 11) = network.record.length at hlength
  have hroom : BoatStoreFile.network.room .flash = 2 ^ 32 - 1 - 1472 := rfl
  have hbytes := length_networkBytes_le (front ++ [network])
  have hwhole := hholds
  rw [networkBytes_append] at hwhole
  obtain ⟨hfront, hlast⟩ := holds_append.mp hwhole
  have hsum : (networkBytes (front ++ [network])).length =
      (networkBytes front).length + network.record.length := by
    rw [networkBytes_append, List.length_append, length_networkBytes_cons]
    rfl
  have hform := holds_firstData hlast
  rw [hbody] at hform
  change d.Holds _ _ _ (LengthValue.encode _ ++ []) at hform
  rw [List.append_nil] at hform
  obtain ⟨code, hshort⟩ := boatEthGetNetworkFromNvram_short hnil hform (by
    change d.file.1.length < 1472 + (4 + (networkBytes front).length + 5) + 13
    omega) (by omega)
  obtain ⟨networks, hread⟩ := ethNetworksRead
    (by decide : BoatStoreType.flash ≠ .unknown) (fun _ => hfront)
    (fun _ _ _ _ => by omega)
    (fun other hmem => hstored other (List.mem_append_left _ hmem)) (by
      intro _ _ _ _
      have hinside := hlast.1.length_le
      rw [length_networkBytes_cons] at hinside
      change 1472 + (4 + (networkBytes front).length) + _ ≤
        d.file.1.length at hinside
      exact Or.inr (show 1472 + 4 + _ < d.file.1.length by omega))
  have hcount := hread.length_eq
  have hamong : (boatEthNetwork.among front).length ≤ front.length :=
    List.length_filter_le _ _
  rw [List.length_append, List.length_singleton] at hfew
  have hrun := hread.unread (by decide) hholds hown hshort
    (show 0 + networks.length < boatMaxNetworkNum + 1 by
      rw [boatMaxNetworkNum]
      omega)
  rintro ⟨_, _, hlist, _⟩
  rw [boatEthGetNetworkList, hheld.list_run, run_bind_error hrun] at hlist
  cases hlist

end Ethereum

section Cita

variable {unpackCita : List UInt8 → Option CitaNetworkData}
  {data : BoatCitaNetworkData}

/-- The message of network data with a URL. -/
def citaMessage (data : BoatCitaNetworkData) (nodeUrl : CString) :
    CitaNetworkData :=
  ⟨data.networkIndex.toUInt32, data.version, nodeUrl, data.chainIdBuf.1⟩

theorem length_citaMessage (hshort : nodeUrl.bytes.length < 127) :
    (citaMessage data nodeUrl).pack.length < 300 := by
  have hindex := Protobuf.length_uintField_le 1
    data.networkIndex.toUInt32.toNat
  have hversion := Protobuf.length_uintField_le 2 data.version.toNat
  have hurl := Protobuf.length_stringField_le 3 nodeUrl.bytes
  have hchain := Protobuf.length_lengthField_le 4 data.chainIdBuf.1
  rw [data.chainIdBuf.2] at hchain
  unfold CitaNetworkData.pack citaMessage
  simp only [List.length_append]
  omega

theorem citaMessage_sized (data : BoatCitaNetworkData) (nodeUrl : CString) :
    2 ≤ (citaMessage data nodeUrl).pack.length := by
  have hchain := Protobuf.length_lengthField 4 data.chainIdBuf.1
  unfold CitaNetworkData.pack citaMessage
  simp only [List.length_append]
  omega

/-- The stored form of network data with a URL. -/
theorem boatCitaGetNetworkData_ok (hshort : nodeUrl.bytes.length < 127)
    (htext : cString data.nodeUrlBuf.1 = .ok nodeUrl) :
    boatCitaGetNetworkData data =
      .ok (LengthValue.encode (citaMessage data nodeUrl).pack) := by
  have hlen : (citaMessage data nodeUrl).pack.length < 300 :=
    length_citaMessage hshort
  have htwo := citaMessage_sized data nodeUrl
  have hhead := utilityGetTLVLLFromLen_le (citaMessage data nodeUrl).pack.length
  refine except_bind_eq_ok.mpr ⟨nodeUrl, htext, ?_⟩
  change packedNetworkData (citaMessage data nodeUrl).pack = _
  unfold packedNetworkData
  simp only
  rw [buint32_of_lt (by omega), if_neg (by omega), buint32_of_lt (by omega),
    if_neg (by omega), addLWithOffset_eq_encode
      (List.ne_nil_of_length_pos (by omega)) (by omega)]

theorem boatCitaNetwork_stored
    (hstored : (boatCitaNetwork unpackCita).Stored body)
    (hlen : body.length < 0x10000) :
    ∃ (data : BoatCitaNetworkData) (nodeUrl : CString),
      nodeUrl.bytes.length < 127 ∧ body = (citaMessage data nodeUrl).pack := by
  obtain ⟨data, hstored⟩ := hstored
  obtain ⟨nodeUrl, htext, _⟩ := except_bind_eq_ok.mp hstored
  have hshort := (cString_eq_ok htext).1
  rw [data.nodeUrlBuf.2] at hshort
  have hpack : (citaMessage data nodeUrl).pack.length < 300 :=
    length_citaMessage hshort
  have hform := (boatCitaGetNetworkData_ok hshort htext).symm.trans hstored
  refine ⟨data, nodeUrl, hshort, LengthValue.encode_inj hlen (by omega) ?_⟩
  exact (Except.ok.inj hform).symm

theorem boatCitaNetwork_fitsRam : (boatCitaNetwork unpackCita).FitsRam := by
  intro data networkData hstored
  obtain ⟨nodeUrl, htext, _⟩ := except_bind_eq_ok.mp hstored
  have hshort := (cString_eq_ok htext).1
  rw [data.nodeUrlBuf.2] at hshort
  have hlen : (citaMessage data nodeUrl).pack.length < 300 :=
    length_citaMessage hshort
  have hhead := LengthValue.length_header
    (citaMessage data nodeUrl).pack.length
  have hroom : BoatStoreFile.network.room .ram = 5120 := rfl
  rw [← Except.ok.inj ((boatCitaGetNetworkData_ok hshort htext).symm.trans
    hstored), LengthValue.length_encode]
  omega

/-- Network data that is made of its own message. -/
theorem boatCitaGetNetworkFromProto_message
    (data : BoatCitaNetworkData) (hshort : nodeUrl.bytes.length < 127) :
    ∃ read : BoatCitaNetworkData,
      boatCitaGetNetworkFromProto (citaMessage data nodeUrl) = .ok read ∧
        cString read.nodeUrlBuf.1 = .ok nodeUrl ∧
        citaMessage read nodeUrl = citaMessage data nodeUrl := by
  obtain ⟨nodeUrlBuf, hfield, hblock⟩ := charField_ok hshort
  have hchain : (citaMessage data nodeUrl).chainIdStr.length = 32 :=
    data.chainIdBuf.2
  have hurl : ¬127 < (citaMessage data nodeUrl).nodeUrlStr.bytes.length :=
    Nat.not_lt.mpr (Nat.le_of_lt hshort)
  refine ⟨⟨data.networkIndex.toUInt32.toUInt8, data.version,
    ⟨(data.chainIdBuf.1 ++ List.replicate 32 0).take 32, by simp⟩, nodeUrlBuf⟩,
    ?_, ?_, ?_⟩
  · unfold boatCitaGetNetworkFromProto
    rw [if_neg hurl, if_neg (by omega)]
    exact except_bind_eq_ok.mpr ⟨nodeUrlBuf, hfield, rfl⟩
  · change cString nodeUrlBuf.1 = _
    rw [hblock, cString_append]
  · have htake : (data.chainIdBuf.1 ++ List.replicate 32 0).take 32 =
        data.chainIdBuf.1 := List.take_left' data.chainIdBuf.2
    have hindex : data.networkIndex.toUInt32.toUInt8 = data.networkIndex := by
      rw [UInt8.toUInt8_toUInt32]
    simp only [citaMessage, htake, hindex]

/-- The generated function gives back the message that was packed to a body. -/
def Unpacks (unpackCita : List UInt8 → Option CitaNetworkData)
    (body : List UInt8) : Prop :=
  ∀ message : CitaNetworkData, message.pack = body →
    unpackCita body = some message

/-- A first network of CITA is read where its message is unpacked. -/
theorem boatCitaGetNetworkFromNvram_first {message : CitaNetworkData}
    {read : BoatCitaNetworkData} (hknown : storeType ≠ .unknown)
    (hholds : d.Holds .network storeType offset
      (networkBytes (network :: records)))
    (hunpack : unpackCita network.body = some message)
    (hmade : boatCitaGetNetworkFromProto message = .ok read) :
    (boatCitaNetwork unpackCita).getNetworkFromNvram (offset + 5) storeType
      ⟨d, none⟩ = .ok read ⟨d, none⟩ := by
  obtain ⟨htwo, hlen⟩ := network.sized
  have hform := holds_firstData hholds
  have hroom := BoatStoreFile.network.room_lt storeType
  have hfits := hform.2
  have hlength := LengthValue.length_encode network.body
  have hhead := LengthValue.length_header network.body.length
  rw [List.length_append] at hfits
  have hreadLength := (readLength_runs hform hknown
    (by rw [List.length_append]; omega) hlen).spared.run
  obtain ⟨_, hbody⟩ := holds_append.mp (holds_append.mp hform).1
  have hread := (hbody.read hknown (by omega : 0 < network.body.length)
    (Nat.le_refl _)).spared.run
  rw [List.take_length] at hread
  have hmalloc : boatMalloc boatErrorCommonOutOfMemory ⟨d, none⟩ =
      .ok () ⟨d, none⟩ := rfl
  change packedNetworkFromNvram unpackCita boatCitaGetNetworkFromProto _ _ _ = _
  unfold packedNetworkFromNvram
  refine (run_bind_ok hreadLength).trans ?_
  rw [utilityGetTLVLLFromLen_eq, advance_of_lt (by omega)]
  refine (run_bind_ok hmalloc).trans ?_
  refine (run_bind_ok hread).trans ?_
  simp only [hunpack, hmade]
  rfl

/-- All networks of CITA are read, where what is stored of them is unpacked. -/
theorem citaNetworksRead (hknown : storeType ≠ .unknown)
    (hunpack : ∀ network ∈ records, network.protocol = .cita →
      Unpacks unpackCita network.body)
    (hholds : records ≠ [] →
      d.Holds .network storeType offset (networkBytes records))
    (hstored : ∀ network ∈ records, network.protocol = .cita →
      (boatCitaNetwork unpackCita).Stored network.body) :
    ∃ networks, NetworksRead (boatCitaNetwork unpackCita) storeType d offset
      records networks := by
  induction records generalizing offset with
  | nil => exact ⟨[], .nil offset⟩
  | cons head tail ih =>
      have hhere := hholds (List.cons_ne_nil _ _)
      obtain ⟨networks, hrest⟩ := ih
        (fun network hmem => hunpack network (List.mem_cons_of_mem head hmem))
        (fun _ => (networkReads hhere hknown).tail)
        fun network hmem => hstored network (List.mem_cons_of_mem head hmem)
      by_cases hown : head.protocol = .cita
      · obtain ⟨data, nodeUrl, hshort, hbody⟩ := boatCitaNetwork_stored
          (hstored head List.mem_cons_self hown) head.sized.2
        obtain ⟨read, hmade, htext, hsame⟩ :=
          boatCitaGetNetworkFromProto_message data hshort
        have hread := boatCitaGetNetworkFromNvram_first hknown hhere
          (hunpack head List.mem_cons_self hown _ hbody.symm) hmade
        refine ⟨_, .same hown hread ?_ hrest⟩
        change boatCitaGetNetworkData read = _
        rw [boatCitaGetNetworkData_ok hshort htext, hsame, hbody]
      · exact ⟨networks, .foreign hown hrest⟩

end Cita

section Reachable

/-- What a reachable device holds. -/
theorem DeviceReachable.listHeld (hreach : DeviceReachable unpack d) :
    ∃ onetime, d.ListHeld d.networks onetime ∧
      (∀ network ∈ d.networks, network.OfKind unpack) ∧
      ∀ network ∈ onetime, network.Onetime unpack := by
  obtain ⟨⟨networks, hheld, htidy, hof⟩, onetime, hram, hone, hofRam⟩ :=
    hreach.sound
  have hsame := hheld.networks_eq htidy
  rw [← hsame] at hheld htidy hof
  exact ⟨onetime, ⟨hheld, htidy, hram, hone⟩, hof, hofRam⟩

theorem boatEthNetwork_mem : boatEthNetwork ∈ boatNetworks unpack :=
  List.mem_cons_self

/-- A onetime network of Ethereum is small. -/
theorem ethOnetime_small {onetime : List NetworkRecord}
    (hone : onetime.length ≤ 1)
    (hstored : ∀ network ∈ onetime, network.protocol = .ethereum →
      boatEthNetwork.Stored network.body) :
    ∀ front network, onetime = front ++ [network] →
      network.protocol = .ethereum → (networkBytes onetime).length < 300 := by
  rintro front network rfl hown
  rw [List.length_append, List.length_singleton] at hone
  obtain rfl : front = [] := List.eq_nil_of_length_eq_zero (by omega)
  obtain ⟨networkData, nodeUrl, hshort, hbody⟩ := ethNetworkKind_stored
    .ethereum (hstored network (by simp) hown) network.sized.2
  have hdata := network.length_data
  have hlen := length_ethForm networkData hshort
  rw [hbody] at hdata
  rw [List.nil_append, length_networkBytes_cons]
  change _ + 0 < 300
  omega

/-- A reachable device lists its networks of Ethereum where all its networks are
of Ethereum and the last in flash can be read. -/
theorem boatEthGetNetworkList_iff (hreach : DeviceReachable unpack d) :
    ListsNetworks boatEthNetwork d boatEthGetNetworkList ↔
      (∀ network ∈ d.allNetworks, network.protocol = .ethereum) ∧
        LastReadable d .flash 4 d.networks := by
  obtain ⟨onetime, hheld, hof, hofRam⟩ := hreach.listHeld
  have hfew := hheld.tidy.few
  have hone := hheld.one
  have hbytes := length_networkBytes_le d.networks
  have hroom : BoatStoreFile.network.room .flash = 2 ^ 32 - 1 - 1472 := rfl
  have hstored : ∀ network ∈ d.networks, network.protocol = .ethereum →
      boatEthNetwork.Stored network.body := fun network hmem hown =>
    (hof network hmem).stored boatEthNetwork_mem hown
  have hstoredRam : ∀ network ∈ onetime, network.protocol = .ethereum →
      boatEthNetwork.Stored network.body := fun network hmem hown =>
    hofRam network hmem _ boatEthNetwork_mem hown.symm boatEthNetwork_fitsRam
  by_cases hlast : LastReadable d .flash 4 d.networks
  · obtain ⟨networks, hflash⟩ := ethNetworksRead
      (by decide : BoatStoreType.flash ≠ .unknown) hheld.flash.networkBody
      (fun _ _ _ _ => by omega) hstored hlast
    have hsmall := ethOnetime_small hone hstoredRam
    obtain ⟨networksRam, hram⟩ := ethNetworksRead
      (by decide : BoatStoreType.ram ≠ .unknown) hheld.ram.networkBody
      (fun front network hsplit hown => by
        have hlen := hsmall front network hsplit hown
        have hram : BoatStoreFile.network.room .ram = 5120 := rfl
        omega) hstoredRam (fun front network hsplit hown => by
        have hlen := hsmall front network hsplit hown
        rw [d.length_bytes_ram .network]
        exact Or.inr (show 0 + 4 + _ < 5120 by omega))
    have hfits : (boatEthNetwork.among d.allNetworks).length ≤
        boatMaxNetworkNum + 1 := by
      have hamong : (boatEthNetwork.among d.allNetworks).length ≤
          d.allNetworks.length := List.length_filter_le _ _
      rw [hheld.allNetworks_eq, List.length_append] at hamong
      rw [boatMaxNetworkNum]
      rw [hheld.allNetworks_eq]
      omega
    rw [boatEthGetNetworkList, listsNetworks_iff hheld hflash hram]
    exact ⟨fun hlists => ⟨hlists.1, hlast⟩, fun hown => ⟨hown.1, hfits⟩⟩
  · refine iff_of_false ?_ fun hown => hlast hown.2
    simp only [LastReadable, not_forall] at hlast
    obtain ⟨front, network, hsplit, hown, hunread⟩ := hlast
    obtain ⟨hurl, hend⟩ := not_or.mp hunread
    exact not_listsNetworks_of_last hheld hstored hsplit hown
      (not_not.mp hurl) (Nat.not_lt.mp hend)

theorem boatCitaNetwork_mem :
    boatCitaNetwork unpack.cita ∈ boatNetworks unpack := by
  simp [boatNetworks]

/-- A reachable device lists its networks of CITA where all its networks are of
CITA and the array of five has a place for each. -/
theorem boatCitaGetNetworkList_iff (hreach : DeviceReachable unpack d)
    (hunpack : ∀ network ∈ d.allNetworks, network.protocol = .cita →
      Unpacks unpack.cita network.body) :
    ListsNetworks (boatCitaNetwork unpack.cita) d
        (boatCitaGetNetworkList unpack.cita) ↔
      (∀ network ∈ d.allNetworks, network.protocol = .cita) ∧
        d.allNetworks.length ≤ boatMaxNetworkNum := by
  obtain ⟨onetime, hheld, hof, hofRam⟩ := hreach.listHeld
  rw [hheld.allNetworks_eq] at hunpack
  obtain ⟨networks, hflash⟩ := citaNetworksRead
    (by decide : BoatStoreType.flash ≠ .unknown)
    (fun network hmem => hunpack network (List.mem_append_left _ hmem))
    hheld.flash.networkBody fun network hmem hown =>
      (hof network hmem).stored boatCitaNetwork_mem hown
  obtain ⟨networksRam, hram⟩ := citaNetworksRead
    (by decide : BoatStoreType.ram ≠ .unknown)
    (fun network hmem => hunpack network (List.mem_append_right _ hmem))
    hheld.ram.networkBody fun network hmem hown =>
      hofRam network hmem _ boatCitaNetwork_mem hown.symm
        boatCitaNetwork_fitsRam
  rw [boatCitaGetNetworkList, listsNetworks_iff hheld hflash hram]
  refine and_congr_right fun hown => ?_
  have hsame : (boatCitaNetwork unpack.cita).among d.allNetworks =
      d.allNetworks :=
    List.filter_eq_self.mpr fun network hmem =>
      decide_eq_true (hown network hmem)
  rw [hsame]

/-- Where a reachable device lists its networks of Ethereum and of CITA. -/
theorem getNetworkLists_iff (unpack : NetworkUnpack) (d : Device)
    (hreach : DeviceReachable unpack d)
    (hunpack : ∀ network ∈ d.allNetworks, network.protocol = .cita →
      Unpacks unpack.cita network.body) :
    (ListsNetworks boatEthNetwork d boatEthGetNetworkList ↔
      (∀ network ∈ d.allNetworks, network.protocol = .ethereum) ∧
        LastReadable d .flash 4 d.networks) ∧
    (ListsNetworks (boatCitaNetwork unpack.cita) d
        (boatCitaGetNetworkList unpack.cita) ↔
      (∀ network ∈ d.allNetworks, network.protocol = .cita) ∧
        d.allNetworks.length ≤ boatMaxNetworkNum) :=
  ⟨boatEthGetNetworkList_iff hreach, boatCitaGetNetworkList_iff hreach hunpack⟩

theorem blankDevice_unsetRam : blankDevice.Unset .network .ram := by
  refine Or.inr ⟨List.replicate 4 0, rfl, rfl, [], List.replicate 5116 0, ?_, rfl⟩
  rw [List.nil_append, List.replicate_append_replicate]
  rfl

theorem blankDevice_reachable (unpack : NetworkUnpack) :
    DeviceReachable unpack blankDevice :=
  .erased (Or.inl (Nat.zero_le _)) blankDevice_unsetRam

/-- A network that is the first one to be stored is the only one. -/
theorem allNetworks_first {network : NetworkRecord} (hindex : network.index = 1)
    (hshort : network.body.length < 0x1000) :
    (blankDevice.writeNetwork 4 0 network.protocol 1
      (LengthValue.encode network.body)).allNetworks = [network] := by
  have hheld : blankDevice.HoldsNetworks .flash [] :=
    Or.inl ⟨rfl, Or.inl (Nat.zero_le _)⟩
  have hram : blankDevice.HoldsNetworks .ram [] :=
    Or.inl ⟨rfl, blankDevice_unsetRam⟩
  have hdata := network.length_data
  have hencode := LengthValue.length_encode network.body
  have hhead := (LengthValue.length_header network.body.length).2
  have hroom : BoatStoreFile.network.room .flash = 2 ^ 32 - 1 - 1472 := rfl
  have hafter := hheld.writeNetwork network (by
    change 4 + 0 + _ ≤ _
    omega)
  rw [hindex] at hafter
  have hheldAfter : (blankDevice.writeNetwork 4 0 network.protocol 1
      (LengthValue.encode network.body)).ListHeld [network] [] :=
    ⟨hafter, tidyNetworks_nil.add (by rw [hindex]; rfl),
      holdsNetworks_of_ram rfl hram, Nat.zero_le 1⟩
  rw [hheldAfter.allNetworks_eq]
  rfl

/-- A device with a network of CITA, whose message is unpacked as the wire
format has it. -/
theorem getNetworkLists_iff_letter :
    (ListsNetworks boatEthNetwork letterCitaDevice boatEthGetNetworkList ↔
      (∀ network ∈ letterCitaDevice.allNetworks,
        network.protocol = .ethereum) ∧
        LastReadable letterCitaDevice .flash 4 letterCitaDevice.networks) ∧
    (ListsNetworks (boatCitaNetwork wireUnpack.cita) letterCitaDevice
        (boatCitaGetNetworkList wireUnpack.cita) ↔
      (∀ network ∈ letterCitaDevice.allNetworks,
        network.protocol = .cita) ∧
        letterCitaDevice.allNetworks.length ≤ boatMaxNetworkNum) := by
  have hkind : boatCitaNetwork wireUnpack.cita ∈ boatNetworks wireUnpack := by
    simp [boatNetworks]
  have hfits : (boatCitaNetwork wireUnpack.cita).Fits letterCita :=
    boatCitaNetwork_fits wireUnpack_readsPacked (by
      change (0 : UInt8) ∈ letter.bytes ++ List.replicate 126 0
      simp)
  have hafter : (NetworkCall.create (boatCitaNetwork wireUnpack.cita)
      letterCita .flash).after blankDevice none = letterCitaDevice :=
    NetworkCall.after_create networkCreate_letterCita.2
  have hreach : DeviceReachable wireUnpack letterCitaDevice :=
    hafter ▸ .step _ none (blankDevice_reachable _) ⟨hkind, hfits, rfl⟩
  have hshort := letterCitaMessage.length_pack
  have hchain : letterCitaMessage.chainIdStr.length = 32 :=
    List.length_replicate
  have hurl : letterCitaMessage.nodeUrlStr.bytes.length = 1 := rfl
  have hall : letterCitaDevice.allNetworks =
      [⟨.cita, 1, letterCitaMessage.pack, letterCitaMessage.two_le_pack,
        length_letterCita⟩] :=
    @allNetworks_first ⟨.cita, 1, letterCitaMessage.pack,
      letterCitaMessage.two_le_pack, length_letterCita⟩ rfl (by
        change letterCitaMessage.pack.length < 0x1000
        omega)
  refine getNetworkLists_iff wireUnpack letterCitaDevice hreach ?_
  rw [hall]
  intro network hmem _ message hpack
  rw [List.mem_singleton.mp hmem] at hpack
  rw [List.mem_singleton.mp hmem, ← hpack]
  exact wireUnpack_readsPacked.cita message (hpack ▸ length_letterCita)

/-- A network of PlatON, as it is stored first. -/
def plainNetwork : NetworkRecord :=
  ⟨.platon, 1, [1, 1, 4, 1, 0, 0, 0, 1, 1, 2, 0x61, 0], by decide⟩

/-- The device with that network. -/
def plainDevice : Device :=
  (NetworkCall.create boatPlatonNetwork plainEthConfig .flash).after
    blankDevice none

theorem plainDevice_eq : plainDevice = blankDevice.writeNetwork 4 0 .platon 1
    (LengthValue.encode plainNetwork.body) := by
  have hheld : blankDevice.HoldsNetworks .flash [] :=
    Or.inl ⟨rfl, Or.inl (Nat.zero_le _)⟩
  have hform : (ethNetworkKind .platon).storedForm plainEthConfig 1 =
      .ok (LengthValue.encode plainNetwork.body) := rfl
  exact NetworkCall.after_create (networkCreate_stores hheld
    (ethNetworkKind_lawful .platon) (by decide) rfl hform
    (LengthValue.encode_ne_nil _) (show 13 < 0x80000000 by decide))

/-- A network of PlatON counts in the list of those of Ethereum, and has no
entry there. -/
theorem not_listsNetworks_foreign :
    DeviceReachable noUnpack plainDevice ∧
      ¬ListsNetworks boatEthNetwork plainDevice boatEthGetNetworkList := by
  have hreach : DeviceReachable noUnpack plainDevice :=
    .step _ none (blankDevice_reachable _)
      (plainEthConfig_clearFor .platon (List.mem_cons_of_mem _
        (List.mem_cons_of_mem _ List.mem_cons_self)))
  have hall : plainDevice.allNetworks = [plainNetwork] := by
    rw [plainDevice_eq]
    exact @allNetworks_first plainNetwork rfl (by decide)
  refine ⟨hreach, fun hlists => ?_⟩
  obtain ⟨hown, _⟩ := (boatEthGetNetworkList_iff hreach).mp hlists
  rw [hall] at hown
  have hplaton := hown _ List.mem_cons_self
  cases hplaton

end Reachable

end BoatFramework
