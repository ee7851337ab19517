/-
An Ethereum network that was stored is read back.  The reader takes three bytes
for every length, so the last two bytes of a network without a URL are read only
where one more byte stands behind them.
-/
import BoatFramework.Network.Fetch

namespace BoatFramework

open Fuse Exec

variable {d d' : Device} {storeFile : BoatStoreFile} {storeType : BoatStoreType}
  {offset size : Nat} {frame : NetworkFrame} {given : Option Nat}
  {content value rest : List UInt8}

/-- Content with bytes behind it stands in front of one of them. -/
theorem Device.Holds.exists_behind
    (hholds : d.Holds storeFile storeType offset content)
    (hmore : storeFile.origin storeType + offset + content.length <
      (d.bytes storeFile storeType).length)
    (hroom : offset + content.length < storeFile.room storeType) :
    ∃ byte, d.Holds storeFile storeType offset (content ++ [byte]) := by
  obtain ⟨⟨front, back, hbytes, hfront⟩, _⟩ := hholds
  cases back with
  | nil =>
      rw [hbytes, List.length_append, List.length_append, List.length_nil,
        hfront] at hmore
      omega
  | cons byte back =>
      refine ⟨byte, ⟨front, back, ?_, hfront⟩, ?_⟩
      · rw [hbytes, List.append_assoc]
        rfl
      · rw [List.length_append, List.length_singleton]
        omega

/-- A length of which the file does not have the three bytes is not read. -/
theorem readLength_short
    (hshort : d.file.1.length < storeFile.offset + offset + 3)
    (hfits : offset + 3 ≤ storeFile.room .flash) :
    ∃ code, readLength storeFile offset .flash ⟨d, none⟩ =
      .error (.code code) ⟨d, none⟩ := by
  have hread := (read_runs (d := d) (by decide : BoatStoreType.flash ≠ .unknown)
    (by decide : 0 < 3) hfits).spared.run
  have hlook : ∃ code, d.look storeFile offset 3 .flash =
      .error (.code code) := by
    change ∃ code, d.readFile (storeFile.offset + offset) 3 = _
    unfold Device.readFile
    rw [Device.file] at hshort
    cases hflash : d.flash with
    | none => exact ⟨_, rfl⟩
    | some file =>
        rw [hflash, Option.getD_some] at hshort
        have hnone : ByteFile.read file.1 (storeFile.offset + offset) 3 = none :=
          if_neg (by omega)
        simp only [hnone]
        exact ⟨_, rfl⟩
  obtain ⟨code, hlook⟩ := hlook
  rw [hlook] at hread
  exact ⟨code, run_bind_error hread⟩

variable (size frame given) in
/-- A value within its network data is read. -/
theorem readParam_runs
    (hholds : d.Holds .network storeType offset
      (LengthValue.encode value ++ rest))
    (hknown : storeType ≠ .unknown)
    (hthree : 3 ≤ (LengthValue.encode value ++ rest).length)
    (hne : value ≠ []) (hlen : value.length < 0x10000)
    (hgiven : ∀ n ∈ given, value.length = n) (hsize : value.length ≤ size)
    (hstart : frame.start ≤ offset)
    (hend : offset + (LengthValue.encode value).length ≤
      frame.start + frame.length) :
    Reads (readParam frame storeType given size offset) d (2 * storeType.cost)
      (.ok (value, offset + (LengthValue.encode value).length)) := by
  have hroom := BoatStoreFile.network.room_lt storeType
  have hlt := hholds.2
  have hlength := readLength_runs hholds hknown hthree hlen
  have hvalue := hholds
  rw [LengthValue.encode, List.append_assoc] at hvalue
  obtain ⟨_, hvalue⟩ := holds_append.mp hvalue
  have hread := (holds_append.mp hvalue).1.read hknown
    (List.length_pos_of_ne_nil hne) (Nat.le_refl _)
  rw [List.take_length] at hread
  rw [List.length_append] at hlt
  rw [LengthValue.length_encode] at hlt hend
  have hmove : advance offset (utilityGetTLVLLFromLen value.length) =
      offset + (LengthValue.header value.length).length := by
    rw [utilityGetTLVLLFromLen_eq, advance_of_lt (by omega)]
  have hlast : advance (offset + (LengthValue.header value.length).length)
      value.length = offset + (LengthValue.encode value).length := by
    rw [advance_of_lt (by omega), LengthValue.length_encode]
    omega
  have hinside : ¬frame.length < advance (distance
      (offset + (LengthValue.header value.length).length) frame.start)
        value.length := by
    have hdistance : distance
        (offset + (LengthValue.header value.length).length) frame.start =
          offset + (LengthValue.header value.length).length -
            frame.start := by
      unfold distance buint32
      omega
    rw [hdistance, advance_of_lt (by omega)]
    omega
  have hsizes : ¬∃ n ∈ given, value.length ≠ n := by
    rintro ⟨n, hn, hdiff⟩
    exact hdiff (hgiven n hn)
  refine Runs.cast (a := storeType.cost + (storeType.cost + 0)) ?_ (by omega)
  refine hlength.bind (Runs.pass hsizes ?_)
  rw [hmove]
  refine Runs.pass hinside (hread.bind ?_)
  refine Runs.pass (Nat.not_lt.mpr hsize) ?_
  rw [hlast]
  exact Runs.pure

section Values

variable {networkData : BoatEthNetworkData} {nodeUrl : CString}

/-- The values of a network in front of its URL. -/
def ethFront (networkData : BoatEthNetworkData) : List UInt8 :=
  LengthValue.encode [networkData.networkIndex] ++
    (LengthValue.encode (enumBytes networkData.chainId) ++
      LengthValue.encode [if networkData.eip155Compatibility then 1 else 0])

theorem length_ethFront (networkData : BoatEthNetworkData) :
    (ethFront networkData).length = 9 :=
  rfl

theorem ethBody_front (hlen : nodeUrl.bytes.length < 127) :
    ethBody networkData nodeUrl =
      ethFront networkData ++ LengthValue.encode (nodeUrl.bytes ++ [0]) := by
  rw [ethBody_eq hlen, ethFront, List.append_assoc, List.append_assoc]

/-- Where the network data of a record begins and how long it is. -/
def ethFrame (networkData : BoatEthNetworkData) (nodeUrl : CString)
    (offset : Nat) : NetworkFrame :=
  ⟨offset + (LengthValue.header (ethBody networkData nodeUrl).length).length,
    (ethBody networkData nodeUrl).length⟩

section Stored

variable (hlen : nodeUrl.bytes.length < 127)
  (hknown : storeType ≠ .unknown)
  (hholds : d.Holds .network storeType offset
    (LengthValue.encode (ethBody networkData nodeUrl) ++ rest))

include hlen hholds

theorem holds_ethUrl :
    d.Holds .network storeType ((ethFrame networkData nodeUrl offset).start + 9)
      (LengthValue.encode (nodeUrl.bytes ++ [0]) ++ rest) := by
  rw [LengthValue.encode, ethBody_front hlen, List.append_assoc,
    List.append_assoc] at hholds
  obtain ⟨_, hvalues⟩ := holds_append.mp hholds
  obtain ⟨_, hurl⟩ := holds_append.mp hvalues
  rw [length_ethFront, ← ethBody_front hlen] at hurl
  exact hurl

include hknown

omit hlen hholds hknown in
theorem length_filledUrl (url : List UInt8) :
    ((url ++ List.replicate 127 0).take 127).length = 127 := by
  simp

/-- A read of a network comes to that of its URL. -/
theorem boatEthGetNetworkFromNvram_run :
    boatEthGetNetworkFromNvram offset storeType ⟨d, none⟩ =
      (readParam (ethFrame networkData nodeUrl offset) storeType none 127
          ((ethFrame networkData nodeUrl offset).start + 9) >>= fun param =>
        pure { networkData with
          nodeUrlStr := ⟨(param.1 ++ List.replicate 127 0).take 127,
            length_filledUrl param.1⟩ }) ⟨d, none⟩ := by
  have hroom := BoatStoreFile.network.room_lt storeType
  have hbody := length_ethBody networkData nodeUrl
  have hone := utilityGetTLVLLFromLen_eq (nodeUrl.bytes.length + 1)
  have htwo := LengthValue.length_header (nodeUrl.bytes.length + 1)
  have hlast := utilityGetTLVLLFromLen_le (nodeUrl.bytes.length + 1)
  have hfits := hholds.2
  rw [List.length_append, LengthValue.length_encode] at hfits
  have hhead := LengthValue.length_header (ethBody networkData nodeUrl).length
  have hlength := readLength_runs hholds hknown
    (by rw [List.length_append, LengthValue.length_encode]; omega) (by omega)
  have hstart : advance offset (utilityGetTLVLLFromLen
      (ethBody networkData nodeUrl).length) =
        (ethFrame networkData nodeUrl offset).start := by
    rw [utilityGetTLVLLFromLen_eq]
    exact advance_of_lt (by omega)
  have hvalues := hholds
  rw [LengthValue.encode, List.append_assoc] at hvalues
  obtain ⟨_, hvalues⟩ := holds_append.mp hvalues
  rw [ethBody_eq hlen, List.append_assoc, List.append_assoc,
    List.append_assoc, ← ethBody_eq hlen] at hvalues
  obtain ⟨_, hchain⟩ := holds_append.mp hvalues
  obtain ⟨_, hflag⟩ := holds_append.mp hchain
  change d.Holds _ _ (ethFrame networkData nodeUrl offset).start _ at hvalues
  change d.Holds _ _ ((ethFrame networkData nodeUrl offset).start + 2) _
    at hchain
  change d.Holds _ _ ((ethFrame networkData nodeUrl offset).start + 2 + 5) _
    at hflag
  have hframe : 11 ≤ (ethFrame networkData nodeUrl offset).length := by
    change 11 ≤ (ethBody networkData nodeUrl).length
    omega
  have hurlLen : 2 ≤ (LengthValue.encode (nodeUrl.bytes ++ [0])).length := by
    rw [LengthValue.length_encode, List.length_append, List.length_singleton]
    omega
  have hchainLen : (LengthValue.encode (enumBytes
      networkData.chainId)).length = 5 := rfl
  have hflagLen : (LengthValue.encode [if networkData.eip155Compatibility then
      (1 : UInt8) else 0]).length = 2 := rfl
  have hreadIndex := readParam_runs 1 _ (some 1) hvalues hknown
    (by simp only [List.length_append, hchainLen]; omega)
    (List.cons_ne_nil _ _) (by simp) (by simp) (by simp) (Nat.le_refl _)
    (Nat.add_le_add_left (Nat.le_trans (by decide : 2 ≤ 11) hframe) _)
  have hreadChain := readParam_runs
    4 (ethFrame networkData nodeUrl offset) none hchain
    hknown (by simp only [List.length_append, hchainLen]; omega)
    (List.cons_ne_nil _ _) (by rw [length_enumBytes]; decide) (by simp)
    (Nat.le_refl _) (Nat.le_add_right _ 2) (by rw [hchainLen]; omega)
  have hreadFlag := readParam_runs
    1 (ethFrame networkData nodeUrl offset) none hflag
    hknown (by simp only [List.length_append, hflagLen]; omega)
    (List.cons_ne_nil _ _) (by simp) (by simp) (by simp) (by omega)
    (by rw [hflagLen]; omega)
  unfold boatEthGetNetworkFromNvram
  refine (run_bind_ok hlength.spared.run).trans ?_
  rw [hstart]
  refine (run_bind_ok hreadIndex.spared.run).trans ?_
  refine (run_bind_ok hreadChain.spared.run).trans ?_
  refine (run_bind_ok hreadFlag.spared.run).trans ?_
  have hbool : decide (([if networkData.eip155Compatibility then
      (1 : UInt8) else 0] : List UInt8).getD 0 0 ≠ 0) =
        networkData.eip155Compatibility := by
    cases networkData.eip155Compatibility <;> rfl
  simp only [enumOfBytes_enumBytes, hbool]
  rfl

theorem boatEthGetNetworkFromNvram_ok
    (hthree : 3 ≤ (LengthValue.encode (nodeUrl.bytes ++ [0]) ++ rest).length) :
    boatEthGetNetworkFromNvram offset storeType ⟨d, none⟩ =
      .ok (ethReadBack networkData nodeUrl) ⟨d, none⟩ := by
  have hbody := length_ethBody networkData nodeUrl
  have hurlLen : (LengthValue.encode (nodeUrl.bytes ++ [0])).length =
      utilityGetTLVLLFromLen (nodeUrl.bytes.length + 1) +
        (nodeUrl.bytes.length + 1) := by
    rw [LengthValue.length_encode, List.length_append, List.length_singleton,
      utilityGetTLVLLFromLen_eq]
  have hframe : (ethFrame networkData nodeUrl offset).length =
      (ethBody networkData nodeUrl).length := rfl
  have hurl := holds_ethUrl hlen hholds
  have hread := readParam_runs 127 (ethFrame networkData nodeUrl offset)
    none hurl hknown hthree (by simp)
    (by rw [List.length_append, List.length_singleton]; omega) (by simp)
    (by rw [List.length_append, List.length_singleton]; omega)
    (Nat.le_add_right _ 9) (by omega)
  rw [boatEthGetNetworkFromNvram_run hlen hknown hholds]
  exact run_bind_ok hread.spared.run

end Stored

/-- A network without a URL at the end of the file is not read. -/
theorem boatEthGetNetworkFromNvram_short (hurl : nodeUrl.bytes = [])
    (hholds : d.Holds .network .flash offset
      (LengthValue.encode (ethBody networkData nodeUrl)))
    (hshort : d.file.1.length < BoatStoreFile.network.offset + offset + 13)
    (hfits : offset + 13 ≤ BoatStoreFile.network.room .flash) :
    ∃ code, boatEthGetNetworkFromNvram offset .flash ⟨d, none⟩ =
      .error (.code code) ⟨d, none⟩ := by
  have hlen : nodeUrl.bytes.length < 127 := by
    rw [hurl]
    decide
  have hbody := length_ethBody networkData nodeUrl
  rw [hurl] at hbody
  have hstart : (ethFrame networkData nodeUrl offset).start = offset + 1 := by
    change offset + (LengthValue.header _).length = _
    rw [hbody]
    rfl
  rw [← List.append_nil (LengthValue.encode _)] at hholds
  rw [boatEthGetNetworkFromNvram_run hlen (by decide) hholds, hstart]
  obtain ⟨code, hlength⟩ : ∃ code, readLength .network (offset + 1 + 9) .flash
      ⟨d, none⟩ = .error (.code code) ⟨d, none⟩ :=
    readLength_short (by omega) (by omega)
  exact ⟨code, run_bind_error (run_bind_error hlength)⟩

end Values

theorem length_ethForm {nodeUrl : CString} (data : BoatEthNetworkData)
    (hshort : nodeUrl.bytes.length < 127) :
    (LengthValue.encode (ethBody data nodeUrl)).length < 200 := by
  have hbody := length_ethBody data nodeUrl
  have hurl := utilityGetTLVLLFromLen_le (nodeUrl.bytes.length + 1)
  have hhead := (LengthValue.length_header (ethBody data nodeUrl).length).2
  rw [LengthValue.length_encode]
  omega

/-- The URL of a network that was read is the one that was stored. -/
theorem cString_ethReadBack {nodeUrl : CString} (data : BoatEthNetworkData)
    (hshort : nodeUrl.bytes.length < 127) :
    cString (ethReadBack data nodeUrl).nodeUrlStr.1 = .ok nodeUrl := by
  obtain ⟨behind, hbehind⟩ := Nat.exists_eq_add_of_lt hshort
  have htake : (nodeUrl.bytes ++ [0] ++ List.replicate 127 0).take 127 =
      nodeUrl.bytes ++ 0 :: (List.replicate 127 (0 : UInt8)).take behind := by
    rw [List.append_assoc, List.take_append, List.take_of_length_le (by omega),
      show 127 - nodeUrl.bytes.length = behind + 1 by omega]
    rfl
  change cString ((nodeUrl.bytes ++ [0] ++ List.replicate 127 0).take 127) = _
  rw [htake, cString_append]

/-- The networks in front of the next one; in RAM it takes the first place. -/
def Device.networksBefore (d : Device) : BoatStoreType → List NetworkRecord
  | .flash => d.networks
  | _ => []

/-- Where the next network is stored. -/
def Device.nextNetworkPlace (d : Device) (storeType : BoatStoreType) : Nat :=
  4 + (networkBytes (d.networksBefore storeType)).length

/-- Network data with what a configuration says. -/
structure EthStored (networkConfig : BoatEthNetworkConfig) (index : UInt8)
    (nodeUrl : CString) (data : BoatEthNetworkData) : Prop where
  url : cString networkConfig.nodeUrlStr.1 = .ok nodeUrl
  short : nodeUrl.bytes.length < 127
  networkIndex : data.networkIndex = index
  chainId : data.chainId = networkConfig.chainId
  eip155Compatibility :
    data.eip155Compatibility = networkConfig.eip155Compatibility
  form : boatEthNetwork.storedForm networkConfig index =
    .ok (LengthValue.encode (ethBody data nodeUrl))
  announced : (LengthValue.encode (ethBody data nodeUrl)).length =
    boatEthGetNetworkDataLen nodeUrl

/-- What a create call that succeeds does to the device. -/
structure EthCreated (d : Device) (networkConfig : BoatEthNetworkConfig)
    (storeType : BoatStoreType) (index : UInt8) (nodeUrl : CString)
    (data : BoatEthNetworkData) (d' : Device) : Prop where
  known : storeType ≠ .unknown
  stored : EthStored networkConfig index nodeUrl data
  before : d.networksBefore storeType ≠ [] →
    d.Holds .network storeType 4 (networkBytes (d.networksBefore storeType))
  few : (d.networksBefore storeType).length < 5
  fresh : index ∉ (d.networksBefore storeType).map (·.index)
  small : index.toNat ≤ boatMaxNetworkNum
  kept : storeType = if index = 0 then .ram else .flash
  written : d' = d.writeNetworkIn storeType (d.nextNetworkPlace storeType)
    (d.networksBefore storeType).length .ethereum index
      (LengthValue.encode (ethBody data nodeUrl))

section Create

variable {networkConfig : BoatEthNetworkConfig} {index : UInt8}
  {networkData : List UInt8}

theorem boatEthNetwork_storedForm
    (hstored : boatEthNetwork.storedForm networkConfig index =
      .ok networkData) :
    ∃ nodeUrl data, EthStored networkConfig index nodeUrl data ∧
      networkData = LengthValue.encode (ethBody data nodeUrl) := by
  obtain ⟨_, data, hfilled, hdata⟩ := storedForm_ok hstored
  obtain ⟨nodeUrl, hurl, hfilled⟩ := except_bind_eq_ok.mp hfilled
  have hshort := (cString_eq_ok hurl).1
  rw [networkConfig.nodeUrlStr.2] at hshort
  obtain ⟨nodeUrlStr, hfield, hblock⟩ := charField_ok hshort
  rw [hfield] at hfilled
  obtain rfl := Except.ok.inj hfilled
  have htext : cString nodeUrlStr.1 = .ok nodeUrl := by
    rw [hblock, cString_append]
  have hbody := length_ethBody ⟨index, networkConfig.chainId,
    networkConfig.eip155Compatibility, nodeUrlStr⟩ nodeUrl
  have hlast := utilityGetTLVLLFromLen_le (nodeUrl.bytes.length + 1)
  have hform := (boatEthGetNetworkData_ok htext).symm.trans hdata
  have hencode : addLWithOffset (ethBody ⟨index, networkConfig.chainId,
      networkConfig.eip155Compatibility, nodeUrlStr⟩ nodeUrl) = _ :=
    addLWithOffset_eq_encode (List.ne_nil_of_length_pos (by omega)) (by omega)
  have hannounced := boatEthGetNetworkDataLen_eq ⟨index, networkConfig.chainId,
    networkConfig.eip155Compatibility, nodeUrlStr⟩ nodeUrl
  rw [hencode] at hform hannounced
  obtain rfl := Except.ok.inj hform
  exact ⟨nodeUrl, _, ⟨hurl, hshort, rfl, rfl, rfl, hstored, hannounced.symm⟩,
    rfl⟩

theorem EthStored.length_form {nodeUrl : CString} {data : BoatEthNetworkData}
    (hstored : EthStored networkConfig index nodeUrl data) :
    (LengthValue.encode (ethBody data nodeUrl)).length < 200 :=
  length_ethForm data hstored.short

/-- A create call for flash that succeeds. -/
theorem networkCreate_flash {networks : List NetworkRecord}
    (hheld : d.HoldsNetworks .flash networks) (htidy : TidyNetworks networks)
    (hcreate : networkCreate boatEthNetwork networkConfig .flash ⟨d, none⟩ =
      .ok index ⟨d', none⟩) :
    ∃ nodeUrl data,
      EthCreated d networkConfig .flash index nodeUrl data d' := by
  have hfew := htidy.few
  have hnetworks := hheld.networks_eq htidy
  have hends : Ends (networkCreate boatEthNetwork networkConfig .flash) _ _ :=
    networkCreate_ends hheld (ethNetworkKind_lawful .ethereum) (by omega) (by
      intro index networkData _ hform
      obtain ⟨nodeUrl, data, hstored, rfl⟩ := boatEthNetwork_storedForm hform
      have hlength := hstored.length_form
      exact ⟨LengthValue.encode_ne_nil _, by omega⟩)
  cases hends.ok hcreate with
  | added _ networkData hroom hfree hform =>
      obtain ⟨nodeUrl, data, hstored, rfl⟩ := boatEthNetwork_storedForm hform
      obtain ⟨hindex, hfresh⟩ := firstFree_mem hfree
      obtain ⟨hne, hmax⟩ := mem_persistentIndices hindex
      refine ⟨nodeUrl, data, by decide, hstored, ?_, ?_, ?_, hmax, ?_, ?_⟩
      · change d.networks ≠ [] →
          d.Holds .network .flash 4 (networkBytes d.networks)
        rw [hnetworks]
        exact hheld.networkBody
      · change d.networks.length < 5
        rwa [hnetworks]
      · change index ∉ d.networks.map (·.index)
        rwa [hnetworks]
      · rw [if_neg hne]
      · change _ = d.writeNetworkIn .flash (4 + (networkBytes d.networks).length)
          d.networks.length .ethereum index _
        rw [hnetworks]
        rfl

variable (d storeFile) in
/-- The count bytes in RAM can always be read. -/
theorem look_ram : ∃ header, d.look storeFile 0 4 .ram = .ok header := by
  have hlen := d.length_bytes_ram storeFile
  refine ⟨_, look_of_read (if_pos ?_) (by decide)⟩
  rw [hlen]
  cases storeFile <;> decide

variable (d storeFile) in
theorem readNumOrZero_ram :
    ∃ num, Spared (readNumOrZero storeFile .ram) d 0 (.ok num) d := by
  have hread := (readCount_runs d storeFile .ram (by decide)).spared
  obtain ⟨header, hlook⟩ := look_ram d storeFile
  rw [hlook] at hread
  unfold readNumOrZero
  cases hcheck : utilityCheckNumBytes header with
  | error code =>
      refine ⟨0, Spared.map (call_ok hread) ?_⟩
      simp only [hcheck]
  | ok num =>
      refine ⟨num, Spared.map (call_ok hread) ?_⟩
      simp only [hcheck]

theorem boatStoreSoftRotNvram_unknown {s t : Fused Device} :
    boatStoreSoftRotNvram storeFile offset content .unknown s ≠ .ok () t := by
  intro hrun
  obtain ⟨_, _, _, hrun⟩ := bind_eq_ok.mp hrun
  obtain ⟨_, _, hargs, _⟩ := bind_eq_ok.mp hrun
  rw [failIf, if_pos (Or.inr rfl)] at hargs
  cases hargs

theorem ofOutcome_eq_ok {α : Type} {outcome : Outcome α} {v : α}
    {s t : Fused Device} (hrun : ofOutcome outcome s = .ok v t) :
    outcome = .ok v ∧ t = s := by
  cases outcome with
  | ok w =>
      cases hrun
      exact ⟨rfl, rfl⟩
  | error failure => cases hrun

theorem networkCreate_unknown {kind : NetworkKind} {networkConfig : kind.Config}
    {s t : Fused Device} :
    networkCreate kind networkConfig .unknown s ≠ .ok index t := by
  intro hcreate
  obtain ⟨_, _, _, hrun⟩ := bind_eq_ok.mp hcreate
  obtain ⟨_, _, _, hrun⟩ := bind_eq_ok.mp hrun
  obtain ⟨_, _, _, hrun⟩ := bind_eq_ok.mp hrun
  obtain ⟨_, _, hstore, _⟩ := bind_eq_ok.mp hrun
  obtain ⟨_, _, _, hstore⟩ := bind_eq_ok.mp hstore
  obtain ⟨_, _, _, happend⟩ := bind_eq_ok.mp hstore
  obtain ⟨_, _, _, happend⟩ := bind_eq_ok.mp happend
  obtain ⟨_, _, _, happend⟩ := bind_eq_ok.mp happend
  obtain ⟨_, _, _, hwrite⟩ := bind_eq_ok.mp happend
  obtain ⟨_, _, hfirst, _⟩ := bind_eq_ok.mp hwrite
  exact boatStoreSoftRotNvram_unknown hfirst

/-- A create call for RAM that succeeds. -/
theorem networkCreate_ram
    (hcreate : networkCreate boatEthNetwork networkConfig .ram ⟨d, none⟩ =
      .ok index ⟨d', none⟩) :
    ∃ nodeUrl data,
      EthCreated d networkConfig .ram index nodeUrl data d' := by
  obtain ⟨_, _, hcheck, hrun⟩ := bind_eq_ok.mp hcreate
  obtain ⟨hchecked, rfl⟩ := ofOutcome_eq_ok hcheck
  obtain ⟨networkIndex, _, hindex, hrun⟩ := bind_eq_ok.mp hrun
  obtain ⟨rfl, rfl⟩ := pure_eq_ok.mp hindex
  obtain ⟨stored, _, hfill, hrun⟩ := bind_eq_ok.mp hrun
  obtain ⟨hfilled, rfl⟩ := ofOutcome_eq_ok hfill
  obtain ⟨_, _, hstore, hlast⟩ := bind_eq_ok.mp hrun
  obtain ⟨rfl, rfl⟩ := pure_eq_ok.mp hlast
  obtain ⟨num, hnum⟩ := readNumOrZero_ram d .network
  obtain ⟨_, _, hcount, hstore⟩ := bind_eq_ok.mp hstore
  rw [hnum.run] at hcount
  cases hcount
  obtain ⟨_, _, hpass, happend⟩ := bind_eq_ok.mp hstore
  obtain ⟨_, rfl⟩ := failIf_eq_ok hpass
  rw [if_pos rfl] at happend
  obtain ⟨_, _, hskip, happend⟩ := bind_eq_ok.mp happend
  obtain ⟨rfl, rfl⟩ := pure_eq_ok.mp hskip
  obtain ⟨networkData, _, hform, happend⟩ := bind_eq_ok.mp happend
  obtain ⟨hdata, rfl⟩ := ofOutcome_eq_ok hform
  obtain ⟨_, _, hmalloc, hwrite⟩ := bind_eq_ok.mp happend
  cases hmalloc
  have hindexEq : boatEthNetwork.networkIndex stored = 0 :=
    (ethNetworkKind_lawful .ethereum).index_eq _ _ _ hfilled
  have hstoredForm : boatEthNetwork.storedForm networkConfig 0 =
      .ok networkData :=
    except_bind_eq_ok.mpr ⟨_, hchecked,
      except_bind_eq_ok.mpr ⟨_, hfilled, hdata⟩⟩
  obtain ⟨nodeUrl, data, hstored, rfl⟩ :=
    boatEthNetwork_storedForm hstoredForm
  have hlength := hstored.length_form
  have hroom : BoatStoreFile.network.room .ram = 5120 := rfl
  have hspared := writeNetworkIn_spared d .ethereum 0
    (by decide : BoatStoreType.ram ≠ .unknown) (LengthValue.encode_ne_nil _)
    (by omega : 4 + 5 + (LengthValue.encode (ethBody data nodeUrl)).length ≤
      BoatStoreFile.network.room .ram) 0
  change writeNetwork .ethereum (boatEthNetwork.networkIndex stored) _ .ram 0 4
    ⟨d, none⟩ = _ at hwrite
  rw [hindexEq, hspared.run] at hwrite
  cases hwrite
  exact ⟨nodeUrl, data, by decide, hstored, fun hne => absurd rfl hne,
    Nat.zero_lt_succ 4, List.not_mem_nil, by decide, rfl, rfl⟩

end Create

section Created

variable {networkConfig : BoatEthNetworkConfig} {index : UInt8}
  {nodeUrl : CString} {data : BoatEthNetworkData}
  (hcreated : EthCreated d networkConfig storeType index nodeUrl data d')

include hcreated

/-- There is room for the network and for one more byte. -/
theorem EthCreated.fits :
    d.nextNetworkPlace storeType + 5 +
        (LengthValue.encode (ethBody data nodeUrl)).length <
      BoatStoreFile.network.room storeType := by
  have hlength := hcreated.stored.length_form
  have hbytes := length_networkBytes_le (d.networksBefore storeType)
  have hfew := hcreated.few
  have hknown := hcreated.known
  unfold Device.nextNetworkPlace
  cases storeType with
  | unknown => exact absurd rfl hknown
  | ram =>
      have hroom : BoatStoreFile.network.room .ram = 5120 := rfl
      change 4 + 0 + 5 + _ < _
      omega
  | flash =>
      have hroom : BoatStoreFile.network.room .flash = 2 ^ 32 - 1 - 1472 := rfl
      omega

/-- What is written ends behind everything or inside what was there. -/
theorem EthCreated.length_bytes :
    (d'.bytes .network storeType).length =
      max (d.bytes .network storeType).length
        (BoatStoreFile.network.origin storeType +
          d.nextNetworkPlace storeType + 5 +
          (LengthValue.encode (ethBody data nodeUrl)).length) := by
  have hfits := hcreated.fits
  have hfour : BoatProtocolType.ethereum.bytes.length = 4 := rfl
  have hplace : 4 ≤ d.nextNetworkPlace storeType := Nat.le_add_right 4 _
  rw [hcreated.written]
  unfold Device.writeNetworkIn
  rw [put_bytes (BoatStoreFile.four_le_room .network storeType),
    put_bytes (by omega), put_bytes (by rw [List.length_singleton]; omega),
    put_bytes (by omega), ByteFile.length_write, ByteFile.length_write,
    ByteFile.length_write, ByteFile.length_write, length_utilityGetNumBytes,
    List.length_singleton, hfour]
  omega

/-- The record of the network that was created. -/
theorem EthCreated.exists_record :
    ∃ network : NetworkRecord, network.protocol = .ethereum ∧
      network.index = index ∧ network.body = ethBody data nodeUrl := by
  have hshort := hcreated.stored.short
  have hbody := length_ethBody data nodeUrl
  have hurl := utilityGetTLVLLFromLen_le (nodeUrl.bytes.length + 1)
  exact ⟨⟨.ethereum, index, ethBody data nodeUrl, by omega, by omega⟩, rfl,
    rfl, rfl⟩

theorem EthCreated.holds :
    d'.Holds .network storeType (d.nextNetworkPlace storeType)
      (BoatProtocolType.ethereum.bytes ++
        ([index] ++ LengthValue.encode (ethBody data nodeUrl))) := by
  have hfits := hcreated.fits
  rw [Device.nextNetworkPlace] at hfits
  have hholds := holds_writeNetworkIn .ethereum index
    (LengthValue.encode (ethBody data nodeUrl)) hcreated.before (by omega)
  rw [hcreated.written]
  exact (holds_append.mp (holds_append.mp hholds).2).2

/-- The network data lies behind the protocol and the index. -/
theorem EthCreated.holdsForm :
    d'.Holds .network storeType (d.nextNetworkPlace storeType + 5)
      (LengthValue.encode (ethBody data nodeUrl)) :=
  (holds_append.mp (holds_append.mp hcreated.holds).2).2

/-- A fetch by the index comes to the network that was created. -/
theorem EthCreated.getNetworkByIndex_eq :
    boatEthGetNetworkByIndex index ⟨d', none⟩ =
      boatEthGetNetworkFromNvram (d.nextNetworkPlace storeType + 5) storeType
        ⟨d', none⟩ := by
  obtain ⟨network, hprotocol, hindex, hbody⟩ := hcreated.exists_record
  have hfits := hcreated.fits
  have hdata := network.length_data
  rw [hbody] at hdata
  rw [Device.nextNetworkPlace] at hfits
  have hregion := holdsNetworks_writeNetworkIn network hcreated.before
    (by omega)
  rw [hprotocol, hindex, hbody] at hregion
  change (d.writeNetworkIn storeType (d.nextNetworkPlace storeType) _ _ _
    _).HoldsNetworks _ _ at hregion
  rw [← hcreated.written] at hregion
  have hfew := hcreated.few
  refine getNetworkByIndex_run hcreated.known ⟨hindex, hprotocol⟩ ?_ hregion ?_
    hcreated.kept hcreated.small
  · intro other hother his
    refine hcreated.fresh ?_
    rw [← his.1]
    exact List.mem_map_of_mem hother
  · rw [List.length_append, List.length_singleton]
    omega

/-- A network with a URL, or with a byte behind it, is read. -/
theorem EthCreated.reads
    (hmore : nodeUrl.bytes ≠ [] ∨
      BoatStoreFile.network.origin storeType + d.nextNetworkPlace storeType +
          5 + (LengthValue.encode (ethBody data nodeUrl)).length <
        (d'.bytes .network storeType).length) :
    boatEthGetNetworkFromNvram (d.nextNetworkPlace storeType + 5) storeType
      ⟨d', none⟩ = .ok (ethReadBack data nodeUrl) ⟨d', none⟩ := by
  have hform := hcreated.holdsForm
  have hshort := hcreated.stored.short
  have hhead := (LengthValue.length_header (nodeUrl.bytes ++ [0]).length).1
  have hlength := LengthValue.length_encode (nodeUrl.bytes ++ [0])
  rw [List.length_append, List.length_singleton] at hhead hlength
  rcases hmore with hurl | hbehind
  · have hpos := List.length_pos_of_ne_nil hurl
    rw [← List.append_nil (LengthValue.encode _)] at hform
    refine boatEthGetNetworkFromNvram_ok hshort hcreated.known hform ?_
    rw [List.append_nil]
    omega
  · obtain ⟨byte, hform⟩ := hform.exists_behind (by omega) hcreated.fits
    refine boatEthGetNetworkFromNvram_ok hshort hcreated.known hform ?_
    rw [List.length_append, List.length_singleton]
    omega

end Created

/-- A read of a network gives what its configuration says. -/
def EthReadsBack (networkConfig : BoatEthNetworkConfig) (index : UInt8)
    (d : Device) (read : Nvram BoatEthNetworkData) : Prop :=
  ∃ data nodeUrl, read ⟨d, none⟩ = .ok data ⟨d, none⟩ ∧
    data.networkIndex = index ∧ data.chainId = networkConfig.chainId ∧
    data.eip155Compatibility = networkConfig.eip155Compatibility ∧
    cString networkConfig.nodeUrlStr.1 = .ok nodeUrl ∧
    cString data.nodeUrlStr.1 = .ok nodeUrl

/-- The network of a configuration is stored at a place, in as many bytes as
were announced, and both readers give it back. -/
structure EthRoundTrip (networkConfig : BoatEthNetworkConfig)
    (storeType : BoatStoreType) (place : Nat) (index : UInt8) (d : Device) :
    Prop where
  announced : ∃ nodeUrl networkData,
    cString networkConfig.nodeUrlStr.1 = .ok nodeUrl ∧
      boatEthNetwork.storedForm networkConfig index = .ok networkData ∧
      networkData.length = boatEthGetNetworkDataLen nodeUrl ∧
      d.Holds .network storeType place
        (BoatProtocolType.ethereum.bytes ++ ([index] ++ networkData))
  fromNvram : EthReadsBack networkConfig index d
    (boatEthGetNetworkFromNvram (place + 5) storeType)
  byIndex : EthReadsBack networkConfig index d (boatEthGetNetworkByIndex index)

/-- There is a URL, or a byte of the storage behind the 17 of a network without
one. -/
def EthReadable (networkConfig : BoatEthNetworkConfig)
    (storeType : BoatStoreType) (d : Device) : Prop :=
  networkConfig.nodeUrlStr.1.getD 0 0 ≠ 0 ∨
    BoatStoreFile.network.origin storeType + d.nextNetworkPlace storeType + 17 <
      (d.bytes .network storeType).length

section RoundTrip

variable {networkConfig : BoatEthNetworkConfig} {index : UInt8}
  {nodeUrl : CString} {data : BoatEthNetworkData}

/-- The URL is empty where its field begins with a NUL. -/
theorem url_eq_nil_iff {block : List UInt8}
    (hurl : cString block = .ok nodeUrl) :
    block.getD 0 0 = 0 ↔ nodeUrl.bytes = [] := by
  obtain ⟨hshort, rfl⟩ := cString_eq_ok hurl
  cases block with
  | nil => exact absurd hshort (Nat.not_lt_zero _)
  | cons head tail =>
      by_cases hhead : head = 0
      · simp [CString.ofBuffer, hhead]
      · simp [CString.ofBuffer, hhead]

theorem EthStored.readsBack {read : Nvram BoatEthNetworkData}
    (hstored : EthStored networkConfig index nodeUrl data)
    (hread : read ⟨d, none⟩ = .ok (ethReadBack data nodeUrl) ⟨d, none⟩) :
    EthReadsBack networkConfig index d read :=
  ⟨_, nodeUrl, hread, hstored.networkIndex, hstored.chainId,
    hstored.eip155Compatibility, hstored.url,
    cString_ethReadBack data hstored.short⟩

/-- What the condition says about the device afterwards. -/
theorem EthCreated.readable_iff
    (hcreated : EthCreated d networkConfig storeType index nodeUrl data d') :
    EthReadable networkConfig storeType d ↔
      nodeUrl.bytes ≠ [] ∨
        BoatStoreFile.network.origin storeType + d.nextNetworkPlace storeType +
            5 + (LengthValue.encode (ethBody data nodeUrl)).length <
          (d'.bytes .network storeType).length := by
  rw [EthReadable, ne_eq, url_eq_nil_iff hcreated.stored.url,
    hcreated.length_bytes]
  refine or_congr_right' fun hurl => ?_
  have hnil : nodeUrl.bytes = [] := not_not.mp hurl
  have hbody := length_ethBody data nodeUrl
  have hlength := LengthValue.length_encode (ethBody data nodeUrl)
  rw [hnil] at hbody
  rw [hbody] at hlength
  change _ = 1 + 11 at hlength
  omega

theorem EthCreated.roundTrip_iff
    (hcreated : EthCreated d networkConfig storeType index nodeUrl data d') :
    EthRoundTrip networkConfig storeType (d.nextNetworkPlace storeType) index
      d' ↔ EthReadable networkConfig storeType d := by
  have hstored := hcreated.stored
  rw [hcreated.readable_iff]
  constructor
  · intro hround
    by_contra hunread
    obtain ⟨hurl, hend⟩ := not_or.mp hunread
    have hnil : nodeUrl.bytes = [] := not_not.mp hurl
    have hbody := length_ethBody data nodeUrl
    have hlength := LengthValue.length_encode (ethBody data nodeUrl)
    rw [hnil] at hbody
    rw [hbody] at hlength
    change _ = 1 + 11 at hlength
    have hfits := hcreated.fits
    have hform := hcreated.holdsForm
    have hknown := hcreated.known
    obtain ⟨_, _, hread, _⟩ := hround.fromNvram
    cases storeType with
    | unknown => exact hknown rfl
    | ram =>
        refine hend ?_
        rw [d'.length_bytes_ram .network]
        change 0 + (4 + 0) + 5 + _ < 5120
        omega
    | flash =>
        change ¬1472 + d.nextNetworkPlace .flash + 5 + _ < d'.file.1.length
          at hend
        obtain ⟨code, hshort⟩ := boatEthGetNetworkFromNvram_short hnil hform
          (by
            change d'.file.1.length < 1472 + (d.nextNetworkPlace .flash + 5) + 13
            omega) (by omega)
        rw [hshort] at hread
        cases hread
  · intro hmore
    have hread := hcreated.reads hmore
    refine ⟨⟨nodeUrl, _, hstored.url, hstored.form, hstored.announced,
      hcreated.holds⟩, hstored.readsBack hread, hstored.readsBack ?_⟩
    rw [hcreated.getNetworkByIndex_eq]
    exact hread

end RoundTrip

/-- A network that is created on a reachable device can be read back where it
has a URL or is not the last of what was ever stored. -/
theorem boatEthNetwork_roundTrip_iff (unpack : NetworkUnpack) (d d' : Device)
    (networkConfig : BoatEthNetworkConfig) (storeType : BoatStoreType)
    (index : UInt8) (hreach : NetworksReachable unpack d)
    (hcreate : networkCreate boatEthNetwork networkConfig storeType
      ⟨d, none⟩ = .ok index ⟨d', none⟩) :
    EthRoundTrip networkConfig storeType (d.nextNetworkPlace storeType) index
      d' ↔ EthReadable networkConfig storeType d := by
  obtain ⟨networks, hheld, htidy⟩ := hreach.tidy
  have hcreated : ∃ nodeUrl data,
      EthCreated d networkConfig storeType index nodeUrl data d' := by
    cases storeType with
    | unknown => exact absurd hcreate networkCreate_unknown
    | ram => exact networkCreate_ram hcreate
    | flash => exact networkCreate_flash hheld htidy hcreate
  obtain ⟨nodeUrl, data, hcreated⟩ := hcreated
  exact hcreated.roundTrip_iff

theorem blankDevice_networksReachable : NetworksReachable noUnpack blankDevice :=
  .erased (Or.inl (Nat.zero_le _))

/-- The device with the stored form of a first network. -/
def firstNetworkDevice (networkData : List UInt8) : Device :=
  blankDevice.writeNetwork 4 0 .ethereum 1 networkData

theorem networkCreate_first (networkConfig : BoatEthNetworkConfig)
    (networkData : List UInt8) (hne : networkData ≠ [])
    (hlen : networkData.length < 0x80000000)
    (hstored : boatEthNetwork.storedForm networkConfig 1 = .ok networkData) :
    networkCreate boatEthNetwork networkConfig .flash ⟨blankDevice, none⟩ =
      .ok 1 ⟨firstNetworkDevice networkData, none⟩ := by
  have hheld : blankDevice.HoldsNetworks .flash [] :=
    Or.inl ⟨rfl, Or.inl (Nat.zero_le _)⟩
  have hstores := networkCreate_stores hheld (ethNetworkKind_lawful .ethereum)
    (by decide) rfl hstored hne hlen
  exact hstores

/-- A network with a URL of one character. -/
theorem boatEthNetwork_roundTrip_plain :
    EthRoundTrip plainEthConfig .flash (blankDevice.nextNetworkPlace .flash) 1
      (firstNetworkDevice
        [12, 1, 1, 4, 1, 0, 0, 0, 1, 1, 2, 0x61, 0]) :=
  (boatEthNetwork_roundTrip_iff noUnpack blankDevice _ plainEthConfig .flash 1
    blankDevice_networksReachable
    (networkCreate_first _ _ (by decide) (by decide) rfl)).mpr
      (Or.inl (by decide))

/-- A network without a URL. -/
def noUrlConfig : BoatEthNetworkConfig :=
  ⟨1, true, ⟨List.replicate 127 0, rfl⟩⟩

/-- The first network in flash is not read when it has no URL. -/
theorem not_boatEthNetwork_roundTrip :
    NetworksReachable noUnpack blankDevice ∧
      networkCreate boatEthNetwork noUrlConfig .flash ⟨blankDevice, none⟩ =
        .ok 1 ⟨firstNetworkDevice [11, 1, 1, 4, 1, 0, 0, 0, 1, 1, 1, 0],
          none⟩ ∧
      ¬EthRoundTrip noUrlConfig .flash (blankDevice.nextNetworkPlace .flash) 1
        (firstNetworkDevice [11, 1, 1, 4, 1, 0, 0, 0, 1, 1, 1, 0]) := by
  have hcreate := networkCreate_first noUrlConfig
    [11, 1, 1, 4, 1, 0, 0, 0, 1, 1, 1, 0] (by decide) (by decide) rfl
  refine ⟨blankDevice_networksReachable, hcreate, fun hround => ?_⟩
  obtain ⟨networks, hheld, htidy⟩ := blankDevice_networksReachable.tidy
  obtain ⟨nodeUrl, data, hcreated⟩ := networkCreate_flash hheld htidy hcreate
  rcases hcreated.roundTrip_iff.mp hround with hurl | hbehind
  · exact hurl rfl
  · exact absurd hbehind (Nat.not_lt_zero _)

end BoatFramework
