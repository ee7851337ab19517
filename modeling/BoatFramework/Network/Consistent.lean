/-
Runs in which every access to the storage succeeds: after each call the store of
networks can be read, no index is taken twice, and only the network of the
protocol and the index of the call has changed or is given back.
-/
import BoatFramework.Network.Atomic
import BoatFramework.Network.Fetch

namespace BoatFramework

open Fuse Exec

structure Device.NetworksConsistent (d : Device) : Prop where
  read : d.storedNetworks .flash = some d.networks
  distinct : (d.networks.map (·.index)).Nodup
  inRange : ∀ network ∈ d.networks,
    1 ≤ network.index.toNat ∧ network.index.toNat ≤ boatMaxNetworkNum

/-- A call changes no network but the one that it creates or deletes. -/
def NetworkCall.Confined (d : Device) :
    NetworkCall → EStateM.Result Failure (Fused Device) UInt8 → Prop
  | .create kind networkConfig .flash, .ok index s =>
      ∃ network : NetworkRecord, network.Is kind.protocol index ∧
        kind.storedForm networkConfig index =
          .ok (LengthValue.encode network.body) ∧
        s.state.networks = d.networks ++ [network]
  | .delete kind index, .ok _ s =>
      s.state.networks = if index = 0 then d.networks
        else networksWithout d.networks kind.protocol index
  | _, .ok _ s => s.state.networks = d.networks
  | _, .error _ s => s.state.networks = d.networks

/-- What a fetch of a persistent network gives is read from the body of the
network of the protocol and the index. -/
def FetchConfined (d : Device) (kind : NetworkKind) (index : UInt8) : Prop :=
  index ≠ 0 → ∀ data s, getNetworkByIndex kind index ⟨d, none⟩ = .ok data s →
    s.state = d ∧ ∃ network ∈ d.networks, network.Is kind.protocol index ∧
      kind.ReadAs network.body data

/-- A run of calls without a fault. -/
def runNetworkCalls (calls : List NetworkCall) (d : Device) : Device :=
  calls.foldl (fun d call => call.after d none) d

theorem runNetworkCalls_singleton (call : NetworkCall) (d : Device) :
    runNetworkCalls [call] d = call.after d none :=
  rfl

/-- The body of a network is one that the code of its protocol stores. -/
def NetworkRecord.OfKind (unpack : NetworkUnpack) (network : NetworkRecord) :
    Prop :=
  ∃ kind ∈ boatNetworks unpack, kind.protocol = network.protocol ∧
    kind.Stored network.body

/-- A device whose networks are tidy and of the protocols they say. -/
def Device.SoundNetworks (unpack : NetworkUnpack) (d : Device) : Prop :=
  ∃ networks, d.HoldsNetworks .flash networks ∧ TidyNetworks networks ∧
    ∀ network ∈ networks, network.OfKind unpack

variable {unpack : NetworkUnpack} {d : Device} {kind other : NetworkKind}
  {network : NetworkRecord} {networks : List NetworkRecord}
  {protocol : BoatProtocolType} {index : UInt8}

/-- No two kinds have one protocol. -/
theorem boatNetworks_inj (hkind : kind ∈ boatNetworks unpack)
    (hother : other ∈ boatNetworks unpack)
    (hsame : kind.protocol = other.protocol) : kind = other := by
  have hnodup : ((boatNetworks unpack).map (·.protocol)).Nodup := by
    change [BoatProtocolType.ethereum, .hlfabric, .platon, .platone,
      .fiscobcos, .hwbcs, .chainmaker, .venachain, .quorum, .cita].Nodup
    decide
  exact List.inj_on_of_nodup_map hnodup hkind hother hsame

theorem NetworkRecord.OfKind.stored (hof : network.OfKind unpack)
    (hkind : kind ∈ boatNetworks unpack)
    (hprotocol : network.protocol = kind.protocol) :
    kind.Stored network.body := by
  obtain ⟨other, hother, hsame, hstored⟩ := hof
  obtain rfl := boatNetworks_inj hother hkind (hsame.trans hprotocol)
  exact hstored

theorem stored_of_storedForm {networkConfig : kind.Config}
    (hstored : kind.storedForm networkConfig index =
      .ok (LengthValue.encode network.body)) : kind.Stored network.body := by
  obtain ⟨_, _, hstored⟩ := except_bind_eq_ok.mp hstored
  obtain ⟨data, _, hstored⟩ := except_bind_eq_ok.mp hstored
  exact ⟨data, hstored⟩

theorem Device.Region.networksConsistent
    (hheld : d.HoldsNetworks .flash networks) (htidy : TidyNetworks networks) :
    d.NetworksConsistent := by
  have hfew := htidy.few
  constructor
  · rw [hheld.networks_eq htidy, hheld.storedNetworks (by omega)]
  · rw [hheld.networks_eq htidy]
    exact htidy.distinct
  · rw [hheld.networks_eq htidy]
    intro network hmem
    obtain ⟨hne, hmax⟩ := mem_persistentIndices (htidy.inRange network hmem)
    refine ⟨Nat.pos_of_ne_zero fun hzero => hne ?_, hmax⟩
    exact UInt8.toNat_inj.mp hzero

section Step

variable {networkConfig : kind.Config} {t : Fused Device}

theorem NetworkAdded.confined {r : Except Failure UInt8}
    (hheld : d.HoldsNetworks .flash networks) (htidy : TidyNetworks networks)
    (hof : ∀ network ∈ networks, network.OfKind unpack)
    (hkind : kind ∈ boatNetworks unpack)
    (hadded : NetworkAdded networks kind networkConfig r t) :
    (NetworkCall.create kind networkConfig .flash).Confined d (result r t) ∧
      t.state.SoundNetworks unpack := by
  cases hadded with
  | added network _ hfree hprotocol hstored hregion =>
      have htidyAfter := htidy.add hfree
      refine ⟨⟨network, ⟨rfl, hprotocol⟩, hstored, ?_⟩, _, hregion, htidyAfter,
        ?_⟩
      · rw [hheld.networks_eq htidy, hregion.networks_eq htidyAfter]
      · intro other hother
        rcases List.mem_append.mp hother with hold | hnew
        · exact hof other hold
        · rw [List.mem_singleton.mp hnew]
          exact ⟨kind, hkind, hprotocol.symm, stored_of_storedForm hstored⟩
  | refused code _ hregion =>
      refine ⟨?_, networks, hregion, htidy, hof⟩
      change t.state.networks = d.networks
      rw [hheld.networks_eq htidy, hregion.networks_eq htidy]

theorem NetworkDeleteEnd.confined {r : Except Failure Unit}
    (hheld : d.HoldsNetworks .flash networks) (htidy : TidyNetworks networks)
    (hof : ∀ network ∈ networks, network.OfKind unpack)
    (hend : NetworkDeleteEnd d networks kind.protocol index none r t) :
    (NetworkCall.delete kind index).Confined d
        (result (r.map fun _ => index) t) ∧
      t.state.SoundNetworks unpack := by
  have hsound : ∀ d' : Device, d'.HoldsNetworks .flash networks →
      d'.networks = d.networks ∧ d'.SoundNetworks unpack := by
    intro d' hheld'
    refine ⟨?_, networks, hheld', htidy, hof⟩
    rw [hheld.networks_eq htidy, hheld'.networks_eq htidy]
  cases hend with
  | present front network back hsplit hhere hpersistent hbefore _ _ hdeleted =>
      subst hsplit
      cases hdeleted with
      | removed _ _ hregion =>
          have htidyAfter := htidy.sublist
            ((List.sublist_cons_self network back).append_left front)
          refine ⟨?_, _, hregion, htidyAfter, fun other hother => hof other ?_⟩
          · change t.state.networks = if index = 0 then d.networks
              else networksWithout d.networks kind.protocol index
            rw [if_neg hpersistent, hheld.networks_eq htidy,
              hregion.networks_eq htidyAfter,
              networksWithout_split hhere hbefore (htidy.behind hhere)]
          · exact ((List.sublist_cons_self network back).append_left
              front).subset hother
      | unlowered _ _ _ hfault _ _ => cases hfault
      | torn _ _ _ hfault _ _ _ _ => cases hfault
      | recounted _ _ _ hfault _ _ => cases hfault
  | onetime hzero _ _ hsame =>
      obtain ⟨hnetworks, hafter⟩ := hsound t.state
        (holdsNetworks_of_flash hsame hheld)
      refine ⟨?_, hafter⟩
      cases r with
      | ok _ =>
          change t.state.networks = if index = 0 then d.networks else _
          rw [if_pos hzero]
          exact hnetworks
      | error _ => exact hnetworks
  | absent code _ hmissing hsame =>
      obtain ⟨hnetworks, hafter⟩ := hsound t.state (by rwa [hsame])
      exact ⟨hnetworks, hafter⟩

/-- A call that leaves the file leaves all networks. -/
theorem sound_of_flash (hsound : d.SoundNetworks unpack)
    (hsame : t.state.flash = d.flash) :
    t.state.networks = d.networks ∧ t.state.SoundNetworks unpack := by
  obtain ⟨networks, hheld, htidy, hof⟩ := hsound
  have hafter := holdsNetworks_of_flash hsame hheld
  refine ⟨?_, networks, hafter, htidy, hof⟩
  rw [hheld.networks_eq htidy, hafter.networks_eq htidy]

/-- A clear call without a fault keeps the device sound. -/
theorem NetworkCall.Clear.confined {call : NetworkCall}
    (hsound : d.SoundNetworks unpack) (hclear : call.Clear unpack none) :
    Ends call.run ⟨d, none⟩ fun r t =>
      call.Confined d (result r t) ∧ t.state.SoundNetworks unpack := by
  obtain ⟨networks, hheld, htidy, hof⟩ := hsound
  have hfew := htidy.few
  cases call with
  | create kind networkConfig storeType =>
      obtain ⟨hkind, hfits, _⟩ := hclear
      by_cases hstore : storeType = .flash
      · subst hstore
        exact (networkCreate_adds hheld htidy (boatNetworks_lawful hkind)
          hfits).mono fun _ _ hadded => hadded.confined hheld htidy hof hkind
      · refine (networkCreate_preserves
          (store_preserves_flash hstore .network) ⟨d, none⟩).mono ?_
        intro r t hsame
        obtain ⟨hnetworks, hafter⟩ :=
          sound_of_flash ⟨networks, hheld, htidy, hof⟩ hsame
        refine ⟨?_, hafter⟩
        cases storeType with
        | flash => exact absurd rfl hstore
        | unknown | ram =>
            cases r with
            | ok _ => exact hnetworks
            | error _ => exact hnetworks
  | delete kind index =>
      refine (networkDelete_ends hheld (by omega) kind.protocol index
        none).bind ?_ ?_
      · exact fun _ _ hend => Ends.pure (hend.confined hheld htidy hof)
      · exact fun _ _ hend => hend.confined hheld htidy hof
  | fetch kind index =>
      have hpreserves : Preserves Device.flash
          (NetworkCall.fetch kind index).run :=
        (getNetworkByIndex_preserves hclear index).bind fun _ => Preserves.pure
      refine (hpreserves ⟨d, none⟩).mono ?_
      intro r t hsame
      obtain ⟨hnetworks, hafter⟩ :=
        sound_of_flash ⟨networks, hheld, htidy, hof⟩ hsame
      refine ⟨?_, hafter⟩
      cases r with
      | ok _ => exact hnetworks
      | error _ => exact hnetworks

end Step

theorem runNetworkCalls_sound {calls : List NetworkCall}
    (hsound : d.SoundNetworks unpack)
    (hclear : ∀ call ∈ calls, call.Clear unpack none) :
    (runNetworkCalls calls d).SoundNetworks unpack := by
  induction calls generalizing d with
  | nil => exact hsound
  | cons call rest ih =>
      refine ih ?_ fun other hother =>
        hclear other (List.mem_cons_of_mem call hother)
      have hcall := hclear call List.mem_cons_self
      exact NetworkCall.after_of_ends (hcall.confined hsound)
        fun _ _ hlast => hlast.2

theorem Device.SoundNetworks.fetchConfined (hsound : d.SoundNetworks unpack)
    (hkind : kind ∈ boatNetworks unpack) (index : UInt8) :
    FetchConfined d kind index := by
  obtain ⟨networks, hheld, htidy, hof⟩ := hsound
  intro hindex data s hrun
  obtain ⟨rfl, hread⟩ := getNetworkByIndex_yields hkind hheld htidy.few
    (fun network hmem hprotocol => (hof network hmem).stored hkind hprotocol)
    hindex data s hrun
  refine ⟨rfl, ?_⟩
  rw [hheld.networks_eq htidy]
  exact hread

/-- After every run of clear calls the store of networks is consistent, and the
next call changes or gives back the network of its protocol and index only. -/
theorem networkStore_consistent (unpack : NetworkUnpack) (d : Device)
    (calls : List NetworkCall) (hunset : d.Unset .network .flash)
    (hclear : ∀ call ∈ calls, call.Clear unpack none) :
    (runNetworkCalls calls d).NetworksConsistent ∧
      (∀ call : NetworkCall, call.Clear unpack none →
        call.Confined (runNetworkCalls calls d)
          (call.run ⟨runNetworkCalls calls d, none⟩)) ∧
      ∀ kind ∈ boatNetworks unpack, ∀ index,
        FetchConfined (runNetworkCalls calls d) kind index := by
  have hsound := runNetworkCalls_sound
    ⟨[], Or.inl ⟨rfl, hunset⟩, tidyNetworks_nil, fun _ hmem => by cases hmem⟩
    hclear
  refine ⟨?_, fun call hcall => ?_, fun kind hkind index => ?_⟩
  · obtain ⟨networks, hheld, htidy, _⟩ := hsound
    exact hheld.networksConsistent htidy
  · obtain ⟨r, t, hrun, hconfined, _⟩ := hcall.confined hsound
    rw [hrun]
    exact hconfined
  · exact hsound.fetchConfined hkind index

theorem plainEthConfig_clearFor (protocol : BoatProtocolType)
    (hkind : ethNetworkKind protocol ∈ boatNetworks noUnpack) :
    (NetworkCall.create (ethNetworkKind protocol) plainEthConfig .flash).Clear
      noUnpack none :=
  ⟨hkind, ethNetworkKind_fits protocol (by decide), rfl⟩

/-- A network of Ethereum and one of PlatON, and the first is deleted. -/
theorem networkStore_consistent_three :
    (runNetworkCalls [.create boatEthNetwork plainEthConfig .flash,
        .create boatPlatonNetwork plainEthConfig .flash,
        .delete boatEthNetwork 1] blankDevice).NetworksConsistent ∧
      (∀ call : NetworkCall, call.Clear noUnpack none →
        call.Confined (runNetworkCalls
          [.create boatEthNetwork plainEthConfig .flash,
            .create boatPlatonNetwork plainEthConfig .flash,
            .delete boatEthNetwork 1] blankDevice)
          (call.run ⟨runNetworkCalls
            [.create boatEthNetwork plainEthConfig .flash,
              .create boatPlatonNetwork plainEthConfig .flash,
              .delete boatEthNetwork 1] blankDevice, none⟩)) ∧
      ∀ kind ∈ boatNetworks noUnpack, ∀ index,
        FetchConfined (runNetworkCalls
          [.create boatEthNetwork plainEthConfig .flash,
            .create boatPlatonNetwork plainEthConfig .flash,
            .delete boatEthNetwork 1] blankDevice) kind index := by
  have hunset : blankDevice.Unset .network .flash := Or.inl (Nat.zero_le _)
  revert hunset
  generalize blankDevice = d
  intro hunset
  refine networkStore_consistent noUnpack d _ hunset ?_
  have heth : boatEthNetwork ∈ boatNetworks noUnpack := List.mem_cons_self
  have hplaton : boatPlatonNetwork ∈ boatNetworks noUnpack :=
    List.mem_cons_of_mem _ (List.mem_cons_of_mem _ List.mem_cons_self)
  intro call hcall
  simp only [List.mem_cons, List.not_mem_nil, or_false] at hcall
  rcases hcall with rfl | rfl | rfl
  · exact plainEthConfig_clearFor .ethereum heth
  · exact plainEthConfig_clearFor .platon hplaton
  · exact heth

/-- A ChainMaker network whose URL makes its message 65536 bytes long. -/
def longUrlConfig : BoatChainmakerNetworkData where
  networkIndex := 0
  clientMemberType := 0
  clientSignCertContent := ⟨1, ⟨0x61 :: 0 :: List.replicate 1022 0, by
    rw [List.length_cons, List.length_cons, List.length_replicate]⟩⟩
  nodeUrl := ⟨List.replicate 65518 0x61, fun hmem =>
    absurd (List.eq_of_mem_replicate hmem) (by decide)⟩
  hostName := .ofBuffer [0x61]
  chainId := .ofBuffer [0x61]
  orgId := .ofBuffer [0x61]
  caTlsCertContent := ⟨0, ⟨0 :: List.replicate 1023 0, by
    rw [List.length_cons, List.length_replicate]⟩⟩
  clientTlsCertContent := ⟨0, ⟨0 :: List.replicate 1023 0, by
    rw [List.length_cons, List.length_replicate]⟩⟩
  clientTlsPrivkeyData := ⟨0, ⟨0 :: List.replicate 511 0, by
    rw [List.length_cons, List.length_replicate]⟩⟩

def longUrlMessage : ChainmakerNetworkData where
  index := 1
  clientMemberType := 0
  clientSignCertContent := .ofBuffer [0x61]
  nodeUrl := longUrlConfig.nodeUrl
  hostName := .ofBuffer [0x61]
  chainId := .ofBuffer [0x61]
  orgId := .ofBuffer [0x61]
  caTlsCertContent := .ofBuffer []
  clientTlsCertContent := .ofBuffer []
  clientTlsPrivkeyData := .ofBuffer []

theorem longUrlMessage_length : longUrlMessage.pack.length = 0x10000 := by
  have hurl : longUrlMessage.nodeUrl.bytes.length = 65518 :=
    List.length_replicate
  have hne : longUrlMessage.nodeUrl.bytes ≠ [] :=
    List.ne_nil_of_length_pos (by omega)
  have hfield := Protobuf.length_stringField_eq 4 hne
  rw [hurl] at hfield
  have hkey : (Protobuf.key 4 2).length = 1 := by decide
  have hvarint : (Protobuf.varint 65518).length = 3 := by decide
  unfold ChainmakerNetworkData.pack
  simp only [List.length_append]
  rw [hfield, hkey, hvarint]
  decide

theorem longUrlConfig_stored
    (unpackMessage : List UInt8 → Option ChainmakerNetworkData) :
    (boatChainmakerNetwork unpackMessage).storedForm longUrlConfig 1 =
      .ok (addLWithOffset longUrlMessage.pack) := by
  have hlength := longUrlMessage_length
  have hempty (n : Nat) : cString (0 :: List.replicate n 0) =
      .ok ⟨[], by decide⟩ :=
    cString_append ⟨[], by decide⟩ (List.replicate n 0)
  have hcert : cString longUrlConfig.clientSignCertContent.content.1 =
      .ok ⟨[0x61], by decide⟩ :=
    cString_append ⟨[0x61], by decide⟩ (List.replicate 1022 0)
  have hpacked : packedNetworkData longUrlMessage.pack =
      .ok (addLWithOffset longUrlMessage.pack) := by
    unfold packedNetworkData
    rw [hlength]
    rfl
  have hcheck : boatChainmakerCheckConfig longUrlConfig = .ok () := by
    have hne : longUrlConfig.nodeUrl.bytes ≠ [] :=
      List.ne_nil_of_length_pos (by
        change 0 < (List.replicate 65518 (0x61 : UInt8)).length
        rw [List.length_replicate]
        decide)
    have hgood : ¬(longUrlConfig.chainId.bytes = [] ∨
        longUrlConfig.hostName.bytes = [] ∨ longUrlConfig.nodeUrl.bytes = [] ∨
          longUrlConfig.orgId.bytes = [] ∨
            longUrlConfig.clientSignCertContent.length = 0) := by
      rintro (h | h | h | h | h)
      · cases h
      · cases h
      · exact hne h
      · cases h
      · cases h
    unfold boatChainmakerCheckConfig
    rw [if_neg hgood]
    exact except_bind_eq_ok.mpr ⟨_, hcert, rfl⟩
  refine except_bind_eq_ok.mpr ⟨(), hcheck, ?_⟩
  refine except_bind_eq_ok.mpr ⟨_, rfl, ?_⟩
  refine except_bind_eq_ok.mpr ⟨_, hcert, ?_⟩
  refine except_bind_eq_ok.mpr ⟨_, hempty 1023, ?_⟩
  refine except_bind_eq_ok.mpr ⟨_, hempty 1023, ?_⟩
  refine except_bind_eq_ok.mpr ⟨_, hempty 511, ?_⟩
  exact hpacked

/-- A body of 65536 bytes gets the length bytes of an empty one. -/
theorem read_longBody {packed : List UInt8}
    (hlength : packed.length = 0x10000) (protocol : BoatProtocolType)
    (index : UInt8) (rest : List UInt8) :
    NetworkRecord.read (protocol.bytes ++ ([index] ++
      addLWithOffset packed) ++ rest) = none := by
  have hbytes : lengthBytes 0x10000 = [0x82, 0, 0] := by decide
  have hnil : packed ≠ [] := List.ne_nil_of_length_pos (by omega)
  have hdecode : LengthValue.decode (addLWithOffset packed ++ rest) =
      some ([], packed ++ rest) := by
    rw [addLWithOffset, if_neg (by omega), hlength, hbytes]
    simp [LengthValue.decode, LengthValue.readHeader, LengthValue.readNumber]
  have hdrop : (protocol.bytes ++ ([index] ++ addLWithOffset packed) ++
      rest).drop 5 = addLWithOffset packed ++ rest := rfl
  rw [NetworkRecord.read, hdrop, hdecode]
  cases BoatProtocolType.ofValue _ with
  | none => rfl
  | some _ => rfl

/-- A first record with such a body makes a store that cannot be read. -/
theorem storedNetworks_longBody {packed : List UInt8}
    (hunset : d.Unset .network .flash) (hlength : packed.length = 0x10000)
    (protocol : BoatProtocolType) (index : UInt8) :
    (d.writeNetwork 4 0 protocol index
      (addLWithOffset packed)).storedNetworks .flash = none := by
  have hheld : d.HoldsNetworks .flash [] := Or.inl ⟨rfl, hunset⟩
  have hdata := length_addL (List.ne_nil_of_length_pos (l := packed) (by omega))
  rw [hlength] at hdata
  have hlen : (addLWithOffset packed).length < 0x80000000 := by
    rw [hdata]
    decide
  have hnone (rest : List UInt8) := read_longBody hlength protocol index rest
  generalize addLWithOffset packed = networkData at hlen hnone ⊢
  have hfew : ([] : List NetworkRecord).length < 5 := by decide
  have hfits := networks_fit hfew hlen
  have hholds := holds_writeNetwork protocol index hheld hfits
  have hnil : networkBytes [] = [] := rfl
  rw [hnil, List.length_nil, List.length_nil, Nat.add_zero, Nat.zero_add,
    List.nil_append] at hholds
  obtain ⟨rest, hrecords⟩ := readRecords_of_holds NetworkRecord.read hholds
    (by decide)
  rw [Device.storedNetworks, hrecords, LengthValue.readMany, hnone]
  rfl

/-- The record of a long message cannot be read. -/
theorem networkStore_longUrl :
    blankDevice.Unset .network .flash ∧
      ¬(runNetworkCalls [.create (boatChainmakerNetwork fun _ => none)
        longUrlConfig .flash] blankDevice).NetworksConsistent := by
  have hunset : blankDevice.Unset .network .flash := Or.inl (Nat.zero_le _)
  refine ⟨hunset, ?_⟩
  revert hunset
  generalize blankDevice = d
  intro hunset hconsistent
  have hlength := longUrlMessage_length
  have hnil : longUrlMessage.pack ≠ [] :=
    List.ne_nil_of_length_pos (by omega)
  have hheld : d.HoldsNetworks .flash [] := Or.inl ⟨rfl, hunset⟩
  have hdata := length_addL hnil
  rw [hlength] at hdata
  have hdataFits : (addLWithOffset longUrlMessage.pack).length <
      0x80000000 := by
    rw [hdata]
    decide
  have hrun := networkCreate_stores hheld
    (boatChainmakerNetwork_lawful fun _ => none) (by decide)
    (show firstFree [] = some 1 from rfl)
    (longUrlConfig_stored fun _ => none)
    (List.ne_nil_of_length_pos (by omega)) hdataFits
  have hnone := storedNetworks_longBody hunset hlength .chainmaker 1
  generalize addLWithOffset longUrlMessage.pack = networkData at hrun hnone
  rw [runNetworkCalls_singleton, NetworkCall.after_create hrun] at hconsistent
  have hread := hconsistent.read
  have hstored := hnone.symm.trans hread
  cases hstored

end BoatFramework
