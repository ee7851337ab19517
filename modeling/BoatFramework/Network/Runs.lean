/-
Runs of create, delete and fetch calls about the networks of all protocols: the
store of networks stays a list of records, and no index is taken twice.
-/
import BoatFramework.Network.DeleteSteps
import BoatFramework.Network.Kinds
import Mathlib.Data.List.Nodup

namespace BoatFramework

open Fuse Exec

/-- A call of the network code of a protocol. -/
inductive NetworkCall where
  | create (kind : NetworkKind) (networkConfig : kind.Config)
      (storeType : BoatStoreType)
  | delete (kind : NetworkKind) (index : UInt8)
  | fetch (kind : NetworkKind) (index : UInt8)

def NetworkCall.kind : NetworkCall → NetworkKind
  | .create kind _ _ => kind
  | .delete kind _ => kind
  | .fetch kind _ => kind

/-- A call, with the index that was created, deleted or fetched. -/
def NetworkCall.run : NetworkCall → Nvram UInt8
  | .create kind networkConfig storeType =>
      networkCreate kind networkConfig storeType
  | .delete kind index => do
      networkDelete kind.protocol index
      pure index
  | .fetch kind index => do
      let _ ← getNetworkByIndex kind index
      pure index

/-- The device after a call. -/
def NetworkCall.after (call : NetworkCall) (d : Device) (fuse : Option Nat) :
    Device :=
  match call.run ⟨d, fuse⟩ with
  | .ok _ s => s.state
  | .error _ s => s.state

/-- The networks as they are read from the bytes of the store. -/
def Device.storedNetworks (d : Device) (storeType : BoatStoreType) :
    Option (List NetworkRecord) :=
  d.readRecords NetworkRecord.read .network storeType

/-- The networks in flash. -/
def Device.networks (d : Device) : List NetworkRecord :=
  (d.storedNetworks .flash).getD []

/-- No index stands for two networks, whatever their protocols. -/
structure TidyNetworks (networks : List NetworkRecord) : Prop where
  distinct : (networks.map (·.index)).Nodup
  inRange : ∀ network ∈ networks, network.index ∈ persistentIndices

/-- A call of a protocol that is compiled in; a create call stores what fits
and meets no fault. -/
def NetworkCall.Clear (unpack : NetworkUnpack) (fuse : Option Nat) :
    NetworkCall → Prop
  | .create kind networkConfig _ =>
      kind ∈ boatNetworks unpack ∧ kind.Fits networkConfig ∧ fuse = none
  | .delete kind _ => kind ∈ boatNetworks unpack
  | .fetch kind _ => kind ∈ boatNetworks unpack

/-- The devices of runs from a device without a store of networks. -/
inductive NetworksReachable (unpack : NetworkUnpack) : Device → Prop where
  | erased {d : Device} (herased : d.Unset .network .flash) :
      NetworksReachable unpack d
  | step {d : Device} (call : NetworkCall) (fuse : Option Nat)
      (hreach : NetworksReachable unpack d) (hclear : call.Clear unpack fuse) :
      NetworksReachable unpack (call.after d fuse)

variable {unpack : NetworkUnpack} {d d' : Device} {kind : NetworkKind}
  {network : NetworkRecord} {networks front back : List NetworkRecord}
  {protocol : BoatProtocolType} {index : UInt8} {fuse : Option Nat}

theorem TidyNetworks.few (htidy : TidyNetworks networks) :
    networks.length ≤ 5 := by
  have hsubset : networks.map (·.index) ⊆ persistentIndices := by
    intro index hindex
    obtain ⟨network, hnetwork, rfl⟩ := List.mem_map.mp hindex
    exact htidy.inRange network hnetwork
  have hlength := (htidy.distinct.subperm hsubset).length_le
  rw [List.length_map] at hlength
  exact hlength

theorem tidyNetworks_nil : TidyNetworks [] :=
  ⟨List.nodup_nil, fun _ hnetwork => by cases hnetwork⟩

theorem TidyNetworks.sublist (htidy : TidyNetworks networks)
    (hsublist : front.Sublist networks) : TidyNetworks front where
  distinct := htidy.distinct.sublist (hsublist.map _)
  inRange network hnetwork := htidy.inRange network (hsublist.subset hnetwork)

theorem TidyNetworks.add (htidy : TidyNetworks networks)
    (hfree : firstFree (networks.map (·.index)) = some network.index) :
    TidyNetworks (networks ++ [network]) where
  distinct := by
    rw [List.map_append, List.map_singleton]
    refine List.Nodup.append htidy.distinct (List.nodup_singleton _) ?_
    exact List.disjoint_singleton.mpr (firstFree_mem hfree).2
  inRange other hother := by
    rcases List.mem_append.mp hother with hold | hnew
    · exact htidy.inRange other hold
    · rw [List.mem_singleton.mp hnew]
      exact (firstFree_mem hfree).1

theorem Device.Region.storedNetworks {storeType : BoatStoreType}
    (hheld : d.HoldsNetworks storeType networks)
    (hcount : networks.length < 0x100) :
    d.storedNetworks storeType = some networks :=
  hheld.readRecords_eq hcount fun network _ rest => network.read_record rest

theorem Device.Region.networks_eq (hheld : d.HoldsNetworks .flash networks)
    (htidy : TidyNetworks networks) : d.networks = networks := by
  have hfew := htidy.few
  rw [Device.networks, hheld.storedNetworks (by omega)]
  rfl

/-- Only the file holds the networks in flash. -/
theorem holdsNetworks_of_file (hfile : d'.file = d.file)
    (hheld : d.HoldsNetworks .flash networks) :
    d'.HoldsNetworks .flash networks := by
  have hbytes : d'.bytes .network .flash = d.bytes .network .flash :=
    congrArg Subtype.val hfile
  rcases hheld with ⟨hnil, hunset⟩ | hholds
  · refine Or.inl ⟨hnil, ?_⟩
    rw [Device.Unset, hbytes]
    exact hunset
  · refine Or.inr ⟨?_, hholds.2⟩
    rw [hbytes]
    exact hholds.1

theorem holdsNetworks_of_flash (hflash : d'.flash = d.flash)
    (hheld : d.HoldsNetworks .flash networks) :
    d'.HoldsNetworks .flash networks := by
  refine holdsNetworks_of_file ?_ hheld
  rw [Device.file, hflash, Device.file]

section Fits

variable {networkConfig : kind.Config} {networkData : List UInt8}

theorem NetworkKind.Fits.coded (hfits : kind.Fits networkConfig)
    {failure : Failure}
    (hstored : kind.storedForm networkConfig index = .error failure) :
    failure.Coded := by
  have hform := hfits index
  rw [hstored] at hform
  exact hform

/-- A body whose stored form is short fits the two bytes of its length. -/
theorem addLWithOffset_short {body : List UInt8} (htwo : 2 ≤ body.length)
    (hshort : (addLWithOffset body).length < 3 + 0x10000) :
    body.length < 0x10000 ∧ addLWithOffset body = LengthValue.encode body := by
  have hne : body ≠ [] := List.ne_nil_of_length_pos (by omega)
  have hlen : body.length < 0x10000 := by
    by_contra hlong
    have hthree : (lengthBytes body.length).length = 3 := by
      rw [lengthBytes, if_neg (by omega), if_neg (by omega)]
      rfl
    rw [addLWithOffset, if_neg (by omega), List.length_append, hthree] at hshort
    omega
  exact ⟨hlen, addLWithOffset_eq_encode hne hlen⟩

/-- A configuration that fits is stored as a record. -/
theorem NetworkKind.Fits.record (hlawful : kind.Lawful)
    (hfits : kind.Fits networkConfig) (hindex : index ≠ 0)
    (hstored : kind.storedForm networkConfig index = .ok networkData) :
    ∃ network : NetworkRecord, network.Is kind.protocol index ∧
      networkData = LengthValue.encode network.body := by
  have hform := hfits index
  rw [hstored] at hform
  obtain ⟨_, _, hstored⟩ := except_bind_eq_ok.mp hstored
  obtain ⟨data, hfilled, hstored⟩ := except_bind_eq_ok.mp hstored
  have hsame := hlawful.index_eq _ _ _ hfilled
  obtain ⟨body, htwo, rfl⟩ := hlawful.stored _ _ hstored (by rwa [hsame])
  obtain ⟨hlen, hencode⟩ := addLWithOffset_short htwo hform
  exact ⟨⟨kind.protocol, index, body, htwo, hlen⟩, ⟨rfl, rfl⟩, hencode⟩

end Fits

/-- What a create call that stores what fits leaves in flash. -/
inductive NetworkAdded (networks : List NetworkRecord)
    (kind : NetworkKind) (networkConfig : kind.Config) :
    Except Failure UInt8 → Fused Device → Prop where
  | added (network : NetworkRecord) (t : Fused Device)
      (free : firstFree (networks.map (·.index)) = some network.index)
      (protocol : network.protocol = kind.protocol)
      (stored : kind.storedForm networkConfig network.index =
        .ok (LengthValue.encode network.body))
      (region : t.state.HoldsNetworks .flash (networks ++ [network])) :
      NetworkAdded networks kind networkConfig (.ok network.index) t
  | refused (code : BoatResult) (t : Fused Device)
      (region : t.state.HoldsNetworks .flash networks) :
      NetworkAdded networks kind networkConfig (.error (.code code)) t

theorem networkCreate_adds {networkConfig : kind.Config}
    (hheld : d.HoldsNetworks .flash networks) (htidy : TidyNetworks networks)
    (hlawful : kind.Lawful) (hfits : kind.Fits networkConfig) :
    Ends (networkCreate kind networkConfig .flash) ⟨d, none⟩
      (NetworkAdded networks kind networkConfig) := by
  have hfew := htidy.few
  have hrecord (index : UInt8) (networkData : List UInt8)
      (hindex : index ∈ persistentIndices)
      (hstored : kind.storedForm networkConfig index = .ok networkData) :=
    hfits.record hlawful (mem_persistentIndices hindex).1 hstored
  refine (networkCreate_ends hheld hlawful (by omega) ?_).mono ?_
  · intro index networkData hindex hstored
    obtain ⟨network, _, rfl⟩ := hrecord index _ hindex hstored
    have hdata := network.length_data
    have hbounds := network.length_record_bounds
    exact ⟨LengthValue.encode_ne_nil _, by omega⟩
  · intro r t hcreated
    cases hcreated with
    | added index networkData hroom hfree hstored =>
        obtain ⟨network, ⟨rfl, hprotocol⟩, rfl⟩ := hrecord index _
          (firstFree_mem hfree).1 hstored
        have hdata := network.length_data
        have hbounds := network.length_record_bounds
        have hlen : (LengthValue.encode network.body).length < 0x80000000 := by
          omega
        have hfit := networks_fit hroom hlen
        have hregion := hheld.writeNetwork network (by omega)
        rw [hprotocol] at hregion
        exact .added network _ hfree hprotocol hstored hregion
    | refused failure hwhy =>
        have hcoded : failure.Coded := by
          rcases hwhy with hcoded | ⟨index, hstored⟩
          · exact hcoded
          · exact hfits.coded hstored
        obtain ⟨code, rfl⟩ := hcoded
        exact .refused code _ hheld

theorem readNetworkIndices_preserves {γ : Type} {view : Device → γ}
    (num offset : Nat) : Preserves view (readNetworkIndices num offset) := by
  induction num generalizing offset with
  | zero => exact Preserves.pure
  | succ left ih =>
      refine (readByte_preserves _ _ _).bind fun _ => ?_
      refine (readLength_preserves _ _ _).bind fun _ => ?_
      exact (ih _).bind fun _ => Preserves.pure

theorem getFreeNetworkIndex_preserves {γ : Type} {view : Device → γ} :
    Preserves view getFreeNetworkIndexFromPersistent := by
  refine (readNumOrZero_preserves _ _).bind fun num => ?_
  refine Preserves.failIf.bind fun _ => ?_
  refine (readNetworkIndices_preserves num 4).bind fun indices => ?_
  cases firstFree indices with
  | none => exact Preserves.throw
  | some index => exact Preserves.pure

/-- A create call leaves what its stores leave. -/
theorem networkCreate_preserves {γ : Type} {view : Device → γ}
    {networkConfig : kind.Config} {storeType : BoatStoreType}
    (hstore : ∀ offset data, Preserves view
      (boatStoreSoftRotNvram .network offset data storeType)) :
    Preserves view (networkCreate kind networkConfig storeType) := by
  have hskip : ∀ num offset,
      Preserves view (skipNetworks storeType num offset) := by
    intro num
    induction num with
    | zero => exact fun _ => Preserves.pure
    | succ left ih =>
        exact fun _ => (readLength_preserves _ _ _).bind fun _ => ih _
  have happend (data : kind.Data) (num : Nat) :
      Preserves view (appendNetwork kind data storeType num) := by
    refine (hskip num 4).bind fun _ => (ofOutcome_preserves _).bind fun _ => ?_
    refine Preserves.tick.bind fun _ => (hstore _ _).bind fun _ => ?_
    exact (hstore _ _).bind fun _ => (hstore _ _).bind fun _ => hstore _ _
  have hindex : Preserves view (newNetworkIndex storeType) := by
    cases storeType with
    | flash => exact getFreeNetworkIndex_preserves
    | unknown | ram => exact Preserves.pure
  refine (ofOutcome_preserves _).bind fun _ => hindex.bind fun _ => ?_
  refine (ofOutcome_preserves _).bind fun data => ?_
  exact (storeCounted_preserves (happend data)).bind fun _ => Preserves.pure

section Fetch

variable {γ : Type} {view : Device → γ}

theorem readNetworkNum_preserves (storeType : BoatStoreType) :
    Preserves view (readNetworkNum storeType) := by
  refine (read_preserves _ _ _ _).bind fun _ => ?_
  split
  next => exact Preserves.throw
  next => exact Preserves.failIf.bind fun _ => Preserves.pure

theorem readParam_preserves (frame : NetworkFrame) (storeType : BoatStoreType)
    (given : Option Nat) (size offset : Nat) :
    Preserves view (readParam frame storeType given size offset) := by
  refine (readLength_preserves _ _ _).bind fun _ => ?_
  refine Preserves.failIf.bind fun _ => Preserves.failIf.bind fun _ => ?_
  refine (read_preserves _ _ _ _).bind fun _ => ?_
  exact Preserves.failIf.bind fun _ => Preserves.pure

theorem boatEthGetNetworkFromNvram_preserves (startAddr : Nat)
    (storeType : BoatStoreType) :
    Preserves view (boatEthGetNetworkFromNvram startAddr storeType) := by
  refine (readLength_preserves _ _ _).bind fun _ => ?_
  refine (readParam_preserves _ _ _ _ _).bind fun _ => ?_
  refine (readParam_preserves _ _ _ _ _).bind fun _ => ?_
  refine (readParam_preserves _ _ _ _ _).bind fun _ => ?_
  exact (readParam_preserves _ _ _ _ _).bind fun _ => Preserves.pure

theorem packedNetworkFromNvram_preserves {Message Data : Type}
    (unpack : List UInt8 → Option Message)
    (getNetworkFromProto : Message → Outcome Data) (startAddr : Nat)
    (storeType : BoatStoreType) :
    Preserves view (packedNetworkFromNvram unpack getNetworkFromProto startAddr
      storeType) := by
  refine (readLength_preserves _ _ _).bind fun _ => Preserves.tick.bind fun _ => ?_
  refine (read_preserves _ _ _ _).bind fun networkcontent => ?_
  cases unpack networkcontent with
  | none => exact Preserves.throw
  | some message => exact withCode_preserves (ofOutcome_preserves _)

theorem getNetworkFromNvram_preserves (hkind : kind ∈ boatNetworks unpack)
    (startAddr : Nat) (storeType : BoatStoreType) :
    Preserves view (kind.getNetworkFromNvram startAddr storeType) := by
  simp only [boatNetworks, List.mem_cons, List.not_mem_nil, or_false] at hkind
  rcases hkind with rfl | rfl | rfl | rfl | rfl | rfl | rfl | rfl | rfl | rfl
  · exact boatEthGetNetworkFromNvram_preserves startAddr storeType
  · exact packedNetworkFromNvram_preserves _ _ startAddr storeType
  · exact boatEthGetNetworkFromNvram_preserves startAddr storeType
  · exact boatEthGetNetworkFromNvram_preserves startAddr storeType
  · exact boatEthGetNetworkFromNvram_preserves startAddr storeType
  · exact packedNetworkFromNvram_preserves _ _ startAddr storeType
  · exact packedNetworkFromNvram_preserves _ _ startAddr storeType
  · exact boatEthGetNetworkFromNvram_preserves startAddr storeType
  · exact boatEthGetNetworkFromNvram_preserves startAddr storeType
  · exact packedNetworkFromNvram_preserves _ _ startAddr storeType

theorem readNetworkAt_preserves (hkind : kind ∈ boatNetworks unpack)
    (storeType : BoatStoreType) (num offset : Nat) :
    Preserves view (readNetworkAt kind index storeType num offset) := by
  induction num generalizing offset with
  | zero => exact Preserves.throw
  | succ left ih =>
      refine (read_preserves _ _ _ _).bind fun _ => ?_
      refine (readByte_preserves _ _ _).bind fun _ => ?_
      refine Preserves.ite (fun _ => ?_) fun _ => ?_
      · exact getNetworkFromNvram_preserves hkind _ storeType
      · exact (readLength_preserves _ _ _).bind fun _ => ih _

/-- A fetch call changes nothing. -/
theorem getNetworkByIndex_preserves (hkind : kind ∈ boatNetworks unpack)
    (index : UInt8) : Preserves view (getNetworkByIndex kind index) := by
  refine Preserves.failIf.bind fun _ => ?_
  exact (readNetworkNum_preserves _).bind fun num =>
    readNetworkAt_preserves hkind _ num 4

end Fetch

theorem NetworkCall.after_of_ends {call : NetworkCall}
    {Q : Except Failure UInt8 → Fused Device → Prop} {P : Device → Prop}
    (hends : Ends call.run ⟨d, fuse⟩ Q) (hQP : ∀ r t, Q r t → P t.state) :
    P (call.after d fuse) := by
  obtain ⟨r, t, hrun, hlast⟩ := hends
  rw [NetworkCall.after, hrun]
  cases r with
  | ok _ => exact hQP _ t hlast
  | error _ => exact hQP _ t hlast

theorem NetworkCall.after_create {networkConfig : kind.Config}
    {storeType : BoatStoreType} {s : Fused Device}
    (hrun : networkCreate kind networkConfig storeType ⟨d, fuse⟩ =
      .ok index s) :
    (NetworkCall.create kind networkConfig storeType).after d fuse =
      s.state := by
  rw [NetworkCall.after, NetworkCall.run, hrun]

/-- A device whose networks in flash are tidy. -/
def Device.HasTidyNetworks (d : Device) : Prop :=
  ∃ networks, d.HoldsNetworks .flash networks ∧ TidyNetworks networks

/-- Under a count that is lowered all networks stand but the last. -/
theorem lowerNetworks_region
    (hheld : d.HoldsNetworks .flash (front ++ network :: back)) :
    (d.lowerNetworks front back).HoldsNetworks .flash
      (front ++ network :: back).dropLast := by
  have hne : front ++ network :: back ≠ [] := by simp
  have hbody := lowerNetworks_body hheld
  rw [← networkBytes_cons, ← networkBytes_append,
    ← List.dropLast_append_getLast hne, networkBytes_append] at hbody
  have hlen : ((front ++ network :: back).dropLast.map
      NetworkRecord.record).length = (front ++ back).length := by
    simp only [List.length_append, List.length_map, List.length_dropLast,
      List.length_cons]
    omega
  right
  refine holds_append.mpr ⟨?_, (holds_append.mp hbody).1⟩
  rw [hlen]
  exact lowerNetworks_count d front back

/-- After a delete, whether it fails or not, the networks are among those that
were there, in their order. -/
theorem NetworkDeleted.sublist {r : Except Failure Unit} {t : Fused Device}
    (hheld : d.HoldsNetworks .flash (front ++ network :: back))
    (hdeleted : NetworkDeleted d front network back fuse r t) :
    ∃ kept, t.state.HoldsNetworks .flash kept ∧
      kept.Sublist (front ++ network :: back) := by
  cases hdeleted with
  | removed _ _ hregion =>
      exact ⟨_, hregion, (List.sublist_cons_self network back).append_left
        front⟩
  | unlowered _ k code _ _ hsame =>
      rw [hsame]
      exact ⟨_, hheld, List.Sublist.refl _⟩
  | torn _ k code _ _ _ hbehind hcount =>
      refine ⟨_, ?_, List.dropLast_sublist _⟩
      rw [hcount]
      exact lowerNetworks_region hheld
  | recounted _ k code _ _ hsame =>
      exact ⟨_, holdsNetworks_of_file hsame hheld, List.Sublist.refl _⟩

theorem NetworkDeleteEnd.sublist {r : Except Failure Unit} {t : Fused Device}
    (hheld : d.HoldsNetworks .flash networks)
    (hend : NetworkDeleteEnd d networks protocol index fuse r t) :
    ∃ kept, t.state.HoldsNetworks .flash kept ∧ kept.Sublist networks := by
  cases hend with
  | present front network back hsplit _ _ _ _ _ hdeleted =>
      subst hsplit
      exact hdeleted.sublist hheld
  | onetime _ _ _ hsame =>
      exact ⟨_, holdsNetworks_of_flash hsame hheld, List.Sublist.refl _⟩
  | absent code _ _ hsame =>
      rw [hsame]
      exact ⟨_, hheld, List.Sublist.refl _⟩

theorem NetworkAdded.tidy {networkConfig : kind.Config}
    {r : Except Failure UInt8} {t : Fused Device}
    (htidy : TidyNetworks networks)
    (hadded : NetworkAdded networks kind networkConfig r t) :
    t.state.HasTidyNetworks := by
  cases hadded with
  | added network _ hfree _ _ hregion => exact ⟨_, hregion, htidy.add hfree⟩
  | refused code _ hregion => exact ⟨_, hregion, htidy⟩

/-- A clear call keeps the networks tidy. -/
theorem NetworkCall.Clear.tidy {call : NetworkCall}
    (htidy : d.HasTidyNetworks) (hclear : call.Clear unpack fuse) :
    (call.after d fuse).HasTidyNetworks := by
  obtain ⟨networks, hheld, htidy⟩ := htidy
  have hfew := htidy.few
  have hflash {c : Nvram UInt8} (hpreserves : Preserves Device.flash c) :
      Ends c ⟨d, fuse⟩ fun _ t => t.state.HasTidyNetworks :=
    (hpreserves ⟨d, fuse⟩).mono fun _ _ hsame =>
      ⟨networks, holdsNetworks_of_flash hsame hheld, htidy⟩
  cases call with
  | create kind networkConfig storeType =>
      obtain ⟨hkind, hfits, rfl⟩ := hclear
      by_cases hstore : storeType = .flash
      · subst hstore
        exact after_of_ends (networkCreate_adds hheld htidy
          (boatNetworks_lawful hkind) hfits) fun _ _ hadded => hadded.tidy htidy
      · exact after_of_ends (hflash (networkCreate_preserves
          (store_preserves_flash hstore .network)))
          fun _ _ hlast => hlast
  | delete kind index =>
      have hkept {r : Except Failure Unit} {t : Fused Device}
          (hend : NetworkDeleteEnd d networks kind.protocol index fuse r t) :
          t.state.HasTidyNetworks := by
        obtain ⟨kept, hheldAfter, hsublist⟩ := hend.sublist hheld
        exact ⟨kept, hheldAfter, htidy.sublist hsublist⟩
      have hends : Ends (NetworkCall.delete kind index).run ⟨d, fuse⟩
          fun _ t => t.state.HasTidyNetworks := by
        refine (networkDelete_ends hheld (by omega) kind.protocol index
          fuse).bind ?_ ?_
        · exact fun _ _ hend => Ends.pure (hkept hend)
        · exact fun _ _ hend => hkept hend
      exact after_of_ends hends fun _ _ hlast => hlast
  | fetch kind index =>
      exact after_of_ends (hflash ((getNetworkByIndex_preserves hclear
        index).bind fun _ => Preserves.pure)) fun _ _ hlast => hlast

theorem NetworksReachable.tidy (hreach : NetworksReachable unpack d) :
    d.HasTidyNetworks := by
  induction hreach with
  | erased herased => exact ⟨[], Or.inl ⟨rfl, herased⟩, tidyNetworks_nil⟩
  | step call fuse _ hclear ih => exact hclear.tidy ih

/-- A network of Ethereum, as the configuration of a first and of a second
one. -/
def plainEthConfig : BoatEthNetworkConfig :=
  ⟨1, true, ⟨0x61 :: List.replicate 126 0, rfl⟩⟩

def noUnpack : NetworkUnpack :=
  ⟨fun _ => none, fun _ => none, fun _ => none⟩

theorem plainEthConfig_clear :
    (NetworkCall.create boatEthNetwork plainEthConfig .flash).Clear noUnpack
      none :=
  ⟨List.mem_cons_self, ethNetworkKind_fits .ethereum (by decide), rfl⟩

/-- The device with two networks. -/
def twoNetworksDevice : Device :=
  (NetworkCall.create boatEthNetwork plainEthConfig .flash).after
    ((NetworkCall.create boatEthNetwork plainEthConfig .flash).after
      blankDevice none) none

theorem twoNetworksDevice_reachable :
    NetworksReachable noUnpack twoNetworksDevice := by
  have hunset : blankDevice.Unset .network .flash := Or.inl (Nat.zero_le _)
  revert hunset
  unfold twoNetworksDevice
  generalize blankDevice = d
  intro hunset
  exact .step _ none (.step _ none (.erased hunset) plainEthConfig_clear)
    plainEthConfig_clear

end BoatFramework
