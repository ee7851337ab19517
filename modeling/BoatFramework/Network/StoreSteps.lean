/-
Storing a network in flash where storage operations succeed: it gets the first
index that no network has, whatever its protocol, and lies behind the others.
-/
import BoatFramework.Base.Exec
import BoatFramework.Network.Record

namespace BoatFramework

open Fuse Exec

variable {d : Device} {network : NetworkRecord} {networks : List NetworkRecord}
  {kind : NetworkKind} {offset : Nat}

theorem getFreeNetworkIndex_spared (hheld : d.HoldsNetworks .flash networks)
    (hroom : networks.length < 5) :
    ∃ index, firstFree (networks.map (·.index)) = some index ∧
      Spared getFreeNetworkIndexFromPersistent d (1 + 2 * networks.length)
        (.ok index) d := by
  have hnum := readNumOrZero_spared hheld (by decide) (by
    rw [List.length_map]
    omega)
  rw [List.length_map] at hnum
  have hindices := (readNetworkIndices_runs fun hne =>
    hheld.networkBody hne).spared
  have hfew : (networks.map (·.index)).length < 5 := by
    rwa [List.length_map]
  obtain ⟨index, hfree⟩ := firstFree_of_few hfew
  refine ⟨index, hfree, hnum.bind (Spared.pass ?_ (hindices.map ?_))⟩
  · exact Nat.not_le.mpr hroom
  · simp only [hfree]

/-- Where all indices are taken no network is created. -/
theorem getFreeNetworkIndex_full (hheld : d.HoldsNetworks .flash networks)
    (hfull : 5 ≤ networks.length) (hcount : networks.length < 0x100) :
    Spared getFreeNetworkIndexFromPersistent d 1
      (.error (.code boatErrorNetworkIndexExceed)) d := by
  have hnum := readNumOrZero_spared hheld (by decide) (by
    rwa [List.length_map])
  rw [List.length_map] at hnum
  refine hnum.bind (b := 0) ?_
  exact Spared.stop hfull

/-- The device after the pieces of a record and then the count are written. -/
def Device.writeNetworkIn (d : Device) (storeType : BoatStoreType)
    (offset num : Nat) (protocol : BoatProtocolType) (index : UInt8)
    (networkData : List UInt8) : Device :=
  (((d.put .network storeType offset protocol.bytes).put .network storeType
      (offset + 4) [index]).put .network storeType (offset + 5)
        networkData).put .network storeType 0 (utilityGetNumBytes (num + 1))

/-- The device after the pieces of a record and then the count are written. -/
def Device.writeNetwork (d : Device) (offset num : Nat)
    (protocol : BoatProtocolType) (index : UInt8) (networkData : List UInt8) :
    Device :=
  (((d.put .network .flash offset protocol.bytes).put .network .flash
      (offset + 4) [index]).put .network .flash (offset + 5)
        networkData).put .network .flash 0 (utilityGetNumBytes (num + 1))

section Write

variable {storeType : BoatStoreType} {protocol : BoatProtocolType}
  {index : UInt8} {networkData : List UInt8}

variable (d protocol index) in
theorem writeNetworkIn_spared (hknown : storeType ≠ .unknown)
    (hne : networkData ≠ [])
    (hfits : offset + 5 + networkData.length ≤
      BoatStoreFile.network.room storeType) (num : Nat) :
    Spared (writeNetwork protocol index networkData storeType num offset) d
      (4 * storeType.cost) (.ok ())
      (d.writeNetworkIn storeType offset num protocol index networkData) := by
  have hroom := BoatStoreFile.network.room_lt storeType
  have hfour : protocol.bytes.length = 4 := rfl
  have hadvance : advance offset 4 = offset + 4 ∧
      advance offset 5 = offset + 5 :=
    ⟨advance_of_lt (by omega), advance_of_lt (by omega)⟩
  unfold writeNetwork
  rw [hadvance.1, hadvance.2]
  refine Spared.cast (a := storeType.cost + (storeType.cost +
    (storeType.cost + storeType.cost))) ?_ (by omega)
  refine (store_runs d protocol.bytes hknown (List.cons_ne_nil _ _)
    (by omega)).spared.bind ?_
  refine (store_runs _ [index] hknown (List.cons_ne_nil _ _)
    (by rw [List.length_singleton]; omega)).spared.bind ?_
  refine (store_runs _ _ hknown hne hfits).spared.bind ?_
  exact (store_runs _ _ hknown (by simp [utilityGetNumBytes])
    (BoatStoreFile.four_le_room .network storeType)).spared

variable (protocol index) in
theorem writeNetwork_spared (hne : networkData ≠ [])
    (hfits : offset + 5 + networkData.length ≤
      BoatStoreFile.network.room .flash) (num : Nat) :
    Spared (writeNetwork protocol index networkData .flash num offset) d 4
      (.ok ()) (d.writeNetwork offset num protocol index networkData) :=
  writeNetworkIn_spared d protocol index (by decide) hne hfits num

variable (protocol index networkData) in
/-- What is written stands behind the networks, and the count in front. -/
theorem holds_writeNetworkIn
    (hbody : networks ≠ [] →
      d.Holds .network storeType 4 (networkBytes networks))
    (hfits : 4 + (networkBytes networks).length + 5 + networkData.length ≤
      BoatStoreFile.network.room storeType) :
    (d.writeNetworkIn storeType (4 + (networkBytes networks).length)
      networks.length protocol index networkData).Holds .network storeType 0
        (utilityGetNumBytes (networks.length + 1) ++ (networkBytes networks ++
          (protocol.bytes ++ ([index] ++ networkData)))) := by
  have hfour : protocol.bytes.length = 4 := rfl
  have hfirst : 4 + (networkBytes networks).length + protocol.bytes.length ≤
      BoatStoreFile.network.room storeType := by omega
  have hsecond : 4 + (networkBytes networks).length + 4 + [index].length ≤
      BoatStoreFile.network.room storeType := by
    rw [List.length_singleton]
    omega
  have hcount := BoatStoreFile.four_le_room .network storeType
  have hprotocol := (holds_put (d := d) hfirst).put_before hsecond (by omega)
  have hindex := holds_put (d := d.put .network storeType
    (4 + (networkBytes networks).length) protocol.bytes) hsecond
  have hnew := holds_append.mpr ⟨hprotocol.put_before hfits (by omega),
    holds_append.mpr ⟨hindex.put_before hfits (by
      rw [List.length_singleton]), holds_put hfits⟩⟩
  refine holds_append.mpr ⟨holds_put hcount, ?_⟩
  refine Device.Holds.put_after ?_ hcount (Nat.le_refl _)
  by_cases hnil : networks = []
  · subst hnil
    exact hnew
  · have hold := hbody hnil
    exact holds_append.mpr ⟨((hold.put_before hfirst (Nat.le_refl _)).put_before
      hsecond (by omega)).put_before hfits (by omega), hnew⟩

variable (protocol index) in
theorem holds_writeNetwork (hheld : d.HoldsNetworks .flash networks)
    (hfits : 4 + (networkBytes networks).length + 5 + networkData.length ≤
      BoatStoreFile.network.room .flash) :
    (d.writeNetwork (4 + (networkBytes networks).length) networks.length
      protocol index networkData).Holds .network .flash 0
        (utilityGetNumBytes (networks.length + 1) ++ (networkBytes networks ++
          (protocol.bytes ++ ([index] ++ networkData)))) :=
  holds_writeNetworkIn protocol index networkData hheld.networkBody hfits

end Write

/-- The network data of a record behind its protocol type and index. -/
theorem NetworkRecord.length_data (network : NetworkRecord) :
    5 + (LengthValue.encode network.body).length = network.record.length := by
  rw [network.length_record, LengthValue.length_encode,
    ← utilityGetTLVLLFromLen_eq]

/-- The network lies behind the others. -/
theorem holdsNetworks_writeNetworkIn {storeType : BoatStoreType}
    (network : NetworkRecord)
    (hbody : networks ≠ [] →
      d.Holds .network storeType 4 (networkBytes networks))
    (hfits : 4 + (networkBytes networks).length + network.record.length ≤
      BoatStoreFile.network.room storeType) :
    (d.writeNetworkIn storeType (4 + (networkBytes networks).length)
      networks.length network.protocol network.index
        (LengthValue.encode network.body)).HoldsNetworks storeType
          (networks ++ [network]) := by
  have hdata := network.length_data
  have hfits : 4 + (networkBytes networks).length + 5 +
      (LengthValue.encode network.body).length ≤
        BoatStoreFile.network.room storeType := by omega
  have hholds := holds_writeNetworkIn network.protocol network.index _ hbody hfits
  right
  rw [List.length_map, List.length_append, List.length_singleton,
    List.map_append, List.flatten_append, List.map_singleton,
    List.flatten_singleton]
  exact hholds

variable (network) in
theorem Device.Region.writeNetwork (hheld : d.HoldsNetworks .flash networks)
    (hfits : 4 + (networkBytes networks).length + network.record.length ≤
      BoatStoreFile.network.room .flash) :
    (d.writeNetwork (4 + (networkBytes networks).length) networks.length
      network.protocol network.index
        (LengthValue.encode network.body)).HoldsNetworks .flash
          (networks ++ [network]) :=
  holdsNetworks_writeNetworkIn network hheld.networkBody hfits

/-- Five networks have room in the file. -/
theorem networks_fit (hfew : networks.length < 5)
    {networkData : List UInt8} (hdata : networkData.length < 0x80000000) :
    4 + (networkBytes networks).length + 5 + networkData.length ≤
      BoatStoreFile.network.room .flash := by
  have hbytes := length_networkBytes_le networks
  have hroom : BoatStoreFile.network.room .flash = 2 ^ 32 - 1 - 1472 := rfl
  omega

section Store

variable {data : kind.Data} {networkData : List UInt8}
  (hheld : d.HoldsNetworks .flash networks)

include hheld

theorem networkDataCtxStore_spared (hroom : networks.length < 5)
    (hdata : kind.getNetworkData data = .ok networkData)
    (hne : networkData ≠ [])
    (hfits : 4 + (networkBytes networks).length + 5 + networkData.length ≤
      BoatStoreFile.network.room .flash) :
    Spared (networkDataCtxStore kind data .flash) d (6 + networks.length)
      (.ok ())
      (d.writeNetwork (4 + (networkBytes networks).length) networks.length
        kind.protocol (kind.networkIndex data) networkData) := by
  have hskip := (skipNetworks_runs (fun hne => hheld.networkBody hne)
    (by decide)).spared
  have hmalloc : Reads (boatMalloc kind.mallocError) d 1 (.ok ()) :=
    Runs.tick ⟨_, rfl⟩ rfl
  have hwrite := writeNetwork_spared (d := d) kind.protocol
    (kind.networkIndex data) hne hfits networks.length
  have happend : Spared (appendNetwork kind data .flash networks.length) d
      (networks.length * 1 + (0 + (1 + 4))) (.ok ())
      (d.writeNetwork (4 + (networkBytes networks).length) networks.length
        kind.protocol (kind.networkIndex data) networkData) := by
    have houtcome : Reads (ofOutcome (kind.getNetworkData data)) d 0
        (.ok networkData) := Runs.inspect hdata
    exact hskip.bind (houtcome.spared.bind (hmalloc.spared.bind hwrite))
  have hlen : (networks.map NetworkRecord.record).length = networks.length :=
    List.length_map _
  refine Spared.cast (a := 1 + (networks.length * 1 + (0 + (1 + 4))))
    (storeCounted_spared hheld ?_ (by decide) ?_) (by omega)
  · rw [hlen]
    exact hroom
  · rw [hlen]
    exact happend

theorem networkDataCtxStore_refused {failure : Failure}
    (hroom : networks.length < 5)
    (hdata : kind.getNetworkData data = .error failure) :
    Spared (networkDataCtxStore kind data .flash) d (1 + networks.length)
      (.error failure) d := by
  have hskip := (skipNetworks_runs (fun hne => hheld.networkBody hne)
    (by decide)).spared
  have houtcome : Reads (ofOutcome (kind.getNetworkData data)) d 0
      (.error failure) := Runs.inspect hdata
  have happend : Spared (appendNetwork kind data .flash networks.length) d
      (networks.length * 1 + 0) (.error failure) d :=
    hskip.bind houtcome.spared.bind_error
  have hlen : (networks.map NetworkRecord.record).length = networks.length :=
    List.length_map _
  refine Spared.cast (a := 1 + (networks.length * 1 + 0))
    (storeCounted_spared hheld ?_ (by decide) ?_) (by omega)
  · rw [hlen]
    exact hroom
  · rw [hlen]
    exact happend

end Store

/-- The stored form of a configuration under an index. -/
def NetworkKind.storedForm (kind : NetworkKind) (networkConfig : kind.Config)
    (index : UInt8) : Outcome (List UInt8) := do
  kind.checkConfig networkConfig
  let data ← kind.networkData networkConfig index
  kind.getNetworkData data

/-- The texts of a configuration end inside their fields, and its stored form
fits the two bytes of its length. -/
def NetworkKind.Fits (kind : NetworkKind) (networkConfig : kind.Config) :
    Prop :=
  ∀ index, match kind.storedForm networkConfig index with
    | .ok networkData => networkData.length < 3 + 0x10000
    | .error failure => failure.Coded

/-- Network data has the index that it was made with, and what is stored of it
is a body of some bytes behind its length. -/
structure NetworkKind.Lawful (kind : NetworkKind) : Prop where
  index_eq : ∀ networkConfig index data,
    kind.networkData networkConfig index = .ok data →
      kind.networkIndex data = index
  stored : ∀ data networkData, kind.getNetworkData data = .ok networkData →
    kind.networkIndex data ≠ 0 →
      ∃ body, 2 ≤ body.length ∧ networkData = addLWithOffset body

/-- How a create call for flash ends where storage operations succeed: the
stored form of the network is written behind the others, or nothing is. -/
inductive NetworkCreated (d : Device) (networks : List NetworkRecord)
    (kind : NetworkKind) (networkConfig : kind.Config) :
    Except Failure UInt8 → Fused Device → Prop where
  | added (index : UInt8) (networkData : List UInt8)
      (room : networks.length < 5)
      (free : firstFree (networks.map (·.index)) = some index)
      (stored : kind.storedForm networkConfig index = .ok networkData) :
      NetworkCreated d networks kind networkConfig (.ok index)
        ⟨d.writeNetwork (4 + (networkBytes networks).length) networks.length
          kind.protocol index networkData, none⟩
  | refused (failure : Failure)
      (why : failure.Coded ∨
        ∃ index, kind.storedForm networkConfig index = .error failure) :
      NetworkCreated d networks kind networkConfig (.error failure) ⟨d, none⟩

section Create

variable {networkConfig : kind.Config} {networkData : List UInt8}
  {index : UInt8}

theorem storedForm_of_ok
    (hcheck : kind.checkConfig networkConfig = .ok ()) (index : UInt8) :
    kind.storedForm networkConfig index =
      (kind.networkData networkConfig index >>= kind.getNetworkData) := by
  rw [NetworkKind.storedForm, hcheck]
  rfl

theorem storedForm_ok
    (hstored : kind.storedForm networkConfig index = .ok networkData) :
    kind.checkConfig networkConfig = .ok () ∧
      ∃ data, kind.networkData networkConfig index = .ok data ∧
        kind.getNetworkData data = .ok networkData := by
  obtain ⟨_, hcheck, hstored⟩ := except_bind_eq_ok.mp hstored
  exact ⟨hcheck, except_bind_eq_ok.mp hstored⟩

variable (hheld : d.HoldsNetworks .flash networks) (hlawful : kind.Lawful)

include hheld hlawful

/-- A configuration with a stored form is stored where there is room. -/
theorem networkCreate_stores (hroom : networks.length < 5)
    (hfree : firstFree (networks.map (·.index)) = some index)
    (hstored : kind.storedForm networkConfig index = .ok networkData)
    (hne : networkData ≠ []) (hlen : networkData.length < 0x80000000) :
    networkCreate kind networkConfig .flash ⟨d, none⟩ =
      .ok index ⟨d.writeNetwork (4 + (networkBytes networks).length)
        networks.length kind.protocol index networkData, none⟩ := by
  obtain ⟨hcheck, data, hfilled, hdata⟩ := storedForm_ok hstored
  obtain ⟨free, hfirst, hindex⟩ := getFreeNetworkIndex_spared hheld hroom
  obtain rfl := Option.some.inj (hfirst.symm.trans hfree)
  have hstore := networkDataCtxStore_spared hheld hroom hdata hne
    (networks_fit hroom hlen)
  rw [hlawful.index_eq _ _ _ hfilled] at hstore
  have hcheckRun : Reads (ofOutcome (kind.checkConfig networkConfig)) d 0
      (.ok ()) := Runs.inspect hcheck
  have hfilledRun : Reads (ofOutcome (kind.networkData networkConfig free)) d 0
      (.ok data) := Runs.inspect hfilled
  have hall : Spared (networkCreate kind networkConfig .flash) d
      (0 + (1 + 2 * networks.length + (0 + (6 + networks.length)))) (.ok free)
      (d.writeNetwork (4 + (networkBytes networks).length) networks.length
        kind.protocol free networkData) :=
    hcheckRun.spared.bind (hindex.bind (hfilledRun.spared.bind
      (hstore.map rfl)))
  exact hall.run

theorem networkCreate_ends (hcount : networks.length < 0x100)
    (hstorable : ∀ index networkData, index ∈ persistentIndices →
      kind.storedForm networkConfig index = .ok networkData →
        networkData ≠ [] ∧ networkData.length < 0x80000000) :
    Ends (networkCreate kind networkConfig .flash) ⟨d, none⟩
      (NetworkCreated d networks kind networkConfig) := by
  by_cases hroom : networks.length < 5
  · obtain ⟨index, hfree, hindex⟩ := getFreeNetworkIndex_spared hheld hroom
    cases hstored : kind.storedForm networkConfig index with
    | ok networkData =>
        obtain ⟨hne, hlen⟩ := hstorable _ _ (firstFree_mem hfree).1 hstored
        exact Ends.of_ok (networkCreate_stores hheld hlawful hroom hfree hstored
          hne hlen) (.added index networkData hroom hfree hstored)
    | error failure =>
        refine ⟨.error failure, ⟨d, none⟩, ?_,
          .refused failure (Or.inr ⟨index, hstored⟩)⟩
        unfold networkCreate
        cases hcheck : kind.checkConfig networkConfig with
        | error e =>
            rw [NetworkKind.storedForm, hcheck] at hstored
            cases hstored
            rfl
        | ok _ =>
            rw [storedForm_of_ok hcheck] at hstored
            have hindexRun : newNetworkIndex .flash ⟨d, none⟩ =
                .ok index ⟨d, none⟩ := hindex.run
            have hcheckRun : (ofOutcome (.ok ()) : Nvram Unit) ⟨d, none⟩ =
                .ok () ⟨d, none⟩ := rfl
            refine (run_bind_ok hcheckRun).trans ?_
            refine (run_bind_ok hindexRun).trans ?_
            cases hfilled : kind.networkData networkConfig index with
            | error e =>
                rw [hfilled] at hstored
                cases hstored
                rfl
            | ok data =>
                rw [hfilled] at hstored
                have hrefused : kind.getNetworkData data = .error failure :=
                  hstored
                have hstore := networkDataCtxStore_refused hheld hroom hrefused
                have hfilledRun : (ofOutcome (.ok data) : Nvram kind.Data)
                    ⟨d, none⟩ = .ok data ⟨d, none⟩ := rfl
                refine (run_bind_ok hfilledRun).trans ?_
                exact run_bind_error hstore.run
  · have hfull := getFreeNetworkIndex_full hheld (Nat.not_lt.mp hroom) hcount
    unfold networkCreate
    refine (ofOutcome_ends _ _).bind ?_ ?_
    · rintro _ _ ⟨_, rfl⟩
      exact Ends.of_error (run_bind_error hfull.run)
        (.refused _ (Or.inl ⟨_, rfl⟩))
    · rintro failure _ ⟨hcheck, rfl⟩
      refine .refused failure (Or.inr ⟨0, ?_⟩)
      rw [NetworkKind.storedForm, ← hcheck]
      rfl

end Create

end BoatFramework
