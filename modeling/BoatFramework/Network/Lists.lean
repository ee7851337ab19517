/-
The list of the networks of a protocol: those in flash, then the one in RAM.
The code counts the networks of all protocols and copies those of its own.
-/
import BoatFramework.Network.EthRoundTrip
import BoatFramework.Network.Onetime

namespace BoatFramework

open Fuse Exec

/-- A list that was filled in: the number it says, and its entries. -/
structure NetworkList (Data : Type) where
  networkNum : Nat
  networks : List Data

/-- Read the networks of a protocol among a number of records into the places
of an array from `index` on; a place outside it is undefined.  The length that
the reader of a network returns is read once more. -/
def readNetworksOf (kind : NetworkKind) (capacity : Nat)
    (storeType : BoatStoreType) : Nat → Nat → Nat → Nvram (List kind.Data)
  | 0, _, _ => pure []
  | left + 1, offset, index => do
      let protocolType ← boatReadSoftRotNvram .network offset 4 storeType
      if enumOfBytes protocolType = kind.protocol.value then do
        failIf (capacity ≤ index) .undefined
        let data ← kind.getNetworkFromNvram (advance offset 5) storeType
        let networkDataLength ← readLength .network (advance offset 5) storeType
        let networks ← readNetworksOf kind capacity storeType left
          (nextNetwork offset networkDataLength) (index + 1)
        pure (data :: networks)
      else do
        let networkDataLength ← readLength .network (advance offset 5) storeType
        readNetworksOf kind capacity storeType left
          (nextNetwork offset networkDataLength) index

/-- The number of networks in RAM; none where it is not set. -/
def readOnetimeNum : Nvram Nat := do
  let networknumBytes ← boatReadSoftRotNvram .network 0 4 .ram
  match utilityCheckNumBytes networknumBytes with
  | .error _ => pure 0
  | .ok networkNum => pure networkNum

def getNetworkList (kind : NetworkKind) (capacity : Nat) :
    Nvram (NetworkList kind.Data) := do
  let networkNum ← readNumOrZero .network .flash
  let persistent ← readNetworksOf kind capacity .flash networkNum 4 0
  let onetimeNum ← readOnetimeNum
  let onetime ← readNetworksOf kind capacity .ram onetimeNum 4
    persistent.length
  pure ⟨(networkNum + onetimeNum) % 0x100, persistent ++ onetime⟩

def boatEthGetNetworkList : Nvram (NetworkList BoatEthNetworkData) :=
  getNetworkList boatEthNetwork (boatMaxNetworkNum + 1)

def boatCitaGetNetworkList (unpack : List UInt8 → Option CitaNetworkData) :
    Nvram (NetworkList BoatCitaNetworkData) :=
  getNetworkList (boatCitaNetwork unpack) boatMaxNetworkNum

/-- All networks that are stored, in storage order. -/
def Device.allNetworks (d : Device) : List NetworkRecord :=
  d.networks ++ d.onetimeNetworks

/-- The networks of a protocol. -/
def NetworkKind.among (kind : NetworkKind) (networks : List NetworkRecord) :
    List NetworkRecord :=
  networks.filter fun network => network.protocol = kind.protocol

/-- Network data whose stored form is the body of a record. -/
def NetworkKind.Entry (kind : NetworkKind) (data : kind.Data)
    (network : NetworkRecord) : Prop :=
  kind.getNetworkData data = .ok (LengthValue.encode network.body)

/-- A call that lists the networks of its protocol and no others, as many as it
says. -/
def ListsNetworks (kind : NetworkKind) (d : Device)
    (list : Nvram (NetworkList kind.Data)) : Prop :=
  ∃ networkNum networks, list ⟨d, none⟩ = .ok ⟨networkNum, networks⟩ ⟨d, none⟩ ∧
    networkNum = (kind.among d.allNetworks).length ∧
    List.Forall₂ kind.Entry (networks.take networkNum)
      (kind.among d.allNetworks)

/-- The reads of a scan that comes to the networks of a protocol. -/
inductive NetworksRead (kind : NetworkKind) (storeType : BoatStoreType)
    (d : Device) : Nat → List NetworkRecord → List kind.Data → Prop where
  | nil (offset : Nat) : NetworksRead kind storeType d offset [] []
  | foreign {offset : Nat} {head : NetworkRecord} {tail : List NetworkRecord}
      {networks : List kind.Data} (other : head.protocol ≠ kind.protocol)
      (rest : NetworksRead kind storeType d (offset + head.record.length) tail
        networks) : NetworksRead kind storeType d offset (head :: tail) networks
  | same {offset : Nat} {head : NetworkRecord} {tail : List NetworkRecord}
      {data : kind.Data} {networks : List kind.Data}
      (own : head.protocol = kind.protocol)
      (read : kind.getNetworkFromNvram (offset + 5) storeType ⟨d, none⟩ =
        .ok data ⟨d, none⟩)
      (entry : kind.Entry data head)
      (rest : NetworksRead kind storeType d (offset + head.record.length) tail
        networks) :
      NetworksRead kind storeType d offset (head :: tail) (data :: networks)

variable {unpack : NetworkUnpack} {kind : NetworkKind} {d : Device}
  {storeType : BoatStoreType} {offset capacity index : Nat}
  {records front : List NetworkRecord} {network : NetworkRecord}
  {networks : List kind.Data}

theorem NetworksRead.entries
    (hread : NetworksRead kind storeType d offset records networks) :
    List.Forall₂ kind.Entry networks (kind.among records) := by
  induction hread with
  | nil offset => exact .nil
  | foreign hother _ ih =>
      rw [NetworkKind.among, List.filter_cons_of_neg (by simpa using hother)]
      exact ih
  | same hown _ hentry _ ih =>
      rw [NetworkKind.among, List.filter_cons_of_pos (by simpa using hown)]
      exact .cons hentry ih

theorem NetworksRead.length_eq
    (hread : NetworksRead kind storeType d offset records networks) :
    networks.length = (kind.among records).length :=
  hread.entries.length_eq

section Run

variable (hknown : storeType ≠ .unknown)

include hknown

/-- Where the protocol of a record is another one the scan goes on. -/
theorem readNetworksOf_foreign {tail : List NetworkRecord}
    (hholds : d.Holds .network storeType offset
      (networkBytes (network :: tail)))
    (hother : network.protocol ≠ kind.protocol) :
    readNetworksOf kind capacity storeType (network :: tail).length offset
        index ⟨d, none⟩ =
      readNetworksOf kind capacity storeType tail.length
        (offset + network.record.length) index ⟨d, none⟩ := by
  have hreads := networkReads hholds hknown
  refine (run_bind_ok hreads.protocol.spared.run).trans ?_
  rw [if_neg (mt BoatProtocolType.value_eq.mp hother)]
  refine (run_bind_ok hreads.length.spared.run).trans ?_
  rw [hreads.next]

/-- Where it is the own one the scan comes to the reader of a network. -/
theorem readNetworksOf_own {tail : List NetworkRecord}
    (hholds : d.Holds .network storeType offset
      (networkBytes (network :: tail)))
    (hown : network.protocol = kind.protocol) :
    readNetworksOf kind capacity storeType (network :: tail).length offset
        index ⟨d, none⟩ =
      (do
        failIf (capacity ≤ index) Failure.undefined
        let data ← kind.getNetworkFromNvram (offset + 5) storeType
        let networkDataLength ← readLength .network (offset + 5) storeType
        let networks ← readNetworksOf kind capacity storeType tail.length
          (nextNetwork offset networkDataLength) (index + 1)
        pure (data :: networks) : Nvram (List kind.Data)) ⟨d, none⟩ := by
  have hreads := networkReads hholds hknown
  have hroom := BoatStoreFile.network.room_lt storeType
  have hfits := hholds.2
  have height := network.length_record_bounds.1
  rw [length_networkBytes_cons] at hfits
  have hmove : advance offset 5 = offset + 5 := advance_of_lt (by omega)
  refine (run_bind_ok hreads.protocol.spared.run).trans ?_
  rw [if_pos (BoatProtocolType.value_eq.mpr hown), hmove]

/-- A network that is read into a place of the array. -/
theorem readNetworksOf_same {tail : List NetworkRecord} {data : kind.Data}
    (hholds : d.Holds .network storeType offset
      (networkBytes (network :: tail)))
    (hown : network.protocol = kind.protocol) (hplace : index < capacity)
    (hread : kind.getNetworkFromNvram (offset + 5) storeType ⟨d, none⟩ =
      .ok data ⟨d, none⟩) :
    readNetworksOf kind capacity storeType (network :: tail).length offset
        index ⟨d, none⟩ =
      (readNetworksOf kind capacity storeType tail.length
        (offset + network.record.length) (index + 1) >>= fun networks =>
          pure (data :: networks)) ⟨d, none⟩ := by
  have hreads := networkReads hholds hknown
  have hroom := BoatStoreFile.network.room_lt storeType
  have hfits := hholds.2
  have height := network.length_record_bounds.1
  rw [length_networkBytes_cons] at hfits
  have hmove : advance offset 5 = offset + 5 := advance_of_lt (by omega)
  have hlength := hreads.length.spared.run
  rw [hmove] at hlength
  rw [readNetworksOf_own hknown hholds hown, failIf,
    if_neg (Nat.not_le.mpr hplace)]
  refine (run_bind_ok hread).trans ?_
  refine (run_bind_ok hlength).trans ?_
  rw [hreads.next]

/-- Where the places suffice the networks are read. -/
theorem NetworksRead.run
    (hread : NetworksRead kind storeType d offset records networks)
    (hholds : records ≠ [] →
      d.Holds .network storeType offset (networkBytes records))
    (hfits : index + networks.length ≤ capacity) :
    readNetworksOf kind capacity storeType records.length offset index
      ⟨d, none⟩ = .ok networks ⟨d, none⟩ := by
  induction hread generalizing index with
  | nil offset => rfl
  | foreign hother _ ih =>
      have hhere := hholds (List.cons_ne_nil _ _)
      rw [readNetworksOf_foreign hknown hhere hother]
      exact ih (fun _ => (networkReads hhere hknown).tail) hfits
  | same hown hdata _ _ ih =>
      have hhere := hholds (List.cons_ne_nil _ _)
      rw [List.length_cons] at hfits
      rw [readNetworksOf_same hknown hhere hown (by omega) hdata]
      exact run_bind_ok (ih (fun _ => (networkReads hhere hknown).tail)
        (by omega))

/-- Where they do not suffice one is read outside the array. -/
theorem NetworksRead.overflow
    (hread : NetworksRead kind storeType d offset records networks)
    (hholds : records ≠ [] →
      d.Holds .network storeType offset (networkBytes records))
    (hplace : index ≤ capacity) (hlong : capacity < index + networks.length) :
    readNetworksOf kind capacity storeType records.length offset index
      ⟨d, none⟩ = .error .undefined ⟨d, none⟩ := by
  induction hread generalizing index with
  | nil offset => exact absurd hlong (Nat.not_lt.mpr hplace)
  | foreign hother _ ih =>
      have hhere := hholds (List.cons_ne_nil _ _)
      rw [readNetworksOf_foreign hknown hhere hother]
      exact ih (fun _ => (networkReads hhere hknown).tail) hplace hlong
  | same hown hdata _ _ ih =>
      have hhere := hholds (List.cons_ne_nil _ _)
      rw [List.length_cons] at hlong
      rcases Nat.eq_or_lt_of_le hplace with rfl | hlt
      · rw [readNetworksOf_own hknown hhere hown, failIf,
          if_pos (Nat.le_refl _)]
        rfl
      · rw [readNetworksOf_same hknown hhere hown hlt hdata]
        exact run_bind_error (ih (fun _ => (networkReads hhere hknown).tail)
          hlt (by omega))

/-- A last network that is not read ends the scan. -/
theorem NetworksRead.unread {e : Failure}
    (hread : NetworksRead kind storeType d offset front networks)
    (hholds : d.Holds .network storeType offset
      (networkBytes (front ++ [network])))
    (hown : network.protocol = kind.protocol)
    (herror : kind.getNetworkFromNvram
        (offset + (networkBytes front).length + 5) storeType ⟨d, none⟩ =
      .error e ⟨d, none⟩)
    (hfits : index + networks.length < capacity) :
    readNetworksOf kind capacity storeType (front ++ [network]).length offset
      index ⟨d, none⟩ = .error e ⟨d, none⟩ := by
  induction hread generalizing index with
  | nil offset =>
      have hplace : index < capacity := hfits
      rw [List.nil_append, readNetworksOf_own hknown hholds hown, failIf,
        if_neg (Nat.not_le.mpr hplace)]
      change (kind.getNetworkFromNvram (offset + 5) storeType >>= _) _ = _
      exact run_bind_error herror
  | foreign hother _ ih =>
      rw [length_networkBytes_cons, ← Nat.add_assoc] at herror
      rw [List.cons_append] at hholds ⊢
      rw [readNetworksOf_foreign hknown hholds hother]
      exact ih (networkReads hholds hknown).tail herror hfits
  | same hown' hdata _ _ ih =>
      rw [length_networkBytes_cons, ← Nat.add_assoc] at herror
      rw [List.length_cons] at hfits
      rw [List.cons_append] at hholds ⊢
      rw [readNetworksOf_same hknown hholds hown' (by omega) hdata]
      exact run_bind_error (ih (networkReads hholds hknown).tail herror
        (by omega))

end Run

section Count

/-- The number of networks in RAM is read. -/
theorem readOnetimeNum_run (hheld : d.HoldsNetworks .ram records)
    (hone : records.length ≤ 1) :
    readOnetimeNum ⟨d, none⟩ = .ok records.length ⟨d, none⟩ := by
  have hread := (readCount_runs d .network .ram (by decide)).spared.run
  rcases hheld.look_count (by decide) with hlook | ⟨hnil, ⟨code, hlook⟩ |
    ⟨header, hlook, hcheck⟩⟩
  · rw [hlook] at hread
    refine (run_bind_ok hread).trans ?_
    rw [List.length_map, utilityCheckNumBytes_get (by omega)]
    rfl
  · obtain ⟨header, hheader⟩ := look_ram d .network
    rw [hheader] at hlook
    cases hlook
  · rw [hlook] at hread
    obtain rfl : records = [] := List.map_eq_nil_iff.mp hnil
    refine (run_bind_ok hread).trans ?_
    rw [hcheck]
    rfl

end Count

/-- Networks in flash and in RAM, few enough for their counts. -/
structure Device.ListHeld (d : Device) (persistent onetime : List NetworkRecord) :
    Prop where
  flash : d.HoldsNetworks .flash persistent
  tidy : TidyNetworks persistent
  ram : d.HoldsNetworks .ram onetime
  one : onetime.length ≤ 1

section List

variable {persistent onetime : List NetworkRecord}
  {persistentData onetimeData : List kind.Data}

theorem Device.ListHeld.allNetworks_eq (hheld : d.ListHeld persistent onetime) :
    d.allNetworks = persistent ++ onetime := by
  rw [Device.allNetworks, hheld.flash.networks_eq hheld.tidy,
    hheld.ram.onetimeNetworks_eq hheld.one]

/-- A list call comes to the networks in flash. -/
theorem Device.ListHeld.list_run (hheld : d.ListHeld persistent onetime) :
    getNetworkList kind capacity ⟨d, none⟩ =
      (readNetworksOf kind capacity .flash persistent.length 4 0 >>=
        fun flashData => readOnetimeNum >>= fun onetimeNum =>
          readNetworksOf kind capacity .ram onetimeNum 4 flashData.length >>=
            fun ramData => pure ⟨(persistent.length + onetimeNum) % 0x100,
              flashData ++ ramData⟩) ⟨d, none⟩ := by
  have hfew := hheld.tidy.few
  have hnum := (readNumOrZero_spared hheld.flash (by decide) (by
    rw [List.length_map]
    omega)).run
  rw [List.length_map] at hnum
  exact run_bind_ok hnum

variable (hheld : d.ListHeld persistent onetime)
  (hflash : NetworksRead kind .flash d 4 persistent persistentData)
  (hram : NetworksRead kind .ram d 4 onetime onetimeData)

include hheld hflash

/-- A list call behind the networks in flash. -/
theorem getNetworkList_ram (hfits : persistentData.length ≤ capacity) :
    getNetworkList kind capacity ⟨d, none⟩ =
      (readNetworksOf kind capacity .ram onetime.length 4
          persistentData.length >>= fun ramData =>
        pure ⟨(persistent.length + onetime.length) % 0x100,
          persistentData ++ ramData⟩) ⟨d, none⟩ := by
  have hone := readOnetimeNum_run hheld.ram hheld.one
  rw [hheld.list_run]
  refine (run_bind_ok (hflash.run (by decide) hheld.flash.networkBody
    (by omega))).trans ?_
  exact run_bind_ok hone

include hram

/-- The list is complete where its array is large enough. -/
theorem getNetworkList_run
    (hfits : persistentData.length + onetimeData.length ≤ capacity) :
    getNetworkList kind capacity ⟨d, none⟩ =
      .ok ⟨persistent.length + onetime.length, persistentData ++ onetimeData⟩
        ⟨d, none⟩ := by
  have hfew := hheld.tidy.few
  have hone := hheld.one
  rw [getNetworkList_ram hheld hflash (by omega),
    Nat.mod_eq_of_lt (by omega)]
  exact run_bind_ok (hram.run (by decide) hheld.ram.networkBody hfits)

/-- Where it is not, a network is read outside the array. -/
theorem getNetworkList_overflow
    (hlong : capacity < persistentData.length + onetimeData.length) :
    getNetworkList kind capacity ⟨d, none⟩ = .error .undefined ⟨d, none⟩ := by
  by_cases hfits : persistentData.length ≤ capacity
  · rw [getNetworkList_ram hheld hflash hfits]
    exact run_bind_error (hram.overflow (by decide) hheld.ram.networkBody hfits
      hlong)
  · rw [hheld.list_run]
    exact run_bind_error (hflash.overflow (by decide) hheld.flash.networkBody
      (Nat.zero_le _) (by omega))

/-- What is read are the networks of the protocol; they are all where no other
protocol has one. -/
theorem listsNetworks_iff :
    ListsNetworks kind d (getNetworkList kind capacity) ↔
      (∀ network ∈ d.allNetworks, network.protocol = kind.protocol) ∧
        (kind.among d.allNetworks).length ≤ capacity := by
  have hlength := congrArg₂ (· + ·) hflash.length_eq hram.length_eq
  have hall := hheld.allNetworks_eq
  have hamong : kind.among d.allNetworks =
      kind.among persistent ++ kind.among onetime := by
    rw [hall]
    exact List.filter_append _ _
  have hentries : List.Forall₂ kind.Entry (persistentData ++ onetimeData)
      (kind.among d.allNetworks) := by
    rw [hamong]
    exact List.rel_append hflash.entries hram.entries
  have hcount := hentries.length_eq
  rw [List.length_append] at hcount
  rw [← hcount]
  constructor
  · rintro ⟨networkNum, networks, hrun, hnum, _⟩
    by_cases hfits : persistentData.length + onetimeData.length ≤ capacity
    · rw [getNetworkList_run hheld hflash hram hfits] at hrun
      cases hrun
      refine ⟨?_, hfits⟩
      have hfull : (kind.among d.allNetworks).length =
          d.allNetworks.length := by
        rw [← hnum, hall, List.length_append]
      intro network hmem
      exact of_decide_eq_true
        (List.length_filter_eq_length_iff.mp hfull network hmem)
    · rw [getNetworkList_overflow hheld hflash hram (Nat.not_le.mp hfits)]
        at hrun
      cases hrun
  · rintro ⟨hown, hfits⟩
    have hsame : kind.among d.allNetworks = d.allNetworks :=
      List.filter_eq_self.mpr fun network hmem =>
        decide_eq_true (hown network hmem)
    refine ⟨_, _, getNetworkList_run hheld hflash hram hfits, ?_, ?_⟩
    · rw [hsame, hall, List.length_append]
    · have htake : persistent.length + onetime.length =
          (persistentData ++ onetimeData).length := by
        rw [List.length_append, hcount, hsame, hall, List.length_append]
      rw [htake, List.take_length]
      exact hentries

end List

end BoatFramework
