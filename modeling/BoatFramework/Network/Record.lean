/-
The record of a network in the store: the protocol type, the index, and the
network data behind its length; and the scans over a number of records.
-/
import BoatFramework.Network.Protocol
import BoatFramework.Storage.ScanRuns

namespace BoatFramework

open Fuse

/-- A record whose data fits the two bytes of its length. -/
structure NetworkRecord where
  protocol : BoatProtocolType
  index : UInt8
  body : List UInt8
  sized : 2 ≤ body.length ∧ body.length < 0x10000
deriving DecidableEq

def NetworkRecord.record (network : NetworkRecord) : List UInt8 :=
  network.protocol.bytes ++
    ([network.index] ++ LengthValue.encode network.body)

def BoatProtocolType.ofValue (value : UInt32) : Option BoatProtocolType :=
  [.unknown, .ethereum, .hlfabric, .platon, .platone, .fiscobcos, .hwbcs,
    .chainmaker, .venachain, .quorum, .cita].find?
      fun protocol => protocol.value = value

/-- Read a record and what follows it. -/
def NetworkRecord.read (text : List UInt8) :
    Option (NetworkRecord × List UInt8) := do
  let protocol ← BoatProtocolType.ofValue (enumOfBytes (text.take 4))
  let (body, rest) ← LengthValue.decode (text.drop 5)
  if hsized : 2 ≤ body.length ∧ body.length < 0x10000 then
    some (⟨protocol, text.getD 4 0, body, hsized⟩, rest)
  else none

def networkBytes (networks : List NetworkRecord) : List UInt8 :=
  (networks.map NetworkRecord.record).flatten

abbrev Device.HoldsNetworks (d : Device) (storeType : BoatStoreType)
    (networks : List NetworkRecord) : Prop :=
  d.Region .network storeType (networks.map NetworkRecord.record)

/-- The network of a protocol and an index. -/
def NetworkRecord.Is (network : NetworkRecord) (protocol : BoatProtocolType)
    (index : UInt8) : Prop :=
  network.index = index ∧ network.protocol = protocol

instance {network : NetworkRecord} {protocol : BoatProtocolType}
    {index : UInt8} : Decidable (network.Is protocol index) :=
  inferInstanceAs (Decidable (_ ∧ _))

variable {d : Device} {storeType : BoatStoreType} {offset : Nat}
  {network : NetworkRecord} {networks front back : List NetworkRecord}
  {protocol : BoatProtocolType} {index : UInt8}

theorem BoatProtocolType.ofValue_value (protocol : BoatProtocolType) :
    ofValue protocol.value = some protocol := by
  cases protocol <;> rfl

/-- The scans compare the protocol types as numbers. -/
theorem BoatProtocolType.value_eq {other : BoatProtocolType} :
    enumOfBytes other.bytes = protocol.value ↔ other = protocol := by
  rw [BoatProtocolType.bytes, enumOfBytes_enumBytes]
  constructor
  · intro hvalue
    have hsome := other.ofValue_value
    rw [hvalue, protocol.ofValue_value] at hsome
    exact (Option.some.inj hsome).symm
  · rintro rfl
    rfl

/-- What a scan looks for. -/
theorem NetworkRecord.is_iff :
    (network.index = index ∧
      enumOfBytes network.protocol.bytes = protocol.value) ↔
        network.Is protocol index :=
  and_congr_right fun _ => BoatProtocolType.value_eq

theorem NetworkRecord.read_record (network : NetworkRecord)
    (rest : List UInt8) :
    NetworkRecord.read (network.record ++ rest) = some (network, rest) := by
  have htake : (network.record ++ rest).take 4 = network.protocol.bytes := rfl
  have hdrop : (network.record ++ rest).drop 5 =
      LengthValue.encode network.body ++ rest := rfl
  have hindex : (network.record ++ rest).getD 4 0 = network.index := rfl
  rw [read, htake, hdrop, BoatProtocolType.bytes, enumOfBytes_enumBytes,
    BoatProtocolType.ofValue_value, LengthValue.decode_encode network.sized.2,
    hindex]
  simp only [Option.bind_eq_bind, Option.bind_some, dif_pos network.sized]

theorem NetworkRecord.length_record (network : NetworkRecord) :
    network.record.length =
      5 + (utilityGetTLVLLFromLen network.body.length +
        network.body.length) := by
  rw [record, utilityGetTLVLLFromLen_eq, List.length_append,
    List.length_append, LengthValue.length_encode, BoatProtocolType.bytes,
    length_enumBytes, List.length_singleton]
  omega

theorem NetworkRecord.length_record_bounds (network : NetworkRecord) :
    8 ≤ network.record.length ∧ network.record.length < 5 + 3 + 0x10000 := by
  have hsized := network.sized
  have hheader := LengthValue.length_header network.body.length
  rw [network.length_record, utilityGetTLVLLFromLen_eq]
  omega

theorem NetworkRecord.record_ne_nil (network : NetworkRecord) :
    network.record ≠ [] :=
  List.cons_ne_nil _ _

theorem networkBytes_cons :
    networkBytes (network :: networks) =
      network.record ++ networkBytes networks :=
  rfl

theorem networkBytes_append :
    networkBytes (front ++ back) = networkBytes front ++ networkBytes back := by
  rw [networkBytes, List.map_append, List.flatten_append]
  rfl

theorem length_networkBytes_cons :
    (networkBytes (network :: networks)).length =
      network.record.length + (networkBytes networks).length :=
  List.length_append

theorem length_networkBytes_le (networks : List NetworkRecord) :
    (networkBytes networks).length ≤ (5 + 3 + 0x10000) * networks.length := by
  induction networks with
  | nil => exact Nat.le_refl _
  | cons head tail ih =>
      have hhead := head.length_record_bounds
      rw [length_networkBytes_cons, List.length_cons]
      omega

theorem Device.Region.networkBody (hheld : d.HoldsNetworks storeType networks)
    (hne : networks ≠ []) :
    d.Holds .network storeType 4 (networkBytes networks) :=
  hheld.body (by simpa using hne)

/-- The reads of a scan at a record, and where the others lie. -/
structure NetworkReads (d : Device) (storeType : BoatStoreType) (offset : Nat)
    (network : NetworkRecord) (networks : List NetworkRecord) : Prop where
  protocol : Reads (boatReadSoftRotNvram .network offset 4 storeType) d
    storeType.cost (.ok network.protocol.bytes)
  index : Reads (readByte .network (advance offset 4) storeType) d
    storeType.cost (.ok network.index)
  length : Reads (readLength .network (advance offset 5) storeType) d
    storeType.cost (.ok network.body.length)
  next : nextNetwork offset network.body.length =
    offset + network.record.length
  tail : d.Holds .network storeType (offset + network.record.length)
    (networkBytes networks)

theorem networkReads
    (hholds : d.Holds .network storeType offset
      (networkBytes (network :: networks)))
    (hknown : storeType ≠ .unknown) :
    NetworkReads d storeType offset network networks := by
  have hsized := network.sized
  have hlength := network.length_record
  have hroom := BoatStoreFile.network.room_lt storeType
  have hfits := hholds.2
  rw [length_networkBytes_cons, hlength] at hfits
  rw [networkBytes_cons] at hholds
  obtain ⟨hrecord, htail⟩ := holds_append.mp hholds
  obtain ⟨hprotocol, hvalue⟩ := holds_append.mp hrecord
  obtain ⟨hindex, hbody⟩ := holds_append.mp hvalue
  have hfour : network.protocol.bytes.length = 4 := rfl
  rw [hfour] at hindex hbody
  have hreadProtocol := hprotocol.read hknown (by decide : 0 < 4)
    (Nat.le_refl _)
  have hfive : advance offset 5 = offset + 4 + [network.index].length :=
    advance_of_lt (by omega)
  have hthree := network.length_record_bounds.1
  rw [hlength] at hthree
  constructor
  · exact hreadProtocol
  · rw [advance_of_lt (by omega)]
    exact readByte_runs hindex hknown
  · rw [hfive]
    have hbody' : d.Holds .network storeType
        (offset + 4 + [network.index].length)
          (LengthValue.encode network.body ++ []) := by
      rw [List.append_nil]
      exact hbody
    refine readLength_runs hbody' hknown ?_ hsized.2
    rw [List.append_nil, LengthValue.length_encode,
      ← utilityGetTLVLLFromLen_eq]
    omega
  · rw [nextNetwork, hlength, advance_of_lt (by omega)]
  · exact htail

theorem readNetworkIndices_runs
    (hholds : networks ≠ [] →
      d.Holds .network .flash offset (networkBytes networks)) :
    Reads (readNetworkIndices networks.length offset) d (2 * networks.length)
      (.ok (networks.map (·.index))) := by
  induction networks generalizing offset with
  | nil => exact Runs.pure
  | cons head tail ih =>
      have hreads := networkReads (hholds (by simp)) (by decide)
      have htail := ih fun _ => hreads.tail
      rw [← hreads.next] at htail
      refine Runs.cast (a := 1 + (1 + 2 * tail.length)) ?_ (by
        rw [List.length_cons]
        omega)
      refine hreads.index.bind (hreads.length.bind ?_)
      exact htail.map rfl

theorem skipNetworks_runs
    (hholds : networks ≠ [] →
      d.Holds .network storeType offset (networkBytes networks))
    (hknown : storeType ≠ .unknown) :
    Reads (skipNetworks storeType networks.length offset) d
      (networks.length * storeType.cost)
      (.ok (offset + (networkBytes networks).length)) := by
  induction networks generalizing offset with
  | nil => exact Runs.pure.cast (Nat.zero_mul _).symm
  | cons head tail ih =>
      have hreads := networkReads (hholds (by simp)) hknown
      have htail := ih fun _ => hreads.tail
      rw [← hreads.next] at htail
      rw [length_networkBytes_cons, ← Nat.add_assoc, ← hreads.next]
      refine Runs.cast (a := storeType.cost + tail.length * storeType.cost) ?_
        (by rw [List.length_cons, Nat.succ_mul tail.length]; omega)
      exact hreads.length.bind htail

theorem findNetwork_absent
    (hholds : networks ≠ [] →
      d.Holds .network .flash offset (networkBytes networks))
    (habsent : ∀ other ∈ networks, ¬other.Is protocol index) :
    Reads (findNetwork protocol index networks.length offset) d
      (3 * networks.length) (.ok none) := by
  induction networks generalizing offset with
  | nil => exact Runs.pure
  | cons head tail ih =>
      have hreads := networkReads (hholds (by simp)) (by decide)
      have htail := ih (fun _ => hreads.tail) fun other hother =>
        habsent other (List.mem_cons_of_mem head hother)
      rw [← hreads.next] at htail
      have hhead := habsent head List.mem_cons_self
      refine Runs.cast (a := 1 + (1 + (1 + 3 * tail.length))) ?_ (by
        rw [List.length_cons]
        omega)
      refine hreads.protocol.bind (hreads.index.bind (hreads.length.bind ?_))
      rw [if_neg (mt NetworkRecord.is_iff.mp hhead)]
      exact htail

theorem findNetwork_found
    (hholds : d.Holds .network .flash offset
      (networkBytes (front ++ network :: back)))
    (hhere : network.Is protocol index)
    (habsent : ∀ other ∈ front, ¬other.Is protocol index) :
    Reads (findNetwork protocol index (front ++ network :: back).length offset)
      d (3 * (front.length + 1))
      (.ok (some ⟨back.length, offset + (networkBytes front).length,
        offset + (networkBytes front).length + network.record.length⟩)) := by
  induction front generalizing offset with
  | nil =>
      have hreads := networkReads hholds (by decide)
      refine Runs.cast (a := 1 + (1 + 1)) ?_ rfl
      refine hreads.protocol.bind (hreads.index.bind (hreads.length.map ?_))
      rw [if_pos (NetworkRecord.is_iff.mpr hhere), hreads.next]
      rfl
  | cons head tail ih =>
      have hreads := networkReads hholds (by decide)
      have htail := ih hreads.tail fun other hother =>
        habsent other (List.mem_cons_of_mem head hother)
      have hhead := habsent head List.mem_cons_self
      rw [length_networkBytes_cons, ← Nat.add_assoc]
      refine Runs.cast (a := 1 + (1 + (1 + 3 * (tail.length + 1)))) ?_ (by
        rw [List.length_cons]
        omega)
      refine hreads.protocol.bind (hreads.index.bind (hreads.length.bind ?_))
      rw [if_neg (mt NetworkRecord.is_iff.mp hhead), hreads.next]
      exact htail

theorem networksLength_runs
    (hholds : networks ≠ [] →
      d.Holds .network .flash offset (networkBytes networks)) :
    Reads (networksLength networks.length offset) d networks.length
      (.ok (networkBytes networks).length) := by
  induction networks generalizing offset with
  | nil => exact Runs.pure
  | cons head tail ih =>
      have hroom := BoatStoreFile.network.room_lt .flash
      have hfits := (hholds (by simp)).2
      have hreads := networkReads (hholds (by simp)) (by decide)
      have htail := ih fun _ => hreads.tail
      rw [← hreads.next] at htail
      have hsum : buint32 (5 + (utilityGetTLVLLFromLen head.body.length +
          head.body.length) + (networkBytes tail).length) =
            (networkBytes (head :: tail)).length := by
        rw [length_networkBytes_cons] at hfits ⊢
        rw [← head.length_record, buint32_of_lt (by omega)]
      refine Runs.cast (a := 1 + tail.length) ?_ (Nat.add_comm _ _)
      refine hreads.length.bind (htail.map ?_)
      rw [hsum]

end BoatFramework
