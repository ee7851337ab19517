/-
What a caller sees of a delete call that meets a fault: the network is gone and
success is reported, or an error is reported and the store is as it was, unless
the fault hits the networks behind the deleted one while they are gathered.
-/
import BoatFramework.Network.Runs

namespace BoatFramework

open Fuse

/-- The bytes of the store of networks, its count in front. -/
def Device.networkRegion (d : Device) : List UInt8 :=
  (d.bytes .network .flash).drop BoatStoreFile.network.offset

/-- The networks without that of a protocol and an index. -/
def networksWithout (networks : List NetworkRecord)
    (protocol : BoatProtocolType) (index : UInt8) : List NetworkRecord :=
  networks.filter fun network => decide ¬network.Is protocol index

/-- A delete call is truthful: it succeeds where the network is gone and all
others remain, and only there, and an error leaves every byte of the store. -/
def DeleteTruthful (protocol : BoatProtocolType) (index : UInt8) (d : Device) :
    EStateM.Result Failure (Fused Device) Unit → Prop
  | .ok _ s => s.state.storedNetworks .flash =
      some (networksWithout d.networks protocol index)
  | .error failure s => failure.Coded ∧
      s.state.storedNetworks .flash ≠
        some (networksWithout d.networks protocol index) ∧
      s.state.networkRegion = d.networkRegion

/-- The fault of a delete call hits the networks behind the deleted one while
their lengths, the block for them and they themselves are read. -/
def GatherFault (networks : List NetworkRecord) (protocol : BoatProtocolType)
    (index : UInt8) (fuse : Option Nat) : Prop :=
  let place := networks.findIdx fun network =>
    decide (network.Is protocol index)
  let lowered := lowerNetworkOps (networks.take place)
  ∃ k ∈ fuse, lowered ≤ k ∧
    k < lowered + gatherNetworkOps (networks.drop (place + 1))

variable {unpack : NetworkUnpack} {d d' : Device} {network : NetworkRecord}
  {networks front back : List NetworkRecord} {protocol : BoatProtocolType}
  {index : UInt8} {fuse : Option Nat}

section Split

variable (hhere : network.Is protocol index)
  (hbefore : ∀ other ∈ front, ¬other.Is protocol index)

include hhere hbefore

theorem findIdx_network :
    (front ++ network :: back).findIdx
      (fun other => decide (other.Is protocol index)) = front.length := by
  have hnone : front.findIdx (fun other => decide (other.Is protocol index)) =
      front.length := by
    rw [List.findIdx_eq_length]
    intro other hother
    exact decide_eq_false (hbefore other hother)
  have hfirst : (network :: back).findIdx
      (fun other => decide (other.Is protocol index)) = 0 := by
    rw [List.findIdx_cons, decide_eq_true hhere]
    rfl
  rw [List.findIdx_append, hnone, if_neg (Nat.lt_irrefl _), hfirst,
    Nat.zero_add]

theorem networksWithout_split
    (hbehind : ∀ other ∈ back, ¬other.Is protocol index) :
    networksWithout (front ++ network :: back) protocol index =
      front ++ back := by
  have hkeep {kept : List NetworkRecord}
      (hkept : ∀ other ∈ kept, ¬other.Is protocol index) :
      kept.filter (fun other => decide ¬other.Is protocol index) = kept :=
    List.filter_eq_self.mpr fun other hother =>
      decide_eq_true (hkept other hother)
  rw [networksWithout, List.filter_append, List.filter_cons, hkeep hbefore,
    hkeep hbehind, if_neg (by simp [hhere])]

variable (back fuse) in
theorem gatherFault_iff :
    GatherFault (front ++ network :: back) protocol index fuse ↔
      ∃ k, fuse = some k ∧ lowerNetworkOps front ≤ k ∧
        k < lowerNetworkOps front + gatherNetworkOps back := by
  have hdrop : (front ++ network :: back).drop (front.length + 1) = back := by
    rw [← List.drop_drop, List.drop_left]
    rfl
  unfold GatherFault
  simp only [findIdx_network hhere hbefore, List.take_left, hdrop,
    Option.mem_def]

end Split

/-- Behind a network of an index there is none of the same index. -/
theorem TidyNetworks.behind (htidy : TidyNetworks (front ++ network :: back))
    (hhere : network.Is protocol index) :
    ∀ other ∈ back, ¬other.Is protocol index := by
  intro other hother his
  have hdistinct := htidy.distinct
  rw [List.map_append, List.map_cons, List.nodup_append] at hdistinct
  refine (List.nodup_cons.mp hdistinct.2.1).1 ?_
  rw [hhere.1, ← his.1]
  exact List.mem_map_of_mem hother

theorem networkRegion_of_file (hfile : d'.file = d.file) :
    d'.networkRegion = d.networkRegion :=
  congrArg (fun file : FileBytes => file.1.drop BoatStoreFile.network.offset)
    hfile

/-- The count of a store is seen in its bytes. -/
theorem networkRegion_take {count : List UInt8} (hfour : count.length = 4)
    (hholds : d.Holds .network .flash 0 count) :
    d.networkRegion.take 4 = count := by
  have hread := hholds.1.read
  rw [hfour] at hread
  unfold ByteFile.read at hread
  split at hread
  next => exact Option.some.inj hread
  next => cases hread

/-- A lower count is not the count that was there. -/
theorem lowerNetworks_ne (hheld : d.HoldsNetworks .flash networks)
    (hsplit : networks = front ++ network :: back) (hfew : networks.length ≤ 5) :
    (d.lowerNetworks front back).networkRegion ≠ d.networkRegion := by
  subst hsplit
  intro hsame
  have hcount := (holds_append.mp (hheld.holds (by simp))).1
  have htake := networkRegion_take (length_utilityGetNumBytes _)
    (lowerNetworks_count d front back)
  rw [hsame, networkRegion_take (length_utilityGetNumBytes _) hcount] at htake
  have hcheck := congrArg utilityCheckNumBytes htake
  simp only [List.length_append, List.length_cons, List.length_map] at hfew hcheck
  rw [utilityCheckNumBytes_get (by omega),
    utilityCheckNumBytes_get (by omega)] at hcheck
  have hlen := Except.ok.inj hcheck
  omega

/-- A store that is as it was still has the network. -/
theorem storedNetworks_ne (hheld : d.HoldsNetworks .flash networks)
    (htidy : TidyNetworks networks) (hmem : network ∈ networks)
    (hhere : network.Is protocol index) :
    d.storedNetworks .flash ≠
      some (networksWithout networks protocol index) := by
  have hfew := htidy.few
  rw [hheld.storedNetworks (by omega)]
  intro hsame
  have hwithout := Option.some.inj hsame
  rw [hwithout] at hmem
  exact of_decide_eq_true (List.mem_filter.mp hmem).2 hhere

theorem boatEthNetworkDelete_persistent (hindex : index ≠ 0)
    (hmax : index.toNat ≤ 5) :
    boatEthNetworkDelete index = deletePersistentNetwork .ethereum index := by
  have hmaxNum : ¬boatMaxNetworkNum < index.toNat := Nat.not_lt.mpr hmax
  unfold boatEthNetworkDelete networkDelete
  rw [failIf, if_neg hmaxNum, if_neg hindex]
  rfl

/-- A delete call of a stored network is truthful unless its fault hits the
networks behind it while they are gathered. -/
theorem boatEthNetworkDelete_truthful_iff (unpack : NetworkUnpack) (d : Device)
    (fuse : Option Nat) (index : UInt8)
    (hreach : NetworksReachable unpack d)
    (hstored : ∃ network ∈ d.networks, network.Is .ethereum index) :
    DeleteTruthful .ethereum index d (boatEthNetworkDelete index ⟨d, fuse⟩) ↔
      ¬GatherFault d.networks .ethereum index fuse := by
  obtain ⟨networks, hheld, htidy⟩ := hreach.tidy
  have hfew := htidy.few
  have hnetworks := hheld.networks_eq htidy
  rw [hnetworks] at hstored
  obtain ⟨front, network, back, rfl, hhere, hbefore⟩ :=
    exists_first hstored
  have hmem : network ∈ front ++ network :: back :=
    List.mem_append_right front List.mem_cons_self
  obtain ⟨hindex, hmax⟩ := mem_persistentIndices (htidy.inRange network hmem)
  rw [hhere.1] at hindex hmax
  have hwithout := networksWithout_split hhere hbefore (htidy.behind hhere)
  have hpresent := storedNetworks_ne hheld htidy hmem hhere
  have hfault := gatherFault_iff back fuse hhere hbefore
  obtain ⟨r, t, hrun, hdeleted⟩ :=
    deletePersistentNetwork_ends hheld (by omega) hhere hbefore fuse
  rw [boatEthNetworkDelete_persistent hindex hmax, hrun, hnetworks, hfault]
  cases hdeleted with
  | removed _ hlate hregion =>
      refine iff_of_true ?_ ?_
      · change t.state.storedNetworks .flash =
          some (networksWithout d.networks .ethereum index)
        rw [hnetworks, hwithout]
        refine hregion.storedNetworks ?_
        simp only [List.length_append, List.length_cons] at hfew ⊢
        omega
      · rintro ⟨k, hk, _, hearly⟩
        exact Nat.not_lt.mpr (hlate k hk) hearly
  | unlowered _ k code hk hearly hsame =>
      refine iff_of_true ⟨⟨code, rfl⟩, ?_, ?_⟩ ?_
      · rw [hsame, hnetworks]
        exact hpresent
      · rw [hsame]
      · rintro ⟨j, hj, hlowered, _⟩
        obtain rfl := Option.some.inj (hk.symm.trans hj)
        omega
  | torn _ k code hk hlowered hearly _ hcount =>
      refine iff_of_false ?_ (not_not_intro ⟨k, hk, hlowered, hearly⟩)
      rintro ⟨_, _, hsame⟩
      rw [hcount] at hsame
      exact lowerNetworks_ne hheld rfl hfew hsame
  | recounted _ k code hk hlate hfile =>
      refine iff_of_true ⟨⟨code, rfl⟩, ?_, networkRegion_of_file hfile⟩ ?_
      · rw [hnetworks]
        have hafter := holdsNetworks_of_file hfile hheld
        exact storedNetworks_ne hafter htidy hmem hhere
      · rintro ⟨j, hj, _, hearly⟩
        obtain rfl := Option.some.inj (hk.symm.trans hj)
        omega

theorem twoNetworksDevice_stored :
    ∃ network ∈ twoNetworksDevice.networks, network.Is .ethereum 1 := by
  have hany : (twoNetworksDevice.networks.any fun network =>
      decide (network.Is .ethereum 1)) = true := by
    decide +kernel
  obtain ⟨network, hmem, his⟩ := List.any_eq_true.mp hany
  exact ⟨network, hmem, of_decide_eq_true his⟩

/-- A fault of the write of the lower count leaves the store. -/
theorem boatEthNetworkDelete_truthful_fault :
    DeleteTruthful .ethereum 1 twoNetworksDevice
        (boatEthNetworkDelete 1 ⟨twoNetworksDevice, some 4⟩) ↔
      ¬GatherFault twoNetworksDevice.networks .ethereum 1 (some 4) :=
  boatEthNetworkDelete_truthful_iff noUnpack twoNetworksDevice (some 4) 1
    twoNetworksDevice_reachable twoNetworksDevice_stored

/-- A fault of the read of the length of the network behind leaves the lower
count, and the call reports an error. -/
theorem boatEthNetworkDelete_loses_count :
    NetworksReachable noUnpack twoNetworksDevice ∧
      (∃ network ∈ twoNetworksDevice.networks, network.Is .ethereum 1) ∧
      ¬DeleteTruthful .ethereum 1 twoNetworksDevice
        (boatEthNetworkDelete 1 ⟨twoNetworksDevice, some 5⟩) := by
  have hrun : (match boatEthNetworkDelete 1 ⟨twoNetworksDevice, some 5⟩ with
      | .ok _ _ => false
      | .error _ s => s.state.networkRegion.getD 2 0 == 1 &&
          twoNetworksDevice.networkRegion.getD 2 0 == 2) = true := by
    decide +kernel
  refine ⟨twoNetworksDevice_reachable, twoNetworksDevice_stored, ?_⟩
  revert hrun
  generalize boatEthNetworkDelete 1 ⟨twoNetworksDevice, some 5⟩ = outcome
  intro hrun htruthful
  cases outcome with
  | ok _ s => cases hrun
  | error failure s =>
      obtain ⟨_, _, hsame⟩ := htruthful
      simp only [hsame] at hrun
      obtain ⟨hone, htwo⟩ := (Bool.and_eq_true _ _).mp hrun
      have hcounts := (beq_iff_eq.mp hone).symm.trans (beq_iff_eq.mp htwo)
      cases hcounts

end BoatFramework
