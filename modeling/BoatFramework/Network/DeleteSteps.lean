/-
Deleting a persistent network under any fuse: before the count is lowered a
fault changes nothing, between that and the last write it leaves a lower count
in front of all records.
-/
import BoatFramework.Network.Record
import BoatFramework.Storage.Preserved

namespace BoatFramework

open Fuse

variable {d : Device} {network : NetworkRecord}
  {networks front back : List NetworkRecord} {protocol : BoatProtocolType}
  {index : UInt8} {fuse : Option Nat}

/-- The operations up to the one that lowers the count. -/
def lowerNetworkOps (front : List NetworkRecord) : Nat :=
  1 + 3 * (front.length + 1) + 1

/-- The operations between the lower count and the write of what was moved: the
lengths of the records, the block for them and the read of them. -/
def gatherNetworkOps (back : List NetworkRecord) : Nat :=
  if back = [] then 0 else back.length + 2

/-- The device with one network less in the count. -/
def Device.lowerNetworks (d : Device) (front back : List NetworkRecord) :
    Device :=
  d.lowerCount .network (front.map NetworkRecord.record)
    (back.map NetworkRecord.record)

/-- How the delete of a network that is there ends. -/
inductive NetworkDeleted (d : Device) (front : List NetworkRecord)
    (network : NetworkRecord) (back : List NetworkRecord)
    (fuse : Option Nat) : Except Failure Unit → Fused Device → Prop where
  | removed (t : Fused Device)
      (late : ∀ k ∈ fuse, lowerNetworkOps front + gatherNetworkOps back ≤ k)
      (region : t.state.HoldsNetworks .flash (front ++ back)) :
      NetworkDeleted d front network back fuse (.ok ()) t
  | unlowered (t : Fused Device) (k : Nat) (code : BoatResult)
      (fault : fuse = some k) (early : k < lowerNetworkOps front)
      (same : t.state = d) :
      NetworkDeleted d front network back fuse (.error (.code code)) t
  | torn (t : Fused Device) (k : Nat) (code : BoatResult)
      (fault : fuse = some k) (lowered : lowerNetworkOps front ≤ k)
      (early : k < lowerNetworkOps front + gatherNetworkOps back)
      (some_behind : back ≠ []) (count : t.state = d.lowerNetworks front back) :
      NetworkDeleted d front network back fuse (.error (.code code)) t
  | recounted (t : Fused Device) (k : Nat) (code : BoatResult)
      (fault : fuse = some k)
      (late : lowerNetworkOps front + gatherNetworkOps back ≤ k)
      (same : t.state.file = d.file) :
      NetworkDeleted d front network back fuse (.error (.code code)) t

/-- The number of networks in flash or in RAM is read, where there are some. -/
theorem readNetworkNum_held {storeType : BoatStoreType}
    (hheld : d.HoldsNetworks storeType networks) (hknown : storeType ≠ .unknown)
    (hne : networks ≠ []) (hcount : networks.length < 0x100) :
    Reads (readNetworkNum storeType) d storeType.cost (.ok networks.length) := by
  have hholds := hheld.holds (by simpa using hne)
  have hread := readCount_held _ hholds hknown
  rw [List.length_map] at hread
  unfold readNetworkNum
  refine hread.bind (b := 0) ?_
  simp only [utilityCheckNumBytes_get hcount]
  refine Runs.pass ?_ Runs.pure
  exact fun hzero => hne (List.eq_nil_of_length_eq_zero hzero)

section Held

variable (hheld : d.HoldsNetworks .flash networks)

include hheld

/-- The count of networks is read, where there are some. -/
theorem readNetworkNum_runs (hne : networks ≠ [])
    (hcount : networks.length < 0x100) :
    Reads (readNetworkNum .flash) d 1 (.ok networks.length) :=
  readNetworkNum_held hheld (by decide) hne hcount

end Held

variable (d front network back) in
theorem lowerNetworkCount_runs :
    Runs Failure.Coded (· = d)
      (boatStoreSoftRotNvram .network 0
        (utilityGetNumBytes ((front ++ network :: back).length - 1)) .flash) d 1
      (.ok ()) (d.lowerNetworks front back) := by
  have hlen : (front ++ network :: back).length - 1 =
      (front.map NetworkRecord.record ++
        back.map NetworkRecord.record).length := by
    simp only [List.length_append, List.length_cons, List.length_map]
    omega
  rw [hlen]
  exact store_runs _ _ (by decide) (by simp [utilityGetNumBytes])
    (BoatStoreFile.four_le_room .network .flash)

variable (d front back) in
theorem lowerNetworks_count :
    (d.lowerNetworks front back).Holds .network .flash 0
      (utilityGetNumBytes (front ++ back).length) := by
  have hlen : (front.map NetworkRecord.record ++
      back.map NetworkRecord.record).length = (front ++ back).length := by simp
  rw [Device.lowerNetworks, Device.lowerCount, hlen]
  exact holds_put (BoatStoreFile.four_le_room .network .flash)

section Delete

variable (hheld : d.HoldsNetworks .flash (front ++ network :: back))

include hheld

theorem lowerNetworks_body :
    (d.lowerNetworks front back).Holds .network .flash 4
      (networkBytes front ++ (network.record ++ networkBytes back)) := by
  rw [Device.HoldsNetworks, List.map_append, List.map_cons] at hheld
  exact hheld.lowerCount_body

/-- A write over the front of a record and what is behind it leaves the records
in front. -/
theorem lowerNetworks_put {data : List UInt8}
    (hfits : 4 + (networkBytes front).length + data.length ≤
      BoatStoreFile.network.room .flash) :
    ((d.lowerNetworks front back).put .network .flash
      (4 + (networkBytes front).length) data).Holds .network .flash 0
        (utilityGetNumBytes (front ++ back).length ++ networkBytes front) := by
  have hbody := lowerNetworks_body hheld
  refine Device.Holds.put_before (holds_append.mpr ⟨lowerNetworks_count d front back,
    (holds_append.mp hbody).1⟩) hfits ?_
  rw [List.length_append, length_utilityGetNumBytes]
  omega

/-- The last network is gone, whether its first bytes could be cleared or
not. -/
theorem clearLastNetwork_ends (hlast : back = []) (fuse : Option Nat) :
    Ends (clearLastNetwork (front ++ network :: back).length
        (4 + (networkBytes front).length)) ⟨d.lowerNetworks front back, fuse⟩
      fun r t => r = .ok () ∧ t.state.HoldsNetworks .flash (front ++ back) := by
  subst hlast
  have height := network.length_record_bounds.1
  have hroom := (lowerNetworks_body hheld).2
  rw [List.length_append, List.length_append] at hroom
  have hgone {data : List UInt8}
      (hfits : 4 + (networkBytes front).length + data.length ≤
        BoatStoreFile.network.room .flash) :
      ((d.lowerNetworks front []).put .network .flash
        (4 + (networkBytes front).length) data).HoldsNetworks .flash
          (front ++ []) := by
    right
    have hholds := lowerNetworks_put hheld hfits
    rw [List.append_nil] at hholds ⊢
    rw [List.length_map]
    exact hholds
  have hthree : 4 + (networkBytes front).length + [(0 : UInt8), 0, 0].length ≤
      BoatStoreFile.network.room .flash := by
    simp only [List.length_cons, List.length_nil]
    omega
  have hfour (num : Nat) : 4 + (networkBytes front).length +
      (utilityGetNumBytes num).length ≤
        BoatStoreFile.network.room .flash := by
    rw [length_utilityGetNumBytes]
    omega
  have hclear := store_runs (d.lowerNetworks front []) _ (by decide)
    (by decide) hthree
  unfold clearLastNetwork
  refine call_ends (hclear.ends fuse) ?_ ?_ ?_
  · rintro _ _ (⟨_, _, rfl⟩ | ⟨_, _, _, _, _, herror, _⟩)
    · exact Ends.pure ⟨rfl, hgone hthree⟩
    · cases herror
  · rintro code _ (⟨_, herror, _⟩ | ⟨_, _, _, _, rfl, _, rfl⟩)
    · cases herror
    · have hcount := store_runs (d.lowerNetworks front [])
        (utilityGetNumBytes (front ++ [network]).length) (by decide)
        (by simp [utilityGetNumBytes]) (hfour _)
      exact Ends.of_ok hcount.spared.run ⟨rfl, hgone (hfour _)⟩
  · rintro _ (⟨_, herror, _⟩ | ⟨_, _, _, ⟨code, rfl⟩, _, herror, _⟩)
    · cases herror
    · cases herror

/-- The lower count is undone. -/
theorem recount_file :
    ((d.lowerNetworks front back).put .network .flash 0
      (utilityGetNumBytes (front ++ network :: back).length)).file =
        d.file := by
  have hne : (front ++ network :: back).map NetworkRecord.record ≠ [] := by
    simp
  have hcount := (holds_append.mp (hheld.holds hne)).1.1
  rw [List.length_map] at hcount
  have hroom := BoatStoreFile.four_le_room .network .flash
  apply Subtype.ext
  change ((d.lowerNetworks front back).put .network .flash 0
    (utilityGetNumBytes (front ++ network :: back).length)).bytes .network
      .flash = d.bytes .network .flash
  rw [put_bytes hroom, Device.lowerNetworks, Device.lowerCount,
    put_bytes hroom]
  exact hcount.write_back rfl

/-- The networks behind the deleted one move over it. -/
theorem moveNetworks_ends (hbehind : back ≠ []) (hspares : Spares fuse
    (lowerNetworkOps front)) :
    Ends (moveNetworks (front ++ network :: back).length
        ⟨back.length, 4 + (networkBytes front).length,
          4 + (networkBytes front).length + network.record.length⟩)
      ⟨d.lowerNetworks front back, spend fuse (lowerNetworkOps front)⟩
      (NetworkDeleted d front network back fuse) := by
  have hbody := lowerNetworks_body hheld
  have hmoved := (holds_append.mp (holds_append.mp hbody).2).2
  have hroom := hbody.2
  rw [List.length_append, List.length_append] at hroom
  have hfits : 4 + (networkBytes front).length + (networkBytes back).length ≤
      BoatStoreFile.network.room .flash := by omega
  have hne : networkBytes back ≠ [] := by
    cases back with
    | nil => exact absurd rfl hbehind
    | cons head tail =>
        intro hnil
        exact head.record_ne_nil (List.append_eq_nil_iff.mp hnil).1
  have hgather : gatherNetworkOps back = back.length + 2 := if_neg hbehind
  have htorn (spent k : Nat) {e : Failure} {t : Device}
      (hspent : spent + k < back.length + 2)
      (hspend : spend fuse (lowerNetworkOps front + spent) = some k)
      (hspares : Spares fuse (lowerNetworkOps front + spent))
      (he : e.Coded) (ht : t = d.lowerNetworks front back) :
      NetworkDeleted d front network back fuse (.error e) ⟨t, none⟩ := by
    obtain ⟨code, rfl⟩ := he
    have hfuse := eq_some_of_spend hspares hspend
    exact .torn _ _ code hfuse (by omega) (by rw [hgather]; omega) hbehind ht
  have hlengths := networksLength_runs fun _ => hmoved
  have hmalloc : Reads (boatMalloc boatErrorCommonOutOfMemory)
      (d.lowerNetworks front back) 1 (.ok ()) :=
    Runs.tick ⟨_, rfl⟩ rfl
  have hread := hmoved.read (by decide) (List.length_pos_of_ne_nil hne)
    (Nat.le_refl _)
  rw [List.take_length] at hread
  have hreadCode : Reads (withCode boatErrorStorageFileReadFail
      (boatReadSoftRotNvram .network
        (4 + (networkBytes front).length + network.record.length)
          (networkBytes back).length .flash))
      (d.lowerNetworks front back) 1 (.ok (networkBytes back)) :=
    withCode_runs hread
  have hstore := store_runs (d.lowerNetworks front back) _ (by decide) hne hfits
  unfold moveNetworks
  refine hlengths.bind_ends (fun k e t hspend hk he ht => ?_) fun hspend => ?_
  · exact htorn 0 k (by omega) (by rwa [Nat.add_zero])
      (by rwa [Nat.add_zero]) he ht
  have hspares := spares_add.mpr ⟨hspares, hspend⟩
  rw [spend_add]
  refine hmalloc.bind_ends (fun k e t hspend hk he ht => ?_) fun hspend => ?_
  · exact htorn back.length k (by omega) hspend hspares he ht
  have hspares := spares_add.mpr ⟨hspares, hspend⟩
  rw [spend_add, Nat.add_assoc (lowerNetworkOps front)]
  rw [Nat.add_assoc (lowerNetworkOps front)] at hspares
  refine hreadCode.bind_ends (fun k e t hspend hk he ht => ?_) fun hspend => ?_
  · exact htorn (back.length + 1) k (by omega) hspend hspares he ht
  have hspares := spares_add.mpr ⟨hspares, hspend⟩
  rw [spend_add, Nat.add_assoc (lowerNetworkOps front)]
  rw [Nat.add_assoc (lowerNetworkOps front)] at hspares
  have hops : back.length + 1 + 1 = gatherNetworkOps back := hgather.symm
  rw [hops] at hspares ⊢
  refine call_ends (hstore.ends _) ?_ ?_ ?_
  · rintro _ _ (⟨_, _, rfl⟩ | ⟨_, _, _, _, _, herror, _⟩)
    · refine Ends.pure (.removed _ (fun k hk => ?_) ?_)
      · obtain rfl := Option.mem_def.mp hk
        exact spares_some.mp hspares
      · right
        have hput := lowerNetworks_put hheld hfits
        have hback := holds_put (d := d.lowerNetworks front back) hfits
        rw [List.map_append, List.flatten_append, ← List.append_assoc]
        refine holds_append.mpr ⟨?_, ?_⟩
        · rw [List.length_append, List.length_map, List.length_map,
            ← List.length_append]
          exact hput
        · rw [List.length_append, length_utilityGetNumBytes, Nat.zero_add]
          exact hback
    · cases herror
  · rintro code _ (⟨_, herror, _⟩ | ⟨hburnt, _, _, _, rfl, _, rfl⟩)
    · cases herror
    · cases hfuse : fuse with
      | none =>
          rw [hfuse] at hburnt
          exact absurd (spares_none _) hburnt
      | some k =>
          rw [hfuse] at hspares
          have hcount := store_runs (d.lowerNetworks front back)
            (utilityGetNumBytes (front ++ network :: back).length) (by decide)
            (by simp [utilityGetNumBytes])
            (BoatStoreFile.four_le_room .network .flash)
          refine Ends.of_error (run_bind_ok hcount.spared.run) ?_
          exact .recounted _ k _ rfl (spares_some.mp hspares)
            (recount_file hheld)
  · rintro _ (⟨_, herror, _⟩ | ⟨_, _, _, ⟨code, rfl⟩, _, herror, _⟩)
    · cases herror
    · cases herror

/-- The delete of a network that is there. -/
theorem deletePersistentNetwork_ends
    (hcount : (front ++ network :: back).length < 0x100)
    (hhere : network.Is protocol index)
    (habsent : ∀ other ∈ front, ¬other.Is protocol index)
    (fuse : Option Nat) :
    Ends (deletePersistentNetwork protocol index) ⟨d, fuse⟩
      (NetworkDeleted d front network back fuse) := by
  have hnum := readNetworkNum_runs hheld (by simp) hcount
  have hfind := findNetwork_found (hheld.networkBody (by simp)) hhere habsent
  have hlower := lowerNetworkCount_runs d network front back
  have hunlowered (spent k : Nat) {e : Failure} {t : Device}
      (hspent : spent + k < 1 + 3 * (front.length + 1) + 1)
      (hspend : spend fuse spent = some k) (hspares : Spares fuse spent)
      (he : e.Coded) (ht : t = d) :
      NetworkDeleted d front network back fuse (.error e) ⟨t, none⟩ := by
    obtain ⟨code, rfl⟩ := he
    exact .unlowered _ _ code (eq_some_of_spend hspares hspend) hspent ht
  have hops : 1 + 3 * (front.length + 1) + 1 = lowerNetworkOps front := rfl
  unfold deletePersistentNetwork
  refine hnum.bind_ends (fun k e t hspend hk he ht => ?_) fun hspares => ?_
  · exact hunlowered 0 k (by omega) (by rwa [spend_zero]) (spares_zero fuse) he ht
  refine hfind.bind_ends (fun k e t hspend hk he ht => ?_) fun hspend => ?_
  · exact hunlowered 1 k (by omega) hspend hspares he ht
  have hspares := spares_add.mpr ⟨hspares, hspend⟩
  rw [spend_add]
  refine hlower.bind_ends (fun k e t hspend hk he ht => ?_) fun hspend => ?_
  · exact hunlowered (1 + 3 * (front.length + 1)) k (by omega) hspend hspares
      he ht
  have hspares := spares_add.mpr ⟨hspares, hspend⟩
  rw [spend_add, hops]
  rw [hops] at hspares
  by_cases hback : back = []
  · have hgather : gatherNetworkOps back = 0 := if_pos hback
    rw [if_pos (by rw [hback]; rfl)]
    refine (clearLastNetwork_ends hheld hback _).mono ?_
    rintro _ t ⟨rfl, hregion⟩
    refine .removed t (fun k hk => ?_) hregion
    obtain rfl := Option.mem_def.mp hk
    rw [hgather]
    exact spares_some.mp hspares
  · rw [if_neg fun hzero => hback (List.eq_nil_of_length_eq_zero hzero)]
    exact moveNetworks_ends hheld hback hspares

end Delete

section Absent

variable (hheld : d.HoldsNetworks .flash networks)

include hheld

theorem readNetworkNum_none (hnone : networks = []) :
    ∃ code, Reads (readNetworkNum .flash) d 1 (.error (.code code)) := by
  subst hnone
  have hread := readCount_runs d .network .flash (by decide)
  unfold readNetworkNum
  rcases hheld.look_count (by decide) with hlook | ⟨_, ⟨code, hlook⟩ |
    ⟨header, hlook, hcheck⟩⟩
  · rw [hlook] at hread
    refine ⟨boatErrorNetworkInexistence, hread.bind (b := 0) ?_⟩
    exact Runs.stop rfl
  · rw [hlook] at hread
    exact ⟨code, hread.bind_error⟩
  · rw [hlook] at hread
    refine ⟨boatErrorNetworkInexistence, hread.bind (b := 0) ?_⟩
    simp only [hcheck]
    exact Runs.throw

/-- The delete of a network that is not there. -/
theorem deletePersistentNetwork_absent (hcount : networks.length < 0x100)
    (habsent : ∀ other ∈ networks, ¬other.Is protocol index) :
    ∃ ops code, Reads (deletePersistentNetwork protocol index) d ops
      (.error (.code code)) := by
  by_cases hnone : networks = []
  · obtain ⟨code, hnum⟩ := readNetworkNum_none hheld hnone
    exact ⟨1, code, hnum.bind_error⟩
  · have hnum := readNetworkNum_runs hheld hnone hcount
    have hfind := findNetwork_absent (fun hne => hheld.networkBody hne) habsent
    refine ⟨_, boatErrorNetworkInexistence, hnum.bind (hfind.bind (b := 0) ?_)⟩
    exact Runs.throw

end Absent

theorem deleteOnetimeNetwork_preserves :
    Preserves Device.flash deleteOnetimeNetwork := by
  refine Preserves.bind ?_ fun _ => store_preserves_flash (by decide) _ _ _
  refine (read_preserves _ _ _ _).bind fun _ => ?_
  split
  next => exact Preserves.throw
  next => exact Preserves.failIf.bind fun _ => Preserves.pure

/-- How the delete of a network ends. -/
inductive NetworkDeleteEnd (d : Device) (networks : List NetworkRecord)
    (protocol : BoatProtocolType) (index : UInt8) (fuse : Option Nat) :
    Except Failure Unit → Fused Device → Prop where
  | present (front : List NetworkRecord) (network : NetworkRecord)
      (back : List NetworkRecord) (split : networks = front ++ network :: back)
      (here : network.Is protocol index) (persistent : index ≠ 0)
      (before : ∀ other ∈ front, ¬other.Is protocol index)
      (r : Except Failure Unit) (t : Fused Device)
      (deleted : NetworkDeleted d front network back fuse r t) :
      NetworkDeleteEnd d networks protocol index fuse r t
  | onetime (zero : index = 0) (r : Except Failure Unit) (t : Fused Device)
      (same : t.state.flash = d.flash) :
      NetworkDeleteEnd d networks protocol index fuse r t
  | absent (code : BoatResult) (t : Fused Device)
      (missing : index.toNat ≤ boatMaxNetworkNum → index ≠ 0 →
        ∀ other ∈ networks, ¬other.Is protocol index) (same : t.state = d) :
      NetworkDeleteEnd d networks protocol index fuse (.error (.code code)) t

theorem networkDelete_ends (hheld : d.HoldsNetworks .flash networks)
    (hcount : networks.length < 0x100) (protocol : BoatProtocolType)
    (index : UInt8) (fuse : Option Nat) :
    Ends (networkDelete protocol index) ⟨d, fuse⟩
      (NetworkDeleteEnd d networks protocol index fuse) := by
  by_cases hmax : boatMaxNetworkNum < index.toNat
  · have hstop : networkDelete protocol index ⟨d, fuse⟩ =
        .error (.code boatErrorNetworkIndexExceed) ⟨d, fuse⟩ := by
      unfold networkDelete
      rw [failIf, if_pos hmax]
      rfl
    exact Ends.of_error hstop
      (.absent _ _ (fun hle => absurd hmax (Nat.not_lt.mpr hle)) rfl)
  · have hpass : networkDelete protocol index = if index = 0 then
        deleteOnetimeNetwork else deletePersistentNetwork protocol index := by
      unfold networkDelete
      rw [failIf, if_neg hmax]
      rfl
    rw [hpass]
    by_cases hzero : index = 0
    · rw [if_pos hzero]
      exact (deleteOnetimeNetwork_preserves ⟨d, fuse⟩).mono
        fun r t hsame => .onetime hzero r t hsame
    · rw [if_neg hzero]
      by_cases hhere : ∃ network ∈ networks, network.Is protocol index
      · obtain ⟨front, network, back, rfl, his, hbefore⟩ :=
          exists_first hhere
        exact (deletePersistentNetwork_ends hheld hcount his hbefore fuse).mono
          fun r t hdeleted => .present front network back rfl his hzero
            hbefore r t hdeleted
      · have habsent : ∀ other ∈ networks, ¬other.Is protocol index :=
          fun other hother his => hhere ⟨other, hother, his⟩
        obtain ⟨ops, code, hruns⟩ :=
          deletePersistentNetwork_absent hheld hcount habsent
        refine (hruns.ends fuse).mono ?_
        rintro _ _ (⟨_, rfl, rfl⟩ | ⟨_, _, _, ⟨code, rfl⟩, rfl, rfl, rfl⟩)
        · exact .absent _ _ (fun _ _ => habsent) rfl
        · exact .absent _ _ (fun _ _ => habsent) rfl

end BoatFramework
