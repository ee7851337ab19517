/-
The onetime network in RAM over runs of calls and restarts.  A new one takes the
place of the one before; where its data has no room, its protocol and index are
written over those of the one before all the same.
-/
import BoatFramework.Network.Consistent

namespace BoatFramework

open Fuse Exec

/-- The network data of a kind always has room in RAM. -/
def NetworkKind.FitsRam (kind : NetworkKind) : Prop :=
  ∀ data networkData, kind.getNetworkData data = .ok networkData →
    4 + 5 + networkData.length ≤ BoatStoreFile.network.room .ram

/-- The body is one of the protocol, where that has always room in RAM. -/
def NetworkRecord.Onetime (unpack : NetworkUnpack) (network : NetworkRecord) :
    Prop :=
  ∀ kind ∈ boatNetworks unpack, kind.protocol = network.protocol →
    kind.FitsRam → kind.Stored network.body

/-- The onetime network, where there is one. -/
def Device.onetimeNetworks (d : Device) : List NetworkRecord :=
  (d.storedNetworks .ram).getD []

/-- A device with one network in RAM at most. -/
def Device.SoundOnetime (unpack : NetworkUnpack) (d : Device) : Prop :=
  ∃ networks, d.HoldsNetworks .ram networks ∧ networks.length ≤ 1 ∧
    ∀ network ∈ networks, network.Onetime unpack

/-- The devices of runs of clear calls from a device without networks; a
restart forgets the network in RAM. -/
inductive DeviceReachable (unpack : NetworkUnpack) : Device → Prop where
  | erased {d : Device} (hflash : d.Unset .network .flash)
      (hram : d.Unset .network .ram) : DeviceReachable unpack d
  | step {d : Device} (call : NetworkCall) (fuse : Option Nat)
      (hreach : DeviceReachable unpack d) (hclear : call.Clear unpack fuse) :
      DeviceReachable unpack (call.after d fuse)
  | restart {d d' : Device} (hreach : DeviceReachable unpack d)
      (hflash : d'.flash = d.flash) (hram : d'.Unset .network .ram) :
      DeviceReachable unpack d'

variable {unpack : NetworkUnpack} {d d' : Device} {kind : NetworkKind}
  {network : NetworkRecord} {networks : List NetworkRecord}
  {protocol : BoatProtocolType} {index : UInt8} {fuse : Option Nat}
  {data : List UInt8} {offset : Nat}

theorem Device.Region.onetimeNetworks_eq (hheld : d.HoldsNetworks .ram networks)
    (hone : networks.length ≤ 1) : d.onetimeNetworks = networks := by
  rw [Device.onetimeNetworks, hheld.storedNetworks (by omega)]
  rfl

/-- Only the block holds the networks in RAM. -/
theorem holdsNetworks_of_ram
    (hram : d'.ramBoatNetworkData = d.ramBoatNetworkData)
    (hheld : d.HoldsNetworks .ram networks) :
    d'.HoldsNetworks .ram networks := by
  have hbytes : d'.bytes .network .ram = d.bytes .network .ram :=
    congrArg Subtype.val hram
  rcases hheld with ⟨hnil, hunset⟩ | hholds
  · refine Or.inl ⟨hnil, ?_⟩
    rw [Device.Unset, hbytes]
    exact hunset
  · refine Or.inr ⟨?_, hholds.2⟩
    rw [hbytes]
    exact hholds.1

theorem Device.SoundOnetime.of_ram (hsound : d.SoundOnetime unpack)
    (hram : d'.ramBoatNetworkData = d.ramBoatNetworkData) :
    d'.SoundOnetime unpack := by
  obtain ⟨networks, hheld, hone, hof⟩ := hsound
  exact ⟨networks, holdsNetworks_of_ram hram hheld, hone, hof⟩

theorem soundOnetime_unset (hunset : d.Unset .network .ram) :
    d.SoundOnetime unpack :=
  ⟨[], Or.inl ⟨rfl, hunset⟩, Nat.zero_le 1, fun _ hmem => by cases hmem⟩

section Create

/-- The device after the protocol and the index of a onetime network are
written. -/
def Device.retitle (d : Device) (protocol : BoatProtocolType) (index : UInt8) :
    Device :=
  (d.put .network .ram 4 protocol.bytes).put .network .ram 8 [index]

theorem title_fits (protocol : BoatProtocolType) (index : UInt8) :
    4 + protocol.bytes.length ≤ BoatStoreFile.network.room .ram ∧
      8 + [index].length ≤ BoatStoreFile.network.room .ram := by
  rw [BoatProtocolType.bytes, length_enumBytes, List.length_singleton]
  decide

theorem retitle_holds {rest : List UInt8}
    (hholds : d.Holds .network .ram 0 (utilityGetNumBytes 1 ++
      (network.protocol.bytes ++ ([network.index] ++ rest)))) :
    (d.retitle protocol index).Holds .network .ram 0 (utilityGetNumBytes 1 ++
      (protocol.bytes ++ ([index] ++ rest))) := by
  have hfour : (utilityGetNumBytes 1).length = 4 := rfl
  have hroom : BoatStoreFile.network.room .ram = 5120 := rfl
  obtain ⟨hfirst, hsecond⟩ := title_fits protocol index
  obtain ⟨hcount, hrecord⟩ := holds_append.mp hholds
  obtain ⟨_, hvalue⟩ := holds_append.mp hrecord
  obtain ⟨_, hrest⟩ := holds_append.mp hvalue
  refine holds_append.mpr ⟨(hcount.put_before hfirst (Nat.le_refl _)).put_before
    hsecond (by rw [hfour]; decide), ?_⟩
  refine holds_append.mpr ⟨(holds_put hfirst).put_before hsecond
    (Nat.le_refl _), ?_⟩
  refine holds_append.mpr ⟨holds_put hsecond, ?_⟩
  exact (hrest.put_after hfirst (Nat.le_succ 8)).put_after hsecond
    (Nat.le_refl _)

/-- The network in RAM with another protocol and index. -/
def NetworkRecord.retitled (network : NetworkRecord)
    (protocol : BoatProtocolType) (index : UInt8) : NetworkRecord :=
  { network with protocol := protocol, index := index }

theorem Device.Region.retitle (hheld : d.HoldsNetworks .ram networks)
    (hone : networks.length ≤ 1) (protocol : BoatProtocolType)
    (index : UInt8) :
    (d.retitle protocol index).HoldsNetworks .ram
      (networks.map (·.retitled protocol index)) := by
  obtain ⟨hfirst, hsecond⟩ := title_fits protocol index
  rcases hheld with ⟨hnil, hunset⟩ | hholds
  · obtain rfl : networks = [] := List.map_eq_nil_iff.mp hnil
    exact Or.inl ⟨rfl, (hunset.put hfirst (Nat.le_refl _)).put hsecond
      (by decide)⟩
  · match networks, hone with
    | [], _ =>
        refine Or.inr ?_
        have hcount := hholds.put_before hfirst (Nat.le_refl _)
        exact hcount.put_before hsecond (by decide)
    | [network], _ =>
        refine Or.inr ?_
        change d.Holds .network .ram 0 (utilityGetNumBytes 1 ++
          (network.record ++ [])) at hholds
        rw [List.append_nil] at hholds
        change Device.Holds _ _ _ 0 (utilityGetNumBytes 1 ++
          ((network.retitled protocol index).record ++ []))
        rw [List.append_nil]
        exact retitle_holds hholds

/-- Data that RAM has no room for is refused. -/
theorem store_ram_full (hne : data ≠ [])
    (hlong : BoatStoreFile.network.rambufLen < offset + data.length)
    (hwidth : offset + data.length < 2 ^ 32) :
    Reads (boatStoreSoftRotNvram .network offset data .ram) d 0
      (.error (.code boatErrorCommonOutOfMemory)) := by
  have hmax : ¬BoatStoreFile.network.maxLen < buint32 (offset + data.length) := by
    rw [buint32_of_lt hwidth]
    exact Nat.not_lt.mpr (Nat.le_of_lt hwidth)
  have hargs : ¬(data.length = 0 ∨ BoatStoreType.ram = .unknown) := by
    simp [hne]
  unfold boatStoreSoftRotNvram
  refine Runs.pass hmax (Runs.pass hargs (Runs.stop ?_))
  rwa [buint32_of_lt hwidth]

/-- Network data without room leaves its protocol and index behind. -/
theorem writeNetwork_ram_full (hne : data ≠ [])
    (hlong : BoatStoreFile.network.room .ram < 9 + data.length)
    (hwidth : 9 + data.length < 2 ^ 32) (num : Nat) :
    Spared (writeNetwork protocol index data .ram num 4) d 0
      (.error (.code boatErrorCommonOutOfMemory)) (d.retitle protocol index) := by
  obtain ⟨hfirst, hsecond⟩ := title_fits protocol index
  have hknown : BoatStoreType.ram ≠ .unknown := by decide
  refine Spared.cast (a := 0 + (0 + 0)) ?_ rfl
  refine (store_runs d protocol.bytes hknown (List.cons_ne_nil _ _)
    hfirst).spared.bind ?_
  refine (store_runs _ [index] hknown (List.cons_ne_nil _ _)
    hsecond).spared.bind ?_
  exact (store_ram_full hne hlong hwidth).spared.bind_error

variable {networkConfig : kind.Config}

/-- The stored form of a configuration that fits. -/
theorem NetworkKind.Fits.form (hkind : kind ∈ boatNetworks unpack)
    (hfits : kind.Fits networkConfig)
    (hstored : kind.storedForm networkConfig index = .ok data) :
    ∃ body, 2 ≤ body.length ∧ body.length < 0x10000 ∧
      data = LengthValue.encode body := by
  have hform := hfits index
  rw [hstored] at hform
  obtain ⟨_, _, _, hgot⟩ := storedForm_ok hstored
  obtain ⟨body, htwo, rfl⟩ := boatNetworks_body hkind hgot
  obtain ⟨hlen, hencode⟩ := addLWithOffset_short htwo hform
  exact ⟨body, htwo, hlen, hencode⟩

/-- A network that is written in RAM, or the one before under its protocol. -/
theorem appendNetwork_ram (hkind : kind ∈ boatNetworks unpack)
    (hsound : d.SoundOnetime unpack) {filled : kind.Data} {body : List UInt8}
    (hsized : 2 ≤ body.length ∧ body.length < 0x10000)
    (hgot : kind.getNetworkData filled = .ok (LengthValue.encode body)) :
    Ends (writeNetwork kind.protocol (kind.networkIndex filled)
      (LengthValue.encode body) .ram 0 4) ⟨d, none⟩
        fun _ t => t.state.SoundOnetime unpack := by
  obtain ⟨networks, hheld, hone, hof⟩ := hsound
  have hlength := LengthValue.length_encode body
  have hheader := LengthValue.length_header body.length
  have hroom : BoatStoreFile.network.room .ram = 5120 := rfl
  by_cases hlong : BoatStoreFile.network.room .ram <
      9 + (LengthValue.encode body).length
  · have hfull : Spared (writeNetwork kind.protocol (kind.networkIndex filled)
        (LengthValue.encode body) .ram 0 4) d 0
          (.error (.code boatErrorCommonOutOfMemory))
          (d.retitle kind.protocol (kind.networkIndex filled)) :=
      writeNetwork_ram_full (LengthValue.encode_ne_nil body) hlong (by omega) 0
    have hrun := hfull.run
    refine Ends.of_error hrun ⟨_, hheld.retitle hone _ _, ?_, ?_⟩
    · rw [List.length_map]
      exact hone
    · intro network hmem other hother hprotocol hfits
      obtain ⟨before, _, rfl⟩ := List.mem_map.mp hmem
      obtain rfl := boatNetworks_inj hother hkind hprotocol
      have hfit := hfits _ _ hgot
      omega
  · let network : NetworkRecord := ⟨kind.protocol, kind.networkIndex filled,
      body, hsized⟩
    have hrun := (writeNetworkIn_spared d kind.protocol
      (kind.networkIndex filled) (by decide : BoatStoreType.ram ≠ .unknown)
      (LengthValue.encode_ne_nil body) (by omega :
        4 + 5 + (LengthValue.encode body).length ≤
          BoatStoreFile.network.room .ram) 0).run
    have hroomFor : 4 + (networkBytes []).length + network.record.length ≤
        BoatStoreFile.network.room .ram := by
      rw [← network.length_data]
      change 4 + 0 + (5 + (LengthValue.encode body).length) ≤ _
      omega
    have hheldAfter : (d.writeNetworkIn .ram (4 + 0) 0 network.protocol
        network.index (LengthValue.encode network.body)).HoldsNetworks .ram
          ([] ++ [network]) :=
      holdsNetworks_writeNetworkIn network (fun hne => absurd rfl hne) hroomFor
    refine Ends.of_ok hrun ⟨[network], hheldAfter, Nat.le_refl 1, ?_⟩
    intro other hmem
    rw [List.mem_singleton.mp hmem]
    intro otherKind hother hprotocol _
    obtain rfl := boatNetworks_inj hother hkind hprotocol
    exact ⟨filled, hgot⟩

/-- A create call for RAM leaves one network there at most. -/
theorem networkCreate_onetime (hkind : kind ∈ boatNetworks unpack)
    (hsound : d.SoundOnetime unpack) (hfits : kind.Fits networkConfig) :
    Ends (networkCreate kind networkConfig .ram) ⟨d, none⟩
      fun _ t => t.state.SoundOnetime unpack := by
  obtain ⟨networks, hheld, hone, hof⟩ := hsound
  have hsound : d.SoundOnetime unpack := ⟨networks, hheld, hone, hof⟩
  have hnum := (readNumOrZero_spared hheld (by decide) (by
    rw [List.length_map]
    omega)).run
  rw [List.length_map] at hnum
  unfold networkCreate
  refine (ofOutcome_ends _ _).bind ?_ fun _ _ hlast => by rwa [hlast.2]
  rintro _ _ ⟨hcheck, rfl⟩
  refine Ends.bind (Q := fun r t => r = .ok 0 ∧ t = ⟨d, none⟩)
    (Ends.pure ⟨rfl, rfl⟩) ?_ fun _ _ hlast => by rwa [hlast.2]
  rintro _ _ ⟨hindex, rfl⟩
  cases hindex
  refine (ofOutcome_ends _ _).bind ?_ fun _ _ hlast => by rwa [hlast.2]
  rintro filled _ ⟨hfilled, rfl⟩
  have hstore : Ends (networkDataCtxStore kind filled .ram) ⟨d, none⟩
      fun _ t => t.state.SoundOnetime unpack := by
    refine Ends.bind (Ends.of_ok hnum (Q := fun r t =>
      r = .ok networks.length ∧ t = ⟨d, none⟩) ⟨rfl, rfl⟩) ?_
        fun _ _ hlast => by rwa [hlast.2]
    rintro _ _ ⟨hvalue, rfl⟩
    cases hvalue
    have hpass : ¬boatMaxNetworkNum ≤ networks.length :=
      Nat.not_le.mpr (Nat.lt_of_le_of_lt hone (by decide))
    rw [failIf, if_neg hpass]
    change Ends (appendNetwork kind filled .ram 0) _ _
    refine Ends.bind (Q := fun r t => r = .ok 4 ∧ t = ⟨d, none⟩)
      (Ends.pure ⟨rfl, rfl⟩) ?_ fun _ _ hlast => by rwa [hlast.2]
    rintro _ _ ⟨hoffset, rfl⟩
    cases hoffset
    refine (ofOutcome_ends _ _).bind ?_ fun _ _ hlast => by rwa [hlast.2]
    rintro networkData _ ⟨hgot, rfl⟩
    have hform : kind.storedForm networkConfig 0 = .ok networkData := by
      rw [storedForm_of_ok hcheck.symm, ← hfilled]
      exact hgot.symm
    obtain ⟨body, htwo, hlen, rfl⟩ := hfits.form hkind hform
    exact appendNetwork_ram hkind hsound ⟨htwo, hlen⟩ hgot.symm
  refine hstore.bind ?_ fun _ _ hlast => hlast
  exact fun _ _ hlast => Ends.pure hlast

end Create

section Delete

/-- A delete of the onetime network leaves none. -/
theorem deleteOnetimeNetwork_onetime (hsound : d.SoundOnetime unpack)
    (fuse : Option Nat) :
    Ends deleteOnetimeNetwork ⟨d, fuse⟩
      fun _ t => t.state.SoundOnetime unpack := by
  have hnum : Preserves (fun d : Device => d) (readNetworkNum .ram) :=
    readNetworkNum_preserves .ram
  refine (hnum ⟨d, fuse⟩).bind ?_ ?_
  · intro _ s _
    have hfour : 0 + [(0 : UInt8), 0, 0, 0].length ≤
        BoatStoreFile.network.room .ram := by decide
    have hstore := (store_runs s.state [0, 0, 0, 0]
      (by decide : BoatStoreType.ram ≠ .unknown) (List.cons_ne_nil _ _)
      hfour).spared.run_free s.fuse
    refine Ends.of_ok hstore (soundOnetime_unset (Or.inr ?_))
    exact ⟨[0, 0, 0, 0], rfl, rfl, (holds_put hfour).1⟩
  · intro _ s hsame
    change s.state = d at hsame
    rw [hsame]
    exact hsound

theorem findNetwork_preserves {γ : Type} {view : Device → γ}
    (num offset : Nat) :
    Preserves view (findNetwork protocol index num offset) := by
  induction num generalizing offset with
  | zero => exact Preserves.pure
  | succ left ih =>
      refine (read_preserves _ _ _ _).bind fun _ => ?_
      refine (readByte_preserves _ _ _).bind fun _ => ?_
      refine (readLength_preserves _ _ _).bind fun _ => ?_
      exact Preserves.ite (fun _ => Preserves.pure) fun _ => ih _

theorem networksLength_preserves {γ : Type} {view : Device → γ}
    (num offset : Nat) : Preserves view (networksLength num offset) := by
  induction num generalizing offset with
  | zero => exact Preserves.pure
  | succ left ih =>
      refine (readLength_preserves _ _ _).bind fun _ => ?_
      exact (ih _).bind fun _ => Preserves.pure

/-- A delete of a persistent network leaves the onetime network. -/
theorem deletePersistentNetwork_preserves (protocol : BoatProtocolType)
    (index : UInt8) :
    Preserves Device.ramBoatNetworkData
      (deletePersistentNetwork protocol index) := by
  have hstore (offset : Nat) (data : List UInt8) :=
    store_preserves_ram (by decide : BoatStoreType.flash ≠ .ram) .network offset
      data
  have hclear (num offset : Nat) : Preserves Device.ramBoatNetworkData
      (clearLastNetwork num offset) := by
    refine (attemptCall_preserves (hstore _ _)).bind fun r => ?_
    cases r with
    | ok _ => exact Preserves.pure
    | error _ => exact hstore _ _
  have hmove (num : Nat) (place : Place) : Preserves Device.ramBoatNetworkData
      (moveNetworks num place) := by
    refine (networksLength_preserves _ _).bind fun _ => ?_
    refine Preserves.tick.bind fun _ => ?_
    refine (withCode_preserves (read_preserves _ _ _ _)).bind fun data => ?_
    refine (attemptCall_preserves (hstore _ _)).bind fun r => ?_
    cases r with
    | ok _ => exact Preserves.pure
    | error _ => exact (hstore _ _).bind fun _ => Preserves.throw
  refine (readNetworkNum_preserves _).bind fun num => ?_
  refine (findNetwork_preserves num 4).bind fun found => ?_
  cases found with
  | none => exact Preserves.throw
  | some place =>
      refine (hstore _ _).bind fun _ => ?_
      exact Preserves.ite (fun _ => hclear _ _) fun _ => hmove _ _

theorem networkDelete_onetime (hsound : d.SoundOnetime unpack)
    (protocol : BoatProtocolType) (index : UInt8) (fuse : Option Nat) :
    Ends (networkDelete protocol index) ⟨d, fuse⟩
      fun _ t => t.state.SoundOnetime unpack := by
  unfold networkDelete
  by_cases hmax : boatMaxNetworkNum < index.toNat
  · rw [failIf, if_pos hmax]
    exact Ends.of_error rfl hsound
  · rw [failIf, if_neg hmax]
    by_cases hzero : index = 0
    · rw [if_pos hzero]
      exact deleteOnetimeNetwork_onetime hsound fuse
    · rw [if_neg hzero]
      exact (deletePersistentNetwork_preserves protocol index
        ⟨d, fuse⟩).mono fun _ _ hram => hsound.of_ram hram

end Delete

/-- A clear call leaves one network in RAM at most. -/
theorem NetworkCall.Clear.onetime {call : NetworkCall}
    (hsound : d.SoundOnetime unpack) (hclear : call.Clear unpack fuse) :
    (call.after d fuse).SoundOnetime unpack := by
  cases call with
  | create kind networkConfig storeType =>
      obtain ⟨hkind, hfits, rfl⟩ := hclear
      by_cases hram : storeType = .ram
      · subst hram
        exact after_of_ends (networkCreate_onetime hkind hsound hfits)
          fun _ _ hlast => hlast
      · exact after_of_ends (networkCreate_preserves
          (store_preserves_ram hram .network) ⟨d, none⟩)
            fun _ _ hsame => hsound.of_ram hsame
  | delete kind index =>
      have hends : Ends (NetworkCall.delete kind index).run ⟨d, fuse⟩
          fun _ t => t.state.SoundOnetime unpack :=
        (networkDelete_onetime hsound kind.protocol index fuse).bind
          (fun _ _ hlast => Ends.pure hlast) fun _ _ hlast => hlast
      exact after_of_ends hends fun _ _ hlast => hlast
  | fetch kind index =>
      have hpreserves : Preserves Device.ramBoatNetworkData
          (NetworkCall.fetch kind index).run :=
        (getNetworkByIndex_preserves hclear index).bind fun _ => Preserves.pure
      exact after_of_ends (hpreserves ⟨d, fuse⟩)
        fun _ _ hsame => hsound.of_ram hsame

/-- A clear call, whether it meets a fault or not, keeps the networks in flash
those of their protocols. -/
theorem NetworkCall.Clear.sound {call : NetworkCall}
    (hsound : d.SoundNetworks unpack) (hclear : call.Clear unpack fuse) :
    (call.after d fuse).SoundNetworks unpack := by
  have hsame {c : Nvram UInt8} (hpreserves : Preserves Device.flash c) :
      Ends c ⟨d, fuse⟩ fun _ t => t.state.SoundNetworks unpack :=
    (hpreserves ⟨d, fuse⟩).mono fun _ _ hflash =>
      (sound_of_flash hsound hflash).2
  cases call with
  | create kind networkConfig storeType =>
      obtain ⟨hkind, hfits, rfl⟩ := hclear
      have hcreate : (NetworkCall.create kind networkConfig storeType).Clear
          unpack none := ⟨hkind, hfits, rfl⟩
      exact after_of_ends (hcreate.confined hsound) fun _ _ hlast => hlast.2
  | delete kind index =>
      obtain ⟨networks, hheld, htidy, hof⟩ := hsound
      have hfew := htidy.few
      have hkept {r : Except Failure Unit} {t : Fused Device}
          (hend : NetworkDeleteEnd d networks kind.protocol index fuse r t) :
          t.state.SoundNetworks unpack := by
        obtain ⟨kept, hheldAfter, hsublist⟩ := hend.sublist hheld
        exact ⟨kept, hheldAfter, htidy.sublist hsublist,
          fun network hmem => hof network (hsublist.subset hmem)⟩
      have hends : Ends (NetworkCall.delete kind index).run ⟨d, fuse⟩
          fun _ t => t.state.SoundNetworks unpack :=
        (networkDelete_ends hheld (by omega) kind.protocol index fuse).bind
          (fun _ _ hend => Ends.pure (hkept hend)) fun _ _ hend => hkept hend
      exact after_of_ends hends fun _ _ hlast => hlast
  | fetch kind index =>
      exact after_of_ends (hsame ((getNetworkByIndex_preserves hclear
        index).bind fun _ => Preserves.pure)) fun _ _ hlast => hlast

theorem DeviceReachable.sound (hreach : DeviceReachable unpack d) :
    d.SoundNetworks unpack ∧ d.SoundOnetime unpack := by
  induction hreach with
  | erased hflash hram =>
      refine ⟨⟨[], Or.inl ⟨rfl, hflash⟩, tidyNetworks_nil, ?_⟩,
        soundOnetime_unset hram⟩
      exact fun _ hmem => by cases hmem
  | step call fuse _ hclear ih => exact ⟨hclear.sound ih.1, hclear.onetime ih.2⟩
  | restart _ hflash hram ih =>
      obtain ⟨networks, hheld, htidy, hof⟩ := ih.1
      exact ⟨⟨networks, holdsNetworks_of_flash hflash hheld, htidy, hof⟩,
        soundOnetime_unset hram⟩

end BoatFramework
