/-
A network with a packed message over runs of calls: what a fetch gives of it
stays the same until it is deleted.
-/
import BoatFramework.Network.Consistent
import BoatFramework.Network.PackedRoundTrip

namespace BoatFramework

open Fuse Exec

/-- A call that does not delete the network of a protocol and an index. -/
def NetworkCall.Spares (protocol : BoatProtocolType) (index : UInt8) :
    NetworkCall → Prop
  | .delete kind other => ¬(kind.protocol = protocol ∧ other = index)
  | _ => True

variable {unpack : NetworkUnpack} {d d' : Device} {kind : NetworkKind}
  {network : NetworkRecord} {networkConfig : kind.Config} {index : UInt8}

/-- The device after a call as its result says. -/
def stateOf {α : Type} : EStateM.Result Failure (Fused Device) α → Device
  | .ok _ s => s.state
  | .error _ s => s.state

/-- A network stays where it is not deleted. -/
theorem NetworkCall.Confined.keeps {call : NetworkCall}
    {r : EStateM.Result Failure (Fused Device) UInt8}
    (hconfined : call.Confined d r)
    (hspares : call.Spares network.protocol network.index)
    (hmem : network ∈ d.networks) : network ∈ (stateOf r).networks := by
  cases call with
  | create kind networkConfig storeType =>
      cases storeType with
      | flash =>
          cases r with
          | ok index s =>
              obtain ⟨added, _, _, hnetworks⟩ := hconfined
              change network ∈ s.state.networks
              rw [hnetworks]
              exact List.mem_append_left _ hmem
          | error failure s =>
              change s.state.networks = d.networks at hconfined
              exact hconfined ▸ hmem
      | unknown | ram =>
          cases r <;>
          · change _ = d.networks at hconfined
            exact hconfined ▸ hmem
  | fetch kind index =>
      cases r <;>
      · change _ = d.networks at hconfined
        exact hconfined ▸ hmem
  | delete kind index =>
      cases r with
      | error failure s =>
          change s.state.networks = d.networks at hconfined
          exact hconfined ▸ hmem
      | ok other s =>
          change s.state.networks = if index = 0 then d.networks
            else networksWithout d.networks kind.protocol index at hconfined
          change network ∈ s.state.networks
          rw [hconfined]
          split
          next => exact hmem
          next =>
            refine List.mem_filter.mpr ⟨hmem, decide_eq_true ?_⟩
            rintro ⟨hindex, hprotocol⟩
            exact hspares ⟨hprotocol.symm, hindex.symm⟩

/-- A network stays over a run of calls that do not delete it. -/
theorem runNetworkCalls_keeps {calls : List NetworkCall}
    (hsound : d.SoundNetworks unpack)
    (hclear : ∀ call ∈ calls, call.Clear unpack none)
    (hspares : ∀ call ∈ calls, call.Spares network.protocol network.index)
    (hmem : network ∈ d.networks) :
    network ∈ (runNetworkCalls calls d).networks := by
  induction calls generalizing d with
  | nil => exact hmem
  | cons call rest ih =>
      obtain ⟨hcall, hrest⟩ := List.forall_mem_cons.mp hclear
      obtain ⟨hspare, hspared⟩ := List.forall_mem_cons.mp hspares
      have hends := hcall.confined hsound
      have hafter : network ∈ (call.after d none).networks := by
        obtain ⟨r, t, hrun, hlast, _⟩ := hends
        have hkeeps := hlast.keeps hspare hmem
        rw [NetworkCall.after, hrun]
        cases r <;> exact hkeeps
      exact ih (NetworkCall.after_of_ends hends fun _ _ hlast => hlast.2) hrest
        hspared hafter

section Packs

variable {Message : Type} {pack : Message → List UInt8}
  {unpackMessage : List UInt8 → Option Message}
  {toProto : kind.Data → Outcome Message}
  {fromProto : Message → Outcome kind.Data} {message : Message}
  (hpacks : kind.Packs pack unpackMessage toProto fromProto)

include hpacks

/-- A fetch of a network that is there gives what is made of its message. -/
theorem NetworkKind.Packs.fetch_mem (hsound : d.SoundNetworks unpack)
    (hmem : network ∈ d.networks) (hhere : network.Is kind.protocol index)
    (hbody : network.body = pack message) (fetched : kind.Data) :
    getNetworkByIndex kind index ⟨d, none⟩ = .ok fetched ⟨d, none⟩ ↔
      fromProto message = .ok fetched := by
  obtain ⟨networks, hheld, htidy, _⟩ := hsound
  rw [hheld.networks_eq htidy] at hmem
  obtain ⟨front, back, rfl⟩ := List.append_of_mem hmem
  have hfew := htidy.few
  have hsmall := (mem_persistentIndices (htidy.inRange network hmem))
  rw [hhere.1] at hsmall
  have hfront : ∀ other ∈ front, ¬other.Is kind.protocol index := by
    intro other hother his
    have hdistinct := htidy.distinct
    rw [List.map_append, List.map_cons, List.nodup_append] at hdistinct
    exact hdistinct.2.2 _ (List.mem_map_of_mem hother) _ List.mem_cons_self
      (his.1.trans hhere.1.symm)
  have hread := getNetworkByIndex_run (by decide : BoatStoreType.flash ≠ .unknown)
    hhere hfront hheld (by omega) (by rw [if_neg hsmall.1]) hsmall.2
  have hholds := holds_networkBody (hheld.networkBody (by simp))
  obtain ⟨htwo, hlen⟩ := network.sized
  have hunpack : unpackMessage network.body = some message := by
    rw [hbody] at hlen ⊢
    exact hpacks.unpacks message hlen
  rw [hread, hpacks.reads,
    packedNetworkFromNvram_run (by decide) hholds htwo hlen hunpack]
  exact withCode_eq_ok

/-- What a fetch gives of a network in flash stays the same over every run of
calls that do not delete it. -/
theorem NetworkKind.Packs.kept (hkind : kind ∈ boatNetworks unpack)
    (hfits : kind.Fits networkConfig) (before after : List NetworkCall)
    (hunset : d.Unset .network .flash)
    (hbefore : ∀ call ∈ before, call.Clear unpack none)
    (hafter : ∀ call ∈ after, call.Clear unpack none ∧
      call.Spares kind.protocol index)
    (hcreate : networkCreate kind networkConfig .flash
      ⟨runNetworkCalls before d, none⟩ = .ok index ⟨d', none⟩)
    (fetched : kind.Data) :
    getNetworkByIndex kind index ⟨runNetworkCalls after d', none⟩ =
        .ok fetched ⟨runNetworkCalls after d', none⟩ ↔
      getNetworkByIndex kind index ⟨d', none⟩ = .ok fetched ⟨d', none⟩ := by
  have hsound : (runNetworkCalls before d).SoundNetworks unpack :=
    runNetworkCalls_sound
      ⟨[], Or.inl ⟨rfl, hunset⟩, tidyNetworks_nil, by simp⟩ hbefore
  have hclear : (NetworkCall.create kind networkConfig .flash).Clear unpack
      none := ⟨hkind, hfits, rfl⟩
  obtain ⟨r, t, hrun, hconfined, hsoundAfter⟩ := hclear.confined hsound
  have hrun : networkCreate kind networkConfig .flash
      ⟨runNetworkCalls before d, none⟩ = result r t := hrun
  rw [hcreate] at hrun
  cases r with
  | error failure => cases hrun
  | ok created =>
      cases hrun
      obtain ⟨network, hhere, hform, hnetworks⟩ := hconfined
      obtain ⟨data, message, _, _, _, hlen, hbody, _⟩ :=
        hpacks.body hfits hform
      have hsame := LengthValue.encode_inj network.sized.2 hlen hbody
      have hmem : network ∈ d'.networks := by
        change d'.networks = _ at hnetworks
        rw [hnetworks]
        exact List.mem_append_right _ List.mem_cons_self
      have hkeeps := runNetworkCalls_keeps hsoundAfter
        (fun call hcall => (hafter call hcall).1) (fun call hcall => by
          rw [hhere.1, hhere.2]
          exact (hafter call hcall).2) hmem
      have hsoundEnd := runNetworkCalls_sound hsoundAfter
        fun call hcall => (hafter call hcall).1
      rw [hpacks.fetch_mem hsoundEnd hkeeps hhere hsame,
        hpacks.fetch_mem hsoundAfter hmem hhere hsame]

end Packs

/-- Calls about a CITA network behind a Fabric network, whose index a delete
call for CITA names. -/
def letterCalls : List NetworkCall :=
  [.create (boatCitaNetwork wireUnpack.cita) letterCita .flash,
    .delete (boatCitaNetwork wireUnpack.cita) 1]

theorem letterCalls_spare : ∀ call ∈ letterCalls,
    call.Clear wireUnpack none ∧ call.Spares .hlfabric 1 := by
  have hkind : boatCitaNetwork wireUnpack.cita ∈ boatNetworks wireUnpack := by
    simp [boatNetworks]
  have hfits : (boatCitaNetwork wireUnpack.cita).Fits letterCita :=
    boatCitaNetwork_fits wireUnpack_readsPacked (by
      change (0 : UInt8) ∈ letter.bytes ++ List.replicate 126 0
      simp)
  refine List.forall_mem_cons.mpr ⟨⟨⟨hkind, hfits, rfl⟩, trivial⟩, ?_⟩
  refine List.forall_mem_cons.mpr ⟨⟨hkind, ?_⟩, by simp⟩
  exact fun hsame => BoatProtocolType.noConfusion hsame.1

/-- The Fabric network is fetched as before when the calls are made. -/
theorem hlfabricNetwork_kept_letter :
    getNetworkByIndex (boatHlfabricNetwork wireUnpack.fabric) 1
        ⟨runNetworkCalls letterCalls letterHlfabricDevice, none⟩ =
      .ok (boatHlfabricNetworkData letterHlfabric 1)
        ⟨runNetworkCalls letterCalls letterHlfabricDevice, none⟩ ↔
    getNetworkByIndex (boatHlfabricNetwork wireUnpack.fabric) 1
        ⟨letterHlfabricDevice, none⟩ =
      .ok (boatHlfabricNetworkData letterHlfabric 1)
        ⟨letterHlfabricDevice, none⟩ := by
  have hpacks : (boatHlfabricNetwork wireUnpack.fabric).Packs _ _ _ _ :=
    hlfabricNetworkKind_packs .hlfabric wireUnpack_readsPacked
  exact hpacks.kept (by simp [boatNetworks]) letterHlfabric_fits [] letterCalls
    (Or.inl (Nat.zero_le _)) (by simp) letterCalls_spare
    networkCreate_letterHlfabric (boatHlfabricNetworkData letterHlfabric 1)

end BoatFramework
