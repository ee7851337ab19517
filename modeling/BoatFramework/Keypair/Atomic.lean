/-
What a caller sees of a create or delete call that a fault ends: all keys are as
they were, or the call has done all of its work.
-/
import BoatFramework.Keypair.Runs

namespace BoatFramework

open Fuse

variable {crypto : Crypto} {d d' : Device} {layout after : KeyLayout}
  {fuse : Option Nat} {index : UInt8}

/-- Two devices with the same keys, in flash perhaps in another order. -/
structure SameKeys (d d' : Device) : Prop where
  keypairs : d'.keypairs.Perm d.keypairs
  prikeys : d'.prikeys.Perm d.prikeys
  onetimeKeypairs : d'.storedKeypairs .ram = d.storedKeypairs .ram
  onetimePrikeys : d'.storedPrikeys .ram = d.storedPrikeys .ram

theorem Device.Has.onetime_eq (hhas : d.Has layout) (htidy : layout.Tidy) :
    d.storedKeypairs .ram = some layout.onetimeKeypairs ∧
      d.storedPrikeys .ram = some layout.onetimePrikeys := by
  have hfew := htidy.onetimeFew
  have hkeysFew := htidy.onetimePrikeysFew
  exact ⟨hhas.onetimeKeypairs.storedKeypairs (by omega),
    hhas.onetimePrikeys.storedPrikeys (by omega)⟩

theorem sameKeys_of_has {ctxs : List BoatKeypairPriKeyCtx}
    (hhas : d.Has layout) (htidy : layout.Tidy)
    (hperm : ctxs.Perm layout.keypairs)
    (hafter : d'.Has { layout with keypairs := ctxs }) : SameKeys d d' := by
  have htidyAfter := htidy.perm hperm
  obtain ⟨hkeypairs, hprikeys⟩ := hhas.onetime_eq htidy
  obtain ⟨hkeypairsAfter, hprikeysAfter⟩ := hafter.onetime_eq htidyAfter
  constructor
  · rw [hafter.keypairs_eq htidyAfter, hhas.keypairs_eq htidy]
    exact hperm
  · rw [hafter.prikeys_eq htidyAfter, hhas.prikeys_eq htidy]
  · rw [hkeypairs, hkeypairsAfter]
  · rw [hprikeys, hprikeysAfter]

/-- A keypair and its private key are the only keys that are new. -/
structure AddedKeys (d d' : Device) (index : UInt8) : Prop where
  free : index ∉ d.keypairs.map (·.keypairIndex)
  inRange : 1 ≤ index.toNat ∧ index.toNat ≤ boatMaxKeypairNum
  keypairs : ∃ ctx, ctx.keypairIndex = index ∧
    d'.keypairs = d.keypairs ++ [ctx]
  prikeys : ∃ prikey, prikey.index = index ∧
    d'.prikeys = d.prikeys ++ [prikey]
  onetimeKeypairs : d'.storedKeypairs .ram = d.storedKeypairs .ram
  onetimePrikeys : d'.storedPrikeys .ram = d.storedPrikeys .ram

theorem addedKeys_of_has {ctx : BoatKeypairPriKeyCtx} {prikey : PrikeyRecord}
    (hhas : d.Has layout) (htidy : layout.Tidy)
    (hname : ctx.keypairName.bytes ≠ [])
    (hindex : ctx.keypairIndex ∈ persistentIndices)
    (hfree : ctx.keypairIndex ∉ layout.keypairs.map (·.keypairIndex))
    (hsame : prikey.index = ctx.keypairIndex)
    (hafter : d'.Has (layout.add ctx prikey)) :
    AddedKeys d d' ctx.keypairIndex := by
  have htidyAfter := htidy.add _ hname hindex hfree hsame
  obtain ⟨hkeypairs, hprikeys⟩ := hhas.onetime_eq htidy
  obtain ⟨hkeypairsAfter, hprikeysAfter⟩ := hafter.onetime_eq htidyAfter
  constructor
  · rw [hhas.keypairs_eq htidy]
    exact hfree
  · obtain ⟨hne, hmax⟩ := mem_persistentIndices hindex
    refine ⟨Nat.pos_of_ne_zero fun hzero => hne ?_, hmax⟩
    exact UInt8.toNat_inj.mp hzero
  · refine ⟨ctx, rfl, ?_⟩
    rw [hafter.keypairs_eq htidyAfter, hhas.keypairs_eq htidy]
    rfl
  · refine ⟨prikey, hsame, ?_⟩
    rw [hafter.prikeys_eq htidyAfter, hhas.prikeys_eq htidy]
    rfl
  · rw [hkeypairs, hkeypairsAfter]
    rfl
  · rw [hprikeys, hprikeysAfter]
    rfl

/-- How a create call may end: it has added a keypair, it has replaced the
onetime keypair, or it has left all keys as they were. -/
def CreateAtomic (storeType : BoatStoreType) (d : Device) :
    EStateM.Result Failure (Fused Device) UInt8 → Prop
  | .ok index s =>
      (storeType = .flash ∧ AddedKeys d s.state index) ∨
        (storeType = .ram ∧ index = 0 ∧ s.state.keypairs = d.keypairs ∧
          s.state.prikeys = d.prikeys)
  | .error failure s => failure.Coded ∧ SameKeys d s.state

theorem boatKeypairCreate_atomic (crypto : Crypto) (d : Device)
    (fuse : Option Nat) (random : Randomness)
    (keypairConfig : Option BoatKeypairPriKeyCtxConfig)
    (keypairName : Option CString) (storeType : BoatStoreType)
    (hreach : Reachable crypto d)
    (hclear : (KeypairCall.create random keypairConfig keypairName
      storeType).Clear crypto d fuse) :
    CreateAtomic storeType d (boatKeypairCreate crypto random keypairConfig
      keypairName storeType ⟨d, fuse⟩) := by
  obtain ⟨layout, hhas, htidy⟩ := hreach.tidy
  obtain ⟨r, t, hrun, hcreated⟩ := create_ends hhas htidy hclear
  rw [hrun]
  cases hcreated with
  | added _ config key index prikey _ _ hfree hsealed hafter =>
      have hname := keypairNameOrDefault_proper hclear.1.name (Or.inr hfree.1)
      exact Or.inl ⟨rfl, addedKeys_of_has
        hhas htidy hname.1 hfree.1 hfree.2 hsealed.index_eq hafter⟩
  | onetime _ config key prikey _ _ _ hafter =>
      have htidyAfter := htidy.context hclear.1.name key prikey
      refine Or.inr ⟨rfl, rfl, ?_, ?_⟩
      · rw [hafter.keypairs_eq htidyAfter, hhas.keypairs_eq htidy]
      · rw [hafter.prikeys_eq htidyAfter, hhas.prikeys_eq htidy]
  | refused _ _ code hafter =>
      exact ⟨⟨code, rfl⟩, sameKeys_of_has hhas htidy (List.Perm.refl _) hafter⟩

/-- A fault of the first write of the record ends the first create call. -/
theorem boatKeypairCreate_atomic_fault :
    CreateAtomic .flash blankDevice (boatKeypairCreate plainCrypto noRandomness
      (some injectedKey) none .flash ⟨blankDevice, some 2⟩) := by
  have hnone : blankDevice.keypairs = [] :=
    blankDevice_erased.has.keypairs_eq tidy_empty
  have hclear : (KeypairCall.create noRandomness (some injectedKey) none
      .flash).Clear plainCrypto blankDevice (some 2) := by
    refine ⟨injectedKey_proper, fun _ k hk => ?_⟩
    obtain rfl := Option.some.inj hk
    rw [hnone]
    exact ⟨fun _ _ _ => List.not_mem_nil, fun _ _ => rfl,
      fun _ hle => absurd hle (by decide)⟩
  have hreach : Reachable plainCrypto blankDevice := .erased blankDevice_erased
  revert hclear hreach
  generalize blankDevice = d
  intro hclear hreach
  exact boatKeypairCreate_atomic plainCrypto d (some 2) noRandomness
    (some injectedKey) none .flash hreach hclear

/-- A fault of the write of the first private key leaves its keypair. -/
theorem boatKeypairCreate_leaves_keypair :
    Reachable plainCrypto blankDevice ∧
      ¬CreateAtomic .flash blankDevice (boatKeypairCreate plainCrypto
        noRandomness (some injectedKey) none .flash ⟨blankDevice, some 5⟩) := by
  have hrun : (match boatKeypairCreate plainCrypto noRandomness
      (some injectedKey) none .flash ⟨blankDevice, some 5⟩ with
      | .ok _ _ => false
      | .error _ s => s.state.keypairs.length == 1) = true := by
    decide +kernel
  have hnone : blankDevice.keypairs = [] :=
    blankDevice_erased.has.keypairs_eq tidy_empty
  refine ⟨.erased blankDevice_erased, ?_⟩
  revert hrun
  generalize boatKeypairCreate plainCrypto noRandomness (some injectedKey) none
    .flash ⟨blankDevice, some 5⟩ = outcome
  intro hrun hatomic
  cases outcome with
  | ok index s => cases hrun
  | error failure s =>
      obtain ⟨_, hsame⟩ := hatomic
      have hlength := hsame.keypairs.length_eq
      rw [hnone, List.length_nil] at hlength
      have hone := beq_iff_eq.mp hrun
      rw [hlength] at hone
      cases hone

/-- How a delete of a persistent keypair may end: both of its keys are gone and
no others, or all keys are as they were. -/
def DeleteAllOrNothing (index : UInt8) (d : Device) :
    EStateM.Result Failure (Fused Device) Unit → Prop
  | .ok _ s =>
      s.state.keypairs = (d.keypairs.filter fun ctx =>
          decide (ctx.keypairIndex ≠ index)) ∧
        s.state.prikeys = (d.prikeys.filter fun prikey =>
          decide (prikey.index ≠ index)) ∧
        s.state.storedKeypairs .ram = d.storedKeypairs .ram ∧
        s.state.storedPrikeys .ram = d.storedPrikeys .ram
  | .error failure s => failure.Coded ∧ SameKeys d s.state

theorem boatIotKeypairDelete_allOrNothing_iff (crypto : Crypto) (d : Device)
    (fuse : Option Nat) (index : UInt8) (hreach : Reachable crypto d)
    (hindex : index ≠ 0) :
    DeleteAllOrNothing index d (boatIotKeypairDelete index ⟨d, fuse⟩) ↔
      ¬MoveFault d.keypairs d.prikeys index fuse := by
  obtain ⟨layout, hhas, htidy⟩ := hreach.tidy
  obtain ⟨r, t, hrun, hdeleted⟩ := delete_ends hhas htidy index fuse
  rw [hrun, hhas.keypairs_eq htidy, hhas.prikeys_eq htidy]
  obtain ⟨hkeypairs, hprikeys⟩ := hhas.onetime_eq htidy
  cases hdeleted with
  | done _ _ hmoved hafter =>
      have htidyAfter := htidy.remove index
      obtain ⟨hkeypairsAfter, hprikeysAfter⟩ := hafter.onetime_eq htidyAfter
      refine iff_of_true ⟨?_, ?_, ?_, ?_⟩ hmoved
      · rw [hafter.keypairs_eq htidyAfter, hhas.keypairs_eq htidy]
        rfl
      · rw [hafter.prikeys_eq htidyAfter, hhas.prikeys_eq htidy]
        rfl
      · rw [hkeypairs, hkeypairsAfter]
        rfl
      · rw [hprikeys, hprikeysAfter]
        rfl
  | swallowed _ hfault hafter =>
      refine iff_of_false ?_ (not_not_intro hfault)
      rintro ⟨_, hkeys, _⟩
      have hfew := htidy.keypairsFew
      have hlength := htidy.prikeysLength
      have hafterKeys : t.state.prikeys = layout.prikeys := by
        rw [Device.prikeys, hafter.prikeys.storedPrikeys (by
          change layout.prikeys.length < 0x100
          omega)]
        rfl
      rw [hafterKeys, hhas.prikeys_eq htidy] at hkeys
      have hmem := htidy.paired.mem_iff.mpr hfault.1
      rw [hkeys] at hmem
      obtain ⟨prikey, hprikey, hsame⟩ := List.mem_map.mp hmem
      have hne := (List.mem_filter.mp hprikey).2
      exact of_decide_eq_true hne hsame
  | onetime _ hzero _ => exact absurd hzero hindex
  | undone _ code ctxs hperm hmoved hafter =>
      exact iff_of_true
        ⟨⟨code, rfl⟩, sameKeys_of_has hhas htidy hperm hafter⟩ hmoved

theorem boatIotKeypairDelete_allOrNothing_fault :
    DeleteAllOrNothing 1 oneKeypairDevice
        (boatIotKeypairDelete 1 ⟨oneKeypairDevice, some 17⟩) ↔
      ¬MoveFault oneKeypairDevice.keypairs oneKeypairDevice.prikeys 1
        (some 17) :=
  boatIotKeypairDelete_allOrNothing_iff plainCrypto oneKeypairDevice (some 17) 1
    oneKeypairDevice_reachable (by decide)

/-- A fault of the last write of a delete leaves the private key, and the call
reports success. -/
theorem boatIotKeypairDelete_leaves_prikey :
    Reachable plainCrypto oneKeypairDevice ∧
      ¬DeleteAllOrNothing 1 oneKeypairDevice
        (boatIotKeypairDelete 1 ⟨oneKeypairDevice, some 22⟩) := by
  have hrun : (match boatIotKeypairDelete 1 ⟨oneKeypairDevice, some 22⟩ with
      | .ok _ s => s.state.prikeys.any fun prikey => prikey.index == 1
      | .error _ _ => false) = true := by
    decide +kernel
  refine ⟨oneKeypairDevice_reachable, ?_⟩
  revert hrun
  generalize boatIotKeypairDelete 1 ⟨oneKeypairDevice, some 22⟩ = outcome
  intro hrun hall
  cases outcome with
  | error failure s => cases hrun
  | ok _ s =>
      obtain ⟨_, hprikeys, _⟩ := hall
      obtain ⟨prikey, hprikey, hone⟩ := List.any_eq_true.mp hrun
      rw [hprikeys] at hprikey
      have hne := of_decide_eq_true (List.mem_filter.mp hprikey).2
      exact hne (beq_iff_eq.mp hone)

end BoatFramework
