/-
Runs of create and delete calls, each with a fault or none: in all of them the
keypairs and the private keys stay in step, as long as no call meets a fault
that it does not recover from.
-/
import BoatFramework.Keypair.CreateSteps
import Mathlib.Data.List.Nodup

namespace BoatFramework

open Fuse

variable {crypto : Crypto} {d : Device} {layout : KeyLayout}
  {fuse : Option Nat} {index : UInt8}

inductive KeypairCall where
  | create (random : Randomness)
      (keypairConfig : Option BoatKeypairPriKeyCtxConfig)
      (keypairName : Option CString) (storeType : BoatStoreType)
  | delete (index : UInt8)

/-- A call, with the index that was created or deleted. -/
def KeypairCall.run (crypto : Crypto) : KeypairCall → Nvram UInt8
  | .create random keypairConfig keypairName storeType =>
      boatKeypairCreate crypto random keypairConfig keypairName storeType
  | .delete index => do
      boatIotKeypairDelete index
      pure index

/-- The device after a call. -/
def KeypairCall.after (crypto : Crypto) (call : KeypairCall) (d : Device)
    (fuse : Option Nat) : Device :=
  match call.run crypto ⟨d, fuse⟩ with
  | .ok _ s => s.state
  | .error _ s => s.state

/-- The keypairs in flash, as they are read. -/
def Device.keypairs (d : Device) : List BoatKeypairPriKeyCtx :=
  (d.storedKeypairs .flash).getD []

def Device.prikeys (d : Device) : List PrikeyRecord :=
  (d.storedPrikeys .flash).getD []

/-- Storage that nothing was written to. -/
def Device.Erased (d : Device) : Prop :=
  ∀ storeFile storeType, storeType ≠ .unknown → d.Unset storeFile storeType

/-- A call with proper arguments and a fault that it recovers from. -/
def KeypairCall.Clear (crypto : Crypto) (d : Device) (fuse : Option Nat) :
    KeypairCall → Prop
  | .create random keypairConfig keypairName storeType =>
      ProperCreate crypto random keypairConfig keypairName ∧
        (storeType = .flash → ∀ k ∈ fuse,
          CreateClear crypto d.keypairs d.PrikeysCounted random keypairConfig
            keypairName k)
  | .delete index => ¬MoveFault d.keypairs d.prikeys index fuse

/-- The devices of runs from erased storage, every call of which is clear. -/
inductive Reachable (crypto : Crypto) : Device → Prop where
  | erased {d : Device} (herased : d.Erased) : Reachable crypto d
  | step {d : Device} (call : KeypairCall) (fuse : Option Nat)
      (hreach : Reachable crypto d) (hclear : call.Clear crypto d fuse) :
      Reachable crypto (call.after crypto d fuse)

theorem Device.Has.keypairs_eq (hhas : d.Has layout) (htidy : layout.Tidy) :
    d.keypairs = layout.keypairs := by
  have hfew := htidy.keypairsFew
  rw [Device.keypairs, hhas.keypairs.storedKeypairs (by omega)]
  rfl

theorem Device.Has.prikeys_eq (hhas : d.Has layout) (htidy : layout.Tidy) :
    d.prikeys = layout.prikeys := by
  have hfew := htidy.keypairsFew
  have hlength := htidy.prikeysLength
  rw [Device.prikeys, hhas.prikeys.storedPrikeys (by omega)]
  rfl

/-- Erased storage holds nothing. -/
theorem Device.Erased.has (herased : d.Erased) : d.Has ⟨[], [], [], []⟩ := by
  intro storeFile storeType _ hknown
  refine Or.inl ⟨?_, herased storeFile storeType hknown⟩
  cases storeFile <;> cases storeType <;> rfl

theorem tidy_empty : KeyLayout.Tidy ⟨[], [], [], []⟩ where
  named _ hctx := by cases hctx
  distinct := List.nodup_nil
  inRange _ hctx := by cases hctx
  paired := List.Perm.refl _
  onetimeNamed _ hctx := by cases hctx
  onetimeFew := Nat.zero_le 1
  onetimeIndex _ hctx := by cases hctx
  onetimePrikeysFew := Nat.zero_le 1

theorem KeyLayout.Tidy.add (ctx : BoatKeypairPriKeyCtx) {prikey : PrikeyRecord}
    (htidy : layout.Tidy) (hname : ctx.keypairName.bytes ≠ [])
    (hindex : ctx.keypairIndex ∈ persistentIndices)
    (hfree : ctx.keypairIndex ∉ layout.keypairs.map (·.keypairIndex))
    (hsame : prikey.index = ctx.keypairIndex) :
    (layout.add ctx prikey).Tidy where
  named other hother := by
    rcases List.mem_append.mp hother with hold | hnew
    · exact htidy.named other hold
    · rw [List.mem_singleton.mp hnew]
      exact hname
  distinct := by
    rw [KeyLayout.add, List.map_append, List.map_singleton]
    refine List.Nodup.append htidy.distinct (List.nodup_singleton _) ?_
    exact List.disjoint_singleton.mpr hfree
  inRange other hother := by
    rcases List.mem_append.mp hother with hold | hnew
    · exact htidy.inRange other hold
    · rw [List.mem_singleton.mp hnew]
      exact hindex
  paired := by
    rw [KeyLayout.add, List.map_append, List.map_append, List.map_singleton,
      List.map_singleton, hsame]
    exact htidy.paired.append_right _
  onetimeNamed := htidy.onetimeNamed
  onetimeFew := htidy.onetimeFew
  onetimeIndex := htidy.onetimeIndex
  onetimePrikeysFew := htidy.onetimePrikeysFew

theorem KeyLayout.Tidy.remove (htidy : layout.Tidy) (index : UInt8) :
    (layout.remove index).Tidy where
  named other hother := htidy.named other (List.mem_of_mem_filter hother)
  distinct := htidy.distinct.sublist (List.filter_sublist.map _)
  inRange other hother := htidy.inRange other (List.mem_of_mem_filter hother)
  paired := by
    have hkeypairs : (layout.keypairs.filter fun ctx =>
        decide (ctx.keypairIndex ≠ index)).map (·.keypairIndex) =
          (layout.keypairs.map (·.keypairIndex)).filter
            fun other => decide (other ≠ index) := by
      rw [List.filter_map]
      rfl
    have hprikeys : (layout.prikeys.filter fun prikey =>
        decide (prikey.index ≠ index)).map (·.index) =
          (layout.prikeys.map (·.index)).filter
            fun other => decide (other ≠ index) := by
      rw [List.filter_map]
      rfl
    rw [KeyLayout.remove, hkeypairs, hprikeys]
    exact htidy.paired.filter _
  onetimeNamed := htidy.onetimeNamed
  onetimeFew := htidy.onetimeFew
  onetimeIndex := htidy.onetimeIndex
  onetimePrikeysFew := htidy.onetimePrikeysFew

theorem KeyLayout.Tidy.perm {ctxs : List BoatKeypairPriKeyCtx}
    (htidy : layout.Tidy) (hperm : ctxs.Perm layout.keypairs) :
    KeyLayout.Tidy { layout with keypairs := ctxs } where
  named other hother := htidy.named other (hperm.mem_iff.mp hother)
  distinct := (hperm.map _).nodup_iff.mpr htidy.distinct
  inRange other hother := htidy.inRange other (hperm.mem_iff.mp hother)
  paired := htidy.paired.trans (hperm.map _).symm
  onetimeNamed := htidy.onetimeNamed
  onetimeFew := htidy.onetimeFew
  onetimeIndex := htidy.onetimeIndex
  onetimePrikeysFew := htidy.onetimePrikeysFew

theorem KeyLayout.Tidy.onetime (ctxs : List BoatKeypairPriKeyCtx)
    {prikeys : List PrikeyRecord} (htidy : layout.Tidy)
    (hnamed : AllNamed ctxs) (hfew : ctxs.length ≤ 1)
    (hindex : ∀ ctx ∈ ctxs, ctx.keypairIndex = 0)
    (hkeys : prikeys.length ≤ 1) :
    KeyLayout.Tidy { layout with
      onetimeKeypairs := ctxs, onetimePrikeys := prikeys } where
  named := htidy.named
  distinct := htidy.distinct
  inRange := htidy.inRange
  paired := htidy.paired
  onetimeNamed := hnamed
  onetimeFew := hfew
  onetimeIndex := hindex
  onetimePrikeysFew := hkeys

section Step

variable {random : Randomness}
  {keypairConfig : Option BoatKeypairPriKeyCtxConfig}
  {keypairName : Option CString} {storeType : BoatStoreType}
  {r : Except Failure UInt8} {t : Fused Device}

theorem create_ends (hhas : d.Has layout) (htidy : layout.Tidy)
    (hclear : (KeypairCall.create random keypairConfig keypairName
      storeType).Clear crypto d fuse) :
    Ends (boatKeypairCreate crypto random keypairConfig keypairName storeType)
      ⟨d, fuse⟩
      (Created crypto layout random keypairConfig keypairName storeType) := by
  obtain ⟨hproper, hflash⟩ := hclear
  rw [hhas.keypairs_eq htidy] at hflash
  cases storeType with
  | unknown =>
      cases keypairConfig with
      | none => exact Ends.throw (.refused _ _ _ hhas)
      | some config => exact Ends.of_error rfl (.refused _ _ _ hhas)
  | ram => exact createRam_ends hhas htidy hproper fuse
  | flash => exact createFlash_ends hhas htidy hproper (hflash rfl)

theorem KeyLayout.Tidy.context (htidy : layout.Tidy)
    (hname : ProperName keypairName) (key : CreatedKey)
    (prikey : PrikeyRecord) :
    KeyLayout.Tidy { layout with
      onetimeKeypairs := [key.context 0 keypairName]
      onetimePrikeys := [prikey] } := by
  refine htidy.onetime _ ?_ (Nat.le_refl 1) ?_ (Nat.le_refl 1)
  · intro ctx hctx
    rw [List.mem_singleton.mp hctx]
    exact (keypairNameOrDefault_proper hname (Or.inl rfl)).1
  · intro ctx hctx
    rw [List.mem_singleton.mp hctx]
    rfl

/-- What a create call leaves is a tidy layout. -/
theorem Created.tidy (htidy : layout.Tidy) (hname : ProperName keypairName)
    (hcreated : Created crypto layout random keypairConfig keypairName
      storeType r t) :
    ∃ after : KeyLayout, t.state.Has after ∧ after.Tidy := by
  cases hcreated with
  | added _ config key index prikey _ _ hfree hsealed hhas =>
      exact ⟨_, hhas, htidy.add _
        (keypairNameOrDefault_proper hname (Or.inr hfree.1)).1 hfree.1 hfree.2
          hsealed.index_eq⟩
  | onetime _ config key prikey _ _ hsealed hhas =>
      exact ⟨_, hhas, htidy.context hname key prikey⟩
  | refused _ _ code hhas => exact ⟨layout, hhas, htidy⟩

/-- What a delete call leaves is a tidy layout, if no fault is swallowed. -/
theorem Deleted.tidy {r : Except Failure Unit} (htidy : layout.Tidy)
    (hmoved : ¬MoveFault layout.keypairs layout.prikeys index fuse)
    (hdeleted : Deleted layout index fuse r t) :
    ∃ after : KeyLayout, t.state.Has after ∧ after.Tidy := by
  cases hdeleted with
  | done _ _ _ hhas => exact ⟨_, hhas, htidy.remove index⟩
  | swallowed _ hfault _ => exact absurd hfault hmoved
  | onetime _ _ hhas =>
      exact ⟨_, hhas, htidy.onetime _ (fun _ hctx => by cases hctx)
        (Nat.zero_le 1) (fun _ hctx => by cases hctx)
          htidy.onetimePrikeysFew⟩
  | undone _ code ctxs hperm _ hhas => exact ⟨_, hhas, htidy.perm hperm⟩

theorem KeypairCall.after_of_ends {call : KeypairCall}
    {Q : Except Failure UInt8 → Fused Device → Prop} {P : Device → Prop}
    (hends : Ends (call.run crypto) ⟨d, fuse⟩ Q)
    (hQP : ∀ r t, Q r t → P t.state) : P (call.after crypto d fuse) := by
  obtain ⟨r, t, hrun, hlast⟩ := hends
  rw [KeypairCall.after, hrun]
  cases r with
  | ok _ => exact hQP _ t hlast
  | error _ => exact hQP _ t hlast

/-- The delete call with the index as its value. -/
theorem delete_run_ends (hhas : d.Has layout) (htidy : layout.Tidy)
    (index : UInt8) (fuse : Option Nat) :
    Ends ((KeypairCall.delete index).run crypto) ⟨d, fuse⟩ fun r t =>
      ∃ r', Deleted layout index fuse r' t ∧ r = r'.map fun _ => index := by
  refine (delete_ends hhas htidy index fuse).bind ?_ ?_
  · exact fun _ t hdeleted => Ends.pure ⟨_, hdeleted, rfl⟩
  · exact fun _ t hdeleted => ⟨_, hdeleted, rfl⟩

/-- A clear call keeps the layout tidy. -/
theorem KeypairCall.Clear.tidy {call : KeypairCall} (hhas : d.Has layout)
    (htidy : layout.Tidy) (hclear : call.Clear crypto d fuse) :
    ∃ after : KeyLayout,
      (call.after crypto d fuse).Has after ∧ after.Tidy := by
  cases call with
  | create random keypairConfig keypairName storeType =>
      have hends : Ends ((KeypairCall.create random keypairConfig keypairName
          storeType).run crypto) ⟨d, fuse⟩ (Created crypto layout random
            keypairConfig keypairName storeType) := create_ends hhas htidy hclear
      exact after_of_ends (P := fun d' => ∃ after : KeyLayout,
        d'.Has after ∧ after.Tidy) hends
          fun _ _ hcreated => hcreated.tidy htidy hclear.1.name
  | delete index =>
      have hmoved : ¬MoveFault layout.keypairs layout.prikeys index fuse := by
        rw [← hhas.keypairs_eq htidy, ← hhas.prikeys_eq htidy]
        exact hclear
      refine after_of_ends (P := fun d' => ∃ after : KeyLayout,
        d'.Has after ∧ after.Tidy) (delete_run_ends hhas htidy index fuse) ?_
      rintro _ _ ⟨_, hdeleted, _⟩
      exact hdeleted.tidy htidy hmoved

end Step

theorem Reachable.tidy (hreach : Reachable crypto d) :
    ∃ layout : KeyLayout, d.Has layout ∧ layout.Tidy := by
  induction hreach with
  | erased herased => exact ⟨_, herased.has, tidy_empty⟩
  | step call fuse _ hclear ih =>
      obtain ⟨layout, hhas, htidy⟩ := ih
      exact hclear.tidy hhas htidy

theorem blankDevice_erased : blankDevice.Erased := by
  have hzeros (n : Nat) : ByteFile.At (List.replicate (4 + n) (0 : UInt8)) 0
      [0, 0, 0, 0] :=
    ⟨[], List.replicate n 0, by rw [List.replicate_add]; rfl, rfl⟩
  intro storeFile storeType hknown
  cases storeType with
  | unknown => exact absurd rfl hknown
  | flash => exact Or.inl (Nat.zero_le _)
  | ram =>
      refine Or.inr ⟨[0, 0, 0, 0], rfl, rfl, ?_⟩
      cases storeFile with
      | keypair => exact hzeros 1020
      | network => exact hzeros 5116
      | prikey => exact hzeros 252

/-- A private key of one byte from outside, and no randomness. -/
def injectedKey : BoatKeypairPriKeyCtxConfig :=
  ⟨boatKeypairPrikeyGenmodeExternalInjection, boatKeypairPrikeyFormatNative,
    boatKeypairPrikeyTypeSecp256k1, some [7]⟩

def noRandomness : Randomness :=
  ⟨fun _ => .error boatError, ⟨List.replicate 16 0, rfl⟩⟩

theorem injectedKey_proper :
    ProperCreate plainCrypto noRandomness (some injectedKey) none where
  name name hname := by cases hname
  key config hconfig := by
    obtain rfl := Option.some.inj hconfig
    exact ⟨Nat.one_pos, by decide⟩

/-- The device with one keypair. -/
def oneKeypairDevice : Device :=
  (KeypairCall.create noRandomness (some injectedKey) none .flash).after
    plainCrypto blankDevice none

theorem oneKeypairDevice_reachable :
    Reachable plainCrypto oneKeypairDevice :=
  .step _ none (.erased blankDevice_erased)
    ⟨injectedKey_proper, fun _ k hk => by cases hk⟩

end BoatFramework
