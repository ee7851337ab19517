/-
Runs in which every access to the storage succeeds: after each call both stores
can be read, they agree, and only the keys of one index have changed.
-/
import BoatFramework.Keypair.Atomic

namespace BoatFramework

open Fuse

variable {crypto : Crypto} {d d' : Device} {layout : KeyLayout}
  {index : UInt8}

/-- The ciphertext decrypts to the private key of the public key. -/
def PrikeyRecord.Opens (crypto : Crypto) (prikey : PrikeyRecord)
    (ctx : BoatKeypairPriKeyCtx) : Prop :=
  ∃ key, boatSoftRotNvramDec crypto
      (prikey.ciphertext ++ List.replicate
        (boatKeystorePrikeyLen - prikey.ciphertext.length) 0)
          prikey.ciphertext.length = .ok key ∧
    boatGetPubkey crypto ctx.prikeyType key = .ok ctx.pubkeyContent

structure Device.Consistent (crypto : Crypto) (d : Device) : Prop where
  keypairsRead : d.storedKeypairs .flash = some d.keypairs
  prikeysRead : d.storedPrikeys .flash = some d.prikeys
  distinct : (d.keypairs.map (·.keypairIndex)).Nodup
  inRange : ∀ ctx ∈ d.keypairs,
    1 ≤ ctx.keypairIndex.toNat ∧ ctx.keypairIndex.toNat ≤ boatMaxKeypairNum
  paired : (d.prikeys.map (·.index)).Perm (d.keypairs.map (·.keypairIndex))
  opens : ∀ ctx ∈ d.keypairs, ∀ prikey ∈ d.prikeys,
    prikey.index = ctx.keypairIndex → prikey.Opens crypto ctx

/-- The bytes of the records of an index. -/
def Device.keysOf (d : Device) (index : UInt8) :
    List (List UInt8) × List (List UInt8) :=
  if index = 0 then
    (((d.storedKeypairs .ram).getD []).map BoatKeypairPriKeyCtx.record,
      ((d.storedPrikeys .ram).getD []).map PrikeyRecord.record)
  else
    ((d.keypairs.filter fun ctx => decide (ctx.keypairIndex = index)).map
        BoatKeypairPriKeyCtx.record,
      (d.prikeys.filter fun prikey => decide (prikey.index = index)).map
        PrikeyRecord.record)

/-- A call that leaves the keys of all indices but the one it is about, and of
all indices where it fails. -/
def KeepsOthers (d : Device) :
    EStateM.Result Failure (Fused Device) UInt8 → Prop
  | .ok index s => ∀ other, other ≠ index → s.state.keysOf other = d.keysOf other
  | .error failure s =>
      failure.Coded ∧ ∀ other, s.state.keysOf other = d.keysOf other

/-- The public key of a created key is that of its private key. -/
def KeyMatches (crypto : Crypto) (random : Randomness)
    (config : BoatKeypairPriKeyCtxConfig) : Prop :=
  ∀ key, boatPortKeyCreate crypto random config = .ok key →
    boatGetPubkey crypto key.prikeyType key.prikey = .ok key.pubkey

def KeypairCall.Proper (crypto : Crypto) : KeypairCall → Prop
  | .create random keypairConfig keypairName _ =>
      ProperCreate crypto random keypairConfig keypairName ∧
        ∀ config ∈ keypairConfig, KeyMatches crypto random config
  | .delete _ => True

/-- The device after a number of calls. -/
def runCalls (crypto : Crypto) (calls : List KeypairCall) (d : Device) :
    Device :=
  calls.foldl (fun d call => call.after crypto d none) d

def KeyLayout.Matched (crypto : Crypto) (layout : KeyLayout) : Prop :=
  ∀ ctx ∈ layout.keypairs, ∀ prikey ∈ layout.prikeys,
    prikey.index = ctx.keypairIndex → prikey.Opens crypto ctx

theorem KeypairCall.Proper.clear {call : KeypairCall}
    (hproper : call.Proper crypto) : call.Clear crypto d none := by
  cases call with
  | create random keypairConfig keypairName storeType =>
      exact ⟨hproper.1, fun _ k hk => by cases hk⟩
  | delete index =>
      rintro ⟨_, k, hk, _⟩
      cases hk

/-- A stored private key decrypts to itself. -/
theorem SealedFor.opens {salt : Bytes 16} {key : CreatedKey}
    {prikey : PrikeyRecord} (keypairName : Option CString)
    (hsealed : SealedFor crypto salt index key.prikey prikey)
    (hlen : key.prikey.length ≤ 47)
    (hmatches : boatGetPubkey crypto key.prikeyType key.prikey =
      .ok key.pubkey) :
    prikey.Opens crypto (key.context index keypairName) :=
  ⟨key.prikey, boatSoftRotNvramDec_enc crypto
    (encryptPrikey_sized hsealed.chip).1 (by omega) _, hmatches⟩

theorem KeyLayout.Matched.add {ctx : BoatKeypairPriKeyCtx}
    {prikey : PrikeyRecord} (hmatched : layout.Matched crypto)
    (htidy : layout.Tidy)
    (hfree : ctx.keypairIndex ∉ layout.keypairs.map (·.keypairIndex))
    (hsame : prikey.index = ctx.keypairIndex)
    (hopens : prikey.Opens crypto ctx) :
    (layout.add ctx prikey).Matched crypto := by
  intro other hother otherKey hotherKey heq
  rcases List.mem_append.mp hother with hold | hnew
  · rcases List.mem_append.mp hotherKey with holdKey | hnewKey
    · exact hmatched other hold otherKey holdKey heq
    · rw [List.mem_singleton.mp hnewKey, hsame] at heq
      rw [heq] at hfree
      exact absurd (List.mem_map_of_mem hold) hfree
  · rw [List.mem_singleton.mp hnew] at heq ⊢
    rcases List.mem_append.mp hotherKey with holdKey | hnewKey
    · have hmem := List.mem_map_of_mem (f := PrikeyRecord.index) holdKey
      rw [heq] at hmem
      exact absurd (htidy.paired.mem_iff.mp hmem) hfree
    · rw [List.mem_singleton.mp hnewKey]
      exact hopens

theorem KeyLayout.Matched.remove (hmatched : layout.Matched crypto)
    (index : UInt8) : (layout.remove index).Matched crypto :=
  fun ctx hctx prikey hprikey =>
    hmatched ctx (List.mem_of_mem_filter hctx) prikey
      (List.mem_of_mem_filter hprikey)

theorem Device.Has.consistent (hhas : d.Has layout) (htidy : layout.Tidy)
    (hmatched : layout.Matched crypto) : d.Consistent crypto := by
  have hfew := htidy.keypairsFew
  have hlength := htidy.prikeysLength
  have hkeypairs := hhas.keypairs_eq htidy
  have hprikeys := hhas.prikeys_eq htidy
  constructor
  · rw [hkeypairs, hhas.keypairs.storedKeypairs (by omega)]
  · rw [hprikeys, hhas.prikeys.storedPrikeys (by omega)]
  · rw [hkeypairs]
    exact htidy.distinct
  · rw [hkeypairs]
    intro ctx hctx
    obtain ⟨hne, hmax⟩ := mem_persistentIndices (htidy.inRange ctx hctx)
    exact ⟨Nat.pos_of_ne_zero fun hzero => hne (UInt8.toNat_inj.mp hzero), hmax⟩
  · rw [hkeypairs, hprikeys]
    exact htidy.paired
  · rw [hkeypairs, hprikeys]
    exact hmatched

/-- The entries of one index do not depend on the order. -/
theorem filter_of_perm {α : Type} {key : α → UInt8} {l l' : List α}
    (hperm : l.Perm l') (hnodup : (l'.map key).Nodup) (index : UInt8) :
    l.filter (fun a => decide (key a = index)) =
      l'.filter (fun a => decide (key a = index)) := by
  have hfilter := hperm.filter fun a => decide (key a = index)
  by_cases hmem : index ∈ l'.map key
  · obtain ⟨front, a, back, hsplit⟩ := exists_split hmem hnodup
    rw [hsplit.filter_self] at hfilter ⊢
    exact List.perm_singleton.mp hfilter
  · have hnone : l'.filter (fun a => decide (key a = index)) = [] := by
      refine List.filter_eq_nil_iff.mpr fun a ha => ?_
      simp only [decide_eq_true_eq]
      rintro rfl
      exact hmem (List.mem_map_of_mem ha)
    rw [hnone] at hfilter ⊢
    exact List.perm_nil.mp hfilter

theorem filter_filter_ne {α : Type} {key : α → UInt8} {l : List α}
    {other : UInt8} (hne : other ≠ index) :
    (l.filter fun a => decide (key a ≠ index)).filter
        (fun a => decide (key a = other)) =
      l.filter fun a => decide (key a = other) := by
  rw [List.filter_filter]
  refine List.filter_congr fun a _ => ?_
  by_cases hkey : key a = other
  · simp [hkey, hne]
  · simp [hkey]

theorem filter_append_ne {α : Type} {key : α → UInt8} {l : List α} {a : α}
    {other : UInt8} (hne : other ≠ key a) :
    (l ++ [a]).filter (fun b => decide (key b = other)) =
      l.filter fun b => decide (key b = other) := by
  rw [List.filter_append, List.filter_singleton, decide_eq_false hne.symm]
  exact List.append_nil _

/-- The records of an index, from the lists that the devices have. -/
theorem keysOf_congr {after : KeyLayout} {other : UInt8}
    (hhas : d.Has layout) (htidy : layout.Tidy) (hafter : d'.Has after)
    (htidyAfter : after.Tidy)
    (honetime : other = 0 →
      after.onetimeKeypairs = layout.onetimeKeypairs ∧
        after.onetimePrikeys = layout.onetimePrikeys)
    (hpersistent : other ≠ 0 →
      (after.keypairs.filter fun ctx => decide (ctx.keypairIndex = other)) =
          (layout.keypairs.filter fun ctx =>
            decide (ctx.keypairIndex = other)) ∧
        (after.prikeys.filter fun prikey => decide (prikey.index = other)) =
          (layout.prikeys.filter fun prikey =>
            decide (prikey.index = other))) :
    d'.keysOf other = d.keysOf other := by
  unfold Device.keysOf
  by_cases hzero : other = 0
  · obtain ⟨hkeypairs, hprikeys⟩ := honetime hzero
    rw [if_pos hzero, if_pos hzero, (hhas.onetime_eq htidy).1,
      (hhas.onetime_eq htidy).2, (hafter.onetime_eq htidyAfter).1,
      (hafter.onetime_eq htidyAfter).2, hkeypairs, hprikeys]
  · obtain ⟨hkeypairs, hprikeys⟩ := hpersistent hzero
    rw [if_neg hzero, if_neg hzero, hafter.keypairs_eq htidyAfter,
      hafter.prikeys_eq htidyAfter, hhas.keypairs_eq htidy,
      hhas.prikeys_eq htidy, hkeypairs, hprikeys]

/-- A device with a layout in which keypairs and private keys match. -/
def Device.Sound (crypto : Crypto) (d : Device) : Prop :=
  ∃ layout : KeyLayout, d.Has layout ∧ layout.Tidy ∧ layout.Matched crypto

section Step

variable {random : Randomness}
  {keypairConfig : Option BoatKeypairPriKeyCtxConfig}
  {keypairName : Option CString} {storeType : BoatStoreType}
  {r : Except Failure UInt8} {t : Fused Device}

theorem Created.keeps (hhas : d.Has layout) (htidy : layout.Tidy)
    (hmatched : layout.Matched crypto)
    (hproper : (KeypairCall.create random keypairConfig keypairName
      storeType).Proper crypto)
    (hcreated : Created crypto layout random keypairConfig keypairName
      storeType r t) :
    KeepsOthers d (result r t) ∧ t.state.Sound crypto := by
  obtain ⟨hcreate, hmatches⟩ := hproper
  cases hcreated with
  | added _ config key index prikey hgiven hmade hfree hsealed hafter =>
      have hkey := hcreate.key config hgiven
      rw [KeyFits, hmade] at hkey
      have hname := (keypairNameOrDefault_proper hcreate.name
        (Or.inr hfree.1)).1
      have htidyAfter := htidy.add (key.context index keypairName) hname
        hfree.1 hfree.2 hsealed.index_eq
      have hopens := hsealed.opens keypairName hkey.2
        (hmatches config hgiven key hmade)
      refine ⟨fun other hne => ?_, _, hafter, htidyAfter,
        hmatched.add htidy hfree.2 hsealed.index_eq hopens⟩
      refine keysOf_congr hhas htidy hafter htidyAfter
        (fun _ => ⟨rfl, rfl⟩) fun _ => ⟨?_, ?_⟩
      · exact filter_append_ne hne
      · refine filter_append_ne ?_
        rw [hsealed.index_eq]
        exact hne
  | onetime _ config key prikey _ _ _ hafter =>
      have htidyAfter := htidy.context hcreate.name key prikey
      exact ⟨fun other hne => keysOf_congr hhas htidy hafter htidyAfter
        (fun hzero => absurd hzero hne) fun _ => ⟨rfl, rfl⟩, _, hafter,
          htidyAfter, hmatched⟩
  | refused _ _ code hafter =>
      exact ⟨⟨⟨code, rfl⟩, fun other => keysOf_congr hhas htidy hafter htidy
        (fun _ => ⟨rfl, rfl⟩) fun _ => ⟨rfl, rfl⟩⟩, layout, hafter, htidy,
          hmatched⟩

theorem Deleted.keeps {r : Except Failure Unit} (hhas : d.Has layout)
    (htidy : layout.Tidy) (hmatched : layout.Matched crypto)
    (hdeleted : Deleted layout index none r t) :
    KeepsOthers d (result (r.map fun _ => index) t) ∧
      t.state.Sound crypto := by
  cases hdeleted with
  | done _ hmember _ hafter =>
      have htidyAfter := htidy.remove index
      have hne : index ≠ 0 := by
        obtain ⟨ctx, hctx, rfl⟩ := List.mem_map.mp hmember
        exact (mem_persistentIndices (htidy.inRange ctx hctx)).1
      refine ⟨fun other hother => ?_, _, hafter, htidyAfter,
        hmatched.remove index⟩
      exact keysOf_congr hhas htidy hafter htidyAfter (fun _ => ⟨rfl, rfl⟩)
        fun _ => ⟨filter_filter_ne hother, filter_filter_ne hother⟩
  | swallowed _ hfault _ =>
      obtain ⟨_, k, hk, _⟩ := hfault
      cases hk
  | onetime _ hzero hafter =>
      subst hzero
      have htidyAfter := htidy.onetime [] (fun _ hctx => by cases hctx)
        (Nat.zero_le 1) (fun _ hctx => by cases hctx) htidy.onetimePrikeysFew
      exact ⟨fun other hother => keysOf_congr hhas htidy hafter htidyAfter
        (fun hzero => absurd hzero hother) fun _ => ⟨rfl, rfl⟩, _, hafter,
          htidyAfter, hmatched⟩
  | undone _ code ctxs hperm _ hafter =>
      have htidyAfter := htidy.perm hperm
      refine ⟨⟨⟨code, rfl⟩, fun other => ?_⟩, _, hafter, htidyAfter, ?_⟩
      · exact keysOf_congr hhas htidy hafter htidyAfter (fun _ => ⟨rfl, rfl⟩)
          fun _ => ⟨filter_of_perm hperm htidy.distinct other, rfl⟩
      · intro ctx hctx prikey hprikey
        exact hmatched ctx (hperm.mem_iff.mp hctx) prikey hprikey

/-- A proper call keeps the device sound. -/
theorem KeypairCall.Proper.keeps {call : KeypairCall}
    (hsound : d.Sound crypto) (hproper : call.Proper crypto) :
    Ends (call.run crypto) ⟨d, none⟩ fun r t =>
      KeepsOthers d (result r t) ∧ t.state.Sound crypto := by
  obtain ⟨layout, hhas, htidy, hmatched⟩ := hsound
  cases call with
  | create random keypairConfig keypairName storeType =>
      have hends := create_ends hhas htidy (hproper.clear (d := d))
      exact hends.mono fun _ _ hcreated =>
        hcreated.keeps hhas htidy hmatched hproper
  | delete index =>
      refine (delete_run_ends hhas htidy index none).mono ?_
      rintro _ _ ⟨_, hdeleted, rfl⟩
      exact hdeleted.keeps hhas htidy hmatched

end Step

theorem Device.Erased.sound (herased : d.Erased) : d.Sound crypto :=
  ⟨_, herased.has, tidy_empty, fun _ hctx => by cases hctx⟩

theorem runCalls_sound {calls : List KeypairCall} (hsound : d.Sound crypto)
    (hproper : ∀ call ∈ calls, call.Proper crypto) :
    (runCalls crypto calls d).Sound crypto := by
  induction calls generalizing d with
  | nil => exact hsound
  | cons call rest ih =>
      refine ih ?_ fun other hother =>
        hproper other (List.mem_cons_of_mem call hother)
      have hcall := hproper call List.mem_cons_self
      exact KeypairCall.after_of_ends (hcall.keeps hsound)
        fun _ _ hlast => hlast.2

/-- After every run of proper calls the stores are consistent, and the next call
changes the keys of one index only. -/
theorem keypairStores_consistent (crypto : Crypto) (d : Device)
    (calls : List KeypairCall) (herased : d.Erased)
    (hproper : ∀ call ∈ calls, call.Proper crypto) :
    (runCalls crypto calls d).Consistent crypto ∧
      ∀ call : KeypairCall, call.Proper crypto →
        KeepsOthers (runCalls crypto calls d)
          (call.run crypto ⟨runCalls crypto calls d, none⟩) := by
  have hsound := runCalls_sound herased.sound hproper
  refine ⟨?_, fun call hcall => ?_⟩
  · obtain ⟨layout, hhas, htidy, hmatched⟩ := hsound
    exact hhas.consistent htidy hmatched
  · obtain ⟨r, t, hrun, hkeeps, _⟩ := hcall.keeps hsound
    rw [hrun]
    exact hkeeps

theorem injectedKey_properCall (storeType : BoatStoreType) :
    (KeypairCall.create noRandomness (some injectedKey) none storeType).Proper
      plainCrypto := by
  refine ⟨injectedKey_proper, fun config hconfig key hkey => ?_⟩
  obtain rfl := Option.some.inj hconfig
  obtain rfl := Except.ok.inj hkey
  rfl

theorem keypairStores_consistent_three :
    (runCalls plainCrypto [.create noRandomness (some injectedKey) none .flash,
        .create noRandomness (some injectedKey) none .ram, .delete 1]
          blankDevice).Consistent plainCrypto ∧
      ∀ call : KeypairCall, call.Proper plainCrypto →
        KeepsOthers (runCalls plainCrypto
          [.create noRandomness (some injectedKey) none .flash,
            .create noRandomness (some injectedKey) none .ram, .delete 1]
              blankDevice)
          (call.run plainCrypto ⟨runCalls plainCrypto
            [.create noRandomness (some injectedKey) none .flash,
              .create noRandomness (some injectedKey) none .ram, .delete 1]
                blankDevice, none⟩) := by
  refine keypairStores_consistent plainCrypto blankDevice _ blankDevice_erased ?_
  intro call hcall
  simp only [List.mem_cons, List.not_mem_nil, or_false] at hcall
  rcases hcall with rfl | rfl | rfl
  · exact injectedKey_properCall .flash
  · exact injectedKey_properCall .ram
  · trivial

/-- A keypair with an empty name makes a region that cannot be read. -/
theorem keypairStores_emptyName :
    blankDevice.Erased ∧
      ¬(runCalls plainCrypto [.create noRandomness (some injectedKey)
          (some ⟨[], List.not_mem_nil⟩) .flash] blankDevice).Consistent
            plainCrypto := by
  refine ⟨blankDevice_erased, fun hconsistent => ?_⟩
  have hread : ((runCalls plainCrypto [.create noRandomness (some injectedKey)
      (some ⟨[], List.not_mem_nil⟩) .flash] blankDevice).storedKeypairs
        .flash).isNone = true := by
    decide +kernel
  rw [hconsistent.keypairsRead] at hread
  cases hread

end BoatFramework
