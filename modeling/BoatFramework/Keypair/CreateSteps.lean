/-
Creating a keypair under any fuse: both keys are there, or nothing has changed,
unless the fault is one that the routine does not recover from.
-/
import BoatFramework.Keypair.DeleteSteps

namespace BoatFramework

open Fuse

variable {crypto : Crypto} {d : Device} {layout : KeyLayout}
  {fuse : Option Nat} {index : UInt8} {random : Randomness}
  {keypairConfig : Option BoatKeypairPriKeyCtxConfig}
  {config : BoatKeypairPriKeyCtxConfig} {keypairName : Option CString}
  {key : CreatedKey}

/-- The keypair record of a created key. -/
def CreatedKey.context (key : CreatedKey) (index : UInt8)
    (keypairName : Option CString) : BoatKeypairPriKeyCtx :=
  ⟨index, keypairNameOrDefault keypairName index, key.prikeyFormat,
    key.prikeyType, key.pubkey⟩

/-- A name that is not empty and whose record has a 32-bit length. -/
def ProperName (keypairName : Option CString) : Prop :=
  ∀ name ∈ keypairName, name.bytes ≠ [] ∧ name.bytes.length + 83 < 2 ^ 32

/-- A key that the keystore has room for, or an error code. -/
def KeyFits (crypto : Crypto) (random : Randomness)
    (config : BoatKeypairPriKeyCtxConfig) : Prop :=
  match boatPortKeyCreate crypto random config with
  | .ok key => 0 < key.prikey.length ∧ key.prikey.length ≤ 47
  | .error failure => failure.Coded

/-- A create call with a proper name and a key of a proper size. -/
structure ProperCreate (crypto : Crypto) (random : Randomness)
    (keypairConfig : Option BoatKeypairPriKeyCtxConfig)
    (keypairName : Option CString) : Prop where
  name : ProperName keypairName
  key : ∀ config ∈ keypairConfig, KeyFits crypto random config

/-- A create call that gets as far as to write its record behind `num` others
that take `used` bytes. -/
def Accepts (crypto : Crypto) (random : Randomness)
    (keypairConfig : Option BoatKeypairPriKeyCtxConfig)
    (keypairName : Option CString) (num used : Nat) : Prop :=
  num < 5 ∧ ∃ config key, keypairConfig = some config ∧
    boatPortKeyCreate crypto random config = .ok key ∧
      4 + used + (key.context 0 keypairName).record.length ≤ 717

/-- A fault that a create call recovers from: an incomplete list of keypairs
still gives a free index, both counts are read unless they are of empty stores,
and the private key is stored, or its store was counted to be empty. -/
structure CreateClear (crypto : Crypto) (keypairs : List BoatKeypairPriKeyCtx)
    (counted : Prop) (random : Randomness)
    (keypairConfig : Option BoatKeypairPriKeyCtxConfig)
    (keypairName : Option CString) (k : Nat) : Prop where
  free : Accepts crypto random keypairConfig keypairName keypairs.length
      (keypairBytes keypairs).length →
    ∀ index ∈ firstFree ((keypairs.map (·.keypairIndex)).take ((k + 7) / 11)),
      index ∉ keypairs.map (·.keypairIndex)
  overwritten : Accepts crypto random keypairConfig keypairName
      keypairs.length 0 →
    k = 1 + 11 * keypairs.length → keypairs = []
  stored : Accepts crypto random keypairConfig keypairName keypairs.length
      (keypairBytes keypairs).length →
    4 + 12 * keypairs.length ≤ k → k < 7 + 15 * keypairs.length →
      keypairs = [] ∧ (k = 4 ∨ counted)

theorem keypairNameOrDefault_proper (hname : ProperName keypairName)
    (hindex : index = 0 ∨ index ∈ persistentIndices) :
    (keypairNameOrDefault keypairName index).bytes ≠ [] ∧
      (keypairNameOrDefault keypairName index).bytes.length + 83 < 2 ^ 32 := by
  cases keypairName with
  | some name => exact hname name rfl
  | none =>
      revert hindex
      simp only [persistentIndices, List.mem_cons, List.not_mem_nil, or_false]
      rintro (rfl | rfl | rfl | rfl | rfl | rfl) <;> decide

/-- The length of a record depends on the length of its name only. -/
theorem length_record_congr {ctx other : BoatKeypairPriKeyCtx}
    (hname : ctx.keypairName.bytes.length = other.keypairName.bytes.length) :
    ctx.record.length = other.record.length := by
  have hctx := ctx.pubkeyContent.2
  have hother := other.pubkeyContent.2
  simp only [BoatKeypairPriKeyCtx.record, LengthValue.length_encode,
    List.length_append, length_enumBytes, List.length_singleton, hname, hctx,
    hother]

theorem length_record_context (key : CreatedKey)
    (keypairName : Option CString)
    (hindex : index = 0 ∨ index ∈ persistentIndices) :
    (key.context index keypairName).record.length =
      (key.context 0 keypairName).record.length := by
  refine length_record_congr ?_
  cases keypairName with
  | some name => rfl
  | none =>
      revert hindex
      simp only [persistentIndices, List.mem_cons, List.not_mem_nil, or_false]
      rintro (rfl | rfl | rfl | rfl | rfl | rfl) <;> rfl

/-- The layout with a persistent keypair more. -/
def KeyLayout.add (layout : KeyLayout) (ctx : BoatKeypairPriKeyCtx)
    (prikey : PrikeyRecord) : KeyLayout :=
  { layout with
    keypairs := layout.keypairs ++ [ctx]
    prikeys := layout.prikeys ++ [prikey] }

/-- How `BoatKeypairCreate` ends where it is atomic. -/
inductive Created (crypto : Crypto) (layout : KeyLayout) (random : Randomness)
    (keypairConfig : Option BoatKeypairPriKeyCtxConfig)
    (keypairName : Option CString) :
    BoatStoreType → Except Failure UInt8 → Fused Device → Prop where
  | added (t : Fused Device) (config : BoatKeypairPriKeyCtxConfig)
      (key : CreatedKey) (index : UInt8) (prikey : PrikeyRecord)
      (given : keypairConfig = some config)
      (made : boatPortKeyCreate crypto random config = .ok key)
      (free : index ∈ persistentIndices ∧
        index ∉ layout.keypairs.map (·.keypairIndex))
      (sealed : SealedFor crypto random.salt index key.prikey prikey)
      (has : t.state.Has (layout.add (key.context index keypairName) prikey)) :
      Created crypto layout random keypairConfig keypairName .flash
        (.ok index) t
  | onetime (t : Fused Device) (config : BoatKeypairPriKeyCtxConfig)
      (key : CreatedKey) (prikey : PrikeyRecord)
      (given : keypairConfig = some config)
      (made : boatPortKeyCreate crypto random config = .ok key)
      (sealed : SealedFor crypto random.salt 0 key.prikey prikey)
      (has : t.state.Has { layout with
        onetimeKeypairs := [key.context 0 keypairName]
        onetimePrikeys := [prikey] }) :
      Created crypto layout random keypairConfig keypairName .ram (.ok 0) t
  | refused (storeType : BoatStoreType) (t : Fused Device) (code : BoatResult)
      (has : t.state.Has layout) :
      Created crypto layout random keypairConfig keypairName storeType
        (.error (.code code)) t

section Rollback

variable {ctx : BoatKeypairPriKeyCtx}
  (hhas : d.Has (layout.setKeypairs .flash (layout.keypairs ++ [ctx])))
  (hname : ctx.keypairName.bytes ≠ [])
  (hmem : ctx.keypairIndex ∈ persistentIndices)

include hhas hname hmem

/-- The only keypair is deleted again where its private key was never stored. -/
theorem rollback_spared (hnone : layout.keypairs = [])
    (hcounted : d.PrikeysCounted) :
    ∃ t ops, Spared (boatIotKeypairDelete ctx.keypairIndex) d ops (.ok ()) t ∧
      t.Has layout := by
  obtain ⟨hindex, hmax⟩ := mem_persistentIndices hmem
  have heq : (layout.setKeypairs .flash (layout.keypairs ++ [ctx])).keypairs =
      [] ++ ctx :: [] := by
    rw [hnone]
    rfl
  have hheld := hhas.keypairs
  have hwithout := hhas.withoutKeypair heq
  rw [heq] at hheld
  have hnamed : AllNamed ([] ++ ctx :: []) := by
    intro other hother
    rw [List.nil_append, List.mem_singleton] at hother
    rw [hother]
    exact hname
  have hruns := deleteKeypairRecord_runs hheld hnamed
    (fun other hother => by cases hother) (by simp) hindex hmax
  have hthree : 3 ≤ ctx.record.length := by
    have hlen := ctx.length_record
    omega
  have honly : OnlyIn .keypair .flash d (d.withoutKeypair [] []) :=
    OnlyIn.closeGap hheld hthree
  have hempty := deletePirkey_empty (honly.holds .prikey .flash 0 _ (by decide)
    hcounted) hindex hmax
  have hboth : Spared (deleteKeypairRecord ctx.keypairIndex >>=
      deletePrikeyOrRestore ctx.keypairIndex) d (deleteKeypairOps [] [] + 1)
        (.ok ()) (d.withoutKeypair [] []) :=
    hruns.spared.bind ((call_ok hempty).map rfl)
  refine ⟨d.withoutKeypair [] [], deleteKeypairOps [] [] + 1, ?_, ?_⟩
  · rw [boatIotKeypairDelete_persistent hindex hmax]
    exact hboth
  · have hself : layout.setKeypairs .flash ([] ++ []) = layout := by
      rw [List.nil_append, ← hnone]
      rfl
    rw [← hself]
    exact hwithout

/-- The private key of a keypair that was stored. -/
theorem storePrikeyOrDelete_ends {salt : Bytes 16} {secret : List UInt8}
    (hpos : 0 < secret.length) (hlen : secret.length ≤ 47)
    (hroom : layout.prikeys.length < 5)
    (habsent : ∀ other ∈ layout.prikeys, other.index ≠ ctx.keypairIndex)
    (hzero : fuse = some 0 → layout.prikeys = [])
    (hburnt : ∀ k, fuse = some k → k ≠ 0 →
      k < 3 + 3 * layout.prikeys.length →
        layout.keypairs = [] ∧ d.PrikeysCounted) :
    Ends (storePrikeyOrDelete crypto salt ctx.keypairIndex secret) ⟨d, fuse⟩
      fun r t =>
        (r = .ok () ∧ ∃ prikey,
          SealedFor crypto salt ctx.keypairIndex secret prikey ∧
            t.state.Has (layout.add ctx prikey)) ∨
        ∃ code, r = .error (.code code) ∧ t.state.Has layout := by
  obtain ⟨prikey, hsealed⟩ := sealedFor_exists crypto salt ctx.keypairIndex
    hpos hlen
  have hindex := (mem_persistentIndices hmem).1
  unfold storePrikeyOrDelete
  refine call_ends (storePrikey_ends hhas hroom habsent hsealed hindex fuse)
    ?_ ?_ ?_
  · intro _ t hstored
    cases hstored with
    | appended t _ hkept =>
        exact Ends.pure (Or.inl ⟨rfl, prikey, hsealed, hkept⟩)
    | replaced t hunread hkept =>
        refine Ends.pure (Or.inl ⟨rfl, prikey, hsealed, ?_⟩)
        rw [KeyLayout.add, hzero hunread]
        exact hkept
  · intro _ t hstored
    cases hstored with
    | failed t _ hspares hread hkept hcount =>
        cases hfuse : fuse with
        | none =>
            rw [hfuse] at hspares
            exact absurd (spares_none _) hspares
        | some k =>
            rw [hfuse, spares_some, Nat.not_le] at hspares
            have hne : k ≠ 0 := by
              rintro rfl
              exact hread hfuse
            obtain ⟨hnone, hcounted⟩ := hburnt k hfuse hne hspares
            obtain ⟨u, ops, hruns, hback⟩ := rollback_spared hkept hname hmem
              hnone (hcount hcounted)
            have hdelete : attemptCall (boatIotKeypairDelete ctx.keypairIndex)
                ⟨t, none⟩ = .ok (.ok ()) ⟨u, none⟩ := attemptCall_ok hruns.run
            exact Ends.of_error (run_bind_ok hdelete)
              (Or.inr ⟨boatError, rfl, hback⟩)
  · intro t hstored
    cases hstored

end Rollback

/-- The onetime keypair takes the place of the one before. -/
theorem dataCtxStoreRam_spared (ctx : BoatKeypairPriKeyCtx)
    (hhas : d.Has layout) (hfew : layout.onetimeKeypairs.length ≤ 1)
    (hname : ctx.keypairName.bytes ≠ [])
    (hwidth : ctx.keypairName.bytes.length + 83 < 2 ^ 32) :
    (∃ t, Spared (boatKeypairDataCtxStore ctx .ram) d 0 (.ok ()) t ∧
        t.Has (layout.setKeypairs .ram [ctx])) ∨
      ∃ code, Spared (boatKeypairDataCtxStore ctx .ram) d 0
        (.error (.code code)) d := by
  have hnone : ([] : List BoatKeypairPriKeyCtx) ≠ [] →
      d.Holds .keypair .ram 4 (keypairBytes []) := fun hne => absurd rfl hne
  have hempty : AllNamed [] := fun ctx hctx => by cases hctx
  have hcount : (layout.onetimeKeypairs.map
      BoatKeypairPriKeyCtx.record).length < boatMaxKeypairNum := by
    rw [List.length_map]
    exact Nat.lt_of_le_of_lt hfew (by decide)
  by_cases hfits : 4 + ctx.record.length ≤ 717
  · have hruns := appendKeypair_runs hnone (by decide) hempty hname hfits
    exact Or.inl ⟨_, storeCounted_ram hhas.onetimeKeypairs hcount (by decide)
      hruns.spared, hhas.replaceKeypair (by decide) hfits⟩
  · obtain ⟨code, hruns⟩ := appendKeypair_refused (d := d) hnone (by decide)
      hempty hname hwidth (Nat.lt_of_not_le hfits) (by decide)
    exact Or.inr ⟨code, storeCounted_ram hhas.onetimeKeypairs hcount
      (by decide) hruns.spared⟩

theorem storePrikeyRam_spared {salt : Bytes 16} {secret : List UInt8}
    {prikey : PrikeyRecord} (hhas : d.Has layout)
    (hfew : layout.onetimePrikeys.length ≤ 1)
    (hsealed : SealedFor crypto salt 0 secret prikey) :
    ∃ t, Spared (boatKeystoreStorePrikey crypto salt 0 secret) d 0 (.ok ()) t ∧
      t.Has (layout.setPrikeys .ram [prikey]) := by
  have hlength := prikey.length_record
  have hsized := prikey.sized
  have hfits : 4 + (prikeyBytes []).length + prikey.record.length ≤
      BoatStoreFile.prikey.room .ram := by
    change 4 + 0 + prikey.record.length ≤ 256
    omega
  have hcount : (layout.onetimePrikeys.map PrikeyRecord.record).length <
      boatMaxKeypairNum := by
    rw [List.length_map]
    exact Nat.lt_of_le_of_lt hfew (by decide)
  have hruns := appendPrikey_runs (d := d) (fun hne => absurd rfl hne)
    (by decide) (fun other hother => by cases hother) hsealed.index_eq
    hsealed.chip hfits
  exact ⟨_, storeCounted_ram hhas.onetimePrikeys hcount (by decide)
    hruns.spared, hhas.replacePrikey (by decide) hfits⟩

section Create

/-- The index is free where the fault of the list is one to recover from. -/
theorem free_of_clear
    (hclear : ∀ k ∈ fuse, CreateClear crypto layout.keypairs d.PrikeysCounted
      random keypairConfig keypairName k)
    (haccepts : Accepts crypto random keypairConfig keypairName
      layout.keypairs.length (keypairBytes layout.keypairs).length)
    (hknown : firstFree (knownIndices (layout.keypairs.map (·.keypairIndex))
      fuse) = some index) :
    index ∉ layout.keypairs.map (·.keypairIndex) := by
  cases fuse with
  | none => exact (firstFree_mem hknown).2
  | some k => exact (hclear k rfl).free haccepts index hknown

/-- A keypair that stands behind the others gets its private key. -/
theorem createStored_ends {t : Device} {left : Option Nat}
    (htidy : layout.Tidy)
    (hproper : ProperCreate crypto random keypairConfig keypairName)
    (hgiven : keypairConfig = some config)
    (hmade : boatPortKeyCreate crypto random config = .ok key)
    (hroom : layout.keypairs.length < 5) (hindex : index ∈ persistentIndices)
    (hfree : index ∉ layout.keypairs.map (·.keypairIndex))
    (hkept : KeypairKept d layout
      (layout.keypairs ++ [key.context index keypairName]) t)
    (hzero : left = some 0 → layout.keypairs = [])
    (hburnt : ∀ k, left = some k → k ≠ 0 →
      k < 3 + 3 * layout.keypairs.length →
        layout.keypairs = [] ∧ d.PrikeysCounted) :
    Ends (storePrikeyOrDelete crypto random.salt index key.prikey >>= fun _ =>
      pure index) ⟨t, left⟩
      (Created crypto layout random keypairConfig keypairName .flash) := by
  have hkey := hproper.key config hgiven
  rw [KeyFits, hmade] at hkey
  have hname := keypairNameOrDefault_proper hproper.name (Or.inr hindex)
  have hlength := htidy.prikeysLength
  have habsent : ∀ other ∈ layout.prikeys, other.index ≠ index := by
    intro other hother heq
    refine hfree (htidy.paired.mem_iff.mp ?_)
    exact List.mem_map.mpr ⟨other, hother, heq⟩
  have hnone : layout.keypairs = [] → layout.prikeys = [] := by
    intro hnil
    rw [hnil] at hlength
    exact List.eq_nil_of_length_eq_zero hlength
  refine (storePrikeyOrDelete_ends
    hkept.has hname.1 hindex hkey.1 hkey.2 (by omega) habsent
    (fun hleft => hnone (hzero hleft)) ?_).bind ?_ ?_
  · intro k hleft hne hlt
    rw [hlength] at hlt
    obtain ⟨hnil, hcounted⟩ := hburnt k hleft hne hlt
    exact ⟨hnil, hkept.only.holds .prikey .flash 0 _ (by decide) hcounted⟩
  · rintro _ t (⟨_, prikey, hsealed, hadded⟩ | ⟨_, heq, _⟩)
    · exact Ends.pure (.added t config key index prikey hgiven hmade
        ⟨hindex, hfree⟩ hsealed hadded)
    · cases heq
  · rintro _ t (⟨heq, _⟩ | ⟨code, heq, hback⟩)
    · cases heq
    · obtain rfl := Except.error.inj heq
      exact .refused _ t code hback

variable (hhas : d.Has layout) (htidy : layout.Tidy)
  (hproper : ProperCreate crypto random keypairConfig keypairName)

include hhas htidy hproper

theorem createFlash_ends
    (hclear : ∀ k ∈ fuse, CreateClear crypto layout.keypairs d.PrikeysCounted
      random keypairConfig keypairName k) :
    Ends (boatKeypairCreate crypto random keypairConfig keypairName .flash)
      ⟨d, fuse⟩
      (Created crypto layout random keypairConfig keypairName .flash) := by
  have hfew := htidy.keypairsFew
  cases keypairConfig with
  | none => exact Ends.throw (.refused _ _ _ hhas)
  | some config =>
      change Ends (boatKeypairGetFreeIndexFromPersistent >>= fun index =>
        ofOutcome (boatPortKeyCreate crypto random config) >>= fun key =>
          boatKeypairDataCtxStore (key.context index keypairName) .flash >>=
            fun _ => storePrikeyOrDelete crypto random.salt index key.prikey >>=
              fun _ => pure index) _ _
      refine (freeIndex_ends hhas htidy fuse).bind ?_ ?_
      · rintro index _ ⟨rfl, ⟨_, hok, hknown, hfive⟩ | ⟨_, _, heq⟩⟩
        · obtain rfl := Except.ok.inj hok
          have hindex := (firstFree_mem hknown).1
          refine (ofOutcome_ends _ _).bind ?_ ?_
          · rintro key _ ⟨hmade, rfl⟩
            have hmade := hmade.symm
            have hname := keypairNameOrDefault_proper hproper.name
              (Or.inr hindex)
            have hrecord := length_record_context key keypairName
              (Or.inr hindex)
            refine (dataCtxStore_ends
              hhas htidy.named hname.1 hname.2 (by omega)
                (leftover fuse (listOps layout.keypairs.length))).bind ?_ ?_
            · intro _ t hstored
              cases hstored with
              | appended t hroom hfits hspares hkept =>
                  rw [KeyLayout.Fits, hrecord] at hfits
                  have haccepts : Accepts crypto random (some config)
                      keypairName layout.keypairs.length
                        (keypairBytes layout.keypairs).length :=
                    ⟨hroom, config, key, rfl, hmade, hfits⟩
                  have hfree := free_of_clear hclear haccepts hknown
                  have hfuse (k : Nat) (hleft : spend (leftover fuse
                      (listOps layout.keypairs.length))
                        (3 + layout.keypairs.length) = some k) :
                      fuse = some (4 + 12 * layout.keypairs.length + k) := by
                    have hfirst := eq_some_of_leftover
                      (eq_some_of_spend hspares hleft)
                    rw [hfirst, listOps, Option.some.injEq]
                    omega
                  refine createStored_ends htidy hproper rfl hmade hroom
                    hindex hfree hkept ?_ ?_
                  · intro hleft
                    have hclear := hclear _ (hfuse 0 hleft)
                    exact (hclear.stored haccepts (by omega) (by omega)).1
                  · intro k hleft hne hlt
                    have hclear := hclear _ (hfuse k hleft)
                    obtain ⟨hnil, hfour | hcounted⟩ :=
                      hclear.stored haccepts (by omega) (by omega)
                    · rw [hnil, List.length_nil] at hfour
                      omega
                    · exact ⟨hnil, hcounted⟩
              | replaced t hunread hfits hkept =>
                  have hfuse := eq_some_of_leftover hunread
                  have hroom : layout.keypairs.length < 5 := by
                    refine Nat.lt_of_le_of_ne hfew fun hall => ?_
                    rw [hfive hall, listOps, Option.some.injEq] at hfuse
                    omega
                  rw [hrecord] at hfits
                  have haccepts : Accepts crypto random (some config)
                      keypairName layout.keypairs.length 0 :=
                    ⟨hroom, config, key, rfl, hmade, by omega⟩
                  have hnil := (hclear _ hfuse).overwritten haccepts (by
                    rw [listOps, Nat.add_zero])
                  have hempty : index ∉
                      layout.keypairs.map (·.keypairIndex) := by
                    rw [hnil]
                    exact List.not_mem_nil
                  have hsame : [key.context index keypairName] =
                      layout.keypairs ++ [key.context index keypairName] := by
                    rw [hnil]
                    rfl
                  rw [hsame] at hkept
                  refine createStored_ends htidy hproper rfl hmade hroom
                    hindex hempty hkept ?_ ?_
                  · intro hleft
                    cases hleft
                  · intro k hleft
                    cases hleft
            · intro _ t hstored
              cases hstored with
              | failed t left code _ hkept => exact .refused _ _ code hkept.has
          · rintro failure _ ⟨hmade, rfl⟩
            have hkey := hproper.key config rfl
            rw [KeyFits, ← hmade] at hkey
            obtain ⟨code, rfl⟩ := hkey
            exact .refused _ _ code hhas
        · cases heq
      · rintro _ _ ⟨rfl, ⟨_, heq, _⟩ | ⟨_, code, heq⟩⟩
        · cases heq
        · obtain rfl := Except.error.inj heq
          exact .refused _ _ code hhas

/-- In RAM nothing can fail behind the first write. -/
theorem createRam_ends (fuse : Option Nat) :
    Ends (boatKeypairCreate crypto random keypairConfig keypairName .ram)
      ⟨d, fuse⟩
      (Created crypto layout random keypairConfig keypairName .ram) := by
  cases keypairConfig with
  | none => exact Ends.throw (.refused _ _ _ hhas)
  | some config =>
      change Ends (ofOutcome (boatPortKeyCreate crypto random config) >>=
        fun key => boatKeypairDataCtxStore (key.context 0 keypairName) .ram >>=
          fun _ => storePrikeyOrDelete crypto random.salt 0 key.prikey >>=
            fun _ => pure 0) _ _
      have hkey := hproper.key config rfl
      have hname := keypairNameOrDefault_proper hproper.name (Or.inl rfl)
      cases hmade : boatPortKeyCreate crypto random config with
      | error failure =>
          rw [KeyFits, hmade] at hkey
          obtain ⟨code, rfl⟩ := hkey
          exact (ofOutcome_ends _ _).bind (fun _ _ h => by cases h.1)
            (fun _ _ h => by
              obtain ⟨heq, rfl⟩ := h
              obtain rfl := Except.error.inj heq
              exact .refused _ _ code hhas)
      | ok key =>
          rw [KeyFits, hmade] at hkey
          obtain ⟨prikey, hsealed⟩ := sealedFor_exists crypto random.salt 0
            hkey.1 hkey.2
          have hstart : ofOutcome (.ok key) (⟨d, fuse⟩ : Fused Device) =
              .ok key ⟨d, fuse⟩ := rfl
          rcases dataCtxStoreRam_spared (key.context 0 keypairName)
            hhas htidy.onetimeFew hname.1 hname.2 with
            ⟨t, hstore, hkept⟩ | ⟨code, hstore⟩
          · obtain ⟨u, hsecret, hboth⟩ := storePrikeyRam_spared hkept
              htidy.onetimePrikeysFew hsealed
            have hlast : Spared (storePrikeyOrDelete crypto random.salt 0
                key.prikey) _ 0 (.ok ()) u := (call_ok hsecret).map rfl
            refine Ends.of_ok ?_ (.onetime ⟨u, fuse⟩ config key prikey rfl
              hmade hsealed hboth)
            rw [run_bind_ok hstart]
            refine (run_bind_ok (hstore.run_free fuse)).trans ?_
            exact (run_bind_ok (hlast.run_free fuse)).trans rfl
          · refine Ends.of_error ?_ (.refused _ ⟨d, fuse⟩ code hhas)
            rw [run_bind_ok hstart]
            exact run_bind_error (hstore.run_free fuse)

end Create

end BoatFramework
