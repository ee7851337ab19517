/-
Storing a keypair and a private key under any fuse: the record is there behind
the others, or it stands in the place of them, or nothing has changed.
-/
import BoatFramework.Keypair.FreeIndex

namespace BoatFramework

open Fuse

variable {d : Device} {layout : KeyLayout} {fuse : Option Nat}

/-- A counted store is entered behind its records, or, where the count was not
read, in front of them. -/
theorem storeCounted_ends {storeFile : BoatStoreFile}
    {records : List (List UInt8)} {maxNum : Nat} {full : BoatResult}
    {append : Nat → Nvram Unit}
    {Q : Except Failure Unit → Fused Device → Prop}
    (hregion : d.Region storeFile .flash records)
    (hcount : records.length < 0x100) (hmax : 0 < maxNum)
    (hunread : fuse = some 0 → Ends (append 0) ⟨d, none⟩ Q)
    (hfull : maxNum ≤ records.length →
      Q (.error (.code full)) ⟨d, spend fuse 1⟩)
    (happend : records.length < maxNum → Spares fuse 1 →
      Ends (append records.length) ⟨d, spend fuse 1⟩ Q) :
    Ends (storeCounted storeFile .flash maxNum full append) ⟨d, fuse⟩ Q := by
  by_cases hspares : Spares fuse 1
  · have hnum := readNumOrZero_spared hregion (by decide) hcount fuse hspares
    unfold storeCounted
    refine Ends.bind (Q := fun r t => r = .ok records.length ∧
      t = ⟨d, spend fuse 1⟩) ⟨_, _, hnum, rfl, rfl⟩ ?_ ?_
    · rintro _ _ ⟨heq, rfl⟩
      obtain rfl := Except.ok.inj heq
      by_cases hroom : maxNum ≤ records.length
      · rw [failIf, if_pos hroom]
        exact ⟨_, _, rfl, hfull hroom⟩
      · rw [failIf, if_neg hroom]
        exact happend (Nat.lt_of_not_le hroom) hspares
    · rintro _ _ ⟨heq, _⟩
      cases heq
  · cases fuse with
    | none => exact absurd (spares_none 1) hspares
    | some left =>
        cases left with
        | succ k =>
            exact absurd (spares_some.mpr (Nat.le_add_left 1 k)) hspares
        | zero =>
            obtain ⟨r, t, hrun, hlast⟩ := hunread rfl
            exact ⟨r, t, (storeCounted_unread hmax).trans hrun, hlast⟩

/-- How storing a keypair in flash ends. -/
structure KeypairKept (d : Device) (layout : KeyLayout)
    (ctxs : List BoatKeypairPriKeyCtx) (t : Device) : Prop where
  has : t.Has (layout.setKeypairs .flash ctxs)
  only : OnlyIn .keypair .flash d t

/-- A keypair behind the others has room. -/
def KeyLayout.Fits (layout : KeyLayout) (ctx : BoatKeypairPriKeyCtx) : Prop :=
  4 + (keypairBytes layout.keypairs).length + ctx.record.length ≤ 717

inductive KeypairStored (d : Device) (layout : KeyLayout)
    (ctx : BoatKeypairPriKeyCtx) (fuse : Option Nat) :
    Except Failure Unit → Fused Device → Prop where
  | appended (t : Device) (room : layout.keypairs.length < 5)
      (fits : layout.Fits ctx)
      (spares : Spares fuse (3 + layout.keypairs.length))
      (kept : KeypairKept d layout (layout.keypairs ++ [ctx]) t) :
      KeypairStored d layout ctx fuse (.ok ())
        ⟨t, spend fuse (3 + layout.keypairs.length)⟩
  | replaced (t : Device) (unread : fuse = some 0)
      (fits : 4 + ctx.record.length ≤ 717)
      (kept : KeypairKept d layout [ctx] t) :
      KeypairStored d layout ctx fuse (.ok ()) ⟨t, none⟩
  | failed (t : Device) (left : Option Nat) (code : BoatResult)
      (why : layout.keypairs.length < 5 → layout.Fits ctx → fuse ≠ none)
      (kept : KeypairKept d layout layout.keypairs t) :
      KeypairStored d layout ctx fuse (.error (.code code)) ⟨t, left⟩

section Keypairs

variable {ctx : BoatKeypairPriKeyCtx} (hhas : d.Has layout)
  (hnamed : AllNamed layout.keypairs)
  (hname : ctx.keypairName.bytes ≠ [])
  (hwidth : ctx.keypairName.bytes.length + 83 < 2 ^ 32)

include hhas

theorem keypairKept_self : KeypairKept d layout layout.keypairs d :=
  ⟨hhas, OnlyIn.refl d⟩

theorem keypairKept_behind (hfits : layout.Fits ctx) :
    KeypairKept d layout layout.keypairs
      (d.put .keypair .flash (4 + (keypairBytes layout.keypairs).length)
        ctx.record) where
  has := hhas.put_behind (by decide) (by decide) hfits
  only := OnlyIn.put hfits

include hname hwidth

/-- A keypair that is stored where the count was not read. -/
theorem replaceKeypair_ends (hunread : fuse = some 0) :
    Ends (appendKeypair ctx .flash 0) ⟨d, none⟩
      (KeypairStored d layout ctx fuse) := by
  have hfuse : fuse ≠ none := by
    rw [hunread]
    exact fun h => by cases h
  have hnone : ([] : List BoatKeypairPriKeyCtx) ≠ [] →
      d.Holds .keypair .flash 4 (keypairBytes []) := fun hne => absurd rfl hne
  have hempty : AllNamed [] := fun ctx hctx => by cases hctx
  by_cases hfits : 4 + ctx.record.length ≤ 717
  · have hruns := appendKeypair_runs hnone (by decide) hempty hname hfits
    refine ⟨_, _, hruns.spared.run, ?_⟩
    exact .replaced _ hunread hfits
      ⟨hhas.replaceKeypair (by decide) hfits, OnlyIn.appendRecord hfits⟩
  · obtain ⟨code, hruns⟩ := appendKeypair_refused (d := d) hnone (by decide)
      hempty hname hwidth (Nat.lt_of_not_le hfits) (by decide)
    refine ⟨_, _, hruns.spared.run, ?_⟩
    exact .failed _ _ _ (fun _ _ => hfuse) (keypairKept_self hhas)

include hnamed

/-- The keypair goes behind the others, with a fuse behind the count. -/
theorem appendKeypair_ends (hroom : layout.keypairs.length < 5)
    (hspares : Spares fuse 1) :
    Ends (appendKeypair ctx .flash layout.keypairs.length) ⟨d, spend fuse 1⟩
      (KeypairStored d layout ctx fuse) := by
  have hbody : layout.keypairs ≠ [] →
      d.Holds .keypair .flash 4 (keypairBytes layout.keypairs) :=
    fun hne => hhas.keypairs.keypairBody hne
  have hops : 1 + (layout.keypairs.length * 1 + 2 * 1) =
      3 + layout.keypairs.length := by omega
  by_cases hfits : layout.Fits ctx
  · have hruns := appendKeypair_runs hbody (by decide) hnamed hname hfits
    refine (hruns.ends (spend fuse 1)).mono ?_
    rintro r t (⟨hrest, rfl, rfl⟩ | ⟨hburnt, e, t, ⟨code, rfl⟩, ht, rfl, rfl⟩)
    · rw [spend_add]
      have hall := spares_add.mpr ⟨hspares, hrest⟩
      change Spares fuse (1 + (layout.keypairs.length * 1 + 2 * 1)) at hall
      change KeypairStored d layout ctx fuse (.ok ())
        ⟨_, spend fuse (1 + (layout.keypairs.length * 1 + 2 * 1))⟩
      rw [hops] at hall ⊢
      exact .appended _ hroom hfits hall
        ⟨hhas.appendKeypair hfits, OnlyIn.appendRecord hfits⟩
    · have hfuse : fuse ≠ none := by
        rintro rfl
        exact hburnt (spares_none _)
      rcases ht with rfl | rfl
      · exact .failed _ _ _ (fun _ _ => hfuse) (keypairKept_self hhas)
      · exact .failed _ _ _ (fun _ _ => hfuse) (keypairKept_behind hhas hfits)
  · have hsmall : (keypairBytes layout.keypairs).length < 1000 := by
      have hlength := hhas.keypairs.length_le
      have hlt := keypairRoom_lt .flash
      rw [keypairBytes]
      omega
    obtain ⟨code, hruns⟩ := appendKeypair_refused hbody (by decide) hnamed
      hname hwidth (Nat.lt_of_not_le hfits) hsmall
    refine (hruns.ends (spend fuse 1)).mono ?_
    rintro r t (⟨_, rfl, rfl⟩ | ⟨_, e, t, ⟨other, rfl⟩, rfl, rfl, rfl⟩)
    · exact .failed _ _ _ (fun _ hfit => absurd hfit hfits)
        (keypairKept_self hhas)
    · exact .failed _ _ _ (fun _ hfit => absurd hfit hfits)
        (keypairKept_self hhas)

theorem dataCtxStore_ends (hfew : layout.keypairs.length < 0x100)
    (fuse : Option Nat) :
    Ends (boatKeypairDataCtxStore ctx .flash) ⟨d, fuse⟩
      (KeypairStored d layout ctx fuse) := by
  refine storeCounted_ends hhas.keypairs (by rwa [List.length_map])
    (by decide) ?_ ?_ ?_
  · intro hunread
    exact replaceKeypair_ends hhas hname hwidth hunread
  · intro hfull
    rw [List.length_map] at hfull
    exact .failed _ _ _ (fun hroom _ => absurd hroom (Nat.not_lt.mpr hfull))
      (keypairKept_self hhas)
  · intro hroom hspares
    rw [List.length_map] at hroom ⊢
    exact appendKeypair_ends hhas hnamed hname hwidth hroom hspares

end Keypairs

/-- The record of a private key that was encrypted for an index. -/
structure SealedFor (crypto : Crypto) (salt : Bytes 16) (index : UInt8)
    (key : List UInt8) (prikey : PrikeyRecord) : Prop where
  index_eq : prikey.index = index
  chip : encryptPrikey crypto salt key = .ok prikey.ciphertext

theorem sealedFor_exists (crypto : Crypto) (salt : Bytes 16) (index : UInt8)
    {key : List UInt8} (hpos : 0 < key.length) (hlen : key.length ≤ 47) :
    ∃ prikey, SealedFor crypto salt index key prikey := by
  obtain ⟨chip, hchip⟩ := encryptPrikey_ok crypto salt hpos hlen
  exact ⟨⟨index, chip, (encryptPrikey_sized hchip).2⟩, rfl, hchip⟩

/-- The count of an empty private-key store stands in flash. -/
def Device.PrikeysCounted (d : Device) : Prop :=
  d.Holds .prikey .flash 0 (utilityGetNumBytes 0)

/-- How storing a private key in flash ends. -/
inductive PrikeyStored (d : Device) (layout : KeyLayout)
    (prikey : PrikeyRecord) (fuse : Option Nat) :
    Except Failure Unit → Fused Device → Prop where
  | appended (t : Device) (spares : Spares fuse (3 + 3 * layout.prikeys.length))
      (has : t.Has (layout.setPrikeys .flash (layout.prikeys ++ [prikey]))) :
      PrikeyStored d layout prikey fuse (.ok ())
        ⟨t, spend fuse (3 + 3 * layout.prikeys.length)⟩
  | replaced (t : Device) (unread : fuse = some 0)
      (has : t.Has (layout.setPrikeys .flash [prikey])) :
      PrikeyStored d layout prikey fuse (.ok ()) ⟨t, none⟩
  | failed (t : Device) (code : BoatResult)
      (burnt : ¬Spares fuse (3 + 3 * layout.prikeys.length))
      (read : fuse ≠ some 0) (has : t.Has layout)
      (counted : d.PrikeysCounted → t.PrikeysCounted) :
      PrikeyStored d layout prikey fuse (.error (.code code)) ⟨t, none⟩

section Prikeys

variable {crypto : Crypto} {salt : Bytes 16} {index : UInt8}
  {key : List UInt8} {prikey : PrikeyRecord} (hhas : d.Has layout)
  (hroom : layout.prikeys.length < 5)
  (habsent : ∀ other ∈ layout.prikeys, other.index ≠ index)
  (hsealed : SealedFor crypto salt index key prikey)

include hhas hsealed

/-- A private key that is stored where the count was not read. -/
theorem replacePrikey_ends (hunread : fuse = some 0) :
    Ends (appendPrikey crypto salt index key .flash 0) ⟨d, none⟩
      (PrikeyStored d layout prikey fuse) := by
  obtain ⟨rfl, hchip⟩ := hsealed
  have hlength := prikey.length_record
  have hsized := prikey.sized
  have hfits : 4 + (prikeyBytes []).length + prikey.record.length ≤
      BoatStoreFile.prikey.room .flash := by
    change 4 + 0 + prikey.record.length ≤ 499
    omega
  have hruns := appendPrikey_runs (d := d)
    (fun hne => absurd rfl hne) (by decide)
    (fun other hother => by cases hother) rfl hchip hfits
  refine ⟨_, _, hruns.spared.run, ?_⟩
  exact .replaced _ hunread (hhas.replacePrikey (by decide) hfits)

include hroom habsent

theorem appendPrikey_ends (hspares : Spares fuse 1) :
    Ends (appendPrikey crypto salt index key .flash layout.prikeys.length)
      ⟨d, spend fuse 1⟩ (PrikeyStored d layout prikey fuse) := by
  obtain ⟨rfl, hchip⟩ := hsealed
  have hlength := prikey.length_record
  have hsized := prikey.sized
  have hbytes := length_prikeyBytes_le layout.prikeys
  have hfits : 4 + (prikeyBytes layout.prikeys).length +
      prikey.record.length ≤ BoatStoreFile.prikey.room .flash := by
    change 4 + (prikeyBytes layout.prikeys).length +
      prikey.record.length ≤ 499
    omega
  have hruns := appendPrikey_runs (fun hne => hhas.prikeys.prikeyBody hne)
    (by decide) habsent rfl hchip hfits
  have hops : 1 + (layout.prikeys.length * (3 * 1) + 2 * 1) =
      3 + 3 * layout.prikeys.length := by omega
  refine (hruns.ends (spend fuse 1)).mono ?_
  rintro r t (⟨hrest, rfl, rfl⟩ | ⟨hburnt, e, t, ⟨code, rfl⟩, ht, rfl, rfl⟩)
  · have hall := spares_add.mpr ⟨hspares, hrest⟩
    change Spares fuse (1 + (layout.prikeys.length * (3 * 1) + 2 * 1)) at hall
    rw [spend_add]
    change PrikeyStored d layout prikey fuse (.ok ())
      ⟨_, spend fuse (1 + (layout.prikeys.length * (3 * 1) + 2 * 1))⟩
    rw [hops] at hall ⊢
    exact .appended _ hall (hhas.appendPrikey hfits)
  · have hall : ¬Spares fuse (3 + 3 * layout.prikeys.length) := by
      intro hall
      rw [← hops, spares_add] at hall
      exact hburnt hall.2
    have hread : fuse ≠ some 0 := by
      rintro rfl
      exact absurd (spares_some.mp hspares) (by decide)
    rcases ht with rfl | rfl
    · exact .failed _ _ hall hread hhas fun hcounted => hcounted
    · refine .failed _ _ hall hread ?_ fun hcounted => ?_
      · exact hhas.put_behind (by decide) (by decide) hfits
      · exact hcounted.put_before hfits (Nat.le_add_right 4 _)

theorem storePrikey_ends (hindex : index ≠ 0) (fuse : Option Nat) :
    Ends (boatKeystoreStorePrikey crypto salt index key) ⟨d, fuse⟩
      (PrikeyStored d layout prikey fuse) := by
  unfold boatKeystoreStorePrikey
  rw [if_neg hindex]
  refine storeCounted_ends hhas.prikeys ?_ (by decide) ?_ ?_ ?_
  · rw [List.length_map]
    omega
  · exact fun hunread => replacePrikey_ends hhas hsealed hunread
  · intro hfull
    rw [List.length_map] at hfull
    exact absurd hroom (Nat.not_lt.mpr hfull)
  · intro _ hspares
    rw [List.length_map]
    exact appendPrikey_ends hhas hroom habsent hsealed hspares

end Prikeys

end BoatFramework
