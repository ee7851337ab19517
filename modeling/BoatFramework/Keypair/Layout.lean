/-
What a device holds, as lists of records: the keypairs and the private keys in
flash and in RAM.  Every change of the device by the routines is a change of one
of the lists.
-/
import BoatFramework.Keypair.KeypairRuns

namespace BoatFramework

open Fuse

structure KeyLayout where
  keypairs : List BoatKeypairPriKeyCtx
  prikeys : List PrikeyRecord
  onetimeKeypairs : List BoatKeypairPriKeyCtx
  onetimePrikeys : List PrikeyRecord

def KeyLayout.setKeypairs (layout : KeyLayout) (storeType : BoatStoreType)
    (ctxs : List BoatKeypairPriKeyCtx) : KeyLayout :=
  match storeType with
  | .flash => { layout with keypairs := ctxs }
  | _ => { layout with onetimeKeypairs := ctxs }

def KeyLayout.setPrikeys (layout : KeyLayout) (storeType : BoatStoreType)
    (prikeys : List PrikeyRecord) : KeyLayout :=
  match storeType with
  | .flash => { layout with prikeys := prikeys }
  | _ => { layout with onetimePrikeys := prikeys }

/-- The records of a region. -/
def KeyLayout.records (layout : KeyLayout) :
    BoatStoreFile → BoatStoreType → List (List UInt8)
  | .keypair, .flash => layout.keypairs.map BoatKeypairPriKeyCtx.record
  | .prikey, .flash => layout.prikeys.map PrikeyRecord.record
  | .keypair, _ => layout.onetimeKeypairs.map BoatKeypairPriKeyCtx.record
  | .prikey, _ => layout.onetimePrikeys.map PrikeyRecord.record
  | .network, _ => []

/-- The regions of keypairs and private keys hold what the layout says; nothing
is said of the networks. -/
def Device.Has (d : Device) (layout : KeyLayout) : Prop :=
  ∀ storeFile storeType, storeFile ≠ .network → storeType ≠ .unknown →
    d.Region storeFile storeType (layout.records storeFile storeType)

variable {d d' t : Device} {layout other : KeyLayout}
  {storeFile : BoatStoreFile} {storeType : BoatStoreType} {offset : Nat}
  {data entry : List UInt8} {records : List (List UInt8)}
  {ctx : BoatKeypairPriKeyCtx} {prikey : PrikeyRecord}

theorem Device.Has.keypairs (hhas : d.Has layout) :
    d.HoldsKeypairs .flash layout.keypairs :=
  hhas .keypair .flash (by decide) (by decide)

theorem Device.Has.prikeys (hhas : d.Has layout) :
    d.HoldsPrikeys .flash layout.prikeys :=
  hhas .prikey .flash (by decide) (by decide)

theorem Device.Has.onetimeKeypairs (hhas : d.Has layout) :
    d.HoldsKeypairs .ram layout.onetimeKeypairs :=
  hhas .keypair .ram (by decide) (by decide)

theorem Device.Has.onetimePrikeys (hhas : d.Has layout) :
    d.HoldsPrikeys .ram layout.onetimePrikeys :=
  hhas .prikey .ram (by decide) (by decide)

variable {ctxs front back : List BoatKeypairPriKeyCtx}
  {prikeys frontKeys backKeys : List PrikeyRecord}

/-- A change of one region only. -/
structure OnlyIn (storeFile : BoatStoreFile) (storeType : BoatStoreType)
    (d d' : Device) : Prop where
  holds : ∀ otherFile otherType offset content,
    Apart storeFile storeType otherFile otherType →
      d.Holds otherFile otherType offset content →
        d'.Holds otherFile otherType offset content
  unset : ∀ otherFile otherType,
    Apart storeFile storeType otherFile otherType →
      d.Unset otherFile otherType → d'.Unset otherFile otherType

theorem OnlyIn.region {otherFile : BoatStoreFile} {otherType : BoatStoreType}
    (honly : OnlyIn storeFile storeType d d')
    (hapart : Apart storeFile storeType otherFile otherType)
    (hregion : d.Region otherFile otherType records) :
    d'.Region otherFile otherType records := by
  rcases hregion with ⟨hnil, hunset⟩ | hholds
  · exact Or.inl ⟨hnil, honly.unset otherFile otherType hapart hunset⟩
  · exact Or.inr (honly.holds otherFile otherType _ _ hapart hholds)

theorem OnlyIn.refl (d : Device) : OnlyIn storeFile storeType d d where
  holds _ _ _ _ _ hholds := hholds
  unset _ _ _ hunset := hunset

theorem OnlyIn.put (hfits : offset + data.length ≤ storeFile.room storeType) :
    OnlyIn storeFile storeType d (d.put storeFile storeType offset data) where
  holds _ _ _ _ hapart hholds := hholds.put_apart hapart hfits
  unset _ _ hapart hunset := hunset.put_apart hapart hfits

theorem OnlyIn.trans (hfirst : OnlyIn storeFile storeType d d')
    (hsecond : OnlyIn storeFile storeType d' t) :
    OnlyIn storeFile storeType d t where
  holds otherFile otherType offset content hapart hholds :=
    hsecond.holds otherFile otherType offset content hapart
      (hfirst.holds otherFile otherType offset content hapart hholds)
  unset otherFile otherType hapart hunset :=
    hsecond.unset otherFile otherType hapart
      (hfirst.unset otherFile otherType hapart hunset)

theorem OnlyIn.putCount (n : Nat) :
    OnlyIn storeFile storeType d
      (d.put storeFile storeType 0 (utilityGetNumBytes n)) :=
  OnlyIn.put (storeFile.four_le_room storeType)

theorem OnlyIn.appendRecord
    (hfits : 4 + records.flatten.length + entry.length ≤
      storeFile.room storeType) :
    OnlyIn storeFile storeType d
      (d.appendRecord storeFile storeType records entry) :=
  (OnlyIn.put hfits).trans (OnlyIn.putCount _)

/-- A device with one region changed has the layout with its list changed. -/
theorem Device.Has.update (hhas : d.Has layout)
    (honly : OnlyIn storeFile storeType d d') (hknown : storeType ≠ .unknown)
    (hregion : d'.Region storeFile storeType
      (other.records storeFile storeType))
    (hsame : ∀ otherFile otherType,
      Apart storeFile storeType otherFile otherType →
        other.records otherFile otherType =
          layout.records otherFile otherType) :
    d'.Has other := by
  intro otherFile otherType hkeys hother
  by_cases hplace : storeType = otherType ∧ storeFile = otherFile
  · obtain ⟨rfl, rfl⟩ := hplace
    exact hregion
  · have hapart : Apart storeFile storeType otherFile otherType :=
      ⟨hknown, hother, Decidable.not_and_iff_or_not.mp hplace⟩
    rw [hsame otherFile otherType hapart]
    exact honly.region hapart (hhas otherFile otherType hkeys hother)

theorem Device.Has.setKeypairs (hhas : d.Has layout)
    (honly : OnlyIn .keypair storeType d d') (hknown : storeType ≠ .unknown)
    (hheld : d'.HoldsKeypairs storeType ctxs) :
    d'.Has (layout.setKeypairs storeType ctxs) := by
  cases storeType with
  | unknown => exact absurd rfl hknown
  | ram | flash =>
      refine hhas.update honly hknown hheld ?_
      rintro (_ | _ | _) (_ | _ | _) ⟨_, hother, hne⟩
      all_goals first
        | rfl
        | exact absurd rfl hother
        | exact hne.elim (absurd rfl) (absurd rfl)

theorem Device.Has.setPrikeys (hhas : d.Has layout)
    (honly : OnlyIn .prikey storeType d d') (hknown : storeType ≠ .unknown)
    (hheld : d'.HoldsPrikeys storeType prikeys) :
    d'.Has (layout.setPrikeys storeType prikeys) := by
  cases storeType with
  | unknown => exact absurd rfl hknown
  | ram | flash =>
      refine hhas.update honly hknown hheld ?_
      rintro (_ | _ | _) (_ | _ | _) ⟨_, hother, hne⟩
      all_goals first
        | rfl
        | exact absurd rfl hother
        | exact hne.elim (absurd rfl) (absurd rfl)

/-- A write behind the records leaves the layout. -/
theorem Device.Has.put_behind (hhas : d.Has layout)
    (hkeys : storeFile ≠ .network) (hknown : storeType ≠ .unknown)
    (hfits : 4 + (layout.records storeFile storeType).flatten.length +
      data.length ≤ storeFile.room storeType) :
    (d.put storeFile storeType
      (4 + (layout.records storeFile storeType).flatten.length) data).Has
        layout :=
  hhas.update (OnlyIn.put hfits) hknown
    ((hhas storeFile storeType hkeys hknown).put_behind hfits (Nat.le_refl _))
    fun _ _ _ => rfl

/-- One record and the count in front of it make a region of anything. -/
theorem region_replaceRecord (d : Device)
    (hfits : 4 + entry.length ≤ storeFile.room storeType) :
    (d.appendRecord storeFile storeType [] entry).Region storeFile storeType
      [entry] := by
  have hnew : (d.put storeFile storeType 4 entry).Holds storeFile storeType 4
      [entry].flatten := by
    rw [List.flatten_singleton]
    exact holds_put hfits
  exact region_put_count hnew

theorem Device.Has.appendKeypair (hhas : d.Has layout)
    (hfits : 4 + (keypairBytes layout.keypairs).length + ctx.record.length ≤
      717) :
    (d.appendRecord .keypair .flash
      (layout.keypairs.map BoatKeypairPriKeyCtx.record) ctx.record).Has
        (layout.setKeypairs .flash (layout.keypairs ++ [ctx])) := by
  refine hhas.setKeypairs (OnlyIn.appendRecord hfits) (by decide) ?_
  rw [Device.HoldsKeypairs, List.map_append]
  exact hhas.keypairs.appendRecord hfits

theorem Device.Has.replaceKeypair (hhas : d.Has layout)
    (hknown : storeType ≠ .unknown)
    (hfits : 4 + ctx.record.length ≤ BoatStoreFile.keypair.room storeType) :
    (d.appendRecord .keypair storeType [] ctx.record).Has
      (layout.setKeypairs storeType [ctx]) :=
  hhas.setKeypairs (OnlyIn.appendRecord hfits) hknown
    (region_replaceRecord d hfits)

theorem Device.Has.appendPrikey (hhas : d.Has layout)
    (hfits : 4 + (prikeyBytes layout.prikeys).length + prikey.record.length ≤
      499) :
    (d.appendRecord .prikey .flash
      (layout.prikeys.map PrikeyRecord.record) prikey.record).Has
        (layout.setPrikeys .flash (layout.prikeys ++ [prikey])) := by
  refine hhas.setPrikeys (OnlyIn.appendRecord hfits) (by decide) ?_
  rw [Device.HoldsPrikeys, List.map_append]
  exact hhas.prikeys.appendRecord hfits

theorem Device.Has.replacePrikey (hhas : d.Has layout)
    (hknown : storeType ≠ .unknown)
    (hfits : 4 + prikey.record.length ≤ BoatStoreFile.prikey.room storeType) :
    (d.appendRecord .prikey storeType [] prikey.record).Has
      (layout.setPrikeys storeType [prikey]) :=
  hhas.setPrikeys (OnlyIn.appendRecord hfits) hknown
    (region_replaceRecord d hfits)

/-- What is written over a removed record lies in the region. -/
theorem OnlyIn.closeGap {frontRecords backRecords : List (List UInt8)}
    (hregion : d.Region storeFile .flash
      (frontRecords ++ entry :: backRecords)) (hthree : 3 ≤ entry.length) :
    OnlyIn storeFile .flash d
      ((d.lowerCount storeFile frontRecords backRecords).closeGap storeFile
        (4 + frontRecords.flatten.length) backRecords) :=
  (OnlyIn.putCount _).trans
    (OnlyIn.put (gap_fits hregion.lowerCount_body hthree))

theorem Device.Has.withoutKeypair (hhas : d.Has layout)
    (hsplit : layout.keypairs = front ++ ctx :: back) :
    (d.withoutKeypair front back).Has
      (layout.setKeypairs .flash (front ++ back)) := by
  have hheld := hhas.keypairs
  rw [hsplit] at hheld
  have hthree : 3 ≤ ctx.record.length := by
    have hlen := ctx.length_record
    omega
  refine hhas.setKeypairs ?_ (by decide) (withoutKeypair_region hheld)
  rw [Device.HoldsKeypairs, List.map_append, List.map_cons] at hheld
  exact OnlyIn.closeGap hheld hthree

theorem KeyLayout.setKeypairs_self (layout : KeyLayout) :
    layout.setKeypairs .flash layout.keypairs = layout :=
  rfl

theorem Device.Has.recounted (hhas : d.Has layout)
    (hsplit : layout.keypairs = front ++ ctx :: back) :
    (d.recounted front ctx back).Has layout := by
  have hheld := hhas.keypairs
  rw [hsplit] at hheld
  rw [← layout.setKeypairs_self, hsplit]
  refine hhas.setKeypairs ?_ (by decide) (recounted_region hheld)
  exact (OnlyIn.putCount _).trans (OnlyIn.putCount _)

theorem Device.Has.withoutPrikey (hhas : d.Has layout)
    (hsplit : layout.prikeys = frontKeys ++ prikey :: backKeys) :
    (d.withoutPrikey frontKeys backKeys).Has
      (layout.setPrikeys .flash (frontKeys ++ backKeys)) := by
  have hheld := hhas.prikeys
  rw [hsplit] at hheld
  have hthree : 3 ≤ prikey.record.length := by
    have hlen := prikey.length_record
    omega
  refine hhas.setPrikeys ?_ (by decide) (withoutPrikey_region hheld)
  rw [Device.HoldsPrikeys, List.map_append, List.map_cons] at hheld
  exact OnlyIn.closeGap hheld hthree

/-- The count bytes that `BoATIotKeypairDelete` clears make the region one
without a count. -/
theorem Device.Has.clearOnetime (hhas : d.Has layout) :
    (d.put .keypair .ram 0 [0, 0, 0, 0]).Has
      (layout.setKeypairs .ram []) := by
  have hfits : 0 + [(0 : UInt8), 0, 0, 0].length ≤
      BoatStoreFile.keypair.room .ram := BoatStoreFile.four_le_room .keypair .ram
  refine hhas.setKeypairs (OnlyIn.put hfits) (by decide) (Or.inl ⟨rfl, ?_⟩)
  exact Or.inr ⟨[0, 0, 0, 0], rfl, rfl, (holds_put hfits).1⟩

end BoatFramework
