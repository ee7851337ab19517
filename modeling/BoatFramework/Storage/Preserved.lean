/-
What no read changes, and what no store in RAM does.
-/
import BoatFramework.Storage.Scan

namespace BoatFramework

open Fuse

variable {α γ : Type} {view : Device → γ} {c : Nvram α}

theorem read_preserves (storeFile : BoatStoreFile) (offset len : Nat)
    (storeType : BoatStoreType) :
    Preserves view (boatReadSoftRotNvram storeFile offset len storeType) := by
  unfold boatReadSoftRotNvram
  refine Preserves.failIf.bind fun _ => Preserves.failIf.bind fun _ => ?_
  cases storeType with
  | flash => exact Preserves.tick.bind fun _ => Preserves.inspect
  | unknown | ram => exact Preserves.failIf.bind fun _ => Preserves.inspect

theorem readLength_preserves (storeFile : BoatStoreFile) (offset : Nat)
    (storeType : BoatStoreType) :
    Preserves view (readLength storeFile offset storeType) :=
  (read_preserves storeFile offset 3 storeType).bind fun _ => Preserves.pure

theorem readByte_preserves (storeFile : BoatStoreFile) (offset : Nat)
    (storeType : BoatStoreType) :
    Preserves view (readByte storeFile offset storeType) :=
  (read_preserves storeFile offset 1 storeType).bind fun _ => Preserves.pure

theorem attemptCall_preserves (hview : Preserves view c) :
    Preserves view (attemptCall c) :=
  hview.attempt

theorem withCode_preserves {code : BoatResult} (hview : Preserves view c) :
    Preserves view (withCode code c) := by
  refine (attemptCall_preserves hview).bind fun r => ?_
  cases r with
  | ok _ => exact Preserves.pure
  | error _ => exact Preserves.throw

theorem ofOutcome_preserves (outcome : Outcome α) :
    Preserves view (ofOutcome outcome) :=
  Preserves.inspect

theorem readNumOrZero_preserves (storeFile : BoatStoreFile)
    (storeType : BoatStoreType) :
    Preserves view (readNumOrZero storeFile storeType) := by
  refine (attemptCall_preserves (read_preserves _ _ _ _)).bind fun r => ?_
  cases r with
  | error _ => exact Preserves.pure
  | ok numBytes =>
      simp only
      split
      next => exact Preserves.pure
      next => exact Preserves.pure

/-- A store that is not for flash leaves the file. -/
theorem store_preserves_flash {storeType : BoatStoreType}
    (hflash : storeType ≠ .flash) (storeFile : BoatStoreFile) (offset : Nat)
    (data : List UInt8) :
    Preserves Device.flash
      (boatStoreSoftRotNvram storeFile offset data storeType) := by
  unfold boatStoreSoftRotNvram
  refine Preserves.failIf.bind fun _ => Preserves.failIf.bind fun _ => ?_
  cases storeType with
  | flash => exact absurd rfl hflash
  | unknown | ram =>
      refine Preserves.failIf.bind fun _ => Preserves.failIf.bind fun _ => ?_
      exact Preserves.update fun d => by cases storeFile <;> rfl

/-- A call that is not for RAM leaves the networks in RAM. -/
theorem store_preserves_ram {storeType : BoatStoreType}
    (hram : storeType ≠ .ram) (storeFile : BoatStoreFile) (offset : Nat)
    (data : List UInt8) :
    Preserves Device.ramBoatNetworkData
      (boatStoreSoftRotNvram storeFile offset data storeType) := by
  unfold boatStoreSoftRotNvram
  refine Preserves.failIf.bind fun _ => ?_
  cases storeType with
  | ram => exact absurd rfl hram
  | unknown =>
      rw [failIf, if_pos (Or.inr rfl)]
      exact fun s => Ends.of_error rfl rfl
  | flash =>
      refine Preserves.failIf.bind fun _ => Preserves.tick.bind fun _ => ?_
      exact Preserves.failIf.bind fun _ => Preserves.update fun _ => rfl

theorem storeCounted_preserves {storeFile : BoatStoreFile}
    {storeType : BoatStoreType} {maxNum : Nat} {full : BoatResult}
    {append : Nat → Nvram Unit}
    (happend : ∀ num, Preserves view (append num)) :
    Preserves view (storeCounted storeFile storeType maxNum full append) :=
  (readNumOrZero_preserves storeFile storeType).bind fun _ =>
    Preserves.failIf.bind fun _ => happend _

end BoatFramework
