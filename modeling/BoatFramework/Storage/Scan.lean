/-
Steps that the keypair and the private-key routines share: reading a count or a
length, moving records over a removed one.
-/
import BoatFramework.Storage.Nvram

namespace BoatFramework

open Fuse

/-- The result code of a failure; undefined behaviour has none. -/
def Failure.result? : Failure → Option BoatResult
  | .code result => some result
  | .undefined => none

/-- Run a call and look at its result code. -/
def attemptCall {α : Type} (c : Nvram α) : Nvram (Except BoatResult α) :=
  attempt Failure.result? c

/-- Run a call; where it fails, leave with another code. -/
def withCode {α : Type} (code : BoatResult) (c : Nvram α) : Nvram α := do
  match ← attemptCall c with
  | .ok value => pure value
  | .error _ => throw (.code code)

/-- The outcome of a computation that does not touch the device. -/
def ofOutcome {α : Type} (outcome : Outcome α) : Nvram α :=
  inspect fun _ => outcome

/-- An allocation; it fails with the code of its caller. -/
def boatMalloc (code : BoatResult) : Nvram Unit :=
  tick (.code code)

/-- A 32-bit offset moved on. -/
def advance (offset n : Nat) : Nat :=
  buint32 (offset + n)

/-- The distance of two 32-bit offsets. -/
def distance (offset start : Nat) : Nat :=
  buint32 (offset + 2 ^ 32 - start)

/-- The length in front of a value, kept in a 32-bit unsigned variable. -/
def lengthOf (lengthBytes : List UInt8) : Nat :=
  (utilityGetLVDataL lengthBytes % 2 ^ 32).toNat

def readLength (storeFile : BoatStoreFile) (offset : Nat)
    (storeType : BoatStoreType) : Nvram Nat := do
  let lengthBytes ← boatReadSoftRotNvram storeFile offset 3 storeType
  pure (lengthOf lengthBytes)

def readByte (storeFile : BoatStoreFile) (offset : Nat)
    (storeType : BoatStoreType) : Nvram UInt8 := do
  let bytes ← boatReadSoftRotNvram storeFile offset 1 storeType
  pure (bytes.getD 0 0)

/-- The number of records; none where it cannot be read or is not set. -/
def readNumOrZero (storeFile : BoatStoreFile) (storeType : BoatStoreType) :
    Nvram Nat := do
  match ← attemptCall (boatReadSoftRotNvram storeFile 0 4 storeType) with
  | .error _ => pure 0
  | .ok numBytes =>
      match utilityCheckNumBytes numBytes with
      | .error _ => pure 0
      | .ok num => pure num

/-- Write a record behind the others and then the new count. -/
def writeRecord (storeFile : BoatStoreFile) (offset : Nat)
    (data : List UInt8) (num : Nat) (storeType : BoatStoreType) :
    Nvram Unit := do
  boatStoreSoftRotNvram storeFile offset data storeType
  boatStoreSoftRotNvram storeFile 0 (utilityGetNumBytes (num + 1)) storeType

/-- Append a record to a store: behind its records in flash, in the place of
them in RAM.  A store whose count cannot be read is taken for an empty one. -/
def storeCounted (storeFile : BoatStoreFile) (storeType : BoatStoreType)
    (maxNum : Nat) (full : BoatResult) (append : Nat → Nvram Unit) :
    Nvram Unit := do
  let num ← readNumOrZero storeFile storeType
  failIf (maxNum ≤ num) (.code full)
  append (if storeType = .ram then 0 else num)

/-- Where a record was found: how many lie behind it, where it begins and where
the next one does. -/
structure Place where
  behind : Nat
  offset : Nat
  next : Nat

/-- Copy the records behind a removed one over it. -/
def moveBack (storeFile : BoatStoreFile) (offsetMoveTo offsetMoveFrom
    length : Nat) : Nvram Unit := do
  boatMalloc boatErrorCommonOutOfMemory
  let data ← withCode boatErrorStorageFileReadFail
    (boatReadSoftRotNvram storeFile offsetMoveFrom length .flash)
  withCode boatErrorStorageFileWriteFail
    (boatStoreSoftRotNvram storeFile offsetMoveTo data .flash)

/-- Take the record at a place out: the last one loses its length bytes, over
another one those behind it move; `rest` finds where they begin and how long
they are. -/
def removeRecord (storeFile : BoatStoreFile) (place : Place)
    (rest : Nvram (Nat × Nat)) : Nvram Unit :=
  if place.behind = 0 then
    boatStoreSoftRotNvram storeFile place.offset [0, 0, 0] .flash
  else do
    let (from_, length) ← rest
    moveBack storeFile place.offset from_ length

end BoatFramework
