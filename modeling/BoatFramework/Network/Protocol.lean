/-
The networks of `sdk/network`.  Every protocol has its own copy of the code that
scans, extends and splices the one store of networks; the copies differ in the
protocol type, the network data and its format, which are parameters here.
-/
import BoatFramework.Storage.Indices
import BoatFramework.Storage.Scan
import BoatFramework.Utility.CString

namespace BoatFramework

open Fuse

inductive BoatProtocolType where
  | unknown
  | ethereum
  | hlfabric
  | platon
  | platone
  | fiscobcos
  | hwbcs
  | chainmaker
  | venachain
  | quorum
  | cita
deriving DecidableEq

/-- The value of the enumeration in C. -/
def BoatProtocolType.value : BoatProtocolType → UInt32
  | .unknown => 0
  | .ethereum => 1
  | .hlfabric => 2
  | .platon => 3
  | .platone => 4
  | .fiscobcos => 5
  | .hwbcs => 6
  | .chainmaker => 7
  | .venachain => 8
  | .quorum => 9
  | .cita => 10

def boatMaxNetworkNum : Nat := 5

/-- What the network code of a protocol has of its own: the checks of a
configuration, the network data that is made of it with an index, the stored
form of network data and how it is read. -/
structure NetworkKind where
  protocol : BoatProtocolType
  Config : Type
  Data : Type
  checkConfig : Config → Outcome Unit
  networkData : Config → UInt8 → Outcome Data
  networkIndex : Data → UInt8
  getNetworkData : Data → Outcome (List UInt8)
  mallocError : BoatResult
  getNetworkFromNvram : Nat → BoatStoreType → Nvram Data

/-- The bytes of the protocol type in front of a record. -/
def BoatProtocolType.bytes (protocol : BoatProtocolType) : List UInt8 :=
  enumBytes protocol.value

/-- Where the next record begins: behind the protocol type, the index and the
data of this one. -/
def nextNetwork (offset networkLength : Nat) : Nat :=
  advance offset
    (5 + (utilityGetTLVLLFromLen networkLength + networkLength))

/-- The indices of a number of records. -/
def readNetworkIndices : Nat → Nat → Nvram (List UInt8)
  | 0, _ => pure []
  | left + 1, offset => do
      let networkIndex ← readByte .network (advance offset 4) .flash
      let networkDataLength ← readLength .network (advance offset 5) .flash
      let indices ← readNetworkIndices left
        (nextNetwork offset networkDataLength)
      pure (networkIndex :: indices)

def getFreeNetworkIndexFromPersistent : Nvram UInt8 := do
  let networkNum ← readNumOrZero .network .flash
  failIf (boatMaxNetworkNum ≤ networkNum) (.code boatErrorNetworkIndexExceed)
  let indices ← readNetworkIndices networkNum 4
  match firstFree indices with
  | some index => pure index
  | none => throw (.code boatError)

/-- Skip the networks that are there. -/
def skipNetworks (storeType : BoatStoreType) : Nat → Nat → Nvram Nat
  | 0, offset => pure offset
  | left + 1, offset => do
      let networkLength ← readLength .network (advance offset 5) storeType
      skipNetworks storeType left (nextNetwork offset networkLength)

/-- Write a record field by field behind `networkNum` others. -/
def writeNetwork (protocol : BoatProtocolType) (index : UInt8)
    (networkData : List UInt8) (storeType : BoatStoreType)
    (networkNum offset : Nat) : Nvram Unit := do
  boatStoreSoftRotNvram .network offset protocol.bytes storeType
  boatStoreSoftRotNvram .network (advance offset 4) [index] storeType
  boatStoreSoftRotNvram .network (advance offset 5) networkData storeType
  boatStoreSoftRotNvram .network 0 (utilityGetNumBytes (networkNum + 1))
    storeType

def appendNetwork (kind : NetworkKind) (data : kind.Data)
    (storeType : BoatStoreType) (networkNum : Nat) : Nvram Unit := do
  let offset ← skipNetworks storeType networkNum 4
  let networkData ← ofOutcome (kind.getNetworkData data)
  boatMalloc kind.mallocError
  writeNetwork kind.protocol (kind.networkIndex data) networkData storeType
    networkNum offset

def networkDataCtxStore (kind : NetworkKind) (data : kind.Data)
    (storeType : BoatStoreType) : Nvram Unit :=
  storeCounted .network storeType boatMaxNetworkNum boatErrorNetworkIndexExceed
    (appendNetwork kind data storeType)

/-- The index of a new network; that of the onetime network is always 0. -/
def newNetworkIndex : BoatStoreType → Nvram UInt8
  | .flash => getFreeNetworkIndexFromPersistent
  | _ => pure 0

def networkCreate (kind : NetworkKind) (networkConfig : kind.Config)
    (storeType : BoatStoreType) : Nvram UInt8 := do
  ofOutcome (kind.checkConfig networkConfig)
  let networkIndex ← newNetworkIndex storeType
  let data ← ofOutcome (kind.networkData networkConfig networkIndex)
  networkDataCtxStore kind data storeType
  pure networkIndex

/-- The number of networks; none is an error. -/
def readNetworkNum (storeType : BoatStoreType) : Nvram Nat := do
  let networknumBytes ← boatReadSoftRotNvram .network 0 4 storeType
  match utilityCheckNumBytes networknumBytes with
  | .error _ => throw (.code boatErrorNetworkInexistence)
  | .ok networkNum => do
      failIf (networkNum = 0) (.code boatErrorNetworkInexistence)
      pure networkNum

/-- Scan for the network of a protocol and an index. -/
def findNetwork (protocol : BoatProtocolType) (index : UInt8) :
    Nat → Nat → Nvram (Option Place)
  | 0, _ => pure none
  | left + 1, offset => do
      let protocolType ← boatReadSoftRotNvram .network offset 4 .flash
      let networkIndex ← readByte .network (advance offset 4) .flash
      let networkLength ← readLength .network (advance offset 5) .flash
      let next := nextNetwork offset networkLength
      if networkIndex = index ∧ enumOfBytes protocolType = protocol.value then
        pure (some ⟨left, offset, next⟩)
      else findNetwork protocol index left next

/-- The length of a number of records from an offset on. -/
def networksLength : Nat → Nat → Nvram Nat
  | 0, _ => pure 0
  | left + 1, offset => do
      let paramLength ← readLength .network (advance offset 5) .flash
      let networkLength ← networksLength left (nextNetwork offset paramLength)
      pure (buint32 (5 + (utilityGetTLVLLFromLen paramLength + paramLength) +
        networkLength))

/-- The last network loses its first bytes.  Where that fails the count bytes
are written in their place. -/
def clearLastNetwork (networkNum offset : Nat) : Nvram Unit := do
  match ← attemptCall (boatStoreSoftRotNvram .network offset [0, 0, 0] .flash) with
  | .ok () => pure ()
  | .error _ =>
      boatStoreSoftRotNvram .network offset (utilityGetNumBytes networkNum)
        .flash

/-- The networks behind a place move over the one that is there.  Where they
cannot be written the count is written back. -/
def moveNetworks (networkNum : Nat) (place : Place) : Nvram Unit := do
  let networkLength ← networksLength place.behind place.next
  boatMalloc boatErrorCommonOutOfMemory
  let networkData ← withCode boatErrorStorageFileReadFail
    (boatReadSoftRotNvram .network place.next networkLength .flash)
  match ← attemptCall
      (boatStoreSoftRotNvram .network place.offset networkData .flash) with
  | .ok () => pure ()
  | .error _ => do
      boatStoreSoftRotNvram .network 0 (utilityGetNumBytes networkNum) .flash
      throw (.code boatErrorStorageFileWriteFail)

/-- The count of the onetime network is cleared, whatever its protocol. -/
def deleteOnetimeNetwork : Nvram Unit := do
  let _ ← readNetworkNum .ram
  boatStoreSoftRotNvram .network 0 [0, 0, 0, 0] .ram

def deletePersistentNetwork (protocol : BoatProtocolType) (index : UInt8) :
    Nvram Unit := do
  let networkNum ← readNetworkNum .flash
  match ← findNetwork protocol index networkNum 4 with
  | none => throw (.code boatErrorNetworkInexistence)
  | some place => do
      boatStoreSoftRotNvram .network 0 (utilityGetNumBytes (networkNum - 1))
        .flash
      if place.behind = 0 then clearLastNetwork networkNum place.offset
      else moveNetworks networkNum place

def networkDelete (protocol : BoatProtocolType) (index : UInt8) :
    Nvram Unit := do
  failIf (boatMaxNetworkNum < index.toNat) (.code boatErrorNetworkIndexExceed)
  if index = 0 then deleteOnetimeNetwork
  else deletePersistentNetwork protocol index

/-- Scan for the network of an index and read it. -/
def readNetworkAt (kind : NetworkKind) (index : UInt8)
    (storeType : BoatStoreType) : Nat → Nat → Nvram kind.Data
  | 0, _ => throw (.code boatErrorNetworkInexistence)
  | left + 1, offset => do
      let protocolType ← boatReadSoftRotNvram .network offset 4 storeType
      let networkIndex ← readByte .network (advance offset 4) storeType
      if networkIndex = index ∧
          enumOfBytes protocolType = kind.protocol.value then
        kind.getNetworkFromNvram (advance offset 5) storeType
      else do
        let networkLength ← readLength .network (advance offset 5) storeType
        readNetworkAt kind index storeType left
          (nextNetwork offset networkLength)

def getNetworkByIndex (kind : NetworkKind) (index : UInt8) :
    Nvram kind.Data := do
  failIf (boatMaxNetworkNum < index.toNat) (.code boatErrorNetworkIndexExceed)
  let storeType : BoatStoreType := if index = 0 then .ram else .flash
  let networkNum ← readNetworkNum storeType
  readNetworkAt kind index storeType networkNum 4

end BoatFramework
