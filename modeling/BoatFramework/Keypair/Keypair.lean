/-
The keypairs of `boatkeypair.c`: the list of keypairs, the record of one, and
`BoatKeypairCreate` and `BoATIotKeypairDelete` over the two stores.
-/
import BoatFramework.Keypair.Keystore
import BoatFramework.Storage.Indices

namespace BoatFramework

open Fuse

variable (crypto : Crypto)

/-- A record that is being read: where its values begin and how long they are
together. -/
structure RecordFrame where
  start : Nat
  length : Nat
  lengthLen : Nat

def readFrame (offset : Nat) (storeType : BoatStoreType) :
    Nvram RecordFrame := do
  let length ← readLength .keypair offset storeType
  let lengthLen := utilityGetTLVLLFromLen length
  pure ⟨advance offset lengthLen, length, lengthLen⟩

/-- Read a value of a record, of the given size if there is one, after what has
to be done before; then the offset behind it. -/
def readValue (frame : RecordFrame) (storeType : BoatStoreType)
    (size : Option Nat) (before : Nvram Unit) (offset : Nat) :
    Nvram (List UInt8 × Nat) := do
  let paramLength ← readLength .keypair offset storeType
  failIf (∃ n ∈ size, paramLength ≠ n) (.code boatError)
  let offset := advance offset (utilityGetTLVLLFromLen paramLength)
  failIf (frame.length < advance (distance offset frame.start) paramLength)
    (.code boatError)
  before
  let value ← boatReadSoftRotNvram .keypair offset paramLength storeType
  pure (value, advance offset paramLength)

/-- A value of another size than its variable leaves the variable undefined. -/
def requireSize (n : Nat) (value : List UInt8) : Nvram (Bytes n) :=
  ofOutcome (if hsize : value.length = n then .ok ⟨value, hsize⟩
    else .error .undefined)

/-- The name, the format, the type and the public key of a record. -/
def readContext (frame : RecordFrame) (storeType : BoatStoreType)
    (index : UInt8) (pubkeySize : Option Nat) (before : Nvram Unit)
    (offset : Nat) : Nvram BoatKeypairPriKeyCtx := do
  let (name, offset) ← readValue frame storeType none before offset
  let (format, offset) ← readValue frame storeType none (pure ()) offset
  let format ← requireSize 4 format
  let (type, offset) ← readValue frame storeType none (pure ()) offset
  let type ← requireSize 4 type
  let (pubkey, _) ← readValue frame storeType pubkeySize (pure ()) offset
  let pubkey ← requireSize 64 pubkey
  pure ⟨index, CString.ofBuffer name, enumOfBytes format.1,
    enumOfBytes type.1, pubkey⟩

/-- The length bytes and the index of a record. -/
def readIndex (startAddr : Nat) (storeType : BoatStoreType) :
    Nvram (RecordFrame × UInt8 × Nat) := do
  let frame ← readFrame startAddr storeType
  let (index, offset) ← readValue frame storeType (some 1) (pure ()) frame.start
  pure (frame, index.getD 0 0, offset)

/-- A keypair as it was read, or why not and the index that is left behind. -/
inductive KeypairRead where
  | complete (ctx : BoatKeypairPriKeyCtx) (outlen : Nat)
  | broken (result : BoatResult) (index : Option UInt8)

def boatKeypairGetKeypairFromNvram (startAddr : Nat)
    (storeType : BoatStoreType) : Nvram KeypairRead := do
  match ← attemptCall (readIndex startAddr storeType) with
  | .error result => pure (.broken result none)
  | .ok (frame, index, offset) =>
      match ← attemptCall
          (readContext frame storeType index (some 64) (pure ()) offset) with
      | .error result => pure (.broken result (some index))
      | .ok ctx => pure (.complete ctx (buint32 (frame.length + frame.lengthLen)))

/-- The keypairs of a list and whether all of them could be read. -/
structure KeypairList where
  keypairs : List BoatKeypairPriKeyCtx
  broken : Option UInt8
  complete : Bool

/-- Read a number of keypairs into a list of six, from a slot on. -/
def getKeypairs (storeType : BoatStoreType) :
    (num slot offset : Nat) → Nvram KeypairList
  | 0, _, _ => pure ⟨[], none, true⟩
  | num + 1, slot, offset => do
      failIf (boatMaxKeypairNum + 1 ≤ slot) .undefined
      match ← boatKeypairGetKeypairFromNvram offset storeType with
      | .broken _ index => pure ⟨[], index, false⟩
      | .complete ctx outlen => do
          let list ← getKeypairs storeType num (slot + 1)
            (advance offset outlen)
          pure { list with keypairs := ctx :: list.keypairs }

/-- The list of keypairs; an entry that was not read has index 0. -/
structure BoatIotKeypairContext where
  keypairNum : Nat
  keypairPersistentNum : Nat
  keypairs : List BoatKeypairPriKeyCtx
  broken : Option UInt8

def boatKeypairGetKeypairList : Nvram BoatIotKeypairContext := do
  let persistentNum ← readNumOrZero .keypair .flash
  let persistent ← getKeypairs .flash persistentNum 0 4
  if persistent.complete = false then
    pure ⟨persistentNum, persistentNum, persistent.keypairs, persistent.broken⟩
  else do
    let onetimeNum ← readNumOrZero .keypair .ram
    let onetime ← getKeypairs .ram onetimeNum persistentNum 4
    pure ⟨(persistentNum + onetimeNum) % 2 ^ 8, persistentNum,
      persistent.keypairs ++ onetime.keypairs, onetime.broken⟩

/-- The indices of the entries that the list counts. -/
def BoatIotKeypairContext.indices (list : BoatIotKeypairContext) :
    List UInt8 :=
  (list.keypairs.map (·.keypairIndex) ++ list.broken.toList).take
    list.keypairNum

def boatKeypairGetFreeIndexFromPersistent : Nvram UInt8 := do
  let keypairList ← boatKeypairGetKeypairList
  failIf (keypairList.keypairPersistentNum = boatMaxKeypairNum)
    (.code boatErrorKeypairKeyIndexExceed)
  match firstFree keypairList.indices with
  | some index => pure index
  | none =>
      if keypairList.keypairNum = 0 then pure 0
      else throw (.code boatErrorKeypairKeyIndexExceed)

def boatKeypairGetDataCtxLen (ctx : BoatKeypairPriKeyCtx) : Nat :=
  let param (length : Nat) := length + utilityGetTLVLLFromLen length
  let keypairLength := buint32 (param 1 +
    param (buint32 ctx.keypairName.bytes.length) + param 4 + param 4 + param 64)
  buint32 (keypairLength + utilityGetTLVLLFromLen keypairLength)

/-- The record of a keypair in a block of the given size.  A length that does
not fit a signed integer is taken for an error. -/
def boatKeypairGetDataCtxData (ctx : BoatKeypairPriKeyCtx) (size : Nat) :
    Outcome (List UInt8) :=
  let data := addLWithOffset
    (addLWithOffset [ctx.keypairIndex] ++
      (addLWithOffset ctx.keypairName.bytes ++
        (addLWithOffset (enumBytes ctx.prikeyFormat) ++
          (addLWithOffset (enumBytes ctx.prikeyType) ++
            addLWithOffset ctx.pubkeyContent.1))))
  if size < data.length then .error .undefined
  else if 2 ^ 31 ≤ data.length then boatThrow boatError
  else .ok data

/-- Skip the keypairs that are there. -/
def skipKeypairs (storeType : BoatStoreType) : Nat → Nat → Nvram Nat
  | 0, offset => pure offset
  | left + 1, offset => do
      let keypairLength ← readLength .keypair offset storeType
      skipKeypairs storeType left (advance offset
        (keypairLength + utilityGetTLVLLFromLen keypairLength))

/-- Store a keypair behind `keypairNum` others. -/
def appendKeypair (ctx : BoatKeypairPriKeyCtx) (storeType : BoatStoreType)
    (keypairNum : Nat) : Nvram Unit := do
  let offset ← skipKeypairs storeType keypairNum 4
  let keypairData ← ofOutcome
    (boatKeypairGetDataCtxData ctx (boatKeypairGetDataCtxLen ctx))
  writeRecord .keypair offset keypairData keypairNum storeType

def boatKeypairDataCtxStore (ctx : BoatKeypairPriKeyCtx)
    (storeType : BoatStoreType) : Nvram Unit :=
  storeCounted .keypair storeType boatMaxKeypairNum
    boatErrorKeypairKeyIndexExceed (appendKeypair ctx storeType)

/-- Scan for the keypair of an index and read it. -/
def readKeypairAt (index : UInt8) (storeType : BoatStoreType) :
    Nat → Nat → Nvram BoatKeypairPriKeyCtx
  | 0, _ => throw (.code boatErrorKeypairKeyInexistence)
  | left + 1, offset => do
      let frame ← readFrame offset storeType
      let lengthBytes ← boatReadSoftRotNvram .keypair frame.start 3 storeType
      failIf (lengthOf lengthBytes ≠ 1) (.code boatError)
      if lengthBytes.getD 1 0 = index then do
        let offset := advance frame.start 2
        failIf (frame.length < distance offset frame.start) (.code boatError)
        readContext frame storeType index none (boatMalloc boatError) offset
      else readKeypairAt index storeType left (advance frame.start frame.length)

def boatKeypairGetKeypairByIndex (index : UInt8) :
    Nvram BoatKeypairPriKeyCtx := do
  failIf (boatMaxKeypairNum < index.toNat) (.code boatErrorKeypairKeyIndexExceed)
  let storeType : BoatStoreType := if index = 0 then .ram else .flash
  let keypairNumBytes ← withCode boatError
    (boatReadSoftRotNvram .keypair 0 4 storeType)
  match utilityCheckNumBytes keypairNumBytes with
  | .error _ => throw (.code boatErrorKeypairKeyInexistence)
  | .ok keypairNum =>
      if keypairNum = 0 then throw (.code boatErrorKeypairKeyInexistence)
      else readKeypairAt index storeType keypairNum 4

/-- Scan for the keypair of an index. -/
def findKeypair (index : UInt8) : Nat → Nat → Nvram (Option Place)
  | 0, _ => pure none
  | left + 1, offset => do
      let keypairLength ← readLength .keypair offset .flash
      let keypairLengthLen := utilityGetTLVLLFromLen keypairLength
      let paramLength ← readLength .keypair (advance offset keypairLengthLen)
        .flash
      failIf (paramLength ≠ 1) (.code boatError)
      let keypairIndex ← readByte .keypair
        (advance offset (keypairLengthLen + 1)) .flash
      let next := advance offset (keypairLengthLen + keypairLength)
      if keypairIndex = index then pure (some ⟨left, offset, next⟩)
      else findKeypair index left next

/-- The length of a number of records from an offset on. -/
def keypairsLength : Nat → Nat → Nvram Nat
  | 0, _ => pure 0
  | left + 1, offset => do
      let paramLength ← readLength .keypair offset .flash
      let paramLength := utilityGetTLVLLFromLen paramLength + paramLength
      let rest ← keypairsLength left (advance offset paramLength)
      pure (buint32 (paramLength + rest))

/-- Where the records behind a place begin and how long they are. -/
def keypairsBehind (place : Place) : Nvram (Nat × Nat) := do
  let keypairLength ← keypairsLength place.behind place.next
  pure (place.next, keypairLength)

/-- Take a keypair out after its count was lowered; where that fails the count
is written back. -/
def removeKeypair (keypairNum : Nat) (place : Place) : Nvram Unit := do
  match ← attemptCall (removeRecord .keypair place (keypairsBehind place)) with
  | .ok () => pure ()
  | .error exception => do
      boatStoreSoftRotNvram .keypair 0 (utilityGetNumBytes keypairNum) .flash
      throw (.code exception)

/-- Delete the private key of an index that has no keypair any more; where that
fails the keypair is stored again. -/
def deletePrikeyOrRestore (index : UInt8)
    (restorekeypair : BoatKeypairPriKeyCtx) : Nvram Unit := do
  match ← attemptCall (boatDeletePirkeyByIndex index) with
  | .ok () => pure ()
  | .error _ => do
      let _ ← attemptCall (boatKeypairDataCtxStore restorekeypair .flash)
      throw (.code boatError)

/-- The onetime keypair loses its count. -/
def deleteOnetimeKeypair : Nvram Unit := do
  let keypairnumBytes ← boatReadSoftRotNvram .keypair 0 4 .ram
  match utilityCheckNumBytes keypairnumBytes with
  | .error _ => throw (.code boatErrorKeypairKeyInexistence)
  | .ok keypairNum =>
      if keypairNum = 0 then throw (.code boatErrorKeypairKeyInexistence)
      else boatStoreSoftRotNvram .keypair 0 [0, 0, 0, 0] .ram

/-- The keypair is taken out of its store: what is left to do is its private
key. -/
def deleteKeypairRecord (index : UInt8) : Nvram BoatKeypairPriKeyCtx := do
  let keypairnumBytes ← boatReadSoftRotNvram .keypair 0 4 .flash
  match utilityCheckNumBytes keypairnumBytes with
  | .error _ => throw (.code boatErrorKeypairKeyInexistence)
  | .ok keypairNum =>
      if keypairNum = 0 then throw (.code boatErrorKeypairKeyInexistence)
      else do
        match ← findKeypair index keypairNum 4 with
        | none => throw (.code boatError)
        | some place => do
            let restorekeypair ← boatKeypairGetKeypairByIndex index
            boatStoreSoftRotNvram .keypair 0
              (utilityGetNumBytes (keypairNum - 1)) .flash
            removeKeypair keypairNum place
            pure restorekeypair

def boatIotKeypairDelete (index : UInt8) : Nvram Unit := do
  failIf (boatMaxKeypairNum < index.toNat) (.code boatErrorKeypairKeyIndexExceed)
  if index = 0 then deleteOnetimeKeypair
  else do
    let restorekeypair ← deleteKeypairRecord index
    deletePrikeyOrRestore index restorekeypair

/-- The name of a keypair: the given one, or `keypair` and the index. -/
def keypairNameOrDefault (keypairName : Option CString) (index : UInt8) :
    CString :=
  match keypairName with
  | some name => name
  | none => CString.ofBuffer
      [0x6B, 0x65, 0x79, 0x70, 0x61, 0x69, 0x72, 0x30 + index]

/-- Store the private key of a keypair that was stored; where that fails the
keypair is deleted again. -/
def storePrikeyOrDelete (salt : Bytes 16) (index : UInt8)
    (prikey : List UInt8) : Nvram Unit := do
  match ← attemptCall (boatKeystoreStorePrikey crypto salt index prikey) with
  | .ok () => pure ()
  | .error _ => do
      let _ ← attemptCall (boatIotKeypairDelete index)
      throw (.code boatError)

/-- The index of a new keypair. -/
def newIndex : BoatStoreType → Nvram UInt8
  | .flash => boatKeypairGetFreeIndexFromPersistent
  | _ => pure 0

def boatKeypairCreate (random : Randomness)
    (keypairConfig : Option BoatKeypairPriKeyCtxConfig)
    (keypairName : Option CString) (storeType : BoatStoreType) :
    Nvram UInt8 := do
  match keypairConfig with
  | none => throw (.code boatErrorCommonInvalidArgument)
  | some config => do
      failIf (storeType = .unknown) (.code boatErrorKeypairKeyStoretypeErr)
      let keypairIndex ← newIndex storeType
      let key ← ofOutcome (boatPortKeyCreate crypto random config)
      boatKeypairDataCtxStore ⟨keypairIndex,
        keypairNameOrDefault keypairName keypairIndex, key.prikeyFormat,
        key.prikeyType, key.pubkey⟩ storeType
      storePrikeyOrDelete crypto random.salt keypairIndex key.prikey
      pure keypairIndex

end BoatFramework
