/-
The private-key store of `boat_keystore.c`: records of an index and a
ciphertext, found by scanning.
-/
import BoatFramework.Keypair.Crypto
import BoatFramework.Storage.Scan

namespace BoatFramework

open Fuse

variable (crypto : Crypto)

def boatKeystorePrikeyLen : Nat := 1 + 16 + 32 + 32 + 16

/-- Skip the private keys that are there; none has the index that is given. -/
def skipPrikeys (keypairIndex : UInt8) (storeType : BoatStoreType) :
    Nat → Nat → Nvram Nat
  | 0, offset => pure offset
  | left + 1, offset => do
      let paramLength ← readLength .prikey offset storeType
      failIf (paramLength ≠ 1) (.code boatError)
      let paramLengthLen := utilityGetTLVLLFromLen paramLength
      let index ← readByte .prikey (advance offset paramLengthLen) storeType
      failIf (index = keypairIndex) (.code boatError)
      let offset := advance offset (paramLengthLen + paramLength)
      let dataLength ← readLength .prikey offset storeType
      skipPrikeys keypairIndex storeType left
        (advance offset (utilityGetTLVLLFromLen dataLength + dataLength))

/-- The ciphertext as it is written into a buffer of `4 + 97` bytes behind the
index; more than it holds is undefined. -/
def encryptPrikey (salt : Bytes 16) (prikey : List UInt8) :
    Outcome (List UInt8) :=
  match boatSoftRotNvramEnc crypto salt prikey with
  | .error .undefined => .error .undefined
  | .error (.code _) => boatThrow boatError
  | .ok chip =>
      if 4 + boatKeystorePrikeyLen < 2 + chip.length then .error .undefined
      else if boatKeystorePrikeyLen < chip.length then boatThrow boatError
      else .ok chip

/-- Store a private key behind `prikeyNum` others. -/
def appendPrikey (salt : Bytes 16) (keypairIndex : UInt8)
    (prikey : List UInt8) (storeType : BoatStoreType) (prikeyNum : Nat) :
    Nvram Unit := do
  let offset ← skipPrikeys keypairIndex storeType prikeyNum 4
  let chip ← ofOutcome (encryptPrikey crypto salt prikey)
  writeRecord .prikey offset
    (addLWithOffset [keypairIndex] ++ addLWithOffset chip) prikeyNum storeType

def boatKeystoreStorePrikey (salt : Bytes 16) (keypairIndex : UInt8)
    (prikey : List UInt8) : Nvram Unit :=
  let storeType : BoatStoreType := if keypairIndex = 0 then .ram else .flash
  storeCounted .prikey storeType boatMaxKeypairNum boatError
    (appendPrikey crypto salt keypairIndex prikey storeType)

/-- Scan for the private key of an index; `next` is where its ciphertext
begins. -/
def findPrikey (index : UInt8) : Nat → Nat → Nvram (Option Place)
  | 0, _ => pure none
  | left + 1, offset => do
      let paramLength ← readLength .prikey offset .flash
      failIf (paramLength ≠ 1) (.code boatError)
      let paramLengthLen := utilityGetTLVLLFromLen paramLength
      let prikeyIndex ← readByte .prikey (advance offset paramLengthLen) .flash
      let next := advance offset (paramLengthLen + paramLength)
      if prikeyIndex = index then pure (some ⟨left, offset, next⟩)
      else do
        let dataLength ← readLength .prikey next .flash
        findPrikey index left
          (advance next (utilityGetTLVLLFromLen dataLength + dataLength))

/-- The length of a number of records from an offset on. -/
def prikeysLength : Nat → Nat → Nvram Nat
  | 0, _ => pure 0
  | left + 1, offset => do
      let indexLength ← readLength .prikey offset .flash
      let indexLength := utilityGetTLVLLFromLen indexLength + indexLength
      let dataLength ← readLength .prikey (advance offset indexLength) .flash
      let dataLength := utilityGetTLVLLFromLen dataLength + dataLength
      let rest ← prikeysLength left
        (advance (advance offset indexLength) dataLength)
      pure (buint32 (indexLength + dataLength + rest))

/-- Where the records behind a place begin and how long they are. -/
def prikeysBehind (place : Place) : Nvram (Nat × Nat) := do
  let dataLength ← readLength .prikey place.next .flash
  let offsetMoveFrom := advance place.next
    (utilityGetTLVLLFromLen dataLength + dataLength)
  let prikeyLength ← prikeysLength place.behind offsetMoveFrom
  pure (offsetMoveFrom, prikeyLength)

/-- Take a private key out.  Where the records cannot be moved the count is
written back, and the call succeeds all the same. -/
def removePrikey (prikeyNum : Nat) (place : Place) : Nvram Unit := do
  match ← attemptCall (removeRecord .prikey place (prikeysBehind place)) with
  | .ok () => pure ()
  | .error _ =>
      boatStoreSoftRotNvram .prikey 0 (utilityGetNumBytes prikeyNum) .flash

def boatDeletePirkeyByIndex (index : UInt8) : Nvram Unit := do
  failIf (boatMaxKeypairNum < index.toNat) (.code boatError)
  if index = 0 then
    boatStoreSoftRotNvram .prikey 0 [0, 0, 0, 0] .ram
  else do
    let prikeynumBytes ← boatReadSoftRotNvram .prikey 0 4 .flash
    match utilityCheckNumBytes prikeynumBytes with
    | .error code => throw (.code code)
    | .ok prikeyNum =>
        if prikeyNum = 0 then pure ()
        else do
          match ← findPrikey index prikeyNum 4 with
          | none => throw (.code boatError)
          | some place => do
              boatStoreSoftRotNvram .prikey 0
                (utilityGetNumBytes (prikeyNum - 1)) .flash
              removePrikey prikeyNum place

/-- Scan for the private key of an index and decrypt it. -/
def decryptPrikeyAt (index : UInt8) (storeType : BoatStoreType) :
    Nat → Nat → Nvram (List UInt8)
  | 0, _ => throw (.code boatError)
  | left + 1, offset => do
      let paramLength ← readLength .prikey offset storeType
      failIf (paramLength ≠ 1) (.code boatError)
      let offset := advance offset (utilityGetTLVLLFromLen paramLength)
      let prikeyIndex ← readByte .prikey offset storeType
      let offset := advance offset paramLength
      let dataLength ← readLength .prikey offset storeType
      let offset := advance offset (utilityGetTLVLLFromLen dataLength)
      if prikeyIndex = index then do
        failIf (boatKeystorePrikeyLen < dataLength) (.code boatError)
        let ciphertext ← boatReadSoftRotNvram .prikey offset dataLength
          storeType
        ofOutcome (boatSoftRotNvramDec crypto (ciphertext ++
          List.replicate (boatKeystorePrikeyLen - dataLength) 0) dataLength)
      else do
        failIf (dataLength < 1) (.code boatError)
        decryptPrikeyAt index storeType left (advance offset dataLength)

def boatGetPirkeyByIndex (index : UInt8) : Nvram (List UInt8) := do
  let storeType : BoatStoreType := if index = 0 then .ram else .flash
  let prikeynumBytes ← boatReadSoftRotNvram .prikey 0 4 storeType
  match utilityCheckNumBytes prikeynumBytes with
  | .error _ => throw (.code boatError)
  | .ok prikeyNum =>
      if prikeyNum = 0 then throw (.code boatError)
      else decryptPrikeyAt crypto index storeType prikeyNum 4

def boatKeystoreSign (type : BoatKeypairPriKeyType) (prikeyIndex : UInt8)
    (digest : List UInt8) : Nvram (List UInt8) := do
  let prikey ← boatGetPirkeyByIndex crypto prikeyIndex
  ofOutcome (boatSign crypto type prikey digest)

end BoatFramework
