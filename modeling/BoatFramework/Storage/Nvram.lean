/-
The storage of `persiststore.c`: a file of the platform for persistent data and
a RAM block for each kind of data.  Only the file can fail to be read or
written; every access to it counts as one operation.
-/
import BoatFramework.Base.ByteFile
import BoatFramework.Base.Fuse
import BoatFramework.Utility.LengthBytes

namespace BoatFramework

open Fuse

inductive BoatStoreFile where
  | keypair
  | network
  | prikey
deriving DecidableEq

inductive BoatStoreType where
  | unknown
  | ram
  | flash
deriving DecidableEq

/-- Where the data of a kind begins in the file. -/
def BoatStoreFile.offset : BoatStoreFile → Nat
  | .keypair => 0
  | .prikey => 717 + 128
  | .network => 845 + 499 + 128

/-- The bound of the data of a kind.  Network data has none, and no sum of 32
bits exceeds this one. -/
def BoatStoreFile.maxLen : BoatStoreFile → Nat
  | .keypair => 4 + 3 + 5 * (2 + 65 + 5 + 5 + 65)
  | .network => 2 ^ 32
  | .prikey => 4 + 5 * (2 + (1 + 16 + 32 + 32 + 16))

def BoatStoreFile.rambufLen : BoatStoreFile → Nat
  | .keypair => 1024
  | .network => 5120
  | .prikey => 256

def Bytes.write {n : Nat} (block : Bytes n) (offset : Nat)
    (bytes : List UInt8) : Bytes n :=
  if hfits : offset + bytes.length ≤ n then
    ⟨ByteFile.write block.1 offset bytes, by
      rw [ByteFile.length_write, block.2, Nat.max_eq_left hfits]⟩
  else block

theorem Bytes.write_val {n offset : Nat} {block : Bytes n}
    {bytes : List UInt8} (hfits : offset + bytes.length ≤ n) :
    (block.write offset bytes).1 = ByteFile.write block.1 offset bytes := by
  rw [Bytes.write, dif_pos hfits]

/-- A file whose size is a 32-bit number. -/
abbrev FileBytes := {bytes : List UInt8 // bytes.length < 2 ^ 32}

def FileBytes.write (file : FileBytes) (offset : Nat) (bytes : List UInt8) :
    FileBytes :=
  if hfits : offset + bytes.length < 2 ^ 32 then
    ⟨ByteFile.write file.1 offset bytes, by
      rw [ByteFile.length_write]
      exact Nat.max_lt.mpr ⟨file.2, hfits⟩⟩
  else file

/-- The file, once it exists, and the RAM blocks. -/
structure Device where
  flash : Option FileBytes
  ramBoatData : Bytes 1024
  ramBoatNetworkData : Bytes 5120
  ramBoatPrikeyData : Bytes 256
deriving DecidableEq

/-- The file, empty where there is none. -/
def Device.file (d : Device) : FileBytes :=
  d.flash.getD ⟨[], by decide⟩

/-- A device without a file and with RAM of zeros. -/
def blankDevice : Device :=
  ⟨none, ⟨List.replicate 1024 0, List.length_replicate⟩,
    ⟨List.replicate 5120 0, List.length_replicate⟩,
    ⟨List.replicate 256 0, List.length_replicate⟩⟩

abbrev Nvram (α : Type) := FuseM Failure Device α

/-- The bytes among which the data of a kind lies. -/
def Device.bytes (d : Device) : BoatStoreFile → BoatStoreType → List UInt8
  | _, .flash => d.file.1
  | .keypair, _ => d.ramBoatData.1
  | .network, _ => d.ramBoatNetworkData.1
  | .prikey, _ => d.ramBoatPrikeyData.1

/-- The device after a write that is in bounds. -/
def Device.put (d : Device) (storeFile : BoatStoreFile)
    (storeType : BoatStoreType) (offset : Nat) (bytes : List UInt8) : Device :=
  match storeType, storeFile with
  | .flash, _ =>
      { d with flash := some (d.file.write (storeFile.offset + offset) bytes) }
  | _, .keypair => { d with ramBoatData := d.ramBoatData.write offset bytes }
  | _, .network =>
      { d with ramBoatNetworkData := d.ramBoatNetworkData.write offset bytes }
  | _, .prikey =>
      { d with ramBoatPrikeyData := d.ramBoatPrikeyData.write offset bytes }

/-- Bytes of the file; a file that is missing or too short is an error. -/
def Device.readFile (d : Device) (offset readLen : Nat) :
    Outcome (List UInt8) :=
  match d.flash with
  | none => boatThrow boatErrorStorageFileOpenFail
  | some file =>
      match ByteFile.read file.1 offset readLen with
      | some bytes => .ok bytes
      | none => boatThrow boatErrorStorageFileReadFail

/-- Bytes of a RAM block; outside the block is undefined. -/
def Device.readRam (d : Device) (storeFile : BoatStoreFile)
    (offset readLen : Nat) : Outcome (List UInt8) :=
  match ByteFile.read (d.bytes storeFile .ram) offset readLen with
  | some bytes => .ok bytes
  | none => .error .undefined

def boatReadStorage (offset readLen : Nat) : Nvram (List UInt8) := do
  tick (.code boatErrorStorageFileReadFail)
  inspect (·.readFile offset readLen)

/-- Write to the file, which is created where it is missing; what is missing
in front of the offset is filled with zeros.  A file whose size its 32-bit
variable cannot hold is undefined.  The fault is that the file is not opened, or
that none of the bytes is written: it leaves the file as it was.  Writes that
are cut short are not among the faults. -/
def boatWriteStorage (offset : Nat) (writeBuf : List UInt8) : Nvram Unit := do
  tick (.code boatErrorStorageFileWriteFail)
  failIf (2 ^ 32 ≤ offset + writeBuf.length) .undefined
  update fun d => { d with flash := some (d.file.write offset writeBuf) }

def boatReadSoftRotNvram (storeFile : BoatStoreFile) (offset lenToRead : Nat)
    (storeType : BoatStoreType) : Nvram (List UInt8) := do
  failIf (storeFile.maxLen < buint32 (offset + lenToRead))
    (.code boatErrorCommonOutOfMemory)
  failIf (lenToRead = 0 ∨ storeType = .unknown)
    (.code boatErrorCommonInvalidArgument)
  match storeType with
  | .flash => boatReadStorage (buint32 (storeFile.offset + offset)) lenToRead
  | _ =>
      failIf (storeFile.rambufLen < buint32 (offset + lenToRead))
        (.code boatErrorCommonOutOfMemory)
      inspect (·.readRam storeFile offset lenToRead)

def boatStoreSoftRotNvram (storeFile : BoatStoreFile) (offset : Nat)
    (data : List UInt8) (storeType : BoatStoreType) : Nvram Unit := do
  failIf (storeFile.maxLen < buint32 (offset + data.length))
    (.code boatErrorCommonOutOfMemory)
  failIf (data.length = 0 ∨ storeType = .unknown)
    (.code boatErrorCommonInvalidArgument)
  match storeType with
  | .flash => boatWriteStorage (buint32 (storeFile.offset + offset)) data
  | _ =>
      failIf (storeFile.rambufLen < buint32 (offset + data.length))
        (.code boatErrorCommonOutOfMemory)
      failIf (storeFile.rambufLen < offset + data.length) .undefined
      update fun d => d.put storeFile storeType offset data

/-- The operations that an access to a kind of storage counts for. -/
def BoatStoreType.cost : BoatStoreType → Nat
  | .flash => 1
  | _ => 0

/-- Where the data of a kind begins among its bytes. -/
def BoatStoreFile.origin (storeFile : BoatStoreFile) :
    BoatStoreType → Nat
  | .flash => storeFile.offset
  | _ => 0

/-- The room for the data of a kind in the file: network data goes on to the
end of what a file can hold. -/
def BoatStoreFile.fileRoom : BoatStoreFile → Nat
  | .network => 2 ^ 32 - 1 - 1472
  | storeFile => storeFile.maxLen

def BoatStoreFile.room (storeFile : BoatStoreFile) : BoatStoreType → Nat
  | .flash => storeFile.fileRoom
  | _ => min storeFile.maxLen storeFile.rambufLen

theorem BoatStoreFile.room_le (storeFile : BoatStoreFile)
    (storeType : BoatStoreType) :
    storeFile.room storeType ≤ storeFile.maxLen := by
  cases storeType with
  | unknown | ram => exact Nat.min_le_left _ _
  | flash => cases storeFile <;> decide

end BoatFramework
