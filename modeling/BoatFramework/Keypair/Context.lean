/-
The keypair context of `boatkeypair.h` and the two kinds of records: a keypair
record holds a context, a private-key record an index and a ciphertext.
-/
import BoatFramework.Storage.Region
import BoatFramework.Utility.CString

namespace BoatFramework

abbrev BoatKeypairPriKeyFormat := UInt32
abbrev BoatKeypairPriKeyType := UInt32
abbrev BoatKeypairPriKeyGenMode := UInt32

def boatKeypairPrikeyGenmodeExternalInjection : BoatKeypairPriKeyGenMode := 1
def boatKeypairPrikeyGenmodeInternalGeneration : BoatKeypairPriKeyGenMode := 2

def boatKeypairPrikeyFormatPkcs : BoatKeypairPriKeyFormat := 1
def boatKeypairPrikeyFormatNative : BoatKeypairPriKeyFormat := 2

def boatKeypairPrikeyTypeSecp256k1 : BoatKeypairPriKeyType := 1
def boatKeypairPrikeyTypeSecp256r1 : BoatKeypairPriKeyType := 2

def boatMaxKeypairNum : Nat := 5

abbrev Pubkey := Bytes 64

structure BoatKeypairPriKeyCtx where
  keypairIndex : UInt8
  keypairName : CString
  prikeyFormat : BoatKeypairPriKeyFormat
  prikeyType : BoatKeypairPriKeyType
  pubkeyContent : Pubkey
deriving DecidableEq

/-- The format of a keypair record: a length and five values behind theirs. -/
def BoatKeypairPriKeyCtx.record (ctx : BoatKeypairPriKeyCtx) : List UInt8 :=
  LengthValue.encode
    (LengthValue.encode [ctx.keypairIndex] ++
      (LengthValue.encode ctx.keypairName.bytes ++
        (LengthValue.encode (enumBytes ctx.prikeyFormat) ++
          (LengthValue.encode (enumBytes ctx.prikeyType) ++
            LengthValue.encode ctx.pubkeyContent.1))))

/-- Five values behind their lengths and nothing else. -/
def readFields (payload : List UInt8) : Option BoatKeypairPriKeyCtx := do
  let (index, rest) ← LengthValue.decode payload
  let (name, rest) ← LengthValue.decode rest
  let (format, rest) ← LengthValue.decode rest
  let (type, rest) ← LengthValue.decode rest
  let (pubkey, rest) ← LengthValue.decode rest
  if hname : (0 : UInt8) ∉ name then
    if hpubkey : pubkey.length = 64 then
      if index.length = 1 ∧ format.length = 4 ∧ type.length = 4 ∧ rest = [] then
        some ⟨index.getD 0 0, ⟨name, hname⟩, enumOfBytes format,
          enumOfBytes type, ⟨pubkey, hpubkey⟩⟩
      else none
    else none
  else none

/-- Read a keypair record and what follows it. -/
def BoatKeypairPriKeyCtx.read (text : List UInt8) :
    Option (BoatKeypairPriKeyCtx × List UInt8) := do
  let (payload, rest) ← LengthValue.decode text
  let ctx ← readFields payload
  some (ctx, rest)

/-- A private-key record: the index of its keypair and the ciphertext, which
has at least two bytes and at most 96. -/
structure PrikeyRecord where
  index : UInt8
  ciphertext : List UInt8
  sized : 2 ≤ ciphertext.length ∧ ciphertext.length ≤ 96
deriving DecidableEq

def PrikeyRecord.record (prikey : PrikeyRecord) : List UInt8 :=
  LengthValue.encode [prikey.index] ++ LengthValue.encode prikey.ciphertext

/-- Read a private-key record and what follows it. -/
def PrikeyRecord.read (text : List UInt8) :
    Option (PrikeyRecord × List UInt8) := do
  let (index, rest) ← LengthValue.decode text
  let (ciphertext, rest) ← LengthValue.decode rest
  if hsized : 2 ≤ ciphertext.length ∧ ciphertext.length ≤ 96 then
    if index.length = 1 then
      some (⟨index.getD 0 0, ciphertext, hsized⟩, rest)
    else none
  else none

/-- A length takes one to three bytes, the name's and the record's too. -/
theorem BoatKeypairPriKeyCtx.length_record (ctx : BoatKeypairPriKeyCtx) :
    ctx.keypairName.bytes.length + 79 ≤ ctx.record.length ∧
      ctx.record.length ≤ ctx.keypairName.bytes.length + 83 := by
  have hpubkey := ctx.pubkeyContent.2
  have hname := LengthValue.length_header ctx.keypairName.bytes.length
  have hone : (LengthValue.header 1).length = 1 := rfl
  have hfour : (LengthValue.header 4).length = 1 := rfl
  have hpub : (LengthValue.header 64).length = 1 := rfl
  simp only [record, LengthValue.length_encode, List.length_append,
    length_enumBytes, List.length_singleton, hpubkey, hone, hfour, hpub]
  have hall := LengthValue.length_header (1 + 1 +
    ((LengthValue.header ctx.keypairName.bytes.length).length +
      ctx.keypairName.bytes.length + (1 + 4 + (1 + 4 + (1 + 64)))))
  omega

theorem BoatKeypairPriKeyCtx.read_record {ctx : BoatKeypairPriKeyCtx}
    (hlen : ctx.record.length < 0x10000) (rest : List UInt8) :
    BoatKeypairPriKeyCtx.read (ctx.record ++ rest) = some (ctx, rest) := by
  have hname := ctx.length_record
  have hpubkey := ctx.pubkeyContent.2
  have hfields : readFields (LengthValue.encode [ctx.keypairIndex] ++
      (LengthValue.encode ctx.keypairName.bytes ++
        (LengthValue.encode (enumBytes ctx.prikeyFormat) ++
          (LengthValue.encode (enumBytes ctx.prikeyType) ++
            LengthValue.encode ctx.pubkeyContent.1)))) = some ctx := by
    have hlong : ctx.pubkeyContent.1.length < 0x10000 := by omega
    have hlast := LengthValue.decode_encode hlong []
    rw [List.append_nil] at hlast
    unfold readFields
    rw [LengthValue.decode_encode (by simp)]
    simp only [Option.bind_eq_bind, Option.bind_some]
    rw [LengthValue.decode_encode (by omega)]
    simp only [Option.bind_some]
    rw [LengthValue.decode_encode (by simp [length_enumBytes])]
    simp only [Option.bind_some]
    rw [LengthValue.decode_encode (by simp [length_enumBytes])]
    simp only [Option.bind_some, hlast, dif_pos ctx.keypairName.noNul,
      dif_pos hpubkey, length_enumBytes, enumOfBytes_enumBytes]
    rfl
  rw [BoatKeypairPriKeyCtx.read, record, LengthValue.decode_encode]
  · simp only [Option.bind_eq_bind, Option.bind_some, hfields]
  · rw [record, LengthValue.length_encode] at hlen
    omega

theorem PrikeyRecord.read_record (prikey : PrikeyRecord)
    (rest : List UInt8) :
    PrikeyRecord.read (prikey.record ++ rest) = some (prikey, rest) := by
  have hsized := prikey.sized
  rw [PrikeyRecord.read, record, List.append_assoc,
    LengthValue.decode_encode (by simp)]
  simp only [Option.bind_eq_bind, Option.bind_some]
  rw [LengthValue.decode_encode (by omega)]
  simp only [Option.bind_some, dif_pos hsized]
  rfl

/-- A private-key record is one length and one index, and the ciphertext behind
a length of one byte. -/
theorem PrikeyRecord.length_record (prikey : PrikeyRecord) :
    prikey.record.length = 3 + prikey.ciphertext.length := by
  have hsized := prikey.sized
  have hheader : (LengthValue.header prikey.ciphertext.length).length = 1 := by
    rw [LengthValue.header, if_pos (by omega)]
    rfl
  rw [record, List.length_append, LengthValue.length_encode,
    LengthValue.length_encode, hheader]
  simp only [List.length_singleton]
  have hone : (LengthValue.header 1).length = 1 := rfl
  omega

theorem keypairRoom_lt (storeType : BoatStoreType) :
    BoatStoreFile.keypair.room storeType < 1000 :=
  BoatStoreFile.keyRoom_lt (by decide) storeType

end BoatFramework
