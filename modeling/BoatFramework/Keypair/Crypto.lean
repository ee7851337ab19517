/-
The cryptography under the keypairs: the ciphertext of a private key
(`BoATSoftRotNvramEnc`, `BoATSoftRotNvramDec`) and the creation of a key
(`BoatPort_keyCreate`) over an arbitrary hash, cipher and curve.
-/
import BoatFramework.Keypair.Context

namespace BoatFramework

inductive Curve where
  | secp256k1
  | nist256p1
deriving DecidableEq

/-- A private key and a public key from outside. -/
structure KeypairNative where
  prikey : List UInt8
  pubkey : List UInt8

/-- Keccak, AES-CBC under the fixed key, the curves and the PEM reader. -/
structure Crypto where
  keccak256 : List UInt8 → Bytes 32
  aesEncrypt : List UInt8 → List UInt8 → List UInt8
  /-- Nothing for a text that is no number of blocks. -/
  aesDecrypt : List UInt8 → List UInt8 → Option (List UInt8)
  publicKey : Curve → List UInt8 → Pubkey
  ecdsaSign : Curve → List UInt8 → List UInt8 → Except BoatResult (List UInt8)
  pkcs2Native : List UInt8 → Except BoatResult KeypairNative
  aesEncrypt_length : ∀ iv text, text.length % 16 = 0 →
    (aesEncrypt iv text).length = text.length
  aesDecrypt_encrypt : ∀ iv text, text.length % 16 = 0 →
    aesDecrypt iv (aesEncrypt iv text) = some text

variable (crypto : Crypto)

def boatRoundup (value step : Nat) : Nat :=
  ((value - 1) / step + 1) * step

/-- The length of the padded text: there is always a padding. -/
def encryptedLen (dataLen : Nat) : Nat :=
  if boatRoundup dataLen 16 = dataLen then boatRoundup dataLen 16 + 16
  else boatRoundup dataLen 16

/-- A text with its padding; every byte of it is the number of bytes. -/
def padded (data : List UInt8) : List UInt8 :=
  data ++ List.replicate (encryptedLen data.length - data.length)
    (UInt8.ofNat (encryptedLen data.length - data.length))

/-- Salt, hash and encrypted data.  The work arrays have 31 bytes more than the
data, a sum that wraps. -/
def boatSoftRotNvramEnc (salt : Bytes 16) (data : List UInt8) :
    Outcome (List UInt8) :=
  if data.length = 0 then boatThrow boatErrorCommonInvalidArgument
  else if buint32 (data.length + 31) < data.length then .error .undefined
  else
    .ok (salt.1 ++ (crypto.keccak256 data).1 ++
      crypto.aesEncrypt salt.1 (padded data))

/-- The plain text behind the padding and the hash check. -/
def unpad (hash plain : List UInt8) : Outcome (List UInt8) :=
  match plain.getLast? with
  | none => .error .undefined
  | some padding =>
      if 16 < padding.toNat then boatThrow boatError
      else if plain.length < padding.toNat then .error .undefined
      else
        let data := plain.take (plain.length - padding.toNat)
        if plain.drop (plain.length - padding.toNat) ≠
            List.replicate padding.toNat padding then boatThrow boatError
        else if hash ≠ (crypto.keccak256 data).1 then boatThrow boatError
        else .ok data

/-- The length of the text behind salt and hash, as far as the work array goes;
it wraps where there is less than these. -/
def encryptedReadLen (dataLen : Nat) : Nat :=
  min (buint32 (dataLen + 31)) ((dataLen + 2 ^ 64 - 48) % 2 ^ 64)

/-- Decrypt the first `dataLen` bytes of a buffer. -/
def boatSoftRotNvramDec (buffer : List UInt8) (dataLen : Nat) :
    Outcome (List UInt8) :=
  if dataLen = 0 then boatThrow boatErrorCommonInvalidArgument
  else if buffer.length < 48 + encryptedReadLen dataLen then .error .undefined
  else
    match crypto.aesDecrypt (buffer.take 16)
        ((buffer.drop 48).take (encryptedReadLen dataLen)) with
    | none => boatThrow boatError
    | some plain => unpad crypto ((buffer.drop 16).take 32) plain

theorem encryptedLen_bounds {dataLen : Nat} (hpos : 0 < dataLen) :
    dataLen < encryptedLen dataLen ∧ encryptedLen dataLen ≤ dataLen + 16 ∧
      encryptedLen dataLen % 16 = 0 := by
  unfold encryptedLen boatRoundup
  split <;> omega

theorem length_padded {data : List UInt8} (hpos : 0 < data.length) :
    (padded data).length = encryptedLen data.length := by
  have hlt := (encryptedLen_bounds hpos).1
  rw [padded, List.length_append, List.length_replicate]
  omega

/-- Below `2 ^ 32 - 31` bytes the work arrays hold the data. -/
theorem boatSoftRotNvramEnc_eq {salt : Bytes 16} {data : List UInt8}
    (hpos : 0 < data.length) (hlt : data.length < 2 ^ 32 - 31) :
    boatSoftRotNvramEnc crypto salt data =
      .ok (salt.1 ++ (crypto.keccak256 data).1 ++
        crypto.aesEncrypt salt.1 (padded data)) := by
  have harrays := buint32_of_lt (by omega : data.length + 31 < 2 ^ 32)
  rw [boatSoftRotNvramEnc, if_neg (by omega), if_neg (by omega)]

/-- The length of a ciphertext. -/
theorem length_boatSoftRotNvramEnc {salt : Bytes 16} {data chip : List UInt8}
    (henc : boatSoftRotNvramEnc crypto salt data = .ok chip) :
    0 < data.length ∧ chip.length = 48 + encryptedLen data.length := by
  unfold boatSoftRotNvramEnc at henc
  split at henc
  next => cases henc
  next hne =>
    split at henc
    · cases henc
    have hpos := Nat.pos_of_ne_zero hne
    obtain ⟨hlt, hle, hblocks⟩ := encryptedLen_bounds hpos
    have htext := length_padded hpos
    have hcipher := crypto.aesEncrypt_length salt.1 (padded data) (by omega)
    obtain rfl := Except.ok.inj henc
    refine ⟨hpos, ?_⟩
    rw [List.length_append, List.length_append, salt.2,
      (crypto.keccak256 data).2, hcipher, htext]

/-- The padding and the hash of a text that was padded are accepted. -/
theorem unpad_padded {data : List UInt8} {padding : Nat} (hpos : 0 < padding)
    (hle : padding ≤ 16) :
    unpad crypto (crypto.keccak256 data).1
      (data ++ List.replicate padding (UInt8.ofNat padding)) = .ok data := by
  have hbyte : (UInt8.ofNat padding).toNat = padding := by
    rw [UInt8.toNat_ofNat']
    omega
  have hlast : (data ++ List.replicate padding
      (UInt8.ofNat padding)).getLast? = some (UInt8.ofNat padding) := by
    rw [List.getLast?_append, List.getLast?_replicate, if_neg (by omega)]
    rfl
  have hlen : (data ++ List.replicate padding (UInt8.ofNat padding)).length -
      padding = data.length := by
    rw [List.length_append, List.length_replicate]
    omega
  unfold unpad
  simp only [hlast, hbyte, hlen]
  rw [if_neg (by omega), if_neg (by simp), if_neg, if_neg]
  · rw [List.take_left]
  · rw [List.take_left]
    exact fun h => h rfl
  · rw [List.drop_left]
    exact fun h => h rfl

/-- The parts of a ciphertext in a buffer. -/
theorem ciphertext_parts (salt : Bytes 16) (hash : Bytes 32)
    (cipher rest : List UInt8) :
    (salt.1 ++ hash.1 ++ cipher ++ rest).take 16 = salt.1 ∧
      ((salt.1 ++ hash.1 ++ cipher ++ rest).drop 16).take 32 = hash.1 ∧
      ((salt.1 ++ hash.1 ++ cipher ++ rest).drop 48).take cipher.length =
        cipher := by
  have hboth : (salt.1 ++ hash.1).length = 48 := by
    rw [List.length_append, salt.2, hash.2]
  refine ⟨?_, ?_, ?_⟩
  · rw [List.append_assoc, List.append_assoc, List.take_left' salt.2]
  · rw [List.append_assoc, List.append_assoc, List.drop_left' salt.2,
      List.take_left' hash.2]
  · rw [List.append_assoc, List.drop_left' hboth, List.take_left]

/-- A ciphertext decrypts to the data, whatever follows it in the buffer. -/
theorem boatSoftRotNvramDec_enc {salt : Bytes 16} {data chip : List UInt8}
    (henc : boatSoftRotNvramEnc crypto salt data = .ok chip)
    (hlen : data.length < 2 ^ 32 - 80) (rest : List UInt8) :
    boatSoftRotNvramDec crypto (chip ++ rest) chip.length = .ok data := by
  obtain ⟨hpos, hchip⟩ := length_boatSoftRotNvramEnc crypto henc
  obtain ⟨hlt, hle, hblocks⟩ := encryptedLen_bounds hpos
  rw [boatSoftRotNvramEnc_eq crypto hpos (by omega)] at henc
  have htext := length_padded hpos
  have hcipher := crypto.aesEncrypt_length salt.1 (padded data) (by omega)
  have hdecrypt := crypto.aesDecrypt_encrypt salt.1 (padded data) (by omega)
  obtain ⟨htake, hhash, hrest⟩ := ciphertext_parts salt
    (crypto.keccak256 data) (crypto.aesEncrypt salt.1 (padded data)) rest
  have hread : encryptedReadLen chip.length =
      (crypto.aesEncrypt salt.1 (padded data)).length := by
    unfold encryptedReadLen buint32
    omega
  obtain rfl := Except.ok.inj henc
  unfold boatSoftRotNvramDec
  rw [hread, if_neg (by omega), if_neg (by rw [List.length_append]; omega)]
  simp only [htake, hhash, hrest, hdecrypt]
  exact unpad_padded crypto (by omega) (by omega)

def boatGetPubkey (type : BoatKeypairPriKeyType) (prikey : List UInt8) :
    Outcome Pubkey :=
  if type = boatKeypairPrikeyTypeSecp256k1 then
    .ok (crypto.publicKey .secp256k1 prikey)
  else if type = boatKeypairPrikeyTypeSecp256r1 then
    .ok (crypto.publicKey .nist256p1 prikey)
  else boatThrow boatErrorKeypairKeyTypeErr

def boatSign (type : BoatKeypairPriKeyType) (prikey digest : List UInt8) :
    Outcome (List UInt8) :=
  let sign (curve : Curve) : Outcome (List UInt8) :=
    match crypto.ecdsaSign curve prikey digest with
    | .ok signature => .ok signature
    | .error code => boatThrow code
  if type = boatKeypairPrikeyTypeSecp256k1 then sign .secp256k1
  else if type = boatKeypairPrikeyTypeSecp256r1 then sign .nist256p1
  else boatThrow boatErrorKeypairKeyTypeErr

/-- What a call takes from outside: the random keys that are drawn and the
salt of the ciphertext. -/
structure Randomness where
  draw : Nat → Except BoatResult (Bytes 32)
  salt : Bytes 16

/-- The greatest private key, as a number that bounds the others. -/
def privKeyMax : Nat :=
  0xFFFFFFFFFFFFFFFFFFFFFFFFFFFFFFFEBAAEDCE6AF48A03BBFD25E8CD0364141

def bnReadLe (bytes : List UInt8) : Nat :=
  bytes.foldr (fun byte n => byte.toNat + 0x100 * n) 0

/-- Draw random keys until one is valid. -/
def drawPrikey (draw : Nat → Except BoatResult (Bytes 32)) :
    Nat → Except BoatResult (Bytes 32)
  | 0 => .error boatError
  | tries + 1 =>
      match draw tries with
      | .error code => .error code
      | .ok key =>
          if bnReadLe key.1 ≠ 0 ∧ bnReadLe key.1 < privKeyMax then .ok key
          else drawPrikey draw tries

def generateKeyRepeatTimes : Nat := 100

/-- A key as it is created, before it has an index and a name. -/
structure CreatedKey where
  prikeyFormat : BoatKeypairPriKeyFormat
  prikeyType : BoatKeypairPriKeyType
  pubkey : Pubkey
  prikey : List UInt8

structure BoatKeypairPriKeyCtxConfig where
  prikeyGenMode : BoatKeypairPriKeyGenMode
  prikeyFormat : BoatKeypairPriKeyFormat
  prikeyType : BoatKeypairPriKeyType
  prikeyContent : Option (List UInt8)

def keyCreateInternalGeneration (random : Randomness)
    (config : BoatKeypairPriKeyCtxConfig) : Outcome CreatedKey :=
  match drawPrikey random.draw generateKeyRepeatTimes with
  | .error code => boatThrow code
  | .ok key => do
      let pubkey ← boatGetPubkey crypto config.prikeyType key.1
      .ok ⟨boatKeypairPrikeyFormatNative, config.prikeyType, pubkey, key.1⟩

/-- The injected content, where it is given and not too long. -/
def injectedContent (config : BoatKeypairPriKeyCtxConfig) :
    Outcome (List UInt8) :=
  match config.prikeyContent with
  | none => boatThrow boatErrorCommonInvalidArgument
  | some content =>
      if 512 < content.length then boatThrow boatErrorCommonOutOfMemory
      else .ok content

def keyCreateExternalInjectionNative (config : BoatKeypairPriKeyCtxConfig) :
    Outcome CreatedKey := do
  let content ← injectedContent config
  let pubkey ← boatGetPubkey crypto config.prikeyType content
  .ok ⟨boatKeypairPrikeyFormatNative, config.prikeyType, pubkey, content⟩

/-- The public key of a shorter one fills up with zeros. -/
def pubkeyOfNative (pubkey : List UInt8) : Outcome Pubkey :=
  if hfits : pubkey.length ≤ 64 then
    .ok ⟨pubkey ++ List.replicate (64 - pubkey.length) 0, by simp; omega⟩
  else .error .undefined

def keyCreateExternalInjectionPkcs (config : BoatKeypairPriKeyCtxConfig) :
    Outcome CreatedKey := do
  let content ← injectedContent config
  match crypto.pkcs2Native content with
  | .error code => boatThrow code
  | .ok keypair =>
      if 512 < keypair.prikey.length then .error .undefined
      else do
        let pubkey ← pubkeyOfNative keypair.pubkey
        .ok ⟨boatKeypairPrikeyFormatNative, config.prikeyType, pubkey,
          keypair.prikey⟩

def boatPortKeyCreate (random : Randomness)
    (config : BoatKeypairPriKeyCtxConfig) : Outcome CreatedKey :=
  if config.prikeyGenMode = boatKeypairPrikeyGenmodeInternalGeneration then
    keyCreateInternalGeneration crypto random config
  else if config.prikeyGenMode =
      boatKeypairPrikeyGenmodeExternalInjection then
    if config.prikeyFormat = boatKeypairPrikeyFormatPkcs then
      keyCreateExternalInjectionPkcs crypto config
    else if config.prikeyFormat = boatKeypairPrikeyFormatNative then
      keyCreateExternalInjectionNative crypto config
    else boatThrow boatErrorKeypairKeyFormatErr
  else boatThrow boatErrorKeypairKeyGenmodeErr

/-- The laws are met by a cipher that changes nothing. -/
def plainCrypto : Crypto where
  keccak256 _ := ⟨List.replicate 32 0, rfl⟩
  aesEncrypt _ text := text
  aesDecrypt _ text := some text
  publicKey _ prikey := ⟨(prikey ++ List.replicate 64 0).take 64, by simp⟩
  ecdsaSign _ prikey digest := .ok (prikey ++ digest)
  pkcs2Native _ := .error boatError
  aesEncrypt_length _ _ _ := rfl
  aesDecrypt_encrypt _ _ _ := rfl

end BoatFramework
