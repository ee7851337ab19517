/-
The stored form of a private key in both directions, for plain texts and byte
strings of every length: what the decoder accepts, and where it does not give
back a plain text or an error.
-/
import BoatFramework.Keypair.Crypto

namespace BoatFramework

/-- Decryption takes whole blocks, and nothing but what encrypts to them. -/
def Crypto.DecryptInverts (crypto : Crypto) : Prop :=
  ∀ iv text plain, crypto.aesDecrypt iv text = some plain →
    text.length % 16 = 0 ∧ plain.length = text.length ∧
      crypto.aesEncrypt iv plain = text

/-- A ciphertext of some plain text under some salt. -/
def Crypto.IsEncryption (crypto : Crypto) (chip : List UInt8) : Prop :=
  ∃ salt data, boatSoftRotNvramEnc crypto salt data = .ok chip

/-- The decoder gives the plain text of a ciphertext and an error for every
other string. -/
def Crypto.DecodesRight (crypto : Crypto) (chip : List UInt8) : Prop :=
  (∀ salt data, boatSoftRotNvramEnc crypto salt data = .ok chip →
    boatSoftRotNvramDec crypto chip chip.length = .ok data) ∧
  (¬crypto.IsEncryption chip →
    ∃ code, boatSoftRotNvramDec crypto chip chip.length = .error (.code code))

/-- The text with its padding, as the decoder checks it; the byte zero is the
padding of length zero. -/
structure PaddedBy (plain data : List UInt8) (padding : Nat) : Prop where
  few : padding ≤ 16
  text : plain = data ++ List.replicate padding (UInt8.ofNat padding)
  last : plain.getLast? = some (UInt8.ofNat padding)

/-- The first bytes of the encrypted text pass the checks of the decoder. -/
def Crypto.Passes (crypto : Crypto) (chip : List UInt8) (readLen : Nat)
    (data : List UInt8) : Prop :=
  ∃ plain padding,
    crypto.aesDecrypt (chip.take 16) ((chip.drop 48).take readLen) =
      some plain ∧ PaddedBy plain data padding ∧
    (chip.drop 16).take 32 = (crypto.keccak256 data).1

/-- A text without padding passes, or a padding without a text. -/
def Crypto.PassesAmiss (crypto : Crypto) (chip : List UInt8) : Prop :=
  ∃ plain, crypto.aesDecrypt (chip.take 16) (chip.drop 48) = some plain ∧
    ((plain.getLast? = some 0 ∧
        (chip.drop 16).take 32 = (crypto.keccak256 plain).1) ∨
      (plain = List.replicate 16 16 ∧
        (chip.drop 16).take 32 = (crypto.keccak256 []).1))

variable {crypto : Crypto} {chip : List UInt8}

theorem PaddedBy.toNat {plain data : List UInt8} {padding : Nat}
    (hpadded : PaddedBy plain data padding) :
    (UInt8.ofNat padding).toNat = padding := by
  have hfew := hpadded.few
  rw [UInt8.toNat_ofNat']
  omega

theorem unpad_eq_ok_iff {hash plain data : List UInt8} :
    unpad crypto hash plain = .ok data ↔
      ∃ padding, PaddedBy plain data padding ∧
        hash = (crypto.keccak256 data).1 := by
  constructor
  · intro hunpad
    unfold unpad at hunpad
    split at hunpad
    · cases hunpad
    next last hlast =>
      split at hunpad
      · cases hunpad
      next hfew =>
        split at hunpad
        · cases hunpad
        next hlen =>
          simp only at hunpad
          split at hunpad
          · cases hunpad
          next htail =>
            split at hunpad
            · cases hunpad
            next hhash =>
              obtain rfl := Except.ok.inj hunpad
              have hsplit := List.take_append_drop
                (plain.length - last.toNat) plain
              rw [not_not.mp htail] at hsplit
              refine ⟨last.toNat, ⟨by omega, ?_, ?_⟩, not_not.mp hhash⟩
              · rw [UInt8.ofNat_toNat]
                exact hsplit.symm
              · rw [UInt8.ofNat_toNat]
                exact hlast
  · rintro ⟨padding, hpadded, rfl⟩
    have hbyte := hpadded.toNat
    have hfew := hpadded.few
    have hlen : plain.length = data.length + padding := by
      rw [hpadded.text, List.length_append, List.length_replicate]
    have hdata : plain.take (plain.length - padding) = data := by
      rw [hlen, Nat.add_sub_cancel, hpadded.text, List.take_left]
    have htail : plain.drop (plain.length - padding) =
        List.replicate padding (UInt8.ofNat padding) := by
      rw [hlen, Nat.add_sub_cancel]
      conv_lhs => rw [hpadded.text]
      rw [List.drop_left]
    unfold unpad
    simp only [hpadded.last, hbyte, hdata, htail]
    rw [if_neg (by omega), if_neg (by omega), if_neg (fun h => h rfl),
      if_neg (fun h => h rfl)]

/-- On whole blocks, at least one, the checks end with a text or an error. -/
theorem unpad_defined {hash plain : List UInt8} (hne : plain ≠ [])
    (hblocks : plain.length % 16 = 0) :
    (∃ data, unpad crypto hash plain = .ok data) ∨
      ∃ code, unpad crypto hash plain = .error (.code code) := by
  have hpos := List.length_pos_of_ne_nil hne
  unfold unpad
  split
  next hnone => exact absurd (List.getLast?_eq_none_iff.mp hnone) hne
  next last hlast =>
    split
    · exact .inr ⟨_, rfl⟩
    next hfew =>
      rw [if_neg (by omega)]
      simp only
      split
      · exact .inr ⟨_, rfl⟩
      · split
        · exact .inr ⟨_, rfl⟩
        · exact .inl ⟨_, rfl⟩

theorem encryptedReadLen_of_lt {dataLen : Nat} (hlong : 48 ≤ dataLen)
    (hlt : dataLen < 2 ^ 32 - 31) : encryptedReadLen dataLen = dataLen - 48 := by
  unfold encryptedReadLen buint32
  omega

/-- Below 48 bytes the difference wraps, and the read passes the end. -/
theorem boatSoftRotNvramDec_short (hne : chip ≠ [])
    (hshort : chip.length < 48) :
    boatSoftRotNvramDec crypto chip chip.length = .error .undefined := by
  have hpos := List.length_pos_of_ne_nil hne
  have hread : 31 < encryptedReadLen chip.length := by
    unfold encryptedReadLen buint32
    omega
  unfold boatSoftRotNvramDec
  rw [if_neg (by omega), if_pos (by omega)]

/-- The decoder on a string that holds a whole head. -/
theorem boatSoftRotNvramDec_eq (hlong : 48 ≤ chip.length)
    (hlt : chip.length < 2 ^ 32) :
    boatSoftRotNvramDec crypto chip chip.length =
      match crypto.aesDecrypt (chip.take 16)
        ((chip.drop 48).take (encryptedReadLen chip.length)) with
      | none => boatThrow boatError
      | some plain => unpad crypto ((chip.drop 16).take 32) plain := by
  have hread : encryptedReadLen chip.length ≤ chip.length - 48 := by
    unfold encryptedReadLen buint32
    omega
  exact (if_neg (by omega)).trans (if_neg (by omega))

/-- What the decoder accepts is what passes its checks. -/
theorem boatSoftRotNvramDec_eq_ok_iff (hlong : 48 ≤ chip.length)
    (hlt : chip.length < 2 ^ 32) {data : List UInt8} :
    boatSoftRotNvramDec crypto chip chip.length = .ok data ↔
      crypto.Passes chip (encryptedReadLen chip.length) data := by
  rw [boatSoftRotNvramDec_eq hlong hlt, Crypto.Passes]
  cases crypto.aesDecrypt (chip.take 16)
      ((chip.drop 48).take (encryptedReadLen chip.length)) with
  | none =>
      constructor
      · intro hdecode
        cases hdecode
      · rintro ⟨_, _, hplain, _⟩
        cases hplain
  | some plain =>
      simp only [unpad_eq_ok_iff]
      constructor
      · rintro ⟨padding, hpadded, hhash⟩
        exact ⟨plain, padding, rfl, hpadded, hhash⟩
      · rintro ⟨_, padding, ⟨⟩, hpadded, hhash⟩
        exact ⟨padding, hpadded, hhash⟩

/-- Without a block there is nothing to take the padding from. -/
theorem boatSoftRotNvramDec_empty (hlong : 48 ≤ chip.length)
    (hlt : chip.length < 2 ^ 32) (hread : encryptedReadLen chip.length = 0) :
    boatSoftRotNvramDec crypto chip chip.length = .error .undefined := by
  have hcipher : crypto.aesEncrypt (chip.take 16) [] = [] :=
    List.length_eq_zero_iff.mp (crypto.aesEncrypt_length _ _ rfl)
  have hdecrypt := crypto.aesDecrypt_encrypt (chip.take 16) [] rfl
  rw [hcipher] at hdecrypt
  rw [boatSoftRotNvramDec_eq hlong hlt, hread, List.take_zero, hdecrypt]
  rfl

/-- With a block the decoder ends with a text or an error. -/
theorem boatSoftRotNvramDec_defined (hinverts : crypto.DecryptInverts)
    (hlong : 48 ≤ chip.length) (hlt : chip.length < 2 ^ 32)
    (hread : 0 < encryptedReadLen chip.length) :
    (∃ data, boatSoftRotNvramDec crypto chip chip.length = .ok data) ∨
      ∃ code, boatSoftRotNvramDec crypto chip chip.length =
        .error (.code code) := by
  have hwithin : encryptedReadLen chip.length ≤ chip.length - 48 := by
    unfold encryptedReadLen buint32
    omega
  rw [boatSoftRotNvramDec_eq hlong hlt]
  cases hplain : crypto.aesDecrypt (chip.take 16)
      ((chip.drop 48).take (encryptedReadLen chip.length)) with
  | none => exact .inr ⟨_, rfl⟩
  | some plain =>
      obtain ⟨hblocks, hlength, _⟩ := hinverts _ _ _ hplain
      have htext : ((chip.drop 48).take
          (encryptedReadLen chip.length)).length =
            encryptedReadLen chip.length := by
        rw [List.length_take, List.length_drop]
        omega
      apply unpad_defined
      · apply List.ne_nil_of_length_pos
        omega
      · omega

/-- What passes with a padding and a text is the encryption of the text. -/
theorem boatSoftRotNvramEnc_of_passes (hinverts : crypto.DecryptInverts)
    (hlong : 48 ≤ chip.length) (hlt : chip.length < 2 ^ 32 - 31)
    {data : List UInt8} {padding : Nat} (hpos : 0 < data.length)
    (hpadding : 0 < padding) {plain : List UInt8}
    (hplain : crypto.aesDecrypt (chip.take 16) (chip.drop 48) = some plain)
    (hpadded : PaddedBy plain data padding)
    (hhash : (chip.drop 16).take 32 = (crypto.keccak256 data).1) :
    boatSoftRotNvramEnc crypto ⟨chip.take 16, List.length_take_of_le
      (Nat.le_trans (by decide) hlong)⟩ data = .ok chip := by
  obtain ⟨hblocks, hlength, hcipher⟩ := hinverts _ _ _ hplain
  have hfew := hpadded.few
  have hplainLen : plain.length = data.length + padding := by
    rw [hpadded.text, List.length_append, List.length_replicate]
  have htextLen : (chip.drop 48).length = chip.length - 48 :=
    List.length_drop
  obtain ⟨hmore, hle, hwhole⟩ := encryptedLen_bounds hpos
  have hsame : encryptedLen data.length - data.length = padding := by
    omega
  have hpad : padded data = plain := by
    rw [padded, hsame, ← hpadded.text]
  rw [boatSoftRotNvramEnc_eq crypto hpos (by omega), hpad, hcipher, ← hhash]
  congr 1
  calc chip.take 16 ++ (chip.drop 16).take 32 ++ chip.drop 48
      = chip.take 16 ++ ((chip.drop 16).take 32 ++
          (chip.drop 16).drop 32) := by
        rw [List.append_assoc, List.drop_drop]
    _ = chip := by rw [List.take_append_drop, List.take_append_drop]

/-- A ciphertext has the last byte of its padding, and it is decoded. -/
theorem boatSoftRotNvramDec_isEncryption {salt : Bytes 16}
    {data : List UInt8} (henc : boatSoftRotNvramEnc crypto salt data = .ok chip)
    (hlt : chip.length < 2 ^ 32 - 31) :
    0 < data.length ∧
      boatSoftRotNvramDec crypto chip chip.length = .ok data := by
  obtain ⟨hpos, hlength⟩ := length_boatSoftRotNvramEnc crypto henc
  obtain ⟨hmore, hle, hwhole⟩ := encryptedLen_bounds hpos
  have hdecode := boatSoftRotNvramDec_enc crypto henc (by omega) []
  rw [List.append_nil] at hdecode
  exact ⟨hpos, hdecode⟩

/-- Where the whole string is read, the decoder is right unless a text passes
amiss. -/
theorem decodesRight_iff_of_lt (hinverts : crypto.DecryptInverts)
    (hlong : 48 < chip.length) (hlt : chip.length < 2 ^ 32 - 31) :
    crypto.DecodesRight chip ↔ ¬crypto.PassesAmiss chip := by
  have hread := encryptedReadLen_of_lt (by omega) hlt
  have hwhole : (chip.drop 48).take (encryptedReadLen chip.length) =
      chip.drop 48 := by
    rw [hread, ← List.length_drop, List.take_length]
  have hok : ∀ data, boatSoftRotNvramDec crypto chip chip.length = .ok data ↔
      crypto.Passes chip (encryptedReadLen chip.length) data :=
    fun data => boatSoftRotNvramDec_eq_ok_iff (by omega) (by omega)
  constructor
  · rintro ⟨hright, hreject⟩ ⟨plain, hplain, hamiss⟩
    have hpasses : ∃ data,
        boatSoftRotNvramDec crypto chip chip.length = .ok data ∧
          (data = plain ∨ data = []) := by
      rcases hamiss with ⟨hlast, hhash⟩ | ⟨rfl, hhash⟩
      · refine ⟨plain, (hok plain).mpr ⟨plain, 0, ?_, ⟨by decide, ?_, hlast⟩,
          hhash⟩, .inl rfl⟩
        · rw [hwhole, hplain]
        · simp
      · refine ⟨[], (hok []).mpr ⟨List.replicate 16 16, 16, ?_, ⟨by decide, rfl, rfl⟩, hhash⟩,
          .inr rfl⟩
        rw [hwhole, hplain]
    obtain ⟨data, hdecode, hdata⟩ := hpasses
    by_cases hencryption : crypto.IsEncryption chip
    · obtain ⟨salt, text, henc⟩ := hencryption
      obtain ⟨hpos, hdecoded⟩ := boatSoftRotNvramDec_isEncryption henc hlt
      obtain rfl := Except.ok.inj (hdecode.symm.trans hdecoded)
      obtain ⟨_, hlength⟩ := length_boatSoftRotNvramEnc crypto henc
      obtain ⟨hmore, _, _⟩ := encryptedLen_bounds hpos
      obtain ⟨_, hsame, _⟩ := hinverts _ _ _ hplain
      rw [List.length_drop] at hsame
      rcases hdata with rfl | rfl
      · omega
      · exact absurd hpos (by decide)
    · obtain ⟨code, herror⟩ := hreject hencryption
      rw [hdecode] at herror
      cases herror
  · intro hnever
    refine ⟨fun salt data henc =>
      (boatSoftRotNvramDec_isEncryption henc hlt).2, fun hnone => ?_⟩
    rcases boatSoftRotNvramDec_defined hinverts (by omega) (by omega)
      (by omega : 0 < encryptedReadLen chip.length) with ⟨data, hdecode⟩ | herror
    · exfalso
      obtain ⟨plain, padding, hplain, hpadded, hhash⟩ := (hok data).mp hdecode
      rw [hwhole] at hplain
      obtain ⟨hblocks, hlength, _⟩ := hinverts _ _ _ hplain
      have hplainLen : plain.length = data.length + padding := by
        rw [hpadded.text, List.length_append, List.length_replicate]
      have hfew := hpadded.few
      rw [List.length_drop] at hblocks hlength
      by_cases hzero : padding = 0
      · subst hzero
        obtain rfl : plain = data := by simpa using hpadded.text
        exact hnever ⟨plain, hplain, .inl ⟨hpadded.last, hhash⟩⟩
      · by_cases hempty : data = []
        · subst hempty
          rw [List.length_nil] at hplainLen
          obtain rfl : padding = 16 := by omega
          exact hnever ⟨plain, hplain, .inr ⟨hpadded.text, hhash⟩⟩
        · exact hnone ⟨_, data, boatSoftRotNvramEnc_of_passes hinverts
            (by omega) hlt (List.length_pos_of_ne_nil hempty) (by omega) hplain
            hpadded hhash⟩
    · exact herror

/-- Beyond, the work arrays wrap, and the decoder reads less than there is. -/
theorem decodesRight_iff_of_ge (hinverts : crypto.DecryptInverts)
    (hge : 2 ^ 32 - 31 ≤ chip.length) (hlt : chip.length < 2 ^ 32) :
    crypto.DecodesRight chip ↔
      2 ^ 32 - 31 < chip.length ∧ ¬crypto.IsEncryption chip ∧
        ∀ data, ¬crypto.Passes chip (chip.length + 31 - 2 ^ 32) data := by
  have hread : encryptedReadLen chip.length = chip.length + 31 - 2 ^ 32 := by
    unfold encryptedReadLen buint32
    omega
  have hok : ∀ data, boatSoftRotNvramDec crypto chip chip.length = .ok data ↔
      crypto.Passes chip (chip.length + 31 - 2 ^ 32) data := by
    intro data
    rw [boatSoftRotNvramDec_eq_ok_iff (by omega) hlt, hread]
  -- an encryption has whole blocks, but what is read of it has not
  have hcut : ∀ salt data, boatSoftRotNvramEnc crypto salt data = .ok chip →
      ¬∃ text, boatSoftRotNvramDec crypto chip chip.length = .ok text := by
    rintro salt data henc ⟨text, hdecode⟩
    obtain ⟨hpos, hlength⟩ := length_boatSoftRotNvramEnc crypto henc
    obtain ⟨_, _, hwhole⟩ := encryptedLen_bounds hpos
    obtain ⟨plain, _, hplain, _⟩ := (hok text).mp hdecode
    obtain ⟨hblocks, _, _⟩ := hinverts _ _ _ hplain
    rw [List.length_take, List.length_drop] at hblocks
    omega
  by_cases hnone : chip.length = 2 ^ 32 - 31
  · have hundefined : boatSoftRotNvramDec crypto chip chip.length =
        .error .undefined :=
      boatSoftRotNvramDec_empty (by omega) hlt (by omega)
    constructor
    · rintro ⟨hright, hreject⟩
      exfalso
      by_cases hencryption : crypto.IsEncryption chip
      · obtain ⟨salt, data, henc⟩ := hencryption
        exact hcut salt data henc ⟨data, hright salt data henc⟩
      · obtain ⟨code, herror⟩ := hreject hencryption
        rw [hundefined] at herror
        cases herror
    · rintro ⟨hmore, _⟩
      omega
  · constructor
    · rintro ⟨hright, hreject⟩
      have hencryption : ¬crypto.IsEncryption chip := by
        rintro ⟨salt, data, henc⟩
        exact hcut salt data henc ⟨data, hright salt data henc⟩
      refine ⟨by omega, hencryption, fun data hpasses => ?_⟩
      obtain ⟨code, herror⟩ := hreject hencryption
      rw [(hok data).mpr hpasses] at herror
      cases herror
    · rintro ⟨_, hencryption, hnever⟩
      refine ⟨fun salt data henc => absurd ⟨salt, data, henc⟩ hencryption,
        fun _ => ?_⟩
      rcases boatSoftRotNvramDec_defined hinverts (by omega) hlt (by omega)
        with ⟨data, hdecode⟩ | herror
      · exact absurd ((hok data).mp hdecode) (hnever data)
      · exact herror

/-- Up to 48 bytes only the empty string is refused without a bad read. -/
theorem decodesRight_iff_of_le (hshort : chip.length ≤ 48) :
    crypto.DecodesRight chip ↔ chip = [] := by
  have hencryption : ¬crypto.IsEncryption chip := by
    rintro ⟨salt, data, henc⟩
    obtain ⟨hpos, hlength⟩ := length_boatSoftRotNvramEnc crypto henc
    obtain ⟨hmore, _, _⟩ := encryptedLen_bounds hpos
    omega
  constructor
  · rintro ⟨_, hreject⟩
    by_contra hne
    obtain ⟨code, herror⟩ := hreject hencryption
    have hundefined : boatSoftRotNvramDec crypto chip chip.length =
        .error .undefined := by
      by_cases hless : chip.length < 48
      · exact boatSoftRotNvramDec_short hne hless
      · apply boatSoftRotNvramDec_empty (by omega) (by omega)
        rw [encryptedReadLen_of_lt (by omega) (by omega)]
        omega
    rw [hundefined] at herror
    cases herror
  · rintro rfl
    exact ⟨fun salt data henc => absurd ⟨salt, data, henc⟩ hencryption,
      fun _ => ⟨_, rfl⟩⟩

/-- A plain text of `data` comes back through its ciphertext, whose length the
encoder announces in 32 bits. -/
def Crypto.RoundTrips (crypto : Crypto) (salt : Bytes 16)
    (data : List UInt8) : Prop :=
  ∃ chip, boatSoftRotNvramEnc crypto salt data = .ok chip ∧
    boatSoftRotNvramDec crypto chip (buint32 chip.length) = .ok data

theorem roundTrips_iff (hinverts : crypto.DecryptInverts) (salt : Bytes 16)
    {data : List UInt8} (hlt : data.length < 2 ^ 32) :
    crypto.RoundTrips salt data ↔
      data ≠ [] ∧ data.length < 2 ^ 32 - 80 := by
  constructor
  · rintro ⟨chip, henc, hdecode⟩
    obtain ⟨hpos, hlength⟩ := length_boatSoftRotNvramEnc crypto henc
    obtain ⟨hmore, hle, hwhole⟩ := encryptedLen_bounds hpos
    have harrays : data.length < 2 ^ 32 - 31 := by
      by_contra hwrapped
      have hsum : buint32 (data.length + 31) < data.length := by
        unfold buint32
        omega
      rw [boatSoftRotNvramEnc, if_neg (by omega), if_pos hsum] at henc
      cases henc
    refine ⟨List.ne_nil_of_length_pos hpos, ?_⟩
    by_contra hlong
    have hchip : chip.length = 2 ^ 32 - 16 ∨ chip.length = 2 ^ 32 ∨
        chip.length = 2 ^ 32 + 16 ∨ chip.length = 2 ^ 32 + 32 := by
      omega
    unfold boatSoftRotNvramDec at hdecode
    split at hdecode
    · cases hdecode
    next hsome =>
      split at hdecode
      · cases hdecode
      next hfits =>
        split at hdecode
        · cases hdecode
        next plain hplain =>
          obtain ⟨hblocks, _, _⟩ := hinverts _ _ _ hplain
          rw [List.length_take, List.length_drop] at hblocks
          rcases hchip with hchip | hchip | hchip | hchip <;>
            rw [hchip] at hblocks hsome
          · exact absurd hblocks (by decide)
          · exact hsome rfl
          · exact absurd hblocks (by decide)
          · exact absurd hblocks (by decide)
  · rintro ⟨hne, hshort⟩
    have hpos := List.length_pos_of_ne_nil hne
    have henc : boatSoftRotNvramEnc crypto salt data = .ok _ :=
      boatSoftRotNvramEnc_eq crypto hpos (by omega)
    obtain ⟨_, hlength⟩ := length_boatSoftRotNvramEnc crypto henc
    obtain ⟨hmore, hle, _⟩ := encryptedLen_bounds hpos
    have hdecode := boatSoftRotNvramDec_enc crypto henc hshort []
    rw [List.append_nil] at hdecode
    refine ⟨_, henc, ?_⟩
    rw [buint32_of_lt (by omega)]
    exact hdecode

/-- The plain texts that come back, and the strings on which the decoder is
right. -/
theorem boatSoftRotNvram_correct_iff (crypto : Crypto)
    (hinverts : crypto.DecryptInverts) :
    (∀ salt data, data.length < 2 ^ 32 →
      (crypto.RoundTrips salt data ↔
        data ≠ [] ∧ data.length < 2 ^ 32 - 80)) ∧
    (∀ chip, chip.length < 2 ^ 32 →
      (crypto.DecodesRight chip ↔
        chip = [] ∨
        (48 < chip.length ∧ chip.length < 2 ^ 32 - 31 ∧
          ¬crypto.PassesAmiss chip) ∨
        (2 ^ 32 - 31 < chip.length ∧ ¬crypto.IsEncryption chip ∧
          ∀ data, ¬crypto.Passes chip (chip.length + 31 - 2 ^ 32) data))) := by
  refine ⟨fun salt data hlt => roundTrips_iff hinverts salt hlt,
    fun chip hlt => ?_⟩
  rcases Nat.lt_or_ge 48 chip.length with hlong | hshort
  · have hne : chip ≠ [] := by
      apply List.ne_nil_of_length_pos
      omega
    rcases Nat.lt_or_ge chip.length (2 ^ 32 - 31) with hless | hge
    · rw [decodesRight_iff_of_lt hinverts hlong hless]
      constructor
      · intro hamiss
        exact .inr (.inl ⟨hlong, hless, hamiss⟩)
      · rintro (hnil | ⟨_, _, hamiss⟩ | ⟨hmore, _⟩)
        · exact absurd hnil hne
        · exact hamiss
        · omega
    · rw [decodesRight_iff_of_ge hinverts hge hlt]
      constructor
      · intro hright
        exact .inr (.inr hright)
      · rintro (hnil | ⟨_, hless, _⟩ | hright)
        · exact absurd hnil hne
        · omega
        · exact hright
  · rw [decodesRight_iff_of_le hshort]
    constructor
    · intro hnil
      exact .inl hnil
    · rintro (hnil | ⟨hlong, _⟩ | ⟨hmore, _⟩)
      · exact hnil
      · omega
      · omega

/-- A cipher that leaves whole blocks as they are and refuses the rest. -/
def blockCrypto : Crypto :=
  { plainCrypto with
    aesDecrypt := fun _ text => if text.length % 16 = 0 then some text else none
    aesDecrypt_encrypt := fun _ _ hblocks => if_pos hblocks }

theorem blockCrypto_decryptInverts : blockCrypto.DecryptInverts := by
  intro iv text plain hdecrypt
  change (if text.length % 16 = 0 then some text else none) = some plain
    at hdecrypt
  split at hdecrypt
  next hblocks =>
    obtain rfl := Option.some.inj hdecrypt
    exact ⟨hblocks, rfl, rfl⟩
  next => cases hdecrypt

/-- A text of one byte. -/
theorem boatSoftRotNvram_correct_byte :
    blockCrypto.RoundTrips ⟨List.replicate 16 0, rfl⟩ [1] :=
  ((boatSoftRotNvram_correct_iff blockCrypto blockCrypto_decryptInverts).1
    ⟨List.replicate 16 0, rfl⟩ [1] (by decide)).mpr ⟨by decide, by decide⟩

/-- A string of one byte is read past its end. -/
theorem not_decodesRight_byte :
    blockCrypto.DecryptInverts ∧ ¬blockCrypto.DecodesRight [0] := by
  refine ⟨blockCrypto_decryptInverts, fun hright => ?_⟩
  exact absurd ((decodesRight_iff_of_le (by decide)).mp hright) (by decide)

end BoatFramework
