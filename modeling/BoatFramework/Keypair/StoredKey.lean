/-
Private keys of every length: which of them are stored and read back, which are
refused, and which are written past the buffer of their record.
-/
import BoatFramework.Keypair.StoreSteps

namespace BoatFramework

open Fuse

/-- The store for the private key of an index. -/
def prikeyStoreType (index : UInt8) : BoatStoreType :=
  if index = 0 then .ram else .flash

/-- What storing a private key owes: its record lies in the region and the key
is read back, or there is an error and nothing has changed. -/
def StoresOrRefuses (crypto : Crypto) (d : Device) (salt : Bytes 16)
    (index : UInt8) (key : List UInt8) : Prop :=
  (∃ d' records entry,
    boatKeystoreStorePrikey crypto salt index key ⟨d, none⟩ =
      .ok () ⟨d', none⟩ ∧
    d' = d.appendRecord .prikey (prikeyStoreType index) records entry ∧
    4 + records.flatten.length + entry.length ≤
      BoatStoreFile.prikey.room (prikeyStoreType index) ∧
    boatGetPirkeyByIndex crypto index ⟨d', none⟩ = .ok key ⟨d', none⟩) ∨
  ∃ code, boatKeystoreStorePrikey crypto salt index key ⟨d, none⟩ =
    .error (.code code) ⟨d, none⟩

variable {crypto : Crypto} {d : Device} {salt : Bytes 16} {index : UInt8}
  {key : List UInt8} {prikeys front : List PrikeyRecord}
  {prikey : PrikeyRecord}

theorem prikeyStoreType_known (index : UInt8) :
    prikeyStoreType index ≠ .unknown := by
  unfold prikeyStoreType
  split
  · decide
  · decide

theorem boatKeystoreStorePrikey_eq (crypto : Crypto) (salt : Bytes 16)
    (index : UInt8) (key : List UInt8) :
    boatKeystoreStorePrikey crypto salt index key =
      storeCounted .prikey (prikeyStoreType index) boatMaxKeypairNum boatError
        (appendPrikey crypto salt index key (prikeyStoreType index)) :=
  rfl

/-- Without a key there is nothing to encrypt. -/
theorem encryptPrikey_nil (crypto : Crypto) (salt : Bytes 16) :
    encryptPrikey crypto salt [] = .error (.code boatError) :=
  rfl

/-- From 48 bytes on the ciphertext is longer than the buffer. -/
theorem encryptPrikey_long (crypto : Crypto) (salt : Bytes 16)
    (hlong : 48 ≤ key.length) :
    encryptPrikey crypto salt key = .error .undefined := by
  unfold encryptPrikey
  cases henc : boatSoftRotNvramEnc crypto salt key with
  | error failure =>
      rw [boatSoftRotNvramEnc, if_neg (by omega)] at henc
      split at henc
      · obtain rfl := Except.error.inj henc
        rfl
      · cases henc
  | ok chip =>
      obtain ⟨hpos, hchip⟩ := length_boatSoftRotNvramEnc crypto henc
      have hbounds : 64 ≤ encryptedLen key.length := by
        unfold encryptedLen boatRoundup
        split <;> omega
      have hmax : boatKeystorePrikeyLen = 97 := rfl
      exact if_pos (by omega)

/-- A sealed private key behind others of other indices is read back. -/
theorem getPirkey_found
    (hheld : d.HoldsPrikeys (prikeyStoreType prikey.index) (front ++ [prikey]))
    (hcount : (front ++ [prikey]).length < 0x100)
    (habsent : ∀ other ∈ front, other.index ≠ prikey.index)
    (hsealed : SealedFor crypto salt prikey.index key prikey)
    (hlen : key.length ≤ 47) :
    boatGetPirkeyByIndex crypto prikey.index ⟨d, none⟩ = .ok key ⟨d, none⟩ := by
  have hknown := prikeyStoreType_known prikey.index
  have hopens := boatSoftRotNvramDec_enc crypto
    (encryptPrikey_sized hsealed.chip).1 (by omega) (List.replicate
      (boatKeystorePrikeyLen - prikey.ciphertext.length) 0)
  obtain ⟨ops, hscan⟩ := decryptPrikeyAt_found
    (hheld.prikeyBody (by simp)) hknown habsent hopens
  have hread := readCount_runs d .prikey (prikeyStoreType prikey.index) hknown
  rcases hheld.look_count hknown with hlook | ⟨hnil, _⟩
  · rw [hlook, List.length_map] at hread
    have hruns : Reads (boatGetPirkeyByIndex crypto prikey.index) d
        ((prikeyStoreType prikey.index).cost + ops) (.ok key) := by
      refine hread.bind ?_
      simp only [utilityCheckNumBytes_get hcount]
      rw [if_neg (by simp)]
      exact hscan
    exact hruns.spared.run
  · simp at hnil

/-- A key that can be sealed is stored and read back. -/
theorem storePrikey_stores
    (hheld : d.HoldsPrikeys (prikeyStoreType index) prikeys)
    (hroom : prikeys.length < 5)
    (habsent : index ≠ 0 → ∀ other ∈ prikeys, other.index ≠ index)
    (hsealed : SealedFor crypto salt index key prikey)
    (hlen : key.length ≤ 47) : StoresOrRefuses crypto d salt index key := by
  have hknown := prikeyStoreType_known index
  have hsized := prikey.sized
  have hrecord := prikey.length_record
  have hcount : (prikeys.map PrikeyRecord.record).length <
      boatMaxKeypairNum := by
    rw [List.length_map]
    exact hroom
  obtain ⟨rfl, hchip⟩ := hsealed
  rw [StoresOrRefuses, boatKeystoreStorePrikey_eq]
  left
  by_cases hzero : prikey.index = 0
  · have hram : prikeyStoreType prikey.index = .ram := if_pos hzero
    rw [hram] at hheld ⊢
    have hfits : 4 + (prikeyBytes []).length + prikey.record.length ≤
        BoatStoreFile.prikey.room .ram := by
      change 4 + 0 + prikey.record.length ≤ 256
      omega
    have hruns := appendPrikey_runs (d := d) (fun hne => absurd rfl hne)
      (by decide) (fun other hother => by cases hother) rfl hchip hfits
    refine ⟨_, [], prikey.record, (storeCounted_ram hheld hcount (by decide)
      hruns.spared).run, rfl, hfits, ?_⟩
    refine getPirkey_found (?_ : Device.HoldsPrikeys _ _ ([] ++ [prikey])) (by simp)
      (fun other hother => by cases hother) ⟨rfl, hchip⟩ hlen
    rw [hram]
    exact region_replaceRecord d hfits
  · have hflash : prikeyStoreType prikey.index = .flash := if_neg hzero
    rw [hflash] at hheld ⊢
    have hbytes := length_prikeyBytes_le prikeys
    have hfits : 4 + (prikeyBytes prikeys).length + prikey.record.length ≤
        BoatStoreFile.prikey.room .flash := by
      change 4 + (prikeyBytes prikeys).length + prikey.record.length ≤ 499
      omega
    have hruns := appendPrikey_runs (fun hne => hheld.prikeyBody hne)
      (by decide) (habsent hzero) rfl hchip hfits
    refine ⟨_, prikeys.map PrikeyRecord.record, prikey.record,
      (storeCounted_spared hheld hcount (by decide)
        (by rw [List.length_map]; exact hruns.spared)).run, rfl, hfits, ?_⟩
    refine getPirkey_found ?_ ?_ (habsent hzero)
      ⟨rfl, hchip⟩ hlen
    · rw [hflash, Device.HoldsPrikeys, List.map_append]
      exact hheld.appendRecord hfits
    · rw [List.length_append, List.length_singleton]
      omega

/-- What the encryption of the key ends with, the store ends with. -/
theorem storePrikey_refused {failure : Failure}
    (hheld : d.HoldsPrikeys (prikeyStoreType index) prikeys)
    (hroom : prikeys.length < 5)
    (habsent : index ≠ 0 → ∀ other ∈ prikeys, other.index ≠ index)
    (hchip : encryptPrikey crypto salt key = .error failure) :
    boatKeystoreStorePrikey crypto salt index key ⟨d, none⟩ =
      .error failure ⟨d, none⟩ := by
  have hcount : (prikeys.map PrikeyRecord.record).length <
      boatMaxKeypairNum := by
    rw [List.length_map]
    exact hroom
  rw [boatKeystoreStorePrikey_eq]
  by_cases hzero : index = 0
  · have hram : prikeyStoreType index = .ram := if_pos hzero
    rw [hram] at hheld ⊢
    have hreads : Reads (appendPrikey crypto salt index key .ram 0) d
        (0 * (3 * BoatStoreType.ram.cost)) (.error failure) :=
      appendPrikey_refused (fun hne => absurd rfl hne) (by decide)
        (fun other hother => by cases hother) hchip
    exact (storeCounted_ram hheld hcount (by decide) hreads.spared).run
  · have hflash : prikeyStoreType index = .flash := if_neg hzero
    rw [hflash] at hheld ⊢
    have hreads := appendPrikey_refused (fun hne => hheld.prikeyBody hne)
      (by decide) (habsent hzero) hchip
    exact (storeCounted_spared hheld hcount (by decide)
      (by rw [List.length_map]; exact hreads.spared)).run

/-- A full store refuses every key. -/
theorem storePrikey_full
    (hheld : d.HoldsPrikeys (prikeyStoreType index) prikeys)
    (hfull : 5 ≤ prikeys.length) (hcount : prikeys.length < 0x100) :
    boatKeystoreStorePrikey crypto salt index key ⟨d, none⟩ =
      .error (.code boatError) ⟨d, none⟩ := by
  have hnum := readNumOrZero_spared hheld (prikeyStoreType_known index)
    (by rwa [List.length_map])
  rw [List.length_map] at hnum
  rw [boatKeystoreStorePrikey_eq]
  have hstop : Spared (storeCounted .prikey (prikeyStoreType index)
      boatMaxKeypairNum boatError
      (appendPrikey crypto salt index key (prikeyStoreType index))) d _
        (.error (.code boatError)) d :=
    hnum.bind (Spared.stop hfull)
  exact hstop.run

/-- An index that has a private key in flash gets no second one. -/
theorem storePrikey_duplicate
    (hheld : d.HoldsPrikeys (prikeyStoreType index) prikeys)
    (hroom : prikeys.length < 5) (hindex : index ≠ 0)
    (hmem : index ∈ prikeys.map (·.index)) :
    boatKeystoreStorePrikey crypto salt index key ⟨d, none⟩ =
      .error (.code boatError) ⟨d, none⟩ := by
  have hflash : prikeyStoreType index = .flash := if_neg hindex
  obtain ⟨front, prikey, back, rfl, rfl, habsent⟩ :=
    exists_first (List.mem_map.mp hmem)
  rw [boatKeystoreStorePrikey_eq]
  rw [hflash] at hheld ⊢
  have hreads := appendPrikey_duplicate crypto salt key
    (hheld.prikeyBody (by simp)) (by decide) habsent
  have hcount : ((front ++ prikey :: back).map PrikeyRecord.record).length <
      boatMaxKeypairNum := by
    rw [List.length_map]
    exact hroom
  exact (storeCounted_spared hheld hcount (by decide)
    (by rw [List.length_map]; exact hreads.spared)).run

/-- Storing a private key on a well-formed store keeps its promise exactly for
keys of at most 47 bytes, and where it stops before it encrypts. -/
theorem storesOrRefuses_iff (crypto : Crypto) (d : Device) (salt : Bytes 16)
    (index : UInt8) (key : List UInt8) (prikeys : List PrikeyRecord)
    (hheld : d.HoldsPrikeys (prikeyStoreType index) prikeys)
    (hcount : prikeys.length < 0x100) :
    StoresOrRefuses crypto d salt index key ↔
      key.length ≤ 47 ∨ boatMaxKeypairNum ≤ prikeys.length ∨
        (index ≠ 0 ∧ index ∈ prikeys.map (·.index)) := by
  rcases Nat.lt_or_ge prikeys.length boatMaxKeypairNum with hroom | hfull
  · by_cases hduplicate : index ≠ 0 ∧ index ∈ prikeys.map (·.index)
    · constructor
      · exact fun _ => .inr (.inr hduplicate)
      · exact fun _ => .inr
          ⟨_, storePrikey_duplicate hheld hroom hduplicate.1 hduplicate.2⟩
    · have habsent : index ≠ 0 → ∀ other ∈ prikeys, other.index ≠ index := by
        intro hindex other hother heq
        exact hduplicate ⟨hindex, List.mem_map.mpr ⟨other, hother, heq⟩⟩
      constructor
      · intro hstores
        by_contra hcond
        have hlong : 48 ≤ key.length := by
          by_contra hshort
          exact hcond (.inl (by omega))
        have hrun := storePrikey_refused hheld hroom habsent
          (encryptPrikey_long crypto salt hlong)
        rcases hstores with ⟨_, _, _, hok, _⟩ | ⟨_, herror⟩
        · rw [hrun] at hok
          cases hok
        · rw [hrun] at herror
          cases herror
      · rintro (hlen | hfull | hmem)
        · rcases List.eq_nil_or_concat key with rfl | ⟨_, _, rfl⟩
          · exact .inr ⟨_, storePrikey_refused hheld hroom habsent
              (encryptPrikey_nil crypto salt)⟩
          · obtain ⟨prikey, hsealed⟩ := sealedFor_exists crypto salt index
              (by simp) hlen
            exact storePrikey_stores hheld hroom habsent hsealed hlen
        · omega
        · exact absurd hmem hduplicate
  · constructor
    · exact fun _ => .inr (.inl hfull)
    · exact fun _ => .inr ⟨_, storePrikey_full hheld hfull hcount⟩

/-- A key of 32 bytes on a device without keys. -/
theorem storesOrRefuses_plain :
    StoresOrRefuses plainCrypto blankDevice ⟨List.replicate 16 0, rfl⟩ 1
      (List.replicate 32 7) :=
  (storesOrRefuses_iff plainCrypto blankDevice _ 1 (List.replicate 32 7) []
    (.inl ⟨rfl, .inl (Nat.zero_le _)⟩) (by decide)).mpr (.inl (by decide))

/-- A native key of 48 bytes from outside. -/
def longKey : BoatKeypairPriKeyCtxConfig :=
  ⟨boatKeypairPrikeyGenmodeExternalInjection, boatKeypairPrikeyFormatNative,
    boatKeypairPrikeyTypeSecp256k1, some (List.replicate 48 7)⟩

/-- A key of 48 bytes is accepted where it is created, and its ciphertext is
written past the buffer of the record. -/
theorem not_storesOrRefuses_long :
    (keyCreateExternalInjectionNative plainCrypto longKey).map (·.prikey) =
        .ok (List.replicate 48 7) ∧
      ¬StoresOrRefuses plainCrypto blankDevice ⟨List.replicate 16 0, rfl⟩ 1
        (List.replicate 48 7) := by
  refine ⟨rfl, ?_⟩
  have hheld : blankDevice.HoldsPrikeys (prikeyStoreType 1) [] :=
    .inl ⟨rfl, .inl (Nat.zero_le _)⟩
  have hrun := storePrikey_refused hheld (by decide)
    (fun _ other hother => by cases hother)
    (encryptPrikey_long plainCrypto ⟨List.replicate 16 0, rfl⟩
      (by decide : 48 ≤ (List.replicate 48 (7 : UInt8)).length))
  rintro (⟨_, _, _, hok, _⟩ | ⟨_, herror⟩)
  · rw [hrun] at hok
    cases hok
  · rw [hrun] at herror
    cases herror

end BoatFramework
