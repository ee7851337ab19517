/-
Encoding and decoding: the bytes come back when they fill the five-bit
characters without a rest and the prefix has no separator in it.
-/
import BoatFramework.Platon.Bech32Runs
import Mathlib.Data.Bool.AllAny

namespace BoatFramework

open Bech32 (separator)

variable {bytes hrp input out : List UInt8}

/-- The decoder accepts what the encoder wrote and gives the bytes back. -/
def RoundTrips (bytes hrp : List UInt8) : Prop :=
  ∃ text, boatPlatONBech32Encode bytes hrp = .ok (text.length, text) ∧
    boatPlatONBech32Decode text = .ok (bytes.length, bytes)

/-- The five-bit values of the bytes. -/
def base32Values (bytes : List UInt8) : List Nat :=
  (boatConvertBits bytes 8 5).map UInt8.toNat

theorem bytes_digits (bytes : List UInt8) :
    Regroup.Digits 8 (bytes.map UInt8.toNat) := by
  intro digit hmem
  obtain ⟨byte, -, rfl⟩ := List.mem_map.mp hmem
  exact byte.toNat_lt

theorem base32Values_regroups (bytes : List UInt8) :
    Regroup.Regroups 8 5 (bytes.map UInt8.toNat) (base32Values bytes) :=
  boatConvertBits_regroups (by decide) (by decide) (bytes_digits bytes)

theorem length_base32Values (bytes : List UInt8) :
    (base32Values bytes).length = (8 * bytes.length + 4) / 5 := by
  have hlength := length_boatConvertBits 8 (show 0 < 5 by decide) bytes
  rw [base32Values, List.length_map]
  omega

theorem base32Values_lt_256 (bytes : List UInt8) :
    ∀ value ∈ base32Values bytes, value < 256 := by
  intro value hmem
  have hlt := (base32Values_regroups bytes).digits value hmem
  omega

/-- The text of a prefix and bytes. -/
def bech32Text (bytes hrp : List UInt8) : List UInt8 :=
  hrp ++ separator :: ((base32Values bytes).map alphabetChar ++
    (boatBech32Polymod (boatExpandHrp hrp) (base32Values bytes)).map alphabetChar)

theorem chksum_spells (bytes hrp : List UInt8) :
    Spells (boatBech32Polymod (boatExpandHrp hrp) (base32Values bytes))
      (Bech32.checksum (boatExpandHrp hrp ++ base32Values bytes)) :=
  boatBech32Polymod_spells (boatExpandHrp_lt hrp) (base32Values_lt_256 bytes)

theorem length_bech32Text (bytes hrp : List UInt8) :
    (bech32Text bytes hrp).length =
      hrp.length + 1 + (8 * bytes.length + 4) / 5 + 6 := by
  simp only [bech32Text, List.length_append, List.length_cons, List.length_map,
    length_base32Values, (chksum_spells bytes hrp).length]
  omega

/-- The encoder writes the text when its length fits the result. -/
theorem boatPlatONBech32Encode_eq (hhrp : 1 ≤ hrp.length ∧ hrp.length ≤ 83)
    (hfits : hrp.length + 1 + (8 * bytes.length + 4) / 5 + 6 < 2 ^ 31) :
    boatPlatONBech32Encode bytes hrp =
      .ok ((bech32Text bytes hrp).length, bech32Text bytes hrp) := by
  obtain ⟨hlow, hhigh⟩ := hhrp
  have hvalues := length_base32Values bytes
  rw [base32Values, List.length_map] at hvalues
  have hlen : base32OutLen bytes.length = (8 * bytes.length + 4) / 5 := by
    rw [base32OutLen, buint32_of_lt] <;> omega
  have hresult : bsint32 (hrp.length + 1 + base32OutLen bytes.length + 6) =
      (bech32Text bytes hrp).length := by
    rw [length_bech32Text, hlen, bsint32_of_lt] <;> omega
  rw [boatPlatONBech32Encode, if_neg (by omega)]
  simp only
  rw [if_neg (by omega), hresult]
  rfl

/-- The text is taken apart where it was put together. -/
theorem reading_bech32Text (hhrp : Bech32.Readable hrp)
    (hfirst : separator ∉ hrp) (hbytes : bytes ≠ [])
    (hfits : (8 * bytes.length + 4) / 5 < 2 ^ 31) :
    Reading (bech32Text bytes hrp) hrp ((base32Values bytes).map alphabetChar)
      ((boatBech32Polymod (boatExpandHrp hrp) (base32Values bytes)).map
        alphabetChar) := by
  have hpos : 0 < bytes.length := List.length_pos_of_ne_nil hbytes
  refine ⟨rfl, hfirst, hhrp.length, ?_, ?_⟩
  · rw [List.length_map, length_base32Values]
    omega
  · rw [List.length_map, (chksum_spells bytes hrp).length]

/-- The decoder reads the values back and regroups them. -/
theorem decode_bech32Text (hhrp : Bech32.Readable hrp)
    (hfirst : separator ∉ hrp) (hbytes : bytes ≠ [])
    (hfits : (8 * bytes.length + 4) / 5 < 2 ^ 31) :
    boatPlatONBech32Decode (bech32Text bytes hrp) =
      .ok ((boatConvertBits (boatConvertBits bytes 8 5) 5 8).length,
        boatConvertBits (boatConvertBits bytes 8 5) 5 8) := by
  have hchar : ∀ byte ∈ boatConvertBits bytes 8 5,
      charsetValue (alphabetChar byte.toNat) = .ok byte := by
    intro byte hmem
    have hlt : byte.toNat < 32 :=
      (base32Values_regroups bytes).digits _ (List.mem_map_of_mem hmem)
    rw [charsetValue_alphabetChar hlt, UInt8.ofNat_toNat]
  have hdata : ((base32Values bytes).map alphabetChar).mapM charsetValue =
      .ok (boatConvertBits bytes 8 5) := by
    rw [base32Values, List.map_map, List.mapM_map]
    have hread : (boatConvertBits bytes 8 5).mapM
        (charsetValue ∘ alphabetChar ∘ UInt8.toNat) =
          .ok ((boatConvertBits bytes 8 5).map id) :=
      Exec.except_mapM_ok hchar
    rwa [List.map_id] at hread
  rw [decode_of_reading (reading_bech32Text hhrp hfirst hbytes hfits), hdata,
    Exec.except_ok_bind]
  exact if_neg fun hne => hne rfl

/-- Whole bytes come back from the five-bit values. -/
theorem boatConvertBits_roundTrip (hwhole : bytes.length % 5 = 0) :
    boatConvertBits (boatConvertBits bytes 8 5) 5 8 = bytes := by
  have hthere := base32Values_regroups bytes
  have hback := boatConvertBits_regroups (show 0 < 8 by decide) (by decide)
    hthere.digits
  have hexact : 5 * (base32Values bytes).length =
      8 * (bytes.map UInt8.toNat).length := by
    rw [length_base32Values, List.length_map]
    omega
  have hvalues := Regroup.Regroups.roundTrip (by decide) (bytes_digits bytes)
    hthere hback hexact
  exact List.map_injective_iff.mpr (fun _ _ => UInt8.toNat_inj.mp) hvalues

/-- What an accepted text gives: the characters of its data, regrouped. -/
theorem decode_eq_ok {result : Int} (hinlen : input.length < 2 ^ 32)
    (hdecode : boatPlatONBech32Decode input = .ok (result, out))
    (hresult : 0 ≤ result) :
    ∃ hrp data chk values, Reading input hrp data chk ∧
      data.mapM charsetValue = .ok values ∧ result = out.length ∧
      out = boatConvertBits values 5 8 := by
  by_cases hoffset : 2 ^ 31 ≤ input.idxOf separator
  · rw [decode_of_overflow hoffset] at hdecode
    cases hdecode
  by_cases hread : ∃ hrp data chk, Reading input hrp data chk
  · obtain ⟨hrp, data, chk, hreading⟩ := hread
    rw [decode_of_reading hreading] at hdecode
    obtain ⟨values, hvalues, hdecode⟩ := Exec.except_bind_eq_ok.mp hdecode
    refine ⟨hrp, data, chk, values, hreading, hvalues, ?_⟩
    split at hdecode
    · obtain ⟨rfl, -⟩ := Prod.mk.inj (Except.ok.inj hdecode)
      omega
    · obtain ⟨hlength, rfl⟩ := Prod.mk.inj (Except.ok.inj hdecode)
      exact ⟨hlength.symm, rfl⟩
  · have hunread : ∀ hrp data chk, ¬Reading input hrp data chk :=
      fun hrp data chk hreading => hread ⟨hrp, data, chk, hreading⟩
    rw [decode_of_unread hinlen (by omega) hunread] at hdecode
    obtain ⟨rfl, -⟩ := Prod.mk.inj (Except.ok.inj hdecode)
    omega

/-- A result is a length, or −1 and nothing is written. -/
theorem decode_result {result : Int} (hinlen : input.length < 2 ^ 32)
    (hdecode : boatPlatONBech32Decode input = .ok (result, out)) :
    result = out.length ∨ result = -1 ∧ out = [] := by
  by_cases hoffset : 2 ^ 31 ≤ input.idxOf separator
  · rw [decode_of_overflow hoffset] at hdecode
    cases hdecode
  by_cases hread : ∃ hrp data chk, Reading input hrp data chk
  · obtain ⟨hrp, data, chk, hreading⟩ := hread
    rw [decode_of_reading hreading] at hdecode
    obtain ⟨values, -, hdecode⟩ := Exec.except_bind_eq_ok.mp hdecode
    split at hdecode
    · obtain ⟨rfl, rfl⟩ := Prod.mk.inj (Except.ok.inj hdecode)
      exact .inr ⟨rfl, rfl⟩
    · obtain ⟨rfl, rfl⟩ := Prod.mk.inj (Except.ok.inj hdecode)
      exact .inl rfl
  · have hunread : ∀ hrp data chk, ¬Reading input hrp data chk :=
      fun hrp data chk hreading => hread ⟨hrp, data, chk, hreading⟩
    rw [decode_of_unread hinlen (by omega) hunread] at hdecode
    obtain ⟨rfl, rfl⟩ := Prod.mk.inj (Except.ok.inj hdecode)
    exact .inr ⟨rfl, rfl⟩

/-- Where the decoder gives no result it reads outside its table. -/
theorem decode_eq_error {failure : Failure} (hinlen : input.length < 2 ^ 31)
    (hdecode : boatPlatONBech32Decode input = .error failure) :
    failure = .undefined := by
  have hoffset : input.idxOf separator < 2 ^ 31 :=
    Nat.lt_of_le_of_lt List.idxOf_le_length hinlen
  by_cases hread : ∃ hrp data chk, Reading input hrp data chk
  · obtain ⟨hrp, data, chk, hreading⟩ := hread
    rw [decode_of_reading hreading] at hdecode
    cases hvalues : data.mapM charsetValue with
    | error found =>
        rw [hvalues] at hdecode
        obtain rfl := Except.error.inj hdecode
        apply Exec.except_mapM_error _ hvalues
        intro c _ e hc
        unfold charsetValue at hc
        split at hc
        · cases hc
        · exact (Except.error.inj hc).symm
    | ok values =>
        rw [hvalues, Exec.except_ok_bind] at hdecode
        split at hdecode <;> cases hdecode
  · have hunread : ∀ hrp data chk, ¬Reading input hrp data chk :=
      fun hrp data chk hreading => hread ⟨hrp, data, chk, hreading⟩
    rw [decode_of_unread (by omega) hoffset hunread] at hdecode
    cases hdecode

/-- The round trip for every prefix and every length that fits the result: the
bits of the bytes fill whole characters, there are any, and the prefix does not
hold a separator. -/
theorem bech32_roundTrips_iff (hhrp : Bech32.Readable hrp)
    (hfits : hrp.length + 1 + (8 * bytes.length + 4) / 5 + 6 < 2 ^ 31) :
    RoundTrips bytes hrp ↔
      bytes ≠ [] ∧ bytes.length % 5 = 0 ∧ separator ∉ hrp := by
  have hencode := boatPlatONBech32Encode_eq hhrp.length hfits
  constructor
  · rintro ⟨text, htext, hdecode⟩
    rw [hencode] at htext
    obtain ⟨-, rfl⟩ := Prod.mk.inj (Except.ok.inj htext)
    have hlength := length_bech32Text bytes hrp
    obtain ⟨hrp', data, chk, values, hreading, hvalues, -, hout⟩ :=
      decode_eq_ok (by omega) hdecode (by omega)
    have hresult := congrArg List.length hout
    have hdata := (Exec.except_mapM_eq_ok hvalues).1
    have hback := length_boatConvertBits 5 (show 0 < 8 by decide) values
    have hpos := hreading.length_data
    have hinput := hreading.length_input
    have hoffset := hreading.idxOf_separator
    by_cases hfirst : separator ∈ hrp
    · have hbefore := List.idxOf_lt_length_of_mem hfirst
      rw [bech32Text, List.idxOf_append_of_mem hfirst] at hoffset
      omega
    · rw [bech32Text, List.idxOf_append_of_notMem hfirst, List.idxOf_cons_self]
        at hoffset
      have hexact : 8 * bytes.length = 5 * data.length := by omega
      refine ⟨?_, by omega, hfirst⟩
      rintro rfl
      rw [List.length_nil] at hlength
      omega
  · rintro ⟨hbytes, hwhole, hfirst⟩
    have hdecode := decode_bech32Text hhrp hfirst hbytes (by omega)
    rw [boatConvertBits_roundTrip hwhole] at hdecode
    exact ⟨bech32Text bytes hrp, hencode, hdecode⟩

/-- An address of twenty bytes comes back. -/
theorem bech32_roundTrips_address :
    RoundTrips (List.replicate 20 0xA5) [0x6C, 0x61, 0x74] :=
  (bech32_roundTrips_iff ⟨by decide, List.all_iff_forall_prop.mp rfl⟩
    (by decide)).mpr
    ⟨by decide, by decide, by decide⟩

/-- One byte comes back as two. -/
theorem bech32_roundTrips_oneByte :
    ¬ ∀ bytes hrp : List UInt8, Bech32.Readable hrp →
      hrp.length + 1 + (8 * bytes.length + 4) / 5 + 6 < 2 ^ 31 →
      RoundTrips bytes hrp := by
  intro hclaim
  obtain ⟨text, hencode, hdecode⟩ :=
    hclaim [0xFF] [0x6C] ⟨by decide, List.all_iff_forall_prop.mp rfl⟩
      (by decide)
  have htext : boatPlatONBech32Encode [0xFF] [0x6C] =
      .ok (10, bech32Text [0xFF] [0x6C]) := by decide
  rw [htext] at hencode
  obtain ⟨-, rfl⟩ := Prod.mk.inj (Except.ok.inj hencode)
  exact absurd hdecode (by decide)

end BoatFramework
