/-
`utility_signature_to_asn1`: a signature of two halves of 32 bytes as the DER
sequence of two numbers, and the signatures that it encodes right.
-/
import BoatFramework.Base.Der
import BoatFramework.Utility.Result

namespace BoatFramework

open ByteString Der

/-- `utility_signature_to_asn1`: what it writes at `out` and `*outlen`. -/
def utilitySignatureToAsn1 (signature : List UInt8) :
    Except BoatResult (List UInt8 × Nat) :=
  if signature.length ≠ 64 then .error boatErrorCommonInvalidArgument
  else
    let front : List UInt8 :=
      if signature.getD 0 0 &&& 0x80 = 0x80 then
        [0x30, 0x45, 0x02, 0x21, 0x00]
      else [0x30, 0x44, 0x02, 0x20]
    let out := front ++ signature.take 32 ++ [0x02, 0x20] ++
      (signature.drop 32).take 32
    .ok (out, out.length)

/-- The numbers of the two halves. -/
def signatureR (signature : List UInt8) : Nat :=
  ofBigEndian (signature.take 32)

def signatureS (signature : List UInt8) : Nat :=
  ofBigEndian (signature.drop 32)

/-- The output is the DER encoding of the two numbers, with its length, and
gives them back. -/
def EncodesSignature (signature : List UInt8) : Prop :=
  ∃ out, utilitySignatureToAsn1 signature = .ok (out, out.length) ∧
    out = encodeSequence (encodeInteger (signatureR signature) ++
      encodeInteger (signatureS signature)) ∧
    decodePair out = some (signatureR signature, signatureS signature)

/-- The octets that stand for the first half. -/
def octetsR (signature : List UInt8) : List UInt8 :=
  if signature.getD 0 0 < 0x80 then signature.take 32
  else 0 :: signature.take 32

theorem and_top_bit (byte : UInt8) : byte &&& 0x80 = 0x80 ↔ ¬byte < 0x80 := by
  have hall : ∀ n : Fin 256, (UInt8.ofNat n.val &&& 0x80 = 0x80 ↔
      ¬UInt8.ofNat n.val < 0x80) := by decide +kernel
  have hbyte := hall ⟨byte.toNat, byte.toNat_lt⟩
  rwa [UInt8.ofNat_toNat] at hbyte

section Output

variable {signature : List UInt8}

theorem length_octetsR (hlength : signature.length = 64) :
    (octetsR signature).length =
      if signature.getD 0 0 < 0x80 then 32 else 33 := by
  unfold octetsR
  split
  · rw [List.length_take]
    omega
  · rw [List.length_cons, List.length_take]
    omega

/-- Both numbers are behind a tag and a length that fits them. -/
theorem utilitySignatureToAsn1_eq (hlength : signature.length = 64) :
    ∃ out, utilitySignatureToAsn1 signature = .ok (out, out.length) ∧
      out = encodeSequence (0x02 :: LengthValue.encode (octetsR signature) ++
        0x02 :: LengthValue.encode (signature.drop 32)) := by
  have hr : (signature.take 32).length = 32 := by
    rw [List.length_take]
    omega
  have hs : (signature.drop 32).length = 32 := by
    rw [List.length_drop]
    omega
  have hwhole : (signature.drop 32).take 32 = signature.drop 32 :=
    List.take_of_length_le hs.le
  refine ⟨_, by rw [utilitySignatureToAsn1, if_neg (not_not.mpr hlength)], ?_⟩
  rw [hwhole]
  by_cases hsmall : signature.getD 0 0 < 0x80
  · rw [if_neg (not_not.mpr hsmall ∘ (and_top_bit _).mp), octetsR,
      if_pos hsmall]
    simp [encodeSequence, LengthValue.encode, LengthValue.header, hr, hs]
  · rw [if_pos ((and_top_bit _).mpr hsmall), octetsR, if_neg hsmall]
    simp [encodeSequence, LengthValue.encode, LengthValue.header, hr, hs]

theorem ofBigEndian_octetsR (signature : List UInt8) :
    ofBigEndian (octetsR signature) = signatureR signature := by
  unfold octetsR
  split
  · rfl
  · rw [ofBigEndian_cons]
    simp [signatureR]

theorem encodesSignature_iff_minimal (hlength : signature.length = 64) :
    EncodesSignature signature ↔ MinimalOctets (octetsR signature) ∧
      MinimalOctets (signature.drop 32) := by
  obtain ⟨out, hrun, hout⟩ := utilitySignatureToAsn1_eq hlength
  have hlengthR : (octetsR signature).length < 0x8000 := by
    rw [length_octetsR hlength]
    split <;> omega
  have hlengthS : (signature.drop 32).length < 0x7000 := by
    rw [List.length_drop]
    omega
  have hdecode := @decodePair_octets _ _ (signatureR signature,
    signatureS signature) hlengthR hlengthS
  rw [← hout] at hdecode
  constructor
  · rintro ⟨out', hrun', -, hpair⟩
    rw [hrun] at hrun'
    obtain ⟨rfl, -⟩ := Prod.mk.inj (Except.ok.inj hrun')
    obtain ⟨hr, hs, -⟩ := hdecode.mp hpair
    exact ⟨hr, hs⟩
  · rintro ⟨hr, hs⟩
    have hoctetsR := integerOctets_ofBigEndian hr
    have hoctetsS := integerOctets_ofBigEndian hs
    rw [ofBigEndian_octetsR] at hoctetsR
    refine ⟨out, hrun, ?_, hdecode.mpr ⟨hr, hs, ?_⟩⟩
    · rw [encodeInteger, encodeInteger, hoctetsR, signatureS, hoctetsS, hout]
    · rw [ofBigEndian_octetsR, signatureS]

/-- Two bytes or more, none too many, and the first one positive. -/
theorem minimalOctets_iff {octets : List UInt8} (hlength : 2 ≤ octets.length) :
    MinimalOctets octets ↔ octets.getD 0 0 < 0x80 ∧
      (octets.getD 0 0 ≠ 0 ∨ 0x80 ≤ octets.getD 1 0) := by
  have hne : octets ≠ [] := List.length_pos_iff.mp (by omega)
  constructor
  · rintro ⟨-, hsmall, hzero⟩
    refine ⟨hsmall, ?_⟩
    by_cases hfirst : octets.getD 0 0 = 0
    · rcases hzero hfirst with hone | hlarge
      · omega
      · exact .inr hlarge
    · exact .inl hfirst
  · rintro ⟨hsmall, hspelled⟩
    exact ⟨hne, hsmall, fun hfirst =>
      .inr (hspelled.resolve_left (not_not.mpr hfirst))⟩

/-- A first byte above 0x7F is behind a zero byte. -/
theorem minimal_octetsR_iff (hlength : signature.length = 64) :
    MinimalOctets (octetsR signature) ↔
      signature.getD 0 0 ≠ 0 ∨ 0x80 ≤ signature.getD 1 0 := by
  have htake (i : Nat) (hi : i < 32) :
      (signature.take 32).getD i 0 = signature.getD i 0 := by
    rw [List.getD_eq_getElem?_getD, List.getD_eq_getElem?_getD,
      List.getElem?_take_of_lt hi]
  have hlengthR := length_octetsR hlength
  rw [minimalOctets_iff (by rw [hlengthR]; split <;> omega)]
  unfold octetsR
  by_cases hsmall : signature.getD 0 0 < 0x80
  · rw [if_pos hsmall, htake 0 (by omega), htake 1 (by omega)]
    exact and_iff_right hsmall
  · have hlarge : 0x80 ≤ signature.getD 0 0 := UInt8.not_lt.mp hsmall
    have hne : signature.getD 0 0 ≠ 0 := by
      intro hzero
      rw [hzero] at hlarge
      exact absurd hlarge (by decide)
    rw [if_neg hsmall, List.getD_cons_zero, List.getD_cons_succ,
      htake 0 (by omega)]
    exact ⟨fun _ => .inl hne, fun _ => ⟨by decide, .inr hlarge⟩⟩

/-- The encoding is right for the signatures whose halves take 32 bytes each,
the first with or without its sign byte and the second without one. -/
theorem encodesSignature_iff (hlength : signature.length = 64) :
    EncodesSignature signature ↔
      (signature.getD 0 0 ≠ 0 ∨ 0x80 ≤ signature.getD 1 0) ∧
      signature.getD 32 0 < 0x80 ∧
      (signature.getD 32 0 ≠ 0 ∨ 0x80 ≤ signature.getD 33 0) := by
  have hdrop (i : Nat) :
      (signature.drop 32).getD i 0 = signature.getD (32 + i) 0 := by
    rw [List.getD_eq_getElem?_getD, List.getD_eq_getElem?_getD,
      List.getElem?_drop]
  have hlengthS : 2 ≤ (signature.drop 32).length := by
    rw [List.length_drop]
    omega
  rw [encodesSignature_iff_minimal hlength, minimal_octetsR_iff hlength,
    minimalOctets_iff hlengthS, hdrop 0, hdrop 1]

theorem encodesSignature_ones : EncodesSignature (List.replicate 64 1) :=
  (encodesSignature_iff (by decide)).mpr (by decide)

end Output

/-- A second half above 2^255 is written as a negative number. -/
theorem not_encodesSignature :
    ¬ ∀ signature : List UInt8, signature.length = 64 →
      EncodesSignature signature := by
  intro hclaim
  have hencodes := hclaim (List.replicate 32 1 ++ List.replicate 32 0x80)
    (by decide)
  obtain ⟨-, hs⟩ := (encodesSignature_iff_minimal (by decide)).mp hencodes
  exact absurd hs (by decide)

end BoatFramework
