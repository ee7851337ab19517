/-
Tags, lengths and values as X.690 has them: the definite lengths of BER, and the
DER spelling of numbers that are not negative and of sequences.
-/
import BoatFramework.Base.BigEndian
import BoatFramework.Base.LengthValue

namespace Der

open ByteString

/-- Octets that announce a definite length: one below 128, or a count and as
many octets. -/
inductive LengthOctets : List UInt8 → Nat → Prop where
  | short (first : UInt8) (hfirst : first < 0x80) :
      LengthOctets [first] first.toNat
  | long (digits : List UInt8) (hcount : 1 ≤ digits.length)
      (hlong : digits.length < 0x7F) :
      LengthOctets (UInt8.ofNat (0x80 + digits.length) :: digits)
        (ofBigEndian digits)

/-- A text begins with a complete tag, length and value. -/
structure Complete (text : List UInt8) (tag : UInt8)
    (octets value : List UInt8) : Prop where
  octets_length : LengthOctets octets value.length
  starts : tag :: (octets ++ value) <+: text

/-- The octets of a number: none too many, and the first one positive. -/
def integerOctets (n : Nat) : List UInt8 :=
  match bigEndian n with
  | [] => [0]
  | first :: rest =>
      if first < 0x80 then first :: rest else 0 :: first :: rest

def encodeInteger (n : Nat) : List UInt8 :=
  0x02 :: LengthValue.encode (integerOctets n)

/-- The items of a sequence are in its value. -/
def encodeSequence (items : List UInt8) : List UInt8 :=
  0x30 :: LengthValue.encode items

/-- Octets of a number that is positive and in its shortest spelling. -/
def MinimalOctets (octets : List UInt8) : Prop :=
  octets ≠ [] ∧ octets.getD 0 0 < 0x80 ∧
    (octets.getD 0 0 = 0 → octets.length = 1 ∨ 0x80 ≤ octets.getD 1 0)

instance (octets : List UInt8) : Decidable (MinimalOctets octets) :=
  inferInstanceAs (Decidable (_ ∧ _ ∧ (_ → _)))

/-- Read a value behind a given tag. -/
def decodeTagged (tag : UInt8) :
    List UInt8 → Option (List UInt8 × List UInt8)
  | [] => none
  | first :: rest => if first = tag then LengthValue.decode rest else none

/-- Read a number and what follows it. -/
def decodeInteger (text : List UInt8) : Option (Nat × List UInt8) :=
  match decodeTagged 0x02 text with
  | some (octets, rest) =>
      if MinimalOctets octets then some (ofBigEndian octets, rest) else none
  | none => none

/-- Read a sequence of two numbers that is the whole text. -/
def decodePair (text : List UInt8) : Option (Nat × Nat) :=
  match decodeTagged 0x30 text with
  | some (items, []) =>
      match decodeInteger items with
      | some (first, items) =>
          match decodeInteger items with
          | some (second, []) => some (first, second)
          | _ => none
      | none => none
  | _ => none

theorem decodeTagged_encode (tag : UInt8) {value : List UInt8}
    (hlen : value.length < 0x10000) (rest : List UInt8) :
    decodeTagged tag (tag :: LengthValue.encode value ++ rest) =
      some (value, rest) := by
  rw [List.cons_append, decodeTagged, if_pos rfl]
  exact LengthValue.decode_encode hlen rest

/-- A number has one minimal spelling only. -/
theorem integerOctets_ofBigEndian {octets : List UInt8}
    (hminimal : MinimalOctets octets) :
    integerOctets (ofBigEndian octets) = octets := by
  obtain ⟨hne, hsmall, hzero⟩ := hminimal
  cases octets with
  | nil => exact absurd rfl hne
  | cons first rest =>
      by_cases hfirst : first = 0
      · subst hfirst
        have hrest : ofBigEndian (0 :: rest) = ofBigEndian rest := by
          rw [ofBigEndian_cons]
          simp
        rw [hrest]
        cases rest with
        | nil => rfl
        | cons second rest =>
            have hlarge : 0x80 ≤ second := by
              rcases hzero rfl with hone | hlarge
              · cases hone
              · exact hlarge
            have hne : second ≠ 0 := by
              rintro rfl
              exact absurd hlarge (by decide)
            have hspelled := bigEndian_ofBigEndian
              ((canonical_cons_iff second rest).mpr hne)
            rw [integerOctets, hspelled]
            exact if_neg (UInt8.not_lt.mpr hlarge)
      · have hspelled := bigEndian_ofBigEndian
          ((canonical_cons_iff first rest).mpr hfirst)
        rw [integerOctets, hspelled]
        exact if_pos hsmall

/-- A number is read when its octets are minimal. -/
theorem decodeInteger_octets {octets : List UInt8}
    (hlen : octets.length < 0x10000) (rest : List UInt8) :
    decodeInteger (0x02 :: LengthValue.encode octets ++ rest) =
      if MinimalOctets octets then some (ofBigEndian octets, rest)
      else none := by
  rw [decodeInteger, decodeTagged_encode 0x02 hlen rest]

/-- Two numbers are read when the octets of both are minimal. -/
theorem decodePair_octets {first second : List UInt8} {numbers : Nat × Nat}
    (hfirst : first.length < 0x8000) (hsecond : second.length < 0x7000) :
    decodePair (encodeSequence (0x02 :: LengthValue.encode first ++
        0x02 :: LengthValue.encode second)) = some numbers ↔
      MinimalOctets first ∧ MinimalOctets second ∧
        numbers = (ofBigEndian first, ofBigEndian second) := by
  have hitems : (0x02 :: LengthValue.encode first ++
      0x02 :: LengthValue.encode second).length < 0x10000 := by
    have hheader := (LengthValue.length_header first.length).2
    have hother := (LengthValue.length_header second.length).2
    simp only [List.length_append, List.length_cons, LengthValue.length_encode]
    omega
  have hsequence := decodeTagged_encode 0x30 hitems []
  have hone := decodeInteger_octets (Nat.lt_trans hfirst (by decide))
    (0x02 :: LengthValue.encode second)
  have htwo := decodeInteger_octets (Nat.lt_trans hsecond (by decide)) []
  rw [List.append_nil] at hsequence htwo
  rw [decodePair, encodeSequence, hsequence]
  simp only [hone]
  by_cases hminimal : MinimalOctets first
  · rw [if_pos hminimal]
    simp only [htwo]
    by_cases hother : MinimalOctets second
    · rw [if_pos hother]
      simp [hminimal, hother, eq_comm]
    · rw [if_neg hother]
      simp [hother]
  · rw [if_neg hminimal]
    simp [hminimal]

end Der
