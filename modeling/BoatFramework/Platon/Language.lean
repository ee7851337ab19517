/-
The language of `BoatPlatONBech32Decode` beside the texts of BIP-173: the kinds
of texts on which the decoder gives another verdict, and no others.
-/
import BoatFramework.Platon.Bech32Runs
import Mathlib.Data.Bool.AllAny

namespace BoatFramework

open Bech32 (separator isUpper isLower lower charValue)

variable {text hrp data chk : List UInt8}

/-- The decoder accepts a text that BIP-173 allows and answers −1 to any other,
and stays inside its tables. -/
def DecidesBech32 (text : List UInt8) : Prop :=
  ∃ result out, boatPlatONBech32Decode text = .ok (result, out) ∧
    (0 ≤ result ∧ Bech32.Valid text ∨ result = -1 ∧ ¬Bech32.Valid text)

/-- The entry of `CHARSET_REV` as it enters the checksum: 0xFF for a character
outside the alphabet. -/
def tableValue (c : UInt8) : Nat :=
  (UInt8.ofInt (charsetRev.getD c.toNat 0)).toNat

/-- The checksum that the decoder computes for a prefix and data characters. -/
def decoderChecksum (hrp data : List UInt8) : List Nat :=
  boatBech32Polymod (boatExpandHrp hrp) (data.map tableValue)

/-- The last six characters are the ones the decoder compares them with. -/
def ChecksumFits (hrp data chk : List UInt8) : Prop :=
  chk = (decoderChecksum hrp data).map alphabetChar

/-- The value of a character in a checksum, 0xFF where it is not one of the
alphabet in either case. -/
def checkedValue (c : UInt8) : Nat :=
  if lower c ∈ Bech32.alphabet then charValue c else 0xFF

/-- The values in front of the checksum where a text is divided into a prefix,
of whose characters seven bits count, and data characters. -/
def dividedValues (hrp data : List UInt8) : List Nat :=
  Bech32.expandPrefix (hrp.map (· &&& 0x7F)) ++ data.map checkedValue

def dividedChecksum (hrp data : List UInt8) : Nat :=
  Bech32.checksum (dividedValues hrp data)

/-- Small letters that spell the checksum of a division. -/
structure Spelt (hrp data chk : List UInt8) : Prop where
  inAlphabet : ∀ c ∈ chk, lower c ∈ Bech32.alphabet
  small : ∀ c ∈ chk, isUpper c = false
  value_eq : Regroup.value 5 (chk.map charValue) = dividedChecksum hrp data

/-- A text divided at its last separator in front of six characters. -/
structure LastDivision (text hrp data chk : List UInt8) : Prop where
  text : text = hrp ++ separator :: (data ++ chk)
  lastSeparator : separator ∉ data
  length_chk : chk.length = 6

/-- What BIP-173 asks of the parts of a text beside the checksum. -/
structure Regular (hrp data chk : List UInt8) : Prop where
  readable : Bech32.Readable hrp
  inAlphabet : ∀ c ∈ data, lower c ∈ Bech32.alphabet
  oneCase : (∀ c ∈ hrp ++ (data ++ chk), isUpper c = false) ∨
    ∀ c ∈ hrp ++ (data ++ chk), isLower c = false
  padding : Bech32.ZeroPadded (data.map charValue)

/-- The texts on which the decoder goes wrong, by kind. -/
inductive Misread (text : List UInt8) : Prop where
  /-- The counter of the search for a separator overflows. -/
  | search (hoffset : 2 ^ 31 ≤ text.idxOf separator)
  /-- A data byte above 0x7F is looked up outside the table. -/
  | table {hrp data chk : List UInt8} {c : UInt8}
      (hreading : Reading text hrp data chk) (hmem : c ∈ data)
      (hbyte : 128 ≤ c.toNat)
  /-- The prefix starts with a separator, or nothing stands between separator
  and checksum, or more than a `BSINT32` counts. -/
  | unread (hvalid : Bech32.Valid text)
      (hsplit : text.idxOf separator = 0 ∨
        text.length = text.idxOf separator + 7 ∨
        text.idxOf separator + 7 + 2 ^ 31 ≤ text.length)
  /-- The last six characters spell the checksum of the division at the first
  separator, while at the last one the text is irregular or has another
  checksum. -/
  | accepted {hrp data chk front back : List UInt8}
      (hreading : Reading text hrp data chk)
      (hlast : LastDivision text front back chk) (hspelt : Spelt hrp data chk)
      (hbad : Regular front back chk →
        dividedChecksum (front.map lower) back ≠ dividedChecksum hrp data)
  /-- The text is well-formed at its last separator, with a capital in its
  checksum, or with another checksum than the division at the first separator
  and of the prefix as it is written. -/
  | refused {hrp data chk front back : List UInt8}
      (hreading : Reading text hrp data chk)
      (hlast : LastDivision text front back chk)
      (hwellformed : Bech32.Wellformed front (back ++ chk))
      (hother : (∃ c ∈ chk, isUpper c = true) ∨
        dividedChecksum (front.map lower) back ≠ dividedChecksum hrp data)

theorem charsetValue_eq {c : UInt8} (hascii : c.toNat < 128) :
    charsetValue c = .ok (UInt8.ofNat (tableValue c)) := by
  have hsome : charsetRev[c.toNat]? = some (charsetRev.getD c.toNat 0) := by
    rw [List.getD_eq_getElem?_getD, List.getElem?_eq_getElem hascii]
    rfl
  rw [charsetValue, hsome, tableValue, UInt8.ofNat_toNat]

theorem charsetValue_undefined {c : UInt8} (hbyte : 128 ≤ c.toNat) :
    charsetValue c = .error .undefined := by
  have hnone : charsetRev[c.toNat]? = none :=
    List.getElem?_eq_none_iff.mpr hbyte
  rw [charsetValue, hnone]

theorem tableValue_lt (c : UInt8) : tableValue c < 256 :=
  UInt8.toNat_lt _

/-- The alphabet in small letters and in capitals. -/
def eitherCase : List UInt8 :=
  Bech32.alphabet ++ Bech32.alphabet.map (· - 0x20)

theorem mem_eitherCase {c : UInt8} (hc : lower c ∈ Bech32.alphabet) :
    c ∈ eitherCase := by
  unfold lower at hc
  split at hc
  · have hback : c + 0x20 - 0x20 = c := UInt8.add_sub_cancel c 0x20
    exact List.mem_append_right _ (List.mem_map.mpr ⟨_, hc, hback⟩)
  · exact List.mem_append_left _ hc

/-- The table agrees with the alphabet on the characters of the alphabet. -/
theorem tableValue_eq {c : UInt8} (hc : lower c ∈ Bech32.alphabet) :
    tableValue c = charValue c := by
  have hall : ∀ c ∈ eitherCase, lower c ∈ Bech32.alphabet →
      tableValue c = charValue c := by decide +kernel
  exact hall c (mem_eitherCase hc) hc

theorem charValue_lt {c : UInt8} (hc : lower c ∈ Bech32.alphabet) :
    charValue c < 32 :=
  List.idxOf_lt_length_of_mem hc

theorem ascii_of_alphabet {c : UInt8} (hc : lower c ∈ Bech32.alphabet) :
    c.toNat < 128 := by
  have hall : ∀ c ∈ eitherCase, c.toNat < 128 :=
    List.all_iff_forall_prop.mp (by decide)
  exact hall c (mem_eitherCase hc)

theorem lower_ascii {c : UInt8} (hc : c.toNat < 128) : (lower c).toNat < 128 := by
  revert c
  apply forall_byte
  decide +kernel

theorem separator_notMem {chars : List UInt8}
    (hchars : ∀ c ∈ chars, lower c ∈ Bech32.alphabet) : separator ∉ chars :=
  fun hmem => absurd (hchars separator hmem) (by decide)

theorem alphabetChar_spec {value : Nat} (hvalue : value < 32) :
    lower (alphabetChar value) ∈ Bech32.alphabet ∧
      isUpper (alphabetChar value) = false ∧
      charValue (alphabetChar value) = value := by
  have hall : ∀ v : Fin 32, lower (alphabetChar v.val) ∈ Bech32.alphabet ∧
      isUpper (alphabetChar v.val) = false ∧
      charValue (alphabetChar v.val) = v.val := by decide
  exact hall ⟨value, hvalue⟩

theorem alphabetChar_charValue {c : UInt8} (hc : lower c ∈ Bech32.alphabet)
    (hcase : isUpper c = false) : alphabetChar (charValue c) = c := by
  have hall : ∀ c ∈ eitherCase, lower c ∈ Bech32.alphabet →
      isUpper c = false → alphabetChar (charValue c) = c := by decide +kernel
  exact hall c (mem_eitherCase hc) hc hcase

/-- Characters that spell values are small letters of the alphabet with these
values. -/
theorem eq_map_alphabetChar_iff {values : List Nat}
    (hvalues : Regroup.Digits 5 values) :
    chk = values.map alphabetChar ↔
      (∀ c ∈ chk, lower c ∈ Bech32.alphabet) ∧
        (∀ c ∈ chk, isUpper c = false) ∧ chk.map charValue = values := by
  constructor
  · rintro rfl
    refine ⟨?_, ?_, ?_⟩
    · intro c hmem
      obtain ⟨value, hvalue, rfl⟩ := List.mem_map.mp hmem
      exact (alphabetChar_spec (hvalues value hvalue)).1
    · intro c hmem
      obtain ⟨value, hvalue, rfl⟩ := List.mem_map.mp hmem
      exact (alphabetChar_spec (hvalues value hvalue)).2.1
    · have hback : ∀ value ∈ values,
          (charValue ∘ alphabetChar) value = id value :=
        fun value hmem => (alphabetChar_spec (hvalues value hmem)).2.2
      rw [List.map_map, List.map_congr_left hback, List.map_id]
  · rintro ⟨halphabet, hcase, rfl⟩
    have hback : ∀ c ∈ chk, (alphabetChar ∘ charValue) c = id c :=
      fun c hmem => alphabetChar_charValue (halphabet c hmem) (hcase c hmem)
    rw [List.map_map, List.map_congr_left hback, List.map_id]

theorem decoderChecksum_spells (hrp data : List UInt8) :
    Spells (decoderChecksum hrp data)
      (Bech32.checksum (boatExpandHrp hrp ++ data.map tableValue)) := by
  apply boatBech32Polymod_spells (boatExpandHrp_lt hrp)
  intro value hmem
  obtain ⟨c, -, rfl⟩ := List.mem_map.mp hmem
  exact tableValue_lt c

/-- Of a prefix the code expands seven bits of each character. -/
theorem boatExpandHrp_masked (hrp : List UInt8) :
    boatExpandHrp hrp = Bech32.expandPrefix (hrp.map (· &&& 0x7F)) := by
  have hall (c : UInt8) : ((c &&& 0x7f).toNat >>> 5) &&& 0x07 =
      (c &&& 0x7f).toNat >>> 5 := by
    revert c
    apply forall_byte
    decide +kernel
  rw [boatExpandHrp, Bech32.expandPrefix, List.map_map, List.map_map]
  congr 1
  exact List.map_congr_left fun c _ => hall c

theorem tableValue_checked {c : UInt8} (hascii : c.toNat < 128) :
    tableValue c = checkedValue c := by
  have hall : ∀ c : Fin 128, tableValue (UInt8.ofNat c.val) =
      checkedValue (UInt8.ofNat c.val) := by decide +kernel
  have hc := hall ⟨c.toNat, hascii⟩
  rwa [UInt8.ofNat_toNat] at hc

theorem checkedValue_eq {c : UInt8} (hc : lower c ∈ Bech32.alphabet) :
    checkedValue c = charValue c :=
  if_pos hc

theorem checkedValue_lt (c : UInt8) : checkedValue c < 256 := by
  unfold checkedValue
  split
  next hc =>
    have := charValue_lt hc
    omega
  next => decide

theorem digits_charValue (hchk : ∀ c ∈ chk, lower c ∈ Bech32.alphabet) :
    Regroup.Digits 5 (chk.map charValue) := by
  intro value hmem
  obtain ⟨c, hc, rfl⟩ := List.mem_map.mp hmem
  exact charValue_lt (hchk c hc)

/-- The decoder compares the last six characters with the checksum of its
division. -/
theorem checksumFits_iff (hascii : ∀ c ∈ data, c.toNat < 128)
    (hlength : chk.length = 6) :
    ChecksumFits hrp data chk ↔ Spelt hrp data chk := by
  have hspells := decoderChecksum_spells hrp data
  have hvalues : data.map tableValue = data.map checkedValue :=
    List.map_congr_left fun c hmem => tableValue_checked (hascii c hmem)
  rw [boatExpandHrp_masked, hvalues] at hspells
  rw [ChecksumFits, eq_map_alphabetChar_iff hspells.digits]
  constructor
  · rintro ⟨halphabet, hsmall, hvalue⟩
    refine ⟨halphabet, hsmall, ?_⟩
    rw [hvalue]
    exact hspells.value_eq
  · rintro ⟨halphabet, hsmall, hvalue⟩
    refine ⟨halphabet, hsmall, Spells.unique ⟨digits_charValue halphabet, ?_,
      hvalue⟩ hspells⟩
    rw [List.length_map, hlength]

/-- The values of a printable prefix in small letters and of characters of the
alphabet. -/
theorem dividedValues_eq (hhrp : ∀ c ∈ hrp, c.toNat < 128)
    (hdata : ∀ c ∈ data, lower c ∈ Bech32.alphabet) :
    dividedValues (hrp.map lower) data =
      Bech32.expandPrefix (hrp.map lower) ++ data.map charValue := by
  have hmasked : (hrp.map lower).map (· &&& 0x7F) = hrp.map lower := by
    have hall : ∀ c : Fin 128, UInt8.ofNat c.val &&& 0x7F =
        UInt8.ofNat c.val := by decide +kernel
    rw [List.map_map]
    refine List.map_congr_left fun c hmem => ?_
    have hc := hall ⟨(lower c).toNat, lower_ascii (hhrp c hmem)⟩
    rwa [UInt8.ofNat_toNat] at hc
  rw [dividedValues, hmasked,
    List.map_congr_left fun c hmem => checkedValue_eq (hdata c hmem)]

/-- What BIP-173 asks of a text that is divided in front of six characters. -/
theorem wellformed_iff (hlength : chk.length = 6) :
    Bech32.Wellformed hrp (data ++ chk) ↔ Regular hrp data chk ∧
      (∀ c ∈ chk, lower c ∈ Bech32.alphabet) ∧
        Regroup.value 5 (chk.map charValue) =
          dividedChecksum (hrp.map lower) data := by
  have hsix {chars : List UInt8} (hchars : chars = chk) :
      (data ++ chk).take ((data ++ chk).length - 6) = data := by
    rw [List.length_append, hlength, Nat.add_sub_cancel, List.take_left]
  have hverifies (hhrp : Bech32.Readable hrp)
      (hdata : ∀ c ∈ data, lower c ∈ Bech32.alphabet)
      (hchk : ∀ c ∈ chk, lower c ∈ Bech32.alphabet) :
      Bech32.polymod (Bech32.expandPrefix (hrp.map lower) ++
          (data ++ chk).map charValue) = 1 ↔
        Regroup.value 5 (chk.map charValue) =
          dividedChecksum (hrp.map lower) data := by
    have hascii : ∀ c ∈ hrp, c.toNat < 128 := by
      intro c hmem
      have := hhrp.printable c hmem
      omega
    rw [List.map_append, ← List.append_assoc, dividedChecksum,
      dividedValues_eq hascii hdata]
    apply Bech32.polymod_append_eq_one_iff _ (digits_charValue hchk)
    rw [List.length_map, hlength]
  constructor
  · intro hwellformed
    obtain ⟨hdata, hchk⟩ := List.forall_mem_append.mp hwellformed.inAlphabet
    have hpadding := hwellformed.padding
    rw [hsix rfl] at hpadding
    exact ⟨⟨hwellformed.readable, hdata, hwellformed.oneCase, hpadding⟩, hchk,
      (hverifies hwellformed.readable hdata hchk).mp hwellformed.checksum⟩
  · rintro ⟨hregular, hchk, hvalue⟩
    have hall : ∀ c ∈ data ++ chk, lower c ∈ Bech32.alphabet :=
      List.forall_mem_append.mpr ⟨hregular.inAlphabet, hchk⟩
    constructor
    · exact hregular.readable
    · exact separator_notMem hall
    · rw [List.length_append]
      omega
    · exact hall
    · exact hregular.oneCase
    · exact (hverifies hregular.readable hregular.inAlphabet hchk).mpr hvalue
    · rw [hsix rfl]
      exact hregular.padding

/-- There is one division behind which no separator stands. -/
theorem division_unique {front front' rest rest' : List UInt8}
    (hsplit : front ++ separator :: rest = front' ++ separator :: rest')
    (hlast : separator ∉ rest) (hlast' : separator ∉ rest') :
    front = front' ∧ rest = rest' := by
  rcases List.append_eq_append_iff.mp hsplit with
    ⟨inner, hfront, hrest⟩ | ⟨inner, hfront, hrest⟩
  · cases inner with
    | nil =>
        obtain ⟨-, hsame⟩ := List.cons.inj hrest
        exact ⟨by rw [hfront, List.append_nil], hsame⟩
    | cons c inner =>
        obtain ⟨-, hsame⟩ := List.cons.inj hrest
        exact absurd (hsame ▸ by simp) hlast
  · cases inner with
    | nil =>
        obtain ⟨-, hsame⟩ := List.cons.inj hrest
        exact ⟨by rw [hfront, List.append_nil], hsame.symm⟩
    | cons c inner =>
        obtain ⟨-, hsame⟩ := List.cons.inj hrest
        exact absurd (hsame ▸ by simp) hlast'

theorem exists_lastSeparator {chars : List UInt8} (hmem : separator ∈ chars) :
    ∃ front back, chars = front ++ separator :: back ∧ separator ∉ back := by
  induction chars with
  | nil => cases hmem
  | cons c chars ih =>
      by_cases hbehind : separator ∈ chars
      · obtain ⟨front, back, rfl, hlast⟩ := ih hbehind
        exact ⟨c :: front, back, rfl, hlast⟩
      · rcases List.mem_cons.mp hmem with rfl | hmem
        · exact ⟨[], chars, rfl, hbehind⟩
        · exact absurd hmem hbehind

/-- A text that is taken apart has a last division too. -/
theorem Reading.lastDivision (hreading : Reading text hrp data chk) :
    ∃ front back, LastDivision text front back chk := by
  have hmem : separator ∈ hrp ++ separator :: data := by simp
  obtain ⟨front, back, hsplit, hlast⟩ := exists_lastSeparator hmem
  refine ⟨front, back, ?_, hlast, hreading.length_chk⟩
  have hwhole := congrArg (· ++ chk) hsplit
  simp only [List.append_assoc, List.cons_append] at hwhole
  rw [hreading.text, hwhole]

variable {front back : List UInt8}

/-- A text is valid where it is well-formed at its last division. -/
theorem LastDivision.valid_iff (hlast : LastDivision text front back chk)
    (hchk : separator ∉ chk) :
    Bech32.Valid text ↔ Bech32.Wellformed front (back ++ chk) := by
  constructor
  · rintro ⟨hrp, data, htext, hwellformed⟩
    have hbehind : separator ∉ back ++ chk := fun hmem =>
      (List.mem_append.mp hmem).elim hlast.lastSeparator hchk
    obtain ⟨rfl, rfl⟩ := division_unique (hlast.text.symm.trans htext) hbehind
      hwellformed.lastSeparator
    exact hwellformed
  · exact fun hwellformed => ⟨_, _, hlast.text, hwellformed⟩

/-- A separator among the last six characters leaves no room for a
checksum. -/
theorem LastDivision.not_valid (hlast : LastDivision text front back chk)
    (hchk : separator ∈ chk) : ¬Bech32.Valid text := by
  rintro ⟨hrp, data, htext, hwellformed⟩
  obtain ⟨inner, rest, rfl, hrest⟩ := exists_lastSeparator hchk
  have hsplit : front ++ separator :: (back ++ inner) ++ separator :: rest =
      hrp ++ separator :: data := by
    rw [← htext, hlast.text]
    simp
  obtain ⟨-, rfl⟩ := division_unique hsplit hrest hwellformed.lastSeparator
  have hlong := hwellformed.length_data
  have hshort := hlast.length_chk
  rw [List.length_append, List.length_cons] at hshort
  omega

theorem Spelt.separator_notMem (hspelt : Spelt hrp data chk) :
    separator ∉ chk :=
  BoatFramework.separator_notMem hspelt.inAlphabet

/-- A text with the checksum of its first division is valid where its last one
is regular and has the same checksum. -/
theorem Spelt.valid_iff (hspelt : Spelt hrp data chk)
    (hlast : LastDivision text front back chk) :
    Bech32.Valid text ↔ Regular front back chk ∧
      dividedChecksum (front.map lower) back = dividedChecksum hrp data := by
  rw [hlast.valid_iff hspelt.separator_notMem, wellformed_iff hlast.length_chk,
    hspelt.value_eq]
  constructor
  · exact fun ⟨hregular, _, hsame⟩ => ⟨hregular, hsame.symm⟩
  · exact fun ⟨hregular, hsame⟩ => ⟨hregular, hspelt.inAlphabet, hsame.symm⟩

/-- A well-formed text has the checksum of its first division where the two
divisions have the same one, and no capital is in it. -/
theorem LastDivision.spelt_iff (hlast : LastDivision text front back chk)
    (hwellformed : Bech32.Wellformed front (back ++ chk)) :
    Spelt hrp data chk ↔ (∀ c ∈ chk, isUpper c = false) ∧
      dividedChecksum (front.map lower) back = dividedChecksum hrp data := by
  obtain ⟨-, halphabet, hvalue⟩ :=
    (wellformed_iff hlast.length_chk).mp hwellformed
  rw [← hvalue]
  exact ⟨fun hspelt => ⟨hspelt.small, hspelt.value_eq⟩,
    fun ⟨hsmall, hsame⟩ => ⟨halphabet, hsmall, hsame⟩⟩

/-- The decoder on a text whose data characters are in its table. -/
theorem decode_of_ascii (hreading : Reading text hrp data chk)
    (hascii : ∀ c ∈ data, c.toNat < 128) :
    boatPlatONBech32Decode text =
      if chk ≠ (decoderChecksum hrp data).map alphabetChar then .ok (-1, [])
      else
        let out := boatConvertBits
          (data.map fun c => UInt8.ofNat (tableValue c)) 5 8
        .ok (out.length, out) := by
  have hvalues : data.mapM charsetValue =
      .ok (data.map fun c => UInt8.ofNat (tableValue c)) :=
    Exec.except_mapM_ok fun c hmem => charsetValue_eq (hascii c hmem)
  have hnumbers : (data.map fun c => UInt8.ofNat (tableValue c)).map
      UInt8.toNat = data.map tableValue := by
    rw [List.map_map]
    apply List.map_congr_left
    intro c _
    simp only [Function.comp_apply, tableValue, UInt8.ofNat_toNat]
  rw [decode_of_reading hreading, hvalues, Exec.except_ok_bind, hnumbers]
  rfl

theorem decode_of_unfit (hreading : Reading text hrp data chk)
    (hascii : ∀ c ∈ data, c.toNat < 128)
    (hunfit : ¬ChecksumFits hrp data chk) :
    boatPlatONBech32Decode text = .ok (-1, []) :=
  (decode_of_ascii hreading hascii).trans (if_pos hunfit)

theorem decode_of_fits (hreading : Reading text hrp data chk)
    (hascii : ∀ c ∈ data, c.toNat < 128) (hfits : ChecksumFits hrp data chk) :
    ∃ out, boatPlatONBech32Decode text = .ok ((out.length : Int), out) :=
  ⟨_, (decode_of_ascii hreading hascii).trans (if_neg fun hne => hne hfits)⟩

/-- A result is made of table entries only. -/
theorem ascii_of_decode {result : Int × List UInt8}
    (hreading : Reading text hrp data chk)
    (hdecode : boatPlatONBech32Decode text = .ok result) :
    ∀ c ∈ data, c.toNat < 128 := by
  rw [decode_of_reading hreading] at hdecode
  obtain ⟨values, hvalues, -⟩ := Exec.except_bind_eq_ok.mp hdecode
  intro c hmem
  by_contra hbyte
  obtain ⟨value, hvalue⟩ := (Exec.except_mapM_eq_ok hvalues).2 c hmem
  rw [charsetValue_undefined (by omega)] at hvalue
  cases hvalue

/-- The decoder refuses a text that it can take apart when its data is in the
table and its checksum does not fit. -/
theorem decode_refuses_iff (hreading : Reading text hrp data chk) :
    boatPlatONBech32Decode text = .ok (-1, []) ↔
      (∀ c ∈ data, c.toNat < 128) ∧ ¬ChecksumFits hrp data chk := by
  constructor
  · intro hdecode
    have hascii := ascii_of_decode hreading hdecode
    refine ⟨hascii, fun hfits => ?_⟩
    obtain ⟨out, hout⟩ := decode_of_fits hreading hascii hfits
    rw [hdecode] at hout
    obtain ⟨hlength, -⟩ := Prod.mk.inj (Except.ok.inj hout)
    omega
  · rintro ⟨hascii, hunfit⟩
    exact decode_of_unfit hreading hascii hunfit

/-- The verdict on a text that is taken apart. -/
theorem decode_verdict (hreading : Reading text hrp data chk)
    (hascii : ∀ c ∈ data, c.toNat < 128) :
    DecidesBech32 text ↔ (ChecksumFits hrp data chk ↔ Bech32.Valid text) := by
  by_cases hfits : ChecksumFits hrp data chk
  · obtain ⟨out, hdecode⟩ := decode_of_fits hreading hascii hfits
    rw [DecidesBech32, hdecode]
    constructor
    · rintro ⟨result, out, hresult, ⟨-, hvalid⟩ | ⟨hneg, -⟩⟩
      · exact iff_of_true hfits hvalid
      · obtain ⟨rfl, -⟩ := Prod.mk.inj (Except.ok.inj hresult)
        omega
    · intro hverdict
      exact ⟨_, _, rfl, .inl ⟨Int.natCast_nonneg _, hverdict.mp hfits⟩⟩
  · rw [DecidesBech32, decode_of_unfit hreading hascii hfits]
    constructor
    · rintro ⟨result, out, hresult, ⟨hpos, -⟩ | ⟨-, hinvalid⟩⟩
      · obtain ⟨rfl, -⟩ := Prod.mk.inj (Except.ok.inj hresult)
        omega
      · exact iff_of_false hfits hinvalid
    · intro hverdict
      exact ⟨_, _, rfl, .inr ⟨rfl, fun hvalid => hfits (hverdict.mpr hvalid)⟩⟩

theorem DecidesBech32.ascii (hdecides : DecidesBech32 text)
    (hreading : Reading text hrp data chk) : ∀ c ∈ data, c.toNat < 128 := by
  obtain ⟨result, out, hdecode, -⟩ := hdecides
  exact ascii_of_decode hreading hdecode

/-- A valid text has its first separator early and six characters behind it. -/
theorem valid_idxOf (hvalid : Bech32.Valid text) :
    text.idxOf separator ≤ 83 ∧ text.idxOf separator + 7 ≤ text.length := by
  obtain ⟨hrp, data, rfl, hwellformed⟩ := hvalid
  have hhrp := hwellformed.readable.length
  have hdata := hwellformed.length_data
  have hle : (hrp ++ separator :: data).idxOf separator ≤ hrp.length := by
    by_cases hfirst : separator ∈ hrp
    · rw [List.idxOf_append_of_mem hfirst]
      exact List.idxOf_le_length
    · rw [List.idxOf_append_of_notMem hfirst, List.idxOf_cons_self]
      exact Nat.le_refl _
  rw [List.length_append, List.length_cons]
  omega

/-- The verdict in terms of the divisions of the text. -/
theorem decides_iff_spelt (hreading : Reading text hrp data chk)
    (hascii : ∀ c ∈ data, c.toNat < 128) :
    DecidesBech32 text ↔ (Spelt hrp data chk ↔ Bech32.Valid text) := by
  rw [decode_verdict hreading hascii,
    checksumFits_iff hascii hreading.length_chk]

theorem not_decides_of_misread (hinlen : text.length < 2 ^ 32)
    (hmisread : Misread text) : ¬DecidesBech32 text := by
  intro hdecides
  cases hmisread with
  | search hoffset =>
      obtain ⟨result, out, hdecode, -⟩ := hdecides
      rw [decode_of_overflow hoffset] at hdecode
      cases hdecode
  | table hreading hmem hbyte =>
      have := hdecides.ascii hreading _ hmem
      omega
  | unread hvalid hsplit =>
      have hearly := valid_idxOf hvalid
      have hunread : ∀ hrp data chk, ¬Reading text hrp data chk := by
        intro hrp data chk hreading
        have hoffset := hreading.idxOf_separator
        have hlength := hreading.length_input
        have hhrp := hreading.length_hrp
        have hdata := hreading.length_data
        omega
      obtain ⟨result, out, hdecode, hverdict⟩ := hdecides
      rw [decode_of_unread hinlen (by omega) hunread] at hdecode
      obtain ⟨rfl, -⟩ := Prod.mk.inj (Except.ok.inj hdecode)
      rcases hverdict with ⟨hpos, -⟩ | ⟨-, hinvalid⟩
      · omega
      · exact hinvalid hvalid
  | accepted hreading hlast hspelt hbad =>
      have hverdict :=
        (decides_iff_spelt hreading (hdecides.ascii hreading)).mp hdecides
      obtain ⟨hregular, hsame⟩ :=
        (hspelt.valid_iff hlast).mp (hverdict.mp hspelt)
      exact hbad hregular hsame
  | refused hreading hlast hwellformed hother =>
      have hverdict :=
        (decides_iff_spelt hreading (hdecides.ascii hreading)).mp hdecides
      have hspelt := hverdict.mpr ⟨_, _, hlast.text, hwellformed⟩
      obtain ⟨hsmall, hsame⟩ := (hlast.spelt_iff hwellformed).mp hspelt
      rcases hother with ⟨c, hmem, hcapital⟩ | hdiffer
      · rw [hsmall c hmem] at hcapital
        cases hcapital
      · exact hdiffer hsame

theorem decides_of_not_misread (hinlen : text.length < 2 ^ 32)
    (hclean : ¬Misread text) : DecidesBech32 text := by
  have hoffset : text.idxOf separator < 2 ^ 31 := by
    by_contra hoffset
    exact hclean (.search (by omega))
  by_cases hread : ∃ hrp data chk, Reading text hrp data chk
  · obtain ⟨hrp, data, chk, hreading⟩ := hread
    have hascii : ∀ c ∈ data, c.toNat < 128 := by
      intro c hmem
      by_contra hbyte
      exact hclean (.table hreading hmem (by omega))
    obtain ⟨front, back, hlast⟩ := hreading.lastDivision
    rw [decides_iff_spelt hreading hascii]
    constructor
    · intro hspelt
      rw [hspelt.valid_iff hlast]
      by_contra hbad
      exact hclean (.accepted hreading hlast hspelt
        fun hregular hsame => hbad ⟨hregular, hsame⟩)
    · intro hvalid
      have hchk : separator ∉ chk := fun hmem => hlast.not_valid hmem hvalid
      have hwellformed := (hlast.valid_iff hchk).mp hvalid
      rw [hlast.spelt_iff hwellformed]
      by_contra hother
      apply hclean
      apply Misread.refused hreading hlast hwellformed
      by_contra hnone
      obtain ⟨hsmall, hsame⟩ := not_or.mp hnone
      apply hother
      refine ⟨fun c hmem => ?_, not_not.mp hsame⟩
      exact Bool.eq_false_iff.mpr fun hcapital => hsmall ⟨c, hmem, hcapital⟩
  · have hunread : ∀ hrp data chk, ¬Reading text hrp data chk :=
      fun hrp data chk hreading => hread ⟨hrp, data, chk, hreading⟩
    refine ⟨-1, [], decode_of_unread hinlen hoffset hunread, .inr ⟨rfl, ?_⟩⟩
    intro hvalid
    have hearly := valid_idxOf hvalid
    apply hclean
    apply Misread.unread hvalid
    by_contra hsplit
    exact hread (exists_reading (by omega) (by omega) (by omega) (by omega))

/-- The decoder decides the language of BIP-173 on the texts that it does not
misread, and on no others. -/
theorem decidesBech32_iff (hinlen : text.length < 2 ^ 32) :
    DecidesBech32 text ↔ ¬Misread text := by
  constructor
  · intro hdecides hmisread
    exact not_decides_of_misread hinlen hmisread hdecides
  · exact decides_of_not_misread hinlen

/-- `l1lulzkvtc` is valid and accepted, hence of none of the kinds. -/
theorem decidesBech32_small :
    ¬Misread [0x6C, 0x31, 0x6C, 0x75, 0x6C, 0x7A, 0x6B, 0x76, 0x74, 0x63] :=
  (decidesBech32_iff (by decide)).mp
    ⟨2, [0xFF, 0x00], by decide, .inl ⟨by decide, [0x6C],
      [0x6C, 0x75, 0x6C, 0x7A, 0x6B, 0x76, 0x74, 0x63], rfl,
      ⟨⟨by decide, List.all_iff_forall_prop.mp rfl⟩, by decide, by decide,
        List.all_iff_forall_prop.mp rfl, .inl (List.all_iff_forall_prop.mp rfl),
        by decide, by decide⟩⟩⟩

/-- `l1!xfud90` is accepted, with a character outside the alphabet. -/
theorem not_decidesBech32 :
    ¬ ∀ text : List UInt8, text.length < 2 ^ 32 → DecidesBech32 text := by
  intro hclaim
  have hdecides :=
    hclaim [0x6C, 0x31, 0x21, 0x78, 0x66, 0x75, 0x64, 0x39, 0x30] (by decide)
  have hreading : Reading
      [0x6C, 0x31, 0x21, 0x78, 0x66, 0x75, 0x64, 0x39, 0x30] [0x6C] [0x21]
      [0x78, 0x66, 0x75, 0x64, 0x39, 0x30] :=
    ⟨rfl, by decide, by decide, by decide, rfl⟩
  have hfits : ChecksumFits [0x6C] [0x21]
      [0x78, 0x66, 0x75, 0x64, 0x39, 0x30] := by
    unfold ChecksumFits
    decide
  have hverdict := (decode_verdict hreading
    (List.all_iff_forall_prop.mp rfl)).mp hdecides
  have hlast : LastDivision
      [0x6C, 0x31, 0x21, 0x78, 0x66, 0x75, 0x64, 0x39, 0x30] [0x6C] [0x21]
      [0x78, 0x66, 0x75, 0x64, 0x39, 0x30] :=
    ⟨rfl, by decide, rfl⟩
  have hwellformed := (hlast.valid_iff (by decide)).mp (hverdict.mp hfits)
  exact absurd (hwellformed.inAlphabet 0x21 (by decide)) (by decide)

end BoatFramework
