/-
One changed character behind the separator of an encoded text: the changes that
`BoatPlatONBech32Decode` does not refuse.
-/
import BoatFramework.Platon.Language
import BoatFramework.Platon.RoundTrip

namespace BoatFramework

open Bech32 (separator isUpper lower charValue)

variable {bytes hrp text data chk front back : List UInt8} {i : Nat}
  {c : UInt8}

/-- A prefix is taken apart at its first separator. -/
structure FirstDivision (hrp front middle : List UInt8) : Prop where
  prefix_eq : hrp = front ++ separator :: middle
  first : separator ∉ front
  front_ne : front ≠ []

/-- A changed character that is not refused, by kind. -/
inductive Undetected (hrp text : List UInt8) (i : Nat) (c : UInt8) : Prop where
  /-- A data character above 0x7F is looked up outside the table. -/
  | table (hfront : hrp.head? ≠ some separator) (hdata : i < text.length - 6)
      (hbyte : 128 ≤ c.toNat)
  /-- A data character becomes its own capital. -/
  | capital (hfirst : separator ∉ hrp) (hdata : i < text.length - 6)
      (hcapital : lower c = text.getD i 0)
  /-- A byte above 0x7F in the prefix, behind its first separator, is looked up
  outside the table. -/
  | prefixTable {front middle : List UInt8} {d : UInt8}
      (hdivision : FirstDivision hrp front middle) (hmem : d ∈ middle)
      (hbyte : 128 ≤ d.toNat)
  /-- The change undoes the remainder that the text has when it is divided at
  the first separator of its prefix. -/
  | undone {front middle : List UInt8}
      (hdivision : FirstDivision hrp front middle)
      (hsmall : text.length - 6 ≤ i →
        lower c ∈ Bech32.alphabet ∧ isUpper c = false)
      (hremainder :
        Bech32.effect (checkedValue (text.getD i 0) ^^^ checkedValue c)
            (text.length - 1 - i) =
          Bech32.polymod
            (dividedValues front (text.drop (front.length + 1))) ^^^ 1)

theorem encode_eq_ok
    (hencode : boatPlatONBech32Encode bytes hrp = .ok (text.length, text)) :
    (1 ≤ hrp.length ∧ hrp.length ≤ 83) ∧ text = bech32Text bytes hrp := by
  unfold boatPlatONBech32Encode at hencode
  split at hencode
  next =>
    obtain ⟨hresult, -⟩ := Prod.mk.inj (Except.ok.inj hencode)
    omega
  next hhrp =>
    dsimp only at hencode
    split at hencode
    next => cases hencode
    next =>
      obtain ⟨-, htext⟩ := Prod.mk.inj (Except.ok.inj hencode)
      exact ⟨by omega, htext.symm⟩

/-- A character of the table with the value of a small letter is that letter or
its capital. -/
theorem tableValue_eq_iff (hascii : c.toNat < 128) {value : Nat}
    (hvalue : value < 32) :
    tableValue c = value ↔ lower c = alphabetChar value := by
  obtain ⟨halphabet, hsmall, hback⟩ := alphabetChar_spec hvalue
  have hsame : lower (alphabetChar value) = alphabetChar value := by
    rw [lower, hsmall]
    rfl
  constructor
  · intro htable
    have hall : ∀ c : Fin 128, tableValue (UInt8.ofNat c.val) < 32 →
        alphabetChar (tableValue (UInt8.ofNat c.val)) =
          lower (UInt8.ofNat c.val) := by decide +kernel
    have hc := hall ⟨c.toNat, hascii⟩
    rw [UInt8.ofNat_toNat, htable] at hc
    exact (hc hvalue).symm
  · intro hlower
    rw [hsame] at halphabet
    rw [tableValue_eq (hlower ▸ halphabet), charValue, hlower, ← hsame]
    exact hback

theorem tableValue_alphabetChar {value : Nat} (hvalue : value < 32) :
    tableValue (alphabetChar value) = value := by
  obtain ⟨halphabet, hsmall, -⟩ := alphabetChar_spec hvalue
  have hsame : lower (alphabetChar value) = alphabetChar value := by
    rw [lower, hsmall]
    rfl
  exact (tableValue_eq_iff (ascii_of_alphabet halphabet) hvalue).mpr hsame

/-- A checksum goes on fitting when a data character becomes its capital, and
when it becomes no other one. -/
theorem checksumFits_change {value : Nat} (hvalue : value < 32)
    (hascii : c.toNat < 128)
    (hfits : ChecksumFits hrp (front ++ alphabetChar value :: back) chk) :
    ChecksumFits hrp (front ++ c :: back) chk ↔
      lower c = alphabetChar value := by
  rw [← tableValue_eq_iff hascii hvalue]
  have hspells := decoderChecksum_spells hrp
    (front ++ alphabetChar value :: back)
  have hspells' := decoderChecksum_spells hrp (front ++ c :: back)
  constructor
  · intro hfits'
    have hvalues := ((eq_map_alphabetChar_iff hspells.digits).mp hfits).2.2
    have hvalues' := ((eq_map_alphabetChar_iff hspells'.digits).mp hfits').2.2
    have hsame := hspells'.value_eq
    rw [← hvalues', hvalues, hspells.value_eq] at hsame
    simp only [List.map_append, List.map_cons, ← List.append_assoc,
      tableValue_alphabetChar hvalue] at hsame
    apply (Bech32.checksum_injective _ hsame).symm
    have hexpanded : ∀ v ∈ boatExpandHrp hrp, v < 2 ^ 30 := fun v hmem =>
      Nat.lt_trans (boatExpandHrp_lt hrp v hmem) (by decide)
    have htable : ∀ chars : List UInt8, ∀ v ∈ chars.map tableValue,
        v < 2 ^ 30 := by
      intro chars v hmem
      obtain ⟨d, -, rfl⟩ := List.mem_map.mp hmem
      exact Nat.lt_trans (tableValue_lt d) (by decide)
    simp only [List.forall_mem_append, List.forall_mem_cons]
    exact ⟨⟨hexpanded, htable front⟩, by omega,
      Nat.lt_trans (tableValue_lt c) (by decide), htable back⟩
  · intro htable
    have hsame : decoderChecksum hrp (front ++ c :: back) =
        decoderChecksum hrp (front ++ alphabetChar value :: back) := by
      simp only [decoderChecksum, List.map_append, List.map_cons, htable,
        tableValue_alphabetChar hvalue]
    rw [ChecksumFits, hsame]
    exact hfits

/-- A changed text is taken apart where the text was. -/
theorem reading_of_change (hhrp : 1 ≤ hrp.length ∧ hrp.length ≤ 83)
    (hfirst : separator ∉ hrp) (hdata : 0 < data.length ∧ data.length < 2 ^ 31)
    (hchk : chk.length = 6) :
    Reading (hrp ++ separator :: (data ++ chk)) hrp data chk :=
  ⟨rfl, hfirst, hhrp, hdata, hchk⟩

theorem set_behind (rest : List UInt8) (k : Nat) :
    (hrp ++ separator :: rest).set (hrp.length + 1 + k) c =
      hrp ++ separator :: rest.set k c := by
  have hindex : hrp.length + 1 + k - hrp.length = k + 1 := by omega
  rw [List.set_append, if_neg (by omega), hindex, List.set_cons_succ]

theorem getD_behind (rest : List UInt8) (k : Nat) :
    (hrp ++ separator :: rest).getD (hrp.length + 1 + k) 0 = rest.getD k 0 := by
  have hindex : hrp.length + 1 + k - hrp.length = k + 1 := by omega
  rw [List.getD_append_right _ _ _ _ (by omega), hindex, List.getD_cons_succ]

theorem getD_letters {values : List Nat} {k : Nat} (hk : k < values.length) :
    (values.map alphabetChar).getD k 0 = alphabetChar (values.getD k 0) := by
  have hlength : k < (values.map alphabetChar).length := by
    rwa [List.length_map]
  rw [List.getD_eq_getElem _ _ hlength, List.getElem_map,
    List.getD_eq_getElem _ _ hk]

/-- A text without data characters is not taken apart. -/
theorem refuses_empty (hhrp : hrp.length ≤ 83) (hfirst : separator ∉ hrp)
    (hchk : chk.length = 6) :
    boatPlatONBech32Decode (hrp ++ separator :: chk) = .ok (-1, []) := by
  have hoffset : (hrp ++ separator :: chk).idxOf separator = hrp.length := by
    rw [List.idxOf_append_of_notMem hfirst, List.idxOf_cons_self, Nat.add_zero]
  have hlength : (hrp ++ separator :: chk).length = hrp.length + 7 := by
    rw [List.length_append, List.length_cons, hchk]
  apply decode_of_unread
  · omega
  · omega
  · intro hrp' data chk' hreading
    have hwhole := hreading.length_input
    have hplace := hreading.idxOf_separator
    have hdata := hreading.length_data
    omega

section Change

variable {values : List Nat} {k : Nat}

theorem ascii_values (hvalues : Regroup.Digits 5 values) :
    ∀ d ∈ values.map alphabetChar, d.toNat < 128 := by
  intro d hmem
  obtain ⟨value, hvalue, rfl⟩ := List.mem_map.mp hmem
  exact ascii_of_alphabet (alphabetChar_spec (hvalues value hvalue)).1

/-- A changed data character is refused unless it is outside the table or the
capital of the one that stood there. -/
theorem refuses_data_iff (hvalues : Regroup.Digits 5 values)
    (hk : k < values.length)
    (hreading : Reading text hrp ((values.map alphabetChar).set k c) chk)
    (hfits : ChecksumFits hrp (values.map alphabetChar) chk) :
    boatPlatONBech32Decode text = .ok (-1, []) ↔
      ¬(128 ≤ c.toNat ∨ lower c = alphabetChar (values.getD k 0)) := by
  have hvalue : values.getD k 0 < 32 := by
    rw [List.getD_eq_getElem values 0 hk]
    exact hvalues _ (List.getElem_mem hk)
  have hlength : k < (values.map alphabetChar).length := by
    rwa [List.length_map]
  have hsplit : values.map alphabetChar =
      (values.take k).map alphabetChar ++
        alphabetChar (values.getD k 0) :: (values.drop (k + 1)).map
          alphabetChar := by
    rw [List.getD_eq_getElem values 0 hk, ← List.map_cons, ← List.map_append,
      ← List.drop_eq_getElem_cons hk, List.take_append_drop]
  have hchanged : (values.map alphabetChar).set k c =
      (values.take k).map alphabetChar ++
        c :: (values.drop (k + 1)).map alphabetChar := by
    rw [List.set_eq_take_append_cons_drop, if_pos hlength, List.map_take,
      List.map_drop]
  have hothers := ascii_values hvalues
  rw [hsplit] at hfits hothers
  rw [hchanged] at hreading
  rw [decode_refuses_iff hreading]
  by_cases hascii : c.toNat < 128
  · rw [checksumFits_change hvalue hascii hfits]
    have hall : ∀ d ∈ (values.take k).map alphabetChar ++
        c :: (values.drop (k + 1)).map alphabetChar, d.toNat < 128 := by
      simp only [List.forall_mem_append, List.forall_mem_cons] at hothers ⊢
      exact ⟨hothers.1, hascii, hothers.2.2⟩
    constructor
    · rintro ⟨-, hother⟩ (hbyte | hcapital)
      · omega
      · exact hother hcapital
    · exact fun hrest => ⟨hall, fun hcapital => hrest (.inr hcapital)⟩
  · constructor
    · rintro ⟨hall, -⟩
      exact absurd (hall c (by simp)) hascii
    · exact fun hrest => absurd (.inl (by omega)) hrest

/-- A changed character of the checksum is refused. -/
theorem refuses_checksum (hvalues : Regroup.Digits 5 values)
    (hk : k < chk.length) (hother : c ≠ chk.getD k 0)
    (hreading : Reading text hrp (values.map alphabetChar) (chk.set k c))
    (hfits : ChecksumFits hrp (values.map alphabetChar) chk) :
    boatPlatONBech32Decode text = .ok (-1, []) := by
  apply decode_of_unfit hreading (ascii_values hvalues)
  intro hfits'
  have hsame : chk.set k c = chk := hfits'.trans hfits.symm
  have hread := congrArg (·.getD k 0) hsame
  rw [List.getD_eq_getElem?_getD, List.getElem?_set_self hk] at hread
  exact hother hread

end Change

/-- The checksum of an encoded text fits. -/
theorem checksumFits_encoded (bytes hrp : List UInt8) :
    ChecksumFits hrp ((base32Values bytes).map alphabetChar)
      ((boatBech32Polymod (boatExpandHrp hrp) (base32Values bytes)).map
        alphabetChar) := by
  have hback : ∀ value ∈ base32Values bytes,
      (tableValue ∘ alphabetChar) value = id value := fun value hmem =>
    tableValue_alphabetChar ((base32Values_regroups bytes).digits value hmem)
  rw [ChecksumFits, decoderChecksum, List.map_map, List.map_congr_left hback,
    List.map_id]

theorem checkedValue_small (value : UInt8) : checkedValue value < 2 ^ 30 :=
  Nat.lt_trans (checkedValue_lt value) (by decide)

theorem dividedValues_small (hrp data : List UInt8) :
    ∀ value ∈ dividedValues hrp data, value < 2 ^ 30 := by
  rw [dividedValues, ← boatExpandHrp_masked, List.forall_mem_append]
  constructor
  · intro value hmem
    exact Nat.lt_trans (boatExpandHrp_lt hrp value hmem) (by decide)
  · intro value hmem
    obtain ⟨c, -, rfl⟩ := List.mem_map.mp hmem
    exact checkedValue_small c

/-- The remainder of a division in which one character is changed. -/
theorem polymod_change (hrp : List UInt8) {behind : List UInt8} {j : Nat}
    (hj : j < behind.length) (c : UInt8) :
    Bech32.polymod (dividedValues hrp (behind.set j c)) =
      Bech32.polymod (dividedValues hrp behind) ^^^
        Bech32.effect (checkedValue (behind.getD j 0) ^^^ checkedValue c)
          (behind.length - 1 - j) := by
  have hsplit : behind = behind.take j ++ behind[j] :: behind.drop (j + 1) := by
    rw [← List.drop_eq_getElem_cons hj, List.take_append_drop]
  have hset : behind.set j c = behind.take j ++ c :: behind.drop (j + 1) := by
    rw [List.set_eq_take_append_cons_drop, if_pos hj]
  have hsmall := dividedValues_small hrp behind
  have herror : checkedValue behind[j] ^^^ checkedValue c < 2 ^ 30 :=
    Nat.xor_lt_two_pow (checkedValue_small _) (checkedValue_small _)
  have hbehind : ((behind.drop (j + 1)).map checkedValue).length =
      behind.length - 1 - j := by
    rw [List.length_map, List.length_drop]
    omega
  rw [List.getD_eq_getElem behind 0 hj, ← hbehind, hset]
  generalize hold : behind[j] = old at *
  generalize behind.take j = before at *
  generalize behind.drop (j + 1) = after at *
  subst hsplit
  simp only [dividedValues, List.map_append, List.map_cons,
    ← List.append_assoc] at hsmall ⊢
  rw [← Bech32.polymod_error hsmall herror, Nat.xor_xor_cancel_left]

/-- Small letters behind a division spell its checksum where nothing remains. -/
theorem spelt_iff_polymod (hchk : chk.length = 6) :
    Spelt hrp data chk ↔
      (∀ c ∈ chk, lower c ∈ Bech32.alphabet ∧ isUpper c = false) ∧
        Bech32.polymod (dividedValues hrp (data ++ chk)) = 1 := by
  have hverifies (hletters : ∀ c ∈ chk, lower c ∈ Bech32.alphabet) :
      Bech32.polymod (dividedValues hrp (data ++ chk)) = 1 ↔
        Regroup.value 5 (chk.map charValue) = dividedChecksum hrp data := by
    rw [dividedValues, List.map_append, ← List.append_assoc,
      List.map_congr_left fun c hmem => checkedValue_eq (hletters c hmem)]
    apply Bech32.polymod_append_eq_one_iff _ (digits_charValue hletters)
    rw [List.length_map, hchk]
  constructor
  · intro hspelt
    exact ⟨fun c hmem => ⟨hspelt.inAlphabet c hmem, hspelt.small c hmem⟩,
      (hverifies hspelt.inAlphabet).mpr hspelt.value_eq⟩
  · rintro ⟨hletters, hone⟩
    have halphabet := fun c hmem => (hletters c hmem).1
    exact ⟨halphabet, fun c hmem => (hletters c hmem).2,
      (hverifies halphabet).mp hone⟩

section Division

variable {middle letters behind : List UInt8} {j k : Nat}

/-- The characters in front of the checksum are in the table when those of the
prefix are, and the new one. -/
theorem ascii_change_iff (middle : List UInt8)
    (hletters : ∀ d ∈ letters, d.toNat < 128) (hlength : 6 ≤ letters.length)
    (hj : middle.length < j) :
    (∀ d ∈ ((middle ++ separator :: letters).set j c).take
        ((middle ++ separator :: letters).length - 6), d.toNat < 128) ↔
      (∀ d ∈ middle, d.toNat < 128) ∧
        (j < (middle ++ separator :: letters).length - 6 → c.toNat < 128) := by
  have hmiddle : middle.length ≤
      (middle ++ separator :: letters).length - 6 := by
    rw [List.length_append, List.length_cons]
    omega
  rw [List.take_set]
  constructor
  · intro hall
    constructor
    · intro d hmem
      apply hall
      have hset : ((middle ++ separator :: letters).take
          ((middle ++ separator :: letters).length - 6)).set j c =
          middle ++ ((separator :: letters).take
            ((middle ++ separator :: letters).length - 6 - middle.length)).set
              (j - middle.length) c := by
        rw [List.take_append, List.take_of_length_le hmiddle,
          List.set_append, if_neg (by omega)]
      rw [hset]
      exact List.mem_append_left _ hmem
    · intro hdata
      apply hall
      apply List.mem_set
      rw [List.length_take]
      omega
  · rintro ⟨hfront, hdata⟩ d hmem
    have hwhole : ∀ d ∈ middle ++ separator :: letters, d.toNat < 128 := by
      simp only [List.forall_mem_append, List.forall_mem_cons]
      exact ⟨hfront, by decide, hletters⟩
    by_cases hlow : j < (middle ++ separator :: letters).length - 6
    · rcases List.mem_or_eq_of_mem_set hmem with hmem | rfl
      · exact hwhole d (List.mem_of_mem_take hmem)
      · exact hdata hlow
    · rw [List.set_eq_of_length_le (by rw [List.length_take]; omega)] at hmem
      exact hwhole d (List.mem_of_mem_take hmem)

/-- The checksum is one of small letters when the new character is one or
stands in front of it. -/
theorem small_change_iff
    (hchk : ∀ d ∈ behind.drop (behind.length - 6),
      lower d ∈ Bech32.alphabet ∧ isUpper d = false)
    (hj : j < behind.length) :
    (∀ d ∈ (behind.set j c).drop (behind.length - 6),
        lower d ∈ Bech32.alphabet ∧ isUpper d = false) ↔
      (behind.length - 6 ≤ j →
        lower c ∈ Bech32.alphabet ∧ isUpper c = false) := by
  rw [List.drop_set]
  split
  next hlow =>
    exact iff_of_true hchk fun hhigh => absurd hlow (by omega)
  next hhigh =>
    constructor
    · intro hall _
      apply hall
      apply List.mem_set
      rw [List.length_drop]
      omega
    · intro hsmall d hmem
      rcases List.mem_or_eq_of_mem_set hmem with hmem | rfl
      · exact hchk d hmem
      · exact hsmall (by omega)

theorem xor_eq_one_iff (remainder error : Nat) :
    remainder ^^^ error = 1 ↔ error = remainder ^^^ 1 := by
  constructor
  · intro hone
    rw [← hone, Nat.xor_xor_cancel_left]
  · intro herror
    rw [herror, Nat.xor_xor_cancel_left]

/-- A changed text that is taken apart at the first separator of its prefix. -/
theorem refuses_division_iff (hdivision : FirstDivision hrp front middle)
    (hhrp : hrp.length ≤ 83)
    (hletters : ∀ d ∈ letters, lower d ∈ Bech32.alphabet ∧ isUpper d = false)
    (hlength : 6 ≤ letters.length ∧ letters.length < 2 ^ 30)
    (hk : k < letters.length) :
    boatPlatONBech32Decode
        ((hrp ++ separator :: letters).set (hrp.length + 1 + k) c) =
        .ok (-1, []) ↔
      ((∀ d ∈ middle, d.toNat < 128) ∧
        (k < letters.length - 6 → c.toNat < 128)) ∧
      ¬((letters.length - 6 ≤ k →
          lower c ∈ Bech32.alphabet ∧ isUpper c = false) ∧
        Bech32.effect (checkedValue (letters.getD k 0) ^^^ checkedValue c)
            (letters.length - 1 - k) =
          Bech32.polymod
            (dividedValues front (middle ++ separator :: letters)) ^^^ 1) := by
  obtain ⟨rfl, hfirst, hfront⟩ := hdivision
  have hpositive := List.length_pos_iff.mpr hfront
  rw [List.length_append, List.length_cons] at hhrp
  have hbehind : (middle ++ separator :: letters).length =
      middle.length + 1 + letters.length := by
    rw [List.length_append, List.length_cons]
    omega
  have hplace : (front ++ separator :: middle).length + 1 + k =
      front.length + 1 + (middle.length + 1 + k) := by
    rw [List.length_append, List.length_cons]
    omega
  have hold : (middle ++ separator :: letters).getD (middle.length + 1 + k) 0 =
      letters.getD k 0 := getD_behind letters k
  have hchk : ∀ d ∈ (middle ++ separator :: letters).drop
      ((middle ++ separator :: letters).length - 6),
      lower d ∈ Bech32.alphabet ∧ isUpper d = false := by
    intro d hmem
    rw [hbehind, List.drop_append, List.drop_of_length_le (by omega),
      List.nil_append] at hmem
    obtain ⟨n, hn⟩ : ∃ n, middle.length + 1 + letters.length - 6 -
        middle.length = n + 1 := ⟨letters.length - 6, by omega⟩
    rw [hn, List.drop_succ_cons] at hmem
    exact hletters d (List.mem_of_mem_drop hmem)
  have htable := ascii_change_iff (c := c) (j := middle.length + 1 + k) middle
    (fun d hmem => ascii_of_alphabet (hletters d hmem).1) hlength.1 (by omega)
  rw [List.append_assoc, List.cons_append, hplace, set_behind, ← hold]
  generalize middle ++ separator :: letters = behind at *
  have hchanged : (behind.set (middle.length + 1 + k) c).length =
      behind.length := List.length_set
  have hreading : Reading
      (front ++ separator :: behind.set (middle.length + 1 + k) c) front
      ((behind.set (middle.length + 1 + k) c).take (behind.length - 6))
      ((behind.set (middle.length + 1 + k) c).drop (behind.length - 6)) := by
    refine ⟨?_, hfirst, by omega, ?_, ?_⟩
    · rw [List.take_append_drop]
    · rw [List.length_take]
      omega
    · rw [List.length_drop]
      omega
  have hbefore : middle.length + 1 + k < behind.length - 6 ↔
      k < letters.length - 6 := by omega
  have hwithin : behind.length - 6 ≤ middle.length + 1 + k ↔
      letters.length - 6 ≤ k := by omega
  have hremaining : behind.length - 1 - (middle.length + 1 + k) =
      letters.length - 1 - k := by omega
  rw [hbefore] at htable
  rw [decode_refuses_iff hreading, htable, ← hwithin, ← hremaining]
  refine and_congr_right fun hascii => not_congr ?_
  rw [checksumFits_iff (htable.mpr hascii) hreading.length_chk,
    spelt_iff_polymod hreading.length_chk, List.take_append_drop,
    small_change_iff hchk (by omega),
    polymod_change front (by omega), xor_eq_one_iff]

end Division

theorem FirstDivision.separator_mem (hdivision : FirstDivision hrp front back) :
    separator ∈ hrp := by
  rw [hdivision.prefix_eq]
  simp

theorem FirstDivision.unique {front' back' : List UInt8}
    (hdivision : FirstDivision hrp front back)
    (hdivision' : FirstDivision hrp front' back') :
    front = front' ∧ back = back' := by
  have hplace := hdivision.prefix_eq.symm.trans hdivision'.prefix_eq
  have hoffset := congrArg (·.idxOf separator) hplace
  simp only [List.idxOf_append_of_notMem hdivision.first,
    List.idxOf_append_of_notMem hdivision'.first,
    List.idxOf_cons_self] at hoffset
  obtain ⟨hfront, hback⟩ := List.append_inj hplace (by omega)
  exact ⟨hfront, (List.cons.inj hback).2⟩

/-- A changed character that stands in front of the checksum. -/
theorem undetected_data_iff (hfirst : separator ∉ hrp)
    (hdata : i < text.length - 6) :
    Undetected hrp text i c ↔ 128 ≤ c.toNat ∨ lower c = text.getD i 0 := by
  constructor
  · intro hundetected
    cases hundetected with
    | table _ _ hbyte => exact .inl hbyte
    | capital _ _ hcapital => exact .inr hcapital
    | prefixTable hdivision => exact absurd hdivision.separator_mem hfirst
    | undone hdivision => exact absurd hdivision.separator_mem hfirst
  · rintro (hbyte | hcapital)
    · apply Undetected.table _ hdata hbyte
      intro hhead
      exact hfirst (List.mem_of_mem_head? hhead)
    · exact .capital hfirst hdata hcapital

/-- The characters of an encoded text behind its prefix. -/
def encodedLetters (bytes hrp : List UInt8) : List UInt8 :=
  (base32Values bytes).map alphabetChar ++
    (boatBech32Polymod (boatExpandHrp hrp) (base32Values bytes)).map
      alphabetChar

theorem bech32Text_eq (bytes hrp : List UInt8) :
    bech32Text bytes hrp = hrp ++ separator :: encodedLetters bytes hrp :=
  rfl

theorem encodedLetters_small (bytes hrp : List UInt8) :
    ∀ d ∈ encodedLetters bytes hrp,
      lower d ∈ Bech32.alphabet ∧ isUpper d = false := by
  have hletters {values : List Nat} (hvalues : Regroup.Digits 5 values) :
      ∀ d ∈ values.map alphabetChar,
        lower d ∈ Bech32.alphabet ∧ isUpper d = false := by
    intro d hmem
    obtain ⟨value, hvalue, rfl⟩ := List.mem_map.mp hmem
    obtain ⟨halphabet, hsmall, -⟩ := alphabetChar_spec (hvalues value hvalue)
    exact ⟨halphabet, hsmall⟩
  rw [encodedLetters, List.forall_mem_append]
  exact ⟨hletters (base32Values_regroups bytes).digits,
    hletters (chksum_spells bytes hrp).digits⟩

/-- A prefix that starts with a separator keeps its texts from being read. -/
theorem not_undetected_of_head (hhead : hrp.head? = some separator) :
    ¬Undetected hrp text i c := by
  have hnone (front middle : List UInt8) : ¬FirstDivision hrp front middle := by
    rintro ⟨rfl, hfirst, hfront⟩
    rw [List.head?_append_of_ne_nil _ hfront] at hhead
    exact hfirst (List.mem_of_mem_head? hhead)
  intro hundetected
  cases hundetected with
  | table hfront _ _ => exact hfront hhead
  | capital hfirst _ _ => exact hfirst (List.mem_of_mem_head? hhead)
  | prefixTable hdivision => exact hnone _ _ hdivision
  | undone hdivision => exact hnone _ _ hdivision

/-- A changed text behind a prefix that starts with a separator is refused. -/
theorem refuses_of_head {k : Nat} (hstart : hrp = [] ++ separator :: back)
    (hlength : (bech32Text bytes hrp).length < 2 ^ 30) :
    boatPlatONBech32Decode
        ((bech32Text bytes hrp).set (hrp.length + 1 + k) c) = .ok (-1, []) := by
  have hoffset : ((bech32Text bytes hrp).set
      (hrp.length + 1 + k) c).idxOf separator = 0 := by
    rw [bech32Text_eq, set_behind, hstart, List.nil_append, List.cons_append,
      List.idxOf_cons_self]
  apply decode_of_unread
  · rw [List.length_set]
    omega
  · omega
  · intro hrp' data chk hreading
    have hplace := hreading.idxOf_separator
    have hpositive := hreading.length_hrp
    omega

/-- A changed character of a text that is divided in its prefix. -/
theorem undetected_division_iff (hdivision : FirstDivision hrp front back) :
    Undetected hrp text i c ↔
      (i < text.length - 6 ∧ 128 ≤ c.toNat ∨ ∃ d ∈ back, 128 ≤ d.toNat) ∨
      (text.length - 6 ≤ i →
        lower c ∈ Bech32.alphabet ∧ isUpper c = false) ∧
      Bech32.effect (checkedValue (text.getD i 0) ^^^ checkedValue c)
          (text.length - 1 - i) =
        Bech32.polymod
          (dividedValues front (text.drop (front.length + 1))) ^^^ 1 := by
  constructor
  · intro hundetected
    cases hundetected with
    | table _ hdata hbyte => exact .inl (.inl ⟨hdata, hbyte⟩)
    | capital hfirst _ _ => exact absurd hdivision.separator_mem hfirst
    | prefixTable hdivision' hmem hbyte =>
        obtain ⟨-, rfl⟩ := hdivision.unique hdivision'
        exact .inl (.inr ⟨_, hmem, hbyte⟩)
    | undone hdivision' hsmall hremainder =>
        obtain ⟨rfl, -⟩ := hdivision.unique hdivision'
        exact .inr ⟨hsmall, hremainder⟩
  · rintro ((⟨hdata, hbyte⟩ | ⟨d, hmem, hbyte⟩) | ⟨hsmall, hremainder⟩)
    · apply Undetected.table _ hdata hbyte
      intro hhead
      rw [hdivision.prefix_eq,
        List.head?_append_of_ne_nil _ hdivision.front_ne] at hhead
      exact hdivision.first (List.mem_of_mem_head? hhead)
    · exact .prefixTable hdivision hmem hbyte
    · exact .undone hdivision hsmall hremainder

/-- The texts with a separator in their prefix. -/
theorem detects_divided_iff {k : Nat} (hhrp : hrp.length ≤ 83)
    (hseparator : separator ∈ hrp)
    (hlength : (bech32Text bytes hrp).length ≤ 90)
    (hk : hrp.length + 1 + k < (bech32Text bytes hrp).length) :
    boatPlatONBech32Decode
        ((bech32Text bytes hrp).set (hrp.length + 1 + k) c) = .ok (-1, []) ↔
      ¬Undetected hrp (bech32Text bytes hrp) (hrp.length + 1 + k) c := by
  have htext := length_bech32Text bytes hrp
  have hbehind : (bech32Text bytes hrp).length =
      hrp.length + 1 + (encodedLetters bytes hrp).length := by
    rw [bech32Text_eq, List.length_append, List.length_cons]
    omega
  obtain ⟨front, middle, hstart, hfirst⟩ :=
    List.eq_append_cons_of_mem hseparator
  by_cases hfront : front = []
  · subst hfront
    have hhead : hrp.head? = some separator := by rw [hstart]; rfl
    exact iff_of_true (refuses_of_head hstart (by omega))
      (not_undetected_of_head hhead)
  · have hdivision : FirstDivision hrp front middle := ⟨hstart, hfirst, hfront⟩
    have hdrop : (bech32Text bytes hrp).drop (front.length + 1) =
        middle ++ separator :: encodedLetters bytes hrp := by
      rw [bech32Text_eq, hstart, List.append_assoc,
        List.drop_length_add_append]
      rfl
    rw [undetected_division_iff hdivision, hdrop, hbehind, bech32Text_eq,
      getD_behind, refuses_division_iff hdivision hhrp
        (encodedLetters_small bytes hrp) (by omega) (by omega)]
    have hlow : hrp.length + 1 + k <
        hrp.length + 1 + (encodedLetters bytes hrp).length - 6 ↔
          k < (encodedLetters bytes hrp).length - 6 := by omega
    have hhigh : hrp.length + 1 + (encodedLetters bytes hrp).length - 6 ≤
        hrp.length + 1 + k ↔ (encodedLetters bytes hrp).length - 6 ≤ k := by
      omega
    have hremaining : hrp.length + 1 + (encodedLetters bytes hrp).length - 1 -
        (hrp.length + 1 + k) = (encodedLetters bytes hrp).length - 1 - k := by
      omega
    rw [hlow, hhigh, hremaining, not_or]
    refine and_congr_left fun _ => ?_
    constructor
    · rintro ⟨hmiddle, hchanged⟩ (⟨hdata, hbyte⟩ | ⟨d, hmem, hbyte⟩)
      · have := hchanged hdata
        omega
      · have := hmiddle d hmem
        omega
    · intro hnone
      constructor
      · intro d hmem
        by_contra hbyte
        exact hnone (.inr ⟨d, hmem, by omega⟩)
      · intro hdata
        by_contra hbyte
        exact hnone (.inl ⟨hdata, by omega⟩)

/-- Of the changes of one character behind the separator, all are refused but
those of the four kinds. -/
theorem detects_iff
    (hencode : boatPlatONBech32Encode bytes hrp = .ok (text.length, text))
    (hlength : text.length ≤ 90) (hlow : hrp.length < i)
    (hhigh : i < text.length) (hother : c ≠ text.getD i 0) :
    boatPlatONBech32Decode (text.set i c) = .ok (-1, []) ↔
      ¬Undetected hrp text i c := by
  obtain ⟨hhrp, rfl⟩ := encode_eq_ok hencode
  obtain ⟨k, rfl⟩ : ∃ k, i = hrp.length + 1 + k :=
    ⟨i - hrp.length - 1, by omega⟩
  by_cases hfirst : separator ∈ hrp
  · exact detects_divided_iff hhrp.2 hfirst hlength hhigh
  have hdigits := (base32Values_regroups bytes).digits
  have hfits := checksumFits_encoded bytes hrp
  have hspells := chksum_spells bytes hrp
  have hvalues := length_base32Values bytes
  have htext := length_bech32Text bytes hrp
  have hcount : ((base32Values bytes).map alphabetChar).length =
      (base32Values bytes).length := List.length_map _
  have hchk : ((boatBech32Polymod (boatExpandHrp hrp)
      (base32Values bytes)).map alphabetChar).length = 6 := by
    rw [List.length_map, hspells.length]
  rw [bech32Text, getD_behind] at hother
  by_cases hdata : k < (base32Values bytes).length
  · rw [undetected_data_iff hfirst (by omega), bech32Text, set_behind,
      getD_behind, List.set_append, if_pos (by omega),
      List.getD_append _ _ _ _ (by omega), getD_letters hdata]
    apply refuses_data_iff hdigits hdata _ hfits
    apply reading_of_change hhrp hfirst _ hchk
    rw [List.length_set]
    omega
  · apply iff_of_true
    · rw [bech32Text, set_behind, List.set_append, if_neg (by omega)]
      by_cases hempty : (base32Values bytes).length = 0
      · have hnil : (base32Values bytes).map alphabetChar = [] :=
          List.length_eq_zero_iff.mp (hcount.trans hempty)
        rw [hnil, List.nil_append]
        apply refuses_empty hhrp.2 hfirst
        rw [List.length_set, hchk]
      · rw [List.getD_append_right _ _ _ _ (by omega)] at hother
        apply refuses_checksum hdigits (by omega) hother _ hfits
        apply reading_of_change hhrp hfirst (by omega)
        rw [List.length_set, hchk]
    · intro hundetected
      cases hundetected with
      | table _ hdata' _ => omega
      | capital _ hdata' _ => omega
      | prefixTable hdivision => exact hfirst hdivision.separator_mem
      | undone hdivision => exact hfirst hdivision.separator_mem

/-- `l1lulzkvtc` with a `q` as its third character is refused. -/
theorem detects_third : ¬Undetected [0x6C]
    [0x6C, 0x31, 0x6C, 0x75, 0x6C, 0x7A, 0x6B, 0x76, 0x74, 0x63] 2 0x71 :=
  (detects_iff (show boatPlatONBech32Encode [0xFF] [0x6C] = .ok (10,
      [0x6C, 0x31, 0x6C, 0x75, 0x6C, 0x7A, 0x6B, 0x76, 0x74, 0x63]) by decide)
    (by decide) (by decide) (by decide) (by decide)).mp (by decide)

/-- `l1Lulzkvtc` is accepted in place of `l1lulzkvtc`. -/
theorem not_detects :
    ¬ ∀ (bytes hrp text : List UInt8) (i : Nat) (c : UInt8),
      boatPlatONBech32Encode bytes hrp = .ok (text.length, text) →
      text.length ≤ 90 → hrp.length < i → i < text.length →
      c ≠ text.getD i 0 →
      boatPlatONBech32Decode (text.set i c) = .ok (-1, []) := by
  intro hclaim
  have hrefused := hclaim [0xFF] [0x6C]
    [0x6C, 0x31, 0x6C, 0x75, 0x6C, 0x7A, 0x6B, 0x76, 0x74, 0x63] 2 0x4C
    (by decide) (by decide) (by decide) (by decide) (by decide)
  exact absurd hrefused (by decide)

end BoatFramework
