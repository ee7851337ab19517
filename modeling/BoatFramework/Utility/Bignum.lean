/-
`UtilityReadBigendToBignum` and `UtilityWriteBignumToBigend`: 32 bytes to eight
limbs of 30 bits and one of 16 and back.  Both shift across the words by two
bits more in every round.
-/
import BoatFramework.Base.Limbs
import BoatFramework.Tx.Fields
import BoatFramework.Utility.Bigend
import BoatFramework.Utility.Result

namespace BoatFramework

open ByteString

/-- `UtilityReadBigendToBignum` from the word at `i` on, lowest word first;
`temp` is what is left of the word before. -/
def readBignum (i temp : Nat) : List Nat → List Nat
  | [] => [temp]
  | limb :: limbs =>
      ((temp ||| buint32 (limb <<< (2 * i))) &&& 0x3FFFFFFF) ::
        readBignum (i + 1) (limb >>> (30 - 2 * i)) limbs

/-- `UtilityWriteBignumToBigend`, highest limb first. -/
def writeBignum (i temp : Nat) : List Nat → List UInt8
  | [] => []
  | limb :: limbs =>
      let word := buint32 (temp <<< (16 + 2 * i)) ||| (limb >>> (14 - 2 * i))
      [UInt8.ofNat (word >>> 24), UInt8.ofNat (word >>> 16),
        UInt8.ofNat (word >>> 8), UInt8.ofNat word] ++
        writeBignum (i + 1) limb limbs

/-- The words of a big-endian string, first one first. -/
def bigendWords : List UInt8 → List Nat
  | a :: b :: c :: d :: rest => ofBigEndian [a, b, c, d] :: bigendWords rest
  | _ => []

section Shifts

variable {i temp limb : Nat}

/-- The rounds shift by two bits more than the round before. -/
theorem two_pow_shift (hi : i ≤ 15) : 2 ^ (2 * i) * 2 ^ (30 - 2 * i) = 2 ^ 30 := by
  rw [← Nat.pow_add]
  congr 1
  omega

/-- One limb read: what is left of the word before, and the word behind it. -/
theorem readBignum_step (limb : Nat) (hi : i ≤ 15)
    (htemp : temp < 2 ^ (2 * i)) :
    ((temp ||| buint32 (limb <<< (2 * i))) &&& 0x3FFFFFFF) +
        2 ^ 30 * (limb >>> (30 - 2 * i)) = temp + 2 ^ (2 * i) * limb := by
  have hcut := @Limbs.cut_add temp limb _ _ (2 ^ 2) htemp
    (Nat.two_pow_pos (30 - 2 * i))
  have hwide : 2 ^ (2 * i) * (2 ^ (30 - 2 * i) * 2 ^ 2) = 2 ^ 32 := by
    rw [← Nat.mul_assoc, two_pow_shift hi, ← Nat.pow_add]
  have hshifted : buint32 (limb <<< (2 * i)) =
      2 ^ (2 * i) * (limb % (2 ^ (30 - 2 * i) * 2 ^ 2)) := by
    rw [buint32, Nat.shiftLeft_eq, ← hwide, Nat.mul_comm limb,
      Nat.mul_mod_mul_left]
  rw [two_pow_shift hi] at hcut
  rw [hshifted, Limbs.or_above htemp, Nat.shiftRight_eq_div_pow]
  exact (congrArg (· + _) (Nat.and_two_pow_sub_one_eq_mod _ 30)).trans hcut

theorem readBignum_limb_lt :
    (temp ||| buint32 (limb <<< (2 * i))) &&& 0x3FFFFFFF < 2 ^ 30 := by
  exact (Nat.and_two_pow_sub_one_eq_mod _ 30).trans_lt
    (Nat.mod_lt _ (by decide))

theorem readBignum_rest_lt (hi : i ≤ 15) (hlimb : limb < 2 ^ 32) :
    limb >>> (30 - 2 * i) < 2 ^ (2 * (i + 1)) := by
  rw [Nat.shiftRight_eq_div_pow, Nat.div_lt_iff_lt_mul (Nat.two_pow_pos _),
    ← Nat.pow_add]
  have hwidth : 2 * (i + 1) + (30 - 2 * i) = 32 := by omega
  rw [hwidth]
  exact hlimb

/-- The limbs read have the value of the words. -/
theorem readBignum_value {words : List Nat} (hi : i + words.length ≤ 15)
    (htemp : temp < 2 ^ (2 * i)) (hwords : ∀ word ∈ words, word < 2 ^ 32) :
    Nat.ofDigits (2 ^ 30) (readBignum i temp words) =
      temp + 2 ^ (2 * i) * Nat.ofDigits (2 ^ 32) words := by
  induction words generalizing i temp with
  | nil => simp [readBignum]
  | cons limb words ih =>
      rw [List.length_cons] at hi
      have hlimb := hwords limb List.mem_cons_self
      have hstep := readBignum_step limb (by omega) htemp
      have hnext : i + 1 + words.length ≤ 15 := by omega
      have hrest := ih hnext (readBignum_rest_lt (by omega) hlimb)
        fun word hmem => hwords word (List.mem_cons_of_mem _ hmem)
      have hwidth : 2 ^ 30 * 2 ^ (2 * (i + 1)) = 2 ^ (2 * i) * 2 ^ 32 := by
        rw [← Nat.pow_add, ← Nat.pow_add]
        congr 1
        omega
      rw [readBignum, Nat.ofDigits_cons, hrest, Nat.mul_add, ← Nat.add_assoc,
        hstep, ← Nat.mul_assoc, hwidth, Nat.ofDigits_cons]
      ring

theorem readBignum_length (i temp : Nat) (words : List Nat) :
    (readBignum i temp words).length = words.length + 1 := by
  induction words generalizing i temp with
  | nil => rfl
  | cons limb words ih => rw [readBignum, List.length_cons, ih, List.length_cons]

/-- Every limb in front of the last one has 30 bits. -/
theorem readBignum_lt (i temp : Nat) (words : List Nat) :
    ∀ limb ∈ (readBignum i temp words).take words.length, limb < 2 ^ 30 := by
  induction words generalizing i temp with
  | nil => simp [readBignum]
  | cons limb words ih =>
      intro other hmem
      rw [readBignum, List.length_cons, List.take_succ_cons] at hmem
      rcases List.mem_cons.mp hmem with rfl | hmem
      · exact readBignum_limb_lt
      · exact ih _ _ other hmem

/-- One word written: the low bits of the limb before and the high bits of the
limb behind it. -/
theorem writeBignum_word (hi : i ≤ 7) (hlimb : limb < 2 ^ 30) :
    buint32 (temp <<< (16 + 2 * i)) ||| (limb >>> (14 - 2 * i)) =
      limb / 2 ^ (14 - 2 * i) + 2 ^ (16 + 2 * i) * (temp % 2 ^ (16 - 2 * i)) := by
  have hwide : 2 ^ (16 + 2 * i) * 2 ^ (16 - 2 * i) = 2 ^ 32 := by
    rw [← Nat.pow_add]
    congr 1
    omega
  have hhigh : buint32 (temp <<< (16 + 2 * i)) =
      2 ^ (16 + 2 * i) * (temp % 2 ^ (16 - 2 * i)) := by
    rw [buint32, Nat.shiftLeft_eq, ← hwide, Nat.mul_comm temp,
      Nat.mul_mod_mul_left]
  have hlow : limb / 2 ^ (14 - 2 * i) < 2 ^ (16 + 2 * i) := by
    have hwidth : 16 + 2 * i + (14 - 2 * i) = 30 := by omega
    rw [Nat.div_lt_iff_lt_mul (Nat.two_pow_pos _), ← Nat.pow_add, hwidth]
    exact hlimb
  rw [hhigh, Nat.shiftRight_eq_div_pow, Nat.or_comm, Limbs.or_above hlow]

theorem ofBigEndian_word {word : Nat} (hword : word < 2 ^ 32) :
    ofBigEndian [UInt8.ofNat (word >>> 24), UInt8.ofNat (word >>> 16),
      UInt8.ofNat (word >>> 8), UInt8.ofNat word] = word :=
  (ofBigEndian_bigendOctets word 4).trans (Nat.mod_eq_of_lt hword)

theorem writeBignum_length (i temp : Nat) (limbs : List Nat) :
    (writeBignum i temp limbs).length = 4 * limbs.length := by
  induction limbs generalizing i temp with
  | nil => rfl
  | cons limb limbs ih =>
      rw [writeBignum, List.length_append, ih, List.length_cons]
      exact (Nat.add_comm 4 _).trans (Nat.mul_succ 4 _).symm

/-- The bytes written have the value of the limbs. -/
theorem writeBignum_value {limbs : List Nat} (hi : i + limbs.length = 8)
    (hlimbs : ∀ limb ∈ limbs, limb < 2 ^ 30) :
    ofBigEndian (writeBignum i temp limbs) =
      temp % 2 ^ (16 - 2 * i) * 2 ^ (30 * limbs.length) +
        Nat.ofDigits (2 ^ 30) limbs.reverse := by
  induction limbs generalizing i temp with
  | nil =>
      obtain rfl : i = 8 := hi
      simp [writeBignum, Nat.mod_one]
  | cons limb limbs ih =>
      rw [List.length_cons] at hi
      have hlimb := hlimbs limb List.mem_cons_self
      have hrest := @ih (i + 1) limb (by omega)
        fun other hmem => hlimbs other (List.mem_cons_of_mem _ hmem)
      have hword : limb / 2 ^ (14 - 2 * i) +
          2 ^ (16 + 2 * i) * (temp % 2 ^ (16 - 2 * i)) < 2 ^ 32 := by
        rw [← writeBignum_word (by omega) hlimb]
        apply Nat.or_lt_two_pow (buint32_lt _)
        exact (Nat.shiftRight_le _ _).trans_lt (hlimb.trans (by decide))
      have hbytes : 256 ^ (4 * limbs.length) =
          2 ^ (30 * limbs.length) * 2 ^ (14 - 2 * i) := by
        rw [← Nat.pow_add, (by decide : 256 = 2 ^ 8), ← Nat.pow_mul]
        congr 1
        omega
      have hlast : 16 - 2 * (i + 1) = 14 - 2 * i := by omega
      rw [hlast] at hrest
      rw [writeBignum, writeBignum_word (by omega) hlimb, ofBigEndian_append,
        ofBigEndian_word hword, writeBignum_length, hrest, hbytes,
        List.reverse_cons, Nat.ofDigits_append, Nat.ofDigits_singleton,
        List.length_reverse, List.length_cons, ← Nat.pow_mul]
      have hwidth : 2 ^ (16 + 2 * i) * 2 ^ (14 - 2 * i) = 2 ^ 30 := by
        rw [← Nat.pow_add]
        congr 1
        omega
      have hparts := Nat.div_add_mod' limb (2 ^ (14 - 2 * i))
      calc _ = 2 ^ (30 * limbs.length) * (limb / 2 ^ (14 - 2 * i) *
              2 ^ (14 - 2 * i) + limb % 2 ^ (14 - 2 * i)) +
            temp % 2 ^ (16 - 2 * i) * 2 ^ (30 * limbs.length) *
              (2 ^ (16 + 2 * i) * 2 ^ (14 - 2 * i)) +
            Nat.ofDigits (2 ^ 30) limbs.reverse := by ring
        _ = _ := by
          rw [hparts, hwidth, Nat.mul_succ, Nat.pow_add]
          ring

end Shifts

section Words

theorem bigendWords_cons (a b c d : UInt8) (rest : List UInt8) :
    bigendWords (a :: b :: c :: d :: rest) =
      ofBigEndian [a, b, c, d] :: bigendWords rest :=
  rfl

/-- The words of a string of whole words have its value. -/
theorem bigendWords_value {bytes : List UInt8} {count : Nat}
    (hlength : bytes.length = 4 * count) :
    (bigendWords bytes).length = count ∧
      (∀ word ∈ bigendWords bytes, word < 2 ^ 32) ∧
      Nat.ofDigits (2 ^ 32) (bigendWords bytes).reverse =
        ofBigEndian bytes := by
  induction count generalizing bytes with
  | zero =>
      obtain rfl := List.length_eq_zero_iff.mp hlength
      simp [bigendWords]
  | succ count ih =>
      match bytes, hlength with
      | a :: b :: c :: d :: rest, hlength =>
          simp only [List.length_cons] at hlength
          obtain ⟨hcount, hwords, hvalue⟩ := @ih rest (by omega)
          have hrest : rest.length = 4 * count := by omega
          rw [bigendWords_cons]
          refine ⟨by rw [List.length_cons, hcount], ?_, ?_⟩
          · intro word hmem
            rcases List.mem_cons.mp hmem with rfl | hmem
            · exact (ofBigEndian_lt [a, b, c, d]).trans_eq
                (by decide : 256 ^ 4 = 2 ^ 32)
            · exact hwords word hmem
          · rw [List.reverse_cons, Nat.ofDigits_append, hvalue,
              Nat.ofDigits_singleton, List.length_reverse, hcount]
            have hsplit : a :: b :: c :: d :: rest = [a, b, c, d] ++ rest := rfl
            rw [hsplit, ofBigEndian_append, hrest, Nat.pow_mul]
            ring

end Words

section Limbs

variable {limbs : List Nat}

/-- Nine limbs are eight and the top one. -/
theorem limbs_split (hlength : limbs.length = 9) :
    limbs = limbs.take 8 ++ [limbs.getD 8 0] ∧ (limbs.take 8).length = 8 := by
  have hlow : (limbs.take 8).length = 8 := by
    rw [List.length_take, hlength]
    rfl
  refine ⟨?_, hlow⟩
  have htop : limbs.drop 8 = [limbs.getD 8 0] := by
    have hone : (limbs.drop 8).length = 1 := by
      rw [List.length_drop, hlength]
    obtain ⟨top, htop⟩ := List.length_eq_one_iff.mp hone
    have hget : limbs.getD 8 0 = (limbs.drop 8).getD 0 0 := by
      simp [List.getD_eq_getElem?_getD]
    rw [hget, htop]
    rfl
  rw [← htop, List.take_append_drop]

theorem limbs_value (hlength : limbs.length = 9) :
    Nat.ofDigits (2 ^ 30) limbs =
      Nat.ofDigits (2 ^ 30) (limbs.take 8) + 2 ^ 240 * limbs.getD 8 0 := by
  obtain ⟨hsplit, hlow⟩ := limbs_split hlength
  have hvalue := congrArg (Nat.ofDigits (2 ^ 30)) hsplit
  rw [Nat.ofDigits_append, Nat.ofDigits_singleton, hlow, ← Nat.pow_mul] at hvalue
  exact hvalue

/-- Eight limbs of 30 bits and one of 16. -/
structure Normalised (limbs : List Nat) : Prop where
  length : limbs.length = 9
  low : ∀ limb ∈ limbs.take 8, limb < 2 ^ 30
  top : limbs.getD 8 0 < 2 ^ 16

/-- The top limb has 16 bits where the number has 256. -/
theorem normalised_of_value (hlength : limbs.length = 9)
    (hlow : ∀ limb ∈ limbs.take 8, limb < 2 ^ 30)
    (hvalue : Nat.ofDigits (2 ^ 30) limbs < 2 ^ 256) : Normalised limbs := by
  refine ⟨hlength, hlow, ?_⟩
  rw [limbs_value hlength] at hvalue
  by_contra htop
  have hmul := Nat.mul_le_mul_left (2 ^ 240) (Nat.le_of_not_lt htop)
  omega

theorem Normalised.lt (hlimbs : Normalised limbs) :
    ∀ limb ∈ limbs, limb < 2 ^ 30 := by
  obtain ⟨hsplit, _⟩ := limbs_split hlimbs.length
  intro limb hmem
  rw [hsplit] at hmem
  rcases List.mem_append.mp hmem with hlow | htop
  · exact hlimbs.low limb hlow
  · rw [List.mem_singleton.mp htop]
    exact hlimbs.top.trans (by decide)

end Limbs

/-- The limbs that `UtilityReadBigendToBignum` reads. -/
def bignumLimbs (inNumber : List UInt8) : List Nat :=
  readBignum 0 0 (bigendWords inNumber).reverse

/-- The bytes that `UtilityWriteBignumToBigend` writes. -/
def bignumBytes (limbs : List Nat) : List UInt8 :=
  writeBignum 0 (limbs.getD 8 0) (limbs.take 8).reverse

theorem bignumLimbs_value {inNumber : List UInt8}
    (hlength : inNumber.length = 32) :
    Nat.ofDigits (2 ^ 30) (bignumLimbs inNumber) = ofBigEndian inNumber := by
  obtain ⟨hcount, hwords, hvalue⟩ := @bigendWords_value inNumber 8 hlength
  have hread := @readBignum_value 0 0 (bigendWords inNumber).reverse
    (by rw [List.length_reverse, hcount]; decide) (by decide)
    fun word hmem => hwords word (List.mem_reverse.mp hmem)
  rw [bignumLimbs, hread, hvalue]
  simp

theorem bignumLimbs_normalised {inNumber : List UInt8}
    (hlength : inNumber.length = 32) : Normalised (bignumLimbs inNumber) := by
  obtain ⟨hcount, _, _⟩ := @bigendWords_value inNumber 8 hlength
  have hreverse : (bigendWords inNumber).reverse.length = 8 := by
    rw [List.length_reverse, hcount]
  apply normalised_of_value
  · rw [bignumLimbs, readBignum_length, hreverse]
  · have hlt := readBignum_lt 0 0 (bigendWords inNumber).reverse
    rw [hreverse] at hlt
    exact hlt
  · have hbytes := ofBigEndian_lt inNumber
    rw [hlength] at hbytes
    rw [bignumLimbs_value hlength]
    exact hbytes.trans_eq (by decide)

theorem bignumBytes_value {limbs : List Nat} (hlimbs : Normalised limbs) :
    (bignumBytes limbs).length = 32 ∧
      ofBigEndian (bignumBytes limbs) = Nat.ofDigits (2 ^ 30) limbs := by
  obtain ⟨_, hlow⟩ := limbs_split hlimbs.length
  have hreverse : (limbs.take 8).reverse.length = 8 := by
    rw [List.length_reverse, hlow]
  constructor
  · rw [bignumBytes, writeBignum_length, hreverse]
  · have hwrite := @writeBignum_value 0 (limbs.getD 8 0) (limbs.take 8).reverse
      (by rw [hreverse]) fun limb hmem =>
        hlimbs.low limb (List.mem_reverse.mp hmem)
    rw [List.reverse_reverse, hreverse, Nat.mod_eq_of_lt hlimbs.top] at hwrite
    rw [bignumBytes, hwrite, limbs_value hlimbs.length, Nat.mul_comm,
      Nat.add_comm]

/-- Byte strings of one length and one value are the same. -/
theorem eq_of_ofBigEndian_eq {left right : List UInt8}
    (hlength : left.length = right.length)
    (hvalue : ofBigEndian left = ofBigEndian right) : left = right := by
  have hlt (bytes : List UInt8) :
      ∀ digit ∈ bytes.reverse.map UInt8.toNat, digit < 256 := by
    intro digit hdigit
    obtain ⟨byte, _, rfl⟩ := List.mem_map.mp hdigit
    exact byte.toNat_lt
  have hdigits : left.reverse.map UInt8.toNat = right.reverse.map UInt8.toNat :=
    Limbs.eq_of_ofDigits_eq (by decide) (by simpa using hlength) (hlt left)
      (hlt right) hvalue
  have hinjective : Function.Injective UInt8.toNat :=
    fun _ _ heq => UInt8.toNat_inj.mp heq
  exact List.reverse_injective
    (List.map_injective_iff.mpr hinjective hdigits)

/-- A `utilityBignum256`: nine words of 32 bits. -/
structure UtilityBignum256 where
  val : List Nat
  length_val : val.length = 9
  word_lt : ∀ word ∈ val, word < 2 ^ 32

/-- `UtilityReadBigendToBignum`. -/
def utilityReadBigendToBignum (inNumber : Block 32) : UtilityBignum256 where
  val := bignumLimbs inNumber.bytes
  length_val := (bignumLimbs_normalised inNumber.length_bytes).length
  word_lt word hmem :=
    ((bignumLimbs_normalised inNumber.length_bytes).lt word hmem).trans
      (by decide)

/-- `UtilityWriteBignumToBigend`. -/
def utilityWriteBignumToBigend (inNumber : UtilityBignum256) : Block 32 where
  bytes := bignumBytes inNumber.val
  length_bytes := by
    obtain ⟨_, hlow⟩ := limbs_split inNumber.length_val
    rw [bignumBytes, writeBignum_length, List.length_reverse, hlow]

/-- Reading gives normalised limbs of the same number, and reading and writing
undo each other. -/
theorem utilityBignum_roundTrip :
    (∀ inNumber : Block 32,
      Normalised (utilityReadBigendToBignum inNumber).val ∧
        Nat.ofDigits (2 ^ 30) (utilityReadBigendToBignum inNumber).val =
          ofBigEndian inNumber.bytes ∧
        utilityWriteBignumToBigend (utilityReadBigendToBignum inNumber) =
          inNumber) ∧
      ∀ number : {number : UtilityBignum256 // Normalised number.val},
        utilityReadBigendToBignum (utilityWriteBignumToBigend number.1) =
          number.1 := by
  constructor
  · intro inNumber
    have hnormalised := bignumLimbs_normalised inNumber.length_bytes
    have hvalue := bignumLimbs_value inNumber.length_bytes
    refine ⟨hnormalised, hvalue, ?_⟩
    obtain ⟨hlength, hwritten⟩ := bignumBytes_value hnormalised
    have hbytes : bignumBytes (bignumLimbs inNumber.bytes) = inNumber.bytes :=
      eq_of_ofBigEndian_eq (hlength.trans inNumber.length_bytes.symm)
        (hwritten.trans hvalue)
    obtain ⟨bytes, hbytesLength⟩ := inNumber
    exact Block.mk.injEq .. ▸ hbytes
  · rintro ⟨number, hnumber⟩
    obtain ⟨hlength, hwritten⟩ := bignumBytes_value hnumber
    have hnormalised := bignumLimbs_normalised hlength
    have hlimbs : bignumLimbs (bignumBytes number.val) = number.val :=
      Limbs.eq_of_ofDigits_eq (by decide)
        (hnormalised.length.trans hnumber.length.symm) hnormalised.lt hnumber.lt
        ((bignumLimbs_value hlength).trans hwritten)
    obtain ⟨val, hval, hlt⟩ := number
    exact UtilityBignum256.mk.injEq .. ▸ hlimbs

end BoatFramework
