/-
What the bech32 functions compute: the checksum of BIP-173 over the values they
are given, and the reading of a text that the decoder goes by.
-/
import BoatFramework.Platon.Bech32
import BoatFramework.Base.Exec

namespace BoatFramework

open Bech32 (separator)

theorem forall_byte {p : UInt8 → Prop}
    (hall : ∀ n : Fin 256, p (UInt8.ofNat n.val)) (c : UInt8) : p c := by
  have hc := hall ⟨c.toNat, c.toNat_lt⟩
  rwa [UInt8.ofNat_toNat] at hc

theorem ite_xor (p : Prop) [Decidable p] (x y g : Nat) :
    (if p then x ^^^ y ^^^ g else x ^^^ y) = x ^^^ (if p then y ^^^ g else y) := by
  split
  · exact Nat.xor_assoc x y g
  · rfl

/-- The five conditional terms of a step. -/
def reduceTop (chk b : Nat) : Nat :=
  let chk := if b &&& 0x01 ≠ 0 then chk ^^^ 0x3b6a57b2 else chk
  let chk := if b &&& 0x02 ≠ 0 then chk ^^^ 0x26508e6d else chk
  let chk := if b &&& 0x04 ≠ 0 then chk ^^^ 0x1ea119fa else chk
  let chk := if b &&& 0x08 ≠ 0 then chk ^^^ 0x3d4233dd else chk
  if b &&& 0x10 ≠ 0 then chk ^^^ 0x2a1462b3 else chk

theorem reduceTop_eq (chk : Nat) {b : Nat} (hb : b < 32) :
    reduceTop chk b = chk ^^^ Bech32.feedback b := by
  have hpull : reduceTop (chk ^^^ 0) b = chk ^^^ reduceTop 0 b := by
    simp only [reduceTop, ite_xor]
  have hall : ∀ b : Fin 32, reduceTop 0 b.val = Bech32.feedback b.val := by
    decide
  rw [Nat.xor_zero] at hpull
  rw [hpull, hall ⟨b, hb⟩]

theorem boatPolymodStep_eq {chk value : Nat} (hchk : chk < 2 ^ 30)
    (hvalue : value < 256) :
    boatPolymodStep chk value = Bech32.polymodStep chk value := by
  have htop : chk >>> 25 < 32 := by
    rw [Nat.shiftRight_eq_div_pow]
    omega
  have hb : (chk >>> 25) &&& 0x1f = chk >>> 25 :=
    (Nat.and_two_pow_sub_one_eq_mod _ 5).trans (Nat.mod_eq_of_lt htop)
  have hbyte : value &&& 0xFF = value :=
    (Nat.and_two_pow_sub_one_eq_mod _ 8).trans (Nat.mod_eq_of_lt hvalue)
  have hsteps : boatPolymodStep chk value = reduceTop
      (((chk &&& 0x1ffffff) <<< 5) ^^^ (value &&& 0xFF))
      ((chk >>> 25) &&& 0x1f) := rfl
  rw [hsteps, hb, hbyte, reduceTop_eq _ htop]
  rfl

theorem foldl_boatPolymodStep {values : List Nat}
    (hvalues : ∀ value ∈ values, value < 256) {chk : Nat}
    (hchk : chk < 2 ^ 30) :
    values.foldl boatPolymodStep chk = values.foldl Bech32.polymodStep chk := by
  induction values generalizing chk with
  | nil => rfl
  | cons value values ih =>
      have hvalue := hvalues value List.mem_cons_self
      have hrest := fun v hmem => hvalues v (List.mem_cons_of_mem _ hmem)
      rw [List.foldl_cons, List.foldl_cons, boatPolymodStep_eq hchk hvalue]
      exact ih hrest (Bech32.polymodStep_lt chk (by omega))

/-- The values of `boatBech32Polymod` are those that verify. -/
structure Spells (chksum : List Nat) (n : Nat) : Prop where
  digits : Regroup.Digits 5 chksum
  length : chksum.length = 6
  value_eq : Regroup.value 5 chksum = n

theorem Spells.unique {left right : List Nat} {n : Nat} (hleft : Spells left n)
    (hright : Spells right n) : left = right :=
  Regroup.value_inj (by decide) hleft.digits hright.digits
    (hleft.length.trans hright.length.symm)
    (hleft.value_eq.trans hright.value_eq.symm)

theorem boatBech32Polymod_spells {hrp data : List Nat}
    (hhrp : ∀ value ∈ hrp, value < 256) (hdata : ∀ value ∈ data, value < 256) :
    Spells (boatBech32Polymod hrp data) (Bech32.checksum (hrp ++ data)) := by
  have hsmall : ∀ value ∈ hrp ++ data ++ List.replicate 6 0, value < 256 := by
    intro value hmem
    rcases List.mem_append.mp hmem with hmem | hmem
    · rcases List.mem_append.mp hmem with hmem | hmem
      · exact hhrp value hmem
      · exact hdata value hmem
    · rw [List.eq_of_mem_replicate hmem]
      decide
  have hlt : Bech32.checksum (hrp ++ data) < 2 ^ 30 := by
    apply Bech32.checksum_lt
    intro value hmem
    have := hsmall value (List.mem_append_left _ hmem)
    omega
  have hone : 1 < 2 ^ 30 := by decide
  have hfold := foldl_boatPolymodStep hsmall hone
  rw [List.foldl_append, List.foldl_append] at hfold
  have hdigits : boatBech32Polymod hrp data = (List.range 6).map fun i =>
      (Bech32.checksum (hrp ++ data) >>> (5 * (5 - i))) &&& 0x1F := by
    rw [boatBech32Polymod, hfold]
    rfl
  rw [hdigits]
  generalize Bech32.checksum (hrp ++ data) = n at hlt
  have hmask (m : Nat) : m &&& 0x1F = m % 2 ^ 5 :=
    Nat.and_two_pow_sub_one_eq_mod m 5
  refine ⟨?_, by simp, ?_⟩
  · intro digit hmem
    obtain ⟨i, -, rfl⟩ := List.mem_map.mp hmem
    rw [hmask]
    exact Nat.mod_lt _ (by decide)
  · simp only [List.range_succ, List.range_zero, List.nil_append,
      List.cons_append, List.map_cons, List.map_nil, Regroup.value_cons,
      Regroup.value_nil, hmask, Nat.shiftRight_eq_div_pow, List.length_cons,
      List.length_nil]
    omega

theorem boatExpandHrp_lt (hrp : List UInt8) :
    ∀ value ∈ boatExpandHrp hrp, value < 256 := by
  intro value hmem
  have hand (n k : Nat) : n &&& k ≤ k := Nat.and_le_right
  rcases List.mem_append.mp hmem with hmem | hmem
  · obtain ⟨c, -, rfl⟩ := List.mem_map.mp hmem
    have := hand ((c &&& 0x7f).toNat >>> 5) 0x07
    omega
  · rcases List.mem_cons.mp hmem with rfl | hmem
    · decide
    · obtain ⟨c, -, rfl⟩ := List.mem_map.mp hmem
      have := hand (c &&& 0x7f).toNat 0x1f
      omega

theorem charsetValue_alphabetChar {value : Nat} (hvalue : value < 32) :
    charsetValue (alphabetChar value) = .ok (UInt8.ofNat value) := by
  have hall : ∀ v : Fin 32,
      charsetValue (alphabetChar v.val) = .ok (UInt8.ofNat v.val) := by decide
  exact hall ⟨value, hvalue⟩

/-- A text as the decoder takes it apart: the prefix in front of the first
separator, data characters, and six characters of checksum. -/
structure Reading (input hrp data chk : List UInt8) : Prop where
  text : input = hrp ++ separator :: (data ++ chk)
  firstSeparator : separator ∉ hrp
  length_hrp : 1 ≤ hrp.length ∧ hrp.length ≤ 83
  length_data : 0 < data.length ∧ data.length < 2 ^ 31
  length_chk : chk.length = 6

theorem bsint32_pos_iff {n : Int} (hlow : -2 ^ 31 ≤ n) (hhigh : n < 2 ^ 32) :
    0 < bsint32 n ↔ 0 < n ∧ n < 2 ^ 31 := by
  rw [bsint32, Int.bmod_def]
  split <;> omega

variable {input hrp data chk : List UInt8}

theorem Reading.idxOf_separator (hreading : Reading input hrp data chk) :
    input.idxOf separator = hrp.length := by
  rw [hreading.text, List.idxOf_append_of_notMem hreading.firstSeparator,
    List.idxOf_cons_self, Nat.add_zero]

theorem Reading.length_input (hreading : Reading input hrp data chk) :
    input.length = hrp.length + 1 + data.length + 6 := by
  rw [hreading.text, List.length_append, List.length_cons, List.length_append,
    hreading.length_chk]
  omega

/-- A text with room for data and checksum can be taken apart. -/
theorem exists_reading (hlow : 1 ≤ input.idxOf separator)
    (hhigh : input.idxOf separator ≤ 83)
    (hroom : input.idxOf separator + 7 < input.length)
    (hshort : input.length < input.idxOf separator + 7 + 2 ^ 31) :
    ∃ hrp data chk, Reading input hrp data chk := by
  have hmem : separator ∈ input :=
    List.idxOf_lt_length_iff.mp (by omega)
  obtain ⟨hrp, rest, htext, hfirst⟩ := List.eq_append_cons_of_mem hmem
  have hoffset : input.idxOf separator = hrp.length := by
    rw [htext, List.idxOf_append_of_notMem hfirst, List.idxOf_cons_self,
      Nat.add_zero]
  have hlength : input.length = hrp.length + 1 + rest.length := by
    rw [htext, List.length_append, List.length_cons]
    omega
  refine ⟨hrp, rest.take (rest.length - 6), rest.drop (rest.length - 6), ?_,
    hfirst, ?_, ?_, ?_⟩
  · rw [List.take_append_drop, htext]
  · omega
  · rw [List.length_take]
    omega
  · rw [List.length_drop]
    omega

/-- The decoder on a text it can take apart. -/
theorem decode_of_reading (hreading : Reading input hrp data chk) :
    boatPlatONBech32Decode input = (do
      let values ← data.mapM charsetValue
      if chk ≠ (boatBech32Polymod (boatExpandHrp hrp)
          (values.map UInt8.toNat)).map alphabetChar then
        return (-1, [])
      let out := boatConvertBits values 5 8
      return (out.length, out)) := by
  have hhrp := hreading.length_hrp
  have hdata := hreading.length_data
  have hinput := hreading.length_input
  have hoffset : separatorOffset input = .ok hrp.length := by
    rw [separatorOffset, hreading.idxOf_separator]
    rw [if_neg (by omega), if_pos (by omega)]
  have hdatalen : bsint32 (input.length - hrp.length - 1 - 6) = data.length := by
    rw [bsint32_of_lt] <;> omega
  have hpositive : ¬(data.length : Int) ≤ 0 := by omega
  have htake : input.take hrp.length = hrp := by
    rw [hreading.text, List.take_left]
  have hdrop : input.drop (hrp.length + 1) = data ++ chk := by
    rw [hreading.text, List.drop_append, List.drop_eq_nil_of_le (by omega)]
    simp
  have hchk : chk.take 6 = chk := List.take_of_length_le hreading.length_chk.le
  simp only [boatPlatONBech32Decode, hoffset, Exec.except_ok_bind, hdatalen, htake, hdrop,
    Int.toNat_natCast, List.take_left, List.drop_left, hchk,
    if_neg (show ¬hrp.length = 0 by omega), if_neg (show ¬83 < hrp.length by omega),
    if_neg hpositive]

/-- The counter of the search runs out of its range. -/
theorem decode_of_overflow (hoffset : 2 ^ 31 ≤ input.idxOf separator) :
    boatPlatONBech32Decode input = .error .undefined := by
  rw [boatPlatONBech32Decode, separatorOffset, if_pos hoffset]
  rfl

/-- The decoder refuses what it cannot take apart. -/
theorem decode_of_unread (hinlen : input.length < 2 ^ 32)
    (hoffset : input.idxOf separator < 2 ^ 31)
    (hunread : ∀ hrp data chk, ¬Reading input hrp data chk) :
    boatPlatONBech32Decode input = .ok (-1, []) := by
  have hsearch : separatorOffset input =
      .ok (if input.idxOf separator < input.length then
        input.idxOf separator else 0) := by
    rw [separatorOffset, if_neg (by omega)]
    split <;> rfl
  generalize hhrplen : (if input.idxOf separator < input.length then
    input.idxOf separator else 0) = hrplen at hsearch
  rw [boatPlatONBech32Decode, hsearch, Exec.except_ok_bind]
  by_cases hzero : hrplen = 0
  · simp only [hzero, ↓reduceIte]
    rfl
  by_cases hlong : 83 < hrplen
  · simp only [if_neg hzero, if_pos hlong]
    rfl
  · have hpresent : input.idxOf separator < input.length := by
      by_contra habsent
      exact hzero (hhrplen.symm.trans (if_neg habsent))
    rw [if_pos hpresent] at hhrplen
    subst hhrplen
    have hdatalen : bsint32
        (input.length - (input.idxOf separator : Nat) - 1 - 6) ≤ 0 := by
      by_contra hpositive
      obtain ⟨hlow, hhigh⟩ :=
        (bsint32_pos_iff (by omega) (by omega)).mp (Int.not_le.mp hpositive)
      obtain ⟨hrp, data, chk, hreading⟩ : ∃ hrp data chk,
          Reading input hrp data chk :=
        exists_reading (by omega) (by omega) (by omega) (by omega)
      exact hunread hrp data chk hreading
    rw [if_neg hzero, if_neg hlong, if_pos hdatalen]
    rfl

end BoatFramework
