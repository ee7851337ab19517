/-
Big-endian byte strings and the natural numbers they spell.  The minimal
spelling is `Nat.digits 256` read backwards; a byte string is canonical when it
is the minimal spelling of its value.
-/
import Mathlib.Data.Nat.Digits.Lemmas
import Mathlib.Data.List.DropRight

namespace ByteString

/-- The minimal big-endian spelling; zero is the empty string. -/
def bigEndian (n : Nat) : List UInt8 :=
  ((Nat.digits 256 n).map UInt8.ofNat).reverse

/-- The natural number a byte string spells. -/
def ofBigEndian (bytes : List UInt8) : Nat :=
  Nat.ofDigits 256 (bytes.reverse.map UInt8.toNat)

/-- No leading zero byte. -/
def Canonical (bytes : List UInt8) : Prop :=
  bytes.head? ≠ some 0

instance (bytes : List UInt8) : Decidable (Canonical bytes) :=
  inferInstanceAs (Decidable (bytes.head? ≠ some 0))

/-- Drop the leading zero bytes. -/
def trimLeft (bytes : List UInt8) : List UInt8 :=
  bytes.dropWhile (· == 0)

@[simp] theorem bigEndian_zero : bigEndian 0 = [] := rfl

@[simp] theorem ofBigEndian_nil : ofBigEndian [] = 0 := rfl

theorem ofBigEndian_cons (byte : UInt8) (bytes : List UInt8) :
    ofBigEndian (byte :: bytes) =
      byte.toNat * 256 ^ bytes.length + ofBigEndian bytes := by
  simp only [ofBigEndian, List.reverse_cons, List.map_append, List.map_cons,
    List.map_nil, Nat.ofDigits_append, Nat.ofDigits_singleton,
    List.length_map, List.length_reverse]
  ring

theorem ofBigEndian_append (left right : List UInt8) :
    ofBigEndian (left ++ right) =
      ofBigEndian left * 256 ^ right.length + ofBigEndian right := by
  simp only [ofBigEndian, List.reverse_append, List.map_append,
    Nat.ofDigits_append, List.length_map, List.length_reverse]
  ring

theorem ofBigEndian_lt (bytes : List UInt8) :
    ofBigEndian bytes < 256 ^ bytes.length := by
  induction bytes with
  | nil => simp
  | cons byte bytes ih =>
      have hbyte : byte.toNat < 256 := byte.toNat_lt
      rw [ofBigEndian_cons, List.length_cons, pow_succ]
      nlinarith

theorem ofBigEndian_bigEndian (n : Nat) : ofBigEndian (bigEndian n) = n := by
  have hdigits : (Nat.digits 256 n).map (UInt8.toNat ∘ UInt8.ofNat) =
      Nat.digits 256 n := by
    conv_rhs => rw [← List.map_id (Nat.digits 256 n)]
    refine List.map_congr_left fun digit hdigit => ?_
    have hlt : digit < 256 := Nat.digits_lt_base (by omega) hdigit
    simp only [Function.comp_apply, UInt8.toNat_ofNat', id_eq]
    omega
  rw [ofBigEndian, bigEndian, List.reverse_reverse, List.map_map, hdigits,
    Nat.ofDigits_digits]

/-- The spelling of `n` fits in `k` bytes exactly when `n` is below `256 ^ k`. -/
theorem length_bigEndian_le_iff (n k : Nat) :
    (bigEndian n).length ≤ k ↔ n < 256 ^ k := by
  rw [bigEndian, List.length_reverse, List.length_map,
    Nat.digits_length_le_iff (by omega)]

theorem bigEndian_eq_nil_iff (n : Nat) : bigEndian n = [] ↔ n = 0 := by
  rw [← List.length_eq_zero_iff, ← Nat.le_zero, length_bigEndian_le_iff]
  omega

theorem length_bigEndian_pos {n : Nat} (hn : n ≠ 0) :
    0 < (bigEndian n).length := by
  rw [List.length_pos_iff]
  exact fun hnil => hn ((bigEndian_eq_nil_iff n).mp hnil)

/-- Canonical byte strings are the minimal spellings of their values. -/
theorem bigEndian_ofBigEndian {bytes : List UInt8} (hbytes : Canonical bytes) :
    bigEndian (ofBigEndian bytes) = bytes := by
  have hdigits : Nat.digits 256 (ofBigEndian bytes) =
      bytes.reverse.map UInt8.toNat := by
    refine Nat.digits_ofDigits 256 (by omega) _ ?_ ?_
    · intro digit hdigit
      obtain ⟨byte, _, rfl⟩ := List.mem_map.mp hdigit
      exact byte.toNat_lt
    · intro hne hzero
      rw [List.getLast_map, List.getLast_reverse] at hzero
      refine hbytes ?_
      have hbyte := UInt8.toNat_inj.mp (hzero.trans UInt8.toNat_zero.symm)
      rw [List.head?_eq_some_head (by simpa using hne), hbyte]
  rw [bigEndian, hdigits, List.map_map, List.map_reverse, List.reverse_reverse]
  simp [Function.comp_def]

theorem canonical_nil : Canonical [] := by
  simp [Canonical]

theorem canonical_cons_iff (byte : UInt8) (bytes : List UInt8) :
    Canonical (byte :: bytes) ↔ byte ≠ 0 := by
  simp [Canonical]

theorem canonical_trimLeft (bytes : List UInt8) :
    Canonical (trimLeft bytes) := by
  intro hhead
  have hne : trimLeft bytes ≠ [] := by
    intro hnil
    simp [hnil] at hhead
  have hnot := List.head_dropWhile_not (· == 0) (l := bytes) hne
  rw [List.head?_eq_some_head hne, Option.some_inj] at hhead
  simp only [trimLeft] at hhead
  simp [hhead] at hnot

theorem trimLeft_of_canonical {bytes : List UInt8} (hbytes : Canonical bytes) :
    trimLeft bytes = bytes := by
  cases bytes with
  | nil => rfl
  | cons byte bytes =>
      have hbyte := (canonical_cons_iff byte bytes).mp hbytes
      simp [trimLeft, hbyte]

theorem ofBigEndian_trimLeft (bytes : List UInt8) :
    ofBigEndian (trimLeft bytes) = ofBigEndian bytes := by
  induction bytes with
  | nil => rfl
  | cons byte bytes ih =>
      by_cases hbyte : byte = 0
      · subst hbyte
        have htrim : trimLeft (0 :: bytes) = trimLeft bytes := by
          simp [trimLeft]
        rw [htrim, ih, ofBigEndian_cons]
        simp
      · rw [trimLeft_of_canonical ((canonical_cons_iff byte bytes).mpr hbyte)]

/-- Trimming leading zeros computes the minimal spelling. -/
theorem bigEndian_ofBigEndian_eq_trimLeft (bytes : List UInt8) :
    bigEndian (ofBigEndian bytes) = trimLeft bytes := by
  rw [← ofBigEndian_trimLeft, bigEndian_ofBigEndian (canonical_trimLeft bytes)]

theorem canonical_bigEndian (n : Nat) : Canonical (bigEndian n) := by
  rw [← ofBigEndian_bigEndian n, bigEndian_ofBigEndian_eq_trimLeft]
  exact canonical_trimLeft _

theorem length_trimLeft_le (bytes : List UInt8) :
    (trimLeft bytes).length ≤ bytes.length :=
  List.length_dropWhile_le _ _

end ByteString
