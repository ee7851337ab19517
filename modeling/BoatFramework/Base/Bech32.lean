/-
Bech32 texts as BIP-173 describes them: a readable prefix, a separator and
characters of five bits, the last six of them a checksum.  The checksum is
linear, so the right six values are read off the remainder of six zeros.
-/
import BoatFramework.Base.Regroup
import Mathlib.Data.Nat.Bitwise
import Mathlib.Data.UInt
import Mathlib.Tactic.Ring

namespace Bech32

def alphabet : List UInt8 :=
  ['q', 'p', 'z', 'r', 'y', '9', 'x', '8', 'g', 'f', '2', 't', 'v', 'd', 'w',
    '0', 's', '3', 'j', 'n', '5', '4', 'k', 'h', 'c', 'e', '6', 'm', 'u', 'a',
    '7', 'l'].map fun c => UInt8.ofNat c.toNat

/-- The character `1`. -/
def separator : UInt8 := 0x31

def isUpper (c : UInt8) : Bool :=
  0x41 ≤ c && c ≤ 0x5A

def isLower (c : UInt8) : Bool :=
  0x61 ≤ c && c ≤ 0x7A

def lower (c : UInt8) : UInt8 :=
  if isUpper c then c + 0x20 else c

/-- The value of a data character, in either case. -/
def charValue (c : UInt8) : Nat :=
  alphabet.idxOf (lower c)

def generators : List Nat :=
  [0x3b6a57b2, 0x26508e6d, 0x1ea119fa, 0x3d4233dd, 0x2a1462b3]

/-- What the bits shifted out at the top give back. -/
def feedback (top : Nat) : Nat :=
  generators.zipIdx.foldl
    (fun chk gen => if top.testBit gen.2 then chk ^^^ gen.1 else chk) 0

def polymodStep (chk value : Nat) : Nat :=
  (((chk &&& 0x1ffffff) <<< 5) ^^^ value) ^^^ feedback (chk >>> 25)

def polymod (values : List Nat) : Nat :=
  values.foldl polymodStep 1

/-- The values that a prefix puts in front of the data. -/
def expandPrefix (hrp : List UInt8) : List Nat :=
  hrp.map (fun c => c.toNat >>> 5) ++ 0 :: hrp.map (fun c => c.toNat &&& 31)

/-- Fewer than five bits are left over behind the whole bytes, all zero. -/
def ZeroPadded (values : List Nat) : Prop :=
  5 * values.length % 8 < 5 ∧
    Regroup.value 5 values % 2 ^ (5 * values.length % 8) = 0

instance (values : List Nat) : Decidable (ZeroPadded values) :=
  inferInstanceAs (Decidable (_ ∧ _))

/-- A human-readable prefix. -/
structure Readable (hrp : List UInt8) : Prop where
  length : 1 ≤ hrp.length ∧ hrp.length ≤ 83
  printable : ∀ c ∈ hrp, 33 ≤ c.toNat ∧ c.toNat ≤ 126

/-- A prefix and data characters that make up a text. -/
structure Wellformed (hrp data : List UInt8) : Prop where
  readable : Readable hrp
  lastSeparator : separator ∉ data
  length_data : 6 ≤ data.length
  inAlphabet : ∀ c ∈ data, lower c ∈ alphabet
  oneCase : (∀ c ∈ hrp ++ data, isUpper c = false) ∨
    ∀ c ∈ hrp ++ data, isLower c = false
  checksum :
    polymod (expandPrefix (hrp.map lower) ++ data.map charValue) = 1
  padding : ZeroPadded ((data.take (data.length - 6)).map charValue)

def Valid (text : List UInt8) : Prop :=
  ∃ hrp data, text = hrp ++ separator :: data ∧ Wellformed hrp data

/-- What the six last values have to spell. -/
def checksum (values : List Nat) : Nat :=
  polymod (values ++ List.replicate 6 0) ^^^ 1

theorem feedback_lt (top : Nat) : feedback top < 2 ^ 30 := by
  have hall : ∀ gens : List (Nat × Nat), ∀ chk < 2 ^ 30,
      (∀ gen ∈ gens, gen.1 < 2 ^ 30) →
      gens.foldl (fun chk gen => if top.testBit gen.2 then chk ^^^ gen.1 else chk)
        chk < 2 ^ 30 := by
    intro gens
    induction gens with
    | nil =>
        intro chk hchk _
        exact hchk
    | cons gen gens ih =>
        intro chk hchk hgens
        have hrest := fun gen' hmem => hgens gen' (List.mem_cons_of_mem _ hmem)
        rw [List.foldl_cons]
        split
        · exact ih _ (Nat.xor_lt_two_pow hchk (hgens gen List.mem_cons_self))
            hrest
        · exact ih _ hchk hrest
  exact hall _ 0 (by decide) (by decide)

theorem polymodStep_lt (chk : Nat) {value : Nat} (hvalue : value < 2 ^ 30) :
    polymodStep chk value < 2 ^ 30 := by
  have hkept : (chk &&& 0x1ffffff) <<< 5 < 2 ^ 30 := by
    have hmask : chk &&& 0x1ffffff = chk % 2 ^ 25 :=
      Nat.and_two_pow_sub_one_eq_mod chk 25
    rw [hmask, Nat.shiftLeft_eq]
    omega
  exact Nat.xor_lt_two_pow (Nat.xor_lt_two_pow hkept hvalue) (feedback_lt _)

theorem foldl_polymodStep_lt {values : List Nat}
    (hvalues : ∀ value ∈ values, value < 2 ^ 30) {chk : Nat}
    (hchk : chk < 2 ^ 30) : values.foldl polymodStep chk < 2 ^ 30 := by
  induction values generalizing chk with
  | nil => exact hchk
  | cons value values ih =>
      rw [List.foldl_cons]
      have hrest := fun v hmem => hvalues v (List.mem_cons_of_mem _ hmem)
      exact ih hrest (polymodStep_lt chk (hvalues value List.mem_cons_self))

theorem checksum_lt {values : List Nat}
    (hvalues : ∀ value ∈ values, value < 2 ^ 30) : checksum values < 2 ^ 30 := by
  apply Nat.xor_lt_two_pow _ (by decide)
  apply foldl_polymodStep_lt _ (by decide)
  intro value hmem
  rcases List.mem_append.mp hmem with hmem | hmem
  · exact hvalues value hmem
  · rw [List.eq_of_mem_replicate hmem]
    decide

/-- A low part passes a step by being shifted. -/
theorem polymodStep_xor (chk value : Nat) {low : Nat} (hlow : low < 2 ^ 25) :
    polymodStep (chk ^^^ low) value =
      polymodStep chk 0 ^^^ ((low <<< 5) ^^^ value) := by
  have hmask : low &&& 0x1ffffff = low := by
    have hmod := Nat.and_two_pow_sub_one_eq_mod low 25
    rw [Nat.mod_eq_of_lt hlow] at hmod
    exact hmod
  have htop : low >>> 25 = 0 := by
    rw [Nat.shiftRight_eq_div_pow]
    exact Nat.div_eq_of_lt hlow
  rw [polymodStep, polymodStep, Nat.and_xor_distrib_right,
    Nat.shiftLeft_xor_distrib, hmask, Nat.shiftRight_xor_distrib, htop,
    Nat.xor_zero, Nat.xor_zero]
  simp only [Nat.xor_assoc]
  congr 1
  rw [← Nat.xor_assoc, Nat.xor_comm]

theorem shiftIn_value {low value : Nat} (hvalue : value < 2 ^ 5) :
    (low <<< 5) ^^^ value = low * 2 ^ 5 + value := by
  have hor : (low <<< 5) ^^^ value = (low <<< 5) ||| value := by
    apply Nat.eq_of_testBit_eq
    intro i
    rw [Nat.testBit_xor, Nat.testBit_or, Nat.testBit_shiftLeft]
    by_cases hi : 5 ≤ i
    · have hzero : value.testBit i = false :=
        Nat.testBit_lt_two_pow
          (Nat.lt_of_lt_of_le hvalue (Nat.pow_le_pow_right (by omega) hi))
      simp [hzero]
    · simp [hi]
  rw [hor, ← Nat.shiftLeft_add_eq_or_of_lt hvalue, Nat.shiftLeft_eq]

/-- Values at the end of the input pass into the remainder as they are. -/
theorem foldl_polymodStep_tail {tail : List Nat} (htail : Regroup.Digits 5 tail)
    {count low : Nat} (hcount : count + tail.length ≤ 6)
    (hlow : low < 2 ^ (5 * count)) (chk : Nat) :
    tail.foldl polymodStep (chk ^^^ low) =
      (List.replicate tail.length 0).foldl polymodStep chk ^^^
        (low * 2 ^ (5 * tail.length) + Regroup.value 5 tail) := by
  induction tail generalizing count low chk with
  | nil => simp [Regroup.value_nil]
  | cons value tail ih =>
      obtain ⟨hvalue, hrest⟩ := Regroup.digits_cons.mp htail
      rw [List.length_cons] at hcount
      have hsmall : low < 2 ^ 25 :=
        Nat.lt_of_lt_of_le hlow (Nat.pow_le_pow_right (by omega) (by omega))
      have hnext : low * 2 ^ 5 + value < 2 ^ (5 * (count + 1)) := by
        rw [Nat.mul_add, Nat.pow_add]
        omega
      rw [List.foldl_cons, polymodStep_xor chk value hsmall,
        shiftIn_value hvalue, ih hrest (by omega) hnext, List.length_cons,
        List.replicate_succ, List.foldl_cons, Regroup.value_cons]
      congr 1
      ring

/-- Six values verify a text when they spell its checksum. -/
theorem polymod_append_eq_one_iff (values : List Nat) {tail : List Nat}
    (htail : Regroup.Digits 5 tail) (hlength : tail.length = 6) :
    polymod (values ++ tail) = 1 ↔ Regroup.value 5 tail = checksum values := by
  have hlow : 0 < 2 ^ (5 * 0) := by decide
  have htail := foldl_polymodStep_tail htail (by omega) hlow (polymod values)
  have happend : polymod (values ++ tail) =
      polymod (values ++ List.replicate 6 0) ^^^ Regroup.value 5 tail := by
    rw [Nat.xor_zero, Nat.zero_mul, Nat.zero_add, hlength] at htail
    simpa [polymod, List.foldl_append] using htail
  rw [happend, checksum]
  constructor
  · intro hone
    rw [← hone, Nat.xor_xor_cancel_left]
  · intro hvalue
    rw [hvalue, Nat.xor_xor_cancel_left]

/-- Different top bits give back different low bits. -/
theorem feedback_injective {top other : Nat} (htop : top < 32)
    (hother : other < 32)
    (hsame : feedback top % 2 ^ 5 = feedback other % 2 ^ 5) : top = other := by
  have hall : ∀ a b : Fin 32,
      feedback a.val % 2 ^ 5 = feedback b.val % 2 ^ 5 → a.val = b.val := by
    decide +kernel
  exact hall ⟨top, htop⟩ ⟨other, hother⟩ hsame

/-- The low bits of a step do not hold what is shifted. -/
theorem polymodStep_mod (chk value : Nat) :
    polymodStep chk value % 2 ^ 5 =
      value % 2 ^ 5 ^^^ feedback (chk >>> 25) % 2 ^ 5 := by
  have hshifted : ((chk &&& 0x1ffffff) <<< 5) % 2 ^ 5 = 0 := by
    rw [Nat.shiftLeft_eq]
    exact Nat.mul_mod_left _ _
  rw [polymodStep, Nat.xor_mod_two_pow, Nat.xor_mod_two_pow, hshifted,
    Nat.zero_xor]

/-- A step forgets nothing of a remainder. -/
theorem polymodStep_injective {chk other value : Nat} (hchk : chk < 2 ^ 30)
    (hother : other < 2 ^ 30)
    (hsame : polymodStep chk value = polymodStep other value) :
    chk = other := by
  have hlow := congrArg (· % 2 ^ 5) hsame
  rw [polymodStep_mod, polymodStep_mod, Nat.xor_right_inj] at hlow
  have htop : chk >>> 25 = other >>> 25 := by
    apply feedback_injective _ _ hlow
    · rw [Nat.shiftRight_eq_div_pow]
      omega
    · rw [Nat.shiftRight_eq_div_pow]
      omega
  rw [polymodStep, polymodStep, htop, Nat.xor_left_inj, Nat.xor_left_inj,
    Nat.shiftLeft_eq, Nat.shiftLeft_eq] at hsame
  have hmask (n : Nat) : n &&& 0x1ffffff = n % 2 ^ 25 :=
    Nat.and_two_pow_sub_one_eq_mod n 25
  rw [hmask, hmask] at hsame
  rw [Nat.shiftRight_eq_div_pow, Nat.shiftRight_eq_div_pow] at htop
  omega

theorem foldl_polymodStep_injective {values : List Nat}
    (hvalues : ∀ value ∈ values, value < 2 ^ 30) {chk other : Nat}
    (hchk : chk < 2 ^ 30) (hother : other < 2 ^ 30)
    (hsame : values.foldl polymodStep chk = values.foldl polymodStep other) :
    chk = other := by
  induction values generalizing chk other with
  | nil => exact hsame
  | cons value values ih =>
      have hvalue := hvalues value List.mem_cons_self
      have hrest := fun v hmem => hvalues v (List.mem_cons_of_mem _ hmem)
      apply polymodStep_injective hchk hother
      exact ih hrest (polymodStep_lt chk hvalue) (polymodStep_lt other hvalue)
        hsame

/-- A value that is changed changes the checksum, whatever stands around it. -/
theorem checksum_injective {front back : List Nat} {value other : Nat}
    (hvalues : ∀ v ∈ front ++ value :: other :: back, v < 2 ^ 30)
    (hsame : checksum (front ++ value :: back) =
      checksum (front ++ other :: back)) : value = other := by
  have hfront := fun v hmem => hvalues v (List.mem_append_left _ hmem)
  have hvalue := hvalues value (by simp)
  have hother := hvalues other (by simp)
  have hback : ∀ v ∈ back ++ List.replicate 6 0, v < 2 ^ 30 := by
    intro v hmem
    rcases List.mem_append.mp hmem with hmem | hmem
    · exact hvalues v (by simp [hmem])
    · rw [List.eq_of_mem_replicate hmem]
      decide
  have hstart := foldl_polymodStep_lt hfront (show 1 < 2 ^ 30 by decide)
  rw [checksum, checksum, Nat.xor_left_inj] at hsame
  simp only [polymod, List.append_assoc, List.cons_append, List.foldl_append,
    List.foldl_cons] at hsame
  rw [← List.foldl_append, ← List.foldl_append] at hsame
  have hstep := foldl_polymodStep_injective hback
    (polymodStep_lt _ hvalue) (polymodStep_lt _ hother) hsame
  rw [polymodStep, polymodStep, Nat.xor_left_inj, Nat.xor_right_inj] at hstep
  exact hstep

/-- What is given back is linear in the bits at the top. -/
theorem feedback_xor {top other : Nat} (htop : top < 32) (hother : other < 32) :
    feedback (top ^^^ other) = feedback top ^^^ feedback other := by
  have hall : ∀ a b : Fin 32,
      feedback (a.val ^^^ b.val) = feedback a.val ^^^ feedback b.val := by
    decide +kernel
  exact hall ⟨top, htop⟩ ⟨other, hother⟩

theorem polymodStep_linear {chk other : Nat} (hchk : chk < 2 ^ 30)
    (hother : other < 2 ^ 30) (value error : Nat) :
    polymodStep (chk ^^^ other) (value ^^^ error) =
      polymodStep chk value ^^^ polymodStep other error := by
  have htop {n : Nat} (hn : n < 2 ^ 30) : n >>> 25 < 32 := by
    rw [Nat.shiftRight_eq_div_pow]
    omega
  rw [polymodStep, polymodStep, polymodStep, Nat.and_xor_distrib_right,
    Nat.shiftLeft_xor_distrib, Nat.shiftRight_xor_distrib,
    feedback_xor (htop hchk) (htop hother)]
  ac_rfl

/-- What an error in a value comes to in the remainder, with so many values
behind it. -/
def effect (error behind : Nat) : Nat :=
  (List.replicate behind 0).foldl polymodStep error

theorem foldl_polymodStep_xor {values : List Nat}
    (hvalues : ∀ value ∈ values, value < 2 ^ 30) {chk error : Nat}
    (hchk : chk < 2 ^ 30) (herror : error < 2 ^ 30) :
    values.foldl polymodStep (chk ^^^ error) =
      values.foldl polymodStep chk ^^^ effect error values.length := by
  induction values generalizing chk error with
  | nil => rfl
  | cons value values ih =>
      have hrest := fun v hmem => hvalues v (List.mem_cons_of_mem _ hmem)
      have hstep := polymodStep_linear hchk herror value 0
      rw [Nat.xor_zero] at hstep
      rw [List.foldl_cons, List.foldl_cons, hstep, ih hrest
        (polymodStep_lt chk (hvalues value List.mem_cons_self))
        (polymodStep_lt error (by decide))]
      rfl

/-- An error in one value changes the remainder by its effect. -/
theorem polymod_error {front back : List Nat} {value error : Nat}
    (hvalues : ∀ v ∈ front ++ value :: back, v < 2 ^ 30)
    (herror : error < 2 ^ 30) :
    polymod (front ++ (value ^^^ error) :: back) =
      polymod (front ++ value :: back) ^^^ effect error back.length := by
  have hfront := fun v hmem => hvalues v (List.mem_append_left _ hmem)
  have hvalue := hvalues value (by simp)
  have hback := fun v hmem =>
    hvalues v (List.mem_append_right _ (List.mem_cons_of_mem _ hmem))
  have hstart := foldl_polymodStep_lt hfront (show 1 < 2 ^ 30 by decide)
  have hstep : polymodStep (front.foldl polymodStep 1) (value ^^^ error) =
      polymodStep (front.foldl polymodStep 1) value ^^^ error := by
    rw [polymodStep, polymodStep]
    ac_rfl
  simp only [polymod, List.foldl_append, List.foldl_cons]
  rw [hstep]
  exact foldl_polymodStep_xor hback (polymodStep_lt _ hvalue) herror

end Bech32
