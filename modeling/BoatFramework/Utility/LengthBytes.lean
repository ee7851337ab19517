/-
The length bytes of `boatutility.c`: `UtilityGetLVData_L`,
`UtilityGetTLV_LL_from_len`, `add_L_withOffset`, and the four count bytes of a
store (`utility_get_NumBytes`, `utility_check_NumBytes`).
-/
import BoatFramework.Base.LengthValue
import BoatFramework.Utility.Result

namespace BoatFramework

/-- The length in front of a value, or -1, from the three bytes read. -/
def utilityGetLVDataL (input : List UInt8) : Int :=
  if input.getD 0 0 &&& 0x80 = 0 then (input.getD 0 0).toNat
  else if input.getD 0 0 = 0x81 then (input.getD 1 0).toNat
  else if input.getD 0 0 = 0x82 then
    (((input.getD 1 0).toNat <<< 8) ||| (input.getD 2 0).toNat : Nat)
  else -1

def utilityGetTLVLLFromLen (len : Nat) : Nat :=
  if len < 0x80 then 1
  else if len / 0x80 = 1 then 2
  else 3

/-- The length bytes that `add_L_withOffset` puts in front of `nLen` bytes. -/
def lengthBytes (nLen : Nat) : List UInt8 :=
  if nLen < 0x80 then [UInt8.ofNat nLen]
  else if nLen / 0x80 = 1 then [0x81, UInt8.ofNat nLen]
  else [0x82, UInt8.ofNat ((nLen &&& 0xFF00) >>> 8),
    UInt8.ofNat (nLen &&& 0x00FF)]

/-- The bytes behind the offset after the call.  Nothing is put in front of no
bytes, and the offset stays. -/
def addLWithOffset (data : List UInt8) : List UInt8 :=
  if data.length = 0 then [] else lengthBytes data.length ++ data

def utilityGetNumBytes (num : Nat) : List UInt8 :=
  let num := UInt8.ofNat num
  [0xAA, 0x55, num, 0xAA ^^^ 0x55 ^^^ num]

def utilityCheckNumBytes (temp : List UInt8) : Except BoatResult Nat :=
  if temp.getD 0 0 ≠ 0xAA ∨ temp.getD 1 0 ≠ 0x55 then .error boatError
  else if temp.getD 0 0 ^^^ temp.getD 1 0 ^^^ temp.getD 2 0 ≠ temp.getD 3 0 then
    .error boatError
  else .ok (temp.getD 2 0).toNat

theorem length_utilityGetNumBytes (num : Nat) :
    (utilityGetNumBytes num).length = 4 :=
  rfl

theorem utilityCheckNumBytes_get {num : Nat} (hnum : num < 0x100) :
    utilityCheckNumBytes (utilityGetNumBytes num) = .ok num := by
  simp [utilityCheckNumBytes, utilityGetNumBytes]
  omega

theorem lengthBytes_eq_header {nLen : Nat} (hlen : nLen < 0x10000) :
    lengthBytes nLen = LengthValue.header nLen := by
  have hhigh : (nLen &&& 0xFF00) >>> 8 = nLen / 0x100 := by
    rw [Nat.shiftRight_and_distrib, Nat.shiftRight_eq_div_pow]
    exact Nat.and_two_pow_sub_one_of_lt_two_pow (n := 8) (by omega)
  have hlow : UInt8.ofNat (nLen &&& 0x00FF) = UInt8.ofNat nLen := by
    rw [← UInt8.toNat_inj, UInt8.toNat_ofNat', UInt8.toNat_ofNat',
      Nat.and_two_pow_sub_one_eq_mod nLen 8, Nat.mod_mod]
  have hhalf : nLen / 0x80 = 1 ↔ 0x80 ≤ nLen ∧ nLen < 0x100 := by omega
  unfold lengthBytes LengthValue.header
  rw [hhigh, hlow]
  split
  next => rfl
  next hlarge =>
    by_cases hbyte : nLen < 0x100
    · rw [if_pos (hhalf.mpr ⟨by omega, hbyte⟩), if_pos hbyte]
    · rw [if_neg fun h => hbyte (hhalf.mp h).2, if_neg hbyte]

theorem addLWithOffset_eq_encode {data : List UInt8} (hne : data ≠ [])
    (hlen : data.length < 0x10000) :
    addLWithOffset data = LengthValue.encode data := by
  rw [addLWithOffset, if_neg fun h => hne (List.eq_nil_of_length_eq_zero h),
    lengthBytes_eq_header hlen, LengthValue.encode]

theorem utilityGetTLVLLFromLen_eq (len : Nat) :
    utilityGetTLVLLFromLen len = (LengthValue.header len).length := by
  unfold utilityGetTLVLLFromLen LengthValue.header
  split
  next => rfl
  next hlarge =>
    have hhalf : len / 0x80 = 1 ↔ len < 0x100 := by omega
    by_cases hbyte : len < 0x100
    · rw [if_pos (hhalf.mpr hbyte), if_pos hbyte]
      rfl
    · rw [if_neg fun h => hbyte (hhalf.mp h), if_neg hbyte]
      rfl

theorem and_high_bit (n : Nat) (hn : n < 0x80) :
    UInt8.ofNat n &&& 0x80 = 0 := by
  revert n
  decide

/-- The length is read off its own bytes. -/
theorem utilityGetLVDataL_header {len : Nat} (hlen : len < 0x10000)
    (more : List UInt8) :
    utilityGetLVDataL (LengthValue.header len ++ more) = len := by
  unfold LengthValue.header
  split
  next hsmall =>
    simp [utilityGetLVDataL, and_high_bit _ hsmall]
    omega
  next =>
    split
    next hbyte =>
      have hmark : (0x81 : UInt8) &&& 0x80 ≠ 0 := by decide
      simp [utilityGetLVDataL, hmark]
      omega
    next =>
      have hmark : (0x82 : UInt8) &&& 0x80 ≠ 0 := by decide
      have hor : (len / 256 % 256) <<< 8 ||| len % 256 = len := by
        have hlow : len % 256 < 2 ^ 8 := Nat.mod_lt _ (by decide)
        rw [← Nat.shiftLeft_add_eq_or_of_lt hlow, Nat.shiftLeft_eq]
        omega
      simp [utilityGetLVDataL, hmark, hor]

theorem utilityGetLVDataL_take (input : List UInt8) :
    utilityGetLVDataL (input.take 3) = utilityGetLVDataL input := by
  have hbyte (i : Nat) (hi : i < 3) :
      (input.take 3).getD i 0 = input.getD i 0 := by
    rw [List.getD_eq_getElem?_getD, List.getD_eq_getElem?_getD,
      List.getElem?_take_of_lt hi]
  rw [utilityGetLVDataL, hbyte 0 (by decide), hbyte 1 (by decide),
    hbyte 2 (by decide), utilityGetLVDataL]

/-- The length of a value is in the first three bytes of its encoding. -/
theorem utilityGetLVDataL_encode {value : List UInt8}
    (hlen : value.length < 0x10000) (rest : List UInt8) :
    utilityGetLVDataL ((LengthValue.encode value ++ rest).take 3) =
      value.length := by
  rw [utilityGetLVDataL_take, LengthValue.encode, List.append_assoc]
  exact utilityGetLVDataL_header hlen _

theorem length_lengthBytes (n : Nat) :
    (lengthBytes n).length = utilityGetTLVLLFromLen n := by
  unfold lengthBytes utilityGetTLVLLFromLen
  split
  · rfl
  · split <;> rfl

theorem length_addL {data : List UInt8} (hne : data ≠ []) :
    (addLWithOffset data).length =
      utilityGetTLVLLFromLen data.length + data.length := by
  rw [addLWithOffset, if_neg fun h => hne (List.eq_nil_of_length_eq_zero h),
    List.length_append, length_lengthBytes]

theorem utilityGetTLVLLFromLen_le (n : Nat) : utilityGetTLVLLFromLen n ≤ 3 := by
  unfold utilityGetTLVLLFromLen
  split
  · omega
  · split <;> omega

end BoatFramework
