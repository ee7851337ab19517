/-
C strings and the memory of enumeration values.
-/
import BoatFramework.Utility.Result
import Mathlib.Data.List.TakeWhile

namespace BoatFramework

/-- The bytes of a text of ASCII characters. -/
def asciiBytes (text : List Char) : List UInt8 :=
  text.map fun c => UInt8.ofNat c.toNat

/-- The text that bytes are printed as. -/
def charsOf (bytes : List UInt8) : List Char :=
  bytes.map fun byte => Char.ofNat byte.toNat

/-- `%u` of `snprintf`. -/
def formatUnsigned (n : Nat) : List Char :=
  Nat.toDigits 10 n

/-- The characters of a C string. -/
structure CString where
  bytes : List UInt8
  noNul : (0 : UInt8) ∉ bytes
deriving DecidableEq

/-- The string that a buffer holds ends at its first NUL. -/
def CString.ofBuffer (buffer : List UInt8) : CString where
  bytes := buffer.takeWhile (· ≠ 0)
  noNul hmem := by simpa using List.mem_takeWhile_imp hmem

/-- The string in a block; one without a terminator is undefined. -/
def cString (block : List UInt8) : Outcome CString :=
  if 0 ∈ block then .ok (CString.ofBuffer block) else .error .undefined

/-- A string that is copied into a block of zeros; one that is too long for the
block and its terminator is undefined. -/
def charField (n : Nat) (text : CString) : Outcome (Bytes n) :=
  if hfits : text.bytes.length < n then
    .ok ⟨text.bytes ++ List.replicate (n - text.bytes.length) 0, by
      rw [List.length_append, List.length_replicate]
      omega⟩
  else .error .undefined

/-- The memory of an enumeration value, low byte first. -/
def enumBytes (value : UInt32) : List UInt8 :=
  [UInt8.ofNat value.toNat, UInt8.ofNat (value.toNat / 0x100),
    UInt8.ofNat (value.toNat / 0x10000), UInt8.ofNat (value.toNat / 0x1000000)]

def enumOfBytes (bytes : List UInt8) : UInt32 :=
  UInt32.ofNat (bytes.foldr (fun byte n => byte.toNat + 0x100 * n) 0)

theorem enumOfBytes_enumBytes (value : UInt32) :
    enumOfBytes (enumBytes value) = value := by
  have hlt := value.toNat_lt
  rw [← UInt32.toNat_inj]
  simp [enumOfBytes, enumBytes]
  omega

theorem length_enumBytes (value : UInt32) : (enumBytes value).length = 4 :=
  rfl

/-- A buffer without a NUL is the string. -/
theorem ofBuffer_bytes (name : CString) : CString.ofBuffer name.bytes = name := by
  have htake : name.bytes.takeWhile (· ≠ 0) = name.bytes := by
    rw [List.takeWhile_eq_self_iff]
    intro byte hbyte
    have hne : byte ≠ 0 := fun hzero => name.noNul (hzero ▸ hbyte)
    simpa using hne
  cases name
  simp only [CString.ofBuffer, htake]

/-- The string in front of a NUL. -/
theorem ofBuffer_append (text : CString) (rest : List UInt8) :
    CString.ofBuffer (text.bytes ++ 0 :: rest) = text := by
  have hne : ∀ byte ∈ text.bytes, decide (byte ≠ 0) = true := by
    intro byte hbyte
    refine decide_eq_true fun hzero => text.noNul ?_
    rwa [← hzero]
  have htake : (text.bytes ++ 0 :: rest).takeWhile (· ≠ 0) = text.bytes := by
    rw [List.takeWhile_append_of_pos hne, List.takeWhile_cons_of_neg (by simp),
      List.append_nil]
  cases text
  simp only [CString.ofBuffer, htake]

/-- A buffer with a NUL is its string, the NUL and what stands behind it. -/
theorem exists_behind_nul {buffer : List UInt8} (hnul : 0 ∈ buffer) :
    ∃ rest, buffer = (CString.ofBuffer buffer).bytes ++ 0 :: rest := by
  induction buffer with
  | nil => cases hnul
  | cons head tail ih =>
      by_cases hhead : head = 0
      · subst hhead
        exact ⟨tail, by simp [CString.ofBuffer]⟩
      · have htail : 0 ∈ tail := by
          rcases List.mem_cons.mp hnul with hzero | htail
          · exact absurd hzero.symm hhead
          · exact htail
        obtain ⟨rest, hrest⟩ := ih htail
        have htake : (CString.ofBuffer (head :: tail)).bytes =
            head :: (CString.ofBuffer tail).bytes := by
          simp [CString.ofBuffer, hhead]
        exact ⟨rest, by rw [htake, List.cons_append, ← hrest]⟩

theorem length_ofBuffer {buffer : List UInt8} (hnul : 0 ∈ buffer) :
    (CString.ofBuffer buffer).bytes.length < buffer.length := by
  obtain ⟨rest, hrest⟩ := exists_behind_nul hnul
  have hlen := congrArg List.length hrest
  rw [List.length_append, List.length_cons] at hlen
  omega

theorem cString_eq_ok {block : List UInt8} {text : CString}
    (htext : cString block = .ok text) :
    text.bytes.length < block.length ∧ CString.ofBuffer block = text := by
  unfold cString at htext
  split at htext
  next hnul =>
    obtain rfl := Except.ok.inj htext
    exact ⟨length_ofBuffer hnul, rfl⟩
  next => cases htext

theorem charField_ok {n : Nat} {text : CString} (hfits : text.bytes.length < n) :
    ∃ field : Bytes n, charField n text = .ok field ∧
      field.1 = text.bytes ++ 0 ::
        List.replicate (n - text.bytes.length - 1) 0 := by
  refine ⟨_, dif_pos hfits, ?_⟩
  have hlen : n - text.bytes.length - 1 + 1 = n - text.bytes.length := by omega
  rw [← List.replicate_succ, hlen]

/-- A string that was copied into a block is the one in it. -/
theorem cString_append (text : CString) (rest : List UInt8) :
    cString (text.bytes ++ 0 :: rest) = .ok text := by
  rw [cString, if_pos (by simp), ofBuffer_append]

end BoatFramework
