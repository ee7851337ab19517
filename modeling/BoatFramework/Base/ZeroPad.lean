/-
Byte strings filled up with zero bytes behind them.  Filling up undoes a
trimming only where nothing was trimmed, and tells two strings apart only where
they differ without their trailing zeros.
-/
import BoatFramework.Base.BigEndian

namespace ByteString

/-- Drop the trailing zero bytes. -/
def trimRight (bytes : List UInt8) : List UInt8 :=
  bytes.rdropWhile (· == 0)

/-- No leading zero byte, or nothing but zero bytes. -/
def Flush (bytes : List UInt8) : Prop :=
  Canonical bytes ∨ ∀ byte ∈ bytes, byte = 0

variable {bytes other : List UInt8} {size : Nat}

theorem length_rightpad_of_le (hfits : bytes.length ≤ size) :
    (bytes.rightpad size 0).length = size := by
  rw [List.length_rightpad, Nat.max_eq_left hfits]

/-- A string put over the front of zero bytes. -/
theorem append_drop_zeros (hfits : bytes.length ≤ size) (rest : Nat) :
    bytes ++ (List.replicate (size + rest) 0).drop bytes.length =
      bytes.rightpad size 0 ++ List.replicate rest 0 := by
  have hcount : size + rest - bytes.length = (size - bytes.length) + rest := by
    omega
  rw [List.drop_replicate, hcount, List.replicate_add, ← List.append_assoc,
    List.rightpad]

/-- A string trimmed at the left and filled up again is the same for flush
strings only. -/
theorem rightpad_trimLeft_iff :
    (trimLeft bytes).rightpad bytes.length 0 = bytes ↔ Flush bytes := by
  constructor
  · intro heq
    by_cases hnil : trimLeft bytes = []
    · right
      intro byte hmem
      rw [← heq, hnil] at hmem
      exact List.eq_of_mem_replicate hmem
    · left
      intro hhead
      apply canonical_trimLeft bytes
      rw [← hhead, ← List.head?_append_of_ne_nil _ hnil]
      exact congrArg List.head? heq
  · rintro (hcanonical | hzero)
    · rw [trimLeft_of_canonical hcanonical, List.rightpad, Nat.sub_self]
      exact List.append_nil bytes
    · have hnil : trimLeft bytes = [] :=
        List.dropWhile_eq_nil_iff.mpr fun byte hmem => by simp [hzero byte hmem]
      rw [hnil]
      exact (List.eq_replicate_of_mem hzero).symm

theorem trimRight_append_replicate (bytes : List UInt8) (count : Nat) :
    trimRight (bytes ++ List.replicate count 0) = trimRight bytes := by
  induction count with
  | zero => rw [List.replicate_zero, List.append_nil]
  | succ count ih =>
      rw [List.replicate_succ', ← List.append_assoc, trimRight,
        List.rdropWhile_concat_pos _ _ _ rfl]
      exact ih

/-- A string is what is left of it, with zero bytes behind. -/
theorem eq_trimRight_append (bytes : List UInt8) :
    ∃ count, bytes = trimRight bytes ++ List.replicate count 0 := by
  induction bytes using List.reverseRecOn with
  | nil => exact ⟨0, rfl⟩
  | append_singleton front last ih =>
      by_cases hlast : last = 0
      · obtain ⟨count, hfront⟩ := ih
        subst hlast
        refine ⟨count + 1, ?_⟩
        rw [trimRight, List.rdropWhile_concat_pos _ _ _ rfl,
          List.replicate_succ', ← List.append_assoc]
        exact congrArg (· ++ [0]) hfront
      · refine ⟨0, ?_⟩
        rw [trimRight, List.rdropWhile_concat_neg _ _ _ (by simpa using hlast),
          List.replicate_zero, List.append_nil]

theorem rightpad_eq_trimRight (hfits : bytes.length ≤ size) :
    bytes.rightpad size 0 = (trimRight bytes).rightpad size 0 := by
  obtain ⟨count, hbytes⟩ := eq_trimRight_append bytes
  have hlength := congrArg List.length hbytes
  rw [List.length_append, List.length_replicate] at hlength
  have hcount : size - (trimRight bytes).length =
      count + (size - bytes.length) := by
    omega
  rw [List.rightpad, List.rightpad, hcount, List.replicate_add,
    ← List.append_assoc, ← hbytes]

/-- Filled up, two strings agree when they do without their trailing zeros. -/
theorem rightpad_eq_iff (hbytes : bytes.length ≤ size)
    (hother : other.length ≤ size) :
    bytes.rightpad size 0 = other.rightpad size 0 ↔
      trimRight bytes = trimRight other := by
  constructor
  · intro heq
    rw [← trimRight_append_replicate bytes (size - bytes.length),
      ← trimRight_append_replicate other (size - other.length)]
    exact congrArg trimRight heq
  · intro heq
    rw [rightpad_eq_trimRight hbytes, heq, ← rightpad_eq_trimRight hother]

end ByteString
