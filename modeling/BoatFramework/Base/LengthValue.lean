/-
Values behind their length.  A length below 128 is one byte; the bytes 0x81 and
0x82 announce a length of one and of two bytes.  What is encoded is read back
from the front of any text, one value or a number of items after each other.
-/
import Mathlib.Data.List.Basic

namespace LengthValue

/-- The bytes in front of a value of a given length. -/
def header (len : Nat) : List UInt8 :=
  if len < 0x80 then [UInt8.ofNat len]
  else if len < 0x100 then [0x81, UInt8.ofNat len]
  else [0x82, UInt8.ofNat (len / 0x100), UInt8.ofNat len]

def encode (value : List UInt8) : List UInt8 :=
  header value.length ++ value

/-- Read a number of a given width, the high byte first. -/
def readNumber (width : Nat) (text : List UInt8) :
    Option (Nat × List UInt8) :=
  if width ≤ text.length then
    some ((text.take width).foldl (fun n byte => n * 0x100 + byte.toNat) 0,
      text.drop width)
  else none

/-- Read a length; a length of more than two bytes is refused. -/
def readHeader : List UInt8 → Option (Nat × List UInt8)
  | [] => none
  | first :: rest =>
      if first < 0x80 then some (first.toNat, rest)
      else if first = 0x81 then readNumber 1 rest
      else if first = 0x82 then readNumber 2 rest
      else none

/-- Read a value and what follows it. -/
def decode (text : List UInt8) : Option (List UInt8 × List UInt8) :=
  match readHeader text with
  | some (len, rest) =>
      if len ≤ rest.length then some (rest.take len, rest.drop len) else none
  | none => none

/-- Read a number of items, one after the other. -/
def readMany {α : Type} (read : List UInt8 → Option (α × List UInt8)) :
    Nat → List UInt8 → Option (List α × List UInt8)
  | 0, text => some ([], text)
  | count + 1, text =>
      match read text with
      | some (item, text) =>
          match readMany read count text with
          | some (items, text) => some (item :: items, text)
          | none => none
      | none => none

theorem length_header (len : Nat) : 1 ≤ (header len).length ∧
    (header len).length ≤ 3 := by
  unfold header
  split
  · simp
  · split <;> simp

theorem length_encode (value : List UInt8) :
    (encode value).length = (header value.length).length + value.length :=
  List.length_append

theorem encode_ne_nil (value : List UInt8) : encode value ≠ [] := by
  intro hnil
  have hlen := congrArg List.length hnil
  have hheader := (length_header value.length).1
  rw [length_encode, List.length_nil] at hlen
  omega

/-- A length of at most two bytes is read back. -/
theorem readHeader_header {len : Nat} (hlen : len < 0x10000)
    (rest : List UInt8) : readHeader (header len ++ rest) = some (len, rest) := by
  unfold header
  split
  next hsmall =>
    have htoNat : (UInt8.ofNat len).toNat = len := by
      rw [UInt8.toNat_ofNat']
      omega
    have hfirst : UInt8.ofNat len < 0x80 := by
      rw [UInt8.lt_iff_toNat_lt, htoNat]
      exact hsmall
    rw [List.singleton_append, readHeader, if_pos hfirst, htoNat]
  next hlarge =>
    split
    next hbyte =>
      rw [List.cons_append, readHeader, if_neg (by decide), if_pos rfl]
      simp [readNumber]
      omega
    next htwo =>
      rw [List.cons_append, readHeader, if_neg (by decide),
        if_neg (by decide), if_pos rfl]
      simp [readNumber]
      omega

theorem decode_encode {value : List UInt8} (hlen : value.length < 0x10000)
    (rest : List UInt8) : decode (encode value ++ rest) = some (value, rest) := by
  rw [decode, encode, List.append_assoc, readHeader_header hlen]
  simp

theorem encode_inj {value other : List UInt8} (hlen : value.length < 0x10000)
    (hother : other.length < 0x10000) (hsame : encode value = encode other) :
    value = other := by
  have hdecode := decode_encode hlen []
  rw [hsame, decode_encode hother] at hdecode
  exact (Prod.mk.inj (Option.some.inj hdecode)).1.symm

section Many

variable {α : Type} {read : List UInt8 → Option (α × List UInt8)}
  {write : α → List UInt8}

/-- Items that are read back one by one are read back together. -/
theorem readMany_flatten (items : List α) (rest : List UInt8)
    (hread : ∀ item ∈ items, ∀ rest,
      read (write item ++ rest) = some (item, rest)) :
    readMany read items.length ((items.map write).flatten ++ rest) =
      some (items, rest) := by
  induction items with
  | nil => rfl
  | cons head tail ih =>
      have htail := ih fun item hitem =>
        hread item (List.mem_cons_of_mem head hitem)
      rw [List.map_cons, List.flatten_cons, List.append_assoc,
        List.length_cons, readMany, hread head List.mem_cons_self]
      simp only [htail]

end Many

end LengthValue
