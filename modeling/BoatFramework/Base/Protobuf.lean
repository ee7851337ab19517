/-
The wire format of protocol buffers as messages are written in it: numbers in
groups of seven bits, and fields behind their number and the kind of their
content.  A number that is zero and a text that is empty are left out.
-/
import Mathlib.Data.List.Basic

namespace Protobuf

/-- A number in at most `groups` groups of seven bits, the low one first. -/
def varintGroups : Nat → Nat → List UInt8
  | 0, _ => []
  | groups + 1, n =>
      if n < 0x80 then [UInt8.ofNat n]
      else UInt8.ofNat (n % 0x80 + 0x80) :: varintGroups groups (n / 0x80)

/-- A number of at most 64 bits. -/
def varint (n : Nat) : List UInt8 :=
  varintGroups 10 n

def key (number wireType : Nat) : List UInt8 :=
  varint (number * 8 + wireType)

/-- A field whose content stands behind its length. -/
def lengthField (number : Nat) (content : List UInt8) : List UInt8 :=
  key number 2 ++ (varint content.length ++ content)

def uintField (number value : Nat) : List UInt8 :=
  if value = 0 then [] else key number 0 ++ varint value

def stringField (number : Nat) (text : List UInt8) : List UInt8 :=
  if text = [] then [] else lengthField number text

/-- The fields of the messages of a repeated field. -/
def repeatedField {α : Type} (number : Nat) (write : α → List UInt8)
    (items : List α) : List UInt8 :=
  (items.map fun item => lengthField number (write item)).flatten

theorem length_varint (n : Nat) :
    1 ≤ (varint n).length ∧ (varint n).length ≤ 10 := by
  have hgroups : ∀ groups n, 1 ≤ groups →
      1 ≤ (varintGroups groups n).length ∧
        (varintGroups groups n).length ≤ groups := by
    intro groups
    induction groups with
    | zero => exact fun _ hpos => absurd hpos (by decide)
    | succ groups ih =>
        intro n _
        rw [varintGroups]
        split
        · simp
        · rw [List.length_cons]
          rcases Nat.eq_zero_or_pos groups with rfl | hpos
          · exact ⟨by omega, Nat.le_refl _⟩
          · have hrest := ih (n / 0x80) hpos
            omega
  exact hgroups 10 n (by decide)

theorem length_lengthField (number : Nat) (content : List UInt8) :
    content.length + 2 ≤ (lengthField number content).length := by
  have hkey := (length_varint (number * 8 + 2)).1
  have hlen := (length_varint content.length).1
  rw [lengthField, key, List.length_append, List.length_append]
  omega

/-- The length of a field that is not left out. -/
theorem length_stringField_eq {text : List UInt8} (number : Nat)
    (hne : text ≠ []) :
    (stringField number text).length =
      (key number 2).length + ((varint text.length).length + text.length) := by
  rw [stringField, if_neg hne, lengthField, List.length_append,
    List.length_append]

theorem length_uintField {value : Nat} (number : Nat) (hvalue : value ≠ 0) :
    2 ≤ (uintField number value).length := by
  have hkey := (length_varint (number * 8 + 0)).1
  have hlen := (length_varint value).1
  rw [uintField, if_neg hvalue, key, List.length_append]
  omega

theorem length_lengthField_le (number : Nat) (content : List UInt8) :
    (lengthField number content).length ≤ content.length + 20 := by
  have hkey := (length_varint (number * 8 + 2)).2
  have hlen := (length_varint content.length).2
  rw [lengthField, key, List.length_append, List.length_append]
  omega

theorem length_stringField_le (number : Nat) (text : List UInt8) :
    (stringField number text).length ≤ text.length + 20 := by
  unfold stringField
  split
  next => exact Nat.zero_le _
  next => exact length_lengthField_le number text

theorem length_uintField_le (number value : Nat) :
    (uintField number value).length ≤ 20 := by
  have hkey := (length_varint (number * 8 + 0)).2
  have hlen := (length_varint value).2
  unfold uintField
  split
  next => exact Nat.zero_le _
  next =>
    rw [key, List.length_append]
    omega

/-- No bytes, or two at least, as fields have them. -/
def Sized (bytes : List UInt8) : Prop :=
  bytes = [] ∨ 2 ≤ bytes.length

section Sized

variable {left right : List UInt8}

theorem Sized.append (hleft : Sized left) (hright : Sized right) :
    Sized (left ++ right) := by
  rcases hleft with rfl | hleft
  · exact hright
  · right
    rw [List.length_append]
    exact Nat.le_add_right_of_le hleft

theorem lengthField_sized (number : Nat) (content : List UInt8) :
    Sized (lengthField number content) :=
  Or.inr (Nat.le_of_add_left_le (length_lengthField number content))

theorem stringField_sized (number : Nat) (text : List UInt8) :
    Sized (stringField number text) := by
  unfold stringField
  split
  next => exact Or.inl rfl
  next => exact lengthField_sized number text

theorem uintField_sized (number value : Nat) :
    Sized (uintField number value) := by
  by_cases hvalue : value = 0
  · exact Or.inl (if_pos hvalue)
  · exact Or.inr (length_uintField number hvalue)

theorem repeatedField_sized {α : Type} (number : Nat)
    (write : α → List UInt8) (items : List α) :
    Sized (repeatedField number write items) := by
  induction items with
  | nil => exact Or.inl rfl
  | cons head tail ih => exact (lengthField_sized number (write head)).append ih

end Sized

end Protobuf
