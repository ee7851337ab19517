/-
Reading the wire format of protocol buffers: a number in groups of seven bits,
and where the content of a field stands that is behind its length.
-/
import BoatFramework.Base.Protobuf
import Mathlib.Algebra.Group.Nat.Defs

namespace Protobuf

/-- The number at the front of bytes and the groups it takes, of which there
are at most `groups`. -/
def readGroups : Nat → List UInt8 → Option (Nat × Nat)
  | 0, _ => none
  | _ + 1, [] => none
  | groups + 1, byte :: rest =>
      if byte.toNat < 0x80 then some (byte.toNat, 1)
      else (readGroups groups rest).map fun number =>
        (byte.toNat - 0x80 + 0x80 * number.1, number.2 + 1)

def readVarint (bytes : List UInt8) : Option (Nat × Nat) :=
  readGroups 10 bytes

/-- A part of a buffer. -/
structure Slice where
  start : Nat
  length : Nat
deriving DecidableEq

/-- The bytes of a part. -/
def Slice.of (slice : Slice) (buffer : List UInt8) : List UInt8 :=
  (buffer.drop slice.start).take slice.length

/-- The content of the field at the front of bytes; none where the field has no
length or is longer than what is there. -/
def fieldSlice (bytes : List UInt8) : Option Slice := do
  let (key, keyWidth) ← readVarint bytes
  if key % 8 ≠ 2 then none
  else
    let (length, lengthWidth) ← readVarint (bytes.drop keyWidth)
    let start := keyWidth + lengthWidth
    if bytes.length < start + length then none
    else some ⟨start, length⟩

section Groups

variable {byte : UInt8} {rest : List UInt8}

theorem readVarint_last (hbyte : byte.toNat < 0x80) :
    readVarint (byte :: rest) = some (byte.toNat, 1) :=
  if_pos hbyte

/-- A number whose first group is not the last takes two groups or more. -/
theorem readVarint_more (hbyte : ¬byte.toNat < 0x80) :
    readVarint (byte :: rest) = (readGroups 9 rest).map fun number =>
      (byte.toNat - 0x80 + 0x80 * number.1, number.2 + 1) :=
  if_neg hbyte

theorem readGroups_width {groups : Nat} {bytes : List UInt8}
    {number : Nat × Nat} (hread : readGroups groups bytes = some number) :
    1 ≤ number.2 ∧ number.2 ≤ bytes.length := by
  induction groups generalizing bytes number with
  | zero => cases hread
  | succ groups ih =>
      match bytes, hread with
      | byte :: rest, hread =>
          rw [readGroups] at hread
          split at hread
          next =>
            obtain rfl := Option.some.inj hread
            simp
          next =>
            obtain ⟨inner, hinner, rfl⟩ := Option.map_eq_some_iff.mp hread
            have hwidth := ih hinner
            simp only [List.length_cons]
            omega

/-- A number takes one group, or its first group is not the last. -/
theorem readGroups_cases {groups : Nat} {number : Nat × Nat}
    (hread : readGroups (groups + 1) (byte :: rest) = some number) :
    (byte.toNat < 0x80 ∧ number = (byte.toNat, 1)) ∨
      0x80 ≤ byte.toNat ∧ ∃ inner, readGroups groups rest = some inner ∧
        number = (byte.toNat - 0x80 + 0x80 * inner.1, inner.2 + 1) := by
  rw [readGroups] at hread
  split at hread
  next hbyte => exact .inl ⟨hbyte, (Option.some.inj hread).symm⟩
  next hbyte =>
    obtain ⟨inner, hinner, hnumber⟩ := Option.map_eq_some_iff.mp hread
    exact .inr ⟨Nat.le_of_not_lt hbyte, inner, hinner, hnumber.symm⟩

/-- A number of two groups. -/
theorem readVarint_two {number : Nat × Nat}
    (hread : readVarint (byte :: rest) = some number) (hwidth : number.2 = 2) :
    0x80 ≤ byte.toNat ∧ ∃ second content, rest = second :: content ∧
      second.toNat < 0x80 ∧
      number.1 = byte.toNat - 0x80 + 0x80 * second.toNat := by
  rcases readGroups_cases hread with ⟨_, rfl⟩ | ⟨hbyte, inner, hinner, rfl⟩
  · cases hwidth
  · refine ⟨hbyte, ?_⟩
    match rest, hinner with
    | second :: content, hinner =>
        rcases readGroups_cases hinner with
          ⟨hsecond, rfl⟩ | ⟨_, more, hmore, rfl⟩
        · exact ⟨second, content, rfl, hsecond, rfl⟩
        · have hone := (readGroups_width hmore).1
          simp only at hwidth
          omega

theorem toNat_byte {n : Nat} (hn : n < 256) : (UInt8.ofNat n).toNat = n := by
  rw [UInt8.toNat_ofNat', Nat.mod_eq_of_lt hn]

/-- What is written is read again, whatever stands behind it. -/
theorem readGroups_varintGroups {groups n : Nat} (rest : List UInt8)
    (hn : n < 0x80 ^ (groups + 1)) :
    readGroups (groups + 1) (varintGroups (groups + 1) n ++ rest) =
      some (n, (varintGroups (groups + 1) n).length) := by
  induction groups generalizing n with
  | zero =>
      have hbyte : (UInt8.ofNat n).toNat = n :=
        toNat_byte (by omega)
      rw [varintGroups, if_pos (by omega), List.singleton_append, readGroups,
        if_pos (by omega), hbyte]
      rfl
  | succ groups ih =>
      rw [varintGroups]
      by_cases hlast : n < 0x80
      · have hbyte : (UInt8.ofNat n).toNat = n :=
          toNat_byte (by omega)
        rw [if_pos hlast, List.singleton_append, readGroups,
          if_pos (by omega), hbyte]
        rfl
      · have hbyte : (UInt8.ofNat (n % 0x80 + 0x80)).toNat = n % 0x80 + 0x80 :=
          toNat_byte (by omega)
        have hrest : n / 0x80 < 0x80 ^ (groups + 1) := by
          rw [Nat.div_lt_iff_lt_mul (by decide), ← Nat.pow_succ]
          exact hn
        rw [if_neg hlast, List.cons_append, readGroups, if_neg (by omega),
          ih hrest, hbyte]
        simp only [Option.map_some, List.length_cons, Option.some.injEq,
          Prod.mk.injEq, and_true]
        omega

theorem readVarint_varint {n : Nat} (rest : List UInt8) (hn : n < 2 ^ 64) :
    readVarint (varint n ++ rest) = some (n, (varint n).length) :=
  readGroups_varintGroups rest (Nat.lt_trans hn (by decide))

end Groups

/-- Where a field is found. -/
theorem fieldSlice_eq_some {bytes : List UInt8} {slice : Slice} :
    fieldSlice bytes = some slice ↔
      ∃ key length, readVarint bytes = some key ∧ key.1 % 8 = 2 ∧
        readVarint (bytes.drop key.2) = some length ∧
        slice = ⟨key.2 + length.2, length.1⟩ ∧
        key.2 + length.2 + length.1 ≤ bytes.length := by
  unfold fieldSlice
  constructor
  · intro hslice
    obtain ⟨key, hkey, hslice⟩ := Option.bind_eq_some_iff.mp hslice
    dsimp only at hslice
    split at hslice
    next => cases hslice
    next hkind =>
      obtain ⟨length, hlength, hslice⟩ := Option.bind_eq_some_iff.mp hslice
      split at hslice
      next => cases hslice
      next hfits =>
        exact ⟨key, length, hkey, not_not.mp hkind, hlength,
          (Option.some.inj hslice).symm, Nat.le_of_not_lt hfits⟩
  · rintro ⟨key, length, hkey, hkind, hlength, rfl, hfits⟩
    simp only [hkey, hlength, Option.bind_eq_bind, Option.bind_some]
    rw [if_neg (not_not.mpr hkind), if_neg (Nat.not_lt.mpr hfits)]

/-- The content of a field that is written is found where it stands. -/
theorem fieldSlice_lengthField {number : Nat} {content : List UInt8}
    (rest : List UInt8) (hnumber : number < 2 ^ 29)
    (hcontent : content.length < 2 ^ 64) :
    ∃ slice, fieldSlice (lengthField number content ++ rest) = some slice ∧
      slice.of (lengthField number content ++ rest) = content := by
  have hkey : readVarint (lengthField number content ++ rest) =
      some (number * 8 + 2, (key number 2).length) := by
    rw [lengthField, List.append_assoc]
    exact readVarint_varint _ (by omega)
  have hdrop : (lengthField number content ++ rest).drop (key number 2).length =
      varint content.length ++ (content ++ rest) := by
    rw [lengthField, List.append_assoc, List.drop_left, List.append_assoc]
  have hlength := readVarint_varint (content ++ rest) hcontent
  refine ⟨⟨(key number 2).length + (varint content.length).length,
    content.length⟩, ?_, ?_⟩
  · simp only [fieldSlice, hkey, hdrop, hlength, Option.bind_eq_bind,
      Option.bind_some]
    rw [if_neg (by omega), if_neg]
    rw [lengthField, List.length_append, List.length_append, List.length_append]
    omega
  · rw [Slice.of, ← List.drop_drop, hdrop, List.drop_left, List.take_left]

end Protobuf
