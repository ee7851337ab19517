/-
The recursive length prefix encoding of Ethereum: byte strings and lists of
items, each behind a prefix that gives its kind and its length.  `split` reads
one prefix back, and from it the encoding is prefix free and injective.
-/
import BoatFramework.Base.BigEndian

namespace Rlp

open ByteString

/-- What the encoding ranges over. -/
inductive Item where
  | str (bytes : List UInt8)
  | list (items : List Item)

/-- The prefix of a payload of `len` bytes: one byte up to 55, and from 56 on the
length of the length followed by the length. -/
def lengthPrefix (base len : Nat) : List UInt8 :=
  if len ≤ 55 then [UInt8.ofNat (base + len)]
  else UInt8.ofNat (base + 55 + (bigEndian len).length) :: bigEndian len

/-- A single byte below `0x80` is its own encoding. -/
def isSingle : List UInt8 → Bool
  | [byte] => byte.toNat ≤ 0x7f
  | _ => false

def encodeString (bytes : List UInt8) : List UInt8 :=
  if isSingle bytes then bytes
  else lengthPrefix 0x80 bytes.length ++ bytes

mutual

def encode : Item → List UInt8
  | .str bytes => encodeString bytes
  | .list items =>
      lengthPrefix 0xc0 (encodeAll items).length ++ encodeAll items

def encodeAll : List Item → List UInt8
  | [] => []
  | item :: items => encode item ++ encodeAll items

end

/-- What stands behind the prefix of an item. -/
def payload : Item → List UInt8
  | .str bytes => bytes
  | .list items => encodeAll items

def isList : Item → Bool
  | .str _ => false
  | .list _ => true

@[simp] theorem encodeAll_nil : encodeAll [] = [] := by
  simp [encodeAll]

@[simp] theorem encodeAll_cons (item : Item) (items : List Item) :
    encodeAll (item :: items) = encode item ++ encodeAll items := by
  simp [encodeAll]

theorem encode_str (bytes : List UInt8) :
    encode (.str bytes) = encodeString bytes := by
  simp [encode]

theorem encode_list (items : List Item) :
    encode (.list items) =
      lengthPrefix 0xc0 (encodeAll items).length ++ encodeAll items := by
  simp [encode]

theorem isSingle_iff (bytes : List UInt8) :
    isSingle bytes ↔ ∃ byte, bytes = [byte] ∧ byte.toNat ≤ 0x7f := by
  match bytes with
  | [] => simp [isSingle]
  | [byte] => simp [isSingle]
  | _ :: _ :: _ => simp [isSingle]

theorem length_lengthPrefix (base len : Nat) :
    (lengthPrefix base len).length =
      1 + if len ≤ 55 then 0 else (bigEndian len).length := by
  unfold lengthPrefix
  split
  · rfl
  · simp [Nat.add_comm]

theorem length_encodeString (bytes : List UInt8) :
    (encodeString bytes).length =
      if isSingle bytes then 1
      else (lengthPrefix 0x80 bytes.length).length + bytes.length := by
  unfold encodeString
  split
  next hsingle =>
    obtain ⟨byte, rfl, _⟩ := (isSingle_iff bytes).mp hsingle
    rfl
  next => rw [List.length_append]

theorem length_le_length_encodeString (bytes : List UInt8) :
    bytes.length ≤ (encodeString bytes).length := by
  unfold encodeString
  split
  · exact Nat.le_refl _
  · rw [List.length_append]
    omega

theorem encode_ne_nil (item : Item) : encode item ≠ [] := by
  cases item with
  | str bytes =>
      rw [encode_str, encodeString]
      split
      next hsingle =>
        obtain ⟨byte, rfl, _⟩ := (isSingle_iff bytes).mp hsingle
        simp
      next => simp [lengthPrefix]; split <;> simp
  | list items =>
      rw [encode_list, lengthPrefix]
      split <;> simp

/-- The payload and the rest behind a length prefix of the given base. -/
def splitLong (base first : Nat) (rest : List UInt8) :
    List UInt8 × List UInt8 :=
  if first ≤ base + 55 then
    (rest.take (first - base), rest.drop (first - base))
  else
    let lenSize := first - base - 55
    let len := ofBigEndian (rest.take lenSize)
    ((rest.drop lenSize).take len, (rest.drop lenSize).drop len)

/-- Read one item off a stream: its kind, its payload and what follows it. -/
def split : List UInt8 → Option (Bool × List UInt8 × List UInt8)
  | [] => none
  | first :: rest =>
      if first.toNat ≤ 0x7f then some (false, [first], rest)
      else if first.toNat < 0xc0 then
        some (false, splitLong 0x80 first.toNat rest)
      else some (true, splitLong 0xc0 first.toNat rest)

/-- The prefix of a payload below `256 ^ 8` bytes reads back. -/
theorem lengthPrefix_eq_cons (base len : Nat) (hbase : base + 64 ≤ 256)
    (hlen : len < 256 ^ 8) :
    ∃ first tail, lengthPrefix base len = first :: tail ∧
      base ≤ first.toNat ∧ first.toNat < base + 64 ∧
      ∀ body rest : List UInt8, body.length = len →
        splitLong base first.toNat (tail ++ (body ++ rest)) = (body, rest) := by
  unfold lengthPrefix
  split
  next hshort =>
    refine ⟨_, [], rfl, ?_⟩
    have hfirst : (UInt8.ofNat (base + len)).toNat = base + len := by
      rw [UInt8.toNat_ofNat']
      omega
    rw [hfirst]
    refine ⟨by omega, by omega, fun body rest hbody => ?_⟩
    rw [splitLong, if_pos (by omega), Nat.add_sub_cancel_left, ← hbody]
    simp
  next hlong =>
    have hsize : (bigEndian len).length ≤ 8 :=
      (length_bigEndian_le_iff len 8).mpr hlen
    have hpos : 0 < (bigEndian len).length :=
      length_bigEndian_pos (by omega)
    refine ⟨_, bigEndian len, rfl, ?_⟩
    have hfirst : (UInt8.ofNat (base + 55 + (bigEndian len).length)).toNat =
        base + 55 + (bigEndian len).length := by
      rw [UInt8.toNat_ofNat']
      omega
    rw [hfirst]
    refine ⟨by omega, by omega, fun body rest hbody => ?_⟩
    have hlenSize : base + 55 + (bigEndian len).length - base - 55 =
        (bigEndian len).length := by omega
    rw [splitLong, if_neg (by omega), hlenSize]
    simp [ofBigEndian_bigEndian, ← hbody]

/-- Reading an item off the stream it was written to gives it back. -/
theorem split_encode (item : Item) (rest : List UInt8)
    (hsize : (encode item).length < 256 ^ 8) :
    split (encode item ++ rest) = some (isList item, payload item, rest) := by
  cases item with
  | str bytes =>
      rw [encode_str, encodeString] at hsize ⊢
      by_cases hsingle : isSingle bytes
      · obtain ⟨byte, rfl, hbyte⟩ := (isSingle_iff bytes).mp hsingle
        simp [hsingle, split, hbyte, isList, payload]
      · rw [if_neg hsingle, List.length_append] at hsize
        obtain ⟨first, tail, hspelled, hlow, hhigh, hsplit⟩ :=
          lengthPrefix_eq_cons 0x80 bytes.length (by omega) (by omega)
        rw [if_neg hsingle, hspelled, List.append_assoc, List.cons_append, split,
          if_neg (by omega), if_pos (by omega), hsplit bytes rest rfl]
        rfl
  | list items =>
      rw [encode_list] at hsize ⊢
      rw [List.length_append] at hsize
      obtain ⟨first, tail, hspelled, hlow, hhigh, hsplit⟩ :=
        lengthPrefix_eq_cons 0xc0 (encodeAll items).length (by omega) (by omega)
      rw [hspelled, List.append_assoc, List.cons_append, split,
        if_neg (by omega), if_neg (by omega), hsplit _ rest rfl]
      rfl

theorem length_encodeAll_lt (items : List Item) :
    (encodeAll items).length < (encode (.list items)).length := by
  rw [encode_list, List.length_append, length_lengthPrefix]
  omega

mutual

/-- No encoding is a proper prefix of another one. -/
theorem encode_append_inj (left right : Item) (leftRest rightRest : List UInt8)
    (hleft : (encode left).length < 256 ^ 8)
    (hright : (encode right).length < 256 ^ 8)
    (heq : encode left ++ leftRest = encode right ++ rightRest) :
    left = right ∧ leftRest = rightRest := by
  have hsplit : some (isList left, payload left, leftRest) =
      some (isList right, payload right, rightRest) := by
    rw [← split_encode left leftRest hleft, heq,
      split_encode right rightRest hright]
  simp only [Option.some.injEq, Prod.mk.injEq] at hsplit
  obtain ⟨hkind, hpayload, hrest⟩ := hsplit
  refine ⟨?_, hrest⟩
  match left, right with
  | .str leftBytes, .str rightBytes => exact congrArg Item.str hpayload
  | .str _, .list _ => simp [isList] at hkind
  | .list _, .str _ => simp [isList] at hkind
  | .list leftItems, .list rightItems =>
      have hleftItems := length_encodeAll_lt leftItems
      have hrightItems := length_encodeAll_lt rightItems
      exact congrArg Item.list (encodeAll_inj leftItems rightItems
        (by omega) (by omega) hpayload)

theorem encodeAll_inj (left right : List Item)
    (hleft : (encodeAll left).length < 256 ^ 8)
    (hright : (encodeAll right).length < 256 ^ 8)
    (heq : encodeAll left = encodeAll right) : left = right := by
  match left, right with
  | [], [] => rfl
  | [], item :: items => simp [encode_ne_nil] at heq
  | item :: items, [] => simp [encode_ne_nil] at heq
  | leftItem :: leftItems, rightItem :: rightItems =>
      simp only [encodeAll_cons, List.length_append] at hleft hright heq
      obtain ⟨hitem, hitems⟩ := encode_append_inj leftItem rightItem _ _
        (by omega) (by omega) heq
      rw [hitem, encodeAll_inj leftItems rightItems (by omega) (by omega) hitems]

end

/-- Two items of different structure or content never share an encoding. -/
theorem encode_injective (left right : Item)
    (hleft : (encode left).length < 256 ^ 8)
    (hright : (encode right).length < 256 ^ 8)
    (heq : encode left = encode right) : left = right :=
  (encode_append_inj left right [] [] hleft hright (by simpa using heq)).1

example : encode (.list [.str [0x63, 0x61, 0x74], .list [], .str [0x80]]) =
    [0xc7, 0x83, 0x63, 0x61, 0x74, 0xc0, 0x81, 0x80] := by decide

end Rlp
