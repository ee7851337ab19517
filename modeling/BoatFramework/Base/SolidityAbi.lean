/-
The contract ABI of Solidity: a tuple is the heads of its components and behind
them the tails of those whose length is not fixed, each found by the offset in
its head.
-/
import BoatFramework.Base.FixedWidth

namespace SolidityAbi

/-- A number in a word of 32 bytes. -/
def word (value : Int) : List UInt8 :=
  FixedWidth.high 32 (FixedWidth.twos 32 value)

/-- The length of bytes that are filled up to whole words. -/
def paddedLength (length : Nat) : Nat :=
  (length + 31) / 32 * 32

/-- Bytes with zeros behind them up to whole words. -/
def padRight (bytes : List UInt8) : List UInt8 :=
  bytes ++ List.replicate (paddedLength bytes.length - bytes.length) 0

/-- What a component brings into a tuple: its own head, or a tail whose offset
is its head. -/
inductive Part where
  | static (head : List UInt8)
  | dynamic (tail : List UInt8)

def Part.headLength : Part → Nat
  | .static head => head.length
  | .dynamic _ => 32

def Part.tail : Part → List UInt8
  | .static _ => []
  | .dynamic tail => tail

def headsLength (parts : List Part) : Nat :=
  (parts.map Part.headLength).sum

/-- The heads, where the next tail begins at an offset. -/
def heads : Nat → List Part → List UInt8
  | _, [] => []
  | offset, .static head :: parts => head ++ heads offset parts
  | offset, .dynamic tail :: parts =>
      word offset ++ heads (offset + tail.length) parts

def tails (parts : List Part) : List UInt8 :=
  parts.flatMap Part.tail

def encodeTuple (parts : List Part) : List UInt8 :=
  heads (headsLength parts) parts ++ tails parts

/-- The types, as far as they differ in the encoding. -/
inductive Ty where
  | number
  | fixedBytes (size : Nat)
  | bytes
  | fixedArray (item : Ty) (length : Nat)
  | array (item : Ty)

/-- The values of a type. -/
def Ty.Value : Ty → Type
  | .number => Int
  | .fixedBytes size => {content : List UInt8 // content.length = size}
  | .bytes => List UInt8
  | .fixedArray item length => {items : List item.Value // items.length = length}
  | .array item => List item.Value

def Ty.isDynamic : Ty → Bool
  | .number | .fixedBytes _ => false
  | .bytes | .array _ => true
  | .fixedArray item _ => item.isDynamic

/-- An encoded value as a component. -/
def partOf (dynamic : Bool) (encoded : List UInt8) : Part :=
  if dynamic then .dynamic encoded else .static encoded

/-- The encoding of a value. -/
def Ty.encode : (type : Ty) → type.Value → List UInt8
  | .number, value => word value
  | .fixedBytes _, content => padRight content.1
  | .bytes, content => word (List.length content) ++ padRight content
  | .fixedArray item _, items =>
      encodeTuple (items.1.map fun value =>
        partOf item.isDynamic (item.encode value))
  | .array item, items =>
      word (List.length items) ++ encodeTuple (List.map (fun value =>
        partOf item.isDynamic (item.encode value)) items)

/-- An argument of a function. -/
structure Argument where
  type : Ty
  value : type.Value

def Argument.part (argument : Argument) : Part :=
  partOf argument.type.isDynamic (argument.type.encode argument.value)

def encodeArguments (arguments : List Argument) : List UInt8 :=
  encodeTuple (arguments.map Argument.part)

@[simp] theorem length_word (value : Int) : (word value).length = 32 :=
  FixedWidth.length_high 32 _

theorem le_paddedLength (length : Nat) : length ≤ paddedLength length := by
  unfold paddedLength
  omega

@[simp] theorem length_padRight (bytes : List UInt8) :
    (padRight bytes).length = paddedLength bytes.length := by
  have hle := le_paddedLength bytes.length
  rw [padRight, List.length_append, List.length_replicate]
  omega

section Tuples

variable (offset : Nat) (part : Part) (parts : List Part)

@[simp] theorem headsLength_nil : headsLength [] = 0 :=
  rfl

@[simp] theorem headsLength_cons :
    headsLength (part :: parts) = part.headLength + headsLength parts :=
  rfl

@[simp] theorem tails_nil : tails [] = [] :=
  rfl

@[simp] theorem tails_cons : tails (part :: parts) = part.tail ++ tails parts :=
  rfl

/-- The head of one component. -/
def Part.head : Part → List UInt8
  | .static head => head
  | .dynamic _ => word offset

theorem heads_cons : heads offset (part :: parts) =
    part.head offset ++ heads (offset + part.tail.length) parts := by
  cases part <;> rfl

@[simp] theorem Part.length_head : (part.head offset).length = part.headLength := by
  cases part with
  | static head => rfl
  | dynamic tail => exact length_word _

@[simp] theorem length_heads : (heads offset parts).length = headsLength parts := by
  induction parts generalizing offset with
  | nil => rfl
  | cons part parts ih =>
      rw [heads_cons, List.length_append, part.length_head, ih, headsLength_cons]

theorem length_encodeTuple :
    (encodeTuple parts).length = headsLength parts + (tails parts).length := by
  rw [encodeTuple, List.length_append, length_heads]

/-- A tuple without tails is its heads. -/
theorem encodeTuple_static (items : List (List UInt8)) :
    encodeTuple (items.map .static) = items.flatten := by
  have hheads (offset : Nat) : heads offset (items.map .static) =
      items.flatten := by
    induction items generalizing offset with
    | nil => rfl
    | cons item items ih =>
        rw [List.map_cons, heads, ih, List.flatten_cons]
  have htails : tails (items.map .static) = [] := by
    rw [tails, List.flatMap_map, List.flatMap_eq_nil_iff]
    exact fun _ _ => rfl
  rw [encodeTuple, hheads, htails, List.append_nil]

end Tuples

/-- Two components of one kind, with as many bytes. -/
inductive Part.Alike : Part → Part → Prop where
  | static {left right : List UInt8} (hlength : left.length = right.length) :
      Alike (.static left) (.static right)
  | dynamic {left right : List UInt8} (hlength : left.length = right.length) :
      Alike (.dynamic left) (.dynamic right)

section Alike

variable {left right : List Part}

/-- Tuples of components that are alike are equal where the components are; by
induction on them, with any bytes behind the heads. -/
theorem heads_tails_inj (halike : List.Forall₂ Part.Alike left right)
    {offset : Nat} (hheads : heads offset left = heads offset right)
    (htails : tails left = tails right) : left = right := by
  induction halike generalizing offset with
  | nil => rfl
  | @cons part part' parts parts' hpart hparts ih =>
      cases hpart with
      | @static head head' hlength =>
          obtain ⟨hhead, hheads⟩ : head = head' ∧
              heads offset parts = heads offset parts' :=
            List.append_inj hheads hlength
          rw [hhead, ih hheads htails]
      | @dynamic tail tail' hlength =>
          obtain ⟨htail, htails⟩ : tail = tail' ∧ tails parts = tails parts' :=
            List.append_inj htails hlength
          obtain ⟨-, hheads⟩ := List.append_inj hheads rfl
          rw [← hlength] at hheads
          rw [htail, ih hheads htails]

theorem headsLength_alike (halike : List.Forall₂ Part.Alike left right) :
    headsLength left = headsLength right := by
  induction halike with
  | nil => rfl
  | cons hpart _ ih =>
      rw [headsLength_cons, headsLength_cons, ih]
      cases hpart with
      | static hlength => rw [Part.headLength, hlength]; rfl
      | dynamic hlength => rfl

/-- Tuples with parts of the same lengths are equally long. -/
theorem length_encodeTuple_alike (halike : List.Forall₂ Part.Alike left right) :
    (encodeTuple left).length = (encodeTuple right).length := by
  have htails : (tails left).length = (tails right).length := by
    induction halike with
    | nil => rfl
    | cons hpart _ ih =>
        rw [tails_cons, tails_cons, List.length_append, List.length_append, ih]
        cases hpart with
        | static hlength => rfl
        | dynamic hlength => rw [Part.tail, Part.tail, hlength]
  rw [length_encodeTuple, length_encodeTuple, headsLength_alike halike, htails]

theorem encodeTuple_inj (halike : List.Forall₂ Part.Alike left right) :
    encodeTuple left = encodeTuple right ↔ left = right := by
  constructor
  · intro hequal
    have hlength := headsLength_alike halike
    rw [encodeTuple, encodeTuple, hlength] at hequal
    obtain ⟨hheads, htails⟩ := List.append_inj hequal (by simpa using hlength)
    exact heads_tails_inj halike hheads htails
  · exact fun hequal => by rw [hequal]

end Alike

end SolidityAbi
