/-
The keys in a PEM text, by the elements of the bytes between its marks: where
the two containers of a private key have it, its curve and its public key.
-/
import BoatFramework.Base.DerElements
import BoatFramework.Utility.Pkcs

namespace BoatFramework

open Base64 Der

/-- What stands in a text at the places for it. -/
inductive KeyMark where
  | privateKey (octets : List UInt8)
  | curve (identifier : List UInt8)
  | publicKey (bits : List UInt8)
deriving DecidableEq

/-- The curve of an identifier: secp256k1 and secp256r1 are told by its last
bytes, SM2 by the first ones; shorter identifiers name none. -/
def namedCurve (identifier : List UInt8) : Option KeypairAlg :=
  if identifier.length < 3 then none
  else if [0x00, 0x0A].isSuffixOf identifier then some .secp256k1
  else if [0x03, 0x01, 0x07].isSuffixOf identifier then some .secp256r1
  else if identifier.length < 8 then none
  else if [0x2A, 0x81, 0x1C, 0xCF, 0x55, 0x01].isPrefixOf identifier then
    some .sm
  else none

section Elements

/-- An element of a tag is a mark. -/
def leaf (tag : UInt8) (mark : List UInt8 → KeyMark) (element : Element) :
    Row KeyMark :=
  if element.tag = tag then .found (mark element.contents) .whole else .whole

/-- Marks are looked for inside of an element of a tag. -/
def under (tag : UInt8) (inside : Element → Row KeyMark) (element : Element) :
    Row KeyMark :=
  if element.tag = tag then
    (elementsIn element.size element.bytes).bind inside
  else .whole

def isIdentifier (element : Element) : Bool :=
  element.tag == 0x06

def namesCurve (element : Element) : Bool :=
  isIdentifier element && (namedCurve element.contents).isSome

/-- The parts of a private key inside of a `PRIVATE KEY`. -/
def keyMarks (element : Element) : Row KeyMark :=
  (leaf 0x04 .privateKey element).andThen
    (under 0xA1 (leaf 0x03 .publicKey) element)

/-- A `PRIVATE KEY`: the identifiers of its algorithm up to one that names a
curve, and the private key in an octet string. -/
def infoMarks (element : Element) : Row KeyMark :=
  if element.tag.toNat / 16 = 0x3 then
    ((elementsIn element.size element.bytes).upTo namesCurve).bind
      (leaf 0x06 .curve)
  else under 0x04 (under 0x30 keyMarks) element

/-- A tagged part of an `EC PRIVATE KEY`, up to its identifier. -/
def partMarks (part : Row Element) : Row KeyMark :=
  (part.upTo isIdentifier).bind fun element =>
    (leaf 0x06 .curve element).andThen (leaf 0x03 .publicKey element)

/-- An `EC PRIVATE KEY`; as many bytes of each tagged part are passed over as
were gone through in those before. -/
def ecMarks : Nat → Row Element → Row KeyMark
  | _, .whole => .whole
  | _, .malformed => .malformed
  | _, .cut => .cut
  | passed, .found element rest =>
      if element.tag = 0x04 then
        .found (.privateKey element.contents) (ecMarks passed rest)
      else if element.tag.toNat / 16 = 0xA then
        let part := elementsIn (element.size - passed)
          (element.bytes.drop passed)
        (partMarks part).andThen
          (ecMarks (passed + placeOf isIdentifier part) rest)
      else ecMarks passed rest

end Elements

/-- A container, and where a private key is in the elements of its sequence. -/
structure Container where
  opening : List UInt8
  closing : List UInt8
  marks : Row Element → Row KeyMark

def ecPrivateKey : Container :=
  ⟨prikeyEcPkcsBegin, prikeyEcPkcsEnd, ecMarks 0⟩

def privateKeyInfo : Container :=
  ⟨prikeyPkcsBegin, prikeyPkcsEnd, fun row => row.bind infoMarks⟩

/-- The marks in the sequence that some bytes begin with. -/
def Container.read (container : Container) (size : Nat) (bytes : List UInt8) :
    Row KeyMark :=
  (headAt size bytes).read fun element =>
    if element.tag = 0x30 then
      container.marks (elementsIn element.size element.bytes)
    else .malformed

/-- The container of a text, and where it is opened. -/
def containerOf (input : CString) : Option (Container × Nat) :=
  match strstr ecPrivateKey.opening input.bytes with
  | some start => some (ecPrivateKey, start)
  | none =>
      match strstr privateKeyInfo.opening input.bytes with
      | some start => some (privateKeyInfo, start)
      | none => none

/-- Characters of a text and its terminator, without blanks and ends of lines,
if that many are there. -/
def charsAt (input : CString) (place count : Nat) : Option (List UInt8) :=
  if count = 0 ∨ place + count ≤ input.bytes.length + 1 then
    some ((((input.bytes ++ [0]).drop place).take count).filter fun c =>
      c ≠ 0x20 ∧ c ≠ 0x0A ∧ c ≠ 0x0D)
  else none

/-- The characters between the marks of a container, if it is closed; their
place and number are those of 16 bits. -/
def Container.charsFrom (container : Container) (input : CString)
    (start : Nat) : Option (Option (List UInt8)) :=
  match strstr container.closing input.bytes with
  | none => none
  | some stop =>
      some (charsAt input ((start + container.opening.length) % 2 ^ 16)
        (((stop : Int) - start - container.opening.length) % 2 ^ 16).toNat)

/-- The container of a text and the characters in it. -/
def pemContent (input : CString) : Option (Container × Option (List UInt8)) :=
  match containerOf input with
  | none => none
  | some (container, start) =>
      (container.charsFrom input start).map fun chars => (container, chars)

/-- The marks in base64 text, of which 160 bytes are decoded at most; there is
no text where its place is behind the end. -/
def Container.marksOf (container : Container) :
    Option (List UInt8) → Row KeyMark
  | none => .cut
  | some chars =>
      if DecodesInto160 chars then
        if Spelled chars ∧ 2 ≤ (leadingDigits chars).length then
          container.read ((leadingDigits chars).length * 3 / 4)
            (bytesOf 160 (leadingDigits chars))
        else .malformed
      else .cut

/-- The marks in a text that is in a container. -/
def pemMarks (input : CString) : Option (Row KeyMark) :=
  (pemContent input).map fun content => content.1.marksOf content.2

end BoatFramework
