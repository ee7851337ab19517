/-
Elements of BER in a buffer, read one behind the other, with lengths of at most
three octets.  A reading ends with its bytes, at what is no element in them, or
where the octets of a length would be behind the buffer.
-/
import BoatFramework.Base.Der

namespace Der

open ByteString

/-- What is read, in the order of the bytes, and how the reading ends. -/
inductive Row (α : Type) where
  | whole
  | malformed
  | cut
  | found (a : α) (rest : Row α)
deriving DecidableEq

namespace Row

variable {α β : Type}

/-- Another reading behind one that came to the end of its bytes. -/
def andThen : Row α → Row α → Row α
  | whole, next => next
  | malformed, _ => malformed
  | cut, _ => cut
  | found a rest, next => found a (rest.andThen next)

/-- A reading inside of each find. -/
def bind (inside : α → Row β) : Row α → Row β
  | whole => whole
  | malformed => malformed
  | cut => cut
  | found a rest => (inside a).andThen (rest.bind inside)

/-- No more is read behind the first find of some kind. -/
def upTo (last : α → Bool) : Row α → Row α
  | whole => whole
  | malformed => malformed
  | cut => cut
  | found a rest => if last a then found a whole else found a (rest.upTo last)

theorem bind_found (inside : α → Row β) (a : α) (rest : Row α) :
    (found a rest).bind inside = (inside a).andThen (rest.bind inside) :=
  rfl

theorem andThen_whole (row : Row α) : row.andThen whole = row := by
  induction row with
  | whole => rfl
  | malformed => rfl
  | cut => rfl
  | found a rest ih => exact congrArg (found a) ih

theorem upTo_never (row : Row α) : row.upTo (fun _ => false) = row := by
  induction row with
  | whole => rfl
  | malformed => rfl
  | cut => rfl
  | found a rest ih => exact congrArg (found a) ih

/-- Every find has a property, and the reading stays in the buffer. -/
def Inside (P : α → Prop) : Row α → Prop
  | whole => True
  | malformed => True
  | cut => False
  | found a rest => P a ∧ rest.Inside P

variable {P : α → Prop} {Q : β → Prop}

theorem andThen_inside {first next : Row α} (hfirst : first.Inside P)
    (hnext : next.Inside P) : (first.andThen next).Inside P := by
  induction first with
  | whole => exact hnext
  | malformed => exact trivial
  | cut => exact hfirst
  | found a rest ih => exact ⟨hfirst.1, ih hfirst.2⟩

theorem bind_inside {inside : α → Row β}
    (hinside : ∀ a, P a → (inside a).Inside Q) {row : Row α}
    (hrow : row.Inside P) : (row.bind inside).Inside Q := by
  induction row with
  | whole => exact trivial
  | malformed => exact trivial
  | cut => exact hrow
  | found a rest ih => exact andThen_inside (hinside a hrow.1) (ih hrow.2)

theorem upTo_inside (last : α → Bool) {row : Row α} (hrow : row.Inside P) :
    (row.upTo last).Inside P := by
  induction row with
  | whole => exact trivial
  | malformed => exact trivial
  | cut => exact hrow
  | found a rest ih =>
      rw [upTo]
      split
      · exact ⟨hrow.1, trivial⟩
      · exact ⟨hrow.1, ih hrow.2⟩

end Row

/-- An element in a buffer: its tag, how many octets are in front of its
contents, their number, and the buffer from there on. -/
structure Element where
  tag : UInt8
  header : Nat
  size : Nat
  bytes : List UInt8
deriving DecidableEq

namespace Element

variable (element : Element)

def contents : List UInt8 :=
  element.bytes.take element.size

def extent : Nat :=
  element.header + element.size

end Element

/-- What some bytes begin with. -/
inductive Head where
  | element (found : Element)
  | malformed
  | cut

def Head.read {α : Type} (inside : Element → Row α) : Head → Row α
  | element found => inside found
  | malformed => .malformed
  | cut => .cut

/-- How many octets of a length stand behind its first one. -/
def moreOctets (first : UInt8) : Option Nat :=
  if first < 0x80 then some 0
  else if first = 0x81 then some 1
  else if first = 0x82 then some 2
  else none

def statedLength (first : UInt8) (digits : List UInt8) : Nat :=
  if first < 0x80 then first.toNat else ofBigEndian digits

/-- An element is one of the first `size` bytes if it ends there. -/
def headAt (size : Nat) : List UInt8 → Head
  | tag :: first :: rest =>
      match moreOctets first with
      | none => .malformed
      | some more =>
          if rest.length < more then .cut
          else if 2 + more + statedLength first (rest.take more) ≤ size then
            .element ⟨tag, 2 + more, statedLength first (rest.take more),
              rest.drop more⟩
          else .malformed
  | _ => .cut

/-- The elements in the first `size` of some bytes, in so many rounds. -/
def elementsWithin : Nat → Nat → List UInt8 → Row Element
  | 0, _, _ => .whole
  | rounds + 1, size, bytes =>
      if size = 0 then .whole
      else
        (headAt size bytes).read fun element =>
          .found element (elementsWithin rounds (size - element.extent)
            (element.bytes.drop element.size))

/-- The elements in the first `size` of some bytes; each takes one at least. -/
def elementsIn (size : Nat) (bytes : List UInt8) : Row Element :=
  elementsWithin size size bytes

/-- How many bytes are in front of the first element of a kind, or in all of
them. -/
def placeOf (last : Element → Bool) : Row Element → Nat
  | .found element rest =>
      if last element then 0 else element.extent + placeOf last rest
  | _ => 0

/-- The first octet of a length is one of four kinds. -/
theorem moreOctets_cases (first : UInt8) :
    (first < 0x80 ∧ moreOctets first = some 0) ∨
      (first = 0x81 ∧ moreOctets first = some 1) ∨
      (first = 0x82 ∧ moreOctets first = some 2) ∨
      ¬first < 0x80 ∧ first ≠ 0x81 ∧ first ≠ 0x82 ∧
        moreOctets first = none := by
  unfold moreOctets
  by_cases hshort : first < 0x80
  · exact .inl ⟨hshort, if_pos hshort⟩
  by_cases hone : first = 0x81
  · subst hone
    exact .inr (.inl ⟨rfl, rfl⟩)
  by_cases htwo : first = 0x82
  · subst htwo
    exact .inr (.inr (.inl ⟨rfl, rfl⟩))
  · rw [if_neg hshort, if_neg hone, if_neg htwo]
    exact .inr (.inr (.inr ⟨hshort, hone, htwo, rfl⟩))

theorem moreOctets_le {first : UInt8} {more : Nat}
    (hmore : moreOctets first = some more) : more ≤ 2 := by
  rcases moreOctets_cases first with
    ⟨-, hcount⟩ | ⟨-, hcount⟩ | ⟨-, hcount⟩ | ⟨-, -, -, hnone⟩
  · obtain rfl := Option.some.inj (hcount.symm.trans hmore)
    decide
  · obtain rfl := Option.some.inj (hcount.symm.trans hmore)
    decide
  · obtain rfl := Option.some.inj (hcount.symm.trans hmore)
    decide
  · rw [hnone] at hmore
    cases hmore

/-- The octets that are read are those of a length. -/
theorem lengthOctets_of_moreOctets {first : UInt8} {digits : List UInt8}
    (hmore : moreOctets first = some digits.length) :
    LengthOctets (first :: digits) (statedLength first digits) := by
  unfold statedLength
  rcases moreOctets_cases first with
    ⟨hshort, hcount⟩ | ⟨rfl, hcount⟩ | ⟨rfl, hcount⟩ | ⟨-, -, -, hnone⟩
  · obtain rfl : digits = [] := List.eq_nil_of_length_eq_zero
      (Option.some.inj (hcount.symm.trans hmore)).symm
    rw [if_pos hshort]
    exact .short first hshort
  · have hlength := Option.some.inj (hcount.symm.trans hmore)
    have hlong := LengthOctets.long digits (Nat.le_of_eq hlength) (by omega)
    rw [← hlength] at hlong
    exact hlong
  · have hlength := Option.some.inj (hcount.symm.trans hmore)
    have hlong := LengthOctets.long digits (by omega) (by omega)
    rw [← hlength] at hlong
    exact hlong
  · rw [hnone] at hmore
    cases hmore

section Size

variable {size : Nat} {bytes : List UInt8} {element : Element}

/-- An element is some of the bytes, and stays in the first `size` of them. -/
theorem bytes_of_headAt (hhead : headAt size bytes = .element element) :
    element.bytes = bytes.drop element.header ∧ element.extent ≤ size ∧
      2 ≤ element.header ∧ element.header ≤ bytes.length := by
  match bytes, hhead with
  | tag :: first :: rest, hhead =>
      rw [headAt] at hhead
      cases hmore : moreOctets first with
      | none =>
          rw [hmore] at hhead
          cases hhead
      | some more =>
          rw [hmore] at hhead
          dsimp only at hhead
          by_cases hcut : rest.length < more
          · rw [if_pos hcut] at hhead
            cases hhead
          rw [if_neg hcut] at hhead
          by_cases hfits :
              2 + more + statedLength first (rest.take more) ≤ size
          · rw [if_pos hfits] at hhead
            cases hhead
            refine ⟨?_, hfits, Nat.le_add_right _ _, ?_⟩
            · rw [Nat.add_comm 2 more]
              rfl
            · simp only [List.length_cons]
              omega
          · rw [if_neg hfits] at hhead
            cases hhead

/-- More rounds than bytes read nothing more. -/
theorem elementsWithin_eq {rounds : Nat} (hrounds : size ≤ rounds)
    (bytes : List UInt8) :
    elementsWithin rounds size bytes = elementsIn size bytes := by
  have hall : ∀ rounds more size bytes, size ≤ rounds → size ≤ more →
      elementsWithin rounds size bytes = elementsWithin more size bytes := by
    intro rounds
    induction rounds with
    | zero =>
        intro more size bytes hzero _
        obtain rfl := Nat.le_zero.mp hzero
        cases more <;> rfl
    | succ rounds ih =>
        intro more size bytes hrounds hmore
        by_cases hzero : size = 0
        · subst hzero
          cases more <;> rfl
        obtain ⟨more, rfl⟩ := Nat.exists_eq_succ_of_ne_zero
          (show more ≠ 0 by omega)
        rw [elementsWithin, elementsWithin, if_neg hzero, if_neg hzero]
        cases hhead : headAt size bytes with
        | malformed => rfl
        | cut => rfl
        | element element =>
            obtain ⟨-, hextent, hheader, -⟩ := bytes_of_headAt hhead
            have hpos : 0 < element.extent := by
              rw [Element.extent]
              omega
            have hrest := ih more (size - element.extent)
              (element.bytes.drop element.size) (by omega) (by omega)
            exact congrArg (Row.found element) hrest
  exact hall rounds size size bytes hrounds (Nat.le_refl _)

/-- A header with three octets of room behind the bytes is in the buffer. -/
theorem headAt_ne_cut (hroom : size + 3 ≤ bytes.length) (hpos : 0 < size) :
    headAt size bytes ≠ .cut := by
  match bytes, hroom with
  | tag :: first :: rest, hroom =>
      rw [headAt]
      cases hmore : moreOctets first with
      | none => exact Head.noConfusion
      | some more =>
          have hfew := moreOctets_le hmore
          simp only [List.length_cons] at hroom
          dsimp only
          rw [if_neg (by omega)]
          split
          · exact Head.noConfusion
          · exact Head.noConfusion

/-- With that room behind them, elements are in the buffer, and so much room is
behind the contents of each. -/
theorem elementsIn_inside (hroom : size + 3 ≤ bytes.length) :
    (elementsIn size bytes).Inside fun element =>
      element.size + 3 ≤ element.bytes.length := by
  have hall : ∀ rounds size bytes, size + 3 ≤ List.length bytes →
      (elementsWithin rounds size bytes).Inside fun element =>
        element.size + 3 ≤ element.bytes.length := by
    intro rounds
    induction rounds with
    | zero => exact fun _ _ _ => trivial
    | succ rounds ih =>
        intro size bytes hroom
        rw [elementsWithin]
        by_cases hzero : size = 0
        · rw [if_pos hzero]
          exact trivial
        rw [if_neg hzero]
        cases hhead : headAt size bytes with
        | malformed =>
            unfold Head.read
            exact trivial
        | cut =>
            exact absurd hhead (headAt_ne_cut hroom (Nat.pos_of_ne_zero hzero))
        | element element =>
            unfold Head.read
            obtain ⟨hbytes, hextent, -⟩ := bytes_of_headAt hhead
            rw [Element.extent] at hextent
            have hlength : element.bytes.length =
                bytes.length - element.header := by
              rw [hbytes, List.length_drop]
            refine ⟨by omega, ih _ _ ?_⟩
            rw [List.length_drop, Element.extent]
            omega
  exact hall size size bytes hroom

end Size

end Der
