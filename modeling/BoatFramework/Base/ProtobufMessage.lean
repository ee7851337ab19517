/-
What a message means that is written as fields: a number or a text that is left
out is zero or empty, and of a field that stands more than once the last one
counts, unless it is repeated.
-/
import BoatFramework.Base.ProtobufFields

namespace Protobuf

/-- The numbers that stand under a number. -/
def uintsOf (number : Nat) (fields : List Field) : List Nat :=
  fields.filterMap fun
    | .uint other value => if other = number then some value else none
    | .bytes _ _ => none

def uintOf (number : Nat) (fields : List Field) : Nat :=
  (uintsOf number fields).getLast?.getD 0

def textOf (number : Nat) (fields : List Field) : List UInt8 :=
  (contentOf number fields).getD []

/-- The field of a number; none for zero. -/
def uintFields (number value : Nat) : List Field :=
  if value = 0 then [] else [.uint number value]

/-- The field of a text; none for the empty one. -/
def textFields (number : Nat) (text : List UInt8) : List Field :=
  if text = [] then [] else [.bytes number text]

def contentFields (number : Nat) (contents : List (List UInt8)) : List Field :=
  contents.map (Field.bytes number)

section Write

variable {α : Type} (number : Nat)

theorem writeFields_append (left right : List Field) :
    writeFields (left ++ right) = writeFields left ++ writeFields right :=
  List.flatMap_append

theorem writeFields_uintFields (value : Nat) :
    writeFields (uintFields number value) = uintField number value := by
  unfold uintFields uintField
  split
  next => rfl
  next => exact List.append_nil _

theorem writeFields_textFields (text : List UInt8) :
    writeFields (textFields number text) = stringField number text := by
  unfold textFields stringField
  split
  next => rfl
  next => exact List.append_nil _

theorem writeFields_contentFields (write : α → List UInt8) (items : List α) :
    writeFields (contentFields number (items.map write)) =
      repeatedField number write items := by
  rw [contentFields, writeFields, List.map_map, List.flatMap_map]
  exact List.flatMap_def

end Write

section Read

variable (number other : Nat)

@[simp] theorem uintsOf_append (left right : List Field) :
    uintsOf number (left ++ right) =
      uintsOf number left ++ uintsOf number right :=
  List.filterMap_append

@[simp] theorem contentsOf_append (left right : List Field) :
    contentsOf number (left ++ right) =
      contentsOf number left ++ contentsOf number right :=
  List.filterMap_append

@[simp] theorem uintsOf_uintFields (value : Nat) :
    uintsOf other (uintFields number value) =
      if number = other ∧ value ≠ 0 then [value] else [] := by
  by_cases hvalue : value = 0
  · simp [uintFields, uintsOf, hvalue]
  · by_cases hnumber : number = other <;>
      simp [uintFields, uintsOf, hvalue, hnumber]

@[simp] theorem uintsOf_textFields (text : List UInt8) :
    uintsOf other (textFields number text) = [] := by
  unfold textFields
  split <;> rfl

@[simp] theorem uintsOf_contentFields (contents : List (List UInt8)) :
    uintsOf other (contentFields number contents) = [] := by
  simp [contentFields, uintsOf, List.filterMap_map]

@[simp] theorem contentsOf_uintFields (value : Nat) :
    contentsOf other (uintFields number value) = [] := by
  unfold uintFields
  split <;> rfl

@[simp] theorem contentsOf_textFields (text : List UInt8) :
    contentsOf other (textFields number text) =
      if number = other ∧ text ≠ [] then [text] else [] := by
  by_cases htext : text = []
  · simp [textFields, contentsOf, htext]
  · by_cases hnumber : number = other <;>
      simp [textFields, contentsOf, htext, hnumber]

@[simp] theorem contentsOf_contentFields (contents : List (List UInt8)) :
    contentsOf other (contentFields number contents) =
      if number = other then contents else [] := by
  by_cases hnumber : number = other <;>
    simp [contentFields, contentsOf, List.filterMap_map, hnumber]

/-- A number is zero where it is left out. -/
@[simp] theorem getLast_number (value : Nat) :
    (if value = 0 then [] else [value]).getLast?.getD 0 = value := by
  by_cases hvalue : value = 0 <;> simp [hvalue]

@[simp] theorem getLast_text (text : List UInt8) :
    (if text = [] then [] else [text]).getLast?.getD [] = text := by
  by_cases htext : text = [] <;> simp [htext]

end Read

section Numbered

variable {number : Nat} (hnumber : number < 2 ^ 29)

include hnumber

theorem uintFields_numbered {value : Nat} (hvalue : value < 2 ^ 64) :
    ∀ field ∈ uintFields number value, field.Numbered := by
  intro field hfield
  unfold uintFields at hfield
  split at hfield
  next => cases hfield
  next =>
    obtain rfl := List.mem_singleton.mp hfield
    exact ⟨hnumber, hvalue⟩

theorem contentFields_numbered (contents : List (List UInt8)) :
    ∀ field ∈ contentFields number contents, field.Numbered := by
  intro field hfield
  obtain ⟨content, _, rfl⟩ := List.mem_map.mp hfield
  exact hnumber

theorem textFields_numbered (text : List UInt8) :
    ∀ field ∈ textFields number text, field.Numbered := by
  intro field hfield
  unfold textFields at hfield
  split at hfield
  next => cases hfield
  next =>
    obtain rfl := List.mem_singleton.mp hfield
    exact hnumber

end Numbered

/-- A message whose fields are read as it is. -/
theorem parseFields_bind {α : Type} {fields : List Field}
    {read : List Field → Option α} {message : α}
    (hnumbered : ∀ field ∈ fields, field.Numbered)
    (hshort : (writeFields fields).length < 2 ^ 64)
    (hread : read fields = some message) :
    (parseFields (writeFields fields)).bind read = some message := by
  rw [parseFields_short hnumbered hshort, Option.bind_some, hread]

/-- A message inside is not longer than the one around it. -/
theorem length_inside_le {fields : List Field} (number : Nat)
    {contents : List (List UInt8)} {content : List UInt8}
    (hinside : contentFields number contents ⊆ fields)
    (hcontent : content ∈ contents) :
    content.length ≤ (writeFields fields).length :=
  length_content_le (hinside (List.mem_map_of_mem hcontent))

/-- The messages of a repeated field are read, each by itself. -/
theorem mapM_read {α : Type} {write : α → List UInt8}
    {read : List UInt8 → Option α} {items : List α}
    (hread : ∀ item ∈ items, read (write item) = some item) :
    (items.map write).mapM read = some items := by
  induction items with
  | nil => rfl
  | cons head tail ih =>
      obtain ⟨hhead, htail⟩ := List.forall_mem_cons.mp hread
      rw [List.map_cons, List.mapM_cons, hhead, ih htail]
      rfl

end Protobuf
