/-
Messages of protocol buffers as the list of their fields: each field is a number,
or bytes behind their length.  What is written of the fields is read again, so
that different fields are never written alike.
-/
import BoatFramework.Base.ProtobufReader

namespace Protobuf

/-- A field under its number. -/
inductive Field where
  | uint (number value : Nat)
  | bytes (number : Nat) (content : List UInt8)
deriving DecidableEq

def Field.write : Field → List UInt8
  | .uint number value => key number 0 ++ varint value
  | .bytes number content => lengthField number content

/-- What the wire format has room for. -/
def Field.Fits : Field → Prop
  | .uint number value => number < 2 ^ 29 ∧ value < 2 ^ 64
  | .bytes number content => number < 2 ^ 29 ∧ content.length < 2 ^ 64

def writeFields (fields : List Field) : List UInt8 :=
  fields.flatMap Field.write

/-- The field at the front of bytes, and what is behind it. -/
def parseField (bytes : List UInt8) : Option (Field × List UInt8) := do
  let (key, keyWidth) ← readVarint bytes
  let behind := bytes.drop keyWidth
  let (value, width) ← readVarint behind
  let rest := behind.drop width
  if key % 8 = 0 then some (.uint (key / 8) value, rest)
  else if key % 8 = 2 ∧ value ≤ rest.length then
    some (.bytes (key / 8) (rest.take value), rest.drop value)
  else none

def parseFieldsWithin : Nat → List UInt8 → Option (List Field)
  | _, [] => some []
  | 0, _ => none
  | rounds + 1, bytes => do
      let (field, rest) ← parseField bytes
      let fields ← parseFieldsWithin rounds rest
      some (field :: fields)

/-- All fields of a message; a message has no more of them than bytes. -/
def parseFields (bytes : List UInt8) : Option (List Field) :=
  parseFieldsWithin bytes.length bytes

/-- The contents that stand under a number. -/
def contentsOf (number : Nat) (fields : List Field) : List (List UInt8) :=
  fields.filterMap fun
    | .bytes other content => if other = number then some content else none
    | .uint _ _ => none

/-- The content under a number; the last one counts. -/
def contentOf (number : Nat) (fields : List Field) : Option (List UInt8) :=
  (contentsOf number fields).getLast?

/-- The content that is found by going through messages inside of messages,
under one number after the other. -/
def contentAt : List Nat → List UInt8 → Option (List UInt8)
  | [], bytes => some bytes
  | number :: path, bytes => do
      let fields ← parseFields bytes
      contentAt path (← contentOf number fields)

/-- What is asked of a field apart from the length of its content. -/
def Field.Numbered : Field → Prop
  | .uint number value => number < 2 ^ 29 ∧ value < 2 ^ 64
  | .bytes number _ => number < 2 ^ 29

instance : DecidablePred Field.Numbered
  | .uint _ _ => inferInstanceAs (Decidable (_ ∧ _))
  | .bytes _ _ => inferInstanceAs (Decidable (_ < _))

section Written

variable {field : Field} {fields : List Field} {rounds : Nat}

theorem Field.write_ne_nil (field : Field) : field.write ≠ [] := by
  intro hnil
  have hlength := congrArg List.length hnil
  cases field with
  | uint number value =>
      have hkey := (length_varint (number * 8 + 0)).1
      rw [Field.write, key, List.length_append, List.length_nil] at hlength
      omega
  | bytes number content =>
      have hcontent := length_lengthField number content
      rw [Field.write, List.length_nil] at hlength
      omega

/-- A field that is written is read, whatever stands behind it. -/
theorem parseField_write (rest : List UInt8) (hfits : field.Fits) :
    parseField (field.write ++ rest) = some (field, rest) := by
  cases field with
  | uint number value =>
      obtain ⟨hnumber, hvalue⟩ := hfits
      have hkey := readVarint_varint (varint value ++ rest)
        (show number * 8 + 0 < 2 ^ 64 by omega)
      have hread := readVarint_varint rest hvalue
      have hkind : (number * 8 + 0) % 8 = 0 := by omega
      have hback : (number * 8 + 0) / 8 = number := by omega
      rw [Field.write, key, List.append_assoc, parseField]
      simp only [hkey, hread, Option.bind_eq_bind, Option.bind_some,
        List.drop_left, if_pos hkind, hback]
  | bytes number content =>
      obtain ⟨hnumber, hcontent⟩ := hfits
      have hkey := readVarint_varint (varint content.length ++ (content ++ rest))
        (show number * 8 + 2 < 2 ^ 64 by omega)
      have hread := readVarint_varint (content ++ rest) hcontent
      have hkind : ¬(number * 8 + 2) % 8 = 0 := by omega
      have hlong : (number * 8 + 2) % 8 = 2 ∧
          content.length ≤ (content ++ rest).length := by
        rw [List.length_append]
        omega
      have hback : (number * 8 + 2) / 8 = number := by omega
      rw [Field.write, lengthField, key, List.append_assoc, List.append_assoc,
        parseField]
      simp only [hkey, hread, Option.bind_eq_bind, Option.bind_some,
        List.drop_left, if_neg hkind, if_pos hlong, hback, List.take_left]

theorem parseFieldsWithin_cons (hfits : field.Fits) (rest : List UInt8) :
    parseFieldsWithin (rounds + 1) (field.write ++ rest) =
      (parseFieldsWithin rounds rest).map (field :: ·) := by
  have hread := parseField_write rest hfits
  have hne : field.write ++ rest ≠ [] :=
    List.append_ne_nil_of_left_ne_nil field.write_ne_nil rest
  cases hall : field.write ++ rest with
  | nil => exact absurd hall hne
  | cons head tail =>
      rw [hall] at hread
      rw [parseFieldsWithin, hread]
      simp only [Option.bind_eq_bind, Option.bind_some]
      cases parseFieldsWithin rounds rest with
      | none => rfl
      | some others => rfl
      exact List.cons_ne_nil head tail

theorem length_le_writeFields (fields : List Field) :
    fields.length ≤ (writeFields fields).length := by
  induction fields with
  | nil => exact Nat.le_refl 0
  | cons head tail ih =>
      have hhead := List.length_pos_iff.mpr head.write_ne_nil
      rw [writeFields] at ih ⊢
      rw [List.flatMap_cons, List.length_append, List.length_cons]
      omega

theorem parseFieldsWithin_writeFields (hrounds : fields.length ≤ rounds)
    (hfits : ∀ field ∈ fields, field.Fits) :
    parseFieldsWithin rounds (writeFields fields) = some fields := by
  induction fields generalizing rounds with
  | nil =>
      cases rounds with
      | zero => rfl
      | succ rounds => rfl
  | cons head tail ih =>
      obtain ⟨hhead, htail⟩ := List.forall_mem_cons.mp hfits
      cases rounds with
      | zero => cases hrounds
      | succ rounds =>
          have hrest := ih (Nat.le_of_succ_le_succ hrounds) htail
          rw [writeFields] at hrest ⊢
          rw [List.flatMap_cons, parseFieldsWithin_cons hhead, hrest]
          rfl

/-- What is written of the fields is read again. -/
theorem parseFields_writeFields (hfits : ∀ field ∈ fields, field.Fits) :
    parseFields (writeFields fields) = some fields :=
  parseFieldsWithin_writeFields (length_le_writeFields fields) hfits

theorem length_write_le (hmem : field ∈ fields) :
    field.write.length ≤ (writeFields fields).length := by
  induction fields with
  | nil => cases hmem
  | cons head tail ih =>
      rw [writeFields] at ih ⊢
      rw [List.flatMap_cons, List.length_append]
      rcases List.mem_cons.mp hmem with rfl | hmem
      · exact Nat.le_add_right _ _
      · exact Nat.le_add_left_of_le (ih hmem)

/-- A content is not longer than the message around it. -/
theorem length_content_le {number : Nat} {content : List UInt8}
    (hmem : Field.bytes number content ∈ fields) :
    content.length ≤ (writeFields fields).length := by
  have hfield := length_write_le hmem
  have hcontent := length_lengthField number content
  rw [Field.write] at hfield
  omega

/-- A message that is not too long is read again. -/
theorem parseFields_short (hnumbered : ∀ field ∈ fields, field.Numbered)
    (hshort : (writeFields fields).length < 2 ^ 64) :
    parseFields (writeFields fields) = some fields := by
  apply parseFields_writeFields
  intro field hmem
  cases field with
  | uint number value => exact hnumbered _ hmem
  | bytes number content =>
      exact ⟨hnumbered _ hmem,
        Nat.lt_of_le_of_lt (length_content_le hmem) hshort⟩

/-- One step of a way through messages. -/
theorem contentAt_cons {number : Nat} {path : List Nat} {content : List UInt8}
    (hnumbered : ∀ field ∈ fields, field.Numbered)
    (hshort : (writeFields fields).length < 2 ^ 64)
    (hcontent : contentOf number fields = some content) :
    contentAt (number :: path) (writeFields fields) =
      contentAt path content := by
  rw [contentAt, parseFields_short hnumbered hshort]
  simp only [Option.bind_eq_bind, Option.bind_some, hcontent]

end Written

end Protobuf
