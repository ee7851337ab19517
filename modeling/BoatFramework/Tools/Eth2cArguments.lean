/-
The arguments of the functions of `eth2c.py` as values of the contract ABI, and
which of them get the words that the ABI gives them.
-/
import BoatFramework.Tools.Eth2cData

namespace BoatFramework

open SolidityAbi (word padRight paddedLength encodeTuple)

section Values

/-- A type of a fixed size in the ABI. -/
def FixedSizeType.abi : FixedSizeType → SolidityAbi.Ty
  | .address | .bool | .uint _ | .int _ => .number
  | .fixedBytes last => .fixedBytes (last.val + 1)

/-- The value that memory holds: of an integer or an address the bytes are the
lowest in front. -/
def FixedSizeType.abiValue :
    (type : FixedSizeType) → Bytes type.size → type.abi.Value
  | .address, value | .bool, value | .uint _, value =>
      (FixedWidth.ofLow value.1 : Int)
  | .int _, value => FixedWidth.signedOf value.1
  | .fixedBytes _, value => value

theorem length_map_abiValue (type : FixedSizeType)
    (values : List (Bytes type.size)) :
    (values.map type.abiValue).length = values.length :=
  List.length_map _

/-- An argument with its type in the ABI. -/
def SolidityInput.argument : SolidityInput → SolidityAbi.Argument
  | .fixedSize type value => ⟨type.abi, type.abiValue value⟩
  | .fixedSizeFixedArray type values =>
      ⟨.fixedArray type.abi values.length,
        ⟨values.map type.abiValue, length_map_abiValue type values⟩⟩
  | .fixedSizeNonFixedArray type values =>
      ⟨.array type.abi, values.map type.abiValue⟩
  | .string text => ⟨.bytes, text.bytes⟩
  | .bytes value => ⟨.bytes, value⟩
  | .nonFixedSizeFixedArray _ values =>
      ⟨.fixedArray .bytes values.length, ⟨values, rfl⟩⟩
  | .nonFixedSizeNonFixedArray _ values => ⟨.array .bytes, values⟩

/-- The call of a function of a contract: the selector and the arguments. -/
def solidityCall (keccak256 : List UInt8 → Block 32) (name : CString)
    (inputs : List SolidityInput) : List UInt8 :=
  (keccak256 (functionPrototype name inputs).bytes).bytes.take 4 ++
    SolidityAbi.encodeArguments (inputs.map SolidityInput.argument)

end Values

section Words

variable {type : FixedSizeType} (value : Bytes type.size)

/-- The word of a value in the ABI. -/
def abiWord (type : FixedSizeType) (value : Bytes type.size) : List UInt8 :=
  type.abi.encode (type.abiValue value)

/-- The byte that the ABI has in front of a number. -/
def abiFill (type : FixedSizeType) (value : Bytes type.size) : UInt8 :=
  if isSignedValueType type ∧ FixedWidth.signedOf value.1 < 0 then 0xff else 0

theorem word_ofLow {size : Nat} (hsize : size ≤ 32) (value : Bytes size) :
    word (FixedWidth.ofLow value.1) =
      List.replicate (32 - size) 0 ++ value.1.reverse := by
  have hword := FixedWidth.high_ofLow value.1 (32 - size)
  rwa [value.2, Nat.add_sub_cancel' hsize] at hword

theorem word_signedOf {size : Nat} (hsize : size ≤ 32) (value : Bytes size) :
    word (FixedWidth.signedOf value.1) =
      List.replicate (32 - size)
        (FixedWidth.signByte (FixedWidth.signedOf value.1)) ++
        value.1.reverse := by
  have hword := FixedWidth.high_signedOf value.1 (32 - size)
  rwa [value.2, Nat.add_sub_cancel' hsize] at hword

/-- A word of the ABI is a word of the generated functions, with the right byte
in front of it. -/
theorem abiWord_eq : abiWord type value =
    fixedWord (abiFill type value) type value := by
  have hsize := type.size_le
  cases type with
  | address => exact word_ofLow hsize value
  | bool => exact word_ofLow hsize value
  | uint width => exact word_ofLow hsize value
  | int width =>
      refine (word_signedOf hsize value).trans ?_
      rw [fixedWord, abiFill, FixedWidth.signByte]
      simp [isSignedValueType, isRightAlignedType]
  | fixedBytes last =>
      have hlast := last.isLt
      have hlength : value.1.length = last.val + 1 := value.2
      have hpadded : paddedLength value.1.length = 32 := by
        rw [hlength]
        unfold paddedLength
        omega
      have hfill : abiFill (.fixedBytes last) value = 0 :=
        if_neg fun hsigned => Bool.false_ne_true hsigned.1
      have hleft : fixedWord 0 (.fixedBytes last) value =
          value.1 ++ List.replicate (32 - (last.val + 1)) 0 :=
        if_neg Bool.false_ne_true
      rw [hfill, hleft, ← hlength, ← hpadded]
      rfl

theorem length_abiWord : (abiWord type value).length = 32 := by
  rw [abiWord_eq, length_fixedWord]

theorem fixedWord_inj {fill fill' : UInt8}
    (hright : isRightAlignedType type = true) :
    fixedWord fill type value = fixedWord fill' type value ↔
      type.size = 32 ∨ fill = fill' := by
  have hsize := type.size_le
  rw [fixedWord, fixedWord, if_pos hright, if_pos hright,
    List.append_left_inj]
  by_cases hwide : type.size = 32
  · simp [hwide]
  · have hmore : 32 - type.size ≠ 0 := by omega
    simp [hwide, hmore]

end Words

section Signs

variable {type : FixedSizeType} {value : Bytes type.size}

/-- The sign of a negative value is in front of it in its word, inside an array
with a length or elsewhere. -/
def SignKept (fixedArray : Bool) (type : FixedSizeType)
    (value : Bytes type.size) : Prop :=
  isSignedValueType type = true → FixedWidth.signedOf value.1 < 0 →
    type.size = 32 ∨ (isValueType type = true ∧ fixedArray = false)

instance (fixedArray : Bool) (type : FixedSizeType) (value : Bytes type.size) :
    Decidable (SignKept fixedArray type value) :=
  inferInstanceAs (Decidable (_ → _ → _))

theorem isRightAlignedType_of_signed
    (hsigned : isSignedValueType type = true) :
    isRightAlignedType type = true := by
  cases type with
  | int width => rfl
  | address | bool | uint width | fixedBytes last => cases hsigned

/-- A word is the one of the ABI where the byte in front is right, which only a
narrow negative value asks for. -/
theorem fixedWord_eq_abiWord {fill : UInt8}
    (hplain : ¬(isSignedValueType type = true ∧
      FixedWidth.signedOf value.1 < 0) → fill = 0) :
    fixedWord fill type value = abiWord type value ↔
      (isSignedValueType type = true → FixedWidth.signedOf value.1 < 0 →
        type.size = 32 ∨ fill = 0xff) := by
  rw [abiWord_eq]
  by_cases hnegative : isSignedValueType type = true ∧
      FixedWidth.signedOf value.1 < 0
  · have hfill : abiFill type value = 0xff := if_pos hnegative
    rw [hfill, fixedWord_inj value (isRightAlignedType_of_signed hnegative.1)]
    exact ⟨fun hword _ _ => hword, fun hword => hword hnegative.1 hnegative.2⟩
  · have hfill : abiFill type value = 0 := if_neg hnegative
    rw [hfill, hplain hnegative]
    exact iff_of_true rfl fun hsigned hvalue =>
      absurd ⟨hsigned, hvalue⟩ hnegative

theorem signedWord_eq_iff :
    signedWord type value = abiWord type value ↔ SignKept false type value := by
  have hplain (hnegative : ¬(isSignedValueType type = true ∧
      FixedWidth.signedOf value.1 < 0)) : signFill type value = 0 :=
    if_neg fun hall => hnegative ⟨hall.1, hall.2.2⟩
  rw [signedWord, fixedWord_eq_abiWord hplain, SignKept]
  refine forall_congr' fun hsigned => forall_congr' fun hvalue =>
    or_congr Iff.rfl ?_
  rw [signFill]
  by_cases hdirect : isValueType type = true <;>
    simp [hsigned, hvalue, hdirect]

theorem fixedWord_zero_eq_iff :
    fixedWord 0 type value = abiWord type value ↔ SignKept true type value := by
  rw [fixedWord_eq_abiWord fun _ => rfl, SignKept]
  simp

/-- The signs of the values of an argument are in front of them. -/
def SolidityInput.SignsKept : SolidityInput → Prop
  | .fixedSize type value => SignKept false type value
  | .fixedSizeFixedArray type values =>
      ∀ value ∈ values, SignKept true type value
  | .fixedSizeNonFixedArray type values =>
      ∀ value ∈ values, SignKept false type value
  | _ => True

instance : (input : SolidityInput) → Decidable input.SignsKept
  | .fixedSize type value =>
      inferInstanceAs (Decidable (SignKept false type value))
  | .fixedSizeFixedArray type values =>
      inferInstanceAs (Decidable (∀ value ∈ values, SignKept true type value))
  | .fixedSizeNonFixedArray type values =>
      inferInstanceAs (Decidable (∀ value ∈ values, SignKept false type value))
  | .string _ | .bytes _ | .nonFixedSizeFixedArray _ _
  | .nonFixedSizeNonFixedArray _ _ => inferInstanceAs (Decidable True)

end Signs

section Parts

variable {input : SolidityInput} {inputs : List SolidityInput}

/-- Words in a row are equal where all of them are; by induction on them. -/
theorem flatMap_words_inj {α : Type} {left right : α → List UInt8}
    (hleft : ∀ a, (left a).length = 32) (hright : ∀ a, (right a).length = 32)
    (list : List α) :
    list.flatMap left = list.flatMap right ↔ ∀ a ∈ list, left a = right a := by
  induction list with
  | nil => simp
  | cons a list ih =>
      rw [List.flatMap_cons, List.flatMap_cons, List.forall_mem_cons, ← ih]
      constructor
      · exact fun hall => List.append_inj hall (by rw [hleft, hright])
      · rintro ⟨hhead, hlist⟩
        rw [hhead, hlist]

/-- What an argument is in the tuple of the ABI. -/
def SolidityInput.abiPart : SolidityInput → SolidityAbi.Part
  | .fixedSize type value => .static (abiWord type value)
  | .fixedSizeFixedArray type values => .static (values.flatMap (abiWord type))
  | .fixedSizeNonFixedArray type values =>
      .dynamic (word values.length ++ values.flatMap (abiWord type))
  | input => input.part

theorem isDynamic_abi (type : FixedSizeType) : type.abi.isDynamic = false := by
  cases type <;> rfl

theorem encodeTuple_abiValues (type : FixedSizeType)
    (values : List (Bytes type.size)) :
    encodeTuple ((values.map type.abiValue).map fun value =>
        SolidityAbi.partOf type.abi.isDynamic (type.abi.encode value)) =
      values.flatMap (abiWord type) := by
  have hwords := SolidityAbi.encodeTuple_static (values.map (abiWord type))
  rw [List.map_map] at hwords
  rw [isDynamic_abi, List.map_map, List.flatMap]
  exact hwords

theorem SolidityInput.argument_part (input : SolidityInput) :
    input.argument.part = input.abiPart := by
  cases input with
  | fixedSize type value =>
      change SolidityAbi.partOf type.abi.isDynamic (abiWord type value) = _
      rw [isDynamic_abi]
      rfl
  | fixedSizeFixedArray type values =>
      refine (congrArg (SolidityAbi.partOf type.abi.isDynamic)
        (encodeTuple_abiValues type values)).trans ?_
      rw [isDynamic_abi]
      rfl
  | fixedSizeNonFixedArray type values =>
      have hlength : word (values.map type.abiValue).length =
          word values.length := by
        rw [List.length_map]
      exact congrArg SolidityAbi.Part.dynamic
        (congrArg₂ (· ++ ·) hlength (encodeTuple_abiValues type values))
  | string text => rfl
  | bytes value => rfl
  | nonFixedSizeFixedArray type values => rfl
  | nonFixedSizeNonFixedArray type values => rfl

theorem SolidityInput.part_eq_iff :
    input.part = input.abiPart ↔ input.SignsKept := by
  cases input with
  | fixedSize type value =>
      rw [part, abiPart, SolidityAbi.Part.static.injEq]
      exact signedWord_eq_iff
  | fixedSizeFixedArray type values =>
      rw [part, abiPart, SolidityAbi.Part.static.injEq,
        flatMap_words_inj (fun value => length_fixedWord _ value)
          length_abiWord]
      exact forall₂_congr fun _ _ => fixedWord_zero_eq_iff
  | fixedSizeNonFixedArray type values =>
      rw [part, abiPart, SolidityAbi.Part.dynamic.injEq, List.append_right_inj,
        flatMap_words_inj length_signedWord length_abiWord]
      exact forall₂_congr fun _ _ => signedWord_eq_iff
  | string text => exact iff_of_true rfl trivial
  | bytes value => exact iff_of_true rfl trivial
  | nonFixedSizeFixedArray type values => exact iff_of_true rfl trivial
  | nonFixedSizeNonFixedArray type values => exact iff_of_true rfl trivial

theorem alike_self (part : SolidityAbi.Part) :
    SolidityAbi.Part.Alike part part := by
  cases part with
  | static head => exact .static rfl
  | dynamic tail => exact .dynamic rfl

theorem SolidityInput.part_alike (input : SolidityInput) :
    SolidityAbi.Part.Alike input.part input.abiPart := by
  cases input with
  | fixedSize type value =>
      exact .static
        ((length_signedWord value).trans (length_abiWord value).symm)
  | fixedSizeFixedArray type values =>
      refine .static ?_
      rw [length_flatMap_word (fun value => length_fixedWord _ value),
        length_flatMap_word length_abiWord]
  | fixedSizeNonFixedArray type values =>
      refine .dynamic ?_
      rw [List.length_append, List.length_append,
        length_flatMap_word length_signedWord,
        length_flatMap_word length_abiWord]
  | string text => exact alike_self _
  | bytes value => exact alike_self _
  | nonFixedSizeFixedArray type values => exact alike_self _
  | nonFixedSizeNonFixedArray type values => exact alike_self _

theorem parts_alike {part : SolidityInput → SolidityAbi.Part}
    (hpart : ∀ input, SolidityAbi.Part.Alike (part input) input.abiPart)
    (inputs : List SolidityInput) :
    List.Forall₂ SolidityAbi.Part.Alike (inputs.map part)
      (inputs.map SolidityInput.abiPart) := by
  rw [List.forall₂_map_left_iff, List.forall₂_map_right_iff, List.forall₂_same]
  exact fun input _ => hpart input

theorem encodeArguments_eq (inputs : List SolidityInput) :
    SolidityAbi.encodeArguments (inputs.map SolidityInput.argument) =
      encodeTuple (inputs.map SolidityInput.abiPart) := by
  rw [SolidityAbi.encodeArguments, List.map_map]
  congr 1
  exact List.map_congr_left fun input _ => input.argument_part

/-- Parts that are alike make the encoding of the ABI where each is the one of
its argument. -/
theorem encodeTuple_parts_iff {part : SolidityInput → SolidityAbi.Part}
    (hpart : ∀ input, SolidityAbi.Part.Alike (part input) input.abiPart)
    (inputs : List SolidityInput) :
    encodeTuple (inputs.map part) =
        SolidityAbi.encodeArguments (inputs.map SolidityInput.argument) ↔
      ∀ input ∈ inputs, part input = input.abiPart := by
  rw [encodeArguments_eq,
    SolidityAbi.encodeTuple_inj (parts_alike hpart inputs)]
  exact List.map_inj_left

theorem length_encodeTuple_parts {part : SolidityInput → SolidityAbi.Part}
    (hpart : ∀ input, SolidityAbi.Part.Alike (part input) input.abiPart)
    (inputs : List SolidityInput) :
    (encodeTuple (inputs.map part)).length =
      (SolidityAbi.encodeArguments
        (inputs.map SolidityInput.argument)).length := by
  rw [encodeArguments_eq]
  exact SolidityAbi.length_encodeTuple_alike (parts_alike hpart inputs)

end Parts

end BoatFramework
