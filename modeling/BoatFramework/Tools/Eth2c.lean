/-
The functions that `eth2c.py` generates from the ABI of a Solidity contract.
Each builds the data of a call in one block, the heads of the arguments and
behind them the data of those without a fixed size.  The generators for the
other chains with Solidity contracts write the same statements.
-/
import BoatFramework.Base.SolidityAbi
import BoatFramework.Tools.Generated
import BoatFramework.Tx.CallContract

namespace BoatFramework

/-- The widths of the integer types. -/
inductive IntegerWidth where
  | w8 | w16 | w32 | w64 | w128 | w256
deriving DecidableEq

def IntegerWidth.size : IntegerWidth → Nat
  | .w8 => 1
  | .w16 => 2
  | .w32 => 4
  | .w64 => 8
  | .w128 => 16
  | .w256 => 32

/-- The types of `type_mapping` that have a fixed size, `fixedBytes 0` being
`bytes1`. -/
inductive FixedSizeType where
  | address
  | bool
  | uint (width : IntegerWidth)
  | int (width : IntegerWidth)
  | fixedBytes (last : Fin 32)
deriving DecidableEq

/-- The size of the C type. -/
def FixedSizeType.size : FixedSizeType → Nat
  | .address => 20
  | .bool => 1
  | .uint width | .int width => width.size
  | .fixedBytes last => last.val + 1

/-- The types without a fixed size. -/
inductive NonFixedSizeType where
  | string
  | bytes
deriving DecidableEq

/-- An argument of a generated function, as the memory of the caller holds it.
A length that is passed along is what a `BUINT32` takes of it. -/
inductive SolidityInput where
  | fixedSize (type : FixedSizeType) (value : Bytes type.size)
  | fixedSizeFixedArray (type : FixedSizeType) (values : List (Bytes type.size))
  | fixedSizeNonFixedArray (type : FixedSizeType)
      (values : List (Bytes type.size))
  | string (text : CString)
  | bytes (value : List UInt8)
  | nonFixedSizeFixedArray (type : NonFixedSizeType)
      (values : List (List UInt8))
  | nonFixedSizeNonFixedArray (type : NonFixedSizeType)
      (values : List (List UInt8))

section Types

/-- The parameter is the value itself and not a pointer to it. -/
def isValueType : FixedSizeType → Bool
  | .bool => true
  | .uint width | .int width => decide (width.size ≤ 8)
  | .address | .fixedBytes _ => false

def isRightAlignedType : FixedSizeType → Bool
  | .fixedBytes _ => false
  | _ => true

/-- `require_endian_change` on a type, or on an array of it without a length. -/
def requireEndianChange (nonFixedArray : Bool) : FixedSizeType → Bool
  | .address => true
  | .bool => nonFixedArray
  | .uint width | .int width => nonFixedArray || width != .w8
  | .fixedBytes _ => false

/-- `is_signed_value_type` on a type, or on an array of it without a length. -/
def isSignedValueType : FixedSizeType → Bool
  | .int _ => true
  | _ => false

end Types

section Prototype

/-- The name of a type in the prototype. -/
def FixedSizeType.name : FixedSizeType → List Char
  | .address => "address".toList
  | .bool => "bool".toList
  | .uint width => "uint".toList ++ Nat.toDigits 10 (8 * width.size)
  | .int width => "int".toList ++ Nat.toDigits 10 (8 * width.size)
  | .fixedBytes last => "bytes".toList ++ Nat.toDigits 10 (last.val + 1)

def NonFixedSizeType.name : NonFixedSizeType → List Char
  | .string => "string".toList
  | .bytes => "bytes".toList

/-- The brackets of an array, with its length where it has one. -/
def brackets : Option Nat → List Char
  | none => ['[', ']']
  | some length => '[' :: (Nat.toDigits 10 length ++ [']'])

/-- The type of a parameter as the ABI names it. -/
def SolidityInput.typeName : SolidityInput → List Char
  | .fixedSize type _ => type.name
  | .fixedSizeFixedArray type values =>
      type.name ++ brackets (some values.length)
  | .fixedSizeNonFixedArray type _ => type.name ++ brackets none
  | .string _ => NonFixedSizeType.string.name
  | .bytes _ => NonFixedSizeType.bytes.name
  | .nonFixedSizeFixedArray type values =>
      type.name ++ brackets (some values.length)
  | .nonFixedSizeNonFixedArray type _ => type.name ++ brackets none

/-- The types between the parentheses. -/
def typeList (inputs : List SolidityInput) : List Char :=
  [','].intercalate (inputs.map SolidityInput.typeName)

/-- Characters of ASCII other than NUL. -/
abbrev Visible (text : List Char) : Prop :=
  text.all (fun c => decide (0 < c.toNat ∧ c.toNat < 128)) = true

theorem visible_append {front back : List Char} (hfront : Visible front)
    (hback : Visible back) : Visible (front ++ back) := by
  rw [Visible, List.all_append, hfront, hback]
  rfl

theorem visible_digits (n : Nat) : Visible (Nat.toDigits 10 n) := by
  refine List.all_eq_true.mpr fun c hc => decide_eq_true ?_
  have hdigit := Nat.isDigit_of_mem_toDigits (by decide) (by decide) hc
  simp only [Char.isDigit, Bool.and_eq_true, decide_eq_true_eq] at hdigit
  have hlow : 48 ≤ c.toNat := hdigit.1
  have hhigh : c.toNat ≤ 57 := hdigit.2
  omega

theorem visible_brackets (length : Option Nat) : Visible (brackets length) := by
  cases length with
  | none => decide
  | some length =>
      exact @visible_append ['['] _ (by decide)
        (visible_append (visible_digits length) (by decide))

theorem FixedSizeType.visible_name (type : FixedSizeType) :
    Visible type.name := by
  cases type with
  | address => decide
  | bool => decide
  | uint width => exact visible_append (by decide) (visible_digits _)
  | int width => exact visible_append (by decide) (visible_digits _)
  | fixedBytes last => exact visible_append (by decide) (visible_digits _)

theorem NonFixedSizeType.visible_name (type : NonFixedSizeType) :
    Visible type.name := by
  cases type <;> decide

theorem SolidityInput.visible_typeName (input : SolidityInput) :
    Visible input.typeName := by
  cases input with
  | fixedSize type _ => exact type.visible_name
  | string _ => exact NonFixedSizeType.string.visible_name
  | bytes _ => exact NonFixedSizeType.bytes.visible_name
  | fixedSizeFixedArray type _ | fixedSizeNonFixedArray type _
  | nonFixedSizeFixedArray type _ | nonFixedSizeNonFixedArray type _ =>
      exact visible_append type.visible_name (visible_brackets _)

theorem visible_typeList (inputs : List SolidityInput) :
    Visible (typeList inputs) := by
  induction inputs with
  | nil => decide
  | cons input inputs ih =>
      cases inputs with
      | nil =>
          rw [typeList, List.map_singleton, List.intercalate_singleton]
          exact input.visible_typeName
      | cons next rest =>
          rw [typeList, List.map_cons, List.map_cons,
            List.intercalate_cons_cons, List.append_assoc]
          exact visible_append input.visible_typeName
            (visible_append (by decide) ih)

theorem zero_notMem_asciiBytes {text : List Char} (htext : Visible text) :
    (0 : UInt8) ∉ asciiBytes text := by
  intro hmem
  obtain ⟨c, hc, hzero⟩ := List.mem_map.mp hmem
  have hvisible := of_decide_eq_true (List.all_eq_true.mp htext c hc)
  have hnat := congrArg UInt8.toNat hzero
  rw [UInt8.toNat_ofNat', Nat.mod_eq_of_lt (by omega)] at hnat
  change c.toNat = 0 at hnat
  omega

/-- `function_prototye_str`. -/
def functionPrototype (name : CString) (inputs : List SolidityInput) :
    CString where
  bytes := name.bytes ++ asciiBytes (['('] ++ (typeList inputs ++ [')']))
  noNul := by
    refine fun hmem => (List.mem_append.mp hmem).elim name.noNul ?_
    exact zero_notMem_asciiBytes (visible_append (by decide)
      (visible_append (visible_typeList inputs) (by decide)))

end Prototype

section Lengths

/-- `BOAT_ROUNDUP(value, 32)` in the arithmetic of its argument. -/
def boatRoundup32 {α : Type} [Add α] [Sub α] [Mul α] [Div α] [OfNat α 1]
    [OfNat α 32] (value : α) : α :=
  ((value - 1) / 32 + 1) * 32

/-- A length in a `BUINT32`. -/
def buint32Length {α : Type} (values : List α) : UInt32 :=
  UInt32.ofNat values.length

/-- `strlen`, rounded up in the width of a `size_t`. -/
def strlenRoundup (text : CString) : UInt64 :=
  boatRoundup32 (UInt64.ofNat text.bytes.length)

/-- The elements of an array that a loop up to its length visits. -/
def visited {α : Type} (values : List α) : List α :=
  values.take (buint32Length values).toNat

/-- The elements of the array `_filled_length` at first. -/
def filledLength (value : List UInt8) : UInt32 :=
  boatRoundup32 (buint32Length value) + 32

/-- What an argument without a fixed size adds to the length of the data, and to
the offsets of those behind it. -/
def SolidityInput.dataLength : SolidityInput → UInt32
  | .fixedSize _ _ | .fixedSizeFixedArray _ _ => 0
  | .fixedSizeNonFixedArray _ values => buint32Length values * 32 + 32
  | .string text => (strlenRoundup text + 32).toUInt32
  | .bytes value => boatRoundup32 (buint32Length value) + 32
  | .nonFixedSizeFixedArray _ values =>
      ((visited values).map filledLength).sum + buint32Length values * 32
  | .nonFixedSizeNonFixedArray _ values =>
      ((visited values).map filledLength).sum +
        (buint32Length values * 32 + 32)

/-- The words of an argument among the heads. -/
def SolidityInput.headWords : SolidityInput → Nat
  | .fixedSizeFixedArray _ values => values.length
  | _ => 1

def headWords (inputs : List SolidityInput) : Nat :=
  (inputs.map SolidityInput.headWords).sum

/-- The expression `(n * 32 + 4)` for a count in the text: while the count is an
`int`, a result that is none is undefined. -/
def fixedMallocSize (words : Nat) : Outcome UInt32 :=
  if words < 2 ^ 31 ∧ 2 ^ 31 ≤ words * 32 + 4 then .error .undefined
  else .ok (UInt32.ofNat (words * 32 + 4))

/-- `data_field.field_len`. -/
def fieldLength (inputs : List SolidityInput) : Outcome UInt32 := do
  let fixed ← fixedMallocSize (headWords inputs)
  pure ((inputs.map SolidityInput.dataLength).sum + fixed)

/-- The arrays of lengths that are declared for an argument have elements: a
variable length of zero is undefined. -/
def SolidityInput.Declared : SolidityInput → Prop
  | .fixedSize _ _ | .fixedSizeFixedArray _ _ | .string _ | .bytes _ => True
  | .fixedSizeNonFixedArray _ values => buint32Length values ≠ 0
  | .nonFixedSizeFixedArray _ values
  | .nonFixedSizeNonFixedArray _ values => buint32Length values ≠ 0

instance (input : SolidityInput) : Decidable input.Declared := by
  cases input <;> unfold SolidityInput.Declared <;> infer_instance

def declareArrays (inputs : List SolidityInput) : Outcome Unit :=
  if ∀ input ∈ inputs, input.Declared then .ok () else .error .undefined

end Lengths

section Fill

/-- The block of the data and `data_offset_ptr` in it. -/
structure FillState where
  block : List UInt8
  offset : Nat

abbrev FillM := EStateM Failure FillState

/-- A step that leaves the block alone. -/
def fillOutcome {α : Type} (outcome : Outcome α) : FillM α :=
  fun state =>
    match outcome with
    | .ok a => .ok a state
    | .error failure => .error failure state

/-- `memset` or `memcpy` at a distance behind `data_offset_ptr`. -/
def writeAt (distance : Nat) (bytes : List UInt8) : FillM Unit :=
  fun state =>
    match storeAt state.block (state.offset + distance) bytes with
    | .ok block => .ok () ⟨block, state.offset⟩
    | .error failure => .error failure state

/-- `data_offset_ptr += length`. -/
def advancePtr (length : Nat) : FillM Unit :=
  fun state => .ok () ⟨state.block, state.offset + length⟩

/-- `add_Fill_Offset_String`, and the same statements on a length. -/
def fillNumber (number : UInt32) : FillM Unit := do
  let turned ← fillOutcome (turnStorage (FixedWidth.low 4 number.toNat) 4)
  writeAt 0 (List.replicate 32 0)
  writeAt 28 turned
  advancePtr 32

/-- The byte in front of a value: behind `value >= 0`, which of a pointer is
true. -/
def signFill (type : FixedSizeType) (value : Bytes type.size) : UInt8 :=
  if isSignedValueType type ∧ isValueType type ∧
    FixedWidth.signedOf value.1 < 0 then 0xff else 0

theorem length_of_turnStorage {size : Nat} (value : Bytes size)
    (hsize : size < 2 ^ 32) {turned : List UInt8}
    (hturned : turnStorage value.1 size = .ok turned) :
    turned.length = size := by
  have hnat : value.1.length = (UInt32.ofNat size).toNat := by
    rw [UInt32.toNat_ofNat', Nat.mod_eq_of_lt hsize, value.2]
  obtain ⟨front, middle, back, hparts, -, -, hrun⟩ :=
    utilityChangeEndian_turned hnat
  rw [turnStorage, hrun] at hturned
  obtain rfl := Except.ok.inj hturned
  rw [Swap.length_turned, ← value.2, hparts, List.length_append,
    List.length_append]

theorem IntegerWidth.size_le (width : IntegerWidth) : width.size ≤ 32 := by
  cases width <;> decide

theorem FixedSizeType.size_le (type : FixedSizeType) : type.size ≤ 32 := by
  cases type with
  | address => decide
  | bool => decide
  | uint width => exact width.size_le
  | int width => exact width.size_le
  | fixedBytes last => exact last.isLt

/-- `UtilityChangeEndian` on a value of a fixed size. -/
def turnValue (type : FixedSizeType) (value : Bytes type.size) :
    Outcome (Bytes type.size) :=
  match hturned : turnStorage value.1 type.size with
  | .ok turned => .ok ⟨turned, length_of_turnStorage value
      (Nat.lt_of_le_of_lt type.size_le (by omega)) hturned⟩
  | .error failure => .error failure

/-- The change of the byte order where the type needs one. -/
def changeOrder (nonFixedArray : Bool) (type : FixedSizeType)
    (value : Bytes type.size) : Outcome (Bytes type.size) :=
  if requireEndianChange nonFixedArray type then turnValue type value
  else .ok value

/-- `add_FixedSize_String`, with the value that it leaves in the memory it was
given. -/
def addFixedSize (nonFixedArray : Bool) (type : FixedSizeType)
    (value : Bytes type.size) : FillM (Bytes type.size) := do
  let value ← fillOutcome (changeOrder nonFixedArray type value)
  writeAt (if isRightAlignedType type then 32 - type.size else 0) value.1
  advancePtr 32
  pure value

/-- The loop over a fixed array; it works on a copy of each element. -/
def fillFixedArray (type : FixedSizeType) (values : List (Bytes type.size)) :
    FillM Unit :=
  values.forM fun value => do
    writeAt 0 (List.replicate 32 0)
    let _ ← addFixedSize false type value
    pure ()

/-- The statements among the heads for an argument.  A value that is passed by a
pointer is turned where the caller has it. -/
def fillHead (offset : UInt32) : SolidityInput → FillM SolidityInput
  | .fixedSize type value => do
      writeAt 0 (List.replicate 32 (signFill type value))
      let turned ← addFixedSize false type value
      pure (.fixedSize type (if isValueType type then value else turned))
  | .fixedSizeFixedArray type values => do
      fillFixedArray type values
      pure (.fixedSizeFixedArray type values)
  | input => do
      fillNumber offset
      pure input

def fillHeads : UInt32 → List SolidityInput → FillM (List SolidityInput)
  | _, [] => pure []
  | offset, input :: inputs => do
      let held ← fillHead offset input
      let rest ← fillHeads (offset + input.dataLength) inputs
      pure (held :: rest)

/-- A length and the bytes, with zeros up to the filled length. -/
def fillContent (content : List UInt8) (actualLength filledLength : UInt32) :
    FillM Unit := do
  fillNumber actualLength
  writeAt 0 (List.replicate filledLength.toNat 0)
  writeAt 0 (content.take actualLength.toNat)
  advancePtr filledLength.toNat

/-- The loop over a dynamic array of values of a fixed size. -/
def fillNonFixedArray (type : FixedSizeType) (values : List (Bytes type.size)) :
    FillM Unit :=
  (visited values).forM fun value => do
    writeAt 0 (List.replicate 32 (signFill type value))
    let _ ← addFixedSize true type value
    pure ()

/-- The loop over `_offset_location`. -/
def fillOffsets : UInt32 → List (List UInt8) → FillM Unit
  | _, [] => pure ()
  | offset, value :: values => do
      fillNumber offset
      fillOffsets (offset + filledLength value) values

/-- The two loops over an array of elements without a fixed size. -/
def fillElements (values : List (List UInt8)) : FillM Unit := do
  fillOffsets (buint32Length values * 32) (visited values)
  (visited values).forM fun value =>
    fillContent value (buint32Length value) (boatRoundup32 (buint32Length value))

/-- The statements behind the heads for an argument. -/
def fillTail : SolidityInput → FillM Unit
  | .fixedSize _ _ | .fixedSizeFixedArray _ _ => pure ()
  | .fixedSizeNonFixedArray type values => do
      fillNumber (buint32Length values)
      fillNonFixedArray type values
  | .string text =>
      fillContent text.bytes (buint32Length text.bytes)
        (strlenRoundup text).toUInt32
  | .bytes value =>
      fillContent value (buint32Length value) (boatRoundup32 (buint32Length value))
  | .nonFixedSizeFixedArray _ values => fillElements values
  | .nonFixedSizeNonFixedArray _ values => do
      fillNumber (buint32Length values)
      fillElements values

/-- The statements from the selector to the end of the data. -/
def assembleData (selector : Block 32) (inputs : List SolidityInput) :
    FillM (List SolidityInput) := do
  writeAt 0 (selector.bytes.take 4)
  advancePtr 4
  let held ← fillHeads (UInt32.ofNat (headWords inputs * 32)) inputs
  held.forM fillTail
  pure held

end Fill

section Functions

variable (keccak256 : List UInt8 → Block 32)

/-- What a generated function builds for the contract's function of a name: the
data of the call, and its arguments as the caller has them behind it. -/
def solidityData (malloc : Nat → Option (List UInt8)) (name : CString)
    (inputs : List SolidityInput) :
    Outcome (List UInt8 × List SolidityInput) := do
  declareArrays inputs
  let fieldLen ← fieldLength inputs
  match malloc fieldLen.toNat with
  | none => boatThrow boatError
  | some block =>
      match assembleData (keccak256 (functionPrototype name inputs).bytes)
          inputs ⟨block, 0⟩ with
      | .ok held state => .ok (state.block, held)
      | .error failure _ => .error failure

/-- A generated function for a function that does not change the contract. -/
def eth2cCall (env : SendEnv) (tx : BoatTx) (name : CString)
    (inputs : List SolidityInput) : Outcome (Option ParamWeb3Call) := do
  let data ← solidityData keccak256 env.malloc name inputs
  boatEthCallContractFunc keccak256 tx (functionPrototype name inputs)
    (some (data.1.drop 4)) (data.1.length - 4)

/-- A step of a transaction that leaves its state alone. -/
def sendOutcome {α : Type} (outcome : Outcome α) : SendM α :=
  fun state =>
    match outcome with
    | .ok a => .ok a state
    | .error failure => .error failure state

/-- A generated function for a function that changes the contract. -/
def eth2cTransact (env : SendEnv) (node : ReceiptAnswers) (isSyncTx : Bool)
    (txCount : NodeAnswer) (name : CString) (inputs : List SolidityInput) :
    SendM (List Char) := do
  sendOutcome (declareArrays inputs)
  txSetNonce ethApi env boatNonceAuto txCount
  let data ← sendOutcome (solidityData keccak256 env.malloc name inputs)
  txSetData (some ⟨some data.1, data.1.length⟩)
  (boatEthSync env).txSend env node isSyncTx
  fun state => .ok (txHashStr state) state

end Functions

end BoatFramework
