/-
The result buffer of the web3 interface and the extraction of a field of a JSON
response into it: `eth_parse_json_result` and its copies for the other chains.
-/
import BoatFramework.Utility.Result

namespace BoatFramework

/-- A parsed JSON value; object members keep the order of the text. -/
inductive Json where
  | null
  | bool (value : Bool)
  | number (text : List Char)
  | string (value : List Char)
  | array (items : List Json)
  | object (members : List (List Char × Json))

/-- `cJSON_GetObjectItemCaseSensitive`: the first member of that name. -/
def Json.getObjectItem (name : List Char) : Json → Option Json
  | .object members => (members.find? (·.1 == name)).map (·.2)
  | _ => none

/-- `cJSON_GetObjectItemCaseSensitive` of the vendored version: the items of an
array have no name, and a null pointer is compared. -/
def Json.namedItem (name : List Char) : Json → Outcome (Option Json)
  | .array (_ :: _) => .error .undefined
  | json => .ok (json.getObjectItem name)

/-- The result buffer: the C string at its pointer, `none` for a null pointer,
and its size. -/
structure ResultBuffer where
  content : Option (List Char)
  fieldLen : Nat

def web3StringBufStepSize : Nat := 1024

/-- The loop that grows a buffer of `fieldLen` bytes until it holds `len` bytes
and a terminator; `none` when memory is refused. -/
def growUntil (malloc : Nat → Option (List UInt8)) (len : Nat) :
    Nat → Nat → Option Nat
  | 0, _ => none
  | fuel + 1, fieldLen =>
      if len < fieldLen then some fieldLen
      else
        match malloc (fieldLen + web3StringBufStepSize) with
        | none => none
        | some _ => growUntil malloc len fuel (fieldLen + web3StringBufStepSize)

/-- Copy a string into the result buffer, growing it first where needed. -/
def copyResult (malloc : Nat → Option (List UInt8)) (text : List Char)
    (buffer : ResultBuffer) : BoatResult × ResultBuffer :=
  match growUntil malloc text.length (text.length + 2) buffer.fieldLen with
  | none => (boatErrorCommonOutOfMemory, ⟨none, 0⟩)
  | some fieldLen => (boatSuccess, ⟨some text, fieldLen⟩)

section Parse

variable (cJSONParse : List Char → Option Json)
  (malloc : Nat → Option (List UInt8))

/-- A child that is neither a string nor absent is left out of the buffer and
reported as success. -/
def ethParseChild (childName : List Char) (result : Json)
    (buffer : ResultBuffer) : BoatResult × ResultBuffer :=
  match result.getObjectItem childName with
  | none => (boatErrorWeb3JsonGetobjFail, buffer)
  | some (.string text) => copyResult malloc text buffer
  | some _ => (boatSuccess, buffer)

/-- What `eth_parse_json_result` makes of the `result` member. -/
def ethParseResult (childName : List Char) (buffer : ResultBuffer) :
    Option Json → BoatResult × ResultBuffer
  | none => (boatErrorWeb3JsonGetobjFail, buffer)
  | some (.object members) =>
      ethParseChild malloc childName (.object members) buffer
  | some (.string text) => copyResult malloc text buffer
  | some .null => (boatErrorJsonObjIsNull, buffer)
  | some _ => (boatErrorWeb3JsonParseFail, buffer)

def ethParseJsonResult (jsonString childName : List Char)
    (buffer : ResultBuffer) : Outcome (BoatResult × ResultBuffer) :=
  match cJSONParse jsonString with
  | none => .ok (boatErrorWeb3JsonParseFail, buffer)
  | some json =>
      (json.namedItem "result".toList).map
        (ethParseResult malloc childName buffer)

/-- The three copies of `eth_parse_json_result` differ in their labels only. -/
def platonParseJsonResult := ethParseJsonResult cJSONParse malloc
def platoneParseJsonResult := ethParseJsonResult cJSONParse malloc
def fiscobcosParseJsonResult := ethParseJsonResult cJSONParse malloc

/-- Quorum looks one level deeper when the child is an object itself. -/
def quorumParseResult (childName childChildName : List Char)
    (buffer : ResultBuffer) : Option Json → BoatResult × ResultBuffer
  | none => (boatErrorWeb3JsonGetobjFail, buffer)
  | some (.object members) =>
      match (Json.object members).getObjectItem childName with
      | none => (boatErrorWeb3JsonGetobjFail, buffer)
      | some (.object children) =>
          ethParseChild malloc childChildName (.object children) buffer
      | some (.string text) => copyResult malloc text buffer
      | some _ => (boatSuccess, buffer)
  | some (.string text) => copyResult malloc text buffer
  | some .null => (boatErrorJsonObjIsNull, buffer)
  | some _ => (boatErrorWeb3JsonParseFail, buffer)

def quorumParseJsonResult (jsonString childName childChildName : List Char)
    (buffer : ResultBuffer) : Outcome (BoatResult × ResultBuffer) :=
  match cJSONParse jsonString with
  | none => .ok (boatErrorWeb3JsonParseFail, buffer)
  | some json =>
      (json.namedItem "result".toList).map
        (quorumParseResult malloc childName childChildName buffer)

end Parse

/-- A response whose items have no name to be found by. -/
def Nameless (response : Option Json) : Prop :=
  ∃ item items, response = some (.array (item :: items))

/-- A member that is found is the one of that name. -/
theorem Json.namedItem_ok {json : Json} {name : List Char}
    {item : Option Json} (hitem : json.namedItem name = .ok item) :
    json.getObjectItem name = item := by
  cases json with
  | array items =>
      cases items with
      | nil => exact Except.ok.inj hitem
      | cons => cases hitem
  | _ => exact Except.ok.inj hitem

theorem Json.namedItem_of_some {json item : Json} {name : List Char}
    (hitem : json.getObjectItem name = some item) :
    json.namedItem name = .ok (some item) := by
  cases json with
  | object members => exact congrArg Except.ok hitem
  | _ => cases hitem

/-- A search is defined but among the items of an array. -/
theorem Json.namedItem_of_named {json : Json} (name : List Char)
    (hnamed : ¬Nameless (some json)) :
    json.namedItem name = .ok (json.getObjectItem name) := by
  cases json with
  | array items =>
      cases items with
      | nil => rfl
      | cons item items => exact absurd ⟨item, items, rfl⟩ hnamed
  | _ => rfl

theorem not_nameless_of_some {json item : Json} {name : List Char}
    (hitem : json.getObjectItem name = some item) : ¬Nameless (some json) := by
  rintro ⟨_, _, hjson⟩
  cases hjson
  cases hitem

section Answer

variable {cJSONParse : List Char → Option Json}
  {malloc : Nat → Option (List UInt8)} {jsonString : List Char}

/-- On the items of an array the parse is undefined. -/
theorem ethParseJsonResult_nameless (childName : List Char)
    (buffer : ResultBuffer) (hnameless : Nameless (cJSONParse jsonString)) :
    ethParseJsonResult cJSONParse malloc jsonString childName buffer =
      .error .undefined := by
  obtain ⟨_, _, hjson⟩ := hnameless
  rw [ethParseJsonResult, hjson]
  rfl

theorem ethParseJsonResult_named (childName : List Char)
    (buffer : ResultBuffer) {json : Json}
    (hjson : cJSONParse jsonString = some json)
    (hnamed : ¬Nameless (cJSONParse jsonString)) :
    ethParseJsonResult cJSONParse malloc jsonString childName buffer =
      .ok (ethParseResult malloc childName buffer
        (json.getObjectItem "result".toList)) := by
  rw [hjson] at hnamed
  rw [ethParseJsonResult, hjson]
  simp only
  rw [Json.namedItem_of_named _ hnamed]
  rfl

theorem ethParseJsonResult_defined (childName : List Char)
    (buffer : ResultBuffer) (hnamed : ¬Nameless (cJSONParse jsonString)) :
    ∃ parsed, ethParseJsonResult cJSONParse malloc jsonString childName buffer =
      .ok parsed := by
  cases hjson : cJSONParse jsonString with
  | none => exact ⟨_, by rw [ethParseJsonResult, hjson]⟩
  | some json =>
      exact ⟨_, ethParseJsonResult_named childName buffer hjson hnamed⟩

end Answer

section Copy

variable {malloc : Nat → Option (List UInt8)}

/-- With memory granted the buffer grows to hold the string. -/
theorem growUntil_isSome (hgrants : ∀ size, (malloc size).isSome)
    (len fuel fieldLen : Nat) (hfuel : len + 1 < fieldLen + fuel) :
    (growUntil malloc len fuel fieldLen).isSome ∨ fuel = 0 := by
  induction fuel generalizing fieldLen with
  | zero => exact .inr rfl
  | succ fuel ih =>
      refine .inl ?_
      rw [growUntil]
      split
      · rfl
      next hfull =>
        obtain ⟨block, hblock⟩ := Option.isSome_iff_exists.mp
          (hgrants (fieldLen + web3StringBufStepSize))
        rw [hblock]
        unfold web3StringBufStepSize
        rcases ih (fieldLen + 1024) (by omega) with hgrown | hzero
        · exact hgrown
        · omega

/-- What a copy that succeeds leaves in the buffer. -/
theorem copyResult_success {text : List Char} {buffer buffer' : ResultBuffer}
    (hcopy : copyResult malloc text buffer = (boatSuccess, buffer')) :
    buffer'.content = some text := by
  unfold copyResult at hcopy
  split at hcopy
  · cases hcopy
  · cases hcopy
    rfl

theorem copyResult_of_grants (hgrants : ∀ size, (malloc size).isSome)
    (text : List Char) (buffer : ResultBuffer) :
    (copyResult malloc text buffer).1 = boatSuccess := by
  rcases growUntil_isSome hgrants text.length (text.length + 2)
    buffer.fieldLen (by omega) with hgrown | hzero
  · obtain ⟨fieldLen, hfieldLen⟩ := Option.isSome_iff_exists.mp hgrown
    rw [copyResult, hfieldLen]
  · omega

theorem copyResult_ne_null (text : List Char) (buffer : ResultBuffer) :
    (copyResult malloc text buffer).1 ≠ boatErrorJsonObjIsNull := by
  unfold copyResult
  split
  · exact (by decide : boatErrorCommonOutOfMemory ≠ boatErrorJsonObjIsNull)
  · exact (by decide : boatSuccess ≠ boatErrorJsonObjIsNull)

end Copy

end BoatFramework
