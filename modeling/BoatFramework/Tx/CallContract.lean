/-
The functions that call a contract without a transaction: the request they hand
to the node, built from a prototype and from parameters that are bytes with a
length but pass through a check for C strings.
-/
import BoatFramework.Tx.Setters
import BoatFramework.Utility.CString

namespace BoatFramework

open Exec

/-- The loop of `UtilityStringLenCheck`; a read behind the block is
undefined. -/
def stringLenCheckLoop : Nat → List UInt8 → Outcome BoatResult
  | 0, _ => .ok boatError
  | _ + 1, [] => .error .undefined
  | i + 1, byte :: rest =>
      if byte = 0 then .ok boatSuccess else stringLenCheckLoop i rest

/-- `UtilityStringLenCheck` on the block a pointer leads to. -/
def utilityStringLenCheck : Option (List UInt8) → Outcome BoatResult
  | none => .error .undefined
  | some block => stringLenCheckLoop boatStringMaxLen block

/-- The bytes `UtilityBinToHex` reads from a pointer, none from a null one. -/
def readPointer : Option (List UInt8) → Nat → Outcome (List UInt8)
  | none, _ => .ok []
  | some block, len =>
      if len ≤ block.length then .ok (block.take len) else .error .undefined

/-- `Param_web3_call`. -/
structure ParamWeb3Call where
  methodNameStr : List Char
  «to» : List Char
  gas : List Char
  gasPrice : List Char
  data : List Char
  blockNumStr : List Char

/-- `Param_fiscobcos_call`. -/
structure ParamFiscobcosCall where
  groupid : List Char
  «from» : List Char
  «to» : List Char
  value : List Char
  data : List Char

def addressHexstr (address : Block 20) : List Char :=
  utilityBinToHex address.bytes .leftTrimUnfmtData true false

/-- The request of `web3_call`; a call consumes no gas. -/
def web3CallParam (tx : BoatTx) (data : List Char) : ParamWeb3Call where
  methodNameStr := "eth_call".toList
  «to» := addressHexstr tx.rawtxFields.recipient
  gas := "0x1fffff".toList
  gasPrice := "0x8250de00".toList
  data := data
  blockNumStr := "latest".toList

/-- The request of `web3_fiscobcos_call`. -/
def fiscobcosCallParam (accountAddress : Block 20) (tx : BoatTx)
    (data : List Char) : ParamFiscobcosCall where
  groupid := utilityBinToHex
    (tx.rawtxFields.groupid.field.bytes.take tx.rawtxFields.groupid.fieldLen)
    .leftTrimQuantity false false
  «from» := addressHexstr accountAddress
  «to» := addressHexstr tx.rawtxFields.recipient
  value := []
  data := data

/-- Whether the arguments of a call with a prototype are let through.  The
parameters are measured only where the prototype is too long. -/
def checkCallArguments (funcProto : CString) (funcParam : Option (List UInt8))
    (funcParamLen : Nat) : Outcome Bool :=
  if funcParam = none ∧ funcParamLen ≠ 0 then .ok false
  else if boatStringMaxLen < funcParamLen then .ok false
  else do
    let protoCheck ← utilityStringLenCheck (some (funcProto.bytes ++ [0]))
    if protoCheck = boatSuccess then .ok true
    else do
      let paramCheck ← utilityStringLenCheck funcParam
      .ok (paramCheck == boatSuccess)

/-- The string at `data_str`.  The digits of the parameters are written ten
characters behind the start, over the terminator of the selector. -/
def callDataStr (functionSelector : Block 32) (params : List UInt8) :
    List Char :=
  (utilityBinToHex (functionSelector.bytes.take 4) .leftTrimUnfmtData true
    false).take 10 ++ utilityBinToHex params .leftTrimUnfmtData false false

variable (keccak256 : List UInt8 → Block 32)

/-- The request of `BoatEthCallContractFunc`, none where it is rejected. -/
def boatEthCallContractFunc (tx : BoatTx) (funcProto : CString)
    (funcParam : Option (List UInt8)) (funcParamLen : Nat) :
    Outcome (Option ParamWeb3Call) := do
  if ← checkCallArguments funcProto funcParam funcParamLen then
    let params ← readPointer funcParam funcParamLen
    .ok (some (web3CallParam tx
      (callDataStr (keccak256 funcProto.bytes) params)))
  else .ok none

/-- The request of `BoatFiscobcosCallContractFunc`. -/
def boatFiscobcosCallContractFunc (accountAddress : Block 20) (tx : BoatTx)
    (funcProto : CString) (funcParam : Option (List UInt8))
    (funcParamLen : Nat) : Outcome (Option ParamFiscobcosCall) := do
  if ← checkCallArguments funcProto funcParam funcParamLen then
    let params ← readPointer funcParam funcParamLen
    .ok (some (fiscobcosCallParam accountAddress tx
      (callDataStr (keccak256 funcProto.bytes) params)))
  else .ok none

/-- The request of `BoatPlatoneCallContractFunc`.  The parameters are measured
whatever they are. -/
def boatPlatoneCallContractFunc (tx : BoatTx) (rlpParam : Option (List UInt8))
    (rlpParamLen : Nat) : Outcome (Option ParamWeb3Call) :=
  if rlpParam = none ∧ rlpParamLen ≠ 0 then .ok none
  else if boatStringMaxLen < rlpParamLen then .ok none
  else do
    let paramCheck ← utilityStringLenCheck rlpParam
    if paramCheck = boatSuccess then
      let params ← readPointer rlpParam rlpParamLen
      .ok (some (web3CallParam tx
        (utilityBinToHex params .leftTrimUnfmtData true false)))
    else .ok none

/-- A call is made, without undefined behaviour, with exactly these bytes. -/
def CallsWith {ρ : Type} (data : ρ → List Char) (call : Outcome (Option ρ))
    (bytes : List UInt8) : Prop :=
  ∃ request, call = .ok (some request) ∧
    data request = '0' :: 'x' :: Hex.toHex bytes

/-- A terminator stands among the bytes the check looks at. -/
def TerminatorSeen (funcParam : Option (List UInt8)) : Prop :=
  0 ∈ (funcParam.getD []).take boatStringMaxLen

instance (funcParam : Option (List UInt8)) :
    Decidable (TerminatorSeen funcParam) :=
  inferInstanceAs (Decidable (0 ∈ (funcParam.getD []).take boatStringMaxLen))

/-- The check succeeds where it meets a terminator, fails where it came to its
end, and else has left the block. -/
theorem stringLenCheckLoop_eq (i : Nat) (block : List UInt8) :
    stringLenCheckLoop i block =
      if 0 ∈ block.take i then .ok boatSuccess
      else if i ≤ block.length then .ok boatError
      else .error .undefined := by
  induction i generalizing block with
  | zero => simp [stringLenCheckLoop]
  | succ i ih =>
      cases block with
      | nil => simp [stringLenCheckLoop]
      | cons byte rest =>
          by_cases hbyte : byte = 0
          · simp [stringLenCheckLoop, hbyte]
          · have hne : ¬ 0 = byte := fun hzero => hbyte hzero.symm
            simp [stringLenCheckLoop, hbyte, hne, ih]

theorem utilityStringLenCheck_success {funcParam : Option (List UInt8)} :
    utilityStringLenCheck funcParam = .ok boatSuccess ↔
      TerminatorSeen funcParam := by
  cases funcParam with
  | none => simp [utilityStringLenCheck, TerminatorSeen]
  | some block =>
      rw [utilityStringLenCheck, stringLenCheckLoop_eq, TerminatorSeen,
        Option.getD_some]
      split
      next hzero => exact iff_of_true rfl hzero
      next hzero =>
        refine iff_of_false ?_ hzero
        split
        · exact fun hcheck => absurd (Except.ok.inj hcheck) (by decide)
        · exact fun hcheck => by cases hcheck

/-- A string is never read past its terminator. -/
theorem utilityStringLenCheck_string (text : CString) :
    utilityStringLenCheck (some (text.bytes ++ [0])) =
      .ok (if text.bytes.length < boatStringMaxLen then boatSuccess
        else boatError) := by
  rw [utilityStringLenCheck, stringLenCheckLoop_eq, List.length_append,
    List.length_singleton]
  by_cases hshort : text.bytes.length < boatStringMaxLen
  · rw [if_pos hshort, List.take_of_length_le (by
      rw [List.length_append, List.length_singleton]
      exact hshort)]
    exact if_pos (List.mem_append_right _ List.mem_cons_self)
  · have hlong : boatStringMaxLen ≤ text.bytes.length := Nat.le_of_not_lt hshort
    have hzero : 0 ∉ (text.bytes ++ [0]).take boatStringMaxLen := by
      rw [List.take_append_of_le_length hlong]
      exact fun hmem => text.noNul (List.mem_of_mem_take hmem)
    rw [if_neg hshort, if_neg hzero, if_pos (by omega)]

/-- Parameters that a caller passes: at most as many as allowed, and all in the
buffer. -/
structure ParamsGiven (funcParam : Option (List UInt8)) (len : Nat) : Prop where
  allowed : len ≤ boatStringMaxLen
  inBuffer : len ≤ (funcParam.getD []).length

section Params

variable {funcParam : Option (List UInt8)} {len : Nat}

theorem ParamsGiven.not_null (hgiven : ParamsGiven funcParam len) :
    ¬ (funcParam = none ∧ len ≠ 0) := by
  rintro ⟨rfl, hlen⟩
  exact hlen (Nat.le_zero.mp hgiven.inBuffer)

theorem ParamsGiven.readPointer_eq (hgiven : ParamsGiven funcParam len) :
    readPointer funcParam len = .ok ((funcParam.getD []).take len) := by
  cases funcParam with
  | none => rw [readPointer, Option.getD_none, List.take_nil]
  | some block => exact if_pos hgiven.inBuffer

/-- With a prototype the parameters are let through where one of the two checks
succeeds. -/
theorem checkCallArguments_true (hgiven : ParamsGiven funcParam len)
    (funcProto : CString) :
    checkCallArguments funcProto funcParam len = .ok true ↔
      funcProto.bytes.length < boatStringMaxLen ∨ TerminatorSeen funcParam := by
  rw [checkCallArguments, if_neg hgiven.not_null,
    if_neg (Nat.not_lt.mpr hgiven.allowed), utilityStringLenCheck_string,
    except_ok_bind]
  by_cases hshort : funcProto.bytes.length < boatStringMaxLen
  · rw [if_pos hshort, if_pos rfl]
    exact iff_of_true rfl (.inl hshort)
  · rw [if_neg hshort, if_neg (by decide), ← utilityStringLenCheck_success]
    simp only [hshort, false_or]
    constructor
    · intro hcheck
      obtain ⟨code, hcode, hsuccess⟩ := except_bind_eq_ok.mp hcheck
      rw [hcode, eq_of_beq (Except.ok.inj hsuccess)]
    · intro hcheck
      rw [hcheck]
      rfl

end Params

/-- The data of a call is the selector and the parameters. -/
theorem callDataStr_eq (functionSelector : Block 32) (params : List UInt8) :
    callDataStr functionSelector params =
      '0' :: 'x' :: Hex.toHex (functionSelector.bytes.take 4 ++ params) := by
  have hlength : (functionSelector.bytes.take 4).length = 4 := by
    rw [List.length_take, functionSelector.length_bytes]
    rfl
  have hselector : functionSelector.bytes.take 4 ≠ [] := by
    intro hnil
    rw [hnil] at hlength
    cases hlength
  have htext : ('0' :: 'x' ::
      Hex.toHex (functionSelector.bytes.take 4)).length = 10 := by
    rw [List.length_cons, List.length_cons, Hex.length_toHex, hlength]
  rw [callDataStr, utilityBinToHex_unfmtData hselector, utilityBinToHex_bare,
    Hex.toHex_append, List.take_of_length_le (Nat.le_of_eq htext)]
  rfl

section Calls

variable {ρ : Type} {data : ρ → List Char} {funcParam : Option (List UInt8)}
  {len : Nat}

/-- A call with a prototype is as it should be where its arguments are let
through. -/
theorem checkedCall_callsWith (hgiven : ParamsGiven funcParam len)
    (funcProto : CString) (selector : Block 32) (request : List UInt8 → ρ)
    (hdata : ∀ params, data (request params) = callDataStr selector params) :
    CallsWith data
        (do
          if ← checkCallArguments funcProto funcParam len then
            let params ← readPointer funcParam len
            .ok (some (request params))
          else .ok none)
        (selector.bytes.take 4 ++ (funcParam.getD []).take len) ↔
      funcProto.bytes.length < boatStringMaxLen ∨
        TerminatorSeen funcParam := by
  rw [← checkCallArguments_true hgiven]
  constructor
  · rintro ⟨_, hcall, -⟩
    obtain ⟨passed, hpassed, hcall⟩ := except_bind_eq_ok.mp hcall
    cases passed with
    | true => exact hpassed
    | false => cases hcall
  · intro hpassed
    refine ⟨request ((funcParam.getD []).take len), ?_, ?_⟩
    · rw [hpassed, except_ok_bind, if_pos rfl, hgiven.readPointer_eq,
        except_ok_bind]
    · rw [hdata, callDataStr_eq]

/-- PlatONE's call is as it should be where the parameters hold a terminator
and are not empty. -/
theorem platoneCall_callsWith (hgiven : ParamsGiven funcParam len)
    (tx : BoatTx) :
    CallsWith ParamWeb3Call.data (boatPlatoneCallContractFunc tx funcParam len)
        ((funcParam.getD []).take len) ↔
      0 < len ∧ TerminatorSeen funcParam := by
  rw [boatPlatoneCallContractFunc, if_neg hgiven.not_null,
    if_neg (Nat.not_lt.mpr hgiven.allowed), ← utilityStringLenCheck_success]
  constructor
  · rintro ⟨request, hcall, hdata⟩
    obtain ⟨code, hcode, hcall⟩ := except_bind_eq_ok.mp hcall
    split at hcall
    next hsuccess =>
      rw [hgiven.readPointer_eq, except_ok_bind] at hcall
      obtain rfl := Option.some.inj (Except.ok.inj hcall)
      refine ⟨Nat.pos_of_ne_zero ?_, hsuccess ▸ hcode⟩
      rintro rfl
      cases hdata
    next => cases hcall
  · rintro ⟨hpos, hcheck⟩
    have hparams : (funcParam.getD []).take len ≠ [] := by
      intro hnil
      have hlength := congrArg List.length hnil
      rw [List.length_take_of_le hgiven.inBuffer, List.length_nil] at hlength
      omega
    refine ⟨web3CallParam tx (utilityBinToHex ((funcParam.getD []).take len)
      .leftTrimUnfmtData true false), ?_, ?_⟩
    · rw [hcheck, except_ok_bind, if_pos rfl, hgiven.readPointer_eq,
        except_ok_bind]
    · exact utilityBinToHex_unfmtData hparams false

end Calls

/-- Which calls hand the node exactly the bytes they were given.  With a
prototype every call does whose prototype is short enough, whatever the
parameters; PlatONE's does only where a terminator is among them. -/
theorem callContractFuncs_callWith_iff {funcParam : Option (List UInt8)}
    {len : Nat} (hgiven : ParamsGiven funcParam len) (tx : BoatTx)
    (accountAddress : Block 20) (funcProto : CString) :
    (CallsWith ParamWeb3Call.data
        (boatEthCallContractFunc keccak256 tx funcProto funcParam len)
        ((keccak256 funcProto.bytes).bytes.take 4 ++
          (funcParam.getD []).take len) ↔
      funcProto.bytes.length < boatStringMaxLen ∨ TerminatorSeen funcParam) ∧
    (CallsWith ParamFiscobcosCall.data
        (boatFiscobcosCallContractFunc keccak256 accountAddress tx funcProto
          funcParam len)
        ((keccak256 funcProto.bytes).bytes.take 4 ++
          (funcParam.getD []).take len) ↔
      funcProto.bytes.length < boatStringMaxLen ∨ TerminatorSeen funcParam) ∧
    (CallsWith ParamWeb3Call.data
        (boatPlatoneCallContractFunc tx funcParam len)
        ((funcParam.getD []).take len) ↔
      0 < len ∧ TerminatorSeen funcParam) := by
  refine ⟨?_, ?_, platoneCall_callsWith hgiven tx⟩
  · exact checkedCall_callsWith hgiven funcProto _
      (fun params => web3CallParam tx
        (callDataStr (keccak256 funcProto.bytes) params)) fun _ => rfl
  · exact checkedCall_callsWith hgiven funcProto _
      (fun params => fiscobcosCallParam accountAddress tx
        (callDataStr (keccak256 funcProto.bytes) params)) fun _ => rfl

/-- A parameter without a terminator on a zero transaction. -/
theorem callContractFuncs_callWith_one :
    CallsWith ParamWeb3Call.data
        (boatEthCallContractFunc (fun _ => .zero 32)
          (sampleState ⟨1, true⟩ .zero).tx ⟨[], by decide⟩ (some [1]) 1)
        [0, 0, 0, 0, 1] :=
  ((callContractFuncs_callWith_iff (fun _ => .zero 32)
    ⟨by decide, by decide⟩
    (sampleState ⟨1, true⟩ .zero).tx (.zero 20) ⟨[], by decide⟩).1).mpr
    (.inl (by decide))

/-- PlatONE's call reads past a parameter of one byte that is not zero. -/
theorem not_callsWith_byte :
    ParamsGiven (some [1]) 1 ∧
      ¬ CallsWith ParamWeb3Call.data
        (boatPlatoneCallContractFunc (sampleState ⟨1, true⟩ .zero).tx
          (some [1]) 1) [1] := by
  refine ⟨⟨by decide, by decide⟩, ?_⟩
  rintro ⟨request, hcall, -⟩
  have hundefined : boatPlatoneCallContractFunc
      (sampleState ⟨1, true⟩ .zero).tx (some [1]) 1 = .error .undefined := rfl
  rw [hundefined] at hcall
  cases hcall

end BoatFramework
