/-
The runs of the functions of `eth2c.py`: which data they build, what a call
hands to the node and what a transaction carries.
-/
import BoatFramework.Tools.Eth2cArguments

namespace BoatFramework

open SolidityAbi (encodeTuple tails)

section Lengths

variable {inputs : List SolidityInput}

/-- The length of the block of the data. -/
def blockLength (state : FillState) : Nat :=
  state.block.length

theorem writeAt_keeps (distance : Nat) (bytes : List UInt8) :
    Exec.Keeps blockLength (writeAt distance bytes) := by
  intro state
  unfold writeAt
  split
  next block hstore => exact length_of_storeAt hstore
  next => rfl

theorem fillOutcome_keeps {α : Type} (outcome : Outcome α) :
    Exec.Keeps blockLength (fillOutcome outcome) := by
  intro state
  cases outcome <;> rfl

theorem advancePtr_keeps (length : Nat) :
    Exec.Keeps blockLength (advancePtr length) :=
  fun _ => rfl

theorem fillNumber_keeps (number : UInt32) :
    Exec.Keeps blockLength (fillNumber number) :=
  (fillOutcome_keeps _).bind fun _ => (writeAt_keeps _ _).bind fun _ =>
    (writeAt_keeps _ _).bind fun _ => advancePtr_keeps _

theorem addFixedSize_keeps (nonFixedArray : Bool) (type : FixedSizeType)
    (value : Bytes type.size) :
    Exec.Keeps blockLength (addFixedSize nonFixedArray type value) :=
  (fillOutcome_keeps _).bind fun _ => (writeAt_keeps _ _).bind fun _ =>
    (advancePtr_keeps _).bind fun _ => Exec.Keeps.pure _

theorem fillHead_keeps (offset : UInt32) (input : SolidityInput) :
    Exec.Keeps blockLength (fillHead offset input) := by
  have hnumber (input : SolidityInput) : Exec.Keeps blockLength (do
      fillNumber offset
      pure input) :=
    (fillNumber_keeps offset).bind fun _ => Exec.Keeps.pure _
  cases input with
  | fixedSize type value =>
      exact (writeAt_keeps _ _).bind fun _ =>
        (addFixedSize_keeps _ _ _).bind fun _ => Exec.Keeps.pure _
  | fixedSizeFixedArray type values =>
      refine Exec.Keeps.bind (Exec.Keeps.forM (fun value => ?_) values)
        fun _ => Exec.Keeps.pure _
      exact (writeAt_keeps _ _).bind fun _ =>
        (addFixedSize_keeps _ _ _).bind fun _ => Exec.Keeps.pure _
  | fixedSizeNonFixedArray type values => exact hnumber _
  | string text => exact hnumber _
  | bytes value => exact hnumber _
  | nonFixedSizeFixedArray type values => exact hnumber _
  | nonFixedSizeNonFixedArray type values => exact hnumber _

theorem fillHeads_keeps (offset : UInt32) (inputs : List SolidityInput) :
    Exec.Keeps blockLength (fillHeads offset inputs) := by
  induction inputs generalizing offset with
  | nil => exact Exec.Keeps.pure _
  | cons input inputs ih =>
      exact (fillHead_keeps offset input).bind fun _ =>
        (ih _).bind fun _ => Exec.Keeps.pure _

theorem fillContent_keeps (content : List UInt8)
    (actualLength filledLength : UInt32) :
    Exec.Keeps blockLength (fillContent content actualLength filledLength) :=
  (fillNumber_keeps _).bind fun _ => (writeAt_keeps _ _).bind fun _ =>
    (writeAt_keeps _ _).bind fun _ => advancePtr_keeps _

theorem fillOffsets_keeps (offset : UInt32) (values : List (List UInt8)) :
    Exec.Keeps blockLength (fillOffsets offset values) := by
  induction values generalizing offset with
  | nil => exact Exec.Keeps.pure _
  | cons value values ih =>
      exact (fillNumber_keeps offset).bind fun _ => ih _

theorem fillElements_keeps (values : List (List UInt8)) :
    Exec.Keeps blockLength (fillElements values) :=
  (fillOffsets_keeps _ _).bind fun _ =>
    Exec.Keeps.forM (fun _ => fillContent_keeps _ _ _) _

theorem fillTail_keeps (input : SolidityInput) :
    Exec.Keeps blockLength (fillTail input) := by
  cases input with
  | fixedSize type value => exact Exec.Keeps.pure _
  | fixedSizeFixedArray type values => exact Exec.Keeps.pure _
  | fixedSizeNonFixedArray type values =>
      refine (fillNumber_keeps _).bind fun _ =>
        Exec.Keeps.forM (fun value => ?_) _
      exact (writeAt_keeps _ _).bind fun _ =>
        (addFixedSize_keeps _ _ _).bind fun _ => Exec.Keeps.pure _
  | string text => exact fillContent_keeps _ _ _
  | bytes value => exact fillContent_keeps _ _ _
  | nonFixedSizeFixedArray type values => exact fillElements_keeps values
  | nonFixedSizeNonFixedArray type values =>
      exact (fillNumber_keeps _).bind fun _ => fillElements_keeps values

/-- Nothing that is written changes the length of the block. -/
theorem assembleData_keeps (selector : Block 32) (inputs : List SolidityInput) :
    Exec.Keeps blockLength (assembleData selector inputs) :=
  (writeAt_keeps _ _).bind fun _ => (advancePtr_keeps _).bind fun _ =>
    (fillHeads_keeps _ _).bind fun _ =>
      (Exec.Keeps.forM fillTail_keeps _).bind fun _ => Exec.Keeps.pure _

/-- The lengths that are computed for the arguments make up that of the
tails. -/
theorem sum_dataLength
    (hfits : (tails (inputs.map SolidityInput.part)).length < 2 ^ 32) :
    (inputs.map SolidityInput.dataLength).sum =
      UInt32.ofNat (tails (inputs.map SolidityInput.part)).length := by
  induction inputs with
  | nil => rfl
  | cons input inputs ih =>
      rw [List.map_cons, SolidityAbi.tails_cons, List.length_append] at hfits
      rw [List.map_cons, List.map_cons, List.sum_cons, SolidityAbi.tails_cons,
        List.length_append, SolidityInput.dataLength_eq (by omega),
        ih (by omega), UInt32.ofNat_add]

theorem fieldLength_eq (hheads : headWords inputs * 32 + 4 < 2 ^ 31)
    (hfits : (encodeTuple (inputs.map SolidityInput.part)).length + 4 <
      2 ^ 32) :
    fieldLength inputs = .ok (UInt32.ofNat
      ((encodeTuple (inputs.map SolidityInput.part)).length + 4)) := by
  rw [SolidityAbi.length_encodeTuple] at hfits ⊢
  have hfixed : fixedMallocSize (headWords inputs) =
      .ok (UInt32.ofNat (headWords inputs * 32 + 4)) :=
    if_neg (by omega)
  rw [fieldLength, hfixed, Exec.except_ok_bind, sum_dataLength (by omega),
    ← UInt32.ofNat_add, headWords_eq]
  congr 2
  omega

end Lengths

section Data

variable {keccak256 : List UInt8 → Block 32}
  {malloc : Nat → Option (List UInt8)} {name : CString}
  {inputs held : List SolidityInput} {data : List UInt8}

/-- The data with the words that are written. -/
def builtData (keccak256 : List UInt8 → Block 32) (name : CString)
    (inputs : List SolidityInput) : List UInt8 :=
  (keccak256 (functionPrototype name inputs).bytes).bytes.take 4 ++
    encodeTuple (inputs.map SolidityInput.part)

theorem length_selector (hash : Block 32) : (hash.bytes.take 4).length = 4 := by
  rw [List.length_take, hash.length_bytes]
  rfl

/-- Arguments whose encoding a function can build: those with arrays that can be
declared, and not too long. -/
structure Buildable (inputs : List SolidityInput) : Prop where
  declared : ∀ input ∈ inputs, input.Declared
  heads : headWords inputs * 32 + 4 < 2 ^ 31
  size : (SolidityAbi.encodeArguments
    (inputs.map SolidityInput.argument)).length + 4 < 2 ^ 32

/-- With memory granted what can be built is built. -/
theorem solidityData_eq (hmalloc : Fresh malloc) (hgrants : Grants malloc)
    (hbuildable : Buildable inputs) :
    solidityData keccak256 malloc name inputs =
      .ok (builtData keccak256 name inputs,
        inputs.map SolidityInput.held) := by
  have hfits := hbuildable.size
  rw [← length_encodeTuple_parts SolidityInput.part_alike] at hfits
  have hlength := fieldLength_eq hbuildable.heads hfits
  have hdeclare : declareArrays inputs = .ok () := if_pos hbuildable.declared
  obtain ⟨block, hblock⟩ := hgrants _ hfits
  have hfill := @assembleData_fills inputs
    (keccak256 (functionPrototype name inputs).bytes) (by omega) [] block []
    (by
      rw [hmalloc _ _ hblock, List.length_append, length_selector,
        Nat.add_comm])
  simp only [List.nil_append, List.append_nil, List.length_nil] at hfill
  rw [solidityData, hdeclare, Exec.except_ok_bind, hlength,
    Exec.except_ok_bind, toNat_ofNat_lt hfits, hblock]
  simp only [hfill]
  rfl

/-- Data that is built has a length that a `BUINT32` holds, and the arrays could
be declared. -/
theorem solidityData_ok (hmalloc : Fresh malloc)
    (hrun : solidityData keccak256 malloc name inputs = .ok (data, held)) :
    data.length < 2 ^ 32 ∧ (∀ input ∈ inputs, input.Declared) ∧
      ¬(headWords inputs < 2 ^ 31 ∧ 2 ^ 31 ≤ headWords inputs * 32 + 4) := by
  unfold solidityData at hrun
  obtain ⟨_, hdeclare, hrun⟩ := Exec.except_bind_eq_ok.mp hrun
  obtain ⟨fieldLen, hlength, hrun⟩ := Exec.except_bind_eq_ok.mp hrun
  have hdeclared : ∀ input ∈ inputs, input.Declared := by
    unfold declareArrays at hdeclare
    split at hdeclare
    next hall => exact hall
    next => cases hdeclare
  have hfixed : ¬(headWords inputs < 2 ^ 31 ∧
      2 ^ 31 ≤ headWords inputs * 32 + 4) := by
    obtain ⟨fixed, hfixed, -⟩ := Exec.except_bind_eq_ok.mp hlength
    unfold fixedMallocSize at hfixed
    split at hfixed
    next => cases hfixed
    next hsmall => exact hsmall
  refine ⟨?_, hdeclared, hfixed⟩
  split at hrun
  · cases hrun
  next block hblock =>
    have hkept := assembleData_keeps
      (keccak256 (functionPrototype name inputs).bytes) inputs ⟨block, 0⟩
    split at hrun
    next kept state hfill =>
      obtain ⟨rfl, -⟩ := Prod.mk.inj (Except.ok.inj hrun)
      rw [hfill] at hkept
      have hsame : state.block.length = block.length := hkept
      rw [hsame, hmalloc _ _ hblock]
      exact fieldLen.toNat_lt
    next => cases hrun

/-- Data as long as the encoding of the ABI is built of arguments that can be
built. -/
theorem buildable_of_length (hshort : data.length < 2 ^ 32)
    (hdeclared : ∀ input ∈ inputs, input.Declared)
    (hfixed : ¬(headWords inputs < 2 ^ 31 ∧
      2 ^ 31 ≤ headWords inputs * 32 + 4))
    (hlength : data.length - 4 = (SolidityAbi.encodeArguments
      (inputs.map SolidityInput.argument)).length) :
    Buildable inputs := by
  refine ⟨hdeclared, ?_, by omega⟩
  have hheads : headWords inputs * 32 ≤ (SolidityAbi.encodeArguments
      (inputs.map SolidityInput.argument)).length := by
    rw [← length_encodeTuple_parts SolidityInput.part_alike,
      SolidityAbi.length_encodeTuple, headWords_eq]
    exact Nat.le_add_right _ _
  omega

theorem length_solidityCall :
    (solidityCall keccak256 name inputs).length - 4 =
      (SolidityAbi.encodeArguments
        (inputs.map SolidityInput.argument)).length := by
  rw [solidityCall, List.length_append, length_selector,
    Nat.add_sub_cancel_left]

theorem builtData_eq_iff : builtData keccak256 name inputs =
      solidityCall keccak256 name inputs ↔
    ∀ input ∈ inputs, input.SignsKept := by
  rw [builtData, solidityCall, List.append_right_inj,
    encodeTuple_parts_iff SolidityInput.part_alike]
  exact forall₂_congr fun input _ => input.part_eq_iff

/-- With memory granted the data of a call is its encoding exactly where the
arguments can be built and the signs are in front of their values. -/
theorem solidityData_right_iff (hmalloc : Fresh malloc)
    (hgrants : Grants malloc) :
    (∃ held, solidityData keccak256 malloc name inputs =
        .ok (solidityCall keccak256 name inputs, held)) ↔
      Buildable inputs ∧ ∀ input ∈ inputs, input.SignsKept := by
  constructor
  · rintro ⟨held, hrun⟩
    obtain ⟨hshort, hdeclared, hfixed⟩ := solidityData_ok hmalloc hrun
    have hbuildable := buildable_of_length hshort hdeclared hfixed
      length_solidityCall
    rw [solidityData_eq hmalloc hgrants hbuildable] at hrun
    exact ⟨hbuildable,
      builtData_eq_iff.mp (Prod.mk.inj (Except.ok.inj hrun)).1⟩
  · rintro ⟨hbuildable, hsigns⟩
    rw [solidityData_eq hmalloc hgrants hbuildable, builtData_eq_iff.mpr hsigns]
    exact ⟨_, rfl⟩

end Data

section Calls

variable {keccak256 : List UInt8 → Block 32} {env : SendEnv} {name : CString}
  {inputs : List SolidityInput}

theorem drop_solidityCall :
    (solidityCall keccak256 name inputs).drop 4 =
      SolidityAbi.encodeArguments (inputs.map SolidityInput.argument) := by
  rw [solidityCall, List.drop_left' (length_selector _)]

theorem take_append_solidityCall :
    (keccak256 (functionPrototype name inputs).bytes).bytes.take 4 ++
        (solidityCall keccak256 name inputs).drop 4 =
      solidityCall keccak256 name inputs := by
  rw [drop_solidityCall]
  rfl

/-- Data with the right parameters is right: the selector always is. -/
theorem builtData_of_drop
    (hparams : (builtData keccak256 name inputs).drop 4 =
      SolidityAbi.encodeArguments (inputs.map SolidityInput.argument)) :
    builtData keccak256 name inputs = solidityCall keccak256 name inputs := by
  rw [builtData, List.drop_left' (length_selector _)] at hparams
  rw [builtData, solidityCall, hparams]

/-- The parameters behind the selector, as a call is given them. -/
theorem paramsGiven_drop {data : List UInt8}
    (hshort : data.length - 4 ≤ boatStringMaxLen) :
    ParamsGiven (some (data.drop 4)) (data.length - 4) :=
  ⟨hshort, Nat.le_of_eq (List.length_drop).symm⟩

theorem take_drop_selector (data : List UInt8) :
    ((some (data.drop 4)).getD []).take (data.length - 4) = data.drop 4 :=
  List.take_of_length_le (Nat.le_of_eq List.length_drop)

/-- What a call that is made was given. -/
theorem boatEthCall_ok {tx : BoatTx} {proto : CString} {data : List UInt8}
    {request : ParamWeb3Call}
    (hcall : boatEthCallContractFunc keccak256 tx proto (some (data.drop 4))
      (data.length - 4) = .ok (some request)) :
    data.length - 4 ≤ boatStringMaxLen ∧
      (proto.bytes.length < boatStringMaxLen ∨
        TerminatorSeen (some (data.drop 4))) ∧
      request.data = '0' :: 'x' ::
        Hex.toHex ((keccak256 proto.bytes).bytes.take 4 ++ data.drop 4) := by
  obtain ⟨passed, hpassed, hcall⟩ := Exec.except_bind_eq_ok.mp hcall
  cases passed with
  | false => cases hcall
  | true =>
      have hshort : data.length - 4 ≤ boatStringMaxLen := by
        by_contra hlong
        rw [checkCallArguments, if_neg (by simp),
          if_pos (Nat.lt_of_not_le hlong)] at hpassed
        cases hpassed
      have hgiven := paramsGiven_drop hshort
      obtain ⟨params, hparams, hcall⟩ := Exec.except_bind_eq_ok.mp hcall
      rw [hgiven.readPointer_eq, take_drop_selector] at hparams
      obtain rfl := Except.ok.inj hparams
      obtain rfl := Option.some.inj (Except.ok.inj hcall)
      exact ⟨hshort, (checkCallArguments_true hgiven proto).mp hpassed,
        callDataStr_eq _ _⟩

/-- A call hands the node the encoding of the ABI exactly where that is built
and is let through. -/
theorem eth2cCall_callsWith_iff (hmalloc : Fresh env.malloc)
    (hgrants : Grants env.malloc) (tx : BoatTx) :
    CallsWith ParamWeb3Call.data (eth2cCall keccak256 env tx name inputs)
        (solidityCall keccak256 name inputs) ↔
      (Buildable inputs ∧ ∀ input ∈ inputs, input.SignsKept) ∧
        (SolidityAbi.encodeArguments
          (inputs.map SolidityInput.argument)).length ≤ boatStringMaxLen ∧
        ((functionPrototype name inputs).bytes.length < boatStringMaxLen ∨
          TerminatorSeen (some (SolidityAbi.encodeArguments
            (inputs.map SolidityInput.argument)))) := by
  constructor
  · rintro ⟨request, hcall, hdata⟩
    obtain ⟨⟨data, held⟩, hrun, hcall⟩ := Exec.except_bind_eq_ok.mp hcall
    obtain ⟨hshort, hpassed, hrequest⟩ := boatEthCall_ok hcall
    rw [hrequest] at hdata
    have hbytes := Hex.toHex_injective (List.cons.inj (List.cons.inj hdata).2).2
    have hparams : data.drop 4 = SolidityAbi.encodeArguments
        (inputs.map SolidityInput.argument) :=
      List.append_cancel_left hbytes
    have hlength := congrArg List.length hparams
    rw [List.length_drop] at hlength
    obtain ⟨hlt, hdeclared, hfixed⟩ := solidityData_ok hmalloc hrun
    have hbuildable := buildable_of_length hlt hdeclared hfixed hlength
    rw [solidityData_eq hmalloc hgrants hbuildable] at hrun
    obtain ⟨rfl, -⟩ := Prod.mk.inj (Except.ok.inj hrun)
    rw [hlength] at hshort
    rw [hparams] at hpassed
    exact ⟨⟨hbuildable, builtData_eq_iff.mp (builtData_of_drop hparams)⟩,
      hshort, hpassed⟩
  · rintro ⟨⟨hbuildable, hsigns⟩, hshort, hpassed⟩
    rw [← @length_solidityCall keccak256 name inputs] at hshort
    rw [← @drop_solidityCall keccak256 name inputs] at hpassed
    have hcall := (@checkedCall_callsWith _ ParamWeb3Call.data _ _
      (paramsGiven_drop hshort) (functionPrototype name inputs)
      (keccak256 (functionPrototype name inputs).bytes)
      (fun params => web3CallParam tx (callDataStr
        (keccak256 (functionPrototype name inputs).bytes) params))
      fun _ => rfl).mpr hpassed
    rw [take_drop_selector, take_append_solidityCall] at hcall
    rw [eth2cCall, solidityData_eq hmalloc hgrants hbuildable,
      builtData_eq_iff.mpr hsigns, Exec.except_ok_bind]
    exact hcall

end Calls

section Transact

variable {keccak256 : List UInt8 → Block 32} {env : SendEnv}
  {node : ReceiptAnswers} {isSyncTx : Bool} {txCount : NodeAnswer}
  {name : CString} {inputs : List SolidityInput} {before after : SendState}
  {txHash : List Char}

theorem sendOutcome_eq_ok {α : Type} {outcome : Outcome α} {a : α} :
    sendOutcome outcome before = .ok a after ↔
      outcome = .ok a ∧ after = before := by
  cases outcome with
  | error failure => simp [sendOutcome]
  | ok b => simp [sendOutcome, eq_comm]

/-- A generated function that gives a hash sent one transaction, whose data is
what was built. -/
theorem eth2cTransact_ok (hmalloc : Fresh env.malloc)
    (hrun : eth2cTransact keccak256 env node isSyncTx txCount name inputs
      before = .ok txHash after) :
    ∃ data held, solidityData keccak256 env.malloc name inputs =
        .ok (data, held) ∧ SendsData data before after := by
  obtain ⟨_, declared, hdeclare, hrun⟩ := Exec.bind_eq_ok.mp hrun
  obtain ⟨_, numbered, hnonce, hrun⟩ := Exec.bind_eq_ok.mp hrun
  obtain ⟨⟨data, held⟩, packed, hpack, hrun⟩ := Exec.bind_eq_ok.mp hrun
  obtain ⟨_, ready, hdata, hrun⟩ := Exec.bind_eq_ok.mp hrun
  obtain ⟨_, sent, hsend, hhash⟩ := Exec.bind_eq_ok.mp hrun
  obtain ⟨-, rfl⟩ := sendOutcome_eq_ok.mp hdeclare
  obtain ⟨hbuilt, rfl⟩ := sendOutcome_eq_ok.mp hpack
  have hsends := @txSetNonce_sends env ethApi boatNonceAuto txCount declared
  rw [hnonce] at hsends
  cases hhash
  cases hdata
  obtain ⟨request, items, hrequest, hcarries, hitem⟩ :=
    SyncSend.txSend_data rfl ethSender_wellFormed rfl hmalloc hsend
  refine ⟨data, held, hbuilt, request, items, ?_, hcarries, ?_⟩
  · have hkept : packed.sends = declared.sends := hsends
    rw [hrequest, ← hkept]
    rfl
  · rw [hitem]
    exact congrArg some (List.take_length ..)

end Transact

/-- What the generated functions make of their arguments.  A transaction that
goes out carries the encoding of the ABI exactly where the arguments can be
built and the signs are in front of their values, and so does a call that
moreover is short enough, with a prototype that is or a zero among its
parameters. -/
theorem eth2cFunctions_carry {env : SendEnv} (hmalloc : Fresh env.malloc)
    (hgrants : Grants env.malloc) (keccak256 : List UInt8 → Block 32)
    (name : CString) (inputs : List SolidityInput) :
    (∀ node isSyncTx txCount before txHash after,
      eth2cTransact keccak256 env node isSyncTx txCount name inputs before =
        .ok txHash after →
      (SendsData (solidityCall keccak256 name inputs) before after ↔
        Buildable inputs ∧ ∀ input ∈ inputs, input.SignsKept)) ∧
    ∀ tx, CallsWith ParamWeb3Call.data (eth2cCall keccak256 env tx name inputs)
        (solidityCall keccak256 name inputs) ↔
      (Buildable inputs ∧ ∀ input ∈ inputs, input.SignsKept) ∧
        (SolidityAbi.encodeArguments
          (inputs.map SolidityInput.argument)).length ≤ boatStringMaxLen ∧
        ((functionPrototype name inputs).bytes.length < boatStringMaxLen ∨
          TerminatorSeen (some (SolidityAbi.encodeArguments
            (inputs.map SolidityInput.argument)))) := by
  refine ⟨?_, eth2cCall_callsWith_iff hmalloc hgrants⟩
  intro node isSyncTx txCount before txHash after hrun
  obtain ⟨data, held, hbuilt, hsends⟩ := eth2cTransact_ok hmalloc hrun
  rw [← @solidityData_right_iff keccak256 _ name _ hmalloc hgrants]
  constructor
  · intro hright
    rw [hbuilt, hright.unique hsends]
    exact ⟨held, rfl⟩
  · rintro ⟨_, hright⟩
    rw [hright] at hbuilt
    obtain ⟨rfl, -⟩ := Prod.mk.inj (Except.ok.inj hbuilt)
    exact hsends

/-- The name `transfer`. -/
def sampleFunction : CString :=
  ⟨[116, 114, 97, 110, 115, 102, 101, 114], by decide⟩

/-- A negative number of two bytes and a text. -/
def sampleArguments : List SolidityInput :=
  [.fixedSize (.int .w16) ⟨[0xfe, 0xff], rfl⟩, .string ⟨[65], by decide⟩]

theorem solidityCall_sample :
    solidityCall (fun _ => .zero 32) sampleFunction sampleArguments =
      List.replicate 4 0 ++ (List.replicate 31 0xff ++ [0xfe]) ++
        (List.replicate 31 0 ++ [64]) ++ (List.replicate 31 0 ++ [1]) ++
        65 :: List.replicate 31 0 := by
  decide +kernel

/-- The negative number and the text, sent and called. -/
theorem eth2cFunctions_carry_negative :
    (∃ txHash after, eth2cTransact (fun _ => .zero 32) (sampleEnv 1)
        (fun _ _ => .ok []) false (.ok []) sampleFunction sampleArguments
        (sampleState ⟨1, true⟩ .zero) = .ok txHash after ∧
      SendsData (List.replicate 4 0 ++ (List.replicate 31 0xff ++ [0xfe]) ++
        (List.replicate 31 0 ++ [64]) ++ (List.replicate 31 0 ++ [1]) ++
        65 :: List.replicate 31 0) (sampleState ⟨1, true⟩ .zero) after) ∧
    CallsWith ParamWeb3Call.data
      (eth2cCall (fun _ => .zero 32) (sampleEnv 1)
        (sampleState ⟨1, true⟩ .zero).tx sampleFunction sampleArguments)
      (List.replicate 4 0 ++ (List.replicate 31 0xff ++ [0xfe]) ++
        (List.replicate 31 0 ++ [64]) ++ (List.replicate 31 0 ++ [1]) ++
        65 :: List.replicate 31 0) := by
  obtain ⟨hsends, hcalls⟩ := @eth2cFunctions_carry (sampleEnv 1)
    zeroMalloc_fresh zeroMalloc_grants (fun _ => .zero 32) sampleFunction
    sampleArguments
  have hright : Buildable sampleArguments ∧
      ∀ input ∈ sampleArguments, input.SignsKept :=
    ⟨⟨by decide, by decide, by decide +kernel⟩, by decide +kernel⟩
  rw [solidityCall_sample] at hsends hcalls
  constructor
  · obtain ⟨txHash, hrun⟩ := Exec.eq_ok_of_succeeds
      (r := eth2cTransact (fun _ => .zero 32) (sampleEnv 1) (fun _ _ => .ok [])
        false (.ok []) sampleFunction sampleArguments
        (sampleState ⟨1, true⟩ .zero))
      (by decide +kernel)
    exact ⟨txHash, _, hrun, (hsends _ _ _ _ _ _ hrun).mpr hright⟩
  · exact (hcalls _).mpr
      ⟨hright, by decide +kernel, .inl (by decide +kernel)⟩

end BoatFramework
