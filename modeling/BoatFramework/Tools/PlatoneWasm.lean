/-
The functions that `platoneWASM2c.py` generates from the ABI of a WASM
contract.  Each packs the transaction type, the name of the contract's function
and the arguments into one RLP list and calls the contract with it, or sends a
transaction that carries it.
-/
import BoatFramework.Base.FixedWidth
import BoatFramework.Tools.Generated
import BoatFramework.Tx.CallContract

namespace BoatFramework

/-- An argument of one of the eight integer types of the generator. -/
structure WasmInteger where
  signed : Bool
  size : Nat
  value : Int
  size_mem : size ∈ [1, 2, 4, 8]
  inRange : FixedWidth.InRange signed size value

/-- The storage of the parameter, its low byte in front. -/
def WasmInteger.storage (number : WasmInteger) : List UInt8 :=
  FixedWidth.low number.size (FixedWidth.twos number.size number.value)

/-- The arguments of a generated function behind the transaction. -/
inductive WasmInput where
  | string (text : CString)
  | integer (number : WasmInteger)

/-- A string object over `stringLen` bytes at a pointer, appended to a list; the
length is passed in a `BUINT32`. -/
def tryAppend (list : RlpObject) (stringPtr : List UInt8) (stringLen : Nat) :
    Outcome RlpObject := do
  let object ← rlpInitStringObject (some stringPtr) (buint32 stringLen)
  let appended ← rlpEncoderAppendObjectToList list object
  pure appended.1

/-- The statements that are generated for an argument. -/
def appendInput (list : RlpObject) (input : WasmInput) : Outcome RlpObject :=
  match input with
  | .string text => tryAppend list text.bytes text.bytes.length
  | .integer number => do
      let turned ← turnStorage number.storage number.size
      tryAppend list turned number.size

/-- The list of a generated function: the type, the name and the arguments. -/
def wasmList (txtype : UInt32) (name : CString) (inputs : List WasmInput) :
    Outcome RlpObject := do
  let turned ← turnStorage (FixedWidth.low 8 txtype.toNat) 8
  let list ← tryAppend rlpInitListObject turned 8
  let list ← tryAppend list name.bytes name.bytes.length
  inputs.foldlM appendInput list

/-- The statements up to `RlpGetEncodedStream`.  Without memory for the list the
clean-up deletes an object that was initialized in part. -/
def wasmStream (env : SendEnv) (txtype : UInt32) (name : CString)
    (inputs : List WasmInput) : Outcome (List UInt8) :=
  match env.malloc 128 with
  | none => .error .undefined
  | some _ => do
      let list ← wasmList txtype name inputs
      rlpEncode env.malloc list none

/-- A generated function for a constant function of the contract. -/
def wasmCall (env : SendEnv) (tx : BoatTx) (txtype : UInt32) (name : CString)
    (inputs : List WasmInput) : Outcome (Option ParamWeb3Call) := do
  let stream ← wasmStream env txtype name inputs
  boatPlatoneCallContractFunc tx (some stream) stream.length

/-- The packing inside a transaction, with the type that is set in it. -/
def packStream (env : SendEnv) (name : CString) (inputs : List WasmInput) :
    SendM (List UInt8) :=
  fun state =>
    match wasmStream env (UInt32.ofNat state.tx.rawtxFields.txtype) name
        inputs with
    | .ok stream => .ok stream state
    | .error failure => .error failure state

/-- The nonce is set in front of the initialization of the list; when that
fails, the clean-up deletes an object that was never initialized. -/
def trySetNonce (env : SendEnv) (txCount : NodeAnswer) : SendM Unit :=
  fun state =>
    match txSetNonce platoneApi env boatNonceAuto txCount state with
    | .ok _ state => .ok () state
    | .error _ state => .error .undefined state

/-- A generated function for a function that changes the contract. -/
def wasmTransact (env : SendEnv) (node : ReceiptAnswers) (isSyncTx : Bool)
    (txCount : NodeAnswer) (name : CString) (inputs : List WasmInput) :
    SendM (List Char) := do
  trySetNonce env txCount
  let stream ← packStream env name inputs
  txSetData (some ⟨some stream, stream.length⟩)
  boatPlatoneTxSend env node isSyncTx
  fun state => .ok (txHashStr state) state

/-- The item for an argument: a string as it is, an integer in the width of its
type. -/
def WasmInput.item : WasmInput → List UInt8
  | .string text => text.bytes
  | .integer number =>
      FixedWidth.high number.size (FixedWidth.twos number.size number.value)

/-- The argument has a length that fits a `BUINT32`. -/
def WasmInput.Short (input : WasmInput) : Prop :=
  input.item.length < 2 ^ 32

/-- What a WASM contract is called with. -/
def wasmItems (txtype : UInt32) (name : CString) (inputs : List WasmInput) :
    List (List UInt8) :=
  FixedWidth.high 8 txtype.toNat :: name.bytes :: inputs.map WasmInput.item

def wasmCallData (txtype : UInt32) (name : CString) (inputs : List WasmInput) :
    List UInt8 :=
  Rlp.encode (itemsOf (wasmItems txtype name inputs))

section Lists

variable {txtype : UInt32} {name : CString} {inputs : List WasmInput}
  {descriptors : List RlpObject}

theorem tryAppend_eq {bytes : List UInt8} (hshort : bytes.length < 2 ^ 32) :
    tryAppend (.list descriptors) bytes bytes.length =
      if descriptors.length < maxRlpListDescNum then
        .ok (.list (descriptors ++ [.string bytes]))
      else boatThrow boatErrorRlpEncoderFail := by
  rw [tryAppend, buint32_of_lt hshort, rlpInitStringObject,
    if_pos (Nat.le_refl _),
    List.take_length, Exec.except_ok_bind, rlpEncoderAppendObjectToList]
  split <;> rfl

theorem WasmInteger.turnStorage_eq (number : WasmInteger) :
    turnStorage number.storage number.size =
      .ok (FixedWidth.high number.size
        (FixedWidth.twos number.size number.value)) := by
  have hsize : number.size ≤ 257 := by
    have hmem := number.size_mem
    simp only [List.mem_cons, List.not_mem_nil, or_false] at hmem
    omega
  exact BoatFramework.turnStorage_eq (FixedWidth.length_low _ _) hsize

theorem appendInput_eq {input : WasmInput} (hshort : input.Short) :
    appendInput (.list descriptors) input =
      if descriptors.length < maxRlpListDescNum then
        .ok (.list (descriptors ++ [.string input.item]))
      else boatThrow boatErrorRlpEncoderFail := by
  cases input with
  | string text => exact tryAppend_eq hshort
  | integer number =>
      have happend := @tryAppend_eq descriptors _ hshort
      simp only [WasmInput.item, FixedWidth.length_high] at happend
      rw [appendInput, number.turnStorage_eq, Exec.except_ok_bind]
      exact happend

/-- The arguments are appended while the list has room; by induction on them. -/
theorem appendInputs_eq_ok {list : RlpObject}
    (hshort : ∀ input ∈ inputs, input.Short)
    (hroom : descriptors.length ≤ maxRlpListDescNum) :
    inputs.foldlM appendInput (.list descriptors) = .ok list ↔
      descriptors.length + inputs.length ≤ maxRlpListDescNum ∧
        list = .list (descriptors ++
          inputs.map fun input => .string input.item) := by
  induction inputs generalizing descriptors with
  | nil => simp [hroom, pure, Except.pure, eq_comm]
  | cons input inputs ih =>
      obtain ⟨hinput, hrest⟩ := List.forall_mem_cons.mp hshort
      rw [List.foldlM_cons, appendInput_eq hinput]
      split
      next hlt =>
        rw [Exec.except_ok_bind, ih hrest (by simpa using hlt)]
        simp [Nat.add_assoc, Nat.add_comm 1]
      next hfull =>
        refine iff_of_false (by rintro ⟨⟩) ?_
        rintro ⟨hle, _⟩
        rw [List.length_cons] at hle
        omega

/-- The list is built where there are at most thirteen arguments. -/
theorem wasmList_eq_ok {list : RlpObject} (hname : name.bytes.length < 2 ^ 32)
    (hshort : ∀ input ∈ inputs, input.Short) :
    wasmList txtype name inputs = .ok list ↔
      inputs.length ≤ 13 ∧
        list = .list ((wasmItems txtype name inputs).map .string) := by
  have htype : turnStorage (FixedWidth.low 8 txtype.toNat) 8 =
      .ok (FixedWidth.high 8 txtype.toNat) :=
    turnStorage_eq (FixedWidth.length_low _ _) (by decide)
  have hfirst := @tryAppend_eq [] (FixedWidth.high 8 txtype.toNat)
    (by rw [FixedWidth.length_high]; decide)
  rw [FixedWidth.length_high, if_pos (by decide)] at hfirst
  have hsecond := @tryAppend_eq [.string (FixedWidth.high 8 txtype.toNat)]
    name.bytes hname
  rw [if_pos (by simp [maxRlpListDescNum])] at hsecond
  rw [wasmList, htype, Exec.except_ok_bind, rlpInitListObject, hfirst,
    Exec.except_ok_bind, List.nil_append, hsecond, Exec.except_ok_bind,
    appendInputs_eq_ok hshort (by simp [maxRlpListDescNum]), wasmItems,
    List.map_cons, List.map_cons, List.map_map]
  refine and_congr ?_ Iff.rfl
  simp only [List.length_append, List.length_singleton, maxRlpListDescNum]
  omega

end Lists

section Streams

variable {env : SendEnv} {txtype : UInt32} {name : CString}
  {inputs : List WasmInput} {stream : List UInt8}
  (hname : name.bytes.length < 2 ^ 32)
  (hshort : ∀ input ∈ inputs, input.Short)

theorem encoding_strings (items : List (List UInt8)) :
    (RlpObject.list (items.map .string)).encoding =
      Rlp.encode (itemsOf items) := by
  rw [RlpObject.encoding, itemsOf]
  simp [RlpObject.toItems_eq_map, Function.comp_def]

include hname hshort in
/-- A stream that is built is the call data of the contract. -/
theorem wasmStream_ok (hmalloc : Fresh env.malloc)
    (hstream : wasmStream env txtype name inputs = .ok stream) :
    inputs.length ≤ 13 ∧ stream = wasmCallData txtype name inputs := by
  unfold wasmStream at hstream
  split at hstream
  · cases hstream
  · obtain ⟨list, hlist, hencode⟩ := Exec.except_bind_eq_ok.mp hstream
    obtain ⟨hroom, rfl⟩ := (wasmList_eq_ok hname hshort).mp hlist
    have hsound := (rlpEncode_sound hmalloc _ none stream
      (fun _ hnone => by cases hnone) hencode).1
    exact ⟨hroom, hsound.trans (encoding_strings _)⟩

include hname hshort in
/-- With memory granted a stream is built where the list has room. -/
theorem wasmStream_eq_ok (hmalloc : Fresh env.malloc)
    (hgrants : Grants env.malloc)
    (hsize : (wasmCallData txtype name inputs).length < rlpStreamLenUnknown) :
    wasmStream env txtype name inputs = .ok stream ↔
      inputs.length ≤ 13 ∧ stream = wasmCallData txtype name inputs := by
  constructor
  · exact wasmStream_ok hname hshort hmalloc
  · rintro ⟨hroom, rfl⟩
    obtain ⟨block, hblock⟩ := hgrants 128 (by decide)
    rw [wasmStream, hblock]
    simp only
    rw [(wasmList_eq_ok hname hshort).mpr ⟨hroom, rfl⟩, Exec.except_ok_bind,
      wasmCallData, ← encoding_strings]
    rw [wasmCallData, ← encoding_strings] at hsize
    exact rlpEncode_complete hmalloc hgrants _ none (.inr ⟨rfl, _, rfl⟩) hsize

/-- The type leaves the highest of its eight bytes zero. -/
theorem high_txtype (txtype : UInt32) :
    FixedWidth.high 8 txtype.toNat = 0 :: FixedWidth.high 7 txtype.toNat := by
  have hlt := txtype.toNat_lt
  rw [FixedWidth.high, FixedWidth.low_add 7 1, Nat.div_eq_of_lt (by omega),
    List.reverse_append]
  rfl

/-- The check for a terminator meets the zero in front of the type. -/
theorem wasmCallData_terminatorSeen
    (hsize : (wasmCallData txtype name inputs).length < 2 ^ 32) :
    TerminatorSeen (some (wasmCallData txtype name inputs)) := by
  have hlong : (FixedWidth.high 8 txtype.toNat).length = 8 :=
    FixedWidth.length_high 8 _
  have htype : Rlp.encodeString (FixedWidth.high 8 txtype.toNat) =
      0x88 :: 0 :: FixedWidth.high 7 txtype.toNat := by
    rw [Rlp.encodeString, hlong, high_txtype]
    rfl
  unfold wasmCallData itemsOf wasmItems at hsize ⊢
  rw [Rlp.encode_list, List.map_cons, Rlp.encodeAll_cons, Rlp.encode_str,
    htype] at hsize ⊢
  generalize Rlp.encodeAll _ = rest at hsize ⊢
  generalize hlen : (0x88 :: 0 :: FixedWidth.high 7 txtype.toNat ++
    rest).length = len at hsize ⊢
  have hprefix : (Rlp.lengthPrefix 0xc0 len).length ≤ 5 := by
    rw [List.length_append, hlen] at hsize
    have hbytes := (ByteString.length_bigEndian_le_iff len 4).mpr
      (by simpa using by omega)
    rw [Rlp.length_lengthPrefix]
    split <;> omega
  rw [TerminatorSeen, Option.getD_some]
  generalize Rlp.lengthPrefix 0xc0 len = front at hprefix ⊢
  refine List.mem_take_iff_getElem.mpr ⟨front.length + 1, ?_, ?_⟩
  · simp only [List.length_append, List.length_cons]
    unfold boatStringMaxLen
    omega
  · simp [List.getElem_append_right]

include hname hshort in
/-- A constant function is called with the list where it is short enough for a
call and has room for the arguments. -/
theorem wasmCall_callsWith (hmalloc : Fresh env.malloc)
    (hgrants : Grants env.malloc)
    (hsize : (wasmCallData txtype name inputs).length < rlpStreamLenUnknown)
    (tx : BoatTx) :
    CallsWith ParamWeb3Call.data (wasmCall env tx txtype name inputs)
        (wasmCallData txtype name inputs) ↔
      inputs.length ≤ 13 ∧
        (wasmCallData txtype name inputs).length ≤ boatStringMaxLen := by
  have hstream (stream) := @wasmStream_eq_ok env txtype name inputs stream
    hname hshort hmalloc hgrants hsize
  constructor
  · rintro ⟨request, hcall, -⟩
    obtain ⟨stream, hpacked, hcall⟩ := Exec.except_bind_eq_ok.mp hcall
    obtain ⟨hroom, rfl⟩ := (hstream stream).mp hpacked
    refine ⟨hroom, Nat.not_lt.mp fun hlong => ?_⟩
    rw [boatPlatoneCallContractFunc, if_neg (by simp), if_pos hlong] at hcall
    cases hcall
  · rintro ⟨hroom, hshort⟩
    have hgiven : ParamsGiven (some (wasmCallData txtype name inputs))
        (wasmCallData txtype name inputs).length :=
      ⟨hshort, Nat.le_refl _⟩
    have hpos : 0 < (wasmCallData txtype name inputs).length :=
      List.length_pos_of_ne_nil (Rlp.encode_ne_nil _)
    have hcalls := (platoneCall_callsWith hgiven tx).mpr
      ⟨hpos, wasmCallData_terminatorSeen
        (Nat.lt_of_lt_of_le hsize (by decide))⟩
    rw [Option.getD_some, List.take_length] at hcalls
    rwa [wasmCall, (hstream _).mpr ⟨hroom, rfl⟩, Exec.except_ok_bind]

end Streams

section Transact

variable {env : SendEnv} {node : ReceiptAnswers} {isSyncTx : Bool}
  {txCount : NodeAnswer} {name : CString} {inputs : List WasmInput}
  {before after : SendState} {txHash : List Char}

/-- Setting the nonce leaves the type alone. -/
theorem txSetNonce_txtype :
    Exec.Keeps (fun state : SendState => state.tx.rawtxFields.txtype)
      (txSetNonce platoneApi env boatNonceAuto txCount) := by
  unfold txSetNonce
  rw [if_pos rfl]
  cases txCount with
  | error code => exact fun _ => rfl
  | ok response =>
      have hkeep : Exec.Keeps
          (fun state : SendState => state.tx.rawtxFields.txtype)
          (keepAnswer platoneApi env response) :=
        fun state => keepParsed_keeps (·.tx.rawtxFields.txtype)
          (fun _ _ => rfl) _ state
      exact hkeep.bind fun _ _ => rfl

theorem trySetNonce_ok {numbered : SendState}
    (hrun : trySetNonce env txCount before = .ok () numbered) :
    numbered.sends = before.sends ∧
      numbered.tx.rawtxFields.txtype = before.tx.rawtxFields.txtype := by
  have hsends := @txSetNonce_sends env platoneApi boatNonceAuto txCount before
  have htxtype := @txSetNonce_txtype env txCount before
  unfold trySetNonce at hrun
  split at hrun
  next hnonce =>
    cases hrun
    rw [hnonce] at hsends htxtype
    exact ⟨hsends, htxtype⟩
  next => cases hrun

/-- A generated function that gives a hash sent one transaction, whose data is
the list of the type, the name and all arguments. -/
theorem wasmTransact_ok (hname : name.bytes.length < 2 ^ 32)
    (hshort : ∀ input ∈ inputs, input.Short) (hmalloc : Fresh env.malloc)
    (hrun : wasmTransact env node isSyncTx txCount name inputs before =
      .ok txHash after) :
    inputs.length ≤ 13 ∧
      SendsData (wasmCallData (UInt32.ofNat before.tx.rawtxFields.txtype) name
        inputs) before after := by
  obtain ⟨_, numbered, hnonce, hrun⟩ := Exec.bind_eq_ok.mp hrun
  obtain ⟨stream, packed, hpack, hrun⟩ := Exec.bind_eq_ok.mp hrun
  obtain ⟨_, ready, hdata, hrun⟩ := Exec.bind_eq_ok.mp hrun
  obtain ⟨_, sent, hsend, hhash⟩ := Exec.bind_eq_ok.mp hrun
  obtain ⟨hsends, htxtype⟩ := trySetNonce_ok hnonce
  cases hhash
  unfold packStream at hpack
  split at hpack
  next hstream =>
    cases hpack
    obtain ⟨hroom, rfl⟩ := wasmStream_ok hname hshort hmalloc hstream
    cases hdata
    obtain ⟨request, items, hrequest, hcarries, hitem⟩ :=
      SyncSend.txSend_data rfl platoneSender_wellFormed rfl hmalloc hsend
    refine ⟨hroom, request, items, ?_, hcarries, ?_⟩
    · rw [hrequest, ← hsends]
      rfl
    · rw [hitem, ← htxtype]
      exact congrArg some (List.take_length ..)
  next => cases hpack

end Transact

/-- The functions that the generator makes of the functions of a contract, with
texts whose lengths fit 32 bits.  A transaction that goes out carries the list
of the type, the name and all arguments, and with memory granted a call is made
with exactly that list where there are at most thirteen arguments and the list
is not too long for a call. -/
theorem wasmFunctions_carry {env : SendEnv} (hmalloc : Fresh env.malloc)
    {name : CString} {inputs : List WasmInput}
    (hname : name.bytes.length < 2 ^ 32)
    (hshort : ∀ input ∈ inputs, input.Short) :
    (∀ node isSyncTx txCount before txHash after,
      wasmTransact env node isSyncTx txCount name inputs before =
        .ok txHash after →
      inputs.length ≤ 13 ∧
        SendsData (wasmCallData (UInt32.ofNat before.tx.rawtxFields.txtype)
          name inputs) before after) ∧
    (∀ txtype, Grants env.malloc →
      (wasmCallData txtype name inputs).length < rlpStreamLenUnknown →
      (wasmStream env txtype name inputs =
          .ok (wasmCallData txtype name inputs) ↔ inputs.length ≤ 13) ∧
      ∀ tx, CallsWith ParamWeb3Call.data (wasmCall env tx txtype name inputs)
          (wasmCallData txtype name inputs) ↔
        inputs.length ≤ 13 ∧
          (wasmCallData txtype name inputs).length ≤ boatStringMaxLen) := by
  refine ⟨fun _ _ _ _ _ _ hrun => wasmTransact_ok hname hshort hmalloc hrun, ?_⟩
  intro txtype hgrants hsize
  refine ⟨?_, wasmCall_callsWith hname hshort hmalloc hgrants hsize⟩
  rw [wasmStream_eq_ok hname hshort hmalloc hgrants hsize]
  exact and_iff_left rfl

/-- The name `f`. -/
def wasmSampleName : CString :=
  ⟨[102], by decide⟩

/-- A negative argument of two bytes. -/
def wasmSampleInputs : List WasmInput :=
  [.integer ⟨true, 2, -2, by decide, by decide⟩]

theorem wasmCallData_sample :
    wasmCallData 0 wasmSampleName wasmSampleInputs =
      [0xcd, 0x88, 0, 0, 0, 0, 0, 0, 0, 0, 102, 0x82, 0xff, 0xfe] := by
  have hitems : wasmItems 0 wasmSampleName wasmSampleInputs =
      [[0, 0, 0, 0, 0, 0, 0, 0], [102], [0xff, 0xfe]] := by
    decide
  rw [wasmCallData, hitems, itemsOf, Rlp.encode_list]
  simp [Rlp.encode_str, Rlp.encodeString, Rlp.isSingle, Rlp.lengthPrefix]

/-- A function `f` with a negative argument, sent and called. -/
theorem wasmFunctions_carry_negative :
    (∃ txHash after, wasmTransact (sampleEnv 1) (fun _ _ => .ok []) false
        (.ok []) wasmSampleName wasmSampleInputs (sampleState ⟨1, true⟩ .zero) =
          .ok txHash after ∧
      SendsData [0xcd, 0x88, 0, 0, 0, 0, 0, 0, 0, 0, 102, 0x82, 0xff, 0xfe]
        (sampleState ⟨1, true⟩ .zero) after) ∧
    CallsWith ParamWeb3Call.data
      (wasmCall (sampleEnv 1) (sampleState ⟨1, true⟩ .zero).tx 0 wasmSampleName
        wasmSampleInputs)
      [0xcd, 0x88, 0, 0, 0, 0, 0, 0, 0, 0, 102, 0x82, 0xff, 0xfe] := by
  have hshort : ∀ input ∈ wasmSampleInputs, input.Short := by
    intro input hmem
    obtain rfl := List.mem_singleton.mp hmem
    exact (by decide : 2 < 2 ^ 32)
  obtain ⟨hsends, hcalls⟩ := @wasmFunctions_carry (sampleEnv 1)
    zeroMalloc_fresh wasmSampleName wasmSampleInputs (by decide) hshort
  refine ⟨?_, ?_⟩
  · obtain ⟨txHash, hrun⟩ := Exec.eq_ok_of_succeeds
      (r := wasmTransact (sampleEnv 1) (fun _ _ => .ok []) false (.ok [])
        wasmSampleName wasmSampleInputs (sampleState ⟨1, true⟩ .zero))
      (by decide +kernel)
    have hsent := (hsends _ _ _ _ _ _ hrun).2
    have htxtype : UInt32.ofNat
        (sampleState ⟨1, true⟩ .zero).tx.rawtxFields.txtype = 0 := rfl
    rw [htxtype] at hsent
    rw [← wasmCallData_sample]
    exact ⟨txHash, _, hrun, hsent⟩
  · have hcall := (hcalls 0 zeroMalloc_grants
      (by rw [wasmCallData_sample]; decide)).2
    rw [← wasmCallData_sample]
    exact (hcall _).mpr ⟨by decide, by rw [wasmCallData_sample]; decide⟩

end BoatFramework
