/-
The block limit of a FISCO BCOS transaction: the number of the current block as
the node spells it, and 500 more, in as many bytes as it takes.
-/
import BoatFramework.Tx.FiscobcosInit
import BoatFramework.Tx.SenderRun
import BoatFramework.Utility.HexNumber

namespace BoatFramework

open ByteString

theorem ofBigEndian_zeros (count : Nat) (bytes : List UInt8) :
    ofBigEndian (List.replicate count 0 ++ bytes) = ofBigEndian bytes := by
  induction count with
  | zero => rfl
  | succ count ih =>
      rw [List.replicate_succ, List.cons_append, ofBigEndian_cons, ih]
      simp

section Sum

variable {offset : Nat} {limbs : List Nat}

/-- No word wraps around while the carry is small. -/
theorem addBignum_eq_addCarry (hoffset : offset < 2 ^ 31)
    (hlimbs : ∀ limb ∈ limbs, limb < 2 ^ 30) :
    addBignum offset limbs = (Limbs.addCarry (2 ^ 30) offset limbs).1 := by
  induction limbs generalizing offset with
  | nil => rfl
  | cons limb limbs ih =>
      have hlimb := hlimbs limb List.mem_cons_self
      have hsum : buint32 (offset + limb) = offset + limb :=
        buint32_of_lt (by omega)
      have hcarry : (offset + limb) / 2 ^ 30 < 2 ^ 31 := by omega
      rw [addBignum, Limbs.addCarry, hsum, Nat.shiftRight_eq_div_pow,
        ih hcarry fun other hmem => hlimbs other (List.mem_cons_of_mem _ hmem)]
      exact congrArg (· :: _) (Nat.and_two_pow_sub_one_eq_mod _ 30)

/-- A sum of 256 bits is normalised again. -/
theorem addBignum_value (hoffset : offset < 2 ^ 31)
    (hlimbs : Normalised limbs)
    (hsum : offset + Nat.ofDigits (2 ^ 30) limbs < 2 ^ 256) :
    Normalised (addBignum offset limbs) ∧
      Nat.ofDigits (2 ^ 30) (addBignum offset limbs) =
        offset + Nat.ofDigits (2 ^ 30) limbs := by
  have hvalue := Limbs.addCarry_value (2 ^ 30) offset limbs
  obtain ⟨hlength, hlt⟩ :=
    Limbs.addCarry_lt (by decide : 0 < 2 ^ 30) offset limbs
  rw [← addBignum_eq_addCarry hoffset hlimbs.lt] at hvalue hlength hlt
  rw [hlimbs.length] at hvalue hlength
  have hcarry : (Limbs.addCarry (2 ^ 30) offset limbs).2 = 0 := by
    by_contra hne
    have hpos := Nat.mul_le_mul_left ((2 ^ 30) ^ 9) (Nat.pos_of_ne_zero hne)
    omega
  rw [hcarry, Nat.mul_zero, Nat.add_zero] at hvalue
  refine ⟨normalised_of_value hlength ?_ (hvalue ▸ hsum), hvalue⟩
  exact fun limb hmem => hlt limb (List.mem_of_mem_take hmem)

/-- The 32 bytes of a sum that has as many. -/
theorem addToBigend_value {bytes : List UInt8} (hlength : bytes.length ≤ 32)
    (hoffset : offset < 2 ^ 31)
    (hsum : offset + ofBigEndian bytes < 2 ^ 256) :
    (addToBigend bytes offset).length = 32 ∧
      ofBigEndian (addToBigend bytes offset) = offset + ofBigEndian bytes := by
  have hpadded : (List.replicate (32 - bytes.length) 0 ++ bytes).length =
      32 := by
    rw [List.length_append, List.length_replicate]
    omega
  have hzeros : ofBigEndian (List.replicate (32 - bytes.length) 0 ++ bytes) =
      ofBigEndian bytes := ofBigEndian_zeros _ _
  have hread := bignumLimbs_value hpadded
  rw [hzeros] at hread
  obtain ⟨hnormalised, hvalue⟩ := addBignum_value hoffset
    (bignumLimbs_normalised hpadded) (by rw [hread]; exact hsum)
  obtain ⟨hwritten, hbytes⟩ := bignumBytes_value hnormalised
  exact ⟨hwritten, hbytes.trans (hvalue.trans (by rw [hread]))⟩

end Sum

/-- A number as the node spells it: a lead, at most 64 digits, and 500 less
than what 256 bits hold. -/
structure BlockNumber (text : List Char) (n : Nat) : Prop where
  lead : hexDigits text ≠ text
  digits : (hexDigits text).length ≤ 64
  number : numberOf text = some n
  lt : n < 2 ^ 256 - 500

section Limit

variable {text : List Char} {n : Nat} (storage : Block 32)

theorem BlockNumber.spelled (hnumber : BlockNumber text n) :
    ∃ bytes, spelledBytes text = some bytes ∧ bytes.length ≤ 32 ∧
      ofBigEndian bytes = n := by
  obtain ⟨bytes, hspelled, hvalue⟩ := Option.map_eq_some_iff.mp hnumber.number
  refine ⟨bytes, hspelled, ?_, hvalue⟩
  have hdigits := hnumber.digits
  unfold spelledBytes at hspelled
  split at hspelled
  next => cases hspelled
  next =>
    split at hspelled
    next =>
      have hlength := Hex.length_of_ofHex hspelled
      omega
    next hodd =>
      have hlength := Hex.length_of_ofHex hspelled
      rw [List.length_cons] at hlength
      omega

/-- The field that the number is read into. -/
theorem blocklimitOf_value (hnumber : BlockNumber text n) :
    ((blocklimitOf storage text).field.bytes.take
        (blocklimitOf storage text).fieldLen).length ≤ 32 ∧
      (blocklimitOf storage text).fieldLen ≠ 0 ∧
      ofBigEndian ((blocklimitOf storage text).field.bytes.take
        (blocklimitOf storage text).fieldLen) = n := by
  obtain ⟨bytes, hspelled, hlength, rfl⟩ := hnumber.spelled
  have hresult := utilityHexToBin_result hspelled (by decide : 0 < 32) .leftTrim
    false
  have hmode : (TrimbinTrimMode.leftTrim == .trimNo) = false := rfl
  have htrimmed : (trimLeft bytes).length ≤ 32 :=
    (length_trimLeft_le bytes).trans hlength
  rw [hmode, written, if_neg (by decide), List.take_of_length_le htrimmed,
    hexToBinResult] at hresult
  unfold blocklimitOf
  by_cases hzero : trimLeft bytes = []
  · have hvalue : ofBigEndian bytes = 0 := by
      rw [← ofBigEndian_trimLeft, hzero]
      rfl
    have hfits : [(0 : UInt8)].length ≤ 32 := by decide
    have hone : (storage.overlay [0]).bytes.take 1 = [0] :=
      storage.take_overlay hfits
    rw [if_pos ⟨List.length_eq_zero_iff.mpr hzero, rfl⟩] at hresult
    rw [hresult, hvalue]
    dsimp only
    rw [hone]
    exact ⟨by decide, by decide, rfl⟩
  · rw [if_neg fun hnil => hzero (List.length_eq_zero_iff.mp hnil.1)] at hresult
    rw [hresult]
    dsimp only
    rw [storage.take_overlay htrimmed]
    refine ⟨htrimmed, ?_, ofBigEndian_trimLeft bytes⟩
    exact fun hnil => hzero (List.length_eq_zero_iff.mp hnil)

/-- 500 more, in as many bytes as it takes. -/
theorem raiseBlocklimit_value {blocklimit : BoatFieldMax 32}
    (hlength : (blocklimit.field.bytes.take blocklimit.fieldLen).length ≤ 32)
    (hvalue : ofBigEndian (blocklimit.field.bytes.take blocklimit.fieldLen) = n)
    (hn : n < 2 ^ 256 - 500) :
    (raiseBlocklimit blocklimit).field.bytes.take
        (raiseBlocklimit blocklimit).fieldLen = bigEndian (n + 500) := by
  subst hvalue
  obtain ⟨hsize, hsum⟩ := @addToBigend_value 500 _ hlength (by decide)
    (by omega)
  have htrimmed : (trimLeft (addToBigend
      (blocklimit.field.bytes.take blocklimit.fieldLen) 500)).length ≤ 32 :=
    (length_trimLeft_le _).trans hsize.le
  unfold raiseBlocklimit
  dsimp only
  rw [(Block.zero 32).take_overlay htrimmed,
    ← bigEndian_ofBigEndian_eq_trimLeft, hsum, Nat.add_comm]

end Limit

section Init

variable {env : SendEnv} {stack : Block 20} {args : FiscobcosInitArgs}
  {state state' : SendState} {response text : List Char} {n : Nat}

/-- The answer of the node to the question for the current block. -/
structure AnswersBlock (env : SendEnv) (response text : List Char) : Prop where
  string : ∃ json, env.cJSONParse response = some json ∧
    json.getObjectItem "result".toList = some (.string text)

/-- The answer is copied into the buffer. -/
theorem AnswersBlock.parse (hanswer : AnswersBlock env response text)
    (buffer : ResultBuffer) :
    fiscobcosParseJsonResult env.cJSONParse env.malloc response [] buffer =
      .ok (copyResult env.malloc text buffer) := by
  obtain ⟨json, hparse, hresult⟩ := hanswer.string
  rw [fiscobcosParseJsonResult, ethParseJsonResult, hparse]
  simp only
  rw [Json.namedItem_of_some hresult]
  rfl

theorem keepBlockNumber_text (hanswer : AnswersBlock env response text)
    (hrun : keepBlockNumber env response state = .ok () state') :
    state'.resultBuf.content = some text := by
  obtain ⟨buffer, hparsed, rfl⟩ := keepParsed_ok_iff.mp hrun
  rw [hanswer.parse] at hparsed
  exact copyResult_success (Except.ok.inj hparsed)

/-- A run that sets the block limit sets the number and 500. -/
theorem initBlocklimit_value (hanswer : AnswersBlock env response text)
    (hnumber : BlockNumber text n)
    (hrun : initBlocklimit env (.ok response) state = .ok () state') :
    state'.tx.rawtxFields.bytes .blocklimit = bigEndian (n + 500) := by
  obtain ⟨_, kept, hkeep, hrun⟩ := Exec.bind_eq_ok.mp hrun
  obtain ⟨_, set, hset, hrun⟩ := Exec.bind_eq_ok.mp hrun
  have htext := keepBlockNumber_text hanswer hkeep
  unfold setBlockNumber at hset
  rw [htext] at hset
  obtain ⟨_, changed, hchange, hset⟩ := Exec.bind_eq_ok.mp hset
  cases hchange
  dsimp only at hset
  split at hset
  next => cases hset
  next =>
    cases hset
    cases hrun
    obtain ⟨hlength, _, hvalue⟩ :=
      blocklimitOf_value kept.tx.rawtxFields.blocklimit.field hnumber
    exact raiseBlocklimit_value hlength hvalue hnumber.lt

theorem setNonEmpty_succeeds {field : RawtxFields → BoatFieldMax 32}
    {change : RawtxFields → RawtxFields}
    (hne : (field (change state.tx.rawtxFields)).fieldLen ≠ 0) :
    setNonEmpty field change state =
      .ok () (state.setFields (change state.tx.rawtxFields)) := by
  have hchange : modifyFields change state =
      .ok () (state.setFields (change state.tx.rawtxFields)) := rfl
  exact (Exec.bind_ok hchange).trans (if_neg hne)

theorem setBlockNumber_succeeds (hnumber : BlockNumber text n)
    (htext : state.resultBuf.content = some text) :
    ∃ state', setBlockNumber state = .ok () state' := by
  obtain ⟨_, hne, _⟩ := blocklimitOf_value state.tx.rawtxFields.blocklimit.field
    hnumber
  unfold setBlockNumber
  rw [htext]
  exact ⟨_, setNonEmpty_succeeds hne⟩

/-- The number does not make the block limit fail. -/
theorem initBlocklimit_succeeds (hgrants : ∀ size, (env.malloc size).isSome)
    (hanswer : AnswersBlock env response text) (hnumber : BlockNumber text n)
    (state : SendState) :
    ∃ state', initBlocklimit env (.ok response) state = .ok () state' := by
  have hkeep : keepBlockNumber env response state = .ok ()
      (state.setResultBuf (copyResult env.malloc text state.resultBuf).2) := by
    refine keepParsed_ok_iff.mpr ⟨_, (hanswer.parse _).trans ?_, rfl⟩
    exact congrArg Except.ok
      (Prod.ext (copyResult_of_grants hgrants text state.resultBuf) rfl)
  have htext := keepBlockNumber_text hanswer hkeep
  obtain ⟨set, hset⟩ := setBlockNumber_succeeds hnumber htext
  exact ⟨_, (Exec.bind_ok hkeep).trans (Exec.bind_ok hset)⟩

/-- The block limit of a transaction that is initialized is the number of the
current block and 500. -/
theorem boatFiscobcosTxInit_blocklimit
    (hblock : args.blockNumber = .ok response)
    (hanswer : AnswersBlock env response text) (hnumber : BlockNumber text n) :
    ((∀ size, (env.malloc size).isSome) → ∀ state, ∃ state',
      initBlocklimit env args.blockNumber state = .ok () state') ∧
    ∀ state state', boatFiscobcosTxInit env stack args state = .ok () state' →
      state'.tx.rawtxFields.bytes .blocklimit = bigEndian (n + 500) := by
  constructor
  · intro hgrants state
    rw [hblock]
    exact initBlocklimit_succeeds hgrants hanswer hnumber state
  · intro state state' hrun
    cases hgasprice : args.gaspriceStr with
    | none =>
        rw [boatFiscobcosTxInit, hgasprice] at hrun
        cases hrun
    | some gaspriceStr =>
    cases hrecipientStr : args.recipientStr with
    | none =>
        rw [boatFiscobcosTxInit, hgasprice, hrecipientStr] at hrun
        cases hrun
    | some recipientStr =>
    rw [boatFiscobcosTxInit, hgasprice, hrecipientStr] at hrun
    obtain ⟨_, _, _, hrun⟩ := Exec.bind_eq_ok.mp hrun
    obtain ⟨_, _, _, hrun⟩ := Exec.bind_eq_ok.mp hrun
    obtain ⟨_, _, _, hrun⟩ := Exec.bind_eq_ok.mp hrun
    obtain ⟨_, _, _, hrun⟩ := Exec.bind_eq_ok.mp hrun
    obtain ⟨_, _, _, hrun⟩ := Exec.bind_eq_ok.mp hrun
    obtain ⟨_, _, _, hrun⟩ := Exec.bind_eq_ok.mp hrun
    obtain ⟨⟨⟩, _, hlimit, hrun⟩ := Exec.bind_eq_ok.mp hrun
    rw [hblock] at hlimit
    have hvalue := initBlocklimit_value hanswer hnumber hlimit
    cases hrun
    exact hvalue

end Init

/-- A first block of number 31, on chain 1 and in group 1. -/
def blockLimitArgs : FiscobcosInitArgs where
  gaspriceStr := some "0x1".toList
  gaslimitStr := some "0x1".toList
  recipientStr := some "0x01".toList
  chainidStr := some "0x1".toList
  groupidStr := some "0x1".toList
  blockNumber := .ok "\x7b\"result\":\"0x1f\"\x7d".toList

theorem boatFiscobcosTxInit_blocklimit_first :
    ∃ state', boatFiscobcosTxInit (sampleEnv 1) (.zero 20) blockLimitArgs
        (sampleState ⟨1, true⟩ .zero) = .ok () state' ∧
      state'.tx.rawtxFields.bytes .blocklimit = bigEndian 531 := by
  obtain ⟨state', hrun⟩ := exists_of_succeeds
    (boatFiscobcosTxInit (sampleEnv 1) (.zero 20) blockLimitArgs
      (sampleState ⟨1, true⟩ .zero)) (by decide +kernel)
  have hnumber : BlockNumber "0x1f".toList 31 :=
    ⟨by decide, by decide, by decide, by decide⟩
  exact ⟨state', hrun, (boatFiscobcosTxInit_blocklimit rfl ⟨_, rfl, rfl⟩
    hnumber).2 _ state' hrun⟩

end BoatFramework
