/-
What the functions of `eth2c.py` build: a step of theirs writes its bytes at the
place it has come to and leaves the rest of the block, and the steps together
write a selector and a tuple.
-/
import BoatFramework.Tools.Eth2c

namespace BoatFramework

open SolidityAbi (word padRight paddedLength encodeTuple heads tails headsLength)

section Fills

variable {α β : Type} {first : FillM α} {next : α → FillM β} {a : α} {b : β}
  {front back content : List UInt8}

/-- The program writes the content where it stands, and nothing else. -/
def Fills (program : FillM α) (content : List UInt8) (a : α) : Prop :=
  ∀ before target behind : List UInt8, target.length = content.length →
    program ⟨before ++ target ++ behind, before.length⟩ =
      .ok a ⟨before ++ content ++ behind, (before ++ content).length⟩

theorem fills_pure (a : α) : Fills (pure a) [] a := by
  intro before target behind htarget
  rw [List.eq_nil_of_length_eq_zero htarget, List.append_nil]
  rfl

theorem Fills.bind (hfirst : Fills first front a)
    (hnext : Fills (next a) back b) :
    Fills (first >>= next) (front ++ back) b := by
  intro before target behind htarget
  rw [List.length_append] at htarget
  have hfront : (target.take front.length).length = front.length :=
    List.length_take_of_le (by omega)
  have hback : (target.drop front.length).length = back.length := by
    rw [List.length_drop]
    omega
  have hran := hfirst before _ (target.drop front.length ++ behind) hfront
  rw [← List.append_assoc, List.append_assoc before, List.take_append_drop,
    ← List.append_assoc] at hran
  rw [Exec.bind_ok hran, hnext _ _ behind hback, List.append_assoc before]

theorem Fills.map (hfirst : Fills first front a) (value : α → β) :
    Fills (do let a ← first; pure (value a)) front (value a) := by
  have hrun := @Fills.bind α β first (fun a => pure (value a)) a (value a)
    front [] hfirst (fills_pure _)
  rwa [List.append_nil] at hrun

theorem Fills.outcome {outcome : Outcome α} (houtcome : outcome = .ok a)
    (hnext : Fills (next a) content b) :
    Fills (fillOutcome outcome >>= next) content b := by
  rw [houtcome]
  exact hnext

theorem Fills.forM {step : α → FillM Unit} {content : α → List UInt8}
    {list : List α} (hstep : ∀ a ∈ list, Fills (step a) (content a) ()) :
    Fills (list.forM step) (list.flatMap content) () := by
  induction list with
  | nil => exact fills_pure ()
  | cons head list ih =>
      obtain ⟨hhead, hlist⟩ := List.forall_mem_cons.mp hstep
      exact hhead.bind (ih hlist)

/-- One write inside a part of the block. -/
theorem writeAt_run (before front middle back behind bytes : List UInt8)
    {distance : Nat} (hdistance : front.length = distance)
    (hbytes : bytes.length = middle.length) :
    writeAt distance bytes
        ⟨before ++ (front ++ middle ++ back) ++ behind, before.length⟩ =
      .ok () ⟨before ++ (front ++ bytes ++ back) ++ behind,
        before.length⟩ := by
  have hstore := storeAt_append (before ++ front) (back ++ behind) hbytes
  have hblock (part : List UInt8) :
      before ++ (front ++ part ++ back) ++ behind =
        before ++ front ++ part ++ (back ++ behind) := by
    simp only [List.append_assoc]
  rw [writeAt, hblock, hblock, ← hdistance, ← List.length_append, hstore]

/-- Zeros or ones over a part of the block, a value over some of them, and the
step behind the part. -/
theorem fills_overwrite {distance length : Nat} {fill : UInt8}
    {bytes : List UInt8} (hfits : distance + bytes.length ≤ length) (a : α) :
    Fills (do
        writeAt 0 (List.replicate length fill)
        writeAt distance bytes
        advancePtr length
        pure a)
      (List.replicate distance fill ++ bytes ++
        List.replicate (length - distance - bytes.length) fill) a := by
  intro before target behind htarget
  have hlength : target.length = length := by
    simp only [List.length_append, List.length_replicate] at htarget
    omega
  have hset := @writeAt_run before [] target [] behind
    (List.replicate length fill) 0 rfl
    (by rw [List.length_replicate, hlength])
  have hparts : List.replicate length fill =
      List.replicate distance fill ++ List.replicate bytes.length fill ++
        List.replicate (length - distance - bytes.length) fill := by
    rw [List.replicate_append_replicate, List.replicate_append_replicate]
    congr 1
    omega
  have hcopy := writeAt_run before (List.replicate distance fill)
    (List.replicate bytes.length fill)
    (List.replicate (length - distance - bytes.length) fill) behind bytes
    List.length_replicate (by rw [List.length_replicate])
  rw [List.nil_append, List.append_nil, List.nil_append, List.append_nil,
    hparts] at hset
  rw [hparts, Exec.bind_ok hset, Exec.bind_ok hcopy]
  have hend : before.length + length = (before ++ (List.replicate distance fill ++
      bytes ++ List.replicate (length - distance - bytes.length) fill)).length := by
    simp only [List.length_append, List.length_replicate]
    omega
  rw [← hend]
  rfl

end Fills

section Numbers

/-- The word of a number that a `BUINT32` holds. -/
theorem word_of_lt {n : Nat} (hn : n < 2 ^ 32) :
    word n = List.replicate 28 0 ++ FixedWidth.high 4 n := by
  rw [word, @FixedWidth.high_extend 4 28 n (by omega) (by omega),
    FixedWidth.signByte, if_neg (by omega),
    FixedWidth.twos_of_nonneg (by omega) (by omega), Int.toNat_natCast]

theorem fillNumber_fills {n : Nat} (hn : n < 2 ^ 32) :
    Fills (fillNumber (UInt32.ofNat n)) (word n) () := by
  have hnat : (UInt32.ofNat n).toNat = n := by
    rw [UInt32.toNat_ofNat', Nat.mod_eq_of_lt hn]
  have hturned : turnStorage (FixedWidth.low 4 (UInt32.ofNat n).toNat) 4 =
      .ok (FixedWidth.high 4 n) := by
    rw [hnat]
    exact turnStorage_eq (FixedWidth.length_low _ _) (by omega)
  have hlength : (FixedWidth.high 4 n).length = 4 := FixedWidth.length_high _ _
  have hword := @fills_overwrite Unit 28 32 0 (FixedWidth.high 4 n)
    (by omega) ()
  rw [hlength, List.replicate_zero, List.append_nil, ← word_of_lt hn] at hword
  exact Fills.outcome hturned hword

end Numbers

section Words

variable {type : FixedSizeType}

/-- The word that is written for a value, behind a fill byte. -/
def fixedWord (fill : UInt8) (type : FixedSizeType) (value : Bytes type.size) :
    List UInt8 :=
  if isRightAlignedType type then
    List.replicate (32 - type.size) fill ++ value.1.reverse
  else value.1 ++ List.replicate (32 - type.size) fill

@[simp] theorem length_fixedWord (fill : UInt8) (value : Bytes type.size) :
    (fixedWord fill type value).length = 32 := by
  have hle := type.size_le
  have hlength := value.2
  rw [fixedWord]
  split <;> simp <;> omega

theorem length_reverse_value {size : Nat} (value : Bytes size) :
    value.1.reverse.length = size := by
  rw [List.length_reverse, value.2]

/-- The value with its bytes in the other order. -/
def reverseValue {size : Nat} (value : Bytes size) : Bytes size :=
  ⟨value.1.reverse, length_reverse_value value⟩

theorem turnValue_eq (value : Bytes type.size) :
    turnValue type value = .ok (reverseValue value) := by
  have hturned := turnStorage_eq value.2
    (Nat.le_trans type.size_le (by omega))
  unfold turnValue
  split
  next turned hrun =>
    rw [hturned] at hrun
    congr 1
    exact Subtype.ext (Except.ok.inj hrun).symm
  next failure hrun =>
    rw [hturned] at hrun
    cases hrun

/-- The value that is written, and that the caller finds behind a call where the
parameter is a pointer. -/
def orderedValue (nonFixedArray : Bool) (type : FixedSizeType)
    (value : Bytes type.size) : Bytes type.size :=
  if requireEndianChange nonFixedArray type then reverseValue value else value

theorem changeOrder_eq (nonFixedArray : Bool) (value : Bytes type.size) :
    changeOrder nonFixedArray type value =
      .ok (orderedValue nonFixedArray type value) := by
  unfold changeOrder orderedValue
  split
  · exact turnValue_eq value
  · rfl

/-- One byte is the same in both orders. -/
theorem reverse_of_one {bytes : List UInt8} (hlength : bytes.length ≤ 1) :
    bytes.reverse = bytes := by
  match bytes, hlength with
  | [], _ => rfl
  | [_], _ => rfl

/-- A type whose order is left alone is one byte or not right aligned. -/
theorem size_of_not_requireEndianChange {nonFixedArray : Bool}
    (hkept : requireEndianChange nonFixedArray type = false)
    (hright : isRightAlignedType type = true) : type.size = 1 := by
  cases type with
  | address => cases hkept
  | bool => rfl
  | fixedBytes last => cases hright
  | uint width | int width =>
      simp only [requireEndianChange, Bool.or_eq_false_iff, bne_eq_false_iff_eq]
        at hkept
      rw [hkept.2]
      rfl

/-- What stands where the value is copied to. -/
theorem fixedWord_eq (nonFixedArray : Bool) (fill : UInt8)
    (value : Bytes type.size) :
    fixedWord fill type value =
      List.replicate (if isRightAlignedType type then 32 - type.size else 0)
          fill ++ (orderedValue nonFixedArray type value).1 ++
        List.replicate (32 - (if isRightAlignedType type then 32 - type.size
          else 0) - (orderedValue nonFixedArray type value).1.length) fill := by
  have hle := type.size_le
  rw [(orderedValue nonFixedArray type value).2, fixedWord, orderedValue]
  cases hright : isRightAlignedType type with
  | true =>
      have hnone : 32 - (32 - type.size) - type.size = 0 := by omega
      rw [if_pos rfl, if_pos rfl, hnone, List.replicate_zero, List.append_nil]
      cases hchange : requireEndianChange nonFixedArray type with
      | true => rfl
      | false =>
          have hone := size_of_not_requireEndianChange hchange hright
          rw [reverse_of_one (by rw [value.2, hone])]
          rfl
  | false =>
      have hchange : requireEndianChange nonFixedArray type = false := by
        cases type with
        | fixedBytes last => rfl
        | address | bool | uint width | int width => cases hright
      rw [hchange]
      rfl

/-- The fill and `add_FixedSize_String` write one word. -/
theorem addFixedSize_fills (nonFixedArray : Bool) (fill : UInt8)
    (value : Bytes type.size) :
    Fills (do
        writeAt 0 (List.replicate 32 fill)
        addFixedSize nonFixedArray type value)
      (fixedWord fill type value) (orderedValue nonFixedArray type value) := by
  have hle := type.size_le
  have hfits : (if isRightAlignedType type then 32 - type.size else 0) +
      (orderedValue nonFixedArray type value).1.length ≤ 32 := by
    rw [(orderedValue nonFixedArray type value).2]
    split <;> omega
  have hword := @fills_overwrite _ _ 32 fill _ hfits
    (orderedValue nonFixedArray type value)
  rw [← fixedWord_eq] at hword
  unfold addFixedSize
  rw [changeOrder_eq]
  exact hword

theorem fillFixedArray_fills (values : List (Bytes type.size)) :
    Fills (fillFixedArray type values) (values.flatMap (fixedWord 0 type)) () := by
  refine Fills.forM fun value _ => ?_
  have hword := (addFixedSize_fills false 0 value).map fun _ => ()
  rwa [bind_assoc] at hword

/-- The word that a value gets with the byte for its sign. -/
def signedWord (type : FixedSizeType) (value : Bytes type.size) : List UInt8 :=
  fixedWord (signFill type value) type value

theorem length_signedWord (value : Bytes type.size) :
    (signedWord type value).length = 32 :=
  length_fixedWord _ value

theorem fillNonFixedArray_fills (values : List (Bytes type.size)) :
    Fills (fillNonFixedArray type values)
      ((visited values).flatMap (signedWord type)) () := by
  refine Fills.forM fun value _ => ?_
  have hword :=
    (addFixedSize_fills true (signFill type value) value).map fun _ => ()
  rwa [bind_assoc] at hword

end Words

section Contents

variable {n : Nat} {value : List UInt8} {values : List (List UInt8)}

theorem toNat_ofNat_lt (hn : n < 2 ^ 32) : (UInt32.ofNat n).toNat = n := by
  rw [UInt32.toNat_ofNat', Nat.mod_eq_of_lt hn]

/-- Rounding up gives whole words, where these fit. -/
theorem boatRoundup32_eq (hn : paddedLength n < 2 ^ 32) :
    boatRoundup32 (UInt32.ofNat n) = UInt32.ofNat (paddedLength n) := by
  have hle := SolidityAbi.le_paddedLength n
  apply UInt32.toNat_inj.mp
  rw [toNat_ofNat_lt hn, boatRoundup32, UInt32.toNat_mul, UInt32.toNat_add,
    UInt32.toNat_div, UInt32.toNat_sub, toNat_ofNat_lt (by omega)]
  unfold paddedLength at hn ⊢
  change ((2 ^ 32 - 1 + n) % 2 ^ 32 / 32 + 1) % 2 ^ 32 * 32 % 2 ^ 32 = _
  omega

/-- In the width of a `size_t` too. -/
theorem strlenRoundup_eq {text : CString}
    (hn : paddedLength text.bytes.length < 2 ^ 32) :
    (strlenRoundup text).toNat = paddedLength text.bytes.length := by
  have hle := SolidityAbi.le_paddedLength text.bytes.length
  have hlength : (UInt64.ofNat text.bytes.length).toNat =
      text.bytes.length := by
    rw [UInt64.toNat_ofNat', Nat.mod_eq_of_lt (by omega)]
  rw [strlenRoundup, boatRoundup32, UInt64.toNat_mul, UInt64.toNat_add,
    UInt64.toNat_div, UInt64.toNat_sub, hlength]
  unfold paddedLength at hn ⊢
  change ((2 ^ 64 - 1 + text.bytes.length) % 2 ^ 64 / 32 + 1) % 2 ^ 64 * 32 %
    2 ^ 64 = _
  omega

/-- Bytes behind their number. -/
def contentOf (value : List UInt8) : List UInt8 :=
  word value.length ++ padRight value

theorem length_contentOf (value : List UInt8) :
    (contentOf value).length = 32 + paddedLength value.length := by
  rw [contentOf, List.length_append, SolidityAbi.length_word,
    SolidityAbi.length_padRight]

theorem buint32Length_eq {α : Type} {list : List α} :
    buint32Length list = UInt32.ofNat list.length :=
  rfl

theorem visited_eq {α : Type} {list : List α} (hlength : list.length < 2 ^ 32) :
    visited list = list := by
  rw [visited, buint32Length_eq, toNat_ofNat_lt hlength, List.take_length]

theorem fillContent_fills {filled : UInt32}
    (hfilled : filled.toNat = paddedLength value.length) :
    Fills (fillContent value (buint32Length value) filled) (contentOf value)
      () := by
  have hlt := filled.toNat_lt
  have hle := SolidityAbi.le_paddedLength value.length
  have hlength : value.length < 2 ^ 32 := by omega
  have hcontent := @fills_overwrite Unit 0 (paddedLength value.length) 0 value
    (by omega) ()
  rw [List.replicate_zero, List.nil_append, Nat.sub_zero, ← padRight] at hcontent
  have htake : value.take (buint32Length value).toNat = value := by
    rw [buint32Length_eq, toNat_ofNat_lt hlength, List.take_length]
  unfold fillContent
  rw [hfilled, htake]
  exact (fillNumber_fills hlength).bind hcontent

theorem filledLength_eq (hlength : (contentOf value).length < 2 ^ 32) :
    filledLength value = UInt32.ofNat (contentOf value).length := by
  rw [length_contentOf] at hlength ⊢
  rw [filledLength, buint32Length_eq, boatRoundup32_eq (by omega),
    Nat.add_comm, UInt32.ofNat_add]
  rfl

/-- The elements of an array of texts or of bytes. -/
def elements (values : List (List UInt8)) : List SolidityAbi.Part :=
  values.map fun value => .dynamic (contentOf value)

theorem headsLength_elements (values : List (List UInt8)) :
    headsLength (elements values) = values.length * 32 := by
  induction values with
  | nil => rfl
  | cons value values ih =>
      rw [elements, List.map_cons, SolidityAbi.headsLength_cons, ← elements, ih,
        List.length_cons, SolidityAbi.Part.headLength]
      omega

theorem tails_elements (values : List (List UInt8)) :
    tails (elements values) = values.flatMap contentOf := by
  rw [tails, elements, List.flatMap_map]
  rfl

/-- The offsets of the elements, by induction on them. -/
theorem fillOffsets_fills {offset : Nat}
    (hfits : offset + (tails (elements values)).length < 2 ^ 32) :
    Fills (fillOffsets (UInt32.ofNat offset) values)
      (heads offset (elements values)) () := by
  induction values generalizing offset with
  | nil => exact fills_pure ()
  | cons value values ih =>
      rw [elements, List.map_cons, SolidityAbi.tails_cons, ← elements,
        SolidityAbi.Part.tail, List.length_append] at hfits
      have hrest := @ih (offset + (contentOf value).length) (by omega)
      rw [UInt32.ofNat_add, ← filledLength_eq (by omega)] at hrest
      exact (fillNumber_fills (by omega)).bind hrest

theorem length_le_flatMap {α : Type} {a : α} {list : List α}
    {content : α → List UInt8} (ha : a ∈ list) :
    (content a).length ≤ (list.flatMap content).length := by
  rw [List.flatMap]
  exact (List.sublist_flatten_of_mem (List.mem_map_of_mem ha)).length_le

theorem fillElements_fills
    (hfits : (encodeTuple (elements values)).length < 2 ^ 32) :
    Fills (fillElements values) (encodeTuple (elements values)) () := by
  rw [SolidityAbi.length_encodeTuple, headsLength_elements] at hfits
  have hoffsets := @fillOffsets_fills values (values.length * 32) hfits
  rw [UInt32.ofNat_mul, ← buint32Length_eq] at hoffsets
  rw [encodeTuple, headsLength_elements]
  unfold fillElements
  rw [visited_eq (by omega)]
  refine hoffsets.bind ?_
  rw [tails_elements]
  refine Fills.forM fun value hvalue => fillContent_fills ?_
  have hone : (contentOf value).length ≤ (tails (elements values)).length := by
    rw [tails_elements]
    exact length_le_flatMap hvalue
  rw [length_contentOf] at hone
  rw [buint32Length_eq, boatRoundup32_eq (by omega), toNat_ofNat_lt (by omega)]

end Contents

section Inputs

variable {input : SolidityInput} {inputs : List SolidityInput} {offset : Nat}

/-- What an argument brings into the data. -/
def SolidityInput.part : SolidityInput → SolidityAbi.Part
  | .fixedSize type value => .static (signedWord type value)
  | .fixedSizeFixedArray type values =>
      .static (values.flatMap (fixedWord 0 type))
  | .fixedSizeNonFixedArray type values =>
      .dynamic (word values.length ++ values.flatMap (signedWord type))
  | .string text => .dynamic (contentOf text.bytes)
  | .bytes value => .dynamic (contentOf value)
  | .nonFixedSizeFixedArray _ values =>
      .dynamic (encodeTuple (elements values))
  | .nonFixedSizeNonFixedArray _ values =>
      .dynamic (word values.length ++ encodeTuple (elements values))

/-- The argument as the caller has it behind a call. -/
def SolidityInput.held : SolidityInput → SolidityInput
  | .fixedSize type value =>
      .fixedSize type
        (if isValueType type then value else orderedValue false type value)
  | input => input

theorem fillHead_fills (hoffset : offset < 2 ^ 32) (input : SolidityInput) :
    Fills (fillHead (UInt32.ofNat offset) input) (input.part.head offset)
      input.held := by
  have hnumber (input : SolidityInput) :=
    (fillNumber_fills hoffset).map fun _ => input
  cases input with
  | fixedSize type value =>
      have hword :=
        (addFixedSize_fills false (signFill type value) value).map
          fun turned => SolidityInput.fixedSize type
            (if isValueType type then value else turned)
      rwa [bind_assoc] at hword
  | fixedSizeFixedArray type values =>
      exact (fillFixedArray_fills values).map fun _ => _
  | fixedSizeNonFixedArray type values => exact hnumber _
  | string text => exact hnumber _
  | bytes value => exact hnumber _
  | nonFixedSizeFixedArray type values => exact hnumber _
  | nonFixedSizeNonFixedArray type values => exact hnumber _

theorem length_flatMap_word {α : Type} {word : α → List UInt8}
    (hword : ∀ a, (word a).length = 32) (list : List α) :
    (list.flatMap word).length = list.length * 32 := by
  simp [List.length_flatMap, hword]

theorem sum_filledLength {values : List (List UInt8)}
    (hfits : (tails (elements values)).length < 2 ^ 32) :
    (values.map filledLength).sum =
      UInt32.ofNat (tails (elements values)).length := by
  rw [tails_elements] at hfits ⊢
  induction values with
  | nil => rfl
  | cons value values ih =>
      rw [List.flatMap_cons, List.length_append] at hfits ⊢
      rw [List.map_cons, List.sum_cons, filledLength_eq (by omega),
        ih (by omega), UInt32.ofNat_add]

theorem dataLength_elements {values : List (List UInt8)}
    (hfits : (encodeTuple (elements values)).length < 2 ^ 32) :
    ((visited values).map filledLength).sum + buint32Length values * 32 =
      UInt32.ofNat (encodeTuple (elements values)).length := by
  rw [SolidityAbi.length_encodeTuple, headsLength_elements] at hfits ⊢
  rw [visited_eq (by omega), sum_filledLength (by omega), UInt32.ofNat_add,
    UInt32.ofNat_mul, buint32Length_eq, UInt32.add_comm]
  rfl

/-- The length that is computed for an argument is that of its tail. -/
theorem SolidityInput.dataLength_eq
    (hfits : input.part.tail.length < 2 ^ 32) :
    input.dataLength = UInt32.ofNat input.part.tail.length := by
  cases input with
  | fixedSize type value => rfl
  | fixedSizeFixedArray type values => rfl
  | fixedSizeNonFixedArray type values =>
      have hlength : (SolidityInput.fixedSizeNonFixedArray type
          values).part.tail.length = values.length * 32 + 32 := by
        rw [part, SolidityAbi.Part.tail, List.length_append,
          SolidityAbi.length_word, length_flatMap_word length_signedWord,
          Nat.add_comm]
      rw [hlength, UInt32.ofNat_add, UInt32.ofNat_mul]
      rfl
  | string text =>
      rw [part, SolidityAbi.Part.tail, length_contentOf] at hfits ⊢
      have hround := @strlenRoundup_eq text (by omega)
      apply UInt32.toNat_inj.mp
      rw [toNat_ofNat_lt hfits, dataLength, UInt64.toNat_toUInt32,
        UInt64.toNat_add, hround]
      change (paddedLength text.bytes.length + 32) % 2 ^ 64 % 2 ^ 32 = _
      omega
  | bytes value => exact filledLength_eq hfits
  | nonFixedSizeFixedArray type values => exact dataLength_elements hfits
  | nonFixedSizeNonFixedArray type values =>
      rw [part, SolidityAbi.Part.tail, List.length_append,
        SolidityAbi.length_word] at hfits ⊢
      rw [Nat.add_comm, UInt32.ofNat_add, ← dataLength_elements (by omega),
        UInt32.add_assoc]
      rfl

/-- The heads of the arguments, by induction on them: an offset is in front of
the tails that are still to come. -/
theorem fillHeads_fills
    (hfits : offset + (tails (inputs.map SolidityInput.part)).length <
      2 ^ 32) :
    Fills (fillHeads (UInt32.ofNat offset) inputs)
      (heads offset (inputs.map SolidityInput.part))
      (inputs.map SolidityInput.held) := by
  induction inputs generalizing offset with
  | nil => exact fills_pure []
  | cons input inputs ih =>
      rw [List.map_cons, SolidityAbi.tails_cons, List.length_append] at hfits
      have hrest := @ih (offset + input.part.tail.length) (by omega)
      rw [UInt32.ofNat_add, ← SolidityInput.dataLength_eq (by omega)] at hrest
      rw [List.map_cons, List.map_cons, SolidityAbi.heads_cons]
      unfold fillHeads
      exact (fillHead_fills (by omega) input).bind
        (hrest.map fun rest => input.held :: rest)

theorem fillTail_fills (hfits : input.part.tail.length < 2 ^ 32) :
    Fills (fillTail input) input.part.tail () := by
  cases input with
  | fixedSize type value => exact fills_pure ()
  | fixedSizeFixedArray type values => exact fills_pure ()
  | fixedSizeNonFixedArray type values =>
      rw [SolidityInput.part, SolidityAbi.Part.tail, List.length_append,
        SolidityAbi.length_word, length_flatMap_word length_signedWord] at hfits
      have hwords := fillNonFixedArray_fills values
      rw [visited_eq (by omega)] at hwords
      exact (fillNumber_fills (by omega)).bind hwords
  | string text =>
      rw [SolidityInput.part, SolidityAbi.Part.tail, length_contentOf] at hfits
      refine fillContent_fills ?_
      rw [UInt64.toNat_toUInt32, strlenRoundup_eq (by omega)]
      omega
  | bytes value =>
      rw [SolidityInput.part, SolidityAbi.Part.tail, length_contentOf] at hfits
      refine fillContent_fills ?_
      rw [buint32Length_eq, boatRoundup32_eq (by omega),
        toNat_ofNat_lt (by omega)]
  | nonFixedSizeFixedArray type values => exact fillElements_fills hfits
  | nonFixedSizeNonFixedArray type values =>
      rw [SolidityInput.part, SolidityAbi.Part.tail, List.length_append,
        SolidityAbi.length_word] at hfits
      have hcount : values.length * 32 ≤
          (encodeTuple (elements values)).length := by
        rw [SolidityAbi.length_encodeTuple, headsLength_elements]
        exact Nat.le_add_right _ _
      exact (fillNumber_fills (by omega)).bind (fillElements_fills (by omega))

theorem tail_held (input : SolidityInput) :
    input.held.part.tail = input.part.tail := by
  cases input <;> rfl

theorem fillTails_fills
    (hfits : (tails (inputs.map SolidityInput.part)).length < 2 ^ 32) :
    Fills ((inputs.map SolidityInput.held).forM fillTail)
      (tails (inputs.map SolidityInput.part)) () := by
  have htails : tails (inputs.map SolidityInput.part) =
      (inputs.map SolidityInput.held).flatMap fun input => input.part.tail := by
    rw [tails, List.flatMap_map, List.flatMap_map]
    exact List.flatMap_congr fun input _ => (tail_held input).symm
  rw [htails] at hfits ⊢
  refine Fills.forM fun held hheld => fillTail_fills ?_
  have hone := @length_le_flatMap _ held _
    (fun input : SolidityInput => input.part.tail) hheld
  exact Nat.lt_of_le_of_lt hone hfits

theorem headWords_eq (inputs : List SolidityInput) :
    headWords inputs * 32 = headsLength (inputs.map SolidityInput.part) := by
  induction inputs with
  | nil => rfl
  | cons input inputs ih =>
      have hone : input.headWords * 32 = input.part.headLength := by
        cases input with
        | fixedSize type value => exact (length_fixedWord _ value).symm
        | fixedSizeFixedArray type values =>
            exact (length_flatMap_word (fun value => length_fixedWord _ value)
              values).symm
        | _ => rfl
      rw [headWords, List.map_cons, List.sum_cons, ← headWords, Nat.add_mul, ih,
        hone, List.map_cons, SolidityAbi.headsLength_cons]

/-- All statements together write the selector and the tuple. -/
theorem assembleData_fills (selector : Block 32)
    (hfits : (encodeTuple (inputs.map SolidityInput.part)).length < 2 ^ 32) :
    Fills (assembleData selector inputs)
      (selector.bytes.take 4 ++ encodeTuple (inputs.map SolidityInput.part))
      (inputs.map SolidityInput.held) := by
  rw [SolidityAbi.length_encodeTuple] at hfits
  have hlength : (selector.bytes.take 4).length = 4 := by
    rw [List.length_take, selector.length_bytes]
    rfl
  have hselector : Fills (do
      writeAt 0 (selector.bytes.take 4)
      advancePtr 4) (selector.bytes.take 4) () := by
    intro before target behind htarget
    have hcopy := @writeAt_run before [] target [] behind _ 0 rfl htarget.symm
    rw [List.nil_append, List.append_nil, List.nil_append, List.append_nil]
      at hcopy
    rw [Exec.bind_ok hcopy, List.length_append, hlength]
    rfl
  have hheads := @fillHeads_fills inputs (headWords inputs * 32)
    (by rw [headWords_eq]; exact hfits)
  have htails := @fillTails_fills inputs (by omega)
  have hrest := @Fills.bind _ _ _
    (fun held => do
      held.forM fillTail
      pure held) _ _ _ _ hheads
    (htails.map fun _ => inputs.map SolidityInput.held)
  rw [headWords_eq, ← encodeTuple] at hrest
  have hrun := @Fills.bind _ _ _ (fun _ => _) _ _ _ _ hselector hrest
  rw [bind_assoc] at hrun
  unfold assembleData
  rw [headWords_eq]
  exact hrun

end Inputs

end BoatFramework
