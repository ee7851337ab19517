/-
The size pass against the encoder: the same lengths at every level of a tree,
members that tile the payload of their list, and checks of the encoder that no
tree reaches.
-/
import BoatFramework.Rlp.Encoder

namespace BoatFramework

open RlpObject

/-- How an encoding fails, a size mismatch told apart. -/
inductive RlpFault where
  | failure (failure : Failure)
  | sizeMismatch

mutual

/-- `rlpEncode` with its two size checks told apart from the other errors. -/
def rlpEncodeChecked (malloc : Nat → Option (List UInt8)) :
    RlpObject → Option Nat → Except RlpFault (List UInt8)
  | object, parentStorage =>
      let streamLen := (rlpRecursiveCalcEncodingSize object).1
      let headSize := (rlpRecursiveCalcEncodingSize object).2
      if streamLen = rlpStreamLenUnknown then
        .error (.failure (.code boatErrorRlpEncoderFail))
      else if parentStorage.any (· < streamLen) then
        .error (.failure (.code boatErrorCommonInvalidArgument))
      else
        match object with
        | .string field =>
            match parentStorage with
            | none => .error (.failure (.code boatErrorCommonInvalidArgument))
            | some room =>
                if room < (rlpStringStream field).length then
                  .error (.failure .undefined)
                else if field.length > 55 ∧
                    buint32 (rlpStringStream field).length ≠ streamLen then
                  .error .sizeMismatch
                else .ok (rlpStringStream field)
        | .list descriptors =>
            match malloc streamLen with
            | none => .error (.failure (.code boatErrorCommonOutOfMemory))
            | some block =>
                match rlpEncodeMembersChecked malloc descriptors block headSize
                    (buint32 (streamLen + 2 ^ 32 - headSize)) with
                | .error fault => .error fault
                | .ok filled =>
                    (storeAt filled 0 (rlpListHead
                      (buint32 (streamLen + 2 ^ 32 - headSize)))).mapError
                        .failure

def rlpEncodeMembersChecked (malloc : Nat → Option (List UInt8)) :
    List RlpObject → List UInt8 → Nat → Nat → Except RlpFault (List UInt8)
  | [], block, _, _ => .ok block
  | object :: rest, block, offset, room =>
      let subStreamLen := (rlpRecursiveCalcEncodingSize object).1
      if subStreamLen = rlpStreamLenUnknown then
        .error (.failure (.code boatErrorRlpEncoderFail))
      else
        match rlpEncodeChecked malloc object (some room) with
        | .error .sizeMismatch => .error .sizeMismatch
        | .error (.failure .undefined) => .error (.failure .undefined)
        | .error (.failure (.code _)) =>
            .error (.failure (.code boatErrorRlpEncoderFail))
        | .ok stream =>
            match storeAt block offset stream with
            | .error failure => .error (.failure failure)
            | .ok stored =>
                if room < subStreamLen then .error .sizeMismatch
                else
                  rlpEncodeMembersChecked malloc rest stored
                    (offset + subStreamLen) (room - subStreamLen)

end

/-- An object of a tree, at any level. -/
inductive RlpObject.Within (node : RlpObject) : RlpObject → Prop where
  | self : Within node node
  | member {object : RlpObject} {descriptors : List RlpObject}
      (hmem : object ∈ descriptors) (hwithin : Within node object) :
      Within node (.list descriptors)

/-- The head is as long as it was counted, and behind it stands the field, or
one stream for each member, each as long as it was counted. -/
def PartsAgree (malloc : Nat → Option (List UInt8)) (stream : List UInt8) :
    RlpObject → Prop
  | .string field =>
      stream.drop (rlpRecursiveCalcEncodingSize (.string field)).2 = field
  | .list descriptors =>
      let headSize := (rlpRecursiveCalcEncodingSize (.list descriptors)).2
      stream.take headSize = rlpListHead (stream.length - headSize) ∧
        (rlpListHead (stream.length - headSize)).length = headSize ∧
        ∃ slices, stream.drop headSize = slices.flatten ∧
          List.Forall₂ (fun member slice =>
            slice.length = (rlpRecursiveCalcEncodingSize member).1 ∧
              ∀ room, slice.length ≤ room →
                rlpEncode malloc member (some room) = .ok slice)
            descriptors slices

/-- An object is written in as many bytes as were counted. -/
def WrittenAsCounted (malloc : Nat → Option (List UInt8)) (object : RlpObject)
    (parentStorage : Option Nat) : Prop :=
  ∃ stream, rlpEncode malloc object parentStorage = .ok stream ∧
    stream.length = (rlpRecursiveCalcEncodingSize object).1 ∧
    PartsAgree malloc stream object

/-- The size pass and the encoder agree about an object wherever it is written:
into a parent with the room that was counted, and a list without a parent. -/
def SizesAgree (object : RlpObject) : Prop :=
  ∀ malloc, Fresh malloc → Grants malloc →
    (∀ room, (rlpRecursiveCalcEncodingSize object).1 ≤ room → room < 2 ^ 32 →
      WrittenAsCounted malloc object (some room)) ∧
    ∀ descriptors, object = .list descriptors →
      WrittenAsCounted malloc object none

variable {malloc : Nat → Option (List UInt8)}

/-- An object is written into its parent only where the counted room is. -/
theorem room_of_rlpEncode_ok {object : RlpObject} {room : Nat}
    {stream : List UInt8}
    (hencode : rlpEncode malloc object (some room) = .ok stream) :
    (rlpRecursiveCalcEncodingSize object).1 ≤ room := by
  by_contra hshort
  have hany : (some room).any
      (· < (rlpRecursiveCalcEncodingSize object).1) = true := by
    simpa using Nat.not_le.mp hshort
  unfold rlpEncode at hencode
  simp only [hany, ↓reduceIte] at hencode
  split at hencode
  · cases hencode
  · cases hencode

mutual

/-- No tree reaches a size check of the encoder. -/
theorem rlpEncodeChecked_eq (object : RlpObject) (parentStorage : Option Nat) :
    rlpEncodeChecked malloc object parentStorage =
      (rlpEncode malloc object parentStorage).mapError .failure := by
  unfold rlpEncodeChecked rlpEncode
  match object with
  | .string field =>
      have hcounted : ¬(field.length > 55 ∧
          buint32 (rlpStringStream field).length ≠
            (rlpRecursiveCalcEncodingSize (.string field)).1) := by
        rw [rlpRecursiveCalcEncodingSize_string]
        exact fun hmismatch => hmismatch.2 rfl
      simp only [if_neg hcounted]
      split
      · rfl
      · split
        · rfl
        · cases parentStorage with
          | none => rfl
          | some room =>
              simp only
              split
              · rfl
              · rfl
  | .list descriptors =>
      simp only [rlpEncodeMembersChecked_eq descriptors]
      split
      · rfl
      · split
        · rfl
        · cases malloc (rlpRecursiveCalcEncodingSize (.list descriptors)).1 with
          | none => rfl
          | some block =>
              simp only
              cases rlpEncodeMembers malloc descriptors block
                (rlpRecursiveCalcEncodingSize (.list descriptors)).2 _ with
              | error failure => rfl
              | ok filled => rfl

theorem rlpEncodeMembersChecked_eq (descriptors : List RlpObject)
    (block : List UInt8) (offset room : Nat) :
    rlpEncodeMembersChecked malloc descriptors block offset room =
      (rlpEncodeMembers malloc descriptors block offset room).mapError
        .failure := by
  match descriptors with
  | [] => simp [rlpEncodeMembersChecked, rlpEncodeMembers, Except.mapError]
  | object :: rest =>
      unfold rlpEncodeMembersChecked rlpEncodeMembers
      simp only [rlpEncodeChecked_eq object]
      split
      · rfl
      · cases hencode : rlpEncode malloc object (some room) with
        | error failure => cases failure <;> rfl
        | ok stream =>
            have hroom := room_of_rlpEncode_ok hencode
            simp only [Except.mapError]
            cases storeAt block offset stream with
            | error failure => rfl
            | ok stored =>
                simp only [if_neg (Nat.not_lt.mpr hroom)]
                exact rlpEncodeMembersChecked_eq rest stored _ _

end

theorem length_le_encodings {member : RlpObject} {descriptors : List RlpObject}
    (hmem : member ∈ descriptors) :
    member.encoding.length ≤ (encodings descriptors).length := by
  induction descriptors with
  | nil => cases hmem
  | cons head tail ih =>
      rw [encodings_cons, List.length_append]
      rcases List.mem_cons.mp hmem with rfl | htail
      · exact Nat.le_add_right _ _
      · exact Nat.le_trans (ih htail) (Nat.le_add_left _ _)

/-- What stands in a tree is not longer than the tree. -/
theorem RlpObject.Within.length_le {node object : RlpObject}
    (hwithin : node.Within object) :
    node.encoding.length ≤ object.encoding.length := by
  induction hwithin with
  | self => exact Nat.le_refl _
  | member hmem _ ih =>
      have hmember := length_le_encodings hmem
      rw [encoding_list, List.length_append]
      omega

theorem encodings_eq_flatten (descriptors : List RlpObject) :
    encodings descriptors = (descriptors.map encoding).flatten := by
  induction descriptors with
  | nil => exact encodings_nil
  | cons head tail ih =>
      rw [encodings_cons, ih, List.map_cons, List.flatten_cons]

/-- Behind the counted head of a string stands its field. -/
theorem rlpStringStream_drop (field : List UInt8) :
    (rlpStringStream field).drop
      (rlpRecursiveCalcEncodingSize (.string field)).2 = field := by
  rw [rlpRecursiveCalcEncodingSize, rlpStringStream]
  by_cases hsingle : rlpIsSingleByte field
  · simp [hsingle]
  · by_cases hshort : field.length ≤ 55
    · simp [hsingle, hshort]
    · simp only [hsingle, hshort, Bool.false_eq_true, ↓reduceIte,
        List.cons_append]
      rw [Nat.add_comm, List.drop_succ_cons, List.drop_left]

/-- The parts of an object below the reserved length. -/
theorem partsAgree_encoding (hmalloc : Fresh malloc) (hgrants : Grants malloc)
    (object : RlpObject)
    (hsize : object.encoding.length < rlpStreamLenUnknown) :
    PartsAgree malloc object.encoding object := by
  cases object with
  | string field =>
      have hfield := Rlp.length_le_length_encodeString field
      have hlength : field.length < 2 ^ 32 := by
        simp only [encoding, toItem_string, Rlp.encode_str,
          rlpStreamLenUnknown] at hsize
        omega
      change List.drop _ _ = field
      rw [← rlpStringStream_eq hlength, rlpStringStream_drop]
  | list descriptors =>
      have hlist := congrArg List.length (encoding_list descriptors)
      rw [List.length_append] at hlist
      have hsum := rlpSumOfSubFieldLen_eq descriptors 0 (by omega)
      rw [Nat.zero_add] at hsum
      have hlt : (encodings descriptors).length < 2 ^ 32 := by
        unfold rlpStreamLenUnknown at hsize
        omega
      have hhead : (rlpRecursiveCalcEncodingSize (.list descriptors)).2 =
          (Rlp.lengthPrefix 0xc0 (encodings descriptors).length).length := by
        rw [rlpRecursiveCalcEncodingSize_list (by omega), hsum,
          rlpListHead_eq hlt]
      have hpayload : (list descriptors).encoding.length -
          (Rlp.lengthPrefix 0xc0 (encodings descriptors).length).length =
            (encodings descriptors).length := by
        omega
      unfold PartsAgree
      simp only [hhead, hpayload, rlpListHead_eq hlt]
      refine ⟨?_, trivial, descriptors.map encoding, ?_, ?_⟩
      · rw [encoding_list, List.take_left]
      · rw [encoding_list, List.drop_left, encodings_eq_flatten]
      · rw [List.forall₂_map_right_iff, List.forall₂_same]
        intro member hmem
        have hmember := length_le_encodings hmem
        have hbelow : member.encoding.length < rlpStreamLenUnknown := by omega
        refine ⟨(rlpRecursiveCalcEncodingSize_eq member hbelow).symm, ?_⟩
        intro room hroom
        exact rlpEncode_complete hmalloc hgrants member (some room)
          (.inl ⟨room, rfl, hroom⟩) hbelow

/-- The sizes of an object agree below the reserved length, and only there. -/
theorem sizesAgree_iff (object : RlpObject) :
    SizesAgree object ↔ object.encoding.length < rlpStreamLenUnknown := by
  constructor
  · intro hagree
    have hwritten : ∃ parentStorage stream,
        (∀ room, parentStorage = some room → room < 2 ^ 32) ∧
          rlpEncode zeroMalloc object parentStorage = .ok stream := by
      obtain ⟨hparent, halone⟩ :=
        hagree zeroMalloc zeroMalloc_fresh zeroMalloc_grants
      obtain ⟨stream, hstream, _⟩ := hparent (2 ^ 32 - 1)
        (Nat.le_sub_one_of_lt (rlpRecursiveCalcEncodingSize_lt object))
        (by decide)
      refine ⟨some (2 ^ 32 - 1), stream, ?_, hstream⟩
      rintro room ⟨⟩
      decide
    obtain ⟨parentStorage, stream, hroom, hencode⟩ := hwritten
    obtain ⟨hstream, hlength⟩ := rlpEncode_sound zeroMalloc_fresh object
      parentStorage stream hroom hencode
    have hlt := rlpRecursiveCalcEncodingSize_lt object
    have hknown : (rlpRecursiveCalcEncodingSize object).1 ≠
        rlpStreamLenUnknown := by
      intro hunknown
      unfold rlpEncode at hencode
      simp only [hunknown, ↓reduceIte] at hencode
      cases hencode
    rw [← hstream]
    unfold rlpStreamLenUnknown at hknown ⊢
    omega
  · intro hsize malloc hmalloc hgrants
    have hcalc := rlpRecursiveCalcEncodingSize_eq object hsize
    have hparts := partsAgree_encoding hmalloc hgrants object hsize
    constructor
    · intro room hroom _
      rw [hcalc] at hroom
      exact ⟨_, rlpEncode_complete hmalloc hgrants object (some room)
        (.inl ⟨room, rfl, hroom⟩) hsize, hcalc.symm, hparts⟩
    · rintro descriptors rfl
      exact ⟨_, rlpEncode_complete hmalloc hgrants _ none
        (.inr ⟨rfl, descriptors, rfl⟩) hsize, hcalc.symm, hparts⟩

/-- No tree reaches a size check of the encoder, and the two passes agree at
every level of a tree below the reserved length, and only of such a tree. -/
theorem rlpEncode_sizesAgree_iff (object : RlpObject) :
    (∀ malloc parentStorage,
      rlpEncodeChecked malloc object parentStorage =
        (rlpEncode malloc object parentStorage).mapError .failure) ∧
    ((∀ node, RlpObject.Within node object → SizesAgree node) ↔
      object.encoding.length < 2 ^ 32 - 1) := by
  refine ⟨fun malloc => rlpEncodeChecked_eq object, ?_⟩
  constructor
  · intro hagree
    exact (sizesAgree_iff object).mp (hagree object .self)
  · intro hsize node hwithin
    exact (sizesAgree_iff node).mpr
      (Nat.lt_of_le_of_lt hwithin.length_le hsize)

/-- The length of a string of `2 ^ 32 - 5` bytes with its head is counted as
zero, and its list gets a block of one byte. -/
theorem rlpEncode_overlong {field : List UInt8}
    (hfield : field.length = 2 ^ 32 - 5) :
    (rlpRecursiveCalcEncodingSize (.list [.string field])).1 = 1 ∧
      rlpEncode zeroMalloc (.list [.string field]) none =
        .error .undefined := by
  have hsingle : rlpIsSingleByte field = false := by
    rw [Bool.eq_false_iff]
    intro hone
    simp only [rlpIsSingleByte, Bool.and_eq_true, beq_iff_eq] at hone
    omega
  have htrimmed : (utilityUint32ToBigend (2 ^ 32 - 5) .leftTrim).length = 4 := by
    decide
  have hcalc : rlpRecursiveCalcEncodingSize (.string field) = (0, 5) := by
    rw [rlpRecursiveCalcEncodingSize]
    simp only [hsingle, hfield, htrimmed]
    rfl
  have hlist : rlpRecursiveCalcEncodingSize (.list [.string field]) =
      (1, 1) := by
    rw [rlpRecursiveCalcEncodingSize]
    simp only [rlpSumOfSubFieldLen, hcalc]
    rfl
  have hlong := length_rlpStringStream field
  have hmember : rlpEncode zeroMalloc (.string field) (some 0) =
      .error .undefined := by
    unfold rlpEncode
    simp only [hcalc]
    rw [if_neg (by decide), if_neg (by decide), if_pos (by omega)]
  refine ⟨by rw [hlist], ?_⟩
  unfold rlpEncode
  simp only [hlist]
  rw [if_neg (by decide), if_neg (by decide)]
  change (match rlpEncodeMembers zeroMalloc [.string field] _ _ 0 with
    | .error failure => Except.error failure
    | .ok filled => _) = _
  unfold rlpEncodeMembers
  simp only [hcalc, hmember]
  rfl

theorem not_rlpEncode_sizesAgree :
    ¬∀ object : RlpObject, ∀ node, RlpObject.Within node object →
      SizesAgree node := by
  intro hagree
  have hlist := hagree (.list [.string (List.replicate (2 ^ 32 - 5) 0)]) _ .self
  obtain ⟨stream, hstream, _⟩ :=
    (hlist zeroMalloc zeroMalloc_fresh zeroMalloc_grants).2 _ rfl
  rw [(rlpEncode_overlong List.length_replicate).2] at hstream
  cases hstream

end BoatFramework
