/-
The encoder against the encoding it implements.  The size pass computes the
length of the encoding whenever no 32-bit sum wraps, every stream the encoder
returns is the encoding of its object, and below the reserved length it does
return one.
-/
import BoatFramework.Rlp.Object

namespace BoatFramework

open ByteString

mutual

/-- The item an object stands for. -/
def RlpObject.toItem : RlpObject → Rlp.Item
  | .string field => .str field
  | .list descriptors => .list (RlpObject.toItems descriptors)

def RlpObject.toItems : List RlpObject → List Rlp.Item
  | [] => []
  | object :: rest => object.toItem :: RlpObject.toItems rest

end

namespace RlpObject

@[simp] theorem toItem_string (field : List UInt8) :
    (string field).toItem = .str field := by
  simp [toItem]

@[simp] theorem toItem_list (descriptors : List RlpObject) :
    (list descriptors).toItem = .list (toItems descriptors) := by
  simp [toItem]

theorem toItems_eq_map (descriptors : List RlpObject) :
    toItems descriptors = descriptors.map toItem := by
  induction descriptors with
  | nil => simp [toItems]
  | cons object rest ih => simp [toItems, ih]

mutual

theorem toItem_inj (left right : RlpObject)
    (heq : left.toItem = right.toItem) : left = right := by
  match left, right with
  | .string _, .string _ => simpa using heq
  | .string _, .list _ => simp at heq
  | .list _, .string _ => simp at heq
  | .list leftItems, .list rightItems =>
      simp only [toItem_list, Rlp.Item.list.injEq] at heq
      rw [toItems_inj leftItems rightItems heq]

theorem toItems_inj (left right : List RlpObject)
    (heq : toItems left = toItems right) : left = right := by
  match left, right with
  | [], [] => rfl
  | [], _ :: _ => simp [toItems] at heq
  | _ :: _, [] => simp [toItems] at heq
  | leftItem :: leftItems, rightItem :: rightItems =>
      simp only [toItems, List.cons.injEq] at heq
      rw [toItem_inj leftItem rightItem heq.1,
        toItems_inj leftItems rightItems heq.2]

end

/-- The encoding of an object. -/
def encoding (object : RlpObject) : List UInt8 :=
  Rlp.encode object.toItem

/-- The encodings of the members of a list, one after the other. -/
def encodings (descriptors : List RlpObject) : List UInt8 :=
  Rlp.encodeAll (toItems descriptors)

@[simp] theorem encodings_nil : encodings [] = [] := by
  simp [encodings, toItems]

@[simp] theorem encodings_cons (object : RlpObject) (rest : List RlpObject) :
    encodings (object :: rest) = object.encoding ++ encodings rest := by
  simp [encodings, toItems, encoding]

theorem encoding_list (descriptors : List RlpObject) :
    (list descriptors).encoding =
      Rlp.lengthPrefix 0xc0 (encodings descriptors).length ++
        encodings descriptors := by
  simp [encoding, encodings, Rlp.encode_list]

end RlpObject

open RlpObject

theorem rlpIsSingleByte_eq (field : List UInt8) :
    rlpIsSingleByte field = Rlp.isSingle field := by
  match field with
  | [] => rfl
  | [byte] => simp [rlpIsSingleByte, Rlp.isSingle]
  | _ :: _ :: _ => simp [rlpIsSingleByte, Rlp.isSingle]

/-- From 56 on the trimmed length is the minimal spelling. -/
theorem trimmed_length_eq {len : Nat} (hlong : ¬ len ≤ 55)
    (hlen : len < 2 ^ 32) :
    utilityUint32ToBigend len .leftTrim = bigEndian len :=
  utilityUint32ToBigend_of_pos (by omega) hlen

theorem rlpStringStream_eq {field : List UInt8} (hfield : field.length < 2 ^ 32) :
    rlpStringStream field = (string field).encoding := by
  simp only [encoding, toItem_string, Rlp.encode_str, Rlp.encodeString,
    rlpStringStream, rlpIsSingleByte_eq, Rlp.lengthPrefix, rlpPrefixBaseString]
  split
  · rfl
  · split
    · rfl
    · next hlong =>
        rw [trimmed_length_eq hlong hfield, Nat.add_right_comm]

theorem rlpListHead_eq {len : Nat} (hlen : len < 2 ^ 32) :
    rlpListHead len = Rlp.lengthPrefix 0xc0 len := by
  simp only [rlpListHead, Rlp.lengthPrefix, rlpPrefixBaseList]
  split
  · rfl
  · next hlong => rw [trimmed_length_eq hlong hlen, Nat.add_right_comm]

theorem length_rlpStringStream (field : List UInt8) :
    field.length ≤ (rlpStringStream field).length := by
  unfold rlpStringStream
  split
  · exact Nat.le_refl _
  · split
    · simp
    · simp only [List.length_cons, List.length_append]
      omega

/-- The size pass on a string is the 32-bit length of what is written. -/
theorem rlpRecursiveCalcEncodingSize_string (field : List UInt8) :
    (rlpRecursiveCalcEncodingSize (.string field)).1 =
      buint32 (rlpStringStream field).length := by
  rw [rlpRecursiveCalcEncodingSize, rlpStringStream]
  by_cases hsingle : rlpIsSingleByte field
  · have hlen : field.length = 1 := by
      simp only [rlpIsSingleByte, Bool.and_eq_true, beq_iff_eq] at hsingle
      exact hsingle.1
    simp [hsingle, hlen, buint32]
  · by_cases hshort : field.length ≤ 55
    · simp [hsingle, hshort, Nat.add_comm]
    · simp only [hsingle, hshort, Bool.false_eq_true, ↓reduceIte,
        List.length_cons, List.length_append, List.cons_append]
      congr 1
      omega

/-- The size pass on a list, from the sum over its members. -/
theorem rlpRecursiveCalcEncodingSize_list {descriptors : List RlpObject}
    (hsum : rlpSumOfSubFieldLen descriptors 0 ≠ rlpStreamLenUnknown) :
    rlpRecursiveCalcEncodingSize (.list descriptors) =
      (buint32 ((rlpListHead (rlpSumOfSubFieldLen descriptors 0)).length +
          rlpSumOfSubFieldLen descriptors 0),
        (rlpListHead (rlpSumOfSubFieldLen descriptors 0)).length) := by
  rw [rlpRecursiveCalcEncodingSize, rlpListHead]
  by_cases hshort : rlpSumOfSubFieldLen descriptors 0 ≤ 55
  · simp [hsum, hshort]
  · simp [hsum, hshort, Nat.add_comm]

theorem rlpSumOfSubFieldLen_cons {object : RlpObject}
    (hknown : (rlpRecursiveCalcEncodingSize object).1 ≠ rlpStreamLenUnknown)
    (rest : List RlpObject) (sum : Nat) :
    rlpSumOfSubFieldLen (object :: rest) sum =
      rlpSumOfSubFieldLen rest
        (buint32 (sum + (rlpRecursiveCalcEncodingSize object).1)) := by
  simp [rlpSumOfSubFieldLen, hknown]

theorem rlpRecursiveCalcEncodingSize_lt (object : RlpObject) :
    (rlpRecursiveCalcEncodingSize object).1 < 2 ^ 32 := by
  cases object with
  | string field =>
      rw [rlpRecursiveCalcEncodingSize_string]
      exact buint32_lt _
  | list descriptors =>
      by_cases hsum : rlpSumOfSubFieldLen descriptors 0 = rlpStreamLenUnknown
      · simp [rlpRecursiveCalcEncodingSize, hsum, rlpStreamLenUnknown]
      · rw [rlpRecursiveCalcEncodingSize_list hsum]
        exact buint32_lt _

theorem rlpSumOfSubFieldLen_lt (descriptors : List RlpObject) (sum : Nat)
    (hsum : sum < 2 ^ 32) : rlpSumOfSubFieldLen descriptors sum < 2 ^ 32 := by
  induction descriptors generalizing sum with
  | nil => simpa [rlpSumOfSubFieldLen] using hsum
  | cons object rest ih =>
      rw [rlpSumOfSubFieldLen]
      split
      · exact ih _ (buint32_lt _)
      · simp [rlpStreamLenUnknown]

/-- What the list encoder takes for the length of its members is their sum. -/
theorem members_len_eq {head sum : Nat} (hhead : head ≤ 2 ^ 32)
    (hsum : sum < 2 ^ 32) :
    buint32 (buint32 (head + sum) + 2 ^ 32 - head) = sum := by
  unfold buint32
  omega

theorem length_rlpListHead_le (len : Nat) : (rlpListHead len).length ≤ 5 := by
  unfold rlpListHead
  split
  · simp
  · exact Nat.succ_le_succ (length_utilityUintToBigend_le (by omega) len _)

section SizePass

mutual

/-- Below the reserved length the size pass computes the encoded length. -/
theorem rlpRecursiveCalcEncodingSize_eq (object : RlpObject)
    (hsize : object.encoding.length < rlpStreamLenUnknown) :
    (rlpRecursiveCalcEncodingSize object).1 = object.encoding.length := by
  match object with
  | .string field =>
      have hfield := Rlp.length_le_length_encodeString field
      simp only [encoding, toItem_string, Rlp.encode_str, rlpStreamLenUnknown]
        at hsize
      rw [rlpRecursiveCalcEncodingSize_string, rlpStringStream_eq (by omega),
        buint32_of_lt]
      simp only [encoding, toItem_string, Rlp.encode_str]
      omega
  | .list descriptors =>
      rw [encoding_list, List.length_append] at hsize ⊢
      have hmembers := rlpSumOfSubFieldLen_eq descriptors 0 (by omega)
      rw [Nat.zero_add] at hmembers
      unfold rlpStreamLenUnknown at hsize
      rw [rlpRecursiveCalcEncodingSize_list (by
          rw [hmembers, rlpStreamLenUnknown]; omega), hmembers,
        rlpListHead_eq (by omega), buint32_of_lt (by omega)]

theorem rlpSumOfSubFieldLen_eq (descriptors : List RlpObject) (sum : Nat)
    (hsize : sum + (encodings descriptors).length < rlpStreamLenUnknown) :
    rlpSumOfSubFieldLen descriptors sum =
      sum + (encodings descriptors).length := by
  match descriptors with
  | [] => simp [rlpSumOfSubFieldLen]
  | object :: rest =>
      rw [encodings_cons, List.length_append] at hsize ⊢
      have hobject := rlpRecursiveCalcEncodingSize_eq object (by omega)
      have hwrap : buint32 (sum + object.encoding.length) =
          sum + object.encoding.length := by
        unfold rlpStreamLenUnknown at hsize
        exact buint32_of_lt (by omega)
      rw [rlpSumOfSubFieldLen_cons (by omega), hobject, hwrap,
        rlpSumOfSubFieldLen_eq rest _ (by omega)]
      omega

end

end SizePass

section Encode

/-- A block that is granted has the size that was asked for. -/
def Fresh (malloc : Nat → Option (List UInt8)) : Prop :=
  ∀ size block, malloc size = some block → block.length = size

/-- Every request of a 32-bit size is granted. -/
def Grants (malloc : Nat → Option (List UInt8)) : Prop :=
  ∀ size, size < 2 ^ 32 → ∃ block, malloc size = some block

/-- Blocks of zeros of any size. -/
def zeroMalloc (size : Nat) : Option (List UInt8) :=
  some (List.replicate size 0)

theorem zeroMalloc_fresh : Fresh zeroMalloc := by
  rintro size _ ⟨⟩
  exact List.length_replicate

theorem zeroMalloc_grants : Grants zeroMalloc :=
  fun _ _ => ⟨_, rfl⟩

variable {malloc : Nat → Option (List UInt8)}

/-- A string object is written as its encoding, or not at all. -/
theorem rlpEncode_string_ok {field : List UInt8} {parentStorage : Option Nat}
    {stream : List UInt8}
    (hencode : rlpEncode malloc (.string field) parentStorage = .ok stream) :
    stream = rlpStringStream field := by
  simp only [rlpEncode] at hencode
  split at hencode
  · cases hencode
  · split at hencode
    · cases hencode
    · cases parentStorage with
      | none => cases hencode
      | some room =>
          simp only at hencode
          split at hencode
          · cases hencode
          · split at hencode
            · cases hencode
            · exact (Except.ok.inj hencode).symm

/-- The steps of encoding a list that succeeds. -/
theorem rlpEncode_list_ok {descriptors : List RlpObject}
    {parentStorage : Option Nat} {stream : List UInt8}
    (hencode : rlpEncode malloc (.list descriptors) parentStorage = .ok stream) :
    ∃ sum block filled,
      rlpSumOfSubFieldLen descriptors 0 = sum ∧ sum ≠ rlpStreamLenUnknown ∧
      malloc (buint32 ((rlpListHead sum).length + sum)) = some block ∧
      rlpEncodeMembers malloc descriptors block (rlpListHead sum).length
        (buint32 (buint32 ((rlpListHead sum).length + sum) + 2 ^ 32 -
          (rlpListHead sum).length)) = .ok filled ∧
      storeAt filled 0 (rlpListHead
        (buint32 (buint32 ((rlpListHead sum).length + sum) + 2 ^ 32 -
          (rlpListHead sum).length))) = .ok stream := by
  have hsum : rlpSumOfSubFieldLen descriptors 0 ≠ rlpStreamLenUnknown := by
    intro hunknown
    have hcalc : (rlpRecursiveCalcEncodingSize (.list descriptors)).1 =
        rlpStreamLenUnknown := by
      simp [rlpRecursiveCalcEncodingSize, hunknown]
    simp [rlpEncode, hcalc, boatThrow] at hencode
  simp only [rlpEncode, rlpRecursiveCalcEncodingSize_list hsum] at hencode
  split at hencode
  · cases hencode
  · split at hencode
    · cases hencode
    · split at hencode
      · cases hencode
      next block hblock =>
        split at hencode
        · cases hencode
        next filled hfilled =>
          exact ⟨_, block, filled, rfl, hsum, hblock, hfilled, hencode⟩

/-- The steps of writing one member and then the rest. -/
theorem rlpEncodeMembers_cons_ok {object : RlpObject} {rest : List RlpObject}
    {block filled : List UInt8} {offset room : Nat}
    (hencode : rlpEncodeMembers malloc (object :: rest) block offset room =
      .ok filled) :
    ∃ stream stored,
      (rlpRecursiveCalcEncodingSize object).1 ≠ rlpStreamLenUnknown ∧
      rlpEncode malloc object (some room) = .ok stream ∧
      storeAt block offset stream = .ok stored ∧
      rlpEncodeMembers malloc rest stored
        (offset + (rlpRecursiveCalcEncodingSize object).1)
        (room - (rlpRecursiveCalcEncodingSize object).1) = .ok filled := by
  simp only [rlpEncodeMembers] at hencode
  split at hencode
  · cases hencode
  next hknown =>
    split at hencode
    · cases hencode
    · cases hencode
    next stream hstream =>
      split at hencode
      · cases hencode
      next stored hstored =>
        split at hencode
        · cases hencode
        · exact ⟨stream, stored, hknown, hstream, hstored, hencode⟩

/-- Splicing two pieces in one after the other splices in both. -/
theorem splice_append {block first second : List UInt8} {offset : Nat}
    (hfits : offset + first.length ≤ block.length) :
    (block.take offset ++ first ++ block.drop (offset + first.length)).take
        (offset + first.length) ++ second ++
      (block.take offset ++ first ++ block.drop (offset + first.length)).drop
        (offset + first.length + second.length) =
    block.take offset ++ (first ++ second) ++
      block.drop (offset + (first ++ second).length) := by
  have hlen : (block.take offset ++ first).length = offset + first.length := by
    rw [List.length_append, List.length_take]
    omega
  rw [List.take_left' hlen, ← hlen, List.drop_append, List.drop_eq_nil_of_le
    (Nat.le_add_right _ _), Nat.add_sub_cancel_left, List.drop_drop, hlen,
    List.length_append]
  simp [Nat.add_assoc]

theorem length_splice {block bytes : List UInt8} {offset : Nat}
    (hfits : offset + bytes.length ≤ block.length) :
    (block.take offset ++ bytes ++
      block.drop (offset + bytes.length)).length = block.length := by
  simp only [List.length_append, List.length_take, List.length_drop]
  omega

mutual

/-- Every stream the encoder returns is the encoding of its object, and its
length is what the size pass found. -/
theorem rlpEncode_sound
    (hmalloc : Fresh malloc)
    (object : RlpObject) (parentStorage : Option Nat) (stream : List UInt8)
    (hroom : ∀ room, parentStorage = some room → room < 2 ^ 32)
    (hencode : rlpEncode malloc object parentStorage = .ok stream) :
    stream = object.encoding ∧
      (rlpRecursiveCalcEncodingSize object).1 = stream.length := by
  match object with
  | .string field =>
      have hstream := rlpEncode_string_ok hencode
      subst hstream
      have hlt : (rlpStringStream field).length < 2 ^ 32 := by
        simp only [rlpEncode] at hencode
        split at hencode
        · cases hencode
        · split at hencode
          · cases hencode
          · cases parentStorage with
            | none => cases hencode
            | some room =>
                simp only at hencode
                split at hencode
                · cases hencode
                · exact Nat.lt_of_le_of_lt (by omega) (hroom room rfl)
      have hfield := length_rlpStringStream field
      refine ⟨rlpStringStream_eq (by omega), ?_⟩
      rw [rlpRecursiveCalcEncodingSize_string, buint32_of_lt hlt]
  | .list descriptors =>
      obtain ⟨sum, block, filled, hsum, hknown, hblock, hfilled, hstore⟩ :=
        rlpEncode_list_ok hencode
      have hlength := hmalloc _ _ hblock
      have hhead := length_rlpListHead_le sum
      have hsumLt : sum < 2 ^ 32 := by
        rw [← hsum]
        exact rlpSumOfSubFieldLen_lt descriptors 0 (by omega)
      rw [members_len_eq (by omega) hsumLt] at hfilled hstore
      have hblockLt : block.length < 2 ^ 32 := by
        rw [hlength]
        exact buint32_lt _
      obtain ⟨hfilledLength, hwhole⟩ := rlpEncodeMembers_sound hmalloc
        descriptors block _ sum filled hblockLt hsumLt hfilled
      obtain ⟨hheadFits, hstream⟩ := storeAt_eq_ok hstore
      rw [Nat.zero_add, hfilledLength] at hheadFits
      obtain ⟨hfits, hfilledEq, hsumEq⟩ := hwhole hheadFits
      have hmembers : sum = (encodings descriptors).length := by
        rw [← hsum, hsumEq 0 (by omega), Nat.zero_add]
      have hblockEq : block.length =
          (rlpListHead sum).length + (encodings descriptors).length := by
        rw [hmembers] at hlength hfits ⊢
        rw [hlength, buint32_of_lt (by omega)]
      have hcalc : (rlpRecursiveCalcEncodingSize (.list descriptors)).1 =
          block.length := by
        rw [rlpRecursiveCalcEncodingSize_list (hsum ▸ hknown), hsum, hlength]
      have hdrop : filled.drop (rlpListHead sum).length =
          encodings descriptors := by
        rw [hfilledEq, ← hblockEq, List.drop_length, List.append_nil,
          List.drop_left' (by simp [hheadFits])]
      rw [Nat.zero_add, List.take_zero, List.nil_append, hdrop] at hstream
      refine ⟨?_, ?_⟩
      · rw [hstream, encoding_list, rlpListHead_eq hsumLt, hmembers]
      · rw [hcalc, hblockEq, hstream, List.length_append]

theorem rlpEncodeMembers_sound
    (hmalloc : Fresh malloc)
    (descriptors : List RlpObject) (block : List UInt8) (offset room : Nat)
    (filled : List UInt8) (hblock : block.length < 2 ^ 32)
    (hroom : room < 2 ^ 32)
    (hencode : rlpEncodeMembers malloc descriptors block offset room =
      .ok filled) :
    filled.length = block.length ∧ (offset ≤ block.length →
      offset + (encodings descriptors).length ≤ block.length ∧
      filled = block.take offset ++ encodings descriptors ++
        block.drop (offset + (encodings descriptors).length) ∧
      ∀ sum, sum + (encodings descriptors).length < 2 ^ 32 →
        rlpSumOfSubFieldLen descriptors sum =
          sum + (encodings descriptors).length) := by
  match descriptors with
  | [] =>
      obtain rfl : block = filled := by simpa [rlpEncodeMembers] using hencode
      refine ⟨rfl, fun hoffset => ⟨by simpa using hoffset, by simp, ?_⟩⟩
      intro sum _
      simp [rlpSumOfSubFieldLen]
  | object :: rest =>
      obtain ⟨stream, stored, hknown, hstream, hstore, hrest⟩ :=
        rlpEncodeMembers_cons_ok hencode
      obtain ⟨hencoding, hcalc⟩ := rlpEncode_sound hmalloc object (some room)
        stream (by rintro _ ⟨⟩; exact hroom) hstream
      obtain ⟨hfits, hstored⟩ := storeAt_eq_ok hstore
      have hstoredLength : stored.length = block.length := by
        rw [hstored, length_splice hfits]
      rw [hcalc] at hrest
      obtain ⟨hfilledLength, hwhole⟩ := rlpEncodeMembers_sound hmalloc rest
        stored _ _ filled (by omega) (by omega) hrest
      obtain ⟨hrestFits, hfilled, hsum⟩ := hwhole (by omega)
      rw [hstoredLength] at hfilledLength hrestFits
      rw [encodings_cons, ← hencoding]
      refine ⟨hfilledLength, fun _ => ⟨?_, ?_, ?_⟩⟩
      · rw [List.length_append]
        omega
      · rw [hfilled, hstored, splice_append hfits]
      · intro sum hlt
        rw [List.length_append] at hlt ⊢
        rw [rlpSumOfSubFieldLen_cons hknown, hcalc, buint32_of_lt (by omega),
          hsum _ (by omega)]
        omega

end

mutual

/-- Below the reserved length, and with memory granted, the encoder succeeds on
a list without parent and on any object with room in its parent. -/
theorem rlpEncode_complete
    (hmalloc : Fresh malloc) (hgrants : Grants malloc)
    (object : RlpObject) (parentStorage : Option Nat)
    (hparent : (∃ room, parentStorage = some room ∧
        object.encoding.length ≤ room) ∨
      (parentStorage = none ∧ ∃ descriptors, object = .list descriptors))
    (hsize : object.encoding.length < rlpStreamLenUnknown) :
    rlpEncode malloc object parentStorage = .ok object.encoding := by
  have hcalc := rlpRecursiveCalcEncodingSize_eq object hsize
  have hroom : parentStorage.any (· < object.encoding.length) = false := by
    rcases hparent with ⟨room, rfl, hle⟩ | ⟨rfl, _⟩
    · simpa using hle
    · rfl
  match object with
  | .string field =>
      rcases hparent with ⟨room, rfl, hle⟩ | ⟨_, descriptors, hlist⟩
      · have hfield := Rlp.length_le_length_encodeString field
        have hlt : field.length < 2 ^ 32 := by
          simp only [encoding, toItem_string, Rlp.encode_str,
            rlpStreamLenUnknown] at hsize
          omega
        have hwrap : buint32 (string field).encoding.length =
            (string field).encoding.length := by
          unfold rlpStreamLenUnknown at hsize
          exact buint32_of_lt (by omega)
        simp only [rlpEncode, hcalc, Nat.ne_of_lt hsize, ↓reduceIte, hroom,
          Bool.false_eq_true, rlpStringStream_eq hlt, Nat.not_lt.mpr hle, hwrap,
          ne_eq, not_true_eq_false, and_false]
      · cases hlist
  | .list descriptors =>
      have hlength : (list descriptors).encoding.length =
          (Rlp.lengthPrefix 0xc0 (encodings descriptors).length).length +
            (encodings descriptors).length := by
        rw [encoding_list, List.length_append]
      unfold rlpStreamLenUnknown at hsize
      have hsum := rlpSumOfSubFieldLen_eq descriptors 0
        (by unfold rlpStreamLenUnknown; omega)
      rw [Nat.zero_add] at hsum
      have hhead : (rlpRecursiveCalcEncodingSize (.list descriptors)).2 =
          (Rlp.lengthPrefix 0xc0 (encodings descriptors).length).length := by
        rw [rlpRecursiveCalcEncodingSize_list
          (by rw [hsum, rlpStreamLenUnknown]; omega), hsum,
          rlpListHead_eq (by omega)]
      obtain ⟨block, hblock⟩ := hgrants
        (list descriptors).encoding.length (by omega)
      have hblockLength := hmalloc _ _ hblock
      have hmembersLen : buint32 ((list descriptors).encoding.length + 2 ^ 32 -
          (Rlp.lengthPrefix 0xc0 (encodings descriptors).length).length) =
          (encodings descriptors).length := by
        rw [hlength]
        unfold buint32
        omega
      have hmembers := rlpEncodeMembers_complete hmalloc hgrants descriptors block
        (Rlp.lengthPrefix 0xc0 (encodings descriptors).length).length
        (encodings descriptors).length (by omega) (Nat.le_refl _)
        (by unfold rlpStreamLenUnknown; omega)
      have hne : (list descriptors).encoding.length ≠ rlpStreamLenUnknown := by
        unfold rlpStreamLenUnknown
        omega
      simp only [rlpEncode, hcalc, hne, ↓reduceIte, hroom, Bool.false_eq_true,
        hblock, hhead, hmembersLen, hmembers]
      rw [rlpListHead_eq (by omega), storeAt_of_le (by
        rw [length_splice (by omega)]; omega), ← hlength, ← hblockLength]
      simp [encoding_list, hblockLength]

theorem rlpEncodeMembers_complete
    (hmalloc : Fresh malloc) (hgrants : Grants malloc)
    (descriptors : List RlpObject) (block : List UInt8) (offset room : Nat)
    (hfits : offset + (encodings descriptors).length ≤ block.length)
    (hroom : (encodings descriptors).length ≤ room)
    (hsize : (encodings descriptors).length < rlpStreamLenUnknown) :
    rlpEncodeMembers malloc descriptors block offset room =
      .ok (block.take offset ++ encodings descriptors ++
        block.drop (offset + (encodings descriptors).length)) := by
  match descriptors with
  | [] => simp [rlpEncodeMembers]
  | object :: rest =>
      rw [encodings_cons, List.length_append] at hfits hroom hsize
      have hcalc := rlpRecursiveCalcEncodingSize_eq object (by omega)
      have hobject := rlpEncode_complete hmalloc hgrants object (some room)
        (.inl ⟨room, rfl, by omega⟩) (by omega)
      have hne : object.encoding.length ≠ rlpStreamLenUnknown := by omega
      have hlt : ¬ room < object.encoding.length := by omega
      have hobjectFits : offset + object.encoding.length ≤ block.length := by
        omega
      simp only [rlpEncodeMembers, hcalc, hne, ↓reduceIte, hobject,
        storeAt_of_le hobjectFits, hlt]
      rw [rlpEncodeMembers_complete hmalloc hgrants rest _ _ _
        (by rw [length_splice hobjectFits]; omega) (by omega) (by omega),
        splice_append hobjectFits, encodings_cons]

end

/-- The encoder gives two different objects two different streams. -/
theorem rlpEncode_injective (hmalloc : Fresh malloc) {left right : RlpObject}
    {leftParent rightParent : Option Nat} {stream : List UInt8}
    (hleftRoom : ∀ room, leftParent = some room → room < 2 ^ 32)
    (hrightRoom : ∀ room, rightParent = some room → room < 2 ^ 32)
    (hleft : rlpEncode malloc left leftParent = .ok stream)
    (hright : rlpEncode malloc right rightParent = .ok stream) :
    left = right := by
  obtain ⟨hleftStream, hleftLength⟩ :=
    rlpEncode_sound hmalloc left leftParent stream hleftRoom hleft
  obtain ⟨hrightStream, _⟩ :=
    rlpEncode_sound hmalloc right rightParent stream hrightRoom hright
  have hlength : stream.length < 256 ^ 8 := by
    have hcalc := rlpRecursiveCalcEncodingSize_lt left
    omega
  refine toItem_inj left right (Rlp.encode_injective _ _ ?_ ?_ ?_)
  · rwa [hleftStream] at hlength
  · rwa [hrightStream] at hlength
  · exact hleftStream.symm.trans hrightStream

/-- The encoder on a whole tree: a list that fits below the reserved length is
encoded as its encoding, so is any object with storage of its parent, and no
two trees share a stream. -/
theorem rlpEncode_correct (hmalloc : Fresh malloc) (hgrants : Grants malloc) :
    (∀ descriptors, (list descriptors).encoding.length < 2 ^ 32 - 1 →
      rlpEncode malloc (.list descriptors) none =
        .ok (list descriptors).encoding) ∧
    (∀ object room, object.encoding.length < 2 ^ 32 - 1 →
      object.encoding.length ≤ room →
      rlpEncode malloc object (some room) = .ok object.encoding) ∧
    (∀ left right leftStream rightStream,
      rlpEncode malloc left none = .ok leftStream →
      rlpEncode malloc right none = .ok rightStream →
      left ≠ right → leftStream ≠ rightStream) ∧
    (∀ left right : RlpObject, left.encoding.length < 2 ^ 32 - 1 →
      right.encoding.length < 2 ^ 32 - 1 → left ≠ right →
      left.encoding ≠ right.encoding) := by
  refine ⟨fun descriptors hsize => ?_, fun object room hsize hroom => ?_,
    fun left right leftStream rightStream hleft hright hne heq => ?_,
    fun left right hleft hright hne heq => ?_⟩
  · exact rlpEncode_complete hmalloc hgrants _ none
      (.inr ⟨rfl, descriptors, rfl⟩) hsize
  · exact rlpEncode_complete hmalloc hgrants object (some room)
      (.inl ⟨room, rfl, hroom⟩) hsize
  · subst heq
    exact hne (rlpEncode_injective hmalloc (by simp) (by simp) hleft hright)
  · exact hne (toItem_inj left right (Rlp.encode_injective _ _
      (by change left.encoding.length < _; omega)
      (by change right.encoding.length < _; omega) heq))

end Encode

theorem rlpEncode_correct_cat :
    rlpEncode zeroMalloc (.list [.string [0x63, 0x61, 0x74], .list []]) none =
      .ok [0xc5, 0x83, 0x63, 0x61, 0x74, 0xc0] :=
  (rlpEncode_correct zeroMalloc_fresh zeroMalloc_grants).1
    [.string [0x63, 0x61, 0x74], .list []] (by decide)

/-- A list of one string of `2 ^ 32 - 11` bytes is below `2 ^ 32` bytes, but its
length is the one the size pass reserves for "unknown". -/
theorem rlpEncode_reserved {field : List UInt8}
    (hfield : field.length = 2 ^ 32 - 11)
    (malloc : Nat → Option (List UInt8)) :
    (list [.string field]).encoding.length < 2 ^ 32 ∧
      rlpEncode malloc (.list [.string field]) none =
        .error (.code boatErrorRlpEncoderFail) := by
  have hsingle : Rlp.isSingle field = false := by
    rw [Bool.eq_false_iff]
    intro htrue
    obtain ⟨byte, rfl, _⟩ := (Rlp.isSingle_iff _).mp htrue
    simp at hfield
  have hstring : (Rlp.lengthPrefix 0x80 (2 ^ 32 - 11)).length = 5 := by decide
  have hlist : (Rlp.lengthPrefix 0xc0 (2 ^ 32 - 6)).length = 5 := by decide
  have hmembers : (encodings [.string field]).length = 2 ^ 32 - 6 := by
    rw [encodings_cons, encodings_nil, List.append_nil, encoding,
      toItem_string, Rlp.encode_str, Rlp.length_encodeString, hsingle, hfield,
      hstring]
    rfl
  have hsum := rlpSumOfSubFieldLen_eq [.string field] 0
    (by rw [hmembers, rlpStreamLenUnknown]; omega)
  rw [hmembers, Nat.zero_add] at hsum
  constructor
  · rw [encoding_list, List.length_append, hmembers, hlist]
    omega
  · have hcalc : (rlpRecursiveCalcEncodingSize (.list [.string field])).1 =
        rlpStreamLenUnknown := by
      rw [rlpRecursiveCalcEncodingSize_list
        (by rw [hsum, rlpStreamLenUnknown]; omega), hsum,
        rlpListHead_eq (by omega), hlist]
      rfl
    rw [rlpEncode, hcalc]
    rfl

theorem rlpEncode_reserved_zeros :
    (list [.string (List.replicate (2 ^ 32 - 11) 0)]).encoding.length <
        2 ^ 32 ∧
      rlpEncode zeroMalloc (.list [.string (List.replicate (2 ^ 32 - 11) 0)])
        none = .error (.code boatErrorRlpEncoderFail) :=
  rlpEncode_reserved List.length_replicate zeroMalloc

end BoatFramework
