/-
List objects with the streams that are kept in them.  An encoded list keeps its
stream until it is freed; what an encoding writes depends on the members alone,
whatever streams earlier encodings and edits have left.
-/
import BoatFramework.Rlp.Encoder

namespace BoatFramework

/-- An RLP object as it lies in memory: a list object has the stream of its
last encoding, if it was not freed. -/
inductive RlpNode where
  | string (field : List UInt8)
  | list (descriptors : List RlpNode) (stream : Option (List UInt8))

mutual

/-- The object without its streams. -/
def RlpNode.erase : RlpNode → RlpObject
  | .string field => .string field
  | .list descriptors _ => .list (RlpNode.eraseAll descriptors)

def RlpNode.eraseAll : List RlpNode → List RlpObject
  | [] => []
  | node :: rest => node.erase :: RlpNode.eraseAll rest

end

def rlpGetEncodedStream : RlpNode → Option (List UInt8)
  | .string _ => none
  | .list _ stream => stream

/-- Append an object; a null object is `none`. -/
def RlpNode.appendObjectToList (toListObject : RlpNode)
    (fromObject : Option RlpNode) : RlpNode × Outcome Nat :=
  match toListObject, fromObject with
  | .list descriptors stream, some object =>
      if descriptors.length < maxRlpListDescNum then
        (.list (descriptors ++ [object]) stream, .ok descriptors.length)
      else (toListObject, boatThrow boatErrorRlpEncoderFail)
  | _, _ => (toListObject, boatThrow boatErrorCommonInvalidArgument)

def RlpNode.replaceObjectInList (toListObject : RlpNode) (replaceIndex : Int)
    (fromObject : Option RlpNode) : RlpNode × Outcome Nat :=
  if replaceIndex < 0 then
    (toListObject, boatThrow boatErrorCommonInvalidArgument)
  else
    match toListObject, fromObject with
    | .list descriptors stream, some object =>
        if replaceIndex.toNat < descriptors.length then
          (.list (descriptors.set replaceIndex.toNat object) stream,
            .ok replaceIndex.toNat)
        else (toListObject, boatThrow boatErrorRlpEncoderFail)
    | _, _ => (toListObject, boatThrow boatErrorCommonInvalidArgument)

mutual

def rlpRecursiveDeleteEncodedStream : RlpNode → RlpNode
  | .string field => .string field
  | .list descriptors _ => .list (rlpDeleteEncodedStreams descriptors) none

def rlpDeleteEncodedStreams : List RlpNode → List RlpNode
  | [] => []
  | node :: rest =>
      rlpRecursiveDeleteEncodedStream node :: rlpDeleteEncodedStreams rest

end

/-- A list object that has a parent loses its stream at the end of a call. -/
def releasedStream (parentStorage : Option Nat)
    (stream : Option (List UInt8)) : Option (List UInt8) :=
  if parentStorage.isSome then none else stream

/-- The end of the encoding of a list: its head is written where the members
were, and a list that has a parent is copied there and loses its stream. -/
def finishList (parentStorage : Option Nat) (membersLen : Nat) :
    List RlpNode × List UInt8 × Option Failure → RlpNode × Outcome (List UInt8)
  | (encoded, filled, some failure) =>
      (.list encoded (releasedStream parentStorage (some filled)),
        .error failure)
  | (encoded, filled, none) =>
      match storeAt filled 0 (rlpListHead membersLen) with
      | .error failure =>
          (.list encoded (releasedStream parentStorage (some filled)),
            .error failure)
      | .ok whole =>
          (.list encoded (releasedStream parentStorage (some whole)),
            .ok whole)

mutual

/-- The encoder with the streams it leaves in the objects. -/
def RlpNode.encode (malloc : Nat → Option (List UInt8)) :
    RlpNode → Option Nat → RlpNode × Outcome (List UInt8)
  | .string field, parentStorage =>
      (.string field, rlpEncode malloc (.string field) parentStorage)
  | .list descriptors stream, parentStorage =>
      let size := rlpRecursiveCalcEncodingSize
        (.list (RlpNode.eraseAll descriptors))
      let membersLen := buint32 (size.1 + 2 ^ 32 - size.2)
      if size.1 = rlpStreamLenUnknown then
        (.list descriptors (releasedStream parentStorage stream),
          boatThrow boatErrorRlpEncoderFail)
      else if parentStorage.any (· < size.1) then
        (.list descriptors (releasedStream parentStorage stream),
          boatThrow boatErrorCommonInvalidArgument)
      else
        match malloc size.1 with
        | none => (.list descriptors none, boatThrow boatErrorCommonOutOfMemory)
        | some block =>
            finishList parentStorage membersLen
              (RlpNode.encodeMembers malloc descriptors block size.2 membersLen)

/-- The members after the loop, the block of the list as far as it is filled,
and what ended the loop early. -/
def RlpNode.encodeMembers (malloc : Nat → Option (List UInt8)) :
    List RlpNode → List UInt8 → Nat → Nat →
      List RlpNode × List UInt8 × Option Failure
  | [], block, _, _ => ([], block, none)
  | node :: rest, block, offset, room =>
      let subStreamLen := (rlpRecursiveCalcEncodingSize node.erase).1
      if subStreamLen = rlpStreamLenUnknown then
        (node :: rest, block, some (.code boatErrorRlpEncoderFail))
      else
        let member := RlpNode.encode malloc node (some room)
        match member.2 with
        | .error .undefined => (member.1 :: rest, block, some .undefined)
        | .error (.code _) =>
            (member.1 :: rest, block, some (.code boatErrorRlpEncoderFail))
        | .ok stream =>
            match storeAt block offset stream with
            | .error failure => (member.1 :: rest, block, some failure)
            | .ok stored =>
                if room < subStreamLen then
                  (member.1 :: rest, stored,
                    some (.code boatErrorRlpEncoderFail))
                else
                  let others := RlpNode.encodeMembers malloc rest stored
                    (offset + subStreamLen) (room - subStreamLen)
                  (member.1 :: others.1, others.2)

end

def RlpNode.reEncode (malloc : Nat → Option (List UInt8)) (node : RlpNode)
    (parentStorage : Option Nat) : RlpNode × Outcome (List UInt8) :=
  RlpNode.encode malloc (rlpRecursiveDeleteEncodedStream node) parentStorage

/-- A call on a list object without a parent.  Each encoding has memory of its
own. -/
inductive RlpListCall where
  | append (fromObject : Option RlpNode)
  | replace (replaceIndex : Int) (fromObject : Option RlpNode)
  | encode (malloc : Nat → Option (List UInt8))
  | reEncode (malloc : Nat → Option (List UInt8))

/-- The list object after a call, and the index or `BOAT_SUCCESS` that the call
returns. -/
def RlpListCall.run : RlpListCall → RlpNode → RlpNode × Outcome Nat
  | .append fromObject, node => node.appendObjectToList fromObject
  | .replace replaceIndex fromObject, node =>
      node.replaceObjectInList replaceIndex fromObject
  | .encode malloc, node =>
      ((node.encode malloc none).1,
        (node.encode malloc none).2.map fun _ => 0)
  | .reEncode malloc, node =>
      ((node.reEncode malloc none).1,
        (node.reEncode malloc none).2.map fun _ => 0)

def runRlpListCalls (calls : List RlpListCall) (node : RlpNode) : RlpNode :=
  calls.foldl (fun node call => (call.run node).1) node

variable {malloc : Nat → Option (List UInt8)}

theorem RlpNode.erase_list (descriptors : List RlpNode)
    (stream : Option (List UInt8)) :
    (RlpNode.list descriptors stream).erase = .list (eraseAll descriptors) := by
  simp [RlpNode.erase]

theorem RlpNode.eraseAll_cons (node : RlpNode) (rest : List RlpNode) :
    eraseAll (node :: rest) = node.erase :: eraseAll rest := by
  simp [RlpNode.eraseAll]

theorem RlpNode.eraseAll_eq_map (descriptors : List RlpNode) :
    eraseAll descriptors = descriptors.map erase := by
  induction descriptors with
  | nil => simp [RlpNode.eraseAll]
  | cons head tail ih => rw [eraseAll_cons, ih, List.map_cons]

/-- How the loop over the members ends. -/
def membersOutcome : List UInt8 × Option Failure → Outcome (List UInt8)
  | (filled, none) => .ok filled
  | (_, some failure) => .error failure

/-- The end of a list leaves its members. -/
theorem finishList_eq (parentStorage : Option Nat) (membersLen : Nat)
    (result : List RlpNode × List UInt8 × Option Failure) :
    (finishList parentStorage membersLen result).1.erase =
      .list (RlpNode.eraseAll result.1) ∧
    (finishList parentStorage membersLen result).2 =
      match membersOutcome result.2 with
      | .error failure => .error failure
      | .ok filled => storeAt filled 0 (rlpListHead membersLen) := by
  obtain ⟨encoded, filled, ended⟩ := result
  cases ended with
  | some failure => exact ⟨RlpNode.erase_list _ _, rfl⟩
  | none =>
      simp only [finishList, membersOutcome]
      cases storeAt filled 0 (rlpListHead membersLen) with
      | error failure => exact ⟨RlpNode.erase_list _ _, rfl⟩
      | ok whole => exact ⟨RlpNode.erase_list _ _, rfl⟩

mutual

/-- An encoding leaves the object and writes what the encoder writes, whatever
streams were kept. -/
theorem RlpNode.encode_eq (malloc : Nat → Option (List UInt8))
    (node : RlpNode) (parentStorage : Option Nat) :
    (node.encode malloc parentStorage).1.erase = node.erase ∧
      (node.encode malloc parentStorage).2 =
        rlpEncode malloc node.erase parentStorage := by
  match node with
  | .string field =>
      simp only [RlpNode.encode, RlpNode.erase]
      exact ⟨trivial, trivial⟩
  | .list descriptors stream =>
      have hmembers := RlpNode.encodeMembers_eq malloc descriptors
      rw [RlpNode.erase_list, RlpNode.encode, rlpEncode]
      generalize rlpRecursiveCalcEncodingSize
        (.list (RlpNode.eraseAll descriptors)) = size
      generalize buint32 (size.1 + 2 ^ 32 - size.2) = membersLen
      by_cases hunknown : size.1 = rlpStreamLenUnknown
      · rw [if_pos hunknown, if_pos hunknown]
        exact ⟨RlpNode.erase_list _ _, rfl⟩
      · rw [if_neg hunknown, if_neg hunknown]
        by_cases hroom : parentStorage.any (· < size.1) = true
        · rw [if_pos hroom, if_pos hroom]
          exact ⟨RlpNode.erase_list _ _, rfl⟩
        · rw [if_neg hroom, if_neg hroom]
          cases malloc size.1 with
          | none => exact ⟨RlpNode.erase_list _ _, rfl⟩
          | some block =>
              obtain ⟨hsame, houtcome⟩ := hmembers block size.2 membersLen
              obtain ⟨herase, hresult⟩ := finishList_eq parentStorage membersLen
                (RlpNode.encodeMembers malloc descriptors block size.2
                  membersLen)
              constructor
              · exact herase.trans (congrArg RlpObject.list hsame)
              · simp only [houtcome]
                exact hresult

theorem RlpNode.encodeMembers_eq (malloc : Nat → Option (List UInt8))
    (descriptors : List RlpNode) (block : List UInt8) (offset room : Nat) :
    RlpNode.eraseAll
        (RlpNode.encodeMembers malloc descriptors block offset room).1 =
      RlpNode.eraseAll descriptors ∧
      rlpEncodeMembers malloc (RlpNode.eraseAll descriptors) block offset room =
        membersOutcome
          (RlpNode.encodeMembers malloc descriptors block offset room).2 := by
  match descriptors with
  | [] =>
      simp only [RlpNode.encodeMembers, RlpNode.eraseAll, rlpEncodeMembers]
      exact ⟨trivial, rfl⟩
  | node :: rest =>
      obtain ⟨herase, houtcome⟩ := RlpNode.encode_eq malloc node (some room)
      have hrest := RlpNode.encodeMembers_eq malloc rest
      rw [RlpNode.eraseAll_cons, RlpNode.encodeMembers, rlpEncodeMembers]
      simp only
      rw [← houtcome]
      generalize RlpNode.encode malloc node (some room) = member
        at herase
      generalize (rlpRecursiveCalcEncodingSize node.erase).1 = subStreamLen
      by_cases hunknown : subStreamLen = rlpStreamLenUnknown
      · rw [if_pos hunknown, if_pos hunknown]
        exact ⟨RlpNode.eraseAll_cons node rest, rfl⟩
      · rw [if_neg hunknown, if_neg hunknown]
        obtain ⟨encoded, result⟩ := member
        have hencoded : RlpNode.eraseAll (encoded :: rest) =
            node.erase :: RlpNode.eraseAll rest := by
          rw [RlpNode.eraseAll_cons]
          exact congrArg (· :: _) herase
        rcases result with (failure | code) | written
        · exact ⟨hencoded, rfl⟩
        · exact ⟨hencoded, rfl⟩
        · simp only
          cases storeAt block offset written with
          | error failure => exact ⟨hencoded, rfl⟩
          | ok stored =>
              simp only
              by_cases hroom : room < subStreamLen
              · rw [if_pos hroom, if_pos hroom]
                exact ⟨hencoded, rfl⟩
              · rw [if_neg hroom, if_neg hroom]
                obtain ⟨hsame, hothers⟩ := hrest stored
                  (offset + subStreamLen) (room - subStreamLen)
                refine ⟨?_, hothers⟩
                rw [RlpNode.eraseAll_cons, hsame]
                exact congrArg (· :: _) herase

end

mutual

/-- Freeing the streams leaves the object. -/
theorem erase_rlpRecursiveDeleteEncodedStream (node : RlpNode) :
    (rlpRecursiveDeleteEncodedStream node).erase = node.erase := by
  match node with
  | .string field => simp [rlpRecursiveDeleteEncodedStream]
  | .list descriptors stream =>
      rw [rlpRecursiveDeleteEncodedStream, RlpNode.erase_list,
        RlpNode.erase_list, eraseAll_rlpDeleteEncodedStreams descriptors]

theorem eraseAll_rlpDeleteEncodedStreams (descriptors : List RlpNode) :
    RlpNode.eraseAll (rlpDeleteEncodedStreams descriptors) =
      RlpNode.eraseAll descriptors := by
  match descriptors with
  | [] => simp [rlpDeleteEncodedStreams]
  | node :: rest =>
      rw [rlpDeleteEncodedStreams, RlpNode.eraseAll_cons,
        RlpNode.eraseAll_cons, erase_rlpRecursiveDeleteEncodedStream node,
        eraseAll_rlpDeleteEncodedStreams rest]

end

theorem RlpNode.reEncode_eq (malloc : Nat → Option (List UInt8))
    (node : RlpNode) (parentStorage : Option Nat) :
    (node.reEncode malloc parentStorage).1.erase = node.erase ∧
      (node.reEncode malloc parentStorage).2 =
        rlpEncode malloc node.erase parentStorage := by
  have hencode := RlpNode.encode_eq malloc
    (rlpRecursiveDeleteEncodedStream node) parentStorage
  rwa [erase_rlpRecursiveDeleteEncodedStream] at hencode

/-- Without a parent the stream that is written is kept. -/
theorem finishList_kept {membersLen : Nat}
    {result : List RlpNode × List UInt8 × Option Failure} {stream : List UInt8}
    (hfinish : (finishList none membersLen result).2 = .ok stream) :
    rlpGetEncodedStream (finishList none membersLen result).1 = some stream := by
  obtain ⟨encoded, filled, ended⟩ := result
  cases ended with
  | some failure => cases hfinish
  | none =>
      simp only [finishList] at hfinish ⊢
      cases hstore : storeAt filled 0 (rlpListHead membersLen) with
      | error failure =>
          rw [hstore] at hfinish
          cases hfinish
      | ok whole =>
          rw [hstore] at hfinish
          obtain rfl := Except.ok.inj hfinish
          rfl

theorem rlpGetEncodedStream_encode {descriptors : List RlpNode}
    {kept : Option (List UInt8)} {stream : List UInt8}
    (hencode : ((RlpNode.list descriptors kept).encode malloc none).2 =
      .ok stream) :
    rlpGetEncodedStream ((RlpNode.list descriptors kept).encode malloc none).1 =
      some stream := by
  rw [RlpNode.encode] at hencode ⊢
  generalize rlpRecursiveCalcEncodingSize
    (.list (RlpNode.eraseAll descriptors)) = size at hencode ⊢
  generalize buint32 (size.1 + 2 ^ 32 - size.2) = membersLen at hencode ⊢
  by_cases hunknown : size.1 = rlpStreamLenUnknown
  · rw [if_pos hunknown] at hencode
    cases hencode
  · have hroom : ¬ (none : Option Nat).any (· < size.1) = true := by simp
    rw [if_neg hunknown, if_neg hroom] at hencode ⊢
    cases hmalloc : malloc size.1 with
    | none =>
        rw [hmalloc] at hencode
        cases hencode
    | some block =>
        rw [hmalloc] at hencode
        exact finishList_kept hencode

/-- The members of a list object, without the streams kept in them. -/
def RlpNode.members : RlpNode → List RlpObject
  | .string _ => []
  | .list descriptors _ => RlpNode.eraseAll descriptors

/-- A list object that is within its descriptor table. -/
def RlpNode.IsListObject (node : RlpNode) : Prop :=
  node.erase = .list node.members ∧ node.members.length ≤ maxRlpListDescNum

theorem RlpNode.isListObject_iff (node : RlpNode) :
    node.IsListObject ↔ ∃ descriptors stream,
      node = .list descriptors stream ∧
      descriptors.length ≤ maxRlpListDescNum := by
  cases node with
  | string field => simp [IsListObject, RlpNode.erase, RlpNode.members]
  | list descriptors stream =>
      simp [IsListObject, RlpNode.erase, RlpNode.members, eraseAll_eq_map]

/-- A list object built anew from its members. -/
def buildRlpList (members : List RlpObject) : Outcome RlpObject :=
  members.foldlM
    (fun list object => (rlpEncoderAppendObjectToList list object).map Prod.fst)
    rlpInitListObject

theorem foldlM_append_eq (members added : List RlpObject)
    (hroom : members.length + added.length ≤ maxRlpListDescNum) :
    added.foldlM
      (fun list object =>
        (rlpEncoderAppendObjectToList list object).map Prod.fst)
      (RlpObject.list members) = .ok (.list (members ++ added)) := by
  induction added generalizing members with
  | nil => simp [pure, Except.pure]
  | cons object rest ih =>
      rw [List.length_cons] at hroom
      have hfree : members.length < maxRlpListDescNum := by omega
      have happend : (rlpEncoderAppendObjectToList (.list members) object).map
          Prod.fst = .ok (.list (members ++ [object])) := by
        simp only [rlpEncoderAppendObjectToList, if_pos hfree]
        rfl
      have hrest := ih (members ++ [object])
        (by rw [List.length_append, List.length_singleton]; omega)
      rw [List.append_assoc] at hrest
      rw [List.foldlM_cons, happend]
      exact hrest

theorem buildRlpList_eq {members : List RlpObject}
    (hroom : members.length ≤ maxRlpListDescNum) :
    buildRlpList members = .ok (.list members) :=
  foldlM_append_eq [] members (by simpa using hroom)

/-- The streams that are kept do not change what an append does. -/
theorem rlpEncoderAppendObjectToList_erase (node object : RlpNode) :
    rlpEncoderAppendObjectToList node.erase object.erase =
      (node.appendObjectToList (some object)).2.map fun index =>
        ((node.appendObjectToList (some object)).1.erase, index) := by
  cases node with
  | string field => simp [RlpNode.erase, rlpEncoderAppendObjectToList,
      RlpNode.appendObjectToList, boatThrow, Except.map]
  | list descriptors stream =>
      simp only [RlpNode.erase_list, rlpEncoderAppendObjectToList,
        RlpNode.appendObjectToList, RlpNode.eraseAll_eq_map, List.length_map]
      split <;>
        simp [RlpNode.erase_list, RlpNode.eraseAll_eq_map, boatThrow, Except.map]

theorem rlpEncoderReplaceObjectInList_erase (node object : RlpNode)
    (replaceIndex : Int) :
    rlpEncoderReplaceObjectInList node.erase replaceIndex object.erase =
      (node.replaceObjectInList replaceIndex (some object)).2.map fun _ =>
        (node.replaceObjectInList replaceIndex (some object)).1.erase := by
  unfold rlpEncoderReplaceObjectInList RlpNode.replaceObjectInList
  split
  · rfl
  · cases node with
    | string field => simp [RlpNode.erase, boatThrow, Except.map]
    | list descriptors stream =>
        simp only [RlpNode.erase_list, RlpNode.eraseAll_eq_map, List.length_map]
        split <;>
          simp [RlpNode.erase_list, RlpNode.eraseAll_eq_map, boatThrow,
            Except.map]

/-- The member in the slot `index` after a call, `held` being the one before. -/
def RlpListCall.heldAt (index : Nat) (held : RlpNode) : RlpListCall → RlpNode
  | .replace replaceIndex (some fromObject) =>
      if replaceIndex = index then fromObject else held
  | _ => held

section Runs

variable {node : RlpNode} {call : RlpListCall}

theorem RlpNode.members_of_erase {left right : RlpNode}
    (heq : left.erase = right.erase) : left.members = right.members := by
  cases left <;> cases right <;>
    simp_all [RlpNode.erase, RlpNode.members]

theorem RlpNode.IsListObject.of_erase {left right : RlpNode}
    (heq : left.erase = right.erase) (hlist : right.IsListObject) :
    left.IsListObject := by
  unfold IsListObject
  rw [heq, members_of_erase heq]
  exact hlist

theorem RlpNode.appendObjectToList_members {object : RlpNode} {index : Nat}
    (happend : (node.appendObjectToList (some object)).2 = .ok index) :
    index = node.members.length ∧ index < maxRlpListDescNum ∧
      (node.appendObjectToList (some object)).1.members =
        node.members ++ [object.erase] := by
  cases node with
  | string field => cases happend
  | list descriptors stream =>
      simp only [appendObjectToList, members, eraseAll_eq_map, List.length_map]
        at happend ⊢
      by_cases hfree : descriptors.length < maxRlpListDescNum
      · rw [if_pos hfree] at happend ⊢
        obtain rfl := Except.ok.inj happend
        exact ⟨rfl, hfree, by simp⟩
      · rw [if_neg hfree] at happend
        cases happend

/-- Replacing at a slot that is in use sets that slot and no other. -/
theorem RlpNode.replaceObjectInList_run (hlist : node.IsListObject)
    (object : RlpNode) {index : Nat} (hused : index < node.members.length) :
    (node.replaceObjectInList index (some object)).2 = .ok index ∧
      (node.replaceObjectInList index (some object)).1.members =
        node.members.set index object.erase := by
  obtain ⟨descriptors, stream, rfl, _⟩ := node.isListObject_iff.mp hlist
  simp only [members, eraseAll_eq_map, List.length_map] at hused
  have hsign : ¬ (index : Int) < 0 := by omega
  simp only [replaceObjectInList, if_neg hsign, Int.toNat_natCast, if_pos hused]
  exact ⟨trivial, by simp [members, eraseAll_eq_map, List.map_set]⟩

/-- A call that returns an error leaves the members. -/
theorem RlpListCall.run_error (call : RlpListCall) (node : RlpNode)
    {failure : Failure} (hrun : (call.run node).2 = .error failure) :
    (call.run node).1.members = node.members := by
  cases call with
  | append fromObject =>
      cases fromObject with
      | none => cases node <;> rfl
      | some object =>
          cases node with
          | string field => rfl
          | list descriptors stream =>
              simp only [run, RlpNode.appendObjectToList] at hrun ⊢
              split at hrun
              · cases hrun
              next hfull => rw [if_neg hfull]
  | replace replaceIndex fromObject =>
      simp only [run, RlpNode.replaceObjectInList] at hrun ⊢
      split at hrun
      next hsign => rw [if_pos hsign]
      next hsign =>
        rw [if_neg hsign]
        cases fromObject with
        | none => cases node <;> rfl
        | some object =>
            cases node with
            | string field => rfl
            | list descriptors stream =>
                simp only at hrun ⊢
                split at hrun
                · cases hrun
                next hrange => rw [if_neg hrange]
  | encode malloc =>
      exact RlpNode.members_of_erase (RlpNode.encode_eq malloc node none).1
  | reEncode malloc =>
      exact RlpNode.members_of_erase (RlpNode.reEncode_eq malloc node none).1

/-- A call keeps a list object, its slots that are in use, and what they hold
but for the one that is replaced. -/
theorem RlpListCall.run_step (call : RlpListCall) (hlist : node.IsListObject) :
    (call.run node).1.IsListObject ∧
      ∀ index held, node.members[index]? = some (RlpNode.erase held) →
        (call.run node).1.members[index]? =
          some (call.heldAt index held).erase := by
  cases call with
  | append fromObject =>
      obtain ⟨descriptors, stream, rfl, hroom⟩ := node.isListObject_iff.mp hlist
      cases fromObject with
      | none => exact ⟨hlist, fun _ _ hheld => hheld⟩
      | some object =>
          simp only [run, RlpNode.appendObjectToList]
          by_cases hfree : descriptors.length < maxRlpListDescNum
          · rw [if_pos hfree]
            refine ⟨(RlpNode.isListObject_iff _).mpr ⟨_, _, rfl, ?_⟩, ?_⟩
            · rw [List.length_append, List.length_singleton]
              omega
            · intro index held hheld
              simp only [RlpNode.members, RlpNode.eraseAll_eq_map, heldAt,
                List.map_append] at hheld ⊢
              rw [List.getElem?_append_left (List.getElem?_eq_some_iff.mp hheld).1]
              exact hheld
          · rw [if_neg hfree]
            exact ⟨hlist, fun _ _ hheld => hheld⟩
  | replace replaceIndex fromObject =>
      obtain ⟨descriptors, stream, rfl, hroom⟩ := node.isListObject_iff.mp hlist
      simp only [run, RlpNode.replaceObjectInList]
      by_cases hsign : replaceIndex < 0
      · rw [if_pos hsign]
        refine ⟨hlist, fun index held hheld => ?_⟩
        cases fromObject with
        | none => exact hheld
        | some object => rw [heldAt, if_neg (by omega), hheld]
      · rw [if_neg hsign]
        cases fromObject with
        | none => exact ⟨hlist, fun _ _ hheld => hheld⟩
        | some object =>
            simp only
            by_cases hrange : replaceIndex.toNat < descriptors.length
            · rw [if_pos hrange]
              refine ⟨(RlpNode.isListObject_iff _).mpr ⟨_, _, rfl, ?_⟩, ?_⟩
              · rwa [List.length_set]
              · intro index held hheld
                simp only [RlpNode.members, RlpNode.eraseAll_eq_map, heldAt,
                  List.map_set] at hheld ⊢
                rw [List.getElem?_set]
                by_cases hsame : replaceIndex = index
                · subst hsame
                  simpa using hrange
                · rw [if_neg (by omega), if_neg hsame, hheld]
            · rw [if_neg hrange]
              refine ⟨hlist, fun index held hheld => ?_⟩
              have hused := (List.getElem?_eq_some_iff.mp hheld).1
              simp only [RlpNode.members, RlpNode.eraseAll_eq_map,
                List.length_map] at hused
              rw [heldAt, if_neg (by omega), hheld]
  | encode malloc =>
      have hsame := (RlpNode.encode_eq malloc node none).1
      refine ⟨RlpNode.IsListObject.of_erase hsame hlist, fun _ _ hheld => ?_⟩
      rw [run, RlpNode.members_of_erase hsame]
      exact hheld
  | reEncode malloc =>
      have hsame := (RlpNode.reEncode_eq malloc node none).1
      refine ⟨RlpNode.IsListObject.of_erase hsame hlist, fun _ _ hheld => ?_⟩
      rw [run, RlpNode.members_of_erase hsame]
      exact hheld

theorem runRlpListCalls_step (calls : List RlpListCall)
    (hlist : node.IsListObject) :
    (runRlpListCalls calls node).IsListObject ∧
      ∀ index held, node.members[index]? = some (RlpNode.erase held) →
        (runRlpListCalls calls node).members[index]? =
          some (calls.foldl (RlpListCall.heldAt index) held).erase := by
  induction calls generalizing node with
  | nil => exact ⟨hlist, fun _ _ hheld => hheld⟩
  | cons call rest ih =>
      obtain ⟨hnext, hslots⟩ := call.run_step hlist
      obtain ⟨hlast, hrest⟩ := ih hnext
      exact ⟨hlast, fun index held hheld =>
        hrest index _ (hslots index held hheld)⟩

/-- What a re-encoding of a list object returns, whatever streams earlier calls
have left in it. -/
theorem RlpNode.reEncode_fresh (hlist : node.IsListObject) :
    (node.reEncode malloc none).2 =
      rlpEncode malloc (.list node.members) none := by
  rw [(RlpNode.reEncode_eq malloc node none).2, hlist.1]

theorem RlpNode.reEncode_kept (hlist : node.IsListObject)
    {stream : List UInt8} (hencode : (node.reEncode malloc none).2 = .ok stream) :
    rlpGetEncodedStream (node.reEncode malloc none).1 = some stream := by
  obtain ⟨descriptors, kept, rfl, _⟩ := node.isListObject_iff.mp hlist
  rw [reEncode, rlpRecursiveDeleteEncodedStream] at hencode ⊢
  exact rlpGetEncodedStream_encode hencode

end Runs

/-- List objects under any calls.  A re-encoding does what encoding the members
built anew does: the stream it returns is kept and is the encoding of the
members, and below the reserved length there is one.  A call with an error
leaves the members.  An index from an append designates its slot from then on:
it holds what was last put there, and replacing at it sets that slot. -/
theorem rlpListCalls_correct (start : RlpNode) (hstart : start.IsListObject)
    (calls : List RlpListCall) :
    (∃ fresh, buildRlpList (runRlpListCalls calls start).members = .ok fresh ∧
      ∀ malloc, ((runRlpListCalls calls start).reEncode malloc none).2 =
        rlpEncode malloc fresh none) ∧
    (∀ malloc stream, Fresh malloc →
      ((runRlpListCalls calls start).reEncode malloc none).2 = .ok stream →
      rlpGetEncodedStream
          ((runRlpListCalls calls start).reEncode malloc none).1 = some stream ∧
        stream =
          (RlpObject.list (runRlpListCalls calls start).members).encoding) ∧
    (∀ malloc, Fresh malloc → Grants malloc →
      (RlpObject.list (runRlpListCalls calls start).members).encoding.length <
        2 ^ 32 - 1 →
      ((runRlpListCalls calls start).reEncode malloc none).2 =
        .ok (RlpObject.list (runRlpListCalls calls start).members).encoding) ∧
    (∀ call failure,
      (RlpListCall.run call (runRlpListCalls calls start)).2 = .error failure →
      (RlpListCall.run call (runRlpListCalls calls start)).1.members =
        (runRlpListCalls calls start).members) ∧
    (∀ object index,
      ((runRlpListCalls calls start).appendObjectToList (some object)).2 =
        .ok index →
      ∀ later replacement, ∀ node, node = runRlpListCalls later
          ((runRlpListCalls calls start).appendObjectToList (some object)).1 →
        node.members[index]? =
            some (later.foldl (RlpListCall.heldAt index) object).erase ∧
          (node.replaceObjectInList index (some replacement)).2 = .ok index ∧
          (node.replaceObjectInList index (some replacement)).1.members =
            node.members.set index replacement.erase) := by
  obtain ⟨hlist, _⟩ := runRlpListCalls_step calls hstart
  generalize runRlpListCalls calls start = node at hlist
  refine ⟨⟨_, buildRlpList_eq hlist.2, fun malloc => ?_⟩,
    fun malloc stream hfresh hencode => ⟨?_, ?_⟩,
    fun malloc hfresh hgrants hsize => ?_, fun call failure hrun => ?_,
    fun object index happend later replacement last hlast => ?_⟩
  · exact RlpNode.reEncode_fresh hlist
  · exact RlpNode.reEncode_kept hlist hencode
  · rw [RlpNode.reEncode_fresh hlist] at hencode
    exact (rlpEncode_sound hfresh _ none stream (by simp) hencode).1
  · rw [RlpNode.reEncode_fresh hlist]
    exact rlpEncode_complete hfresh hgrants _ none (.inr ⟨rfl, _, rfl⟩) hsize
  · exact call.run_error node hrun
  · obtain ⟨rfl, hfree, hmembers⟩ := RlpNode.appendObjectToList_members happend
    obtain ⟨hadded, _⟩ :=
      (RlpListCall.append (some object)).run_step hlist
    obtain ⟨hkept, hslots⟩ := runRlpListCalls_step later hadded
    have hheld := hslots node.members.length object
      (by rw [RlpListCall.run, hmembers]; simp)
    rw [RlpListCall.run, ← hlast] at hkept hheld
    exact ⟨hheld, RlpNode.replaceObjectInList_run hkept replacement
      (List.getElem?_eq_some_iff.mp hheld).1⟩

/-- An append, an encoding, a replacement and a second encoding. -/
theorem rlpListCalls_correct_cat :
    ((runRlpListCalls [.append (some (.string [0x64])), .encode zeroMalloc,
      .replace 0 (some (.string [0x63, 0x61, 0x74]))]
        (.list [] none)).reEncode zeroMalloc none).2 =
      .ok [0xc4, 0x83, 0x63, 0x61, 0x74] :=
  (rlpListCalls_correct (.list [] none)
    ((RlpNode.isListObject_iff _).mpr ⟨[], none, rfl, by decide⟩)
    [.append (some (.string [0x64])), .encode zeroMalloc,
      .replace 0 (some (.string [0x63, 0x61, 0x74]))]).2.2.1 zeroMalloc
    zeroMalloc_fresh zeroMalloc_grants (by decide)

end BoatFramework
