/-
How `BoatHwbcsTxExec` takes the wrappers off what a node answers: the frame of
the endorser's body, the field that the payload of its response is, and, in
one cut, the frame and the field of the orderer's body.  The offsets are fixed
but for one length of two bytes, and no length is checked.
-/
import BoatFramework.Base.BigEndian
import BoatFramework.Base.ProtobufReader
import BoatFramework.Utility.Result

namespace BoatFramework

open Protobuf ByteString

/-- The body of a response; its length is recorded in 32 bits. -/
abbrev ResponseBody := {bytes : List UInt8 // bytes.length < 2 ^ 32}

/-- The part of a buffer that is given to an unpacker; behind the end of the
buffer it is undefined. -/
def unpackSlice (buffer : List UInt8) (start length : Nat) :
    Outcome (Option Slice) :=
  if buffer.length < start + length then .error .undefined
  else .ok (some ⟨start, length⟩)

/-- `httpResLen - offset`, which wraps around. -/
def lengthBehind (offset : Nat) (body : List UInt8) : Nat :=
  buint32 (body.length + 2 ^ 32 - offset)

/-- What `common__transaction__unpack` is given of the endorser's body. -/
def transactionSlice (body : List UInt8) : Outcome (Option Slice) :=
  unpackSlice body 5 (lengthBehind 5 body)

/-- What `common__tx_payload__unpack` is given of the payload in the endorser's
response. -/
def txPayloadSlice (data : List UInt8) : Outcome (Option Slice) :=
  match data[1]? with
  | none => .error .undefined
  | some first =>
      if first &&& 0x80 = 0x80 then
        match data[2]? with
        | none => .error .undefined
        | some second =>
            unpackSlice data 3 ((first &&& 0x7F).toNat + second.toNat <<< 7)
      else unpackSlice data 2 first.toNat

/-- What `common__response__unpack` is given of the orderer's body. -/
def responseSlice (body : List UInt8) : Outcome (Option Slice) :=
  unpackSlice body 7 (lengthBehind 7 body)

/-- The message in a gRPC frame, if the frame is whole. -/
def grpcSlice (body : List UInt8) : Option Slice :=
  let length := ofBigEndian ((body.drop 1).take 4)
  if body.length < 5 + length then none else some ⟨5, length⟩

/-- The content of the field in a gRPC frame. -/
def framedFieldSlice (body : List UInt8) : Option Slice := do
  let message ← grpcSlice body
  let field ← fieldSlice (message.of body)
  pure ⟨message.start + field.start, field.length⟩

/-- The three places where a wrapper is taken off. -/
inductive CutSite where
  | transaction
  | txPayload
  | response

/-- What the code takes; nothing where it rejects the bytes. -/
def CutSite.taken : CutSite → List UInt8 → Outcome (Option Slice)
  | .transaction => transactionSlice
  | .txPayload => txPayloadSlice
  | .response => responseSlice

/-- What the wrapper denotes; nothing where the bytes are too short for it. -/
def CutSite.denoted : CutSite → List UInt8 → Option Slice
  | .transaction => grpcSlice
  | .txPayload => fieldSlice
  | .response => framedFieldSlice

/-- A field whose key and whose length take one byte, or its length two, with
the content that is there. -/
def ShortField : List UInt8 → Prop
  | key :: first :: rest => key.toNat < 0x80 ∧ key.toNat % 8 = 2 ∧
      (first.toNat < 0x80 ∧ first.toNat ≤ rest.length ∨
        0x80 ≤ first.toNat ∧ ∃ second content, rest = second :: content ∧
          second.toNat < 0x80 ∧
          first.toNat - 0x80 + 0x80 * second.toNat ≤ content.length)
  | _ => False

/-- A frame that ends with the body. -/
def WholeFrame (body : List UInt8) : Prop :=
  body.length = 5 + ofBigEndian ((body.drop 1).take 4)

/-- A field that ends with the frame, with a key and a length of one byte. -/
def WholeField : List UInt8 → Prop
  | key :: length :: content => key.toNat < 0x80 ∧ key.toNat % 8 = 2 ∧
      length.toNat < 0x80 ∧ length.toNat = content.length
  | _ => False

theorem WholeField.bytes {data : List UInt8} (hwhole : WholeField data) :
    ∃ key length content, data = key :: length :: content := by
  cases data with
  | nil => exact hwhole.elim
  | cons key rest =>
      cases rest with
      | nil => exact hwhole.elim
      | cons length content => exact ⟨key, length, content, rfl⟩

/-- When a place takes what the wrapper denotes. -/
def CutSite.TakesWhen : CutSite → List UInt8 → Prop
  | .transaction, body => WholeFrame body
  | .txPayload, data => ShortField data
  | .response, body => WholeFrame body ∧ WholeField (body.drop 5)

section Parts

variable {body : List UInt8} {offset : Nat}

theorem unpackSlice_behind (hoffset : offset ≤ body.length)
    (hbody : body.length < 2 ^ 32) :
    unpackSlice body offset (lengthBehind offset body) =
      .ok (some ⟨offset, body.length - offset⟩) := by
  have hlength : lengthBehind offset body = body.length - offset := by
    unfold lengthBehind buint32
    omega
  rw [hlength]
  exact if_neg (by omega)

/-- A body that is shorter than what is taken off it has a length that wraps
around. -/
theorem unpackSlice_short (hoffset : body.length < offset)
    (hsmall : offset < 2 ^ 32) :
    unpackSlice body offset (lengthBehind offset body) =
      .error .undefined := by
  have hlength : lengthBehind offset body = body.length + 2 ^ 32 - offset := by
    unfold lengthBehind buint32
    omega
  rw [hlength]
  exact if_pos (by omega)

theorem unpackSlice_eq_ok {buffer : List UInt8} {start length : Nat}
    {slice : Option Slice} :
    unpackSlice buffer start length = .ok slice ↔
      start + length ≤ buffer.length ∧ slice = some ⟨start, length⟩ := by
  unfold unpackSlice
  split
  next hlong =>
    constructor
    · intro hrun
      cases hrun
    · rintro ⟨hfits, _⟩
      omega
  next hfits =>
    constructor
    · intro hrun
      exact ⟨Nat.le_of_not_lt hfits, (Except.ok.inj hrun).symm⟩
    · rintro ⟨_, rfl⟩
      rfl

theorem grpcSlice_eq_some {slice : Slice} :
    grpcSlice body = some slice ↔
      slice = ⟨5, ofBigEndian ((body.drop 1).take 4)⟩ ∧
        5 + ofBigEndian ((body.drop 1).take 4) ≤ body.length := by
  unfold grpcSlice
  dsimp only
  split
  next hlong =>
    constructor
    · intro hslice
      cases hslice
    · rintro ⟨_, hfits⟩
      omega
  next hfits =>
    constructor
    · intro hslice
      exact ⟨(Option.some.inj hslice).symm, Nat.le_of_not_lt hfits⟩
    · rintro ⟨rfl, _⟩
      rfl

theorem and_0x80_iff (byte : UInt8) :
    byte &&& 0x80 = 0x80 ↔ 0x80 ≤ byte.toNat := by
  have hbits : ∀ bits : BitVec 8, bits &&& 0x80 = 0x80 ↔ 0x80 ≤ bits.toNat := by
    decide
  rw [← UInt8.toBitVec_inj]
  exact hbits byte.toBitVec

theorem toNat_and_0x7F {byte : UInt8} (hbyte : 0x80 ≤ byte.toNat) :
    (byte &&& 0x7F).toNat = byte.toNat - 0x80 := by
  have hlt := byte.toNat_lt
  rw [UInt8.toNat_and]
  exact (Nat.and_two_pow_sub_one_eq_mod byte.toNat 7).trans (by omega)

/-- A field whose content starts at the second byte. -/
theorem fieldSlice_two {bytes : List UInt8} {length : Nat} :
    fieldSlice bytes = some ⟨2, length⟩ ↔
      ∃ key first content, bytes = key :: first :: content ∧
        key.toNat < 0x80 ∧ key.toNat % 8 = 2 ∧ first.toNat < 0x80 ∧
        first.toNat = length ∧ length ≤ content.length := by
  rw [fieldSlice_eq_some]
  constructor
  · rintro ⟨key, number, hkey, hkind, hnumber, hslice, hfits⟩
    have hkeyWidth := readGroups_width hkey
    have hwidth := readGroups_width hnumber
    obtain ⟨hstart, rfl⟩ := Slice.mk.inj hslice
    match bytes, hkey with
    | byte :: rest, hkey =>
        rcases readGroups_cases hkey with ⟨hbyte, rfl⟩ | ⟨_, inner, hinner, rfl⟩
        · match rest, hnumber with
          | first :: content, hnumber =>
              rcases readGroups_cases hnumber with
                ⟨hfirst, rfl⟩ | ⟨_, inner, hinner, rfl⟩
              · simp only [List.length_cons] at hfits
                exact ⟨byte, first, content, rfl, hbyte, hkind, hfirst, rfl,
                  by omega⟩
              · have hmore := (readGroups_width hinner).1
                simp only at hstart
                omega
        · have hmore := (readGroups_width hinner).1
          simp only at hstart
          omega
  · rintro ⟨key, first, content, rfl, hkey, hkind, hfirst, rfl, hfits⟩
    refine ⟨(key.toNat, 1), (first.toNat, 1), readVarint_last hkey, hkind,
      readVarint_last hfirst, rfl, ?_⟩
    simp only [List.length_cons]
    omega

/-- A field whose content starts at the third byte, behind a length whose
first group is not the last. -/
theorem fieldSlice_three {key first : UInt8} {rest : List UInt8} {length : Nat}
    (hfirst : 0x80 ≤ first.toNat) :
    fieldSlice (key :: first :: rest) = some ⟨3, length⟩ ↔
      key.toNat < 0x80 ∧ key.toNat % 8 = 2 ∧
        ∃ second content, rest = second :: content ∧ second.toNat < 0x80 ∧
          first.toNat - 0x80 + 0x80 * second.toNat = length ∧
          length ≤ content.length := by
  rw [fieldSlice_eq_some]
  constructor
  · rintro ⟨key', number, hkey, hkind, hnumber, hslice, hfits⟩
    have hwidth := readGroups_width hnumber
    obtain ⟨hstart, rfl⟩ := Slice.mk.inj hslice
    rcases readGroups_cases hkey with ⟨hbyte, rfl⟩ | ⟨_, inner, hinner, rfl⟩
    · obtain ⟨_, second, content, rfl, hsecond, hvalue⟩ :=
        readVarint_two hnumber (by simp only at hstart; omega)
      simp only [List.length_cons] at hfits
      exact ⟨hbyte, hkind, second, content, rfl, hsecond, hvalue.symm, by omega⟩
    · have hmore := (readGroups_width hinner).1
      have htwo : inner.2 = 1 := by
        simp only at hstart
        omega
      rcases readGroups_cases hinner with ⟨hlast, _⟩ | ⟨_, deep, hdeep, rfl⟩
      · omega
      · have hone := (readGroups_width hdeep).1
        simp only at htwo
        omega
  · rintro ⟨hkey, hkind, second, content, rfl, hsecond, rfl, hfits⟩
    refine ⟨(key.toNat, 1), (first.toNat - 0x80 + 0x80 * second.toNat, 2),
      readVarint_last hkey, hkind, ?_, rfl, ?_⟩
    · rw [List.drop_one, List.tail_cons, readVarint_more (by omega)]
      rw [readGroups, if_pos hsecond]
      rfl
    · simp only [List.length_cons]
      omega

end Parts

section Sites

variable {body : List UInt8}

/-- The message of a frame that ends with the body. -/
theorem WholeFrame.of (hwhole : WholeFrame body) :
    (⟨5, ofBigEndian ((body.drop 1).take 4)⟩ : Slice).of body =
      body.drop 5 := by
  apply List.take_of_length_le
  rw [List.length_drop, hwhole]
  exact Nat.le_of_eq (Nat.add_sub_cancel_left ..)

theorem transaction_takes_iff (hbody : body.length < 2 ^ 32) :
    transactionSlice body = .ok (grpcSlice body) ↔ WholeFrame body := by
  unfold transactionSlice WholeFrame
  by_cases hheader : 5 ≤ body.length
  · rw [unpackSlice_behind hheader hbody]
    constructor
    · intro htaken
      obtain ⟨hslice, hfits⟩ := grpcSlice_eq_some.mp (Except.ok.inj htaken).symm
      have hlength := (Slice.mk.inj hslice).2
      omega
    · intro hwhole
      have hslice : grpcSlice body = some ⟨5, body.length - 5⟩ := by
        rw [grpcSlice_eq_some]
        constructor
        · rw [Slice.mk.injEq]
          omega
        · omega
      rw [hslice]
  · rw [unpackSlice_short (by omega) (by decide)]
    constructor
    · intro htaken
      cases htaken
    · intro hwhole
      omega

theorem txPayload_takes_iff (data : List UInt8) :
    txPayloadSlice data = .ok (fieldSlice data) ↔ ShortField data := by
  match data with
  | [] => exact ⟨(nomatch ·), False.elim⟩
  | [key] => exact ⟨(nomatch ·), False.elim⟩
  | key :: first :: rest =>
      unfold txPayloadSlice ShortField
      dsimp only [List.getElem?_cons_succ, List.getElem?_cons_zero]
      by_cases hfirst : 0x80 ≤ first.toNat
      · rw [if_pos ((and_0x80_iff first).mpr hfirst)]
        match rest with
        | [] =>
            constructor
            · intro htaken
              cases htaken
            · rintro ⟨_, _, hone | ⟨_, _, _, hnil, _⟩⟩
              · omega
              · cases hnil
        | second :: content =>
            dsimp only [List.getElem?_cons_zero]
            rw [unpackSlice_eq_ok, fieldSlice_three hfirst,
              toNat_and_0x7F hfirst, Nat.shiftLeft_eq]
            constructor
            · rintro ⟨_, hkey, hkind, second', content', heq, hsecond, _, hfits⟩
              obtain ⟨rfl, rfl⟩ := List.cons.inj heq
              refine ⟨hkey, hkind, .inr ⟨hfirst, second, content, rfl, hsecond, ?_⟩⟩
              omega
            · rintro ⟨hkey, hkind, hone | ⟨_, second', content', heq, hsecond, hfits⟩⟩
              · omega
              · obtain ⟨rfl, rfl⟩ := List.cons.inj heq
                simp only [List.length_cons]
                refine ⟨by omega, hkey, hkind, second, content, rfl, hsecond, ?_, ?_⟩
                · omega
                · omega
      · rw [if_neg (mt (and_0x80_iff first).mp hfirst), unpackSlice_eq_ok,
          fieldSlice_two]
        constructor
        · rintro ⟨_, key', first', content, heq, hkey, hkind, hshort, _, hfits⟩
          obtain ⟨rfl, hrest⟩ := List.cons.inj heq
          obtain ⟨rfl, rfl⟩ := List.cons.inj hrest
          exact ⟨hkey, hkind, .inl ⟨hshort, hfits⟩⟩
        · rintro ⟨hkey, hkind, ⟨hshort, hfits⟩ | ⟨hlong, _⟩⟩
          · simp only [List.length_cons]
            exact ⟨by omega, key, first, rest, rfl, hkey, hkind, hshort, rfl, hfits⟩
          · exact absurd hlong hfirst

/-- The frame and the field of the orderer's body, taken off in one cut. -/
theorem response_takes_iff (hbody : body.length < 2 ^ 32) :
    responseSlice body = .ok (framedFieldSlice body) ↔
      WholeFrame body ∧ WholeField (body.drop 5) := by
  unfold responseSlice
  by_cases hheader : 7 ≤ body.length
  · rw [unpackSlice_behind hheader hbody]
    constructor
    · intro htaken
      have hslice := (Except.ok.inj htaken).symm
      obtain ⟨message, hmessage, hslice⟩ := Option.bind_eq_some_iff.mp hslice
      obtain ⟨field, hfield, hslice⟩ := Option.bind_eq_some_iff.mp hslice
      obtain ⟨rfl, hfits⟩ := grpcSlice_eq_some.mp hmessage
      obtain ⟨hstart, hlength⟩ := Slice.mk.inj (Option.some.inj hslice)
      obtain ⟨start, length⟩ := field
      dsimp only at hstart hlength hfield
      obtain rfl : start = 2 := by omega
      subst hlength
      obtain ⟨key, first, content, hbytes, hkey, hkind, hfirst, hvalue, hfield⟩ :=
        fieldSlice_two.mp hfield
      have hcount := congrArg List.length hbytes
      simp only [Slice.of, List.length_take, List.length_drop,
        List.length_cons] at hcount
      have hwhole : WholeFrame body := by
        unfold WholeFrame
        omega
      refine ⟨hwhole, ?_⟩
      rw [hwhole.of] at hbytes
      rw [hbytes]
      exact ⟨hkey, hkind, hfirst, by omega⟩
    · rintro ⟨hwhole, hfield⟩
      have hfieldSlice : fieldSlice (body.drop 5) =
          some ⟨2, body.length - 7⟩ := by
        have hcount := List.length_drop (i := 5) (l := body)
        obtain ⟨key, first, content, hbytes⟩ := hfield.bytes
        rw [hbytes] at hfield hcount ⊢
        obtain ⟨hkey, hkind, hfirst, hvalue⟩ := hfield
        simp only [List.length_cons] at hcount
        exact fieldSlice_two.mpr ⟨key, first, content, rfl, hkey, hkind,
          hfirst, by omega, by omega⟩
      have hmessage : grpcSlice body = some ⟨5, body.length - 5⟩ := by
        rw [grpcSlice_eq_some]
        unfold WholeFrame at hwhole
        constructor
        · rw [Slice.mk.injEq]
          omega
        · omega
      have hof : (⟨5, body.length - 5⟩ : Slice).of body = body.drop 5 :=
        List.take_of_length_le (List.length_drop ..).le
      simp only [framedFieldSlice, hmessage, hof, hfieldSlice,
        Option.bind_eq_bind, Option.bind_some]
      rfl
  · rw [unpackSlice_short (by omega) (by decide)]
    constructor
    · intro htaken
      cases htaken
    · rintro ⟨hwhole, hfield⟩
      have hshort : (body.drop 5).length < 2 := by
        rw [List.length_drop]
        omega
      obtain ⟨key, first, content, hbytes⟩ := hfield.bytes
      rw [hbytes, List.length_cons, List.length_cons] at hshort
      omega

end Sites

/-- Each place takes what the wrapper denotes under its condition only. -/
theorem takes_iff (site : CutSite) (body : ResponseBody) :
    site.taken body.1 = .ok (site.denoted body.1) ↔ site.TakesWhen body.1 := by
  cases site with
  | transaction => exact transaction_takes_iff body.2
  | txPayload => exact txPayload_takes_iff body.1
  | response => exact response_takes_iff body.2

theorem shortField_lengthField {content : List UInt8}
    (hcontent : content.length < 2 ^ 14) :
    ShortField (lengthField 1 content) := by
  have hlow (n : Nat) (hn : n < 256) : (UInt8.ofNat n).toNat = n :=
    toNat_byte hn
  by_cases hshort : content.length < 0x80
  · have hfield : lengthField 1 content =
        10 :: UInt8.ofNat content.length :: content := by
      rw [lengthField, varint, varintGroups, if_pos hshort]
      rfl
    rw [hfield]
    have hfirst := hlow content.length (by omega)
    exact ⟨by decide, by decide, .inl ⟨by omega, by omega⟩⟩
  · have hlast : content.length / 0x80 < 0x80 := by omega
    have hfield : lengthField 1 content =
        10 :: UInt8.ofNat (content.length % 0x80 + 0x80) ::
          UInt8.ofNat (content.length / 0x80) :: content := by
      rw [lengthField, varint, varintGroups, if_neg hshort, varintGroups,
        if_pos hlast]
      rfl
    rw [hfield]
    have hfirst := hlow (content.length % 0x80 + 0x80) (by omega)
    have hsecond := hlow (content.length / 0x80) (by omega)
    exact ⟨by decide, by decide, .inr ⟨by omega, _, _, rfl, by omega, by omega⟩⟩

/-- The payload of a response is taken whole while its length needs two groups
of bits at most. -/
theorem txPayload_takes_lengthField {content : List UInt8}
    (hcontent : content.length < 2 ^ 14) :
    ∃ slice, txPayloadSlice (lengthField 1 content) = .ok (some slice) ∧
      slice.of (lengthField 1 content) = content := by
  obtain ⟨slice, hslice, hof⟩ := @fieldSlice_lengthField 1 content []
    (by decide) (Nat.lt_trans hcontent (by decide))
  rw [List.append_nil] at hslice hof
  refine ⟨slice, ?_, hof⟩
  rw [(txPayload_takes_iff _).mpr (shortField_lengthField hcontent), hslice]

/-- A body shorter than its header, a field that is longer than the payload,
and an orderer's field with a length of two bytes. -/
theorem not_takes :
    CutSite.taken .transaction [] ≠ .ok (CutSite.denoted .transaction []) ∧
      CutSite.taken .txPayload [10, 5] ≠
        .ok (CutSite.denoted .txPayload [10, 5]) ∧
      CutSite.taken .response
          ([0, 0, 0, 0, 131, 10, 128, 1] ++ List.replicate 128 0) ≠
        .ok (CutSite.denoted .response
          ([0, 0, 0, 0, 131, 10, 128, 1] ++ List.replicate 128 0)) := by
  decide +kernel

end BoatFramework
