/-
`UtilityGetTLV`: the first tag, length and value of a buffer.  The buffer is the
bytes of the stated length and whatever stands behind them; reading behind both
is undefined.
-/
import BoatFramework.Base.Der
import BoatFramework.Base.Exec
import BoatFramework.Utility.Result

namespace BoatFramework

open ByteString Der

/-- `input[i]`. -/
def byteAt (input : List UInt8) (i : Nat) : Outcome UInt8 :=
  match input[i]? with
  | some byte => .ok byte
  | none => .error .undefined

/-- `TLVStruct`; the data is a place in the buffer. -/
structure TLVStruct where
  tag : UInt8
  llen : Nat
  len : Nat
  data : Nat
deriving DecidableEq, Repr

/-- `UtilityGetTLV_LL`. -/
def utilityGetTLVLL (input : List UInt8) : Outcome Int := do
  let first ← byteAt input 1
  if first < 0x80 then return 1
  else if first = 0x81 then return 2
  else if first = 0x82 then return 3
  else return -1

/-- `UtilityGetTLV_L`. -/
def utilityGetTLVL (input : List UInt8) : Outcome Int := do
  let first ← byteAt input 1
  if first &&& 0x80 = 0 then return first.toNat
  else if first = 0x81 then return (← byteAt input 2).toNat
  else if first = 0x82 then
    let high ← byteAt input 2
    let low ← byteAt input 3
    return ((high.toNat <<< 8 ||| low.toNat : Nat) : Int)
  else return -1

/-- `UtilityGetTLV`.  Its length is unsigned, so that no length is below 0. -/
def utilityGetTLV (input : List UInt8) (inputlen : Nat) : Outcome TLVStruct := do
  let ll ← utilityGetTLVLL input
  if ll < 0 then boatThrow boatError
  let len := ((← utilityGetTLVL input) % 2 ^ 32).toNat
  if buint32 (len + ll.toNat + 1) > inputlen then boatThrow boatError
  let tag ← byteAt input 0
  return ⟨tag, ll.toNat, len, 1 + ll.toNat⟩

/-- A buffer begins with a tag and the octets of a length, and the value ends
inside the stated length. -/
structure HeaderFits (input : List UInt8) (inputlen : Nat) (octets : List UInt8)
    (tlv : TLVStruct) : Prop where
  octets_length : LengthOctets octets tlv.len
  short : octets.length ≤ 3
  starts : tlv.tag :: octets <+: input
  fits : 1 + octets.length + tlv.len ≤ inputlen
  llen : tlv.llen = octets.length
  data : tlv.data = 1 + octets.length

section Header

variable {tag first : UInt8} {rest octets : List UInt8} {len : Nat}

theorem and_top_bit_eq_zero (byte : UInt8) :
    byte &&& 0x80 = 0 ↔ byte < 0x80 := by
  have hall : ∀ n : Fin 256, (UInt8.ofNat n.val &&& 0x80 = 0 ↔
      UInt8.ofNat n.val < 0x80) := by decide +kernel
  have hbyte := hall ⟨byte.toNat, byte.toNat_lt⟩
  rwa [UInt8.ofNat_toNat] at hbyte

theorem ofBigEndian_singleton (byte : UInt8) :
    ofBigEndian [byte] = byte.toNat := by
  simp [ofBigEndian]

theorem ofBigEndian_pair (high low : UInt8) :
    ofBigEndian [high, low] = high.toNat <<< 8 ||| low.toNat := by
  have hlow : low.toNat < 2 ^ 8 := low.toNat_lt
  rw [ofBigEndian_cons, ofBigEndian_singleton, List.length_singleton,
    Nat.pow_one, ← Nat.shiftLeft_add_eq_or_of_lt hlow, Nat.shiftLeft_eq]

/-- The readers by the first octet of the length. -/
theorem utilityGetTLVLL_cons : utilityGetTLVLL (tag :: first :: rest) =
    .ok (if first < 0x80 then 1 else if first = 0x81 then 2
      else if first = 0x82 then 3 else -1) := by
  change (if first < 0x80 then Except.ok 1 else if first = 0x81 then .ok 2
    else if first = 0x82 then .ok 3 else .ok (-1)) = _
  split
  · rfl
  · split
    · rfl
    · split <;> rfl

theorem utilityGetTLVL_short (hfirst : first < 0x80) :
    utilityGetTLVL (tag :: first :: rest) = .ok (first.toNat : Int) :=
  if_pos ((and_top_bit_eq_zero first).mpr hfirst)

theorem utilityGetTLVL_one : utilityGetTLVL (tag :: 0x81 :: rest) =
    match rest with
    | byte :: _ => .ok (byte.toNat : Int)
    | [] => .error .undefined := by
  cases rest <;> rfl

theorem utilityGetTLVL_two : utilityGetTLVL (tag :: 0x82 :: rest) =
    match rest with
    | high :: low :: _ => .ok ((high.toNat <<< 8 ||| low.toNat : Nat) : Int)
    | _ => .error .undefined := by
  match rest with
  | [] => rfl
  | [_] => rfl
  | _ :: _ :: _ => rfl

/-- The two readers on a length in one of the forms that they know. -/
theorem readers_octets (hoctets : LengthOctets octets len)
    (hshort : octets.length ≤ 3) :
    utilityGetTLVLL (tag :: (octets ++ rest)) = .ok (octets.length : Int) ∧
      utilityGetTLVL (tag :: (octets ++ rest)) = .ok (len : Int) := by
  cases hoctets with
  | short first hfirst =>
      constructor
      · exact utilityGetTLVLL_cons.trans (congrArg _ (if_pos hfirst))
      · exact utilityGetTLVL_short hfirst
  | long digits hcount hlong =>
      match digits, hcount, hshort with
      | [one], _, _ =>
          rw [ofBigEndian_singleton]
          exact ⟨utilityGetTLVLL_cons, utilityGetTLVL_one⟩
      | [high, low], _, _ =>
          rw [ofBigEndian_pair]
          exact ⟨utilityGetTLVLL_cons, utilityGetTLVL_two⟩

/-- A length that both readers accept is in one of these forms. -/
theorem octets_of_readers {input : List UInt8} {ll len : Int}
    (hll : utilityGetTLVLL input = .ok ll) (hpos : ¬ll < 0)
    (hlen : utilityGetTLVL input = .ok len) :
    ∃ tag octets rest, input = tag :: (octets ++ rest) ∧
      LengthOctets octets len.toNat ∧ octets.length ≤ 3 := by
  match input, hll, hlen with
  | [], hll, _ => cases hll
  | [_], hll, _ => cases hll
  | tag :: first :: rest, hll, hlen =>
      rw [utilityGetTLVLL_cons, Except.ok.injEq] at hll
      by_cases hfirst : first < 0x80
      · rw [utilityGetTLVL_short hfirst, Except.ok.injEq] at hlen
        subst hlen
        exact ⟨tag, [first], rest, rfl, .short first hfirst, by simp⟩
      by_cases hone : first = 0x81
      · subst hone
        rw [utilityGetTLVL_one] at hlen
        match rest, hlen with
        | byte :: rest, hlen =>
            obtain rfl := Except.ok.inj hlen
            have hoctets := LengthOctets.long [byte] (by simp) (by simp)
            rw [ofBigEndian_singleton] at hoctets
            exact ⟨tag, [0x81, byte], rest, rfl, hoctets, by simp⟩
      by_cases htwo : first = 0x82
      · subst htwo
        rw [utilityGetTLVL_two] at hlen
        match rest, hlen with
        | high :: low :: rest, hlen =>
            obtain rfl := Except.ok.inj hlen
            have hoctets := LengthOctets.long [high, low] (by simp) (by simp)
            rw [ofBigEndian_pair] at hoctets
            exact ⟨tag, [0x82, high, low], rest, rfl, hoctets, by simp⟩
      · rw [if_neg hfirst, if_neg hone, if_neg htwo] at hll
        omega

theorem lengthOctets_lt (hoctets : LengthOctets octets len)
    (hshort : octets.length ≤ 3) : len < 0x10000 := by
  cases hoctets with
  | short first hfirst =>
      have hlt := first.toNat_lt
      omega
  | long digits hcount hlong =>
      rw [List.length_cons] at hshort
      have hlt := ofBigEndian_lt digits
      have hpow : 256 ^ digits.length ≤ 256 ^ 2 :=
        Nat.pow_le_pow_right (by decide) (by omega)
      omega

/-- The run on a header that it knows. -/
theorem utilityGetTLV_octets (hoctets : LengthOctets octets len)
    (hshort : octets.length ≤ 3) (inputlen : Nat) :
    utilityGetTLV (tag :: (octets ++ rest)) inputlen =
      if inputlen < 1 + octets.length + len then .error (.code boatError)
      else .ok ⟨tag, octets.length, len, 1 + octets.length⟩ := by
  have hlt := lengthOctets_lt hoctets hshort
  obtain ⟨hll, hl⟩ := @readers_octets tag rest octets len hoctets hshort
  have hpos : ¬(octets.length : Int) < 0 := by omega
  have hmod : ((len : Int) % 2 ^ 32).toNat = len := by omega
  have hsum : buint32 (len + octets.length + 1) = 1 + octets.length + len := by
    rw [buint32_of_lt] <;> omega
  rw [utilityGetTLV, hll, Exec.except_ok_bind]
  simp only [if_neg hpos, hl, Exec.except_ok_bind, hmod, Int.toNat_natCast,
    hsum, gt_iff_lt]
  split <;> rfl

end Header

section Success

variable {input bytes : List UInt8} {inputlen : Nat} {tlv : TLVStruct}

/-- The run succeeds on the headers that both readers know, when the value ends
inside the stated length. -/
theorem utilityGetTLV_eq_ok :
    utilityGetTLV input inputlen = .ok tlv ↔
      ∃ octets, HeaderFits input inputlen octets tlv := by
  constructor
  · intro hrun
    obtain ⟨ll, hll, hrest⟩ := Exec.except_bind_eq_ok.mp hrun
    by_cases hpos : ll < 0
    · rw [if_pos hpos] at hrest
      cases hrest
    rw [if_neg hpos] at hrest
    obtain ⟨len, hlen, -⟩ := Exec.except_bind_eq_ok.mp hrest
    obtain ⟨tag, octets, rest, rfl, hoctets, hshort⟩ :=
      octets_of_readers hll hpos hlen
    rw [utilityGetTLV_octets hoctets hshort] at hrun
    split at hrun
    next => cases hrun
    next hfits =>
      obtain rfl := Except.ok.inj hrun
      exact ⟨octets, hoctets, hshort, ⟨rest, rfl⟩, Nat.not_lt.mp hfits, rfl,
        rfl⟩
  · rintro ⟨octets, hheader⟩
    obtain ⟨rest, rfl⟩ := hheader.starts
    rw [List.cons_append, utilityGetTLV_octets hheader.octets_length hheader.short,
      if_neg (Nat.not_lt.mpr hheader.fits), ← hheader.data, ← hheader.llen]

end Success

/-- What a result says of the tag, length and value that bytes begin with. -/
structure Describes (bytes : List UInt8) (tlv : TLVStruct)
    (octets value : List UInt8) : Prop where
  complete : Complete bytes tlv.tag octets value
  llen : tlv.llen = octets.length
  len : tlv.len = value.length
  data : tlv.data = 1 + octets.length
  value : (bytes.drop tlv.data).take tlv.len = value

/-- The octets in front of a value that the second byte announces. -/
def announced (bytes : List UInt8) : Nat :=
  if bytes.getD 1 0 = 0x81 then 3
  else if bytes.getD 1 0 = 0x82 then 4
  else 2

section Decides

variable {bytes beyond octets : List UInt8} {tlv : TLVStruct}

theorem describes_of_headerFits
    (hheader : HeaderFits (bytes ++ beyond) bytes.length octets tlv) :
    ∃ value, Describes bytes tlv octets value := by
  have hfits := hheader.fits
  have hstarts : tlv.tag :: octets <+: bytes := by
    apply List.prefix_of_prefix_length_le hheader.starts
      (List.prefix_append bytes beyond)
    rw [List.length_cons]
    omega
  obtain ⟨rest, hbytes⟩ := hstarts
  have hlen : (rest.take tlv.len).length = tlv.len := by
    rw [← hbytes, List.length_append, List.length_cons] at hfits
    rw [List.length_take]
    omega
  refine ⟨rest.take tlv.len, ⟨?_, ?_⟩, hheader.llen, hlen.symm, hheader.data,
    ?_⟩
  · rw [hlen]
    exact hheader.octets_length
  · rw [← hbytes, ← List.cons_append]
    exact (List.prefix_append_right_inj _).mpr (List.take_prefix _ _)
  · rw [hheader.data, ← hbytes, Nat.add_comm, ← List.length_cons,
      List.drop_left]

theorem headerFits_of_describes {value : List UInt8}
    (hshort : octets.length ≤ 3) (hdescribes : Describes bytes tlv octets value) :
    HeaderFits (bytes ++ beyond) bytes.length octets tlv := by
  obtain ⟨hcomplete, hllen, hlen, hdata, -⟩ := hdescribes
  obtain ⟨rest, hbytes⟩ := hcomplete.starts
  refine ⟨hlen ▸ hcomplete.octets_length, hshort, ?_, ?_, hllen, hdata⟩
  · exact ⟨value ++ (rest ++ beyond), by rw [← hbytes]; simp⟩
  · rw [← hbytes, hlen]
    simp only [List.length_append, List.length_cons]
    omega

/-- Where the header is inside the stated length, nothing behind is read. -/
theorem utilityGetTLV_inside (hinside : announced bytes ≤ bytes.length) :
    utilityGetTLV bytes bytes.length ≠ .error .undefined := by
  have hknown {tag : UInt8} {octets rest : List UInt8} {len : Nat}
      (hoctets : LengthOctets octets len) (hshort : octets.length ≤ 3)
      (inputlen : Nat) :
      utilityGetTLV (tag :: (octets ++ rest)) inputlen ≠ .error .undefined := by
    rw [utilityGetTLV_octets hoctets hshort]
    split <;> simp
  unfold announced at hinside
  match bytes, hinside with
  | [], hinside => simp at hinside
  | [_], hinside => simp at hinside
  | tag :: first :: rest, hinside =>
      rw [List.getD_cons_succ, List.getD_cons_zero] at hinside
      by_cases hfirst : first < 0x80
      · exact hknown (.short first hfirst) (by simp) _
      by_cases hone : first = 0x81
      · subst hone
        match rest, hinside with
        | byte :: rest, _ =>
            exact hknown (.long [byte] (by simp) (by simp)) (by simp) _
      by_cases htwo : first = 0x82
      · subst htwo
        match rest, hinside with
        | high :: low :: rest, _ =>
            exact hknown (.long [high, low] (by simp) (by simp)) (by simp) _
      · rw [utilityGetTLV, utilityGetTLVLL_cons, if_neg hfirst, if_neg hone,
          if_neg htwo, Exec.except_ok_bind]
        exact fun hrun => Failure.noConfusion (Except.error.inj hrun)

/-- The first tag, length and value of a buffer, if they are complete and the
length takes three octets at most. -/
theorem utilityGetTLV_decides (bytes beyond : List UInt8) :
    (∀ tlv, utilityGetTLV (bytes ++ beyond) bytes.length = .ok tlv ↔
      ∃ octets value, octets.length ≤ 3 ∧ Describes bytes tlv octets value) ∧
    (announced bytes ≤ bytes.length →
      utilityGetTLV bytes bytes.length ≠ .error .undefined) := by
  constructor
  · intro tlv
    rw [utilityGetTLV_eq_ok]
    constructor
    · rintro ⟨octets, hheader⟩
      obtain ⟨value, hdescribes⟩ := describes_of_headerFits hheader
      exact ⟨octets, value, hheader.short, hdescribes⟩
    · rintro ⟨octets, value, hshort, hdescribes⟩
      exact ⟨octets, headerFits_of_describes hshort hdescribes⟩
  · exact utilityGetTLV_inside

end Decides

/-- A boolean value is found and nothing behind it is read. -/
theorem utilityGetTLV_decides_boolean :
    utilityGetTLV ([0x01, 0x01, 0xFF] ++ [0x05]) 3 = .ok ⟨0x01, 1, 1, 2⟩ ∧
      utilityGetTLV [0x01, 0x01, 0xFF] 3 ≠ .error .undefined := by
  have hdecides := utilityGetTLV_decides [0x01, 0x01, 0xFF] [0x05]
  refine ⟨(hdecides.1 _).mpr ⟨[1], [0xFF], by decide, ⟨?_, ?_⟩, rfl, rfl, rfl,
    rfl⟩, hdecides.2 (by decide)⟩
  · exact LengthOctets.short 1 (by decide)
  · exact ⟨[], rfl⟩

/-- A value behind a length of three octets is complete, and refused. -/
theorem not_utilityGetTLV_decides :
    ¬ ∀ bytes beyond : List UInt8,
      (∀ tlv, utilityGetTLV (bytes ++ beyond) bytes.length = .ok tlv ↔
        ∃ octets value, Describes bytes tlv octets value) ∧
      utilityGetTLV bytes bytes.length ≠ .error .undefined := by
  intro hclaim
  have hsuccess := (hclaim [0x04, 0x83, 0x00, 0x00, 0x01, 0x05] []).1
    ⟨0x04, 4, 1, 5⟩
  have hoctets : LengthOctets [0x83, 0x00, 0x00, 0x01] 1 :=
    .long [0x00, 0x00, 0x01] (by decide) (by decide)
  have hrun := hsuccess.mpr ⟨[0x83, 0x00, 0x00, 0x01], [0x05],
    ⟨hoctets, ⟨[], rfl⟩⟩, rfl, rfl, rfl, rfl⟩
  exact absurd hrun (by decide)

end BoatFramework
