/-
`add_L_withOffset` and `add_TL_withOffset`: a value that stands at an offset of
a buffer moves behind its length, over a scratch block of the value's size.
-/
import BoatFramework.Base.Exec
import BoatFramework.Utility.LengthBytes

namespace BoatFramework

/-- The result of a call and what it leaves of buffer and offset. -/
structure Prefixing where
  result : Int
  pbBuff : List UInt8
  nOffset : Nat
deriving DecidableEq, Repr

/-- The end of both functions: a value goes over `buf` behind `bTLV`. -/
def prependTL (buf pbBuff : List UInt8) (nOffset nLen : Nat)
    (bTLV : List UInt8) : Outcome Prefixing := do
  let nTLLen := bTLV.length
  let result := bsint32 (buint32 (nLen + nTLLen))
  if nLen ≠ 0 then
    let buf ← storeAt buf 0 (← loadAt pbBuff nOffset nLen)
    let pbBuff ← storeAt pbBuff nOffset bTLV
    let pbBuff ← storeAt pbBuff (nOffset + nTLLen) (← loadAt buf 0 nLen)
    return ⟨result, pbBuff, buint32 (nOffset + (nLen + nTLLen))⟩
  return ⟨result, pbBuff, nOffset⟩

/-- `add_L_withOffset` over the whole buffer. -/
def addLWithOffsetAt (malloc : Nat → Bool) (pbBuff : List UInt8)
    (nOffset nLen : Nat) : Outcome Prefixing :=
  if malloc nLen then
    prependTL (List.replicate nLen 0) pbBuff nOffset nLen (lengthBytes nLen)
  else .ok ⟨-1, pbBuff, nOffset⟩

/-- `BoAT_ASN1_BIT_STRING`. -/
def boatAsn1BitString : UInt8 := 0x03

/-- `add_TL_withOffset`.  A bit string is moved behind a zero byte first. -/
def addTLWithOffset (malloc : Nat → Bool) (bTag : UInt8) (pbBuff : List UInt8)
    (nOffset nLen : Nat) : Outcome Prefixing :=
  if malloc nLen then
    let buf := List.replicate nLen 0
    if bTag = boatAsn1BitString then do
      let buf ← storeAt buf 0 (← loadAt pbBuff nOffset nLen)
      let pbBuff ← storeAt pbBuff (nOffset + 1) (← loadAt buf 0 nLen)
      let nLen := buint32 (nLen + 1)
      let pbBuff ← storeAt pbBuff nOffset [0x00]
      prependTL buf pbBuff nOffset nLen (bTag :: lengthBytes nLen)
    else prependTL buf pbBuff nOffset nLen (bTag :: lengthBytes nLen)
  else .ok ⟨-1, pbBuff, nOffset⟩

/-- A length that the reader can return. -/
def Representable (len : Nat) : Prop :=
  ∃ input : List UInt8, utilityGetLVDataL input = len

/-- A value stands behind a tag, its length and the zero byte of a bit string,
and nothing else in the buffer has changed. -/
structure Prefixed (pbBuff : List UInt8) (nOffset nLen : Nat)
    (tag zero : List UInt8) (left : Prefixing)
    (before value gap rest octets : List UInt8) : Prop where
  buffer : pbBuff = before ++ (value ++ gap) ++ rest
  place : before.length = nOffset
  length : value.length = nLen
  written : left.pbBuff =
    before ++ (tag ++ octets ++ (zero ++ value)) ++ rest
  inside : gap.length = tag.length + octets.length + zero.length
  predicted : octets.length = utilityGetTLVLLFromLen (nLen + zero.length)
  read : ∀ more, utilityGetLVDataL (octets ++ more) =
    (nLen + zero.length : Nat)
  offset : left.nOffset = nOffset + gap.length + nLen
  result : left.result = (gap.length + nLen : Nat)

/-- A length that can be represented is written, and any other refused. -/
def PrefixesRight (run : Outcome Prefixing) (pbBuff : List UInt8)
    (nOffset nLen : Nat) (tag zero : List UInt8) : Prop :=
  (Representable (nLen + zero.length) → ∃ left before value gap rest octets,
    run = .ok left ∧
      Prefixed pbBuff nOffset nLen tag zero left before value gap rest octets) ∧
  (¬Representable (nLen + zero.length) → run = .ok ⟨-1, pbBuff, nOffset⟩)

/-- A call of the two functions that goes well: there is memory, and the value
and what is put in front of it end in the buffer and below 2^32. -/
structure Fitting (malloc : Nat → Bool) (pbBuff : List UInt8)
    (nOffset nLen front : Nat) : Prop where
  granted : malloc nLen = true
  nonempty : 0 < nLen
  inside : nOffset + front + nLen ≤ pbBuff.length
  counted : nOffset + front + nLen < 2 ^ 32

theorem representable_iff (len : Nat) : Representable len ↔ len < 0x10000 := by
  constructor
  · rintro ⟨input, hread⟩
    unfold utilityGetLVDataL at hread
    have hhigh := (input.getD 1 0).toNat_lt
    have hlow := (input.getD 2 0).toNat_lt
    have hfirst := (input.getD 0 0).toNat_lt
    split at hread
    · omega
    · split at hread
      · omega
      · split at hread
        · have hor : (input.getD 1 0).toNat <<< 8 ||| (input.getD 2 0).toNat <
              2 ^ 16 := by
            apply Nat.or_lt_two_pow
            · rw [Nat.shiftLeft_eq]
              omega
            · omega
          omega
        · omega
  · intro hlen
    exact ⟨_, utilityGetLVDataL_header hlen []⟩

section Prepend

variable {buf before value gap rest bTLV : List UInt8}

/-- The end of both functions where there is room. -/
theorem prependTL_fits (hbuf : buf.length = value.length) (hne : value ≠ [])
    (hgap : gap.length = bTLV.length) :
    prependTL buf (before ++ (value ++ gap) ++ rest) before.length value.length
        bTLV =
      .ok ⟨bsint32 (buint32 (value.length + bTLV.length)),
        before ++ (bTLV ++ value) ++ rest,
        buint32 (before.length + (value.length + bTLV.length))⟩ := by
  have hload : loadAt (before ++ (value ++ gap) ++ rest) before.length
      value.length = .ok value := by
    have hwhole := loadAt_append before value (gap ++ rest)
    simpa using hwhole
  have hcopy : storeAt buf 0 value = .ok value := by
    have hwhole := @storeAt_append [] [] buf value hbuf.symm
    simpa using hwhole
  have hback : loadAt value 0 value.length = .ok value := by
    have hwhole := loadAt_append [] value []
    simpa using hwhole
  have hlength : value.length ≠ 0 :=
    fun hzero => hne (List.length_eq_zero_iff.mp hzero)
  have hfront : ((value ++ gap).take bTLV.length).length = bTLV.length := by
    rw [List.length_take, List.length_append]
    omega
  have hmoved : ((value ++ gap).drop bTLV.length).length = value.length := by
    rw [List.length_drop, List.length_append]
    omega
  have hstore : storeAt (before ++ (value ++ gap) ++ rest) before.length bTLV =
      .ok (before ++ bTLV ++ ((value ++ gap).drop bTLV.length ++ rest)) := by
    have hwhole := storeAt_append before
      ((value ++ gap).drop bTLV.length ++ rest) hfront.symm
    rw [List.append_assoc before, ← List.append_assoc (List.take _ _),
      List.take_append_drop] at hwhole
    rw [List.append_assoc before]
    exact hwhole
  have hlast : storeAt (before ++ bTLV ++
        ((value ++ gap).drop bTLV.length ++ rest))
      (before.length + bTLV.length) value =
        .ok (before ++ (bTLV ++ value) ++ rest) := by
    have hwhole := storeAt_append (before ++ bTLV) rest hmoved.symm
    rw [List.length_append] at hwhole
    simpa using hwhole
  rw [prependTL, if_pos hlength, hload, Exec.except_ok_bind, hcopy,
    Exec.except_ok_bind, hstore, Exec.except_ok_bind, hback,
    Exec.except_ok_bind, hlast, Exec.except_ok_bind]
  rfl

/-- A run of the end that succeeds does nothing for no bytes, and has room for
any others. -/
theorem prependTL_eq_ok {pbBuff : List UInt8} {nOffset nLen : Nat}
    {left : Prefixing}
    (hrun : prependTL buf pbBuff nOffset nLen bTLV = .ok left) :
    left.result = bsint32 (buint32 (nLen + bTLV.length)) ∧
      (nLen = 0 ∧ left.nOffset = nOffset ∨
        0 < nLen ∧ nLen ≤ buf.length ∧
          nOffset + bTLV.length + nLen ≤ pbBuff.length ∧
          left.nOffset = buint32 (nOffset + (nLen + bTLV.length))) := by
  by_cases hzero : nLen = 0
  · rw [prependTL, if_neg (not_not.mpr hzero)] at hrun
    simp only [pure, Except.pure, Except.ok.injEq] at hrun
    subst hrun
    dsimp only
    exact ⟨rfl, .inl ⟨hzero, rfl⟩⟩
  · rw [prependTL, if_pos hzero] at hrun
    obtain ⟨value, hload, hrun⟩ := Exec.except_bind_eq_ok.mp hrun
    obtain ⟨copied, hcopy, hrun⟩ := Exec.except_bind_eq_ok.mp hrun
    obtain ⟨fronted, hfront, hrun⟩ := Exec.except_bind_eq_ok.mp hrun
    obtain ⟨moved, hback, hrun⟩ := Exec.except_bind_eq_ok.mp hrun
    obtain ⟨written, hwrite, hrun⟩ := Exec.except_bind_eq_ok.mp hrun
    simp only [pure, Except.pure, Except.ok.injEq] at hrun
    subst hrun
    have hvalue := (length_of_loadAt hload).2
    have hcopied := (storeAt_eq_ok hcopy).1
    have hmoved := (length_of_loadAt hback).2
    have hwritten := (storeAt_eq_ok hwrite).1
    have hfronted := length_of_storeAt hfront
    dsimp only
    exact ⟨rfl, .inr ⟨by omega, by omega, by omega, rfl⟩⟩

end Prepend

/-- What the two functions do with a value that is no bit string. -/
def prefixRun (malloc : Nat → Bool) (pbBuff : List UInt8)
    (nOffset nLen : Nat) (tag : List UInt8) : Outcome Prefixing :=
  if malloc nLen then
    prependTL (List.replicate nLen 0) pbBuff nOffset nLen
      (tag ++ lengthBytes nLen)
  else .ok ⟨-1, pbBuff, nOffset⟩

section Right

variable {malloc : Nat → Bool} {pbBuff tag : List UInt8} {nOffset nLen : Nat}

theorem prefixed_of_fitting (htag : tag.length ≤ 1) (hlen : nLen < 0x10000)
    (hfitting : Fitting malloc pbBuff nOffset nLen
      (tag.length + utilityGetTLVLLFromLen nLen)) :
    ∃ left before value gap rest octets,
      prefixRun malloc pbBuff nOffset nLen tag = .ok left ∧
        Prefixed pbBuff nOffset nLen tag [] left before value gap rest
          octets := by
  obtain ⟨hgranted, hpos, hinside, hcounted⟩ := hfitting
  have hoctets := length_lengthBytes nLen
  have hle := utilityGetTLVLLFromLen_le nLen
  generalize hcount : tag.length + utilityGetTLVLLFromLen nLen = count
    at hinside hcounted
  have hplace : (pbBuff.take nOffset).length = nOffset := by
    rw [List.length_take]
    omega
  have hlength : ((pbBuff.drop nOffset).take nLen).length = nLen := by
    rw [List.length_take, List.length_drop]
    omega
  have hgap : ((pbBuff.drop (nOffset + nLen)).take count).length = count := by
    rw [List.length_take, List.length_drop]
    omega
  have hbuffer : pbBuff = pbBuff.take nOffset ++
      ((pbBuff.drop nOffset).take nLen ++
        (pbBuff.drop (nOffset + nLen)).take count) ++
      pbBuff.drop (nOffset + nLen + count) := by
    have hrest := List.take_append_drop count (pbBuff.drop (nOffset + nLen))
    have hvalue := List.take_append_drop nLen (pbBuff.drop nOffset)
    rw [List.drop_drop] at hrest hvalue
    rw [List.append_assoc, List.append_assoc, hrest, hvalue,
      List.take_append_drop]
  generalize pbBuff.take nOffset = before at hplace hbuffer
  generalize (pbBuff.drop nOffset).take nLen = value at hlength hbuffer
  generalize (pbBuff.drop (nOffset + nLen)).take count = gap at hgap hbuffer
  generalize pbBuff.drop (nOffset + nLen + count) = rest at hbuffer
  subst hplace hlength
  have hne : value ≠ [] := List.length_pos_iff.mp hpos
  have hrun := @prependTL_fits (List.replicate value.length 0) before value gap
    rest (tag ++ lengthBytes value.length) List.length_replicate hne
    (by rw [List.length_append]; omega)
  rw [← hbuffer] at hrun
  refine ⟨_, before, value, gap, rest, lengthBytes value.length,
    (if_pos hgranted).trans hrun, hbuffer, rfl, rfl, rfl, ?_, hoctets, ?_, ?_,
    ?_⟩
  · rw [List.length_nil]
    omega
  · intro more
    rw [lengthBytes_eq_header hlen]
    exact utilityGetLVDataL_header hlen more
  · have hsum : before.length + (value.length +
        (tag ++ lengthBytes value.length).length) < 2 ^ 32 := by
      rw [List.length_append]
      omega
    rw [buint32_of_lt hsum, List.length_append]
    dsimp only
    omega
  · dsimp only
    have hsmall : value.length + (tag ++ lengthBytes value.length).length <
        2 ^ 31 := by
      rw [List.length_append]
      omega
    rw [buint32_of_lt (by omega), bsint32_of_lt (by omega) (by omega),
      List.length_append]
    omega

/-- A run that does not refuse its length. -/
theorem prefixRun_fitting {left : Prefixing}
    (hrun : prefixRun malloc pbBuff nOffset nLen tag = .ok left)
    (hleft : left.result ≠ -1) (hmoved : left.nOffset ≠ nOffset) :
    malloc nLen = true ∧ 0 < nLen ∧
      nOffset + (tag.length + utilityGetTLVLLFromLen nLen) + nLen ≤
        pbBuff.length ∧ left.nOffset < 2 ^ 32 := by
  unfold prefixRun at hrun
  split at hrun
  next hgranted =>
    have hoctets := length_lengthBytes nLen
    obtain ⟨-, ⟨-, hstays⟩ | ⟨hpos, -, hinside, hend⟩⟩ := prependTL_eq_ok hrun
    · exact absurd hstays hmoved
    · rw [List.length_append, hoctets] at hinside
      exact ⟨hgranted, hpos, hinside, hend ▸ buint32_lt _⟩
  next =>
    rw [Except.ok.injEq] at hrun
    subst hrun
    exact absurd rfl hleft

/-- A length is refused for want of memory only. -/
theorem prefixRun_refused (htag : tag.length ≤ 1)
    (hrun : prefixRun malloc pbBuff nOffset nLen tag =
      .ok ⟨-1, pbBuff, nOffset⟩) : malloc nLen = false := by
  by_contra hgranted
  have hoctets := length_lengthBytes nLen
  have hle := utilityGetTLVLLFromLen_le nLen
  rw [Bool.not_eq_false] at hgranted
  rw [prefixRun, if_pos hgranted] at hrun
  obtain ⟨hresult, hend⟩ := prependTL_eq_ok hrun
  rw [List.length_append, hoctets] at hresult hend
  dsimp only at hresult hend
  rw [bsint32, buint32, Int.bmod_def] at hresult
  unfold buint32 at hend
  rcases hend with ⟨hzero, -⟩ | ⟨-, -, -, hmoved⟩
  · split at hresult <;> omega
  · split at hresult <;> omega

theorem prefixRun_right_iff (htag : tag.length ≤ 1) :
    PrefixesRight (prefixRun malloc pbBuff nOffset nLen tag) pbBuff nOffset nLen
        tag [] ↔
      nLen < 0x10000 ∧ Fitting malloc pbBuff nOffset nLen
          (tag.length + utilityGetTLVLLFromLen nLen) ∨
        0x10000 ≤ nLen ∧ malloc nLen = false := by
  rw [PrefixesRight, List.length_nil, Nat.add_zero, representable_iff,
    Nat.not_lt]
  constructor
  · rintro ⟨hwrites, hrefuses⟩
    by_cases hlen : nLen < 0x10000
    · obtain ⟨left, before, value, gap, rest, octets, hrun, hprefixed⟩ :=
        hwrites hlen
      have hgap := hprefixed.inside
      have hresult := hprefixed.result
      have hmoved := hprefixed.offset
      have hpredicted := hprefixed.predicted
      rw [List.length_nil, Nat.add_zero] at hgap hpredicted
      have hone : 1 ≤ utilityGetTLVLLFromLen nLen := by
        rw [utilityGetTLVLLFromLen_eq]
        exact (LengthValue.length_header nLen).1
      obtain ⟨hgranted, hpos, hinside, hcounted⟩ := prefixRun_fitting hrun
        (by omega) (by omega)
      exact .inl ⟨hlen, hgranted, hpos, hinside, by omega⟩
    · exact .inr ⟨by omega, prefixRun_refused htag (hrefuses (by omega))⟩
  · rintro (⟨hlen, hfitting⟩ | ⟨hlen, hrefused⟩)
    · refine ⟨fun _ => prefixed_of_fitting htag hlen hfitting, fun hlarge => ?_⟩
      omega
    · refine ⟨fun hsmall => by omega, fun _ => ?_⟩
      rw [prefixRun, hrefused]
      rfl

/-- The scratch block of a bit string has no room for the zero byte, unless the
length wraps around to nothing. -/
theorem bitString_eq_ok {left : Prefixing} (hlen : nLen < 2 ^ 32)
    (hgranted : malloc nLen = true)
    (hrun : addTLWithOffset malloc boatAsn1BitString pbBuff nOffset nLen =
      .ok left) : nLen + 1 = 2 ^ 32 ∧ left.result = 2 := by
  rw [addTLWithOffset, if_pos hgranted] at hrun
  simp only [↓reduceIte] at hrun
  obtain ⟨value, hload, hrun⟩ := Exec.except_bind_eq_ok.mp hrun
  obtain ⟨copied, hcopy, hrun⟩ := Exec.except_bind_eq_ok.mp hrun
  obtain ⟨back, hback, hrun⟩ := Exec.except_bind_eq_ok.mp hrun
  obtain ⟨moved, hmove, hrun⟩ := Exec.except_bind_eq_ok.mp hrun
  obtain ⟨zeroed, hzero, hrun⟩ := Exec.except_bind_eq_ok.mp hrun
  have hcopied := length_of_storeAt hcopy
  rw [List.length_replicate] at hcopied
  obtain ⟨hresult, hend⟩ := prependTL_eq_ok hrun
  have hwraps : nLen + 1 = 2 ^ 32 := by
    by_contra hne
    rw [buint32_of_lt (show nLen + 1 < 2 ^ 32 by omega)] at hend
    omega
  have hnothing : buint32 (nLen + 1) = 0 := by
    rw [hwraps]
    rfl
  rw [hnothing] at hresult
  exact ⟨hwraps, hresult⟩

theorem bitString_right_iff (hlen : nLen < 2 ^ 32) :
    PrefixesRight (addTLWithOffset malloc boatAsn1BitString pbBuff nOffset nLen)
        pbBuff nOffset nLen [boatAsn1BitString] [0] ↔
      0x10000 ≤ nLen + 1 ∧ malloc nLen = false := by
  have hrefused (hfalse : malloc nLen = false) :
      addTLWithOffset malloc boatAsn1BitString pbBuff nOffset nLen =
        .ok ⟨-1, pbBuff, nOffset⟩ := by
    rw [addTLWithOffset, hfalse]
    rfl
  rw [PrefixesRight, List.length_singleton, representable_iff, Nat.not_lt]
  constructor
  · rintro ⟨hwrites, hrefuses⟩
    cases hmalloc : malloc nLen with
    | false =>
        refine ⟨?_, rfl⟩
        by_contra hsmall
        obtain ⟨left, before, value, gap, rest, octets, hrun, hprefixed⟩ :=
          hwrites (by omega)
        have hresult := hprefixed.result
        rw [hrefused hmalloc, Except.ok.injEq] at hrun
        rw [← hrun] at hresult
        dsimp only at hresult
        omega
    | true =>
        by_cases hsmall : nLen + 1 < 0x10000
        · obtain ⟨left, before, value, gap, rest, octets, hrun, -⟩ :=
            hwrites hsmall
          have hwraps := (bitString_eq_ok hlen hmalloc hrun).1
          omega
        · have hrun := hrefuses (by omega)
          have hresult := (bitString_eq_ok hlen hmalloc hrun).2
          cases hresult
  · rintro ⟨hlarge, hfalse⟩
    exact ⟨fun hsmall => by omega, fun _ => hrefused hfalse⟩

/-- The two functions prefix a value right when they have memory and room and
the value is neither empty nor too long nor a bit string, and refuse a length
that cannot be represented only for want of memory. -/
theorem prefixesRight_iff (malloc : Nat → Bool) (bTag : UInt8)
    (pbBuff : List UInt8) (nOffset : Nat) (hlen : nLen < 2 ^ 32) :
    (PrefixesRight (addLWithOffsetAt malloc pbBuff nOffset nLen) pbBuff nOffset
        nLen [] [] ↔
      nLen < 0x10000 ∧ Fitting malloc pbBuff nOffset nLen
          (utilityGetTLVLLFromLen nLen) ∨
        0x10000 ≤ nLen ∧ malloc nLen = false) ∧
    (bTag ≠ boatAsn1BitString →
      (PrefixesRight (addTLWithOffset malloc bTag pbBuff nOffset nLen) pbBuff
          nOffset nLen [bTag] [] ↔
        nLen < 0x10000 ∧ Fitting malloc pbBuff nOffset nLen
            (1 + utilityGetTLVLLFromLen nLen) ∨
          0x10000 ≤ nLen ∧ malloc nLen = false)) ∧
    (PrefixesRight
        (addTLWithOffset malloc boatAsn1BitString pbBuff nOffset nLen) pbBuff
        nOffset nLen [boatAsn1BitString] [0] ↔
      0x10000 ≤ nLen + 1 ∧ malloc nLen = false) := by
  have hl := @prefixRun_right_iff malloc pbBuff [] nOffset nLen (by decide)
  rw [List.length_nil, Nat.zero_add] at hl
  refine ⟨hl, fun htag => ?_, bitString_right_iff hlen⟩
  have hrun : addTLWithOffset malloc bTag pbBuff nOffset nLen =
      prefixRun malloc pbBuff nOffset nLen [bTag] := by
    simp only [addTLWithOffset, if_neg htag]
    rfl
  rw [hrun]
  exact prefixRun_right_iff (by simp)

/-- Two bytes behind a tag and a length, in a buffer of eight. -/
theorem prefixesRight_two :
    PrefixesRight (addTLWithOffset (fun _ => true) 0x04
      [0xAA, 0x01, 0x02, 0, 0, 0, 0, 0] 1 2)
      [0xAA, 0x01, 0x02, 0, 0, 0, 0, 0] 1 2 [0x04] [] :=
  ((prefixesRight_iff (fun _ => true) 0x04 _ 1 (by decide)).2.1
    (by decide)).mpr
    (.inl ⟨by decide, by decide, by decide, by decide, by decide⟩)

end Right

/-- No byte is written in front of an empty value. -/
theorem not_prefixesRight :
    ¬ ∀ (malloc : Nat → Bool) (pbBuff : List UInt8) (nOffset nLen : Nat),
      PrefixesRight (addLWithOffsetAt malloc pbBuff nOffset nLen) pbBuff nOffset
        nLen [] [] := by
  intro hclaim
  have hempty := hclaim (fun _ => true) [0, 0, 0, 0] 0 0
  have hone := @prefixRun_right_iff (fun _ => true) [0, 0, 0, 0] [] 0 0
    (by decide)
  rcases hone.mp hempty with ⟨-, hfitting⟩ | ⟨hlarge, -⟩
  · exact absurd hfitting.nonempty (by decide)
  · exact absurd hlarge (by decide)

end BoatFramework
