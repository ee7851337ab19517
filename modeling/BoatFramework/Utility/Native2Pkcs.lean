/-
`UtilityNative2PKCS`: a keypair as tags, lengths and values, written from the
inside out into one block, and its base64 text behind a mark.  The mark of the
end is overwritten by what closes the text.
-/
import BoatFramework.Utility.LengthPrefix
import BoatFramework.Utility.Pkcs

namespace BoatFramework

open Exec

/-- `base64en`. -/
def base64en : List UInt8 :=
  asciiBytes
    "ABCDEFGHIJKLMNOPQRSTUVWXYZabcdefghijklmnopqrstuvwxyz0123456789+/".toList

def base64Char (value : UInt8) : UInt8 :=
  base64en.getD value.toNat 0

/-- The loop of `BoAT_base64_encode` in state `s` behind the byte `l`, and the
padding. -/
def base64EncodeFrom : List UInt8 → Nat → UInt8 → List UInt8
  | [], 0, _ => []
  | [], 1, l => [base64Char ((l &&& 0x3) <<< 4), 0x3D, 0x3D]
  | [], _, l => [base64Char ((l &&& 0xF) <<< 2), 0x3D]
  | c :: rest, 0, _ =>
      base64Char ((c >>> 2) &&& 0x3F) :: base64EncodeFrom rest 1 c
  | c :: rest, 1, l =>
      base64Char (((l &&& 0x3) <<< 4) ||| ((c >>> 4) &&& 0xF)) ::
        base64EncodeFrom rest 2 c
  | c :: rest, _, l =>
      base64Char (((l &&& 0xF) <<< 2) ||| ((c >>> 6) &&& 0x3)) ::
        base64Char (c &&& 0x3F) :: base64EncodeFrom rest 0 c

/-- The characters that `BoAT_base64_encode` writes in front of a NUL. -/
def boatBase64Encode (input : List UInt8) : List UInt8 :=
  base64EncodeFrom input 0 0

/-- The memory of a run: the block that a request for a size gives, which may be
larger and holds anything, and what stands behind the mark of the end. -/
structure PemMemory where
  malloc : Nat → Nat → Option (List UInt8)
  behindMark : List UInt8

/-- `add_TL_withOffset` over the scratch block that it got. -/
def addTLOver (buf : Option (List UInt8)) (bTag : UInt8) (pbBuff : List UInt8)
    (nOffset nLen : Nat) : Outcome Prefixing :=
  match buf with
  | none => .ok ⟨-1, pbBuff, nOffset⟩
  | some buf =>
      if bTag = boatAsn1BitString then do
        let buf ← storeAt buf 0 (← loadAt pbBuff nOffset nLen)
        let pbBuff ← storeAt pbBuff (nOffset + 1) (← loadAt buf 0 nLen)
        let nLen := buint32 (nLen + 1)
        let pbBuff ← storeAt pbBuff nOffset [0x00]
        prependTL buf pbBuff nOffset nLen (bTag :: lengthBytes nLen)
      else prependTL buf pbBuff nOffset nLen (bTag :: lengthBytes nLen)

/-- With blocks of the size that was asked for it is `add_TL_withOffset`. -/
theorem addTLOver_exact (malloc : Nat → Bool) (bTag : UInt8)
    (pbBuff : List UInt8) (nOffset nLen : Nat) :
    addTLOver (if malloc nLen then some (List.replicate nLen 0) else none) bTag
        pbBuff nOffset nLen =
      addTLWithOffset malloc bTag pbBuff nOffset nLen := by
  unfold addTLWithOffset
  split
  · rfl
  · rfl

/-- `oid_secp256k1`, `oid_secp256r1`, `oid_sm2sm3`. -/
def oidOf : KeypairAlg → Option (List UInt8)
  | .secp256k1 => some [0x2b, 0x81, 0x04, 0x00, 0x0a]
  | .secp256r1 => some [0x2b, 0x81, 0x04, 0x03, 0x01, 0x07]
  | .sm => some [0x2a, 0x81, 0x1c, 0xcf, 0x55, 0x01, 0x82, 0x2d]
  | .unknown => none

/-- The reading of `len` bytes at a pointer. -/
def KeyPointer.load (pointer : KeyPointer) (len : Nat) :
    Outcome (List UInt8) :=
  match pointer with
  | .live bytes => loadAt bytes 0 len
  | _ => .error .undefined

def tlvLength (len : Nat) : Nat :=
  utilityGetTLVLLFromLen len + 1 + len

/-- The size of `dataHex`; the length of all of it is added twice. -/
def dataHexLength (keypair : PkcsKeypair) (oid : List UInt8) : Nat :=
  let len := 3 + tlvLength keypair.prikeylen +
    tlvLength (tlvLength oid.length) + tlvLength (tlvLength keypair.pubkeylen)
  len + tlvLength len

/-- The part of `UtilityNative2PKCS` that fills `dataHex`, and the offset behind
it. -/
def nativeTLVs (memory : PemMemory) (keypair : PkcsKeypair)
    (oid dataHex : List UInt8) : Outcome Prefixing := do
  let dataHex ← storeAt dataHex 0 [0x02, 0x01, 0x01]
  let dataHex ← storeAt dataHex 3 (← keypair.prikey.load keypair.prikeylen)
  let prikey ← addTLOver (memory.malloc 1 keypair.prikeylen) 0x04 dataHex 3
    keypair.prikeylen
  let offsetBat := prikey.nOffset
  let dataHex ← storeAt prikey.pbBuff offsetBat oid
  let name ← addTLOver (memory.malloc 2 oid.length) 0x06 dataHex offsetBat
    oid.length
  let len := asBuint32 name.result
  let curve ← addTLOver (memory.malloc 3 len) 0xA0 name.pbBuff offsetBat len
  let offsetBat := curve.nOffset
  let dataHex ← storeAt curve.pbBuff offsetBat [0x04]
  let dataHex ← storeAt dataHex (offsetBat + 1)
    (← keypair.pubkey.load keypair.pubkeylen)
  let bits ← addTLOver (memory.malloc 4 (keypair.pubkeylen + 1)) 0x03 dataHex
    offsetBat (keypair.pubkeylen + 1)
  let len := asBuint32 bits.result
  let pubkey ← addTLOver (memory.malloc 5 len) 0xA1 bits.pbBuff offsetBat len
  addTLOver (memory.malloc 6 pubkey.nOffset) 0x30 pubkey.pbBuff 0 pubkey.nOffset

/-- The part that writes the text of `input`.  As many bytes of the mark of the
end are copied as that of the begin has, and the offset stays in front of
them. -/
def writePem (memory : PemMemory) (input outStr : List UInt8) :
    Outcome (List UInt8) := do
  let size := input.length + prikeyPkcsBegin.length + prikeyPkcsEnd.length + 7
  let outStr ← storeAt outStr 0 (List.replicate size 0)
  let text := boatBase64Encode input
  let outStr ← storeAt outStr (prikeyPkcsBegin.length + 2) (text ++ [0])
  let outStr ← storeAt outStr 0 prikeyPkcsBegin
  let outStr ← storeAt outStr prikeyPkcsBegin.length [0x0D, 0x0A]
  let offset := prikeyPkcsBegin.length + 2 + text.length
  let outStr ← storeAt outStr offset [0x0D, 0x0A]
  let outStr ← storeAt outStr (offset + 2)
    (← loadAt (prikeyPkcsEnd ++ 0 :: memory.behindMark) 0
      prikeyPkcsBegin.length)
  storeAt outStr (offset + 2) [0x0D, 0x0A, 0x00]

/-- `UtilityNative2PKCS`: the block of the text, or null. -/
def utilityNative2PKCS (memory : PemMemory) (keypair : PkcsKeypair) :
    Outcome (Option (List UInt8)) :=
  match oidOf keypair.alg with
  | none => .ok none
  | some oid =>
      match memory.malloc 0 (dataHexLength keypair oid) with
      | none => .ok none
      | some dataHex => do
          let all ← nativeTLVs memory keypair oid dataHex
          let input ← loadAt all.pbBuff 0 all.nOffset
          match memory.malloc 7 (input.length + prikeyPkcsBegin.length +
              prikeyPkcsEnd.length + 7) with
          | none => .error .undefined
          | some outStr => some <$> writePem memory input outStr

/-- A keypair is written, and what was written is read. -/
def writtenAndRead (memory : PemMemory) (grants : Nat → Bool)
    (keypair : PkcsKeypair) : Outcome (BoatResult × PkcsKeypair) := do
  match ← utilityNative2PKCS memory keypair with
  | none => .error .undefined
  | some block => utilityPKCS2Native grants (← cString block)

/-- The keypair comes back from what was written. -/
def PkcsRoundTrips (memory : PemMemory) (grants : Nat → Bool)
    (keypair : PkcsKeypair) : Prop :=
  writtenAndRead memory grants keypair = .ok (boatSuccess, keypair)

section Search

variable {pattern front rest text : List UInt8} {c : UInt8}

/-- A pattern is not found in a text without one of its characters. -/
theorem strstr_absent (hmem : c ∈ pattern) (habsent : c ∉ text) :
    strstr pattern text = none := by
  have hno : ∀ {text : List UInt8}, c ∉ text →
      ¬pattern.isPrefixOf text = true := fun habsent hbegins =>
    habsent ((List.isPrefixOf_iff_prefix.mp hbegins).subset hmem)
  induction text with
  | nil => exact if_neg fun hnil => List.ne_nil_of_mem hmem hnil
  | cons head tail ih =>
      rw [strstr, if_neg (hno habsent), ih]
      · rfl
      · exact fun htail => habsent (List.mem_cons_of_mem head htail)

/-- Nor across a character that it does not have. -/
theorem strstr_across (hne : pattern ≠ []) (hmem : c ∉ pattern)
    (hfront : strstr pattern front = none) (hrest : strstr pattern rest = none) :
    strstr pattern (front ++ c :: rest) = none := by
  have hno : ∀ {front : List UInt8}, ¬pattern.isPrefixOf front = true →
      ¬pattern.isPrefixOf (front ++ c :: rest) = true := by
    intro front hfront hbegins
    rw [List.isPrefixOf_iff_prefix] at hfront hbegins
    rcases Nat.le_total pattern.length front.length with hle | hle
    · exact hfront (List.prefix_of_prefix_length_le hbegins
        (List.prefix_append front (c :: rest)) hle)
    · obtain ⟨more, rfl⟩ := List.prefix_of_prefix_length_le
        (List.prefix_append front (c :: rest)) hbegins hle
      rw [List.prefix_append_right_inj] at hbegins
      cases more with
      | nil => exact hfront (by rw [List.append_nil])
      | cons head tail =>
          rw [List.cons_prefix_cons] at hbegins
          rw [hbegins.1] at hmem
          exact hmem (List.mem_append_right front List.mem_cons_self)
  have hnil : ¬pattern.isPrefixOf [] = true := by
    rw [List.isPrefixOf_iff_prefix, List.prefix_nil]
    exact hne
  induction front with
  | nil =>
      have hhead : ¬pattern.isPrefixOf (c :: rest) = true := hno hnil
      rw [List.nil_append, strstr, if_neg hhead, hrest]
      rfl
  | cons head tail ih =>
      rw [strstr] at hfront
      split at hfront
      · cases hfront
      next hhead =>
        rw [List.cons_append, strstr, ← List.cons_append, if_neg (hno hhead),
          ih (Option.map_eq_none_iff.mp hfront)]
        rfl

end Search

/-- A character of base64 is neither NUL nor a dash. -/
abbrev TextChar (c : UInt8) : Prop :=
  c ≠ 0 ∧ c ≠ 0x2D

theorem base64Char_text {value : UInt8} (hvalue : value.toNat < 64) :
    TextChar (base64Char value) := by
  have hall : base64en.all (fun c => decide (TextChar c)) = true := by decide
  refine of_decide_eq_true (List.all_eq_true.mp hall _ ?_)
  have hlength : value.toNat < base64en.length := hvalue
  rw [base64Char, List.getD_eq_getElem?_getD, List.getElem?_eq_getElem hlength]
  exact List.getElem_mem _

theorem toNat_and_lt (x : UInt8) {mask : UInt8} (hmask : mask.toNat < 64) :
    (x &&& mask).toNat < 64 := by
  rw [UInt8.toNat_and]
  exact Nat.lt_of_le_of_lt Nat.and_le_right hmask

theorem toNat_or_lt {x y : UInt8} (hx : x.toNat < 64) (hy : y.toNat < 64) :
    (x ||| y).toNat < 64 := by
  rw [UInt8.toNat_or]
  exact Nat.or_lt_two_pow (n := 6) hx hy

theorem toNat_high_lt (l : UInt8) : ((l &&& 0x3) <<< 4).toNat < 64 := by
  have hmask : l.toNat &&& 3 ≤ 3 := Nat.and_le_right
  rw [UInt8.toNat_shiftLeft, UInt8.toNat_and, Nat.shiftLeft_eq]
  change (l.toNat &&& 3) * 2 ^ 4 % 2 ^ 8 < 64
  omega

theorem toNat_middle_lt (l : UInt8) : ((l &&& 0xF) <<< 2).toNat < 64 := by
  have hmask : l.toNat &&& 15 ≤ 15 := Nat.and_le_right
  rw [UInt8.toNat_shiftLeft, UInt8.toNat_and, Nat.shiftLeft_eq]
  change (l.toNat &&& 15) * 2 ^ 2 % 2 ^ 8 < 64
  omega

/-- In each state a byte gives characters of the table. -/
theorem base64EncodeFrom_text (input : List UInt8) (s : Nat) (l : UInt8) :
    ∀ c ∈ base64EncodeFrom input s l, TextChar c := by
  have hpad : TextChar 0x3D := by decide
  have hhigh (l : UInt8) := base64Char_text (toNat_high_lt l)
  have hmiddle (l : UInt8) := base64Char_text (toNat_middle_lt l)
  have hlow (c : UInt8) : TextChar (base64Char (c &&& 0x3F)) :=
    base64Char_text (toNat_and_lt c (by decide))
  fun_induction base64EncodeFrom input s l with
  | case1 l => exact fun c hc => absurd hc List.not_mem_nil
  | case2 l =>
      intro c hc
      simp only [List.mem_cons, List.not_mem_nil, or_false] at hc
      rcases hc with rfl | rfl | rfl
      · exact hhigh l
      · exact hpad
      · exact hpad
  | case3 s l =>
      intro c hc
      simp only [List.mem_cons, List.not_mem_nil, or_false] at hc
      rcases hc with rfl | rfl
      · exact hmiddle l
      · exact hpad
  | case4 c rest l ih =>
      rw [List.forall_mem_cons]
      exact ⟨hlow (c >>> 2), ih⟩
  | case5 c rest l ih =>
      rw [List.forall_mem_cons]
      refine ⟨base64Char_text (toNat_or_lt (toNat_high_lt l) ?_), ih⟩
      exact toNat_and_lt (c >>> 4) (by decide)
  | case6 c rest s l _ _ ih =>
      rw [List.forall_mem_cons, List.forall_mem_cons]
      refine ⟨base64Char_text (toNat_or_lt (toNat_middle_lt l) ?_), hlow c, ih⟩
      exact toNat_and_lt (c >>> 6) (by decide)

section Stores

variable {block stored bytes : List UInt8} {offset n : Nat}

/-- What stands in front of a store stays. -/
theorem take_of_storeAt (hstore : storeAt block offset bytes = .ok stored)
    (hn : n ≤ offset) : stored.take n = block.take n := by
  obtain ⟨hfits, rfl⟩ := storeAt_eq_ok hstore
  have hlen : (block.take offset).length = offset := by
    rw [List.length_take]
    omega
  rw [List.append_assoc, List.take_append_of_le_length (by omega),
    List.take_take, Nat.min_eq_left hn]

/-- The front up to the end of a store. -/
theorem take_storeAt (hstore : storeAt block offset bytes = .ok stored) :
    stored.take (offset + bytes.length) = block.take offset ++ bytes := by
  obtain ⟨hfits, rfl⟩ := storeAt_eq_ok hstore
  have hlen : offset + bytes.length = (block.take offset ++ bytes).length := by
    rw [List.length_append, List.length_take]
    omega
  rw [hlen, List.take_left]

/-- The first bytes at the place of a store. -/
theorem take_drop_storeAt {front back : List UInt8}
    (hstore : storeAt block offset (front ++ back) = .ok stored) :
    (stored.drop offset).take front.length = front := by
  obtain ⟨hfits, rfl⟩ := storeAt_eq_ok hstore
  have hlen : (block.take offset).length = offset := by
    rw [List.length_take]
    omega
  rw [List.append_assoc, List.append_assoc, List.drop_append, hlen,
    List.drop_eq_nil_of_le (Nat.le_of_eq hlen), Nat.sub_self, List.nil_append,
    List.drop_zero, List.take_left]

/-- What stands behind a store stays. -/
theorem drop_of_storeAt (hstore : storeAt block offset bytes = .ok stored)
    (hn : offset + bytes.length ≤ n) : stored.drop n = block.drop n := by
  obtain ⟨hfits, rfl⟩ := storeAt_eq_ok hstore
  have hlen : (block.take offset ++ bytes).length = offset + bytes.length := by
    rw [List.length_append, List.length_take]
    omega
  have hback : (block.take offset ++ bytes).drop n = [] :=
    List.drop_eq_nil_of_le (by omega)
  rw [List.drop_append, hback, hlen, List.nil_append, List.drop_drop,
    Nat.add_sub_cancel' hn]

end Stores

/-- What the writer leaves: the mark of the begin, the characters, and the ends
of two lines in front of the NUL. -/
theorem writePem_eq_ok {memory : PemMemory} {input outStr block : List UInt8}
    (hrun : writePem memory input outStr = .ok block) :
    ∃ rest, block = prikeyPkcsBegin ++ [0x0D, 0x0A] ++ boatBase64Encode input ++
      [0x0D, 0x0A] ++ [0x0D, 0x0A, 0x00] ++ rest := by
  obtain ⟨zeroed, _, hrun⟩ := except_bind_eq_ok.mp hrun
  obtain ⟨encoded, hencoded, hrun⟩ := except_bind_eq_ok.mp hrun
  obtain ⟨marked, hmarked, hrun⟩ := except_bind_eq_ok.mp hrun
  obtain ⟨lined, hlined, hrun⟩ := except_bind_eq_ok.mp hrun
  obtain ⟨closed, hclosed, hrun⟩ := except_bind_eq_ok.mp hrun
  obtain ⟨mark, _, hrun⟩ := except_bind_eq_ok.mp hrun
  obtain ⟨ended, hended, hlast⟩ := except_bind_eq_ok.mp hrun
  have hbegin : marked.take prikeyPkcsBegin.length = prikeyPkcsBegin := by
    have htake := take_storeAt hmarked
    rwa [Nat.zero_add, List.take_zero, List.nil_append] at htake
  have hhead : lined.take (prikeyPkcsBegin.length + 2) =
      prikeyPkcsBegin ++ [0x0D, 0x0A] := by
    have htake := take_storeAt hlined
    rwa [hbegin] at htake
  have htext : (lined.drop (prikeyPkcsBegin.length + 2)).take
      (boatBase64Encode input).length = boatBase64Encode input := by
    have hline : lined.drop (prikeyPkcsBegin.length + 2) =
        marked.drop (prikeyPkcsBegin.length + 2) :=
      drop_of_storeAt hlined (Nat.le_refl _)
    have hmark : marked.drop (prikeyPkcsBegin.length + 2) =
        encoded.drop (prikeyPkcsBegin.length + 2) :=
      drop_of_storeAt hmarked (by omega)
    rw [hline, hmark]
    exact take_drop_storeAt hencoded
  have hchars : lined.take (prikeyPkcsBegin.length + 2 +
      (boatBase64Encode input).length) =
        prikeyPkcsBegin ++ [0x0D, 0x0A] ++ boatBase64Encode input := by
    rw [List.take_add, hhead, htext]
  have hlines : closed.take (prikeyPkcsBegin.length + 2 +
      (boatBase64Encode input).length + 2) =
        prikeyPkcsBegin ++ [0x0D, 0x0A] ++ boatBase64Encode input ++
          [0x0D, 0x0A] := by
    rw [← hchars]
    exact take_storeAt hclosed
  have hall := take_storeAt hlast
  rw [take_of_storeAt hended (Nat.le_refl _), hlines] at hall
  exact ⟨_, by rw [← hall, List.take_append_drop]⟩

/-- A text without the mark of the end is refused. -/
theorem utilityPKCS2Native_unended (grants : Nat → Bool) {input : CString}
    (hec : strstr prikeyEcPkcsBegin input.bytes = none)
    (hend : strstr prikeyPkcsEnd input.bytes = none) :
    utilityPKCS2Native grants input = .ok (boatError, .empty) := by
  unfold utilityPKCS2Native followKeys
  rw [hec]
  cases strstr prikeyPkcsBegin input.bytes with
  | none => rfl
  | some start =>
      simp only [pemText, hend]
      rfl

/-- The text that the writer leaves has no mark of the end. -/
theorem writePem_unended {memory : PemMemory} {input outStr block : List UInt8}
    {text : CString} (hrun : writePem memory input outStr = .ok block)
    (htext : cString block = .ok text) :
    strstr prikeyEcPkcsBegin text.bytes = none ∧
      strstr prikeyPkcsEnd text.bytes = none := by
  obtain ⟨rest, hblock⟩ := writePem_eq_ok hrun
  have hchars : ∀ c ∈ boatBase64Encode input, TextChar c :=
    base64EncodeFrom_text input 0 0
  obtain ⟨behind, hbehind⟩ : ∃ behind,
      behind = 0x0A :: (boatBase64Encode input ++ [0x0D, 0x0A, 0x0D, 0x0A]) :=
    ⟨_, rfl⟩
  have hall : ∀ c ∈ behind, TextChar c := by
    have hends : [0x0D, 0x0A, 0x0D, 0x0A].all (fun c => decide (TextChar c)) =
        true := by decide
    rw [hbehind, List.forall_mem_cons, List.forall_mem_append]
    exact ⟨by decide, hchars,
      fun c hc => of_decide_eq_true (List.all_eq_true.mp hends c hc)⟩
  have hnoNul : (0 : UInt8) ∉ prikeyPkcsBegin ++ 0x0D :: behind := by
    rw [List.mem_append, List.mem_cons]
    rintro (hbegin | hline | hmem)
    · exact absurd hbegin (by decide)
    · exact absurd hline (by decide)
    · exact (hall 0 hmem).1 rfl
  have hbytes : text.bytes = prikeyPkcsBegin ++ 0x0D :: behind := by
    obtain ⟨_, rfl⟩ := cString_eq_ok htext
    have hends := ofBuffer_append ⟨_, hnoNul⟩ rest
    have hsplit : block = prikeyPkcsBegin ++ 0x0D :: behind ++ 0 :: rest := by
      rw [hblock, hbehind]
      simp only [List.append_assoc, List.cons_append, List.nil_append]
    rw [hsplit, hends]
  have hdash : (0x2D : UInt8) ∉ behind := fun hmem => (hall _ hmem).2 rfl
  rw [hbytes]
  constructor
  · exact strstr_across (by decide) (by decide) (by decide)
      (strstr_absent (c := 0x2D) (by decide) hdash)
  · exact strstr_across (by decide) (by decide) (by decide)
      (strstr_absent (c := 0x2D) (by decide) hdash)

/-- A block that is handed out is one that the text was written into. -/
theorem utilityNative2PKCS_eq_some {memory : PemMemory} {keypair : PkcsKeypair}
    {block : List UInt8}
    (hrun : utilityNative2PKCS memory keypair = .ok (some block)) :
    ∃ input outStr, writePem memory input outStr = .ok block := by
  unfold utilityNative2PKCS at hrun
  split at hrun
  · cases hrun
  · split at hrun
    · cases hrun
    · obtain ⟨all, _, hrun⟩ := except_bind_eq_ok.mp hrun
      obtain ⟨input, _, hrun⟩ := except_bind_eq_ok.mp hrun
      split at hrun
      · cases hrun
      next outStr _ =>
        cases hwrite : writePem memory input outStr with
        | error e =>
            rw [hwrite] at hrun
            cases hrun
        | ok written =>
            rw [hwrite] at hrun
            obtain rfl := Option.some.inj (Except.ok.inj hrun)
            exact ⟨input, outStr, hwrite⟩

/-- No keypair comes back, in whatever memory it is written. -/
theorem not_pkcsRoundTrips (memory : PemMemory) (grants : Nat → Bool)
    (keypair : PkcsKeypair) : ¬PkcsRoundTrips memory grants keypair := by
  intro hback
  obtain ⟨written, hwrite, hread⟩ := except_bind_eq_ok.mp hback
  cases written with
  | none => cases hread
  | some block =>
      obtain ⟨text, htext, hread⟩ := except_bind_eq_ok.mp hread
      obtain ⟨input, outStr, hrun⟩ := utilityNative2PKCS_eq_some hwrite
      obtain ⟨hec, hend⟩ := writePem_unended hrun htext
      rw [utilityPKCS2Native_unended grants hec hend] at hread
      cases hread

section Samples

/-- Blocks that are larger than what was asked for. -/
def roomyMemory : PemMemory :=
  ⟨fun _ size => some (List.replicate (size + 64) 0), [0]⟩

def sampleKeypair : PkcsKeypair :=
  ⟨.secp256k1, .live (List.replicate 32 0x11), 32,
    .live (List.replicate 64 0x22), 64⟩

/-- What is written in roomy memory is refused. -/
theorem sampleKeypair_lost :
    writtenAndRead roomyMemory (fun _ => true) sampleKeypair =
        .ok (boatError, .empty) ∧
      ¬PkcsRoundTrips roomyMemory (fun _ => true) sampleKeypair := by
  have hrun : writtenAndRead roomyMemory (fun _ => true) sampleKeypair =
      .ok (boatError, .empty) := by decide +kernel
  refine ⟨hrun, fun hback => ?_⟩
  rw [PkcsRoundTrips, hrun] at hback
  cases hback

end Samples

end BoatFramework
