/-
`UtilityPKCS2Native` follows the marks in its text: its loops over TLVs come
across the same ones, in the same order.
-/
import BoatFramework.Utility.PkcsText

namespace BoatFramework

open Base64 Der Exec

/-- The TLV of an element. -/
def tlvOf (element : Element) : TLVStruct :=
  ⟨element.tag, element.header - 1, element.size, element.header⟩

theorem utilityGetTLV_short {tag first : UInt8} {rest : List UInt8} {more : Nat}
    (hmore : moreOctets first = some more) (hcut : rest.length < more)
    (size : Nat) :
    utilityGetTLV (tag :: first :: rest) size = .error .undefined := by
  rcases moreOctets_cases first with
    ⟨-, hcount⟩ | ⟨rfl, hcount⟩ | ⟨rfl, hcount⟩ | ⟨-, -, -, hnone⟩
  · obtain rfl := Option.some.inj (hcount.symm.trans hmore)
    cases hcut
  · obtain rfl := Option.some.inj (hcount.symm.trans hmore)
    obtain rfl : rest = [] :=
      List.eq_nil_of_length_eq_zero (Nat.lt_one_iff.mp hcut)
    rfl
  · obtain rfl := Option.some.inj (hcount.symm.trans hmore)
    match rest, hcut with
    | [], _ => rfl
    | [_], _ => rfl
  · rw [hnone] at hmore
    cases hmore

/-- What `UtilityGetTLV` makes of the bytes is what they begin with. -/
theorem utilityGetTLV_headAt (size : Nat) (bytes : List UInt8) :
    utilityGetTLV bytes size =
      match headAt size bytes with
      | .element element => .ok (tlvOf element)
      | .malformed => .error (.code boatError)
      | .cut => .error .undefined := by
  match bytes with
  | [] => rfl
  | [_] => rfl
  | tag :: first :: rest =>
      rw [headAt]
      cases hmore : moreOctets first with
      | none =>
          rcases moreOctets_cases first with
            ⟨-, hcount⟩ | ⟨-, hcount⟩ | ⟨-, hcount⟩ | ⟨hshort, hone, htwo, -⟩
          · cases hcount.symm.trans hmore
          · cases hcount.symm.trans hmore
          · cases hcount.symm.trans hmore
          · rw [utilityGetTLV, utilityGetTLVLL_cons, if_neg hshort,
              if_neg hone, if_neg htwo]
            rfl
      | some more =>
          dsimp only
          by_cases hcut : rest.length < more
          · rw [if_pos hcut]
            exact utilityGetTLV_short hmore hcut size
          · have hlength : (rest.take more).length = more :=
              List.length_take_of_le (Nat.le_of_not_lt hcut)
            have hoctets := lengthOctets_of_moreOctets
              (hmore.trans (congrArg some hlength.symm))
            have hfew := moreOctets_le hmore
            have hrun := @utilityGetTLV_octets tag (rest.drop more) _ _ hoctets
              (by rw [List.length_cons, hlength]; omega) size
            have hheader : 1 + (first :: rest.take more).length = 2 + more := by
              rw [List.length_cons, hlength]
              omega
            rw [List.cons_append, List.take_append_drop, hheader] at hrun
            rw [hrun, if_neg hcut]
            by_cases hfits :
                2 + more + statedLength first (rest.take more) ≤ size
            · rw [if_neg (Nat.not_lt_of_le hfits), if_pos hfits]
              have hllen : (first :: rest.take more).length = 2 + more - 1 := by
                omega
              rw [hllen]
              rfl
            · rw [if_pos (Nat.lt_of_not_le hfits), if_neg hfits]

section Follow

variable {σ : Type}

/-- What is done at a mark. -/
def TlvSink.take (sink : TlvSink σ) : KeyMark → σ → BodyEnd σ
  | .privateKey octets, s => sink.octetString octets s
  | .curve identifier, s => .next (sink.oid (curveOf identifier) s)
  | .publicKey bits, s => sink.bitString bits s

/-- What is done behind a part of the marks that does not end the function. -/
def BodyEnd.andThen (next : σ → Outcome (BodyEnd σ)) :
    BodyEnd σ → Outcome (BodyEnd σ)
  | .next s => next s
  | .leave s => .ok (.leave s)
  | .returned code s => .ok (.returned code s)

/-- The marks of a reading, one behind the other, and its end. -/
def TlvSink.follow (sink : TlvSink σ) : Row KeyMark → σ → Outcome (BodyEnd σ)
  | .whole, s => .ok (.next s)
  | .malformed, s => .ok (.returned boatError s)
  | .cut, _ => .error .undefined
  | .found mark rest, s => (sink.take mark s).andThen (sink.follow rest)

/-- At no mark a loop is left. -/
structure TlvSink.Stays (sink : TlvSink σ) : Prop where
  octetString : ∀ octets s t, sink.octetString octets s ≠ .leave t
  bitString : ∀ bits s t, sink.bitString bits s ≠ .leave t

variable {sink : TlvSink σ}

theorem TlvSink.Stays.take (hsink : sink.Stays) (mark : KeyMark) (s t : σ) :
    sink.take mark s ≠ .leave t := by
  cases mark with
  | privateKey octets => exact hsink.octetString octets s t
  | curve identifier =>
      intro hleft
      cases hleft
  | publicKey bits => exact hsink.bitString bits s t

theorem follow_andThen (first next : Row KeyMark) (s : σ) :
    sink.follow (first.andThen next) s =
      sink.follow first s >>= BodyEnd.andThen (sink.follow next) := by
  induction first generalizing s with
  | whole => rfl
  | malformed => rfl
  | cut => rfl
  | found mark rest ih =>
      rw [Row.andThen, TlvSink.follow, TlvSink.follow]
      cases sink.take mark s with
      | next t => exact ih t
      | leave t => rfl
      | returned code t => rfl

theorem follow_one (mark : KeyMark) (s : σ) :
    sink.follow (.found mark .whole) s = .ok (sink.take mark s) := by
  rw [TlvSink.follow]
  cases sink.take mark s <;> rfl

theorem follow_ne_leave (hsink : sink.Stays) (row : Row KeyMark) (s t : σ) :
    sink.follow row s ≠ .ok (.leave t) := by
  intro hleft
  induction row generalizing s with
  | whole => cases hleft
  | malformed => cases hleft
  | cut => cases hleft
  | found mark rest ih =>
      rw [TlvSink.follow] at hleft
      cases htake : sink.take mark s with
      | next s' =>
          rw [htake] at hleft
          exact ih s' hleft
      | leave s' => exact hsink.take mark s s' htake
      | returned code s' =>
          rw [htake] at hleft
          cases hleft

/-- A loop is left at what it comes to. -/
def BodyEnd.left : BodyEnd σ → BodyEnd σ
  | .next s => .leave s
  | .leave s => .leave s
  | .returned code s => .returned code s

/-- The end of a loop at some offset. -/
def LoopEnd.at (offset : Nat) : BodyEnd σ → LoopEnd σ
  | .next s => .ended offset s
  | .leave s => .ended offset s
  | .returned code s => .returned code s

/-- A loop whose body does at each element what there is inside of it, and is
left at elements of some kind. -/
structure Loops (sink : TlvSink σ) (block : List UInt8)
    (body : TLVStruct → Nat → σ → Outcome (BodyEnd σ)) (last : Element → Bool)
    (inside : Element → Row KeyMark) : Prop where
  next : ∀ element data s, element.bytes = block.drop data →
    last element = false →
    body (tlvOf element) data s = sink.follow (inside element) s
  last : ∀ element data s, element.bytes = block.drop data →
    last element = true →
    body (tlvOf element) data s =
      BodyEnd.left <$> sink.follow (inside element) s

/-- An element that a loop comes to: where its contents are in the block, and
where the loop goes on. -/
theorem element_at {block : List UInt8} {start size offset : Nat}
    {element : Element}
    (hhead : headAt size (block.drop (start + offset)) = .element element) :
    element.bytes = block.drop (start + offset + element.header) ∧
      element.size + (element.header - 1) + 1 = element.extent ∧
      element.bytes.drop element.size =
        block.drop (start + (offset + element.extent)) := by
  obtain ⟨hbytes, -, hheader, -⟩ := bytes_of_headAt hhead
  rw [List.drop_drop] at hbytes
  refine ⟨hbytes, ?_, ?_⟩
  · rw [Element.extent]
    omega
  · rw [hbytes, List.drop_drop, Element.extent]
    congr 1
    omega

/-- Such a loop follows the marks inside of its elements. -/
theorem tlvLoop_follow {block : List UInt8} {start len : Nat}
    {body : TLVStruct → Nat → σ → Outcome (BodyEnd σ)} {last : Element → Bool}
    {inside : Element → Row KeyMark} (hsink : sink.Stays)
    (hloops : Loops sink block body last inside) (rounds offset : Nat) (s : σ) :
    tlvLoop block start len body rounds offset s =
      LoopEnd.at (offset + placeOf last (elementsWithin rounds (len - offset)
          (block.drop (start + offset)))) <$>
        sink.follow (((elementsWithin rounds (len - offset)
          (block.drop (start + offset))).upTo last).bind inside) s := by
  induction rounds generalizing offset s with
  | zero => rfl
  | succ rounds ih =>
      rw [tlvLoop, elementsWithin]
      by_cases hoffset : offset < len
      · rw [if_pos hoffset, if_neg (Nat.sub_ne_zero_of_lt hoffset),
          utilityGetTLV_headAt]
        cases hhead : headAt (len - offset) (block.drop (start + offset)) with
        | malformed => rfl
        | cut => rfl
        | element element =>
            obtain ⟨hdata, hextent, hdrop⟩ := element_at hhead
            rw [Head.read, Row.upTo, placeOf]
            dsimp only [tlvOf]
            rw [hextent]
            cases hlast : last element with
            | true =>
                have hbody := hloops.last element _ s hdata hlast
                dsimp only [tlvOf] at hbody
                rw [hbody, if_pos rfl, if_pos rfl, Row.bind_found]
                change _ = _ <$> sink.follow ((inside element).andThen .whole) s
                rw [Row.andThen_whole]
                cases sink.follow (inside element) s with
                | error failure => rfl
                | ok ended => cases ended <;> rfl
            | false =>
                have hbody := hloops.next element _ s hdata hlast
                dsimp only [tlvOf] at hbody
                rw [hbody, if_neg Bool.false_ne_true, if_neg Bool.false_ne_true,
                  Row.bind_found, follow_andThen]
                have hstay := follow_ne_leave hsink (inside element) s
                cases hrun : sink.follow (inside element) s with
                | error failure => rfl
                | ok ended =>
                    cases ended with
                    | leave t => exact absurd hrun (hstay t)
                    | returned code t => rfl
                    | next t =>
                        have hrest := ih (offset + element.extent) t
                        rw [← Nat.sub_sub, ← hdrop, Nat.add_assoc] at hrest
                        exact hrest
      · have hsize : len - offset = 0 :=
          Nat.sub_eq_zero_of_le (Nat.le_of_not_lt hoffset)
        rw [if_neg hoffset, if_pos hsize]
        rfl

/-- A loop inside of an element. -/
theorem loop_follow {block : List UInt8} {element : Element} {data : Nat}
    (hbytes : element.bytes = block.drop data)
    {body : TLVStruct → Nat → σ → Outcome (BodyEnd σ)} {last : Element → Bool}
    {inside : Element → Row KeyMark} (hsink : sink.Stays)
    (hloops : Loops sink block body last inside) (s : σ) :
    LoopEnd.toBody <$>
        tlvLoop block data element.size body element.size 0 s =
      sink.follow (((elementsIn element.size element.bytes).upTo last).bind
        inside) s := by
  rw [tlvLoop_follow hsink hloops, Nat.sub_zero, Nat.add_zero, ← hbytes]
  change LoopEnd.toBody <$> (_ <$> sink.follow
    (((elementsIn element.size element.bytes).upTo last).bind inside) s) = _
  have hstay := follow_ne_leave hsink
    (((elementsIn element.size element.bytes).upTo last).bind inside) s
  cases hrun : sink.follow
      (((elementsIn element.size element.bytes).upTo last).bind inside) s with
  | error failure => rfl
  | ok ended =>
      cases ended with
      | next t => rfl
      | leave t => exact absurd hrun (hstay t)
      | returned code t => rfl

/-- A loop that goes through all elements. -/
theorem loops_all {block : List UInt8}
    {body : TLVStruct → Nat → σ → Outcome (BodyEnd σ)}
    {inside : Element → Row KeyMark}
    (hbody : ∀ element data s, element.bytes = block.drop data →
      body (tlvOf element) data s = sink.follow (inside element) s) :
    Loops sink block body (fun _ => false) inside where
  next element data s hbytes _ := hbody element data s hbytes
  last _ _ _ _ hlast := by cases hlast

theorem loop_under {block : List UInt8} {element : Element} {data : Nat}
    (hbytes : element.bytes = block.drop data)
    {body : TLVStruct → Nat → σ → Outcome (BodyEnd σ)}
    {inside : Element → Row KeyMark} (hsink : sink.Stays)
    (hbody : ∀ element data s, element.bytes = block.drop data →
      body (tlvOf element) data s = sink.follow (inside element) s)
    (tag : UInt8) (s : σ) :
    (if element.tag = tag then
        LoopEnd.toBody <$>
          tlvLoop block data element.size body element.size 0 s
      else .ok (.next s)) = sink.follow (under tag inside element) s := by
  rw [under]
  split
  · rw [loop_follow hbytes hsink (loops_all hbody), Row.upTo_never]
  · rfl

end Follow

section Bodies

variable {σ : Type} {sink : TlvSink σ} (hsink : sink.Stays)
  {block : List UInt8} {element : Element} {data : Nat}
  (hbytes : element.bytes = block.drop data) (s : σ)

include hbytes in
theorem tlvValue_eq : tlvValue block (tlvOf element) data = element.contents := by
  rw [Element.contents, hbytes]
  rfl

/-- The curve that the code takes an identifier for. -/
theorem curveOf_eq (identifier : List UInt8) :
    curveOf identifier = (namedCurve identifier).getD .unknown := by
  have hsuffix (ending : List UInt8) : ending.isSuffixOf identifier = true ↔
      identifier.drop (identifier.length - ending.length) = ending := by
    rw [List.isSuffixOf_iff_suffix, List.suffix_iff_eq_drop, eq_comm]
  have hprefix (start : List UInt8) : start.isPrefixOf identifier = true ↔
      identifier.take start.length = start := by
    rw [List.isPrefixOf_iff_prefix, List.prefix_iff_eq_take, eq_comm]
  unfold curveOf namedCurve
  by_cases hshort : identifier.length < 3
  · rw [if_neg (Nat.not_le_of_lt hshort), if_pos hshort]
    rfl
  rw [if_pos (Nat.le_of_not_lt hshort), if_neg hshort]
  by_cases hk1 : identifier.drop (identifier.length - 2) = [0x00, 0x0A]
  · rw [if_pos hk1, if_pos ((hsuffix [0x00, 0x0A]).mpr hk1)]
    rfl
  rw [if_neg hk1,
    if_neg fun hends => hk1 ((hsuffix [0x00, 0x0A]).mp hends)]
  by_cases hr1 : identifier.drop (identifier.length - 3) = [0x03, 0x01, 0x07]
  · rw [if_pos hr1, if_pos ((hsuffix [0x03, 0x01, 0x07]).mpr hr1)]
    rfl
  rw [if_neg hr1,
    if_neg fun hends => hr1 ((hsuffix [0x03, 0x01, 0x07]).mp hends)]
  by_cases hlong : identifier.length < 8
  · rw [if_neg fun hsm => Nat.not_le_of_lt hlong hsm.1, if_pos hlong]
    rfl
  rw [if_neg hlong]
  have hsm := hprefix [0x2A, 0x81, 0x1C, 0xCF, 0x55, 0x01]
  by_cases hstarts : identifier.take 6 = [0x2A, 0x81, 0x1C, 0xCF, 0x55, 0x01]
  · rw [if_pos ⟨Nat.le_of_not_lt hlong, hstarts⟩, if_pos (hsm.mpr hstarts)]
    rfl
  · rw [if_neg fun hboth => hstarts hboth.2,
      if_neg fun hother => hstarts (hsm.mp hother)]
    rfl

theorem namedCurve_ne_unknown (identifier : List UInt8) :
    namedCurve identifier ≠ some .unknown := by
  unfold namedCurve
  intro hunknown
  split at hunknown
  · cases hunknown
  · split at hunknown
    · cases hunknown
    · split at hunknown
      · cases hunknown
      · split at hunknown
        · cases hunknown
        · split at hunknown
          · cases hunknown
          · cases hunknown

theorem and_high_eq (byte : UInt8) :
    (byte &&& 0xF0 = 0xA0 ↔ byte.toNat / 16 = 0xA) ∧
      (byte &&& 0xF0 = 0x30 ↔ byte.toNat / 16 = 0x3) := by
  have hall : ∀ n : Fin 256,
      (UInt8.ofNat n.val &&& 0xF0 = 0xA0 ↔ n.val / 16 = 0xA) ∧
        (UInt8.ofNat n.val &&& 0xF0 = 0x30 ↔ n.val / 16 = 0x3) := by
    decide +kernel
  have hbyte := hall ⟨byte.toNat, byte.toNat_lt⟩
  rwa [UInt8.ofNat_toNat] at hbyte

include hbytes in
theorem pointBody_follow : pointBody sink block (tlvOf element) data s =
    sink.follow (leaf 0x03 .publicKey element) s := by
  rw [pointBody, tlvValue_eq hbytes, leaf]
  change (if element.tag = 0x03 then _ else _) = _
  split
  · rw [follow_one]
    rfl
  · rfl

include hsink hbytes in
theorem keyBody_follow : keyBody sink block (tlvOf element) data s =
    sink.follow (keyMarks element) s := by
  have hpoint := loop_under hbytes hsink
    (fun element data s hbytes => pointBody_follow hbytes s) 0xA1 s
  rw [keyBody, tlvValue_eq hbytes, keyMarks, leaf]
  change (if element.tag = 0x04 then _ else _) = _
  split
  next htag =>
    have hother : under 0xA1 (leaf 0x03 .publicKey) element = .whole := by
      rw [under, htag]
      rfl
    rw [hother, Row.andThen_whole, follow_one]
    rfl
  next => exact hpoint

include hsink hbytes in
theorem wrapperBody_follow : wrapperBody sink block (tlvOf element) data s =
    sink.follow (under 0x30 keyMarks element) s :=
  loop_under hbytes hsink
    (fun _ _ s hbytes => keyBody_follow hsink hbytes s) 0x30 s

theorem algorithmBody_loops : Loops sink block (algorithmBody sink block)
    namesCurve (leaf 0x06 .curve) where
  next element data s hbytes hlast := by
    rw [algorithmBody, tlvValue_eq hbytes, leaf]
    change (if element.tag = 0x06 then _ else _) = _
    split
    next htag =>
      have hnone : namedCurve element.contents = none := by
        rw [namesCurve, isIdentifier, htag] at hlast
        cases hnamed : namedCurve element.contents with
        | none => rfl
        | some alg =>
            rw [hnamed] at hlast
            cases hlast
      have hunknown : curveOf element.contents = .unknown := by
        rw [curveOf_eq, hnone]
        rfl
      rw [if_pos hunknown, follow_one, TlvSink.take, hunknown]
    next => rfl
  last element data s hbytes hlast := by
    obtain ⟨htag, hnamed⟩ := Bool.and_eq_true_iff.mp hlast
    have htag : element.tag = 0x06 := beq_iff_eq.mp htag
    obtain ⟨alg, hnamed⟩ := Option.isSome_iff_exists.mp hnamed
    have hknown : curveOf element.contents ≠ .unknown := by
      rw [curveOf_eq, hnamed]
      rintro rfl
      exact namedCurve_ne_unknown _ hnamed
    rw [algorithmBody, tlvValue_eq hbytes, leaf, if_pos htag, follow_one]
    change (if element.tag = 0x06 then _ else _) = _
    rw [if_pos htag, if_neg hknown]
    rfl

include hsink hbytes in
theorem pkcsBody_follow : pkcsBody sink block (tlvOf element) data s =
    sink.follow (infoMarks element) s := by
  have hwrapper := loop_under hbytes hsink
    (fun _ _ s hbytes => wrapperBody_follow hsink hbytes s) 0x04 s
  have halgorithm := loop_follow hbytes hsink
    (@algorithmBody_loops σ sink block) s
  rw [pkcsBody, infoMarks]
  change (if element.tag = 0x04 then _ else
    if element.tag &&& 0xF0 = 0x30 then _ else _) = _
  by_cases hkey : element.tag = 0x04
  · have hother : ¬element.tag.toNat / 16 = 0x3 := by
      rw [hkey]
      decide
    rw [if_neg hother, ← hwrapper, if_pos hkey, if_pos hkey]
    rfl
  · rw [if_neg hkey] at hwrapper ⊢
    by_cases hsequence : element.tag &&& 0xF0 = 0x30
    · rw [if_pos hsequence, if_pos ((and_high_eq element.tag).2.mp hsequence)]
      exact halgorithm
    · rw [if_neg hsequence,
        if_neg fun hhigh => hsequence ((and_high_eq element.tag).2.mpr hhigh)]
      exact hwrapper

theorem ecPartBody_loops : Loops sink block (ecPartBody sink block)
    isIdentifier fun element =>
      (leaf 0x06 .curve element).andThen (leaf 0x03 .publicKey element) where
  next element data s hbytes hlast := by
    have htag : element.tag ≠ 0x06 := by
      rintro htag
      rw [isIdentifier, htag] at hlast
      cases hlast
    have hpoint := @pointBody_follow σ sink block element data hbytes s
    rw [ecPartBody]
    change (if element.tag = 0x06 then _ else _) = _
    rw [if_neg htag, leaf, if_neg htag]
    exact hpoint
  last element data s hbytes hlast := by
    have htag : element.tag = 0x06 := beq_iff_eq.mp hlast
    have hother : ¬element.tag = 0x03 := by
      rw [htag]
      decide
    rw [ecPartBody, tlvValue_eq hbytes, leaf, if_pos htag, leaf, if_neg hother,
      Row.andThen_whole, follow_one]
    change (if element.tag = 0x06 then _ else _) = _
    rw [if_pos htag]
    rfl

end Bodies

section Containers

variable {σ : Type}

/-- Behind a part the next one is gone through from the place it came to. -/
def BodyEnd.inPart (passed next : Nat) : BodyEnd σ → BodyEnd (Nat × σ)
  | .next s => .next (next, s)
  | .leave s => .next (next, s)
  | .returned code s => .returned code (passed, s)

/-- How the function ends with its outermost loop. -/
def BodyEnd.result : BodyEnd σ → BoatResult × σ
  | .next s => (boatSuccess, s)
  | .leave s => (boatSuccess, s)
  | .returned code s => (code, s)

variable {sink : TlvSink σ} (hsink : sink.Stays) {block : List UInt8}

theorem ecBody_key {element : Element} {data : Nat}
    (hbytes : element.bytes = block.drop data) (hkey : element.tag = 0x04)
    (s : Nat × σ) :
    ecBody sink block (tlvOf element) data s =
      .ok ((sink.octetString element.contents s.2).map fun t => (s.1, t)) := by
  rw [ecBody, tlvValue_eq hbytes]
  exact if_pos hkey

theorem ecBody_other {element : Element} {data : Nat}
    (hkey : element.tag ≠ 0x04) (htag : ¬element.tag.toNat / 16 = 0xA)
    (s : Nat × σ) :
    ecBody sink block (tlvOf element) data s = .ok (.next s) := by
  rw [ecBody]
  change (if element.tag = 0x04 then _ else
    if element.tag &&& 0xF0 = 0xA0 then _ else _) = _
  rw [if_neg hkey, if_neg fun hhigh => htag ((and_high_eq _).1.mp hhigh)]

include hsink

theorem ecBody_part {element : Element} {data passed : Nat}
    (hbytes : element.bytes = block.drop data) (hkey : element.tag ≠ 0x04)
    (htag : element.tag.toNat / 16 = 0xA) (s : σ) :
    ecBody sink block (tlvOf element) data (passed, s) =
      BodyEnd.inPart passed (passed + placeOf isIdentifier
          (elementsIn (element.size - passed) (element.bytes.drop passed))) <$>
        sink.follow (partMarks
          (elementsIn (element.size - passed) (element.bytes.drop passed))) s := by
  have hpart := @tlvLoop_follow σ sink block data element.size _ _ _ hsink
    ecPartBody_loops element.size passed s
  rw [elementsWithin_eq (Nat.sub_le _ _), ← List.drop_drop, ← hbytes] at hpart
  rw [ecBody]
  change (if element.tag = 0x04 then _ else
    if element.tag &&& 0xF0 = 0xA0 then
      tlvLoop block data element.size (ecPartBody sink block) element.size
        passed s >>= _
    else _) = _
  rw [if_neg hkey, if_pos ((and_high_eq element.tag).1.mpr htag), hpart]
  rw [partMarks]
  cases sink.follow _ s with
  | error failure => rfl
  | ok ended => cases ended <;> rfl

/-- The loop over an `EC PRIVATE KEY`. -/
theorem ecLoop_follow {start len : Nat} (rounds offset passed : Nat) (s : σ) :
    (fun ended => LoopEnd.toBody (ended.map Prod.snd)) <$>
        tlvLoop block start len (ecBody sink block) rounds offset (passed, s) =
      sink.follow (ecMarks passed (elementsWithin rounds (len - offset)
        (block.drop (start + offset)))) s := by
  induction rounds generalizing offset passed s with
  | zero => rfl
  | succ rounds ih =>
      rw [tlvLoop, elementsWithin]
      by_cases hoffset : offset < len
      · rw [if_pos hoffset, if_neg (Nat.sub_ne_zero_of_lt hoffset),
          utilityGetTLV_headAt]
        cases hhead : headAt (len - offset) (block.drop (start + offset)) with
        | malformed => rfl
        | cut => rfl
        | element element =>
            obtain ⟨hdata, hextent, hdrop⟩ := element_at hhead
            have hrest (passed : Nat) (t : σ) :=
              ih (offset + element.extent) passed t
            rw [← Nat.sub_sub, ← hdrop] at hrest
            rw [Head.read, ecMarks]
            dsimp only [tlvOf]
            rw [hextent]
            by_cases hkey : element.tag = 0x04
            · have hbody :=
                @ecBody_key σ sink block element _ hdata hkey (passed, s)
              dsimp only [tlvOf] at hbody
              rw [hbody, if_pos hkey, TlvSink.follow]
              change _ = (sink.octetString element.contents s).andThen _
              cases htake : sink.octetString element.contents s with
              | next t => exact hrest passed t
              | leave t => exact absurd htake (hsink.octetString _ _ _)
              | returned code t => rfl
            rw [if_neg hkey]
            by_cases htag : element.tag.toNat / 16 = 0xA
            · have hbody := @ecBody_part σ sink hsink block element _ passed
                hdata hkey htag s
              dsimp only [tlvOf] at hbody
              rw [hbody, if_pos htag, follow_andThen]
              generalize elementsIn (element.size - passed)
                (element.bytes.drop passed) = part
              have hstay := follow_ne_leave hsink (partMarks part) s
              cases hrun : sink.follow (partMarks part) s with
              | error failure => rfl
              | ok ended =>
                  cases ended with
                  | next t => exact hrest _ t
                  | leave t => exact absurd hrun (hstay t)
                  | returned code t => rfl
            · have hbody := @ecBody_other σ sink block element
                (start + offset + element.header) hkey htag (passed, s)
              dsimp only [tlvOf] at hbody
              rw [hbody, if_neg htag]
              exact hrest passed s
      · have hsize : len - offset = 0 :=
          Nat.sub_eq_zero_of_le (Nat.le_of_not_lt hoffset)
        rw [if_neg hoffset, if_pos hsize]
        rfl

/-- The sequence in the decoded bytes. -/
theorem followSequence_follow (len : Nat) (s : σ) :
    (fun ended => (ended.1, ended.2.2)) <$>
          followSequence block len (ecBody sink block) (0, s) =
        BodyEnd.result <$> sink.follow (ecPrivateKey.read len block) s ∧
      followSequence block len (pkcsBody sink block) s =
        BodyEnd.result <$> sink.follow (privateKeyInfo.read len block) s := by
  unfold followSequence Container.read
  rw [utilityGetTLV_headAt]
  cases hhead : headAt len block with
  | malformed => exact ⟨rfl, rfl⟩
  | cut => exact ⟨rfl, rfl⟩
  | element element =>
      obtain ⟨hbytes, -⟩ := bytes_of_headAt hhead
      unfold Head.read
      by_cases htag : element.tag = 0x30
      · have hec := @ecLoop_follow σ sink hsink block element.header
          element.size element.size 0 0 s
        have hpkcs := loop_follow hbytes hsink (loops_all
          fun _ _ s hbytes => pkcsBody_follow hsink hbytes s) s
        rw [Nat.sub_zero, Nat.add_zero, ← hbytes] at hec
        rw [Row.upTo_never] at hpkcs
        dsimp only [tlvOf]
        rw [if_neg (not_not_intro htag), if_neg (not_not_intro htag),
          if_pos htag, if_pos htag]
        constructor
        · change _ = BodyEnd.result <$> sink.follow (ecMarks 0
            (elementsWithin element.size element.size element.bytes)) s
          rw [← hec]
          cases tlvLoop block element.header element.size (ecBody sink block)
              element.size 0 (0, s) with
          | error failure => rfl
          | ok ended => cases ended <;> rfl
        · change _ = BodyEnd.result <$> sink.follow
            ((elementsIn element.size element.bytes).bind infoMarks) s
          rw [← hpkcs]
          cases tlvLoop block element.header element.size
              (pkcsBody sink block) element.size 0 s with
          | error failure => rfl
          | ok ended => cases ended <;> rfl
      · dsimp only [tlvOf]
        rw [if_pos htag, if_pos htag, if_neg htag, if_neg htag]
        exact ⟨rfl, rfl⟩

end Containers

section Text

variable {σ : Type} {sink : TlvSink σ}

/-- The characters that are gone through one by one. -/
theorem pemChars_list (text : List UInt8) (place count : Nat) :
    pemChars text place count =
      if count = 0 ∨ place + count ≤ text.length then
        .ok (((text.drop place).take count).filter fun c =>
          c ≠ 0x20 ∧ c ≠ 0x0A ∧ c ≠ 0x0D)
      else .error .undefined := by
  induction count generalizing place with
  | zero =>
      rw [pemChars, if_pos (.inl rfl), List.take_zero]
      rfl
  | succ count ih =>
      rw [pemChars, byteAt]
      by_cases hplace : place < text.length
      · rw [List.getElem?_eq_getElem hplace, List.drop_eq_getElem_cons hplace,
          List.take_succ_cons, List.filter_cons]
        simp only [except_ok_bind]
        rw [ih]
        by_cases hcount : place + (count + 1) ≤ text.length
        · rw [if_pos (.inr (by omega)), if_pos (.inr hcount), except_ok_bind]
          by_cases hkept : text[place] ≠ 0x20 ∧ text[place] ≠ 0x0A ∧
              text[place] ≠ 0x0D
          · rw [if_pos hkept, if_pos (decide_eq_true hkept)]
          · rw [if_neg hkept, if_neg (by simpa using hkept)]
        · rw [if_neg (by omega), if_neg (by omega)]
          rfl
      · rw [List.getElem?_eq_none (Nat.le_of_not_lt hplace), if_neg (by omega)]
        rfl

theorem pemChars_eq (input : CString) (place count : Nat) :
    pemChars (input.bytes ++ [0]) place count =
      match charsAt input place count with
      | some chars => .ok chars
      | none => .error .undefined := by
  rw [pemChars_list, charsAt, List.length_append, List.length_singleton]
  split <;> rfl

variable (hsink : sink.Stays) (grants : Nat → Bool) (input : CString)

/-- The base64 text of a container, decoded and followed. -/
theorem followPem_eq (container : Container) (chars : Option (List UInt8))
    {s : σ} {follow : List UInt8 → Nat → Outcome (BoatResult × σ)}
    (hfollow : ∀ block len, follow block len =
      BodyEnd.result <$> sink.follow (container.read len block) s)
    (hgranted : grants 0 = true) :
    followPem grants
        (some (match chars with
          | some chars => .ok chars
          | none => .error .undefined)) follow s =
      BodyEnd.result <$> sink.follow (container.marksOf chars) s := by
  unfold followPem Container.marksOf
  cases chars with
  | none =>
      simp only [hgranted, ↓reduceIte]
      rfl
  | some chars =>
      simp only [hgranted, ↓reduceIte, except_ok_bind]
      by_cases hfits : DecodesInto160 chars
      · obtain ⟨block, hdecode, hblock⟩ := boatBase64Decode_eq hfits
        rw [if_pos hfits, hdecode]
        simp only [except_ok_bind]
        by_cases hspelled : Spelled chars
        · rw [if_pos hspelled, hblock hspelled]
          by_cases hpair : 2 ≤ (leadingDigits chars).length
          · rw [if_neg (by omega), if_pos ⟨hspelled, hpair⟩]
            exact hfollow _ _
          · rw [if_pos (by omega), if_neg fun hboth => hpair hboth.2]
            rfl
        · rw [if_neg hspelled, if_pos rfl, if_neg fun hboth => hspelled hboth.1]
          rfl
      · rw [if_neg hfits, boatBase64Decode_overflow hfits]
        rfl

theorem followPem_from (container : Container) (start : Nat) {s : σ}
    {follow : List UInt8 → Nat → Outcome (BoatResult × σ)}
    (hfollow : ∀ block len, follow block len =
      BodyEnd.result <$> sink.follow (container.read len block) s) :
    followPem grants
        (pemText input start container.opening container.closing) follow s =
      match (container.charsFrom input start).map container.marksOf with
      | none => .ok (boatError, s)
      | some marks =>
          if grants 0 then BodyEnd.result <$> sink.follow marks s
          else .ok (boatError, s) := by
  unfold pemText Container.charsFrom
  cases strstr container.closing input.bytes with
  | none => rfl
  | some stop =>
      simp only [Option.map_some]
      by_cases hgranted : grants 0 = true
      · rw [if_pos hgranted, pemChars_eq]
        exact followPem_eq grants container _ hfollow hgranted
      · rw [if_neg hgranted]
        exact if_neg hgranted

include hsink

/-- The function follows the marks in its text; without a pair of marks, or
without memory for the text between them, there is nothing to follow. -/
theorem followKeys_follow (s : σ) :
    followKeys sink grants input s =
      match pemMarks input with
      | none => .ok (boatError, s)
      | some marks =>
          if grants 0 then BodyEnd.result <$> sink.follow marks s
          else .ok (boatError, s) := by
  have hpem (container : Container) (start : Nat)
      (hopened : containerOf input = some (container, start)) :
      pemMarks input =
        (container.charsFrom input start).map container.marksOf := by
    rw [pemMarks, pemContent, hopened, Option.map_map]
    rfl
  unfold followKeys
  cases hec : strstr prikeyEcPkcsBegin input.bytes with
  | some start =>
      have hopened : containerOf input = some (ecPrivateKey, start) := by
        simp only [containerOf, ecPrivateKey, hec]
      rw [hpem _ _ hopened]
      exact followPem_from grants input ecPrivateKey start fun block len =>
        (followSequence_follow hsink len s).1
  | none =>
      cases hpkcs : strstr prikeyPkcsBegin input.bytes with
      | some start =>
          have hopened : containerOf input = some (privateKeyInfo, start) := by
            simp only [containerOf, ecPrivateKey, privateKeyInfo, hec, hpkcs]
          rw [hpem _ _ hopened]
          exact followPem_from grants input privateKeyInfo start
            fun block len => (followSequence_follow hsink len s).2
      | none =>
          have hclosed : containerOf input = none := by
            simp only [containerOf, ecPrivateKey, privateKeyInfo, hec, hpkcs]
          rw [pemMarks, pemContent, hclosed]
          rfl

end Text

end BoatFramework
