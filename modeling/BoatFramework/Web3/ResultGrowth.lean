/-
The result buffer in 32-bit arithmetic: when the loop that enlarges it ends, and
what a caller of `eth_parse_json_result` may take from the buffer afterwards.
-/
import BoatFramework.Web3.ParseResult

namespace BoatFramework

/-- The allocator: what it answers to its n-th request, of some size. -/
abbrev Mallocs := Nat → Nat → Option (List UInt8)

/-- The loop that enlarges a buffer of `fieldLen` bytes for a string of `len`
bytes, after `asked` requests for memory: nothing while it runs, then the size
of the buffer, or nothing where memory is refused. -/
def expandLoop (malloc : Mallocs) (len : Nat) :
    Nat → Nat → Nat → Option (Option Nat)
  | 0, _, _ => none
  | fuel + 1, asked, fieldLen =>
      if len < fieldLen then some (some fieldLen)
      else
        match malloc asked (buint32 (fieldLen + web3StringBufStepSize)) with
        | none => some none
        | some _ =>
            expandLoop malloc len fuel (asked + 1)
              (buint32 (fieldLen + web3StringBufStepSize))

/-- Copy a C string into the result buffer; a copy past its end, or through a
null pointer, is undefined. -/
def copyResult32 (malloc : Mallocs) (fuel : Nat) (text : List Char)
    (buffer : ResultBuffer) : Option (Outcome (BoatResult × ResultBuffer)) :=
  match expandLoop malloc (buint32 text.length) fuel 0 buffer.fieldLen with
  | none => none
  | some none => some (.ok (boatErrorCommonOutOfMemory, ⟨none, 0⟩))
  | some (some fieldLen) =>
      if fieldLen ≤ text.length ∨ (buffer.content = none ∧
          buint32 text.length < buffer.fieldLen) then some (.error .undefined)
      else some (.ok (boatSuccess, ⟨some text, fieldLen⟩))

variable (cJSONParse : List Char → Option Json)

/-- `eth_parse_json_result`, run for a number of rounds of its loop. -/
def ethParseJsonResult32 (malloc : Mallocs) (fuel : Nat)
    (jsonString childName : List Char) (buffer : ResultBuffer) :
    Option (Outcome (BoatResult × ResultBuffer)) :=
  match cJSONParse jsonString with
  | none => some (.ok (boatErrorWeb3JsonParseFail, buffer))
  -- the name of an array's item, a null pointer, is compared
  | some (.array (_ :: _)) => some (.error .undefined)
  | some json =>
      match json.getObjectItem "result".toList with
      | none => some (.ok (boatErrorWeb3JsonGetobjFail, buffer))
      | some (.object members) =>
          match (Json.object members).getObjectItem childName with
          | none => some (.ok (boatErrorWeb3JsonGetobjFail, buffer))
          | some (.string text) => copyResult32 malloc fuel text buffer
          | some _ => some (.ok (boatSuccess, buffer))
      | some (.string text) => copyResult32 malloc fuel text buffer
      | some .null => some (.ok (boatErrorJsonObjIsNull, buffer))
      | some _ => some (.ok (boatErrorWeb3JsonParseFail, buffer))

/-- The value a caller asks for: `result` where it is a string, else the string
of that name in it. -/
def Json.namedValue (childName : List Char) : Json → Option (List Char)
  | .string text => some text
  | result =>
      match result.getObjectItem childName with
      | some (.string text) => some text
      | _ => none

/-- A result buffer as callers make one: of a size in 32 bits, and a null
pointer has size zero. -/
structure ResultBuffer.Proper (buffer : ResultBuffer) : Prop where
  size : buffer.fieldLen < 2 ^ 32
  null : buffer.content = none → buffer.fieldLen = 0

/-- What a call owes for the value that is asked for: it ends, without
undefined behaviour; success means that the buffer holds the value and its
terminator and has not become smaller; and a value is not refused where memory
is granted. -/
structure Answers (malloc : Mallocs)
    (run : Nat → Option (Outcome (BoatResult × ResultBuffer)))
    (value : Option (List Char)) (buffer : ResultBuffer) : Prop where
  ends : ∃ fuel code after, run fuel = some (.ok (code, after))
  holds : ∀ fuel after, run fuel = some (.ok (boatSuccess, after)) →
    ∃ text, value = some text ∧ after.content = some text ∧
      text.length < after.fieldLen ∧ buffer.fieldLen ≤ after.fieldLen
  granted : ∀ text, value = some text →
    (∀ asked size, (malloc asked size).isSome) →
    ∃ fuel after, run fuel = some (.ok (boatSuccess, after))

section Loop

variable {malloc : Mallocs} {len : Nat}

variable (malloc) in
/-- The loop ends where one of the next sizes is above the length. -/
theorem expandLoop_ends (rounds asked fieldLen : Nat)
    (hlen : len < fieldLen + rounds * web3StringBufStepSize)
    (hsize : fieldLen + rounds * web3StringBufStepSize < 2 ^ 32) :
    ∃ ended, expandLoop malloc len (rounds + 1) asked fieldLen = some ended ∧
      (∀ size, ended = some size → len < size ∧ fieldLen ≤ size) ∧
      ((∀ asked size, (malloc asked size).isSome) → ended ≠ none) := by
  induction rounds generalizing asked fieldLen with
  | zero =>
      rw [Nat.zero_mul, Nat.add_zero] at hlen
      refine ⟨some fieldLen, if_pos hlen, ?_, fun _ => Option.some_ne_none _⟩
      rintro _ ⟨⟩
      exact ⟨hlen, Nat.le_refl _⟩
  | succ rounds ih =>
      by_cases hfull : len < fieldLen
      · refine ⟨some fieldLen, if_pos hfull, ?_,
          fun _ => Option.some_ne_none _⟩
        rintro _ ⟨⟩
        exact ⟨hfull, Nat.le_refl _⟩
      · have hstep : fieldLen + (rounds + 1) * web3StringBufStepSize =
            fieldLen + web3StringBufStepSize +
              rounds * web3StringBufStepSize := by
          rw [Nat.succ_mul]
          omega
        rw [hstep] at hlen hsize
        have hnext : buint32 (fieldLen + web3StringBufStepSize) =
            fieldLen + web3StringBufStepSize :=
          buint32_of_lt (by omega)
        rw [expandLoop, if_neg hfull, hnext]
        cases hanswer : malloc asked (fieldLen + web3StringBufStepSize) with
        | none =>
            refine ⟨none, rfl, fun _ hnone => (by cases hnone), fun hall => ?_⟩
            have hsome := hall asked (fieldLen + web3StringBufStepSize)
            rw [hanswer] at hsome
            cases hsome
        | some _ =>
            obtain ⟨ended, hrun, hended, hgranted⟩ :=
              ih (asked + 1) (fieldLen + web3StringBufStepSize) hlen hsize
            refine ⟨ended, hrun, fun size hsome => ?_, hgranted⟩
            obtain ⟨hmore, hle⟩ := hended size hsome
            exact ⟨hmore, by omega⟩

/-- With more rounds the loop ends in the same way. -/
theorem expandLoop_mono {fuel asked fieldLen : Nat} {ended : Option Nat}
    (hrun : expandLoop malloc len fuel asked fieldLen = some ended)
    (more : Nat) :
    expandLoop malloc len (fuel + more) asked fieldLen = some ended := by
  induction fuel generalizing asked fieldLen with
  | zero => cases hrun
  | succ fuel ih =>
      rw [Nat.add_right_comm, expandLoop]
      rw [expandLoop] at hrun
      by_cases hfull : len < fieldLen
      · rw [if_pos hfull] at hrun ⊢
        exact hrun
      · rw [if_neg hfull] at hrun ⊢
        split at hrun
        next hanswer => exact hrun
        next hanswer => exact ih hrun

/-- The greatest size the loop comes to is below the next multiple of the
step; a length from there on keeps it running as long as memory is granted. -/
theorem expandLoop_runs (hgrants : ∀ asked size, (malloc asked size).isSome)
    (fuel asked fieldLen : Nat) (hsize : fieldLen < 2 ^ 32)
    (hlong : 2 ^ 32 - web3StringBufStepSize +
      fieldLen % web3StringBufStepSize ≤ len) :
    expandLoop malloc len fuel asked fieldLen = none := by
  have hstep : web3StringBufStepSize = 1024 := rfl
  induction fuel generalizing asked fieldLen with
  | zero => rfl
  | succ fuel ih =>
      rw [hstep] at hlong
      rw [expandLoop, if_neg (by omega)]
      obtain ⟨block, hblock⟩ := Option.isSome_iff_exists.mp
        (hgrants asked (buint32 (fieldLen + web3StringBufStepSize)))
      rw [hblock]
      refine ih (asked + 1) _ (buint32_lt _) ?_
      unfold buint32
      rw [hstep]
      omega

/-- More rounds than are needed make no difference. -/
theorem growUntil_mono {malloc : Nat → Option (List UInt8)}
    (rounds fieldLen more : Nat)
    (hlen : len < fieldLen + rounds * web3StringBufStepSize) :
    growUntil malloc len (rounds + 1 + more) fieldLen =
      growUntil malloc len (rounds + 1) fieldLen := by
  induction rounds generalizing fieldLen with
  | zero =>
      rw [Nat.zero_mul, Nat.add_zero] at hlen
      rw [Nat.add_right_comm, growUntil, if_pos hlen, growUntil, if_pos hlen]
  | succ rounds ih =>
      rw [Nat.add_right_comm, growUntil, growUntil]
      by_cases hfull : len < fieldLen
      · rw [if_pos hfull, if_pos hfull]
      · rw [if_neg hfull, if_neg hfull]
        cases malloc (fieldLen + web3StringBufStepSize) with
        | none => rfl
        | some _ =>
            apply ih
            rw [Nat.succ_mul] at hlen
            omega

/-- Where the sizes stay below `2 ^ 32` the loop is the one without a bound. -/
theorem expandLoop_eq_growUntil {malloc : Nat → Option (List UInt8)}
    (rounds asked fieldLen : Nat)
    (hlen : len < fieldLen + rounds * web3StringBufStepSize)
    (hsize : fieldLen + rounds * web3StringBufStepSize < 2 ^ 32) :
    expandLoop (fun _ => malloc) len (rounds + 1) asked fieldLen =
      some (growUntil malloc len (rounds + 1) fieldLen) := by
  induction rounds generalizing asked fieldLen with
  | zero =>
      rw [Nat.zero_mul, Nat.add_zero] at hlen
      rw [expandLoop, if_pos hlen, growUntil, if_pos hlen]
  | succ rounds ih =>
      rw [expandLoop, growUntil]
      by_cases hfull : len < fieldLen
      · rw [if_pos hfull, if_pos hfull]
      · have hstep : fieldLen + (rounds + 1) * web3StringBufStepSize =
            fieldLen + web3StringBufStepSize +
              rounds * web3StringBufStepSize := by
          rw [Nat.succ_mul]
          omega
        rw [hstep] at hlen hsize
        rw [if_neg hfull, if_neg hfull, buint32_of_lt (by omega)]
        cases malloc (fieldLen + web3StringBufStepSize) with
        | none => rfl
        | some _ => exact ih _ _ hlen hsize

/-- Memory that is refused has been asked for. -/
theorem expandLoop_ne_refused
    (hgrants : ∀ asked size, (malloc asked size).isSome)
    (fuel asked fieldLen : Nat) :
    expandLoop malloc len fuel asked fieldLen ≠ some none := by
  induction fuel generalizing asked fieldLen with
  | zero => exact fun hrefused => by cases hrefused
  | succ fuel ih =>
      rw [expandLoop]
      split
      · exact fun hrefused => by cases hrefused
      · obtain ⟨block, hblock⟩ := Option.isSome_iff_exists.mp
          (hgrants asked (buint32 (fieldLen + web3StringBufStepSize)))
        rw [hblock]
        exact ih _ _

theorem expandLoop_lt {fuel asked fieldLen size : Nat}
    (hsize : fieldLen < 2 ^ 32)
    (hrun : expandLoop malloc len fuel asked fieldLen = some (some size)) :
    size < 2 ^ 32 := by
  induction fuel generalizing asked fieldLen with
  | zero => cases hrun
  | succ fuel ih =>
      rw [expandLoop] at hrun
      split at hrun
      · obtain rfl := Option.some.inj (Option.some.inj hrun)
        exact hsize
      · split at hrun
        · cases hrun
        · exact ih (buint32_lt _) hrun

/-- A buffer of this size can be enlarged for a string of `len` bytes. -/
def Expandable (fieldLen len : Nat) : Prop :=
  len < 2 ^ 32 - web3StringBufStepSize + fieldLen % web3StringBufStepSize
deriving Decidable

theorem Expandable.rounds {fieldLen : Nat} (hsize : fieldLen < 2 ^ 32)
    (hfits : Expandable fieldLen len) :
    ∃ rounds, len < fieldLen + rounds * web3StringBufStepSize ∧
      fieldLen + rounds * web3StringBufStepSize < 2 ^ 32 := by
  have hstep : web3StringBufStepSize = 1024 := rfl
  rw [Expandable, hstep] at hfits
  refine ⟨(2 ^ 32 - 1024 + fieldLen % 1024 - fieldLen) / 1024, ?_⟩
  rw [hstep]
  omega

end Loop

section Copy

variable {buffer : ResultBuffer} {text : List Char}

/-- A string that the buffer can be enlarged for is copied, or memory is
refused. -/
theorem copyResult32_answers (malloc : Mallocs) (hproper : buffer.Proper)
    (hfits : Expandable buffer.fieldLen text.length) :
    Answers malloc (copyResult32 malloc · text buffer) (some text) buffer := by
  have hsize := hproper.size
  obtain ⟨rounds, hlong, hlt⟩ := hfits.rounds hsize
  have hlen : buint32 text.length = text.length := buint32_of_lt (by omega)
  obtain ⟨ended, hrun, hended, hgranted⟩ :=
    expandLoop_ends malloc rounds 0 buffer.fieldLen hlong hlt
  have hcopy : ∀ fieldLen, ended = some fieldLen →
      copyResult32 malloc (rounds + 1) text buffer =
        some (.ok (boatSuccess, ⟨some text, fieldLen⟩)) := by
    rintro fieldLen rfl
    obtain ⟨hmore, hle⟩ := hended fieldLen rfl
    have hdefined : ¬(fieldLen ≤ text.length ∨ (buffer.content = none ∧
        buint32 text.length < buffer.fieldLen)) := by
      rintro (hshort | ⟨hnull, hless⟩)
      · omega
      · have hzero := hproper.null hnull
        omega
    simp only [copyResult32, hlen, hrun] at hdefined ⊢
    rw [if_neg hdefined]
  constructor
  · cases ended with
    | none =>
        refine ⟨rounds + 1, boatErrorCommonOutOfMemory, ⟨none, 0⟩, ?_⟩
        simp only [copyResult32, hlen, hrun]
    | some fieldLen => exact ⟨rounds + 1, _, _, hcopy fieldLen rfl⟩
  · intro fuel after hafter
    simp only [copyResult32] at hafter
    split at hafter
    · cases hafter
    · cases hafter
    next fieldLen hloop =>
      split at hafter
      · cases hafter
      next hdefined =>
        obtain rfl := (Prod.mk.inj (Except.ok.inj (Option.some.inj hafter))).2
        have hlast := expandLoop_mono hloop (rounds + 1)
        have hfirst := expandLoop_mono hrun fuel
        rw [Nat.add_comm, ← hlen, hlast] at hfirst
        obtain ⟨hmore, hle⟩ := hended fieldLen (Option.some.inj hfirst).symm
        exact ⟨text, rfl, rfl, hmore, hle⟩
  · rintro _ ⟨⟩ hgrants
    cases ended with
    | none => exact absurd rfl (hgranted hgrants)
    | some fieldLen => exact ⟨rounds + 1, _, hcopy fieldLen rfl⟩

/-- Such a copy is the one without a bound on the sizes. -/
theorem copyResult32_eq (malloc : Nat → Option (List UInt8))
    (hproper : buffer.Proper)
    (hfits : Expandable buffer.fieldLen text.length) :
    ∃ fuel, copyResult32 (fun _ => malloc) fuel text buffer =
      some (.ok (copyResult malloc text buffer)) := by
  have hstep : web3StringBufStepSize = 1024 := rfl
  have hsize := hproper.size
  obtain ⟨rounds, hlong, hlt⟩ := hfits.rounds hsize
  have hlen : buint32 text.length = text.length := buint32_of_lt (by omega)
  obtain ⟨ended, hrun, hended, _⟩ :=
    expandLoop_ends (fun _ => malloc) rounds 0 buffer.fieldLen hlong hlt
  have henough : growUntil malloc text.length (text.length + 2)
      buffer.fieldLen = ended := by
    have hloop : expandLoop (fun _ => malloc) text.length (rounds + 1) 0
        buffer.fieldLen =
          some (growUntil malloc text.length (rounds + 1) buffer.fieldLen) :=
      expandLoop_eq_growUntil rounds 0 _ hlong hlt
    rw [hrun] at hloop
    rw [Option.some.inj hloop, ← growUntil_mono rounds _ (text.length + 2) hlong,
      ← growUntil_mono (text.length + 1) _ (rounds + 1)
        (by rw [hstep]; omega)]
    congr 1
    omega
  refine ⟨rounds + 1, ?_⟩
  simp only [copyResult32, copyResult, hlen, hrun, henough]
  cases ended with
  | none => rfl
  | some fieldLen =>
      obtain ⟨hmore, hle⟩ := hended fieldLen rfl
      have hdefined : ¬(fieldLen ≤ text.length ∨ (buffer.content = none ∧
          text.length < buffer.fieldLen)) := by
        rintro (hshort | ⟨hnull, hless⟩)
        · omega
        · have hzero := hproper.null hnull
          omega
      exact if_neg hdefined

/-- The allocator that refuses nothing. -/
def grantingMallocs : Mallocs :=
  fun _ _ => some []

/-- For a longer string the loop does not end while memory is granted, or the
copy passes the end of the buffer. -/
theorem copyResult32_stuck (hsize : buffer.fieldLen < 2 ^ 32)
    (hlong : ¬Expandable buffer.fieldLen text.length) (fuel : Nat)
    (answer : BoatResult × ResultBuffer) :
    copyResult32 grantingMallocs fuel text buffer ≠ some (.ok answer) := by
  intro hrun
  rw [Expandable] at hlong
  rcases Nat.lt_or_ge text.length (2 ^ 32) with hlt | hge
  · have hloop : expandLoop grantingMallocs text.length fuel 0 buffer.fieldLen =
        none :=
      expandLoop_runs (fun _ _ => rfl) fuel 0 _ hsize (Nat.le_of_not_lt hlong)
    simp only [copyResult32, buint32_of_lt hlt, hloop] at hrun
    cases hrun
  · simp only [copyResult32] at hrun
    split at hrun
    · cases hrun
    next hloop => exact expandLoop_ne_refused (fun _ _ => rfl) _ _ _ hloop
    next fieldLen hloop =>
      have hless := expandLoop_lt hsize hloop
      rw [if_pos (.inl (by omega))] at hrun
      cases hrun

end Copy

variable {cJSONParse}

theorem Answers.of_const {malloc : Mallocs} {value : Option (List Char)}
    {buffer after : ResultBuffer} {code : BoatResult} (hcode : code ≠ boatSuccess)
    (hvalue : value = none) :
    Answers malloc (fun _ => some (.ok (code, after))) value buffer where
  ends := ⟨0, code, after, rfl⟩
  holds fuel after' hrun :=
    absurd (Prod.mk.inj (Except.ok.inj (Option.some.inj hrun))).1 hcode
  granted text hsome := by
    rw [hvalue] at hsome
    cases hsome

/-- What is asked for in a response: nothing where there is no result. -/
def responseValue (childName : List Char) (response : Option Json) :
    Option (List Char) :=
  match response with
  | none => none
  | some json =>
      match json.getObjectItem "result".toList with
      | none => none
      | some result => result.namedValue childName

/-- A response whose result is an object with a child of that name that is no
string. -/
def Unimplemented (childName : List Char) (response : Option Json) : Prop :=
  ∃ json members child, response = some json ∧
    json.getObjectItem "result".toList = some (.object members) ∧
    (Json.object members).getObjectItem childName = some child ∧
    ∀ text, child ≠ .string text

/-- The three ways of a call: an error, a copy, and a success without one. -/
inductive ParseExit (childName : List Char) (response : Option Json)
    (buffer : ResultBuffer)
    (run : Mallocs → Nat → Option (Outcome (BoatResult × ResultBuffer))) :
    Prop where
  | failed (code : BoatResult) (hcode : code ≠ boatSuccess)
      (hvalue : responseValue childName response = none)
      (himplemented : ¬Unimplemented childName response)
      (hrun : ∀ malloc fuel, run malloc fuel = some (.ok (code, buffer)))
  | copied (text : List Char)
      (hvalue : responseValue childName response = some text)
      (himplemented : ¬Unimplemented childName response)
      (hrun : ∀ malloc fuel,
        run malloc fuel = copyResult32 malloc fuel text buffer)
  | skipped (hvalue : responseValue childName response = none)
      (hunimplemented : Unimplemented childName response)
      (hrun : ∀ malloc fuel,
        run malloc fuel = some (.ok (boatSuccess, buffer)))

theorem unimplemented_iff (childName : List Char) {json : Json}
    {members : List (List Char × Json)}
    (hresult : json.getObjectItem "result".toList = some (.object members)) :
    Unimplemented childName (some json) ↔
      ∃ child, (Json.object members).getObjectItem childName = some child ∧
        ∀ text, child ≠ .string text := by
  constructor
  · rintro ⟨_, _, child, ⟨⟩, hobject, hchild, hstring⟩
    rw [hresult] at hobject
    cases hobject
    exact ⟨child, hchild, hstring⟩
  · rintro ⟨child, hchild, hstring⟩
    exact ⟨json, members, child, rfl, hresult, hchild, hstring⟩

theorem not_unimplemented {childName : List Char} {json result : Json}
    (hresult : json.getObjectItem "result".toList = some result)
    (hobject : ∀ members, result ≠ .object members) :
    ¬Unimplemented childName (some json) := by
  rintro ⟨_, members, _, ⟨⟩, hmembers, _⟩
  rw [hresult] at hmembers
  exact hobject members (Option.some.inj hmembers)

section Exits

variable (jsonString childName : List Char) (buffer : ResultBuffer)

variable (cJSONParse) in
/-- A response whose items are nameless is undefined. -/
theorem ethParseJsonResult32_nameless
    (hnameless : Nameless (cJSONParse jsonString)) (malloc : Mallocs)
    (fuel : Nat) :
    ethParseJsonResult32 cJSONParse malloc fuel jsonString childName buffer =
      some (.error .undefined) := by
  obtain ⟨item, items, hresponse⟩ := hnameless
  unfold ethParseJsonResult32
  rw [hresponse]

variable (cJSONParse) in
theorem ethParseJsonResult32_exits
    (hnamed : ¬Nameless (cJSONParse jsonString)) :
    ParseExit childName (cJSONParse jsonString) buffer fun malloc fuel =>
      ethParseJsonResult32 cJSONParse malloc fuel jsonString childName
        buffer := by
  unfold ethParseJsonResult32
  cases hjson : cJSONParse jsonString with
  | none =>
      refine .failed boatErrorWeb3JsonParseFail (by decide) rfl ?_
        fun _ _ => rfl
      rintro ⟨_, _, _, hnone, _⟩
      cases hnone
  | some json =>
      have hitems : ∀ item items, json ≠ .array (item :: items) := by
        rintro item items rfl
        exact hnamed ⟨item, items, hjson⟩
      simp only
      cases hresult : json.getObjectItem "result".toList with
      | none =>
          refine .failed boatErrorWeb3JsonGetobjFail (by decide) ?_ ?_
            fun _ _ => rfl
          · simp only [responseValue, hresult]
          · rintro ⟨_, _, _, ⟨⟩, hobject, _⟩
            rw [hresult] at hobject
            cases hobject
      | some result =>
          have hvalue : responseValue childName (some json) =
              result.namedValue childName := by
            simp only [responseValue, hresult]
          cases result with
          | object members =>
              have hiff := unimplemented_iff childName hresult
              simp only
              cases hchild : (Json.object members).getObjectItem childName with
              | none =>
                  refine .failed boatErrorWeb3JsonGetobjFail (by decide) ?_ ?_
                    fun _ _ => rfl
                  · simp only [hvalue, Json.namedValue, hchild]
                  · rw [hiff, hchild]
                    rintro ⟨_, hsome, _⟩
                    cases hsome
              | some child =>
                  by_cases hstring : ∃ text, child = .string text
                  · obtain ⟨text, rfl⟩ := hstring
                    refine .copied text ?_ ?_ fun _ _ => rfl
                    · simp only [hvalue, Json.namedValue, hchild]
                    · rw [hiff, hchild]
                      rintro ⟨_, ⟨⟩, hnever⟩
                      exact hnever text rfl
                  · have hnever : ∀ text, child ≠ .string text :=
                      fun text heq => hstring ⟨text, heq⟩
                    refine .skipped ?_ (hiff.mpr ⟨child, hchild, hnever⟩) ?_
                    · rw [hvalue, Json.namedValue, hchild]
                      · cases child with
                        | string text => exact absurd rfl (hnever text)
                        | _ => rfl
                      · exact fun _ hobject => by cases hobject
                    · intro _ _
                      cases child with
                      | string text => exact absurd rfl (hnever text)
                      | _ => rfl
          | string text =>
              exact .copied text hvalue
                (not_unimplemented hresult fun _ hobject => by cases hobject)
                fun _ _ => rfl
          | null =>
              exact .failed boatErrorJsonObjIsNull (by decide) hvalue
                (not_unimplemented hresult fun _ hobject => by cases hobject)
                fun _ _ => rfl
          | _ =>
              exact .failed boatErrorWeb3JsonParseFail (by decide) hvalue
                (not_unimplemented hresult fun _ hobject => by cases hobject)
                fun _ _ => rfl

end Exits

/-- A call answers whatever the allocator does exactly where the value that is
asked for can be held, its child is not one that is skipped, and the response
is no array with items. -/
theorem ethParseJsonResult_answers_iff (cJSONParse : List Char → Option Json)
    (jsonString childName : List Char) (buffer : ResultBuffer)
    (hproper : buffer.Proper) :
    (∀ malloc, Answers malloc
      (ethParseJsonResult32 cJSONParse malloc · jsonString childName buffer)
      (responseValue childName (cJSONParse jsonString)) buffer) ↔
    (∀ text, responseValue childName (cJSONParse jsonString) = some text →
      Expandable buffer.fieldLen text.length) ∧
    ¬Unimplemented childName (cJSONParse jsonString) ∧
    ¬Nameless (cJSONParse jsonString) := by
  by_cases hnamed : Nameless (cJSONParse jsonString)
  · constructor
    · intro hanswers
      obtain ⟨fuel, code, after, hend⟩ := (hanswers grantingMallocs).ends
      rw [ethParseJsonResult32_nameless cJSONParse jsonString childName buffer
        hnamed] at hend
      cases hend
    · rintro ⟨-, -, hnone⟩
      exact absurd hnamed hnone
  cases ethParseJsonResult32_exits cJSONParse jsonString
    childName buffer hnamed with
  | failed code hcode hvalue himplemented hrun =>
      constructor
      · intro _
        rw [hvalue]
        exact ⟨fun _ hsome => (by cases hsome), himplemented, hnamed⟩
      · intro _ malloc
        simp only [hrun]
        exact Answers.of_const hcode hvalue
  | copied text hvalue himplemented hrun =>
      constructor
      · intro hanswers
        refine ⟨fun value hsome => ?_, himplemented, hnamed⟩
        rw [hvalue] at hsome
        obtain rfl := Option.some.inj hsome
        apply Decidable.of_not_not
        intro hlong
        obtain ⟨fuel, code, after, hend⟩ := (hanswers grantingMallocs).ends
        simp only [hrun] at hend
        exact copyResult32_stuck hproper.size hlong fuel _ hend
      · rintro ⟨hfits, _⟩ malloc
        simp only [hrun, hvalue]
        exact copyResult32_answers malloc hproper (hfits text hvalue)
  | skipped hvalue hunimplemented hrun =>
      constructor
      · intro hanswers
        obtain ⟨text, hsome, _⟩ := (hanswers grantingMallocs).holds 0 buffer
          (hrun grantingMallocs 0)
        rw [hvalue] at hsome
        cases hsome
      · rintro ⟨_, himplemented, _⟩
        exact absurd hunimplemented himplemented

/-- A response with a number where a string may be asked for. -/
def numberResponse : List Char :=
  "\x7b\"result\":\x7b\"hash\":1\x7d\x7d".toList

/-- A response with a string. -/
def stringResponse : List Char :=
  "\x7b\"result\":\"0x1\"\x7d".toList

/-- The two responses as they are parsed. -/
def parseSample (text : List Char) : Option Json :=
  if text = numberResponse then
    some (.object [("result".toList,
      .object [("hash".toList, .number "1".toList)])])
  else if text = stringResponse then
    some (.object [("result".toList, .string "0x1".toList)])
  else none

/-- A buffer with the answer to an earlier request. -/
def usedBuffer : ResultBuffer :=
  ⟨some "0x2a".toList, 1024⟩

theorem usedBuffer_proper : usedBuffer.Proper where
  size := by decide
  null hnull := by cases hnull

theorem ethParseJsonResult_answers_string :
    Answers grantingMallocs
      (ethParseJsonResult32 parseSample grantingMallocs · stringResponse []
        usedBuffer) (some "0x1".toList) usedBuffer :=
  (ethParseJsonResult_answers_iff parseSample stringResponse [] usedBuffer
    usedBuffer_proper).mpr
      ⟨fun _ hsome => by cases hsome; decide,
        fun ⟨_, _, _, hjson, hobject, _⟩ => (by cases hjson; cases hobject),
        fun ⟨_, _, hjson⟩ => by cases hjson⟩
      grantingMallocs

/-- The earlier answer stands in the buffer after a success. -/
theorem not_ethParseJsonResult_answers :
    ethParseJsonResult32 parseSample grantingMallocs 1 numberResponse
        "hash".toList usedBuffer = some (.ok (boatSuccess, usedBuffer)) ∧
      ¬Answers grantingMallocs
        (ethParseJsonResult32 parseSample grantingMallocs · numberResponse
          "hash".toList usedBuffer)
        (responseValue "hash".toList (parseSample numberResponse))
        usedBuffer := by
  refine ⟨rfl, fun hanswers => ?_⟩
  obtain ⟨text, hsome, _⟩ := hanswers.holds 1 usedBuffer rfl
  cases hsome

end BoatFramework
