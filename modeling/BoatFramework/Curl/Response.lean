/-
The libcurl port: the callback that gathers the chunks of a response in a buffer
of whole steps, and the request that resets the buffer, hands it to libcurl and
gives it back.  A chunk that needs a larger buffer is dropped where memory is
refused, and reported to libcurl as written.
-/
import BoatFramework.Base.Exec
import BoatFramework.Utility.Result

namespace BoatFramework

def boatErrorCurlInitFail : BoatResult := -10300000
def boatErrorCurlSetoptFail : BoatResult := -10300001
def boatErrorCurlSlistAppendFail : BoatResult := -10300002
def boatErrorCurlCodeFail : BoatResult := -10301000
def boatErrorCurlInfoFail : BoatResult := -10302000

def curlportRecvBufSizeStep : Nat := 1024

/-- `StringWithLen`: the block at `string_ptr`, and the two recorded sizes. -/
structure StringWithLen where
  block : List UInt8
  stringLen : Nat
  stringSpace : Nat
deriving DecidableEq

/-- Memory as an allocator hands it out, of some contents. -/
def mallocBlock (contents : Nat → UInt8) (size : Nat) : List UInt8 :=
  (List.range size).map contents

/-- A chunk of a response, and what `BoatMalloc` answers should it be asked. -/
structure CurlChunk where
  data : List UInt8
  malloc : Option (Nat → UInt8)

/-- `string_space - string_len`. -/
def StringWithLen.spare (mem : StringWithLen) : Nat :=
  asBuint32 (mem.stringSpace - mem.stringLen)

/-- `expanded_to_space`. -/
def expandedToSpace (mem : StringWithLen) (dataSize : Nat) : Nat :=
  let expandSize := buint32 (dataSize - mem.spare + 1)
  let expandSteps := asBuint32 (expandSize - 1) / curlportRecvBufSizeStep + 1
  buint32 (expandSteps * curlportRecvBufSizeStep + mem.stringSpace)

/-- `CurlPortWriteMemoryCallback`: the size it reports, and the buffer. -/
def curlPortWriteMemoryCallback (mem : StringWithLen) (chunk : CurlChunk) :
    Outcome (Nat × StringWithLen) :=
  let dataSize := chunk.data.length
  let stringLen := buint32 (mem.stringLen + dataSize)
  if dataSize < mem.spare then do
    let block ← storeAt mem.block mem.stringLen chunk.data
    let block ← storeAt block stringLen [0]
    return (dataSize, ⟨block, stringLen, mem.stringSpace⟩)
  else
    match chunk.malloc with
    | none => return (dataSize, mem)
    | some contents => do
        let expandedToSpace := expandedToSpace mem dataSize
        let text ← loadAt mem.block 0 mem.stringLen
        let block ← storeAt (mallocBlock contents expandedToSpace) 0 text
        let block ← storeAt block mem.stringLen chunk.data
        let block ← storeAt block stringLen [0]
        return (dataSize, ⟨block, stringLen, expandedToSpace⟩)

/-- libcurl hands the chunks over until one is not reported as written. -/
def curlDeliver (mem : StringWithLen) :
    List CurlChunk → Outcome (Bool × StringWithLen)
  | [] => .ok (true, mem)
  | chunk :: chunks => do
      let (written, mem) ← curlPortWriteMemoryCallback mem chunk
      if written = chunk.data.length then curlDeliver mem chunks
      else return (false, mem)

/-- The buffer of `CurlPortInit`. -/
def curlPortInit (contents : Nat → UInt8) : StringWithLen where
  block := mallocBlock contents curlportRecvBufSizeStep
  stringLen := 0
  stringSpace := curlportRecvBufSizeStep

/-- Why libcurl is not asked at all. -/
inductive CurlStartFailure where
  | easyInit
  | setoptUrl
  | slistAppend

def CurlStartFailure.code : CurlStartFailure → BoatResult
  | .easyInit => boatErrorCurlInitFail
  | .setoptUrl => boatErrorCurlSetoptFail
  | .slistAppend => boatErrorCurlSlistAppendFail

/-- What libcurl does in one request: the chunks it receives, the `CURLcode` of
`curl_easy_perform` and the response code, which has three digits. -/
structure CurlTransfer where
  chunks : List CurlChunk
  performed : UInt8
  info : Fin 1000

inductive CurlRequest where
  | notStarted (failure : CurlStartFailure)
  | started (transfer : CurlTransfer)

/-- `CURLE_WRITE_ERROR`. -/
def curleWriteError : UInt8 := 23

/-- `CurlPortRequestSync`: an error, or the length that is handed back together
with the buffer; and the buffer for the next request. -/
def curlPortRequestSync (mem : StringWithLen) :
    CurlRequest → Outcome (Except BoatResult Nat × StringWithLen)
  | .notStarted failure => .ok (.error failure.code, mem)
  | .started transfer => do
      let block ← storeAt mem.block 0 [0]
      let (written, mem) ← curlDeliver ⟨block, 0, mem.stringSpace⟩
        transfer.chunks
      let curlResult := if written then transfer.performed else curleWriteError
      if curlResult ≠ 0 then
        return (.error (boatErrorCurlCodeFail - curlResult.toNat), mem)
      else if transfer.info = 200 ∨ transfer.info = 201 then
        return (.ok mem.stringLen, mem)
      else return (.error (boatErrorCurlInfoFail - transfer.info.val), mem)

/-- The body of a response. -/
def CurlRequest.body : CurlRequest → List UInt8
  | .notStarted _ => []
  | .started transfer => transfer.chunks.flatMap CurlChunk.data

/-- A buffer that a request can use: its block has the recorded size, whole
steps in 32 bits, and the recorded length is inside. -/
structure StringWithLen.Valid (mem : StringWithLen) : Prop where
  block : mem.block.length = mem.stringSpace
  steps : curlportRecvBufSizeStep ∣ mem.stringSpace
  space : mem.stringSpace < 2 ^ 32
  len : mem.stringLen < mem.stringSpace

/-- What a request owes: success hands back the body, terminated; anything else
is an error; and the buffer can be used by the next request. -/
structure RequestAnswered (request : CurlRequest)
    (result : Except BoatResult Nat) (after : StringWithLen) : Prop where
  success : ∀ len, result = .ok len → len = request.body.length ∧
    len < after.stringSpace ∧
    ∃ behind, after.block = request.body ++ 0 :: behind
  failure : ∀ code, result = .error code → code ≠ boatSuccess
  valid : after.Valid

/-- Every request of a sequence is answered as it should be. -/
def RequestsAnswered (mem : StringWithLen) : List CurlRequest → Prop
  | [] => True
  | request :: requests => ∃ result after,
      curlPortRequestSync mem request = .ok (result, after) ∧
        RequestAnswered request result after ∧
          RequestsAnswered after requests

/-- The next whole number of steps above a length. -/
def stepsAbove (total : Nat) : Nat :=
  (total / curlportRecvBufSizeStep + 1) * curlportRecvBufSizeStep

/-- The sizes over the chunks of a response: the space at its end, and whether
memory was refused; nothing where a space is asked for that is not below
2 ^ 32. -/
def curlSizes (space len : Nat) : List CurlChunk → Option (Nat × Bool)
  | [] => some (space, false)
  | chunk :: chunks =>
      let total := len + chunk.data.length
      if total < space then curlSizes space total chunks
      else
        match chunk.malloc with
        | none => (curlSizes space len chunks).map fun ⟨space, _⟩ =>
            (space, true)
        | some _ =>
            if total + curlportRecvBufSizeStep < 2 ^ 32 then
              curlSizes (stepsAbove total) total chunks
            else none

/-- libcurl reports success. -/
def CurlTransfer.Succeeds (transfer : CurlTransfer) : Prop :=
  transfer.performed = 0 ∧ (transfer.info = 200 ∨ transfer.info = 201)

/-- No request asks for a space that is not below 2 ^ 32, and none that libcurl
reports as a success was refused memory. -/
def RequestsServed (space : Nat) : List CurlRequest → Prop
  | [] => True
  | .notStarted _ :: requests => RequestsServed space requests
  | .started transfer :: requests => ∃ after refused,
      curlSizes space 0 transfer.chunks = some (after, refused) ∧
        (transfer.Succeeds → refused = false) ∧ RequestsServed after requests

/-- A usable buffer with a terminated text in it. -/
structure StringWithLen.Holds (mem : StringWithLen) (text : List UInt8) :
    Prop where
  valid : mem.Valid
  len : mem.stringLen = text.length
  block : ∃ behind, mem.block = text ++ 0 :: behind

theorem lt_stepsAbove (total : Nat) : total < stepsAbove total := by
  unfold stepsAbove curlportRecvBufSizeStep
  omega

theorem stepsAbove_le (total : Nat) :
    stepsAbove total ≤ total + curlportRecvBufSizeStep := by
  unfold stepsAbove curlportRecvBufSizeStep
  omega

theorem dvd_stepsAbove (total : Nat) :
    curlportRecvBufSizeStep ∣ stepsAbove total :=
  Nat.dvd_mul_left _ _

theorem length_mallocBlock (contents : Nat → UInt8) (size : Nat) :
    (mallocBlock contents size).length = size := by
  rw [mallocBlock, List.length_map, List.length_range]

theorem storeAt_error {block bytes : List UInt8} {offset : Nat}
    {failure : Failure} (hstore : storeAt block offset bytes = .error failure) :
    failure = .undefined := by
  unfold storeAt at hstore
  split at hstore
  · cases hstore
  · exact (Except.error.inj hstore).symm

/-- Bytes and a terminator behind a text. -/
theorem storeAt_terminated {text data block : List UInt8}
    (htext : block.take text.length = text)
    (hfits : text.length + data.length < block.length) :
    ∃ stored behind, storeAt block text.length data = .ok stored ∧
      storeAt stored (text.length + data.length) [0] =
        .ok (text ++ data ++ 0 :: behind) ∧
      (text ++ data ++ 0 :: behind).length = block.length := by
  have hbehind : 0 < (block.drop (text.length + data.length)).length := by
    rw [List.length_drop]
    omega
  obtain ⟨last, behind, hlast⟩ :=
    List.exists_cons_of_length_pos hbehind
  refine ⟨text ++ data ++ last :: behind, behind, ?_, ?_, ?_⟩
  · rw [storeAt_of_le (Nat.le_of_lt hfits), htext, hlast]
  · have hstore := @storeAt_append (text ++ data) behind [last] [0] rfl
    rw [List.append_assoc (text ++ data), List.append_assoc (text ++ data),
      List.length_append] at hstore
    exact hstore
  · have hlength := congrArg List.length hlast
    rw [List.length_drop, List.length_cons] at hlength
    rw [List.length_append, List.length_append, List.length_cons]
    omega

/-- Bytes and a terminator in a block that ends before the terminator. -/
theorem storeAt_overflows {α : Type} {block data : List UInt8} {offset : Nat}
    (hspace : block.length < 2 ^ 32)
    (hsmall : block.length ≤ offset + data.length)
    (next : List UInt8 → Outcome α) :
    (do
      let block ← storeAt block offset data
      let block ← storeAt block (buint32 (offset + data.length)) [0]
      next block) = .error .undefined := by
  by_cases hfits : offset + data.length ≤ block.length
  · have hstored := storeAt_of_le hfits
    have hlength := length_of_storeAt hstored
    have hlen : buint32 (offset + data.length) = offset + data.length :=
      buint32_of_lt (by omega)
    rw [hstored, Exec.except_ok_bind, hlen, storeAt, if_neg]
    · rfl
    · rw [hlength, List.length_singleton]
      omega
  · rw [storeAt, if_neg hfits]
    rfl

section Chunks

variable {mem : StringWithLen} {text : List UInt8} {chunk : CurlChunk}

theorem StringWithLen.Holds.spare_eq (hholds : mem.Holds text) :
    mem.spare = mem.stringSpace - text.length := by
  have hspace := hholds.valid.space
  have hlen := hholds.valid.len
  rw [hholds.len] at hlen
  rw [spare, asBuint32, hholds.len]
  omega

theorem StringWithLen.Holds.take_block (hholds : mem.Holds text) :
    mem.block.take text.length = text := by
  obtain ⟨behind, hblock⟩ := hholds.block
  rw [hblock, List.take_left]

theorem StringWithLen.Holds.loadAt_block (hholds : mem.Holds text) :
    loadAt mem.block 0 text.length = .ok text := by
  obtain ⟨behind, hblock⟩ := hholds.block
  have hload := loadAt_append [] text (0 :: behind)
  rw [List.nil_append, ← hblock] at hload
  exact hload

/-- A chunk that fits is put behind the text. -/
theorem callback_fits (hholds : mem.Holds text)
    (hfits : text.length + chunk.data.length < mem.stringSpace) :
    ∃ after, curlPortWriteMemoryCallback mem chunk =
        .ok (chunk.data.length, after) ∧
      after.Holds (text ++ chunk.data) ∧
      after.stringSpace = mem.stringSpace := by
  have hspace := hholds.valid.space
  have hblock := hholds.valid.block
  have hspare : chunk.data.length < mem.spare := by
    rw [hholds.spare_eq]
    omega
  have hlen : buint32 (text.length + chunk.data.length) =
      text.length + chunk.data.length :=
    buint32_of_lt (by omega)
  obtain ⟨stored, behind, hdata, hnul, hlength⟩ :=
    @storeAt_terminated text chunk.data mem.block hholds.take_block (by omega)
  refine ⟨⟨text ++ chunk.data ++ 0 :: behind, text.length + chunk.data.length,
    mem.stringSpace⟩, ?_, ⟨⟨?_, hholds.valid.steps, hspace, hfits⟩, ?_, ?_⟩,
    rfl⟩
  · simp only [curlPortWriteMemoryCallback, if_pos hspare, hholds.len, hlen,
      hdata, Exec.except_ok_bind, hnul]
    rfl
  · exact hlength.trans hblock
  · rw [List.length_append]
  · exact ⟨behind, rfl⟩

/-- A chunk that does not fit is dropped where memory is refused. -/
theorem callback_refused (hholds : mem.Holds text)
    (hlong : ¬ text.length + chunk.data.length < mem.stringSpace)
    (hmalloc : chunk.malloc = none) :
    curlPortWriteMemoryCallback mem chunk = .ok (chunk.data.length, mem) := by
  have hspare : ¬ chunk.data.length < mem.spare := by
    rw [hholds.spare_eq]
    omega
  simp only [curlPortWriteMemoryCallback, if_neg hspare, hmalloc]
  rfl

/-- The new space is the next whole number of steps above the text, in 32
bits. -/
theorem expandedToSpace_eq (hholds : mem.Holds text) {dataSize : Nat}
    (hlong : ¬ text.length + dataSize < mem.stringSpace) :
    expandedToSpace mem dataSize =
      buint32 (stepsAbove (text.length + dataSize)) := by
  have hspace := hholds.valid.space
  have hlen := hholds.valid.len
  obtain ⟨steps, hsteps⟩ := hholds.valid.steps
  rw [hholds.len] at hlen
  unfold expandedToSpace
  simp only [hholds.spare_eq, hsteps, stepsAbove, curlportRecvBufSizeStep,
    buint32, asBuint32] at *
  omega

/-- A chunk that does not fit goes into a larger buffer with the text. -/
theorem callback_grows (hholds : mem.Holds text)
    (hlong : ¬ text.length + chunk.data.length < mem.stringSpace)
    {contents : Nat → UInt8} (hmalloc : chunk.malloc = some contents)
    (hsmall : text.length + chunk.data.length + curlportRecvBufSizeStep <
      2 ^ 32) :
    ∃ after, curlPortWriteMemoryCallback mem chunk =
        .ok (chunk.data.length, after) ∧
      after.Holds (text ++ chunk.data) ∧
      after.stringSpace = stepsAbove (text.length + chunk.data.length) := by
  have hspare : ¬ chunk.data.length < mem.spare := by
    rw [hholds.spare_eq]
    omega
  have hlen : buint32 (text.length + chunk.data.length) =
      text.length + chunk.data.length :=
    buint32_of_lt (by omega)
  have hspace : expandedToSpace mem chunk.data.length =
      stepsAbove (text.length + chunk.data.length) := by
    rw [expandedToSpace_eq hholds hlong]
    exact buint32_of_lt (Nat.lt_of_le_of_lt (stepsAbove_le _) hsmall)
  have hsteps := dvd_stepsAbove (text.length + chunk.data.length)
  have habove := lt_stepsAbove (text.length + chunk.data.length)
  have hbelow := stepsAbove_le (text.length + chunk.data.length)
  generalize stepsAbove (text.length + chunk.data.length) = grown
    at hspace hsteps habove hbelow
  have hblock := length_mallocBlock contents grown
  have hcopy : storeAt (mallocBlock contents grown) 0 text =
      .ok (text ++ (mallocBlock contents grown).drop text.length) := by
    rw [storeAt_of_le (by omega), Nat.zero_add]
    rfl
  obtain ⟨stored, behind, hdata, hnul, hlength⟩ :=
    @storeAt_terminated text chunk.data
      (text ++ (mallocBlock contents grown).drop text.length)
      (List.take_left ..)
      (by rw [List.length_append, List.length_drop]; omega)
  refine ⟨⟨text ++ chunk.data ++ 0 :: behind, text.length + chunk.data.length,
    grown⟩, ?_, ⟨⟨?_, ?_, ?_, ?_⟩, ?_, ?_⟩, rfl⟩
  · simp only [curlPortWriteMemoryCallback, if_neg hspare, hmalloc, hspace,
      hholds.len, hlen, hholds.loadAt_block, Exec.except_ok_bind, hcopy, hdata, hnul]
    rfl
  · change (text ++ chunk.data ++ 0 :: behind).length = grown
    rw [hlength, List.length_append, List.length_drop]
    omega
  · exact hsteps
  · exact Nat.lt_of_le_of_lt hbelow hsmall
  · exact habove
  · rw [List.length_append]
  · exact ⟨behind, rfl⟩

/-- Where the new space is no 32-bit number, the copy runs out of its block. -/
theorem callback_overflows (hholds : mem.Holds text)
    (hlong : ¬ text.length + chunk.data.length < mem.stringSpace)
    {contents : Nat → UInt8} (hmalloc : chunk.malloc = some contents)
    (hlarge : ¬ text.length + chunk.data.length + curlportRecvBufSizeStep <
      2 ^ 32) :
    curlPortWriteMemoryCallback mem chunk = .error .undefined := by
  have hspare : ¬ chunk.data.length < mem.spare := by
    rw [hholds.spare_eq]
    omega
  have hspace : expandedToSpace mem chunk.data.length < 2 ^ 32 :=
    buint32_lt _
  have hsmall : expandedToSpace mem chunk.data.length ≤
      text.length + chunk.data.length := by
    obtain ⟨steps, hsteps⟩ := dvd_stepsAbove (text.length + chunk.data.length)
    rw [expandedToSpace_eq hholds hlong, hsteps, buint32,
      curlportRecvBufSizeStep]
    rw [curlportRecvBufSizeStep] at hlarge
    omega
  have hblock := length_mallocBlock contents
    (expandedToSpace mem chunk.data.length)
  simp only [curlPortWriteMemoryCallback, if_neg hspare, hmalloc, hholds.len,
    hholds.loadAt_block, Exec.except_ok_bind]
  cases hcopy : storeAt (mallocBlock contents
      (expandedToSpace mem chunk.data.length)) 0 text with
  | error failure =>
      obtain rfl := storeAt_error hcopy
      rfl
  | ok copied =>
      have hlength := length_of_storeAt hcopy
      rw [hblock] at hlength
      exact storeAt_overflows (by omega) (by omega) _

/-- What a chunk does to the buffer and to the sizes. -/
inductive ChunkStep (mem : StringWithLen) (text : List UInt8)
    (chunk : CurlChunk) : Prop where
  | kept (next : StringWithLen)
      (run : curlPortWriteMemoryCallback mem chunk =
        .ok (chunk.data.length, next))
      (holds : next.Holds (text ++ chunk.data))
      (sizes : ∀ chunks, curlSizes mem.stringSpace text.length
        (chunk :: chunks) =
          curlSizes next.stringSpace (text ++ chunk.data).length chunks)
  | dropped
      (run : curlPortWriteMemoryCallback mem chunk =
        .ok (chunk.data.length, mem))
      (nonempty : 0 < chunk.data.length)
      (sizes : ∀ chunks, curlSizes mem.stringSpace text.length
        (chunk :: chunks) =
          (curlSizes mem.stringSpace text.length chunks).map
            fun ⟨space, _⟩ => (space, true))
  | overflows
      (run : curlPortWriteMemoryCallback mem chunk = .error .undefined)
      (sizes : ∀ chunks, curlSizes mem.stringSpace text.length
        (chunk :: chunks) = none)

theorem chunkStep (hholds : mem.Holds text) (chunk : CurlChunk) :
    ChunkStep mem text chunk := by
  have hlength : (text ++ chunk.data).length =
      text.length + chunk.data.length :=
    List.length_append
  by_cases hfits : text.length + chunk.data.length < mem.stringSpace
  · obtain ⟨next, hrun, hnext, hspace⟩ := callback_fits hholds hfits
    refine .kept next hrun hnext fun chunks => ?_
    rw [hspace, hlength]
    exact if_pos hfits
  · cases hmalloc : chunk.malloc with
    | none =>
        have hnonempty : 0 < chunk.data.length := by
          have hlen := hholds.valid.len
          rw [hholds.len] at hlen
          omega
        refine .dropped (callback_refused hholds hfits hmalloc) hnonempty
          fun chunks => ?_
        simp only [curlSizes, if_neg hfits, hmalloc]
    | some contents =>
        by_cases hsmall : text.length + chunk.data.length +
            curlportRecvBufSizeStep < 2 ^ 32
        · obtain ⟨next, hrun, hnext, hspace⟩ :=
            callback_grows hholds hfits hmalloc hsmall
          refine .kept next hrun hnext fun chunks => ?_
          simp only [curlSizes, if_neg hfits, hmalloc, if_pos hsmall, hspace,
            hlength]
        · refine .overflows (callback_overflows hholds hfits hmalloc hsmall)
            fun chunks => ?_
          simp only [curlSizes, if_neg hfits, hmalloc, if_neg hsmall]

end Chunks

section Transfer

/-- One more chunk is delivered. -/
theorem curlDeliver_cons {mem next : StringWithLen} {chunk : CurlChunk}
    (hstep : curlPortWriteMemoryCallback mem chunk =
      .ok (chunk.data.length, next)) (chunks : List CurlChunk) :
    curlDeliver mem (chunk :: chunks) = curlDeliver next chunks := by
  rw [curlDeliver, hstep, Exec.except_ok_bind]
  exact if_pos rfl

/-- Where the sizes are defined, the chunks are gathered; a chunk that was
dropped is missing. -/
theorem curlDeliver_sizes {mem : StringWithLen} {text : List UInt8}
    (hholds : mem.Holds text) {chunks : List CurlChunk} {space : Nat}
    {refused : Bool}
    (hsizes : curlSizes mem.stringSpace text.length chunks =
      some (space, refused)) :
    ∃ kept after, curlDeliver mem chunks = .ok (true, after) ∧
      after.Holds (text ++ kept) ∧ after.stringSpace = space ∧
      (refused = false → kept = chunks.flatMap CurlChunk.data) ∧
      (refused = true →
        kept.length < (chunks.flatMap CurlChunk.data).length) := by
  induction chunks generalizing mem text refused with
  | nil =>
      obtain ⟨rfl, rfl⟩ := Prod.mk.inj (Option.some.inj hsizes)
      refine ⟨[], mem, rfl, ?_, rfl, fun _ => rfl, fun hfalse => ?_⟩
      · rw [List.append_nil]
        exact hholds
      · cases hfalse
  | cons chunk chunks ih =>
      rw [List.flatMap_cons]
      cases chunkStep hholds chunk with
      | kept next hstep hnext hchunk =>
          rw [hchunk] at hsizes
          obtain ⟨kept, after, hrun, hafter, hspace, hall, hsome⟩ :=
            ih hnext hsizes
          refine ⟨chunk.data ++ kept, after, ?_, ?_, hspace, ?_, ?_⟩
          · rw [curlDeliver_cons hstep]
            exact hrun
          · rw [← List.append_assoc]
            exact hafter
          · intro hrefused
            rw [hall hrefused]
          · intro hrefused
            rw [List.length_append, List.length_append]
            exact Nat.add_lt_add_left (hsome hrefused) _
      | dropped hstep hnonempty hchunk =>
          rw [hchunk] at hsizes
          obtain ⟨⟨space', refused'⟩, hrest, hpair⟩ :=
            Option.map_eq_some_iff.mp hsizes
          obtain ⟨rfl, rfl⟩ := Prod.mk.inj hpair
          obtain ⟨kept, after, hrun, hafter, hspace, hall, hsome⟩ :=
            ih hholds hrest
          have hle : kept.length ≤
              (chunks.flatMap CurlChunk.data).length := by
            cases refused' with
            | false => exact Nat.le_of_eq (congrArg List.length (hall rfl))
            | true => exact Nat.le_of_lt (hsome rfl)
          refine ⟨kept, after, ?_, hafter, hspace, ?_, ?_⟩
          · rw [curlDeliver_cons hstep]
            exact hrun
          · intro hfalse
            cases hfalse
          · intro _
            rw [List.length_append]
            omega
      | overflows hstep hchunk =>
          rw [hchunk] at hsizes
          cases hsizes

/-- Where they are not, the transfer is undefined. -/
theorem curlDeliver_undefined {mem : StringWithLen} {text : List UInt8}
    (hholds : mem.Holds text) {chunks : List CurlChunk}
    (hsizes : curlSizes mem.stringSpace text.length chunks = none) :
    curlDeliver mem chunks = .error .undefined := by
  induction chunks generalizing mem text with
  | nil => cases hsizes
  | cons chunk chunks ih =>
      cases chunkStep hholds chunk with
      | kept next hstep hnext hchunk =>
          rw [hchunk] at hsizes
          rw [curlDeliver_cons hstep]
          exact ih hnext hsizes
      | dropped hstep hnonempty hchunk =>
          rw [hchunk] at hsizes
          rw [curlDeliver_cons hstep]
          exact ih hholds (Option.map_eq_none_iff.mp hsizes)
      | overflows hstep hchunk =>
          rw [curlDeliver, hstep]
          rfl

end Transfer

section Requests

/-- A request starts with an empty text in the buffer. -/
theorem StringWithLen.Valid.reset {mem : StringWithLen} (hvalid : mem.Valid) :
    ∃ block, storeAt mem.block 0 [0] = .ok block ∧
      StringWithLen.Holds ⟨block, 0, mem.stringSpace⟩ [] := by
  have hlen := hvalid.len
  have hblock := hvalid.block
  obtain ⟨first, behind, hfirst⟩ : ∃ first behind,
      mem.block = first :: behind :=
    List.exists_cons_of_length_pos (by omega)
  have hstore := @storeAt_append [] behind [first] [0] rfl
  rw [List.nil_append, List.singleton_append, ← hfirst] at hstore
  refine ⟨_, hstore, ⟨?_, hvalid.steps, hvalid.space, ?_⟩, rfl, behind, rfl⟩
  · change (0 :: behind).length = mem.stringSpace
    rw [← hblock, hfirst, List.length_cons, List.length_cons]
  · change 0 < mem.stringSpace
    omega

/-- The result of a transfer that is delivered. -/
def CurlTransfer.result (transfer : CurlTransfer) (len : Nat) :
    Except BoatResult Nat :=
  if transfer.performed ≠ 0 then
    .error (boatErrorCurlCodeFail - transfer.performed.toNat)
  else if transfer.info = 200 ∨ transfer.info = 201 then .ok len
  else .error (boatErrorCurlInfoFail - transfer.info.val)

theorem CurlTransfer.result_eq_ok {transfer : CurlTransfer} {len given : Nat}
    (hresult : transfer.result len = .ok given) :
    transfer.Succeeds ∧ given = len := by
  unfold result at hresult
  split at hresult
  next => cases hresult
  next hperformed =>
    split at hresult
    next hinfo =>
      exact ⟨⟨not_not.mp hperformed, hinfo⟩, (Except.ok.inj hresult).symm⟩
    next => cases hresult

theorem CurlTransfer.result_succeeds {transfer : CurlTransfer}
    (hsucceeds : transfer.Succeeds) (len : Nat) :
    transfer.result len = .ok len := by
  rw [result, if_neg (not_not.mpr hsucceeds.1), if_pos hsucceeds.2]

theorem CurlTransfer.result_error {transfer : CurlTransfer} {len : Nat}
    {code : BoatResult} (hresult : transfer.result len = .error code) :
    code ≠ boatSuccess := by
  unfold result at hresult
  split at hresult
  · obtain rfl := Except.error.inj hresult
    change -10301000 - (transfer.performed.toNat : Int) ≠ 0
    omega
  · split at hresult
    · cases hresult
    · obtain rfl := Except.error.inj hresult
      change -10302000 - (transfer.info.val : Int) ≠ 0
      omega

/-- A request whose chunks are delivered. -/
theorem curlPortRequestSync_delivered {mem after : StringWithLen}
    {transfer : CurlTransfer} {block : List UInt8}
    (hreset : storeAt mem.block 0 [0] = .ok block)
    (hdeliver : curlDeliver ⟨block, 0, mem.stringSpace⟩ transfer.chunks =
      .ok (true, after)) :
    curlPortRequestSync mem (.started transfer) =
      .ok (transfer.result after.stringLen, after) := by
  simp only [curlPortRequestSync, hreset, Exec.except_ok_bind, hdeliver,
    if_true, CurlTransfer.result]
  split
  · rfl
  · split <;> rfl

theorem CurlStartFailure.code_ne (failure : CurlStartFailure) :
    failure.code ≠ boatSuccess := by
  cases failure <;> decide

/-- A request whose chunks are delivered is answered as it should be when no
chunk is missing, or when it is no success. -/
theorem requestAnswered_delivered {transfer : CurlTransfer}
    {after : StringWithLen} {kept : List UInt8} (hholds : after.Holds kept)
    (hkept : transfer.Succeeds →
      kept = transfer.chunks.flatMap CurlChunk.data) :
    RequestAnswered (.started transfer) (transfer.result after.stringLen)
      after where
  success := by
    intro len hresult
    obtain ⟨hsucceeds, rfl⟩ := CurlTransfer.result_eq_ok hresult
    obtain ⟨behind, hblock⟩ := hholds.block
    rw [hkept hsucceeds] at hholds hblock
    exact ⟨hholds.len, hholds.valid.len, behind, hblock⟩
  failure := fun code hresult => CurlTransfer.result_error hresult
  valid := hholds.valid

/-- From a buffer that can be used, the requests are answered as they should be
when they are served. -/
theorem requestsAnswered_served {mem : StringWithLen} (hvalid : mem.Valid)
    (requests : List CurlRequest) :
    RequestsAnswered mem requests ↔
      RequestsServed mem.stringSpace requests := by
  induction requests generalizing mem with
  | nil => exact Iff.rfl
  | cons request requests ih =>
      cases request with
      | notStarted failure =>
          constructor
          · rintro ⟨result, after, hrun, -, hrest⟩
            obtain ⟨-, rfl⟩ := Prod.mk.inj (Except.ok.inj hrun)
            exact (ih hvalid).mp hrest
          · intro hserved
            refine ⟨_, _, rfl, ⟨?_, ?_, hvalid⟩, (ih hvalid).mpr hserved⟩
            · intro len hresult
              cases hresult
            · intro code hresult
              obtain rfl := Except.error.inj hresult
              exact failure.code_ne
      | started transfer =>
          obtain ⟨block, hreset, hempty⟩ := hvalid.reset
          constructor
          · rintro ⟨result, after, hrun, hanswered, hrest⟩
            cases hsizes : curlSizes mem.stringSpace 0 transfer.chunks with
            | none =>
                have hundefined := curlDeliver_undefined hempty hsizes
                simp only [curlPortRequestSync, hreset, Exec.except_ok_bind,
                  hundefined] at hrun
                cases hrun
            | some sizes =>
                obtain ⟨space, refused⟩ := sizes
                obtain ⟨kept, after', hdeliver, hafter, rfl, -, hmissing⟩ :=
                  curlDeliver_sizes hempty hsizes
                rw [curlPortRequestSync_delivered hreset hdeliver] at hrun
                obtain ⟨rfl, rfl⟩ := Prod.mk.inj (Except.ok.inj hrun)
                refine ⟨_, refused, hsizes, ?_, (ih hafter.valid).mp hrest⟩
                intro hsucceeds
                cases refused with
                | false => rfl
                | true =>
                    have hlen := (hanswered.success _
                      (CurlTransfer.result_succeeds hsucceeds _)).1
                    rw [hafter.len] at hlen
                    exact absurd hlen (Nat.ne_of_lt (hmissing rfl))
          · rintro ⟨space, refused, hsizes, hsuccess, hserved⟩
            obtain ⟨kept, after, hdeliver, hafter, rfl, hall, -⟩ :=
              curlDeliver_sizes hempty hsizes
            refine ⟨_, after, curlPortRequestSync_delivered hreset hdeliver,
              requestAnswered_delivered hafter ?_,
              (ih hafter.valid).mpr hserved⟩
            intro hsucceeds
            exact hall (hsuccess hsucceeds)

theorem curlPortInit_valid (contents : Nat → UInt8) :
    (curlPortInit contents).Valid := by
  have hlow : 0 < curlportRecvBufSizeStep := by
    decide
  have hhigh : curlportRecvBufSizeStep < 2 ^ 32 := by
    decide
  unfold curlPortInit
  generalize hstep : curlportRecvBufSizeStep = step at hlow hhigh
  have hsteps : curlportRecvBufSizeStep ∣ step := by
    exact hstep ▸ Nat.dvd_refl _
  exact ⟨length_mallocBlock contents step, hsteps, hhigh, hlow⟩

/-- Every run of requests on the buffer of `CurlPortInit`. -/
theorem requestsAnswered_iff (contents : Nat → UInt8)
    (requests : List CurlRequest) :
    RequestsAnswered (curlPortInit contents) requests ↔
      RequestsServed curlportRecvBufSizeStep requests :=
  requestsAnswered_served (curlPortInit_valid contents) requests

/-- A response of one chunk for which memory is refused. -/
def refusedTransfer (data : List UInt8) : CurlTransfer :=
  ⟨[⟨data, none⟩], 0, 200⟩

/-- Where the chunk does not fit into the first step, the response that is
handed back with success is empty. -/
theorem refusedTransfer_run (contents : Nat → UInt8) {data : List UInt8}
    (hlong : curlportRecvBufSizeStep ≤ data.length) :
    ∃ after, curlPortRequestSync (curlPortInit contents)
      (.started (refusedTransfer data)) = .ok (.ok 0, after) := by
  obtain ⟨block, hreset, hempty⟩ := (curlPortInit_valid contents).reset
  have hfull : ¬ ([] : List UInt8).length + data.length <
      curlportRecvBufSizeStep := by
    rw [List.length_nil, Nat.zero_add]
    exact Nat.not_lt.mpr hlong
  have hstep := @callback_refused _ [] ⟨data, none⟩ hempty hfull rfl
  have hrun := @curlPortRequestSync_delivered _ _ (refusedTransfer data) block
    hreset (curlDeliver_cons hstep [])
  rw [CurlTransfer.result_succeeds ⟨rfl, .inl rfl⟩] at hrun
  exact ⟨_, hrun⟩

theorem not_requestsAnswered :
    (∃ after, curlPortRequestSync (curlPortInit fun _ => 0)
      (.started (refusedTransfer (List.replicate 1024 0x41))) =
        .ok (.ok 0, after)) ∧
    ¬ ∀ (contents : Nat → UInt8) (requests : List CurlRequest),
      RequestsAnswered (curlPortInit contents) requests := by
  have hlength : (List.replicate 1024 (0x41 : UInt8)).length =
      curlportRecvBufSizeStep :=
    List.length_replicate
  generalize List.replicate 1024 (0x41 : UInt8) = data at hlength
  have hlost := refusedTransfer_run (fun _ => 0) (Nat.le_of_eq hlength.symm)
  refine ⟨hlost, ?_⟩
  intro hall
  obtain ⟨after, hempty⟩ := hlost
  obtain ⟨result, after', hrun, hanswered, -⟩ :=
    hall (fun _ => 0) [.started (refusedTransfer data)]
  rw [hempty] at hrun
  obtain ⟨rfl, rfl⟩ := Prod.mk.inj (Except.ok.inj hrun)
  have hlen := (hanswered.success 0 rfl).1
  have hbody : (CurlRequest.started (refusedTransfer data)).body = data :=
    List.append_nil data
  rw [hbody, hlength] at hlen
  cases hlen

end Requests

end BoatFramework
