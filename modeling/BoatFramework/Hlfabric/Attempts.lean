/-
The attempts that `BoatHlfabricTxExec` makes at its nodes: the chunks that
`on_data_chunk_recv_callback` puts into one buffer, what of it is handed to the
parser, and what is left in it for the next attempt.
-/
import BoatFramework.Base.Exec
import BoatFramework.Utility.Result
import Mathlib.Data.List.Basic

namespace BoatFramework

open Exec

/-- A pointer to a block of the heap. -/
inductive HeapPointer where
  | null
  | live (bytes : List UInt8)
  | freed
deriving DecidableEq

def HeapPointer.load (pointer : HeapPointer) (len : Nat) :
    Outcome (List UInt8) :=
  match pointer with
  | .live bytes => loadAt bytes 0 len
  | _ => .error .undefined

structure Http2Response where
  httpResLen : Nat
  http2Res : HeapPointer
deriving DecidableEq

/-- What is recorded so far. -/
def Http2Response.temp (parsePtr : Http2Response) : Outcome (List UInt8) :=
  if parsePtr.httpResLen ≠ 0 then parsePtr.http2Res.load parsePtr.httpResLen
  else .ok []

/-- The callback: what is recorded moves into a larger block, the chunk goes
behind it. -/
def onDataChunkRecvCallback (parsePtr : Http2Response) (data : List UInt8) :
    Outcome Http2Response := do
  let temp ← parsePtr.temp
  .ok ⟨buint32 (parsePtr.httpResLen + data.length), .live (temp ++ data)⟩

/-- What a node does: the chunks that it sends, and the result of
`http2SubmitRequest`. -/
structure NodeAttempt where
  chunks : List (List UInt8)
  result : BoatResult

def NodeAttempt.bytes (attempt : NodeAttempt) : List UInt8 :=
  attempt.chunks.flatten

/-- What an attempt comes to: the bytes for the parser, if it is called, the
result, and the buffer. -/
structure Received where
  message : Option (List UInt8)
  result : BoatResult
  fabricHttp2res : Http2Response

/-- The code from `http2SubmitRequest` to the parser.  An answer that is shorter
than its header has a result of its own; the block is freed behind the parser,
and `resets` says whether its length is set to zero then. -/
def receiveWith (short : BoatResult) (resets : Bool) (attempt : NodeAttempt)
    (fabricHttp2res : Http2Response) : Outcome Received := do
  let res ← attempt.chunks.foldlM onDataChunkRecvCallback fabricHttp2res
  if attempt.result ≠ boatSuccess then .ok ⟨none, attempt.result, res⟩
  else if res.httpResLen < 5 then .ok ⟨none, short, res⟩
  else do
    let bytes ← res.http2Res.load res.httpResLen
    .ok ⟨some (bytes.drop 5), boatSuccess,
      ⟨if resets then 0 else res.httpResLen, .freed⟩⟩

/-- The attempt at an endorser. -/
def receiveProposal : NodeAttempt → Http2Response → Outcome Received :=
  receiveWith boatError true

/-- The attempt at an orderer. -/
def receiveTransaction : NodeAttempt → Http2Response → Outcome Received :=
  receiveWith boatSuccess false

/-- What is handed to the parser in each of a number of attempts. -/
def handedOver (receive : NodeAttempt → Http2Response → Outcome Received) :
    List NodeAttempt → Http2Response → Outcome (List (Option (List UInt8)))
  | [], _ => .ok []
  | attempt :: rest, res => do
      let received ← receive attempt res
      let others ← handedOver receive rest received.fabricHttp2res
      .ok (received.message :: others)

/-- The message of an answer: its chunks behind the header. -/
def NodeAttempt.message (attempt : NodeAttempt) : Option (List UInt8) :=
  if attempt.result = boatSuccess ∧ 5 ≤ attempt.bytes.length then
    some (attempt.bytes.drop 5)
  else none

/-- The result of an attempt that is read alone, at an endorser. -/
def NodeAttempt.outcome (attempt : NodeAttempt) : BoatResult :=
  if attempt.result ≠ boatSuccess then attempt.result
  else if attempt.bytes.length < 5 then boatError
  else boatSuccess

/-- Each attempt hands over its own message. -/
def HandsOwn (receive : NodeAttempt → Http2Response → Outcome Received)
    (attempts : List NodeAttempt) : Prop :=
  handedOver receive attempts ⟨0, .null⟩ =
    .ok (attempts.map NodeAttempt.message)

section Gather

/-- As many bytes as a 32-bit length counts. -/
def recorded (bytes : List UInt8) : List UInt8 :=
  bytes.take (buint32 bytes.length)

/-- What is recorded behind a number of chunks. -/
def gathered (kept : List UInt8) (chunks : List (List UInt8)) : List UInt8 :=
  chunks.foldl (fun kept data => recorded (kept ++ data)) kept

/-- The buffer has these bytes, and maybe others behind them. -/
def Http2Response.Keeps (res : Http2Response) (kept : List UInt8) : Prop :=
  res.httpResLen = kept.length ∧
    (kept ≠ [] → ∃ more, res.http2Res = .live (kept ++ more))

variable {res : Http2Response} {kept : List UInt8}

theorem length_recorded (bytes : List UInt8) :
    (recorded bytes).length = bytes.length % 2 ^ 32 := by
  rw [recorded, List.length_take]
  exact Nat.min_eq_left (Nat.mod_le _ _)

theorem recorded_of_lt {bytes : List UInt8} (hlt : bytes.length < 2 ^ 32) :
    recorded bytes = bytes := by
  rw [recorded, buint32_of_lt hlt, List.take_length]

theorem HeapPointer.load_append (bytes more : List UInt8) :
    (HeapPointer.live (bytes ++ more)).load bytes.length = .ok bytes := by
  have hload := loadAt_append [] bytes more
  simpa [HeapPointer.load] using hload

/-- What the callback gets from the buffer is what the buffer keeps. -/
theorem Http2Response.Keeps.temp (hkeeps : res.Keeps kept) :
    res.temp = .ok kept := by
  obtain ⟨hlen, hlive⟩ := hkeeps
  rw [Http2Response.temp, hlen]
  cases kept with
  | nil => rfl
  | cons head tail =>
      obtain ⟨more, hmore⟩ := hlive (List.cons_ne_nil head tail)
      have hsome : (head :: tail).length ≠ 0 := Nat.succ_ne_zero _
      rw [if_pos hsome, hmore, HeapPointer.load_append]

/-- One chunk is put behind what is kept. -/
theorem Http2Response.Keeps.chunk (hkeeps : res.Keeps kept)
    (data : List UInt8) : ∃ res', onDataChunkRecvCallback res data = .ok res' ∧
      res'.Keeps (recorded (kept ++ data)) := by
  refine ⟨⟨buint32 (res.httpResLen + data.length), .live (kept ++ data)⟩,
    ?_, ?_, fun _ => ?_⟩
  · rw [onDataChunkRecvCallback, hkeeps.temp, except_ok_bind]
  · rw [hkeeps.1, length_recorded, List.length_append]
    rfl
  · exact ⟨_, by rw [recorded, List.take_append_drop]⟩

/-- And so are all chunks of an attempt. -/
theorem Http2Response.Keeps.chunks (hkeeps : res.Keeps kept)
    (chunks : List (List UInt8)) :
    ∃ res', chunks.foldlM onDataChunkRecvCallback res = .ok res' ∧
      res'.Keeps (gathered kept chunks) := by
  induction chunks generalizing res kept with
  | nil => exact ⟨res, rfl, hkeeps⟩
  | cons head tail ih =>
      obtain ⟨mid, hhead, hmid⟩ := hkeeps.chunk head
      obtain ⟨res', htail, hres'⟩ := ih hmid
      refine ⟨res', ?_, hres'⟩
      rw [List.foldlM_cons, hhead, except_ok_bind, htail]

theorem length_gathered (hkept : kept.length < 2 ^ 32)
    (chunks : List (List UInt8)) :
    (gathered kept chunks).length =
      (kept.length + chunks.flatten.length) % 2 ^ 32 := by
  induction chunks generalizing kept with
  | nil => exact (Nat.mod_eq_of_lt hkept).symm
  | cons head tail ih =>
      have hnext := length_recorded (kept ++ head)
      have htail := @ih (recorded (kept ++ head)) (by omega)
      rw [hnext, List.length_append] at htail
      rw [List.flatten_cons, List.length_append]
      change (gathered (recorded (kept ++ head)) tail).length = _
      omega

theorem gathered_of_lt {chunks : List (List UInt8)}
    (hlt : kept.length + chunks.flatten.length < 2 ^ 32) :
    gathered kept chunks = kept ++ chunks.flatten := by
  induction chunks generalizing kept with
  | nil => exact (List.append_nil kept).symm
  | cons head tail ih =>
      rw [List.flatten_cons, List.length_append] at hlt
      have hhead : recorded (kept ++ head) = kept ++ head :=
        recorded_of_lt (by rw [List.length_append]; omega)
      have htail := @ih (kept ++ head) (by
        rw [List.length_append]
        omega)
      change gathered (recorded (kept ++ head)) tail = _
      rw [hhead, htail, List.flatten_cons, List.append_assoc]

end Gather

section Conditions

/-- How many bytes are left for the next attempt. -/
def pendingBehind (pending : Nat) (attempt : NodeAttempt) : Nat :=
  let len := (pending + attempt.bytes.length) % 2 ^ 32
  if attempt.result = boatSuccess ∧ 5 ≤ len then 0 else len

/-- An answer is read alone: nothing is left from the attempts before it and a
32-bit length counts it, or it is too short with what is left and without. -/
def ReadAlone (pending : Nat) (attempt : NodeAttempt) : Prop :=
  attempt.result = boatSuccess →
    (pending = 0 ∧ attempt.bytes.length < 2 ^ 32) ∨
      ((pending + attempt.bytes.length) % 2 ^ 32 < 5 ∧
        attempt.bytes.length < 5)

def AllReadAlone : Nat → List NodeAttempt → Prop
  | _, [] => True
  | pending, attempt :: rest =>
      ReadAlone pending attempt ∧
        AllReadAlone (pendingBehind pending attempt) rest

/-- An attempt without a chunk and without success. -/
def NodeAttempt.Silent (attempt : NodeAttempt) : Prop :=
  attempt.chunks = [] ∧ attempt.result ≠ boatSuccess

/-- Read alone, and behind an answer that was handed over all are silent. -/
def ReadAloneThenSilent : Nat → List NodeAttempt → Prop
  | _, [] => True
  | pending, attempt :: rest =>
      ReadAlone pending attempt ∧
        if attempt.result = boatSuccess ∧
            5 ≤ (pending + attempt.bytes.length) % 2 ^ 32 then
          ∀ other ∈ rest, other.Silent
        else ReadAloneThenSilent (pendingBehind pending attempt) rest

end Conditions

section Receive

variable {res : Http2Response} {kept : List UInt8} {attempt : NodeAttempt}
  {rest : List NodeAttempt} {short : BoatResult} {resets : Bool}
  {receive : NodeAttempt → Http2Response → Outcome Received}
  {received : Received} {message : Option (List UInt8)}
  {messages : List (Option (List UInt8))} {n : Nat}

/-- The bytes that an attempt hands over. -/
def handed (kept : List UInt8) (attempt : NodeAttempt) : Option (List UInt8) :=
  if attempt.result = boatSuccess ∧
      5 ≤ (gathered kept attempt.chunks).length then
    some ((gathered kept attempt.chunks).drop 5)
  else none

/-- An attempt that fails, or is too short, leaves its bytes. -/
theorem receiveWith_none (short : BoatResult) (resets : Bool)
    (hkeeps : res.Keeps kept)
    (hnone : ¬(attempt.result = boatSuccess ∧
      5 ≤ (gathered kept attempt.chunks).length)) :
    ∃ received, receiveWith short resets attempt res = .ok received ∧
      received.message = none ∧
      received.result =
        (if attempt.result = boatSuccess then short else attempt.result) ∧
      received.fabricHttp2res.Keeps (gathered kept attempt.chunks) := by
  obtain ⟨mid, hchunks, hmid⟩ := hkeeps.chunks attempt.chunks
  rw [receiveWith, hchunks, except_ok_bind]
  by_cases hresult : attempt.result = boatSuccess
  · have hshort : mid.httpResLen < 5 := by
      rw [hmid.1]
      exact Nat.lt_of_not_le fun hlen => hnone ⟨hresult, hlen⟩
    rw [if_neg (not_not.mpr hresult), if_pos hshort, if_pos hresult]
    exact ⟨_, rfl, rfl, rfl, hmid⟩
  · rw [if_pos hresult, if_neg hresult]
    exact ⟨_, rfl, rfl, rfl, hmid⟩

/-- An answer is handed over with all that was left. -/
theorem receiveWith_some (hkeeps : res.Keeps kept)
    (hresult : attempt.result = boatSuccess)
    (hlen : 5 ≤ (gathered kept attempt.chunks).length) :
    receiveWith short resets attempt res =
      .ok ⟨some ((gathered kept attempt.chunks).drop 5), boatSuccess,
        ⟨if resets then 0 else (gathered kept attempt.chunks).length,
          .freed⟩⟩ := by
  obtain ⟨mid, hchunks, hmid⟩ := hkeeps.chunks attempt.chunks
  have hlong : ¬mid.httpResLen < 5 := by
    rw [hmid.1]
    exact Nat.not_lt.mpr hlen
  have hload := hmid.temp
  rw [Http2Response.temp, if_pos (by omega)] at hload
  rw [receiveWith, hchunks, except_ok_bind, if_neg (not_not.mpr hresult),
    if_neg hlong, hload, hmid.1]
  rfl

/-- What is handed over is the message where the answer is read alone. -/
theorem handed_eq_message_iff (hkept : kept.length < 2 ^ 32) :
    handed kept attempt = attempt.message ↔ ReadAlone kept.length attempt := by
  have hlen := length_gathered hkept attempt.chunks
  change _ = (kept.length + attempt.bytes.length) % 2 ^ 32 at hlen
  unfold handed NodeAttempt.message
  by_cases hresult : attempt.result = boatSuccess
  · simp only [hresult, true_and]
    constructor
    · intro heq _
      by_cases hgot : 5 ≤ (gathered kept attempt.chunks).length
      · by_cases hown : 5 ≤ attempt.bytes.length
        · rw [if_pos hgot, if_pos hown] at heq
          have hsame := congrArg List.length (Option.some.inj heq)
          rw [List.length_drop, List.length_drop] at hsame
          exact .inl (by omega)
        · rw [if_pos hgot, if_neg hown] at heq
          cases heq
      · by_cases hown : 5 ≤ attempt.bytes.length
        · rw [if_neg hgot, if_pos hown] at heq
          cases heq
        · exact .inr (by omega)
    · intro halone
      rcases halone hresult with ⟨hzero, hlt⟩ | ⟨hgot, hown⟩
      · obtain rfl := List.eq_nil_of_length_eq_zero hzero
        have hall : gathered [] attempt.chunks = attempt.bytes :=
          gathered_of_lt (by simpa [NodeAttempt.bytes] using hlt)
        rw [hall]
      · rw [if_neg (by omega), if_neg (by omega)]
  · simp only [hresult, false_and, if_false, ReadAlone, false_implies]

theorem handedOver_cons_iff (hrun : receive attempt res = .ok received) :
    handedOver receive (attempt :: rest) res = .ok (message :: messages) ↔
      received.message = message ∧
        handedOver receive rest received.fabricHttp2res = .ok messages := by
  rw [handedOver, hrun, except_ok_bind]
  cases handedOver receive rest received.fabricHttp2res with
  | error e => exact iff_of_false (fun h => by cases h) fun h => by cases h.2
  | ok others =>
      change Except.ok (received.message :: others) = _ ↔ _
      simp only [Except.ok.injEq, List.cons.injEq]

/-- One attempt at an endorser: what it hands over, its result, and what is
left. -/
theorem receiveProposal_keeps (attempt : NodeAttempt) (hkeeps : res.Keeps kept)
    (hkept : kept.length < 2 ^ 32) :
    ∃ received left, receiveProposal attempt res = .ok received ∧
      received.message = handed kept attempt ∧
      received.result = (if attempt.result ≠ boatSuccess then attempt.result
        else if (handed kept attempt).isNone then boatError
        else boatSuccess) ∧
      received.fabricHttp2res.Keeps left ∧
      left.length = pendingBehind kept.length attempt := by
  have hlen := length_gathered hkept attempt.chunks
  change _ = (kept.length + attempt.bytes.length) % 2 ^ 32 at hlen
  unfold handed pendingBehind
  rw [← hlen]
  by_cases hanswer : attempt.result = boatSuccess ∧
      5 ≤ (gathered kept attempt.chunks).length
  · simp only [if_pos hanswer]
    refine ⟨_, [], receiveWith_some hkeeps hanswer.1 hanswer.2, rfl, ?_,
      ⟨rfl, fun h => absurd rfl h⟩, rfl⟩
    rw [if_neg (not_not.mpr hanswer.1)]
    rfl
  · simp only [if_neg hanswer]
    obtain ⟨received, hrun, hmessage, hresult, hleft⟩ :=
      receiveWith_none boatError true hkeeps hanswer
    refine ⟨received, _, hrun, hmessage, ?_, hleft, rfl⟩
    rw [hresult]
    by_cases hsuccess : attempt.result = boatSuccess
    · rw [if_pos hsuccess, if_neg (not_not.mpr hsuccess)]
      rfl
    · rw [if_neg hsuccess, if_pos hsuccess]

theorem pendingBehind_lt (pending : Nat) (attempt : NodeAttempt) :
    pendingBehind pending attempt < 2 ^ 32 := by
  rw [pendingBehind]
  split
  · decide
  · exact Nat.mod_lt _ (by decide)

/-- An attempt that is read alone gives its own message and outcome. -/
theorem receiveProposal_alone (hkeeps : res.Keeps kept)
    (hkept : kept.length < 2 ^ 32) (halone : ReadAlone kept.length attempt) :
    ∃ received left, receiveProposal attempt res = .ok received ∧
      received.message = attempt.message ∧
      received.result = attempt.outcome ∧
      received.fabricHttp2res.Keeps left ∧
      left.length = pendingBehind kept.length attempt := by
  obtain ⟨received, left, hrun, hmessage, hresult, hleft, hlength⟩ :=
    receiveProposal_keeps attempt hkeeps hkept
  rw [(handed_eq_message_iff hkept).mpr halone] at hmessage hresult
  refine ⟨received, left, hrun, hmessage, ?_, hleft, hlength⟩
  rw [hresult, NodeAttempt.outcome, NodeAttempt.message]
  by_cases hsuccess : attempt.result = boatSuccess
  · simp only [hsuccess, true_and]
    by_cases hlen : 5 ≤ attempt.bytes.length
    · rw [if_pos hlen, if_neg (Nat.not_lt.mpr hlen)]
      rfl
    · rw [if_neg hlen, if_pos (Nat.lt_of_not_le hlen)]
      rfl
  · rw [if_pos hsuccess, if_pos hsuccess]

theorem proposals_own_iff (hkeeps : res.Keeps kept)
    (hkept : kept.length < 2 ^ 32) (attempts : List NodeAttempt) :
    handedOver receiveProposal attempts res =
        .ok (attempts.map NodeAttempt.message) ↔
      AllReadAlone kept.length attempts := by
  induction attempts generalizing res kept with
  | nil => exact iff_of_true rfl trivial
  | cons head tail ih =>
      obtain ⟨received, left, hrun, hmessage, _, hleft, hlength⟩ :=
        receiveProposal_keeps head hkeeps hkept
      have hbound : left.length < 2 ^ 32 := by
        rw [hlength]
        exact pendingBehind_lt kept.length head
      rw [List.map_cons, handedOver_cons_iff hrun, hmessage,
        handed_eq_message_iff hkept, ih hleft hbound, hlength, AllReadAlone]

/-- A silent attempt leaves a freed block alone. -/
theorem receiveTransaction_silent (n : Nat) (hsilent : attempt.Silent) :
    receiveTransaction attempt ⟨n, .freed⟩ =
      .ok ⟨none, attempt.result, ⟨n, .freed⟩⟩ := by
  rw [receiveTransaction, receiveWith, hsilent.1]
  exact if_pos hsilent.2

/-- Behind a freed block whose length is not zero every other one is
undefined. -/
theorem receiveTransaction_freed (hlen : 5 ≤ n) (hloud : ¬attempt.Silent) :
    receiveTransaction attempt ⟨n, .freed⟩ = .error .undefined := by
  rw [receiveTransaction, receiveWith]
  cases hchunks : attempt.chunks with
  | nil =>
      have hresult : attempt.result = boatSuccess :=
        not_not.mp fun hne => hloud ⟨hchunks, hne⟩
      change (if attempt.result ≠ boatSuccess then _ else _) = _
      rw [if_neg (not_not.mpr hresult),
        if_neg (show ¬n < 5 from Nat.not_lt.mpr hlen)]
      rfl
  | cons chunk chunks =>
      have hcallback : onDataChunkRecvCallback ⟨n, .freed⟩ chunk =
          .error .undefined := by
        rw [onDataChunkRecvCallback, Http2Response.temp,
          if_pos (show n ≠ 0 by omega)]
        rfl
      rw [List.foldlM_cons, hcallback]
      rfl

theorem transactions_freed_iff (hlen : 5 ≤ n) (attempts : List NodeAttempt) :
    handedOver receiveTransaction attempts ⟨n, .freed⟩ =
        .ok (attempts.map NodeAttempt.message) ↔
      ∀ attempt ∈ attempts, attempt.Silent := by
  induction attempts with
  | nil => exact iff_of_true rfl fun _ h => absurd h List.not_mem_nil
  | cons head tail ih =>
      rw [List.forall_mem_cons]
      by_cases hsilent : head.Silent
      · have hmessage : head.message = none :=
          if_neg fun h => hsilent.2 h.1
        rw [List.map_cons,
          handedOver_cons_iff (receiveTransaction_silent n hsilent), ih,
          hmessage]
        exact and_congr_left fun _ => iff_of_true rfl hsilent
      · refine iff_of_false (fun hrun => ?_) fun h => hsilent h.1
        rw [handedOver, receiveTransaction_freed hlen hsilent] at hrun
        cases hrun

/-- An attempt at an orderer that is read alone: without a message its bytes
stay, with one the block is freed and its length kept. -/
theorem receiveTransaction_alone (hkeeps : res.Keeps kept)
    (hkept : kept.length < 2 ^ 32) (halone : ReadAlone kept.length attempt) :
    (attempt.message = none → ∃ received left,
      receiveTransaction attempt res = .ok received ∧
        received.message = none ∧ received.result = attempt.result ∧
        received.fabricHttp2res.Keeps left ∧
        left.length = pendingBehind kept.length attempt) ∧
    ∀ own, attempt.message = some own → ∃ n, 5 ≤ n ∧
      receiveTransaction attempt res =
        .ok ⟨some own, boatSuccess, ⟨n, .freed⟩⟩ := by
  have hlen := length_gathered hkept attempt.chunks
  change _ = (kept.length + attempt.bytes.length) % 2 ^ 32 at hlen
  rw [← (handed_eq_message_iff hkept).mpr halone, handed]
  by_cases hanswer : attempt.result = boatSuccess ∧
      5 ≤ (gathered kept attempt.chunks).length
  · rw [if_pos hanswer]
    refine ⟨fun hnone => absurd hnone (Option.some_ne_none _),
      fun own hown => ?_⟩
    obtain rfl := Option.some.inj hown
    exact ⟨_, hanswer.2, receiveWith_some hkeeps hanswer.1 hanswer.2⟩
  · rw [if_neg hanswer]
    refine ⟨fun _ => ?_, fun own hown => by cases hown⟩
    obtain ⟨received, hrun, hmessage, hresult, hleft⟩ :=
      receiveWith_none boatSuccess false hkeeps hanswer
    refine ⟨received, _, hrun, hmessage, ?_, hleft, ?_⟩
    · rw [hresult]
      by_cases hsuccess : attempt.result = boatSuccess
      · rw [if_pos hsuccess, hsuccess]
      · rw [if_neg hsuccess]
    · rw [pendingBehind, ← hlen]
      exact (if_neg hanswer).symm

theorem transactions_own_iff (hkeeps : res.Keeps kept)
    (hkept : kept.length < 2 ^ 32) (attempts : List NodeAttempt) :
    handedOver receiveTransaction attempts res =
        .ok (attempts.map NodeAttempt.message) ↔
      ReadAloneThenSilent kept.length attempts := by
  induction attempts generalizing res kept with
  | nil => exact iff_of_true rfl trivial
  | cons head tail ih =>
      have hlen := length_gathered hkept head.chunks
      change _ = (kept.length + head.bytes.length) % 2 ^ 32 at hlen
      rw [ReadAloneThenSilent, ← hlen, ← handed_eq_message_iff hkept,
        List.map_cons]
      by_cases hanswer : head.result = boatSuccess ∧
          5 ≤ (gathered kept head.chunks).length
      · have hrun : receiveTransaction head res = .ok _ :=
          receiveWith_some hkeeps hanswer.1 hanswer.2
        have hhanded : handed kept head =
            some ((gathered kept head.chunks).drop 5) := if_pos hanswer
        rw [handedOver_cons_iff hrun, if_pos hanswer, hhanded]
        exact and_congr_right fun _ => transactions_freed_iff hanswer.2 tail
      · obtain ⟨received, hrun, hmessage, _, hleft⟩ :=
          receiveWith_none boatSuccess false hkeeps hanswer
        have hhanded : handed kept head = none := if_neg hanswer
        have hbehind : pendingBehind kept.length head =
            (gathered kept head.chunks).length := by
          rw [pendingBehind, ← hlen]
          exact if_neg hanswer
        have hbound : (gathered kept head.chunks).length < 2 ^ 32 := by
          rw [hlen]
          exact Nat.mod_lt _ (by decide)
        have hreceive : receiveTransaction head res = .ok received := hrun
        rw [handedOver_cons_iff hreceive, if_neg hanswer, hmessage, hhanded,
          hbehind, ih hleft hbound]

end Receive

/-- The attempts at the endorsers, and those at the orderers, hand over their
own messages exactly where each answer is read alone and no freed block is
used. -/
theorem handsOwn_iff (proposals transactions : List NodeAttempt) :
    (HandsOwn receiveProposal proposals ↔ AllReadAlone 0 proposals) ∧
      (HandsOwn receiveTransaction transactions ↔
        ReadAloneThenSilent 0 transactions) := by
  have hempty : (⟨0, .null⟩ : Http2Response).Keeps [] :=
    ⟨rfl, fun hne => absurd rfl hne⟩
  exact ⟨proposals_own_iff hempty (by decide) proposals,
    transactions_own_iff hempty (by decide) transactions⟩

section Samples

/-- An answer that is shorter than its header is parsed again with the next
one, and behind an orderer's answer a freed block is read. -/
theorem not_handsOwn :
    ¬HandsOwn receiveProposal
        [⟨[[0, 0, 0]], boatSuccess⟩, ⟨[[0, 0, 0, 0, 1, 7]], boatSuccess⟩] ∧
      ¬HandsOwn receiveTransaction
        [⟨[[0, 0, 0, 0, 1, 7]], boatSuccess⟩,
          ⟨[[0, 0, 0, 0, 1, 8]], boatSuccess⟩] := by
  unfold HandsOwn
  decide

end Samples

end BoatFramework
