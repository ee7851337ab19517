/-
`data_source_read_callback`: how the HTTP/2 library gets the body of a request.
The library offers a size at every call and calls until the end of the stream is
flagged.  The callback keeps no position: it copies the whole body whatever size
it is offered.
-/
import BoatFramework.Http2.SendBuf

namespace BoatFramework

/-- A send buffer whose recorded length is inside its block. -/
structure RequestBody where
  sendBuf : SendBuf
  inside : sendBuf.fieldLen ≤ boatHttp2SendBufMaxLen

def RequestBody.bytes (body : RequestBody) : List UInt8 :=
  body.sendBuf.block.1.take body.sendBuf.fieldLen

/-- What one call returns, and whether it flags the end of the stream. -/
structure DataRead where
  bytes : List UInt8
  eof : Bool
deriving DecidableEq

/-- `data_source_read_callback` with `length` bytes offered; a copy behind these
is undefined. -/
def dataSourceReadCallback (sendBuf : SendBuf) (length : Nat) :
    Outcome DataRead := do
  let bytes ← loadAt sendBuf.block.1 0 sendBuf.fieldLen
  if length < bytes.length then .error .undefined
  else return { bytes, eof := true }

/-- The calls of the library, one for each size until the end of the stream. -/
def readBody (sendBuf : SendBuf) : List Nat → Outcome (List DataRead)
  | [] => .ok []
  | size :: sizes => do
      let read ← dataSourceReadCallback sendBuf size
      if read.eof then return [read]
      else return read :: (← readBody sendBuf sizes)

def delivered (reads : List DataRead) : List UInt8 :=
  reads.flatMap DataRead.bytes

/-- What the library relies on: no read is longer than its size, together they
are the body, and the end is flagged on the read that completes it. -/
structure Delivers (body : List UInt8) (sizes : List Nat)
    (reads : List DataRead) : Prop where
  bounded : List.Forall₂ (fun read size => read.bytes.length ≤ size) reads
    (sizes.take reads.length)
  whole : delivered reads = body
  flagged : ∀ front read back, reads = front ++ read :: back →
    (read.eof = true ↔ delivered (front ++ [read]) = body)

theorem RequestBody.length_bytes (body : RequestBody) :
    body.bytes.length = body.sendBuf.fieldLen := by
  have hblock := body.sendBuf.block.2
  have hinside := body.inside
  have hmax : boatHttp2SendBufMaxLen = 8192 := rfl
  rw [bytes, List.length_take]
  omega

/-- A call copies the whole body. -/
theorem dataSourceReadCallback_eq (body : RequestBody) (length : Nat) :
    dataSourceReadCallback body.sendBuf length =
      if length < body.bytes.length then .error .undefined
      else .ok ⟨body.bytes, true⟩ := by
  have hload : loadAt body.sendBuf.block.1 0 body.sendBuf.fieldLen =
      .ok body.bytes := by
    have hfits : 0 + body.sendBuf.fieldLen ≤ body.sendBuf.block.1.length := by
      have hblock := body.sendBuf.block.2
      have hinside := body.inside
      have hmax : boatHttp2SendBufMaxLen = 8192 := rfl
      omega
    rw [loadAt, if_pos hfits]
    rfl
  rw [dataSourceReadCallback, hload]
  rfl

/-- The first call is the last. -/
theorem readBody_cons (body : RequestBody) (size : Nat) (sizes : List Nat) :
    readBody body.sendBuf (size :: sizes) =
      if size < body.bytes.length then .error .undefined
      else .ok [⟨body.bytes, true⟩] := by
  rw [readBody, dataSourceReadCallback_eq]
  split <;> rfl

theorem delivers_once {body : List UInt8} {size : Nat} (sizes : List Nat)
    (hfits : body.length ≤ size) :
    Delivers body (size :: sizes) [⟨body, true⟩] where
  bounded := List.Forall₂.cons hfits List.Forall₂.nil
  whole := by simp [delivered]
  flagged := by
    intro front read back hreads
    obtain ⟨rfl, hrest⟩ | ⟨front, rfl, hrest⟩ := List.cons_eq_append_iff.mp hreads
    · obtain ⟨rfl, -⟩ := List.cons.inj hrest
      simp [delivered]
    · exact absurd hrest.symm (by simp)

/-- The body is delivered when it fits into the size that is offered first. -/
theorem readBody_delivers_iff (body : RequestBody) (size : Nat)
    (sizes : List Nat) :
    (∃ reads, readBody body.sendBuf (size :: sizes) = .ok reads ∧
        Delivers body.bytes (size :: sizes) reads) ↔
      body.sendBuf.fieldLen ≤ size := by
  rw [← body.length_bytes, readBody_cons]
  constructor
  · rintro ⟨reads, hrun, -⟩
    apply Nat.le_of_not_lt
    intro hlong
    rw [if_pos hlong] at hrun
    cases hrun
  · intro hfits
    rw [if_neg (Nat.not_lt.mpr hfits)]
    exact ⟨_, rfl, delivers_once sizes hfits⟩

/-- The body of a request is the gRPC frame that a packer has put into the send
buffer. -/
theorem readBody_framed (packer : GrpcPacker) {packed : List UInt8}
    (buf : SendBuf) {size : Nat} (sizes : List Nat)
    (hfits : packed.length + 5 ≤ boatHttp2SendBufMaxLen)
    (hsize : packed.length + 5 ≤ size) :
    ∃ after reads, packer.frame true packed buf = .ok () after ∧
      readBody after (size :: sizes) = .ok reads ∧
      IsGrpcFrame packed (delivered reads) := by
  have hrun := (readBody_delivers_iff ⟨buf.framed packed, hfits⟩ size sizes).mpr
    hsize
  obtain ⟨reads, hreads, hdelivers⟩ := hrun
  refine ⟨_, reads, frame_fits packer hfits, hreads, ?_⟩
  rw [hdelivers.whole]
  exact framed_isGrpcFrame hfits

/-- Two bytes of a body, offered one byte at a time. -/
theorem not_readBody_delivers :
    readBody (.zeros 2) [1, 1] = .error .undefined ∧
    ¬ ∀ (body : RequestBody) (size : Nat) (sizes : List Nat),
      ∃ reads, readBody body.sendBuf (size :: sizes) = .ok reads ∧
        Delivers body.bytes (size :: sizes) reads := by
  have hinside : (SendBuf.zeros 2).fieldLen ≤ boatHttp2SendBufMaxLen := by
    decide
  have hlong : ¬ (SendBuf.zeros 2).fieldLen ≤ 1 := by
    decide
  have hlength : (⟨.zeros 2, hinside⟩ : RequestBody).bytes.length = 2 :=
    RequestBody.length_bytes ⟨.zeros 2, hinside⟩
  refine ⟨?_, ?_⟩
  · have hrun := readBody_cons ⟨.zeros 2, hinside⟩ 1 [1]
    rw [hlength, if_pos (by decide)] at hrun
    exact hrun
  · intro hall
    exact hlong ((readBody_delivers_iff ⟨.zeros 2, hinside⟩ 1 [1]).mp
      (hall ⟨.zeros 2, hinside⟩ 1 [1]))

end BoatFramework
