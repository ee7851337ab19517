/-
The send buffer of an HTTP/2 context, and the three copies of the code that
puts a packed message into it behind the five bytes of a gRPC frame: those of
Fabric, of Huawei BCS and of ChainMaker.
-/
import BoatFramework.Base.Exec
import BoatFramework.Storage.Nvram
import BoatFramework.Utility.Bigend

namespace BoatFramework

open ByteString

def boatHttp2SendBufMaxLen : Nat := 8192

/-- The recorded length and the block that `http2Init` reserves. -/
structure SendBuf where
  fieldLen : Nat
  block : Bytes 8192

abbrev FrameM := EStateM Failure SendBuf

/-- One zero byte and the four bytes of the length. -/
def grpcHeader (packedLength : Nat) : List UInt8 :=
  0 :: (List.range 4).map fun i =>
    UInt8.ofNat (packedLength >>> (32 - 8 * (i + 1)))

namespace FrameM

def setFieldLen (fieldLen : Nat) : FrameM Unit :=
  fun buf => .ok () { buf with fieldLen }

/-- Copy into the block; behind its end that is undefined. -/
def copy (offset : Nat) (bytes : List UInt8) : FrameM Unit :=
  fun buf =>
    if boatHttp2SendBufMaxLen < offset + bytes.length then
      .error .undefined buf
    else .ok () { buf with block := buf.block.write offset bytes }

end FrameM

section Frames

variable (packed : List UInt8)

/-- The end of `hlfabricProposalTransactionPacked`: the length is recorded
before it is checked. -/
def hlfabricFrame : FrameM Unit := do
  let packedLength := buint32 packed.length
  let fieldLen := buint32 (packedLength + 5)
  FrameM.setFieldLen fieldLen
  if 8192 < fieldLen then throw (.code boatErrorCommonOutOfMemory)
  else
    FrameM.copy 0 (grpcHeader packedLength)
    FrameM.copy 5 packed

/-- The end of `hwbcsProposalTransactionPacked`: the message is packed into a
block of its own and copied without a check. -/
def hwbcsFrame (granted : Bool) : FrameM Unit := do
  let packedLength := buint32 packed.length
  if granted = false then throw (.code boatErrorCommonOutOfMemory)
  else if packedLength < packed.length then throw .undefined
  else
    FrameM.setFieldLen (buint32 (packedLength + 5))
    FrameM.copy 0 (grpcHeader packedLength)
    FrameM.copy 5 packed

/-- The end of `hlchainmakerTransactionPacked`: a length that is too large is
logged only. -/
def hlchainmakerFrame : FrameM Unit := do
  let packedLength := buint32 packed.length
  FrameM.setFieldLen (buint32 (packedLength + 5))
  FrameM.copy 0 (grpcHeader packedLength)
  FrameM.copy 5 packed

end Frames

inductive GrpcPacker where
  | hlfabric
  | hwbcs
  | hlchainmaker

/-- The code that frames a message; `granted` is what the allocation of
Huawei BCS gets. -/
def GrpcPacker.frame (packer : GrpcPacker) (granted : Bool)
    (packed : List UInt8) : FrameM Unit :=
  match packer with
  | .hlfabric => hlfabricFrame packed
  | .hwbcs => hwbcsFrame packed granted
  | .hlchainmaker => hlchainmakerFrame packed

/-- A zero byte, the length in four bytes and the message. -/
def IsGrpcFrame (packed bytes : List UInt8) : Prop :=
  ∃ lengthBytes, lengthBytes.length = 4 ∧
    ofBigEndian lengthBytes = packed.length ∧
    bytes = 0 :: (lengthBytes ++ packed)

/-- What framing a message should do to a send buffer. -/
structure FramesWell (frame : FrameM Unit) (packed : List UInt8)
    (buf : SendBuf) : Prop where
  success : ∀ after, frame buf = .ok () after →
    after.fieldLen = packed.length + 5 ∧
      after.fieldLen ≤ boatHttp2SendBufMaxLen ∧
      IsGrpcFrame packed (after.block.1.take after.fieldLen)
  refused : boatHttp2SendBufMaxLen < packed.length + 5 →
    ∃ code, code ≠ boatSuccess ∧ frame buf = .error (.code code) buf

theorem length_grpcHeader (packedLength : Nat) :
    (grpcHeader packedLength).length = 5 :=
  rfl

section Fits

variable {packed : List UInt8} {buf : SendBuf}

/-- The buffer with a frame in it. -/
def SendBuf.framed (buf : SendBuf) (packed : List UInt8) : SendBuf where
  fieldLen := packed.length + 5
  block := (buf.block.write 0 (grpcHeader packed.length)).write 5 packed

theorem copy_fits {offset : Nat} {bytes : List UInt8}
    (hfits : offset + bytes.length ≤ boatHttp2SendBufMaxLen) :
    FrameM.copy offset bytes buf =
      .ok () { buf with block := buf.block.write offset bytes } :=
  if_neg (Nat.not_lt.mpr hfits)

/-- The three copies do the same where the message fits. -/
theorem frame_fits (packer : GrpcPacker)
    (hfits : packed.length + 5 ≤ boatHttp2SendBufMaxLen) :
    packer.frame true packed buf = .ok () (buf.framed packed) := by
  have hmax : boatHttp2SendBufMaxLen = 8192 := rfl
  have hlen : buint32 packed.length = packed.length := buint32_of_lt (by omega)
  have hfieldLen : buint32 (packed.length + 5) = packed.length + 5 :=
    buint32_of_lt (by omega)
  have hheader := length_grpcHeader packed.length
  have hcopies : (do
      FrameM.setFieldLen (packed.length + 5)
      FrameM.copy 0 (grpcHeader packed.length)
      FrameM.copy 5 packed) buf = .ok () (buf.framed packed) := by
    apply Exec.bind_eq_ok.mpr
    refine ⟨(), _, rfl, Exec.bind_eq_ok.mpr ⟨(), _, copy_fits ?_, ?_⟩⟩
    · omega
    · rw [copy_fits (by omega)]
      rfl
  cases packer with
  | hlfabric =>
      simp only [GrpcPacker.frame, hlfabricFrame, hlen, hfieldLen]
      rw [if_neg (by omega)]
      exact hcopies
  | hwbcs =>
      simp only [GrpcPacker.frame, hwbcsFrame, hlen, hfieldLen]
      rw [if_neg (by decide), if_neg (Nat.lt_irrefl _)]
      exact hcopies
  | hlchainmaker =>
      simp only [GrpcPacker.frame, hlchainmakerFrame, hlen, hfieldLen]
      exact hcopies

/-- What the frame holds. -/
theorem framed_isGrpcFrame
    (hfits : packed.length + 5 ≤ boatHttp2SendBufMaxLen) :
    IsGrpcFrame packed
      ((buf.framed packed).block.1.take (packed.length + 5)) := by
  have hmax : boatHttp2SendBufMaxLen = 8192 := rfl
  have hheader := length_grpcHeader packed.length
  have hfirst : ByteFile.At (buf.framed packed).block.1 0
      (grpcHeader packed.length ++ packed) := by
    rw [SendBuf.framed, Bytes.write_val (by omega), Bytes.write_val (by omega)]
    apply ByteFile.at_append.mpr
    rw [Nat.zero_add, hheader]
    exact ⟨ByteFile.at_write.write_before (by omega), ByteFile.at_write⟩
  obtain ⟨front, back, hblock, hfront⟩ := hfirst
  obtain rfl := List.length_eq_zero_iff.mp hfront
  refine ⟨bigendOctets packed.length true 4, length_bigendOctets _ 4, ?_, ?_⟩
  · rw [ofBigEndian_bigendOctets, Nat.mod_eq_of_lt (by omega)]
  · rw [hblock, List.nil_append, List.take_left' (by
      rw [List.length_append, hheader, Nat.add_comm])]
    rfl

end Fits

section Long

variable {packed : List UInt8} {buf : SendBuf}

theorem copy_keeps (offset : Nat) (bytes : List UInt8) :
    Exec.Keeps SendBuf.fieldLen (FrameM.copy offset bytes) := by
  intro buf
  unfold FrameM.copy
  split <;> rfl

theorem copies_keep (header : List UInt8) :
    Exec.Keeps SendBuf.fieldLen (do
      FrameM.copy 0 header
      FrameM.copy 5 packed) :=
  (copy_keeps 0 header).bind fun _ => copy_keeps 5 packed

/-- A run that is defined leaves the new length, whatever else it does. -/
theorem frame_fieldLen (packer : GrpcPacker) :
    packer.frame true packed buf = .error .undefined buf ∨
      (Exec.final (packer.frame true packed buf)).fieldLen =
        buint32 (buint32 packed.length + 5) := by
  have hset (rest : FrameM Unit) (hrest : Exec.Keeps SendBuf.fieldLen rest) :
      (Exec.final ((do
        FrameM.setFieldLen (buint32 (buint32 packed.length + 5))
        rest) buf)).fieldLen = buint32 (buint32 packed.length + 5) :=
    Exec.view_bind (fun _ => hrest) buf
  cases packer with
  | hlfabric =>
      right
      apply hset
      apply Exec.Keeps.ite
      · exact fun _ => rfl
      · exact copies_keep _
  | hwbcs =>
      simp only [GrpcPacker.frame, hwbcsFrame]
      rw [if_neg (by decide)]
      split
      · exact .inl rfl
      · exact .inr (hset _ (copies_keep _))
  | hlchainmaker =>
      exact .inr (hset _ (copies_keep _))

end Long

theorem frame_granted {packer : GrpcPacker} {granted : Bool}
    {packed : List UInt8} {buf after : SendBuf}
    (hrun : packer.frame granted packed buf = .ok () after) :
    packer.frame true packed buf = .ok () after := by
  cases packer with
  | hlfabric => exact hrun
  | hwbcs =>
      cases granted with
      | false => cases hrun
      | true => exact hrun
  | hlchainmaker => exact hrun

/-- No copy of the code refuses a message and leaves the recorded length, but
where that length is the one it would have had. -/
theorem frame_refused {packer : GrpcPacker} {packed : List UInt8}
    {buf : SendBuf} {code : BoatResult}
    (hrun : packer.frame true packed buf = .error (.code code) buf) :
    buf.fieldLen = buint32 (buint32 packed.length + 5) := by
  rcases frame_fieldLen packer with hundefined | hfinal
  · rw [hrun] at hundefined
    cases hundefined
  · rw [hrun] at hfinal
    exact hfinal

/-- A block of zeros and a recorded length. -/
def SendBuf.zeros (fieldLen : Nat) : SendBuf :=
  ⟨fieldLen, List.replicate 8192 0, List.length_replicate⟩

/-- A message is framed well in every buffer when it fits. -/
theorem framesWell_iff (packer : GrpcPacker) (packed : List UInt8) :
    (∀ granted buf, FramesWell (packer.frame granted packed) packed buf) ↔
      packed.length + 5 ≤ boatHttp2SendBufMaxLen := by
  constructor
  · intro hwell
    apply Nat.le_of_not_lt
    intro hlong
    obtain ⟨code, _, hrun⟩ := (hwell true
      (.zeros (buint32 (buint32 packed.length + 5) + 1))).refused hlong
    exact absurd (frame_refused hrun) (Nat.succ_ne_self _)
  · intro hfits granted buf
    constructor
    · intro after hrun
      have hgranted := frame_granted hrun
      rw [frame_fits packer hfits] at hgranted
      cases hgranted
      exact ⟨rfl, hfits, framed_isGrpcFrame hfits⟩
    · intro hlong
      exact absurd hlong (Nat.not_lt.mpr hfits)

/-- One byte more than the buffer holds, in an empty buffer. -/
theorem long_not_framesWell (packer : GrpcPacker) :
    ¬FramesWell (packer.frame true (List.replicate 8188 0))
      (List.replicate 8188 0) (.zeros 0) := by
  intro hwell
  have hlength : (List.replicate 8188 (0 : UInt8)).length = 8188 :=
    List.length_replicate
  obtain ⟨code, _, hrun⟩ := hwell.refused (by
    rw [hlength]
    decide)
  have hsame := frame_refused hrun
  rw [hlength] at hsame
  exact absurd hsame (by decide)

theorem not_framesWell :
    ¬FramesWell (hlfabricFrame (List.replicate 8188 0)) (List.replicate 8188 0)
        (.zeros 0) ∧
      ¬FramesWell (hwbcsFrame (List.replicate 8188 0) true)
        (List.replicate 8188 0) (.zeros 0) ∧
      ¬FramesWell (hlchainmakerFrame (List.replicate 8188 0))
        (List.replicate 8188 0) (.zeros 0) :=
  ⟨long_not_framesWell .hlfabric, long_not_framesWell .hwbcs,
    long_not_framesWell .hlchainmaker⟩

end BoatFramework
