/-
Reading the record of a keypair: its frame, its values one by one, and the
context they make.
-/
import BoatFramework.Keypair.Keypair
import BoatFramework.Storage.ScanRuns

namespace BoatFramework

open Fuse

variable {d : Device} {storeType : BoatStoreType} {offset ops : Nat}
  {value rest : List UInt8} {frame : RecordFrame} {size : Option Nat}
  {before : Nvram Unit} {ctx : BoatKeypairPriKeyCtx}

theorem requireSize_ok {n : Nat} (block : Bytes n) :
    Reads (requireSize n block.1) d 0 (.ok block) := by
  unfold requireSize
  exact Runs.inspect (dif_pos block.2)

variable (frame size) in
/-- A value within its record is read. -/
theorem readValue_runs
    (hholds : d.Holds .keypair storeType offset
      (LengthValue.encode value ++ rest))
    (hknown : storeType ≠ .unknown)
    (hthree : 3 ≤ (LengthValue.encode value ++ rest).length)
    (hne : value ≠ []) (hsize : ∀ n ∈ size, value.length = n)
    (hstart : frame.start ≤ offset)
    (hend : offset + (LengthValue.encode value).length ≤
      frame.start + frame.length)
    (hbefore : Reads before d ops (.ok ())) :
    Reads (readValue frame storeType size before offset) d
      (2 * storeType.cost + ops)
      (.ok (value, offset + (LengthValue.encode value).length)) := by
  have hlt := hholds.length_lt (by decide)
  have hlength := readKeyLength_runs hholds (by decide) hknown hthree
  have hvalue := hholds
  rw [LengthValue.encode, List.append_assoc] at hvalue
  obtain ⟨_, hvalue⟩ := holds_append.mp hvalue
  have hread := (holds_append.mp hvalue).1.read hknown
    (List.length_pos_of_ne_nil hne) (Nat.le_refl _)
  rw [List.take_length] at hread
  rw [List.length_append] at hlt
  rw [LengthValue.length_encode] at hlt hend
  have hmove : advance offset (utilityGetTLVLLFromLen value.length) =
      offset + (LengthValue.header value.length).length := by
    rw [utilityGetTLVLLFromLen_eq, advance_of_lt (by omega)]
  have hlast : advance (offset + (LengthValue.header value.length).length)
      value.length = offset + (LengthValue.encode value).length := by
    rw [advance_of_lt (by omega), LengthValue.length_encode]
    omega
  have hinside : ¬frame.length < advance (distance
      (offset + (LengthValue.header value.length).length) frame.start)
        value.length := by
    have hdistance : distance
        (offset + (LengthValue.header value.length).length) frame.start =
          offset + (LengthValue.header value.length).length -
            frame.start := by
      unfold distance buint32
      omega
    rw [hdistance, advance_of_lt (by omega)]
    omega
  have hsizes : ¬∃ n ∈ size, value.length ≠ n := by
    rintro ⟨n, hn, hdiff⟩
    exact hdiff (hsize n hn)
  refine Runs.cast (a := storeType.cost + (ops + storeType.cost)) ?_ (by omega)
  refine hlength.bind (Runs.pass hsizes ?_)
  rw [hmove]
  refine Runs.pass hinside ?_
  refine hbefore.bind ?_
  refine hread.map ?_
  rw [hlast]

/-- The values of a record behind its index. -/
def BoatKeypairPriKeyCtx.values (ctx : BoatKeypairPriKeyCtx) : List UInt8 :=
  LengthValue.encode ctx.keypairName.bytes ++
    (LengthValue.encode (enumBytes ctx.prikeyFormat) ++
      (LengthValue.encode (enumBytes ctx.prikeyType) ++
        LengthValue.encode ctx.pubkeyContent.1))

/-- All values of a record. -/
def BoatKeypairPriKeyCtx.payload (ctx : BoatKeypairPriKeyCtx) : List UInt8 :=
  [1, ctx.keypairIndex] ++ ctx.values

def BoatKeypairPriKeyCtx.headerLength (ctx : BoatKeypairPriKeyCtx) : Nat :=
  (LengthValue.header ctx.payload.length).length

/-- The frame of a record that begins at an offset. -/
def BoatKeypairPriKeyCtx.frameAt (ctx : BoatKeypairPriKeyCtx) (offset : Nat) :
    RecordFrame :=
  ⟨offset + ctx.headerLength, ctx.payload.length, ctx.headerLength⟩

theorem BoatKeypairPriKeyCtx.record_eq (ctx : BoatKeypairPriKeyCtx) :
    ctx.record = LengthValue.encode ctx.payload :=
  rfl

theorem BoatKeypairPriKeyCtx.length_record_eq (ctx : BoatKeypairPriKeyCtx) :
    ctx.record.length = ctx.headerLength + ctx.payload.length :=
  LengthValue.length_encode ctx.payload

theorem BoatKeypairPriKeyCtx.length_payload (ctx : BoatKeypairPriKeyCtx) :
    ctx.payload.length = 2 + ctx.values.length :=
  List.length_append

theorem BoatKeypairPriKeyCtx.length_values (ctx : BoatKeypairPriKeyCtx) :
    ctx.values.length =
      (LengthValue.encode ctx.keypairName.bytes).length + 75 := by
  have hpubkey := ctx.pubkeyContent.2
  have hfour : (LengthValue.header 4).length = 1 := rfl
  have hpub : (LengthValue.header 64).length = 1 := rfl
  simp only [values, List.length_append, LengthValue.length_encode,
    length_enumBytes, hpubkey, hfour, hpub]

/-- The four values behind the index make the context. -/
theorem readContext_runs {pubkeySize : Option Nat}
    (hholds : d.Holds .keypair storeType offset (ctx.values ++ rest))
    (hknown : storeType ≠ .unknown) (hnamed : ctx.keypairName.bytes ≠ [])
    (hpubkey : ∀ n ∈ pubkeySize, n = 64) (hstart : frame.start ≤ offset)
    (hend : offset + ctx.values.length ≤ frame.start + frame.length)
    (hbefore : Reads before d ops (.ok ())) :
    Reads (readContext frame storeType ctx.keypairIndex pubkeySize before
        offset) d (8 * storeType.cost + ops) (.ok ctx) := by
  have hlen := ctx.length_values
  have hpub := ctx.pubkeyContent.2
  have hfour : ∀ n, (LengthValue.encode (enumBytes n)).length = 5 := fun _ => rfl
  have hkey : (LengthValue.encode ctx.pubkeyContent.1).length = 65 := by
    rw [LengthValue.length_encode, hpub]
    rfl
  have hname := LengthValue.length_encode ctx.keypairName.bytes
  have hnameHeader := LengthValue.length_header ctx.keypairName.bytes.length
  rw [BoatKeypairPriKeyCtx.values, List.append_assoc, List.append_assoc,
    List.append_assoc] at hholds
  obtain ⟨_, hformat⟩ := holds_append.mp hholds
  obtain ⟨_, htype⟩ := holds_append.mp hformat
  obtain ⟨_, hkeyAt⟩ := holds_append.mp htype
  rw [hfour] at htype hkeyAt
  rw [hfour] at hkeyAt
  have hread := readValue_runs frame none hholds hknown
    (by simp only [List.length_append, hkey, hfour]; omega) hnamed (by simp)
    hstart (by omega) hbefore
  have hreadFormat := readValue_runs frame none hformat hknown
    (by simp only [List.length_append, hfour]; omega)
    (by simp [enumBytes]) (by simp) (by omega)
    (by rw [hfour]; omega) Runs.pure
  have hreadType := readValue_runs frame none htype hknown
    (by simp only [List.length_append, hfour]; omega)
    (by simp [enumBytes]) (by simp) (by omega)
    (by rw [hfour]; omega) Runs.pure
  have hreadKey := readValue_runs frame pubkeySize hkeyAt hknown
    (by simp only [List.length_append, hkey]; omega)
    (by intro hnil; rw [hnil] at hpub; cases hpub)
    (fun n hn => by rw [hpub, hpubkey n hn]) (by omega)
    (by rw [hkey]; omega) Runs.pure
  rw [hfour] at hreadFormat hreadType
  have hctx : (⟨ctx.keypairIndex, CString.ofBuffer ctx.keypairName.bytes,
      enumOfBytes (enumBytes ctx.prikeyFormat),
      enumOfBytes (enumBytes ctx.prikeyType), ctx.pubkeyContent⟩ :
        BoatKeypairPriKeyCtx) = ctx := by
    rw [ofBuffer_bytes, enumOfBytes_enumBytes, enumOfBytes_enumBytes]
  have hsize (value : UInt32) : Reads (requireSize 4 (enumBytes value)) d 0
      (.ok ⟨enumBytes value, rfl⟩) :=
    requireSize_ok ⟨enumBytes value, rfl⟩
  refine Runs.cast (a := 2 * storeType.cost + ops + (2 * storeType.cost + 0 +
    (0 + (2 * storeType.cost + 0 + (0 + (2 * storeType.cost + 0 + 0)))))) ?_
      (by omega)
  unfold readContext
  refine hread.bind ?_
  refine hreadFormat.bind ?_
  refine (hsize _).bind ?_
  refine hreadType.bind ?_
  refine (hsize _).bind ?_
  refine hreadKey.bind ?_
  refine (requireSize_ok ctx.pubkeyContent).map ?_
  rw [hctx]

/-- The bytes of keypair records, one after the other. -/
abbrev keypairBytes (ctxs : List BoatKeypairPriKeyCtx) : List UInt8 :=
  (ctxs.map BoatKeypairPriKeyCtx.record).flatten

variable (ctx) in
theorem length_keypairBytes_cons (ctxs : List BoatKeypairPriKeyCtx) :
    (keypairBytes (ctx :: ctxs)).length =
      ctx.record.length + (keypairBytes ctxs).length := by
  rw [keypairBytes, List.map_cons, List.flatten_cons, List.length_append]

theorem BoatKeypairPriKeyCtx.headerLength_eq (ctx : BoatKeypairPriKeyCtx) :
    utilityGetTLVLLFromLen ctx.payload.length = ctx.headerLength :=
  utilityGetTLVLLFromLen_eq ctx.payload.length

/-- The reads inside a record that lies at an offset. -/
structure KeypairReads (d : Device) (storeType : BoatStoreType) (offset : Nat)
    (ctx : BoatKeypairPriKeyCtx) (ctxs : List BoatKeypairPriKeyCtx) : Prop where
  length : Reads (readLength .keypair offset storeType) d storeType.cost
    (.ok ctx.payload.length)
  frame : Reads (readFrame offset storeType) d storeType.cost
    (.ok (ctx.frameAt offset))
  indexBytes : ∃ bytes, lengthOf bytes = 1 ∧
    bytes.getD 1 0 = ctx.keypairIndex ∧
      Reads (boatReadSoftRotNvram .keypair (offset + ctx.headerLength) 3
        storeType) d storeType.cost (.ok bytes)
  indexLength : Reads (readLength .keypair (offset + ctx.headerLength)
    storeType) d storeType.cost (.ok 1)
  index : Reads (readByte .keypair (offset + (ctx.headerLength + 1))
    storeType) d storeType.cost (.ok ctx.keypairIndex)
  readIndex : Reads (readIndex offset storeType) d (3 * storeType.cost)
    (.ok (ctx.frameAt offset, ctx.keypairIndex, offset + ctx.headerLength + 2))
  context : ∀ (pubkeySize : Option Nat) {before : Nvram Unit} {ops : Nat},
    (∀ n ∈ pubkeySize, n = 64) → Reads before d ops (.ok ()) →
      Reads (readContext (ctx.frameAt offset) storeType ctx.keypairIndex
        pubkeySize before (offset + ctx.headerLength + 2)) d
        (8 * storeType.cost + ops) (.ok ctx)
  small : offset + ctx.record.length < 1000
  tail : d.Holds .keypair storeType (offset + ctx.record.length)
    (keypairBytes ctxs)

theorem keypairBytes_cons {ctxs : List BoatKeypairPriKeyCtx} :
    keypairBytes (ctx :: ctxs) =
      LengthValue.header ctx.payload.length ++
        ([1] ++ ([ctx.keypairIndex] ++ (ctx.values ++ keypairBytes ctxs))) := by
  rw [keypairBytes, List.map_cons, List.flatten_cons,
    BoatKeypairPriKeyCtx.record_eq, LengthValue.encode, List.append_assoc]
  rfl

theorem keypairReads {ctxs : List BoatKeypairPriKeyCtx}
    (hholds : d.Holds .keypair storeType offset (keypairBytes (ctx :: ctxs)))
    (hknown : storeType ≠ .unknown) (hnamed : ctx.keypairName.bytes ≠ []) :
    KeypairReads d storeType offset ctx ctxs := by
  have hlt := hholds.length_lt (by decide)
  have hrecord := ctx.length_record_eq
  have hpayload := ctx.length_payload
  have hvalues := ctx.length_values
  have hheader : 1 ≤ ctx.headerLength ∧ ctx.headerLength ≤ 3 :=
    LengthValue.length_header ctx.payload.length
  rw [length_keypairBytes_cons] at hlt
  have hwhole : d.Holds .keypair storeType offset
      (LengthValue.encode ctx.payload ++ keypairBytes ctxs) :=
    hholds
  have htail : d.Holds .keypair storeType (offset + ctx.record.length)
      (keypairBytes ctxs) := (holds_append.mp hwhole).2
  rw [keypairBytes_cons] at hholds
  have hone : d.Holds .keypair storeType (offset + ctx.headerLength)
      (LengthValue.encode [ctx.keypairIndex] ++
        (ctx.values ++ keypairBytes ctxs)) := (holds_append.mp hholds).2
  have hindexAt : d.Holds .keypair storeType (offset + ctx.headerLength + 1)
      (ctx.keypairIndex :: (ctx.values ++ keypairBytes ctxs)) :=
    (holds_append.mp (holds_append.mp hholds).2).2
  have hvaluesAt : d.Holds .keypair storeType
      (offset + ctx.headerLength + 1 + 1)
        (ctx.values ++ keypairBytes ctxs) :=
    (holds_append.mp (holds_append.mp (holds_append.mp hholds).2).2).2
  have hthree : 3 ≤ (LengthValue.encode [ctx.keypairIndex] ++
      (ctx.values ++ keypairBytes ctxs)).length := by
    rw [List.length_append, List.length_append, LengthValue.length_encode]
    omega
  have hthreeWhole : 3 ≤ (LengthValue.encode ctx.payload ++
      keypairBytes ctxs).length := by
    rw [List.length_append, LengthValue.length_encode]
    omega
  have hmove : advance offset ctx.headerLength = offset + ctx.headerLength :=
    advance_of_lt (by omega)
  have hlength := readKeyLength_runs hwhole (by decide) hknown hthreeWhole
  have hframe : Reads (readFrame offset storeType) d storeType.cost
      (.ok (ctx.frameAt offset)) := by
    refine hlength.map ?_
    simp only [BoatKeypairPriKeyCtx.headerLength_eq, hmove]
    rfl
  have hindexValue := readValue_runs (ctx.frameAt offset)
    (some 1) hone hknown hthree (by simp)
    (by simp) (Nat.le_refl _) (by
      have hindexLen : (LengthValue.encode [ctx.keypairIndex]).length = 2 := rfl
      simp only [BoatKeypairPriKeyCtx.frameAt, hindexLen]
      omega) Runs.pure
  refine ⟨hlength, hframe, ?_, readKeyLength_runs hone (by decide) hknown hthree, ?_, ?_, ?_,
    by omega, htail⟩
  · have hread := hone.read hknown (by decide) hthree
    refine ⟨_, lengthOf_encode (by simp) _, ?_, hread⟩
    rfl
  · rw [← Nat.add_assoc]
    exact readByte_runs hindexAt hknown
  · refine Runs.cast (a := storeType.cost + (2 * storeType.cost + 0)) ?_
      (by omega)
    refine hframe.bind ?_
    exact hindexValue.map rfl
  · intro pubkeySize before ops hpubkey hbefore
    refine readContext_runs hvaluesAt hknown hnamed hpubkey ?_ ?_ hbefore
    · simp only [BoatKeypairPriKeyCtx.frameAt]
      omega
    · simp only [BoatKeypairPriKeyCtx.frameAt]
      omega

end BoatFramework
