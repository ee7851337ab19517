/-
The keypair routines on a well-formed store: what the scans find, what an append
and a delete leave behind, and how many operations that takes.
-/
import BoatFramework.Keypair.RecordRuns
import BoatFramework.Keypair.KeystoreRuns

namespace BoatFramework

open Fuse

variable {d : Device} {storeType : BoatStoreType} {offset : Nat}
  {index : UInt8} {ctx : BoatKeypairPriKeyCtx}
  {ctxs front back : List BoatKeypairPriKeyCtx}

/-- Records of keypairs that have a name. -/
def AllNamed (ctxs : List BoatKeypairPriKeyCtx) : Prop :=
  ∀ ctx ∈ ctxs, ctx.keypairName.bytes ≠ []

theorem AllNamed.head (hnamed : AllNamed (ctx :: ctxs)) :
    ctx.keypairName.bytes ≠ [] :=
  hnamed ctx List.mem_cons_self

theorem AllNamed.tail (hnamed : AllNamed (ctx :: ctxs)) : AllNamed ctxs :=
  fun other hother => hnamed other (List.mem_cons_of_mem ctx hother)

theorem KeypairReads.outlen
    (hreads : KeypairReads d storeType offset ctx ctxs) :
    buint32 (ctx.payload.length + ctx.headerLength) = ctx.record.length := by
  have hsmall := hreads.small
  have hrecord := ctx.length_record_eq
  rw [buint32_of_lt (by omega)]
  omega

theorem KeypairReads.advance_record
    (hreads : KeypairReads d storeType offset ctx ctxs) :
    advance offset ctx.record.length = offset + ctx.record.length := by
  have hsmall := hreads.small
  exact advance_of_lt (by omega)

theorem getKeypairFromNvram_spared
    (hreads : KeypairReads d storeType offset ctx ctxs) :
    Spared (boatKeypairGetKeypairFromNvram offset storeType) d
      (11 * storeType.cost) (.ok (.complete ctx ctx.record.length)) d := by
  have hcontext := hreads.context (some 64)
    (by simp) Runs.pure
  refine Spared.cast (a := 3 * storeType.cost + (8 * storeType.cost + 0)) ?_
    (by omega)
  unfold boatKeypairGetKeypairFromNvram
  refine (call_ok hreads.readIndex.spared).bind ?_
  refine (call_ok hcontext.spared).map ?_
  change pure (KeypairRead.complete ctx
    (buint32 (ctx.payload.length + ctx.headerLength))) = _
  rw [hreads.outlen]

/-- Where the reads of a keypair break off, the index is known after three. -/
theorem getKeypairFromNvram_burnt
    (hreads : KeypairReads d .flash offset ctx ctxs) {k : Nat} (hk : k < 11) :
    ∃ code, boatKeypairGetKeypairFromNvram offset .flash ⟨d, some k⟩ =
      .ok (.broken code (if k < 3 then none else some ctx.keypairIndex))
        ⟨d, none⟩ := by
  have hcontext := hreads.context (some 64)
    (by simp) Runs.pure
  unfold boatKeypairGetKeypairFromNvram
  by_cases hthree : k < 3
  · obtain ⟨e, t, ⟨code, rfl⟩, rfl, hrun⟩ := hreads.readIndex.burnt k hthree
    rw [if_pos hthree]
    exact ⟨code, run_bind_ok (attemptCall_error hrun)⟩
  · have hfirst := hreads.readIndex.spared (some k)
      (spares_some.mpr (Nat.not_lt.mp hthree))
    have hrest : k - 3 < 8 := by omega
    obtain ⟨e, t, ⟨code, rfl⟩, rfl, hrun⟩ := hcontext.burnt (k - 3) hrest
    rw [if_neg hthree]
    refine ⟨code, ?_⟩
    rw [run_bind_ok (attemptCall_ok hfirst)]
    exact run_bind_ok (attemptCall_error hrun)

theorem getKeypairs_spared (slot : Nat)
    (hholds : ctxs ≠ [] →
      d.Holds .keypair storeType offset (keypairBytes ctxs))
    (hknown : storeType ≠ .unknown) (hnamed : AllNamed ctxs)
    (hslot : slot + ctxs.length ≤ 6) :
    Spared (getKeypairs storeType ctxs.length slot offset) d
      (ctxs.length * (11 * storeType.cost)) (.ok ⟨ctxs, none, true⟩) d := by
  induction ctxs generalizing offset slot with
  | nil => exact Spared.pure.cast (Nat.zero_mul _).symm
  | cons head tail ih =>
      have hreads := keypairReads (hholds (by simp)) hknown hnamed.head
      rw [List.length_cons] at hslot
      have htail := ih (slot + 1) (fun _ => hreads.tail) hnamed.tail
        (by omega)
      rw [← hreads.advance_record] at htail
      have hslotMax : ¬boatMaxKeypairNum + 1 ≤ slot := by
        rw [boatMaxKeypairNum]
        omega
      refine Spared.cast (a := 11 * storeType.cost +
        tail.length * (11 * storeType.cost)) ?_ (by
          rw [List.length_cons, Nat.succ_mul tail.length]
          omega)
      refine Spared.pass hslotMax ?_
      refine (getKeypairFromNvram_spared hreads).bind ?_
      exact htail.map rfl

/-- A list that breaks off knows the indices that were read. -/
theorem getKeypairs_burnt (slot : Nat) {k : Nat}
    (hholds : d.Holds .keypair .flash offset (keypairBytes ctxs))
    (hnamed : AllNamed ctxs) (hslot : slot + ctxs.length ≤ 6)
    (hk : k < 11 * ctxs.length) :
    ∃ list, getKeypairs .flash ctxs.length slot offset ⟨d, some k⟩ =
        .ok list ⟨d, none⟩ ∧ list.complete = false ∧
      list.keypairs.map (·.keypairIndex) ++ list.broken.toList =
        (ctxs.map (·.keypairIndex)).take ((k + 8) / 11) := by
  induction ctxs generalizing offset slot k with
  | nil => exact absurd hk (Nat.not_lt_zero k)
  | cons head tail ih =>
      have hreads := keypairReads hholds (by decide) hnamed.head
      rw [List.length_cons] at hslot hk
      have hslotMax : ¬boatMaxKeypairNum + 1 ≤ slot := by
        rw [boatMaxKeypairNum]
        omega
      have hpass : (failIf (boatMaxKeypairNum + 1 ≤ slot) Failure.undefined :
          Nvram Unit) ⟨d, some k⟩ = .ok () ⟨d, some k⟩ := by
        rw [failIf, if_neg hslotMax]
        rfl
      rw [List.length_cons, getKeypairs, run_bind_ok hpass]
      by_cases hfirst : k < 11
      · obtain ⟨code, hrun⟩ := getKeypairFromNvram_burnt hreads hfirst
        refine ⟨⟨[], if k < 3 then none else some head.keypairIndex, false⟩,
          run_bind_ok hrun, rfl, ?_⟩
        by_cases hthree : k < 3
        · have hnone : (k + 8) / 11 = 0 := by omega
          rw [hnone]
          simp [hthree]
        · have hone : (k + 8) / 11 = 1 := by omega
          rw [hone]
          simp [hthree]
      · have hspared := getKeypairFromNvram_spared hreads (some k)
          (spares_some.mpr (Nat.not_lt.mp hfirst))
        obtain ⟨list, hrun, hcomplete, hindices⟩ := ih (slot + 1)
          hreads.tail hnamed.tail (k := k - 11) (by omega) (by omega)
        rw [← hreads.advance_record] at hrun
        refine ⟨{ list with keypairs := head :: list.keypairs }, ?_, hcomplete,
          ?_⟩
        · rw [run_bind_ok hspared]
          exact run_bind_ok hrun
        · have hnext : (k + 8) / 11 = (k - 11 + 8) / 11 + 1 := by omega
          change head.keypairIndex :: (list.keypairs.map (·.keypairIndex) ++
            list.broken.toList) = _
          rw [hindices, hnext, List.map_cons, List.take_succ_cons]

theorem skipKeypairs_runs
    (hholds : ctxs ≠ [] →
      d.Holds .keypair storeType offset (keypairBytes ctxs))
    (hknown : storeType ≠ .unknown) (hnamed : AllNamed ctxs) :
    Reads (skipKeypairs storeType ctxs.length offset) d
      (ctxs.length * storeType.cost)
      (.ok (offset + (keypairBytes ctxs).length)) := by
  induction ctxs generalizing offset with
  | nil => exact Runs.pure.cast (Nat.zero_mul _).symm
  | cons head tail ih =>
      have hreads := keypairReads (hholds (by simp)) hknown hnamed.head
      have htail := ih (fun _ => hreads.tail) hnamed.tail
      have hnext : advance offset (head.payload.length +
          utilityGetTLVLLFromLen head.payload.length) =
            offset + head.record.length := by
        have hrecord := head.length_record_eq
        rw [head.headerLength_eq, ← hreads.advance_record, hrecord,
          Nat.add_comm]
      rw [← hnext] at htail
      rw [length_keypairBytes_cons, ← Nat.add_assoc, ← hnext]
      refine Runs.cast (a := storeType.cost + tail.length * storeType.cost) ?_
        (by rw [List.length_cons, Nat.succ_mul tail.length]; omega)
      exact hreads.length.bind htail

/-- Where the scan of a delete goes on. -/
theorem KeypairReads.next
    (hreads : KeypairReads d storeType offset ctx ctxs) :
    advance offset (utilityGetTLVLLFromLen ctx.payload.length +
        ctx.payload.length) = offset + ctx.record.length ∧
      advance offset (utilityGetTLVLLFromLen ctx.payload.length) =
        offset + ctx.headerLength ∧
      advance offset (utilityGetTLVLLFromLen ctx.payload.length + 1) =
        offset + (ctx.headerLength + 1) := by
  have hrecord := ctx.length_record_eq
  have hpayload := ctx.length_payload
  have hsmall := hreads.small
  rw [ctx.headerLength_eq, advance_of_lt (n := ctx.headerLength) (by omega),
    advance_of_lt (n := ctx.headerLength + 1) (by omega),
    advance_of_lt (by omega), hrecord]
  exact ⟨rfl, rfl, rfl⟩

theorem findKeypair_absent
    (hholds : ctxs ≠ [] →
      d.Holds .keypair .flash offset (keypairBytes ctxs))
    (hnamed : AllNamed ctxs) (habsent : ∀ ctx ∈ ctxs, ctx.keypairIndex ≠ index) :
    Reads (findKeypair index ctxs.length offset) d (3 * ctxs.length)
      (.ok none) := by
  induction ctxs generalizing offset with
  | nil => exact Runs.pure
  | cons head tail ih =>
      have hreads := keypairReads (hholds (by simp)) (by decide) hnamed.head
      obtain ⟨hnext, hindexLength, hindex⟩ := hreads.next
      have htail := ih (fun _ => hreads.tail) hnamed.tail fun ctx hctx =>
        habsent ctx (List.mem_cons_of_mem head hctx)
      rw [← hnext] at htail
      have hhead := habsent head List.mem_cons_self
      refine Runs.cast (a := 1 + (1 + (1 + 3 * tail.length))) ?_ (by
        rw [List.length_cons]
        omega)
      refine hreads.length.bind ?_
      simp only [hindexLength, hindex]
      refine hreads.indexLength.bind (Runs.pass (by decide) ?_)
      refine hreads.index.bind ?_
      rw [if_neg hhead]
      exact htail

theorem findKeypair_found
    (hholds : d.Holds .keypair .flash offset
      (keypairBytes (front ++ ctx :: back)))
    (hnamed : AllNamed (front ++ ctx :: back))
    (habsent : ∀ other ∈ front, other.keypairIndex ≠ ctx.keypairIndex) :
    Reads (findKeypair ctx.keypairIndex (front ++ ctx :: back).length offset) d
      (3 * (front.length + 1))
      (.ok (some ⟨back.length, offset + (keypairBytes front).length,
        offset + (keypairBytes front).length + ctx.record.length⟩)) := by
  induction front generalizing offset with
  | nil =>
      have hreads := keypairReads hholds (by decide) hnamed.head
      obtain ⟨hnext, hindexLength, hindex⟩ := hreads.next
      refine Runs.cast (a := 1 + (1 + 1)) ?_ rfl
      refine hreads.length.bind ?_
      simp only [hindexLength, hindex, hnext]
      refine hreads.indexLength.bind (Runs.pass (by decide) ?_)
      refine hreads.index.map ?_
      rw [if_pos rfl]
      rfl
  | cons head tail ih =>
      have hreads := keypairReads hholds (by decide) hnamed.head
      obtain ⟨hnext, hindexLength, hindex⟩ := hreads.next
      have htail := ih hreads.tail hnamed.tail fun ctx hctx =>
        habsent ctx (List.mem_cons_of_mem head hctx)
      have hhead := habsent head List.mem_cons_self
      rw [length_keypairBytes_cons, ← Nat.add_assoc]
      refine Runs.cast (a := 1 + (1 + (1 + 3 * (tail.length + 1)))) ?_ (by
        rw [List.length_cons]
        omega)
      refine hreads.length.bind ?_
      simp only [hindexLength, hindex, hnext]
      refine hreads.indexLength.bind (Runs.pass (by decide) ?_)
      refine hreads.index.bind ?_
      rw [if_neg hhead]
      exact htail

theorem keypairsLength_runs
    (hholds : d.Holds .keypair .flash offset (keypairBytes ctxs))
    (hnamed : AllNamed ctxs) :
    Reads (keypairsLength ctxs.length offset) d ctxs.length
      (.ok (keypairBytes ctxs).length) := by
  induction ctxs generalizing offset with
  | nil => exact Runs.pure
  | cons head tail ih =>
      have hlt := hholds.length_lt (by decide)
      have hreads := keypairReads hholds (by decide) hnamed.head
      have htail := ih hreads.tail hnamed.tail
      rw [← hreads.next.1] at htail
      have hrecord := head.length_record_eq
      have hsum : buint32 (utilityGetTLVLLFromLen head.payload.length +
          head.payload.length + (keypairBytes tail).length) =
            (keypairBytes (head :: tail)).length := by
        rw [length_keypairBytes_cons] at hlt ⊢
        rw [head.headerLength_eq, buint32_of_lt (by omega)]
        omega
      refine Runs.cast (a := 1 + tail.length) ?_ (Nat.add_comm _ _)
      refine hreads.length.bind ?_
      refine htail.map ?_
      rw [hsum]

/-- The keypair of an index is read back as it was stored. -/
theorem readKeypairAt_found
    (hholds : d.Holds .keypair storeType offset
      (keypairBytes (front ++ ctx :: back)))
    (hknown : storeType ≠ .unknown) (hnamed : AllNamed (front ++ ctx :: back))
    (habsent : ∀ other ∈ front, other.keypairIndex ≠ ctx.keypairIndex) :
    Reads (readKeypairAt ctx.keypairIndex storeType
        (front ++ ctx :: back).length offset) d
      (front.length * (2 * storeType.cost) + (10 * storeType.cost + 1))
      (.ok ctx) := by
  induction front generalizing offset with
  | nil =>
      have hreads := keypairReads hholds hknown hnamed.head
      have hsmall := hreads.small
      have hrecord := ctx.length_record_eq
      have hpayload := ctx.length_payload
      obtain ⟨bytes, hlen, hbyte, hindex⟩ := hreads.indexBytes
      have hmalloc : Reads (boatMalloc boatError) d 1 (.ok ()) :=
        Runs.tick ⟨_, rfl⟩ rfl
      have hcontext := hreads.context none (by simp) hmalloc
      have hmove : advance (offset + ctx.headerLength) 2 =
          offset + ctx.headerLength + 2 := advance_of_lt (by omega)
      have hinside : ¬ctx.payload.length < distance
          (offset + ctx.headerLength + 2) (offset + ctx.headerLength) := by
        unfold distance buint32
        omega
      refine Runs.cast (a := storeType.cost + (storeType.cost +
        (8 * storeType.cost + 1))) ?_ (by
          rw [List.length_nil]
          omega)
      refine hreads.frame.bind ?_
      refine hindex.bind (Runs.pass (fun h => h hlen) ?_)
      rw [if_pos hbyte]
      change Reads (failIf (ctx.payload.length < distance
        (advance (offset + ctx.headerLength) 2) (offset + ctx.headerLength))
          (.code boatError) >>= fun _ => readContext (ctx.frameAt offset)
            storeType ctx.keypairIndex none (boatMalloc boatError)
              (advance (offset + ctx.headerLength) 2)) d _ _
      rw [hmove]
      exact Runs.pass hinside hcontext
  | cons head tail ih =>
      have hreads := keypairReads hholds hknown hnamed.head
      have hsmall := hreads.small
      have hrecord := head.length_record_eq
      obtain ⟨bytes, hlen, hbyte, hindex⟩ := hreads.indexBytes
      have hnext : advance (offset + head.headerLength) head.payload.length =
          offset + head.record.length := by
        rw [advance_of_lt (by omega), hrecord]
        omega
      have htail := ih hreads.tail hnamed.tail fun ctx hctx =>
        habsent ctx (List.mem_cons_of_mem head hctx)
      rw [← hnext] at htail
      have hhead := habsent head List.mem_cons_self
      refine Runs.cast (a := storeType.cost + (storeType.cost +
        (tail.length * (2 * storeType.cost) + (10 * storeType.cost + 1)))) ?_
          (by
            rw [List.length_cons, Nat.succ_mul tail.length]
            omega)
      refine hreads.frame.bind ?_
      refine hindex.bind (Runs.pass (fun h => h hlen) ?_)
      rw [if_neg (by rw [hbyte]; exact hhead)]
      exact htail

/-- The values of a record as they are put together. -/
def addedValues (ctx : BoatKeypairPriKeyCtx) : List UInt8 :=
  addLWithOffset [ctx.keypairIndex] ++
    (addLWithOffset ctx.keypairName.bytes ++
      (addLWithOffset (enumBytes ctx.prikeyFormat) ++
        (addLWithOffset (enumBytes ctx.prikeyType) ++
          addLWithOffset ctx.pubkeyContent.1)))

theorem length_addedValues (hnamed : ctx.keypairName.bytes ≠ []) :
    (addedValues ctx).length = 77 + ctx.keypairName.bytes.length +
      utilityGetTLVLLFromLen ctx.keypairName.bytes.length := by
  have hpubkey := ctx.pubkeyContent.2
  have hkey : ctx.pubkeyContent.1 ≠ [] := by
    intro hnil
    rw [hnil] at hpubkey
    cases hpubkey
  have hone : utilityGetTLVLLFromLen 1 = 1 := rfl
  have hfour : utilityGetTLVLLFromLen 4 = 1 := rfl
  have hpub : utilityGetTLVLLFromLen 64 = 1 := rfl
  simp only [addedValues, List.length_append]
  rw [length_addL hnamed, length_addL hkey, length_addL (by simp),
    length_addL (by simp [enumBytes]), length_addL (by simp [enumBytes]),
    hpubkey, length_enumBytes, length_enumBytes, List.length_singleton, hone,
    hfour, hpub]
  omega

theorem length_addL_addedValues (hnamed : ctx.keypairName.bytes ≠ []) :
    (addLWithOffset (addedValues ctx)).length =
      (addedValues ctx).length +
        utilityGetTLVLLFromLen (addedValues ctx).length := by
  have hvalues := length_addedValues hnamed
  have hne : addedValues ctx ≠ [] := by
    intro hnil
    rw [hnil, List.length_nil] at hvalues
    omega
  rw [length_addL hne, Nat.add_comm]

/-- The length is computed right, where it does not wrap. -/
theorem getDataCtxLen_eq (hnamed : ctx.keypairName.bytes ≠ [])
    (hwidth : ctx.keypairName.bytes.length + 83 < 2 ^ 32) :
    boatKeypairGetDataCtxLen ctx =
      (addLWithOffset (addedValues ctx)).length := by
  have hvalues := length_addedValues hnamed
  have hname := utilityGetTLVLLFromLen_le ctx.keypairName.bytes.length
  have hall := utilityGetTLVLLFromLen_le (addedValues ctx).length
  have hone : utilityGetTLVLLFromLen 1 = 1 := rfl
  have hfour : utilityGetTLVLLFromLen 4 = 1 := rfl
  have hpub : utilityGetTLVLLFromLen 64 = 1 := rfl
  have hsum : buint32 (1 + utilityGetTLVLLFromLen 1 +
      (buint32 ctx.keypairName.bytes.length + utilityGetTLVLLFromLen
        (buint32 ctx.keypairName.bytes.length)) +
      (4 + utilityGetTLVLLFromLen 4) + (4 + utilityGetTLVLLFromLen 4) +
      (64 + utilityGetTLVLLFromLen 64)) = (addedValues ctx).length := by
    have hfits : ctx.keypairName.bytes.length < 2 ^ 32 := by omega
    rw [buint32_of_lt hfits, hone, hfour, hpub, buint32_of_lt (by omega)]
    omega
  unfold boatKeypairGetDataCtxLen
  simp only [hsum]
  rw [length_addL_addedValues hnamed, buint32_of_lt (by omega)]

theorem addL_keypair (hnamed : ctx.keypairName.bytes ≠ [])
    (hlen : ctx.record.length < 0x10000) :
    addLWithOffset (addedValues ctx) = ctx.record := by
  have hpubkey := ctx.pubkeyContent.2
  have hkey : ctx.pubkeyContent.1 ≠ [] := by
    intro hnil
    rw [hnil] at hpubkey
    cases hpubkey
  have hname := ctx.length_record.1
  have hpayload := ctx.length_record_eq
  have hvalues : addedValues ctx = ctx.payload := by
    rw [addedValues, addLWithOffset_eq_encode hnamed (by omega),
      addLWithOffset_eq_encode hkey (by omega),
      addLWithOffset_eq_encode (by simp) (by simp),
      addLWithOffset_eq_encode (by simp [enumBytes]) (by simp [enumBytes]),
      addLWithOffset_eq_encode (by simp [enumBytes]) (by simp [enumBytes])]
    rfl
  have hne : ctx.payload ≠ [] := by simp [BoatKeypairPriKeyCtx.payload]
  rw [hvalues, addLWithOffset_eq_encode hne (by omega),
    BoatKeypairPriKeyCtx.record_eq]

/-- The bytes of a record, as they are put together. -/
theorem getDataCtxData_eq (ctx : BoatKeypairPriKeyCtx) (size : Nat) :
    boatKeypairGetDataCtxData ctx size =
      if size < (addLWithOffset (addedValues ctx)).length then .error .undefined
      else if 2 ^ 31 ≤ (addLWithOffset (addedValues ctx)).length then
        boatThrow boatError
      else .ok (addLWithOffset (addedValues ctx)) :=
  rfl

theorem getDataCtxData_ok (hnamed : ctx.keypairName.bytes ≠ [])
    (hlen : ctx.record.length < 0x10000) :
    boatKeypairGetDataCtxData ctx (boatKeypairGetDataCtxLen ctx) =
      .ok ctx.record := by
  have hname := ctx.length_record.1
  have hsize := getDataCtxLen_eq hnamed (by omega)
  have hdata := addL_keypair hnamed hlen
  rw [getDataCtxData_eq, hsize, hdata, if_neg (Nat.lt_irrefl _),
    if_neg (by omega)]

/-- A record that is too long is refused, or is too long to be stored. -/
theorem getDataCtxData_long (hnamed : ctx.keypairName.bytes ≠ [])
    (hwidth : ctx.keypairName.bytes.length + 83 < 2 ^ 32)
    (hlong : 700 < ctx.keypairName.bytes.length) :
    boatKeypairGetDataCtxData ctx (boatKeypairGetDataCtxLen ctx) =
        boatThrow boatError ∨
      ∃ data, boatKeypairGetDataCtxData ctx (boatKeypairGetDataCtxLen ctx) =
        .ok data ∧ 717 < data.length ∧ data.length < 2 ^ 31 := by
  have hvalues := length_addedValues hnamed
  have hlen := length_addL_addedValues hnamed
  rw [getDataCtxData_eq, getDataCtxLen_eq hnamed hwidth,
    if_neg (Nat.lt_irrefl _)]
  by_cases hhuge : 2 ^ 31 ≤ (addLWithOffset (addedValues ctx)).length
  · exact Or.inl (if_pos hhuge)
  · exact Or.inr ⟨_, if_neg hhuge, by omega, by omega⟩

/-- A region of keypairs. -/
abbrev Device.HoldsKeypairs (d : Device) (storeType : BoatStoreType)
    (ctxs : List BoatKeypairPriKeyCtx) : Prop :=
  d.Region .keypair storeType (ctxs.map BoatKeypairPriKeyCtx.record)

theorem Device.Region.keypairBody (hheld : d.HoldsKeypairs storeType ctxs)
    (hne : ctxs ≠ []) :
    d.Holds .keypair storeType 4 (keypairBytes ctxs) :=
  hheld.body fun hnil => hne (List.map_eq_nil_iff.mp hnil)

section Append

variable
  (hbody : ctxs ≠ [] → d.Holds .keypair storeType 4 (keypairBytes ctxs))
  (hknown : storeType ≠ .unknown) (hnamed : AllNamed ctxs)
  (hname : ctx.keypairName.bytes ≠ [])

include hbody hknown hnamed hname

theorem appendKeypair_runs
    (hfits : 4 + (keypairBytes ctxs).length + ctx.record.length ≤
      BoatStoreFile.keypair.room storeType) :
    Runs Failure.Coded (fun t => t = d ∨
        t = d.put .keypair storeType (4 + (keypairBytes ctxs).length)
          ctx.record)
      (appendKeypair ctx storeType ctxs.length) d
      (ctxs.length * storeType.cost + 2 * storeType.cost) (.ok ())
      (d.appendRecord .keypair storeType
        (ctxs.map BoatKeypairPriKeyCtx.record) ctx.record) := by
  have hroom := keypairRoom_lt storeType
  have hskip := skipKeypairs_runs hbody hknown hnamed
  have hdata := getDataCtxData_ok hname (by omega)
  have hne : ctx.record ≠ [] := LengthValue.encode_ne_nil _
  have hwrite := writeRecord_runs (d := d) hknown hne hfits
  rw [List.length_map] at hwrite
  refine (hskip.mono fun t ht => Or.inl ht).bind ?_
  exact ofOutcome_bind hdata hwrite

/-- A record without room is an error, and nothing is written. -/
theorem appendKeypair_refused
    (hwidth : ctx.keypairName.bytes.length + 83 < 2 ^ 32)
    (hlong : 717 < 4 + (keypairBytes ctxs).length + ctx.record.length)
    (hsmall : (keypairBytes ctxs).length < 1000) :
    ∃ code, Reads (appendKeypair ctx storeType ctxs.length) d
      (ctxs.length * storeType.cost) (.error (.code code)) := by
  have hskip := skipKeypairs_runs hbody hknown hnamed
  have hrefused {data : List UInt8}
      (hdata : 717 < 4 + (keypairBytes ctxs).length + data.length)
      (hwide : data.length < 2 ^ 31) :
      Reads (writeRecord .keypair (4 + (keypairBytes ctxs).length) data
        ctxs.length storeType) d 0
          (.error (.code boatErrorCommonOutOfMemory)) :=
    (store_runs_too_long hdata (by omega)).bind_error
  by_cases hshort : ctx.keypairName.bytes.length ≤ 700
  · have hrecord := ctx.length_record
    have hdata := getDataCtxData_ok hname (by omega)
    exact ⟨_, (hskip.bind (ofOutcome_bind hdata
      (hrefused hlong (by omega)))).cast (Nat.add_zero _)⟩
  · rcases getDataCtxData_long hname hwidth (by omega) with herror |
      ⟨data, hdata, hmore, hwide⟩
    · exact ⟨_, (hskip.bind (ofOutcome_error herror)).cast (Nat.add_zero _)⟩
    · exact ⟨_, (hskip.bind (ofOutcome_bind hdata
        (hrefused (by omega) hwide))).cast (Nat.add_zero _)⟩

end Append

/-- The keypair of an index is got as it was stored. -/
theorem getKeypairByIndex_found
    (hheld : d.HoldsKeypairs .flash (front ++ ctx :: back))
    (hnamed : AllNamed (front ++ ctx :: back))
    (habsent : ∀ other ∈ front, other.keypairIndex ≠ ctx.keypairIndex)
    (hcount : (front ++ ctx :: back).length < 0x100)
    (hindex : ctx.keypairIndex ≠ 0) (hmax : ctx.keypairIndex.toNat ≤ 5) :
    Reads (boatKeypairGetKeypairByIndex ctx.keypairIndex) d
      (2 * front.length + 12) (.ok ctx) := by
  have hmaxNum : ¬boatMaxKeypairNum < ctx.keypairIndex.toNat :=
    Nat.not_lt.mpr hmax
  have hholds := hheld.holds (by simp)
  have hread := readCount_held _ hholds (by decide)
  rw [List.length_map] at hread
  have hscan := readKeypairAt_found (hheld.keypairBody (by simp)) (by decide)
    hnamed habsent
  have hne : (front ++ ctx :: back).length ≠ 0 := by simp
  have hcost : BoatStoreType.flash.cost = 1 := rfl
  rw [hcost] at hread hscan
  unfold boatKeypairGetKeypairByIndex
  refine Runs.pass hmaxNum ?_
  rw [if_neg hindex]
  refine Runs.cast (a := 1 + (front.length * (2 * 1) + (10 * 1 + 1))) ?_
    (by omega)
  refine (withCode_runs hread).bind ?_
  simp only [utilityCheckNumBytes_get hcount]
  rw [if_neg hne]
  exact hscan

section Delete

/-- The operations of taking the records behind a keypair over it. -/
def moveKeypairsOps (back : List BoatKeypairPriKeyCtx) : Nat :=
  if back = [] then 1 else back.length + 3

/-- The operations of a delete up to its private key. -/
def deleteKeypairOps (front back : List BoatKeypairPriKeyCtx) : Nat :=
  1 + (3 * (front.length + 1) +
    (2 * front.length + 12 + (1 + moveKeypairsOps back)))

/-- The device without the keypair. -/
def Device.withoutKeypair (d : Device)
    (front back : List BoatKeypairPriKeyCtx) : Device :=
  (d.lowerCount .keypair (front.map BoatKeypairPriKeyCtx.record)
    (back.map BoatKeypairPriKeyCtx.record)).closeGap .keypair
      (4 + (keypairBytes front).length) (back.map BoatKeypairPriKeyCtx.record)

/-- The device after the count was lowered and written back. -/
def Device.recounted (d : Device) (front : List BoatKeypairPriKeyCtx)
    (ctx : BoatKeypairPriKeyCtx) (back : List BoatKeypairPriKeyCtx) : Device :=
  (d.lowerCount .keypair (front.map BoatKeypairPriKeyCtx.record)
    (back.map BoatKeypairPriKeyCtx.record)).put .keypair .flash 0
      (utilityGetNumBytes (front ++ ctx :: back).length)

variable (hheld : d.HoldsKeypairs .flash (front ++ ctx :: back))

theorem lowerKeypairCount :
    Runs Failure.Coded (· = d)
      (boatStoreSoftRotNvram .keypair 0
        (utilityGetNumBytes ((front ++ ctx :: back).length - 1)) .flash) d 1
      (.ok ()) (d.lowerCount .keypair (front.map BoatKeypairPriKeyCtx.record)
        (back.map BoatKeypairPriKeyCtx.record)) := by
  have hlen : (front ++ ctx :: back).length - 1 =
      (front.map BoatKeypairPriKeyCtx.record ++
        back.map BoatKeypairPriKeyCtx.record).length := by
    simp only [List.length_append, List.length_cons, List.length_map]
    omega
  rw [hlen]
  exact store_runs _ _ (by decide) (by simp [utilityGetNumBytes])
    (BoatStoreFile.four_le_room .keypair .flash)

include hheld

theorem withoutKeypair_region :
    (d.withoutKeypair front back).HoldsKeypairs .flash (front ++ back) := by
  have hthree : 3 ≤ ctx.record.length := by
    have hlen := ctx.length_record
    omega
  rw [Device.HoldsKeypairs, List.map_append, List.map_cons] at hheld
  rw [Device.HoldsKeypairs, List.map_append]
  exact hheld.closeGap hthree

theorem recounted_region :
    (d.recounted front ctx back).HoldsKeypairs .flash
      (front ++ ctx :: back) := by
  have hlen : (front ++ ctx :: back).length =
      (front.map BoatKeypairPriKeyCtx.record ++
        ctx.record :: back.map BoatKeypairPriKeyCtx.record).length := by
    simp
  rw [Device.HoldsKeypairs, List.map_append, List.map_cons] at hheld ⊢
  rw [Device.recounted, hlen]
  exact hheld.restoreCount

/-- Behind the lower count the keypair is taken out; a fault brings the count
back. -/
theorem removeKeypair_runs (hnamed : AllNamed back) :
    Runs Failure.Coded (· = d.recounted front ctx back)
      (removeKeypair (front ++ ctx :: back).length
        ⟨back.length, 4 + (keypairBytes front).length,
          4 + (keypairBytes front).length + ctx.record.length⟩)
      (d.lowerCount .keypair (front.map BoatKeypairPriKeyCtx.record)
        (back.map BoatKeypairPriKeyCtx.record)) (moveKeypairsOps back) (.ok ())
      (d.withoutKeypair front back) := by
  have hthree : 3 ≤ ctx.record.length := by
    have hlen := ctx.length_record
    omega
  rw [Device.HoldsKeypairs, List.map_append, List.map_cons] at hheld
  have hbody := hheld.lowerCount_body
  have hfits := gap_fits hbody hthree
  have hbehind := (holds_append.mp (holds_append.mp hbody).2).2
  have hseek : back.map BoatKeypairPriKeyCtx.record ≠ [] →
      Reads (keypairsBehind ⟨back.length, 4 + (keypairBytes front).length,
          4 + (keypairBytes front).length + ctx.record.length⟩)
        (d.lowerCount .keypair (front.map BoatKeypairPriKeyCtx.record)
          (back.map BoatKeypairPriKeyCtx.record)) back.length
        (.ok (4 + (keypairBytes front).length + ctx.record.length,
          (back.map BoatKeypairPriKeyCtx.record).flatten.length)) ∧
      (d.lowerCount .keypair (front.map BoatKeypairPriKeyCtx.record)
          (back.map BoatKeypairPriKeyCtx.record)).Holds .keypair .flash
        (4 + (keypairBytes front).length + ctx.record.length)
        (back.map BoatKeypairPriKeyCtx.record).flatten ∧
      (back.map BoatKeypairPriKeyCtx.record).flatten ≠ [] := by
    intro hne
    refine ⟨(keypairsLength_runs hbehind hnamed).map rfl, hbehind, ?_⟩
    cases back with
    | nil => exact absurd rfl hne
    | cons head tail =>
        intro hnil
        have hlen := head.length_record
        have hflat := congrArg List.length hnil
        rw [List.length_nil] at hflat
        have hcons := length_keypairBytes_cons head tail
        rw [keypairBytes, hflat] at hcons
        omega
  have hremove := removeRecord_runs ⟨back.length,
    4 + (keypairBytes front).length,
      4 + (keypairBytes front).length + ctx.record.length⟩
    (List.length_map _).symm hseek hfits
  have hops : (if back.map BoatKeypairPriKeyCtx.record = [] then 1
      else back.length + 3) = moveKeypairsOps back := by
    unfold moveKeypairsOps
    simp only [List.map_eq_nil_iff]
  rw [hops] at hremove
  refine Runs.cast (a := moveKeypairsOps back + 0) ?_ rfl
  refine Runs.recover hremove Runs.pure ?_
  rintro e t ⟨code, rfl⟩ rfl
  have hcount := store_runs
    (d.lowerCount .keypair (front.map BoatKeypairPriKeyCtx.record)
      (back.map BoatKeypairPriKeyCtx.record))
    (utilityGetNumBytes (front ++ ctx :: back).length) (by decide)
    (by simp [utilityGetNumBytes]) (BoatStoreFile.four_le_room .keypair .flash)
  exact ⟨code, rfl, .code code, _, ⟨code, rfl⟩, rfl,
    run_bind_ok hcount.spared.run⟩

/-- Taking a keypair out of its store: a fault leaves the store as it was. -/
theorem deleteKeypairRecord_runs (hnamed : AllNamed (front ++ ctx :: back))
    (habsent : ∀ other ∈ front, other.keypairIndex ≠ ctx.keypairIndex)
    (hcount : (front ++ ctx :: back).length < 0x100)
    (hindex : ctx.keypairIndex ≠ 0) (hmax : ctx.keypairIndex.toNat ≤ 5) :
    Runs Failure.Coded (fun t => t = d ∨ t = d.recounted front ctx back)
      (deleteKeypairRecord ctx.keypairIndex) d (deleteKeypairOps front back)
      (.ok ctx) (d.withoutKeypair front back) := by
  have hread := readCount_held _ (hheld.holds (by simp)) (by decide)
  rw [List.length_map] at hread
  have hfind := findKeypair_found (hheld.keypairBody (by simp)) hnamed habsent
  have hget := getKeypairByIndex_found hheld hnamed habsent hcount hindex hmax
  have hback : AllNamed back := fun other hother =>
    hnamed other (List.mem_append_right front (List.mem_cons_of_mem ctx hother))
  have hremove := removeKeypair_runs hheld hback
  have hne : (front ++ ctx :: back).length ≠ 0 := by simp
  have hsame (t : Device) (ht : t = d) :
      t = d ∨ t = d.recounted front ctx back := Or.inl ht
  unfold deleteKeypairRecord deleteKeypairOps
  refine (hread.mono hsame).bind ?_
  simp only [utilityCheckNumBytes_get hcount]
  rw [if_neg hne]
  refine (hfind.mono hsame).bind ?_
  refine (hget.mono hsame).bind ?_
  refine (lowerKeypairCount.mono hsame).bind ?_
  exact (hremove.mono fun t ht => Or.inr ht).map rfl

end Delete

/-- Without a keypair of the index a delete reads only. -/
theorem deleteKeypairRecord_absent (hheld : d.HoldsKeypairs .flash ctxs)
    (hnamed : AllNamed ctxs) (habsent : ∀ ctx ∈ ctxs, ctx.keypairIndex ≠ index)
    (hcount : ctxs.length < 0x100) :
    ∃ ops code, Reads (deleteKeypairRecord index) d ops
      (.error (.code code)) := by
  have hread := readCount_runs d .keypair .flash (by decide)
  rcases hheld.look_count (by decide) with hlook | ⟨_, ⟨code, hlook⟩ |
    ⟨header, hlook, hcheck⟩⟩
  · rw [hlook, List.length_map] at hread
    by_cases hnil : ctxs = []
    · subst hnil
      exact ⟨1 + 0, boatErrorKeypairKeyInexistence, hread.bind Runs.throw⟩
    · have hne : ctxs.length ≠ 0 := fun hzero =>
        hnil (List.eq_nil_of_length_eq_zero hzero)
      have hfind := findKeypair_absent (fun h => hheld.keypairBody h) hnamed
        habsent
      refine ⟨1 + (3 * ctxs.length + 0), boatError, ?_⟩
      refine hread.bind ?_
      simp only [utilityCheckNumBytes_get hcount]
      rw [if_neg hne]
      exact hfind.bind Runs.throw
  · rw [hlook] at hread
    exact ⟨1, code, hread.bind_error⟩
  · rw [hlook] at hread
    refine ⟨1 + 0, boatErrorKeypairKeyInexistence, hread.bind ?_⟩
    simp only [hcheck]
    exact Runs.throw

end BoatFramework
