/-
The two readers of the keypairs: the list of them and the one of an index.  On
every device that clear calls leave, they walk the same records and give the
same keypairs.
-/
import BoatFramework.Base.Exec
import BoatFramework.Keypair.Consistent

namespace BoatFramework

open Fuse

variable {crypto : Crypto} {d : Device} {layout : KeyLayout}
  {storeType : BoatStoreType} {ctxs front back : List BoatKeypairPriKeyCtx}
  {ctx : BoatKeypairPriKeyCtx} {index : UInt8} {offset : Nat}

/-- The store that an index is looked up in. -/
def indexStore (index : UInt8) : BoatStoreType :=
  if index = 0 then .ram else .flash

theorem indexStore_ne (index : UInt8) : indexStore index ≠ .unknown := by
  rw [indexStore]
  split
  · exact fun h => by cases h
  · exact fun h => by cases h

/-- A scan for an index without a keypair reads all records. -/
theorem readKeypairAt_absent
    (hholds : ctxs ≠ [] →
      d.Holds .keypair storeType offset (keypairBytes ctxs))
    (hknown : storeType ≠ .unknown) (hnamed : AllNamed ctxs)
    (habsent : ∀ ctx ∈ ctxs, ctx.keypairIndex ≠ index) :
    Reads (readKeypairAt index storeType ctxs.length offset) d
      (ctxs.length * (2 * storeType.cost))
      (.error (.code boatErrorKeypairKeyInexistence)) := by
  induction ctxs generalizing offset with
  | nil => exact Runs.throw.cast (Nat.zero_mul _).symm
  | cons head tail ih =>
      have hreads := keypairReads (hholds (by simp)) hknown hnamed.head
      have hsmall := hreads.small
      have hrecord := head.length_record_eq
      obtain ⟨bytes, hlen, hbyte, hindex⟩ := hreads.indexBytes
      have hnext : advance (offset + head.headerLength) head.payload.length =
          offset + head.record.length := by
        rw [advance_of_lt (by omega), hrecord]
        omega
      have htail := ih (fun _ => hreads.tail) hnamed.tail fun ctx hctx =>
        habsent ctx (List.mem_cons_of_mem head hctx)
      rw [← hnext] at htail
      have hhead := habsent head List.mem_cons_self
      refine Runs.cast (a := storeType.cost + (storeType.cost +
        tail.length * (2 * storeType.cost))) ?_ (by
          rw [List.length_cons, Nat.succ_mul tail.length]
          omega)
      refine hreads.frame.bind ?_
      refine hindex.bind (Runs.pass (fun h => h hlen) ?_)
      rw [if_neg (by rw [hbyte]; exact hhead)]
      exact htail

/-- A lookup in a store with keypairs is a scan. -/
theorem getKeypairByIndex_scan {ops : Nat}
    {r : Except Failure BoatKeypairPriKeyCtx}
    (hheld : d.HoldsKeypairs (indexStore index) ctxs) (hne : ctxs ≠ [])
    (hcount : ctxs.length < 0x100) (hmax : index.toNat ≤ 5)
    (hscan : Reads (readKeypairAt index (indexStore index) ctxs.length 4) d ops
      r) :
    Reads (boatKeypairGetKeypairByIndex index) d
      ((indexStore index).cost + ops) r := by
  have hread := readCount_held _
    (hheld.holds fun hnil => hne (List.map_eq_nil_iff.mp hnil))
    (indexStore_ne index)
  rw [List.length_map] at hread
  have hsome : ctxs.length ≠ 0 := fun hzero =>
    hne (List.eq_nil_of_length_eq_zero hzero)
  unfold boatKeypairGetKeypairByIndex
  refine Runs.pass (Nat.not_lt.mpr hmax) ?_
  refine (withCode_runs hread).bind ?_
  simp only [utilityCheckNumBytes_get hcount]
  rw [if_neg hsome]
  exact hscan

/-- Nothing is found in a store without keypairs. -/
theorem getKeypairByIndex_empty
    (hheld : d.HoldsKeypairs (indexStore index) []) (hmax : index.toNat ≤ 5) :
    ∃ code, boatKeypairGetKeypairByIndex index ⟨d, none⟩ =
      .error (.code code) ⟨d, none⟩ := by
  have hpass : ¬boatMaxKeypairNum < index.toNat := Nat.not_lt.mpr hmax
  have hread := (readCount_runs d .keypair (indexStore index)
    (indexStore_ne index)).spared
  unfold boatKeypairGetKeypairByIndex
  rw [failIf, if_neg hpass]
  rcases hheld.look_count (indexStore_ne index) with hlook | ⟨_,
    ⟨code, hlook⟩ | ⟨header, hlook, hcheck⟩⟩
  · rw [hlook] at hread
    have hcount : Spared (withCode boatError (boatReadSoftRotNvram .keypair 0 4
        (indexStore index))) d _ (.ok (utilityGetNumBytes 0)) d :=
      (call_ok hread).map rfl
    refine ⟨boatErrorKeypairKeyInexistence, ?_⟩
    exact (run_bind_ok rfl).trans (run_bind_ok hcount.run)
  · rw [hlook] at hread
    have hcount : Spared (withCode boatError (boatReadSoftRotNvram .keypair 0 4
        (indexStore index))) d (_ + 0) (.error (.code boatError)) d :=
      (call_error hread).bind Spared.throw
    refine ⟨boatError, ?_⟩
    exact (run_bind_ok rfl).trans (run_bind_error hcount.run)
  · rw [hlook] at hread
    have hcount : Spared (withCode boatError (boatReadSoftRotNvram .keypair 0 4
        (indexStore index))) d _ (.ok header) d := (call_ok hread).map rfl
    refine ⟨boatErrorKeypairKeyInexistence, ?_⟩
    refine (run_bind_ok rfl).trans ((run_bind_ok hcount.run).trans ?_)
    simp only [hcheck]
    rfl

/-- What a lookup finds in a store. -/
theorem getKeypairByIndex_finds
    (hheld : d.HoldsKeypairs (indexStore index) ctxs) (hnamed : AllNamed ctxs)
    (hcount : ctxs.length < 0x100) (hmax : index.toNat ≤ 5)
    (hdistinct : (ctxs.map (·.keypairIndex)).Nodup) :
    (∀ ctx ∈ ctxs, ctx.keypairIndex = index →
      boatKeypairGetKeypairByIndex index ⟨d, none⟩ = .ok ctx ⟨d, none⟩) ∧
    ((∀ ctx ∈ ctxs, ctx.keypairIndex ≠ index) → ∃ code,
      boatKeypairGetKeypairByIndex index ⟨d, none⟩ =
        .error (.code code) ⟨d, none⟩) := by
  constructor
  · rintro ctx hmem rfl
    have hne : ctxs ≠ [] := List.ne_nil_of_mem hmem
    obtain ⟨front, back, rfl⟩ := List.append_of_mem hmem
    rw [List.map_append, List.map_cons] at hdistinct
    have habsent : ∀ other ∈ front, other.keypairIndex ≠ ctx.keypairIndex := by
      intro other hother heq
      have hapart := List.disjoint_of_nodup_append hdistinct
      apply hapart (List.mem_map.mpr ⟨other, hother, rfl⟩)
      rw [heq]
      exact List.mem_cons_self
    have hscan := readKeypairAt_found (hheld.keypairBody hne)
      (indexStore_ne ctx.keypairIndex) hnamed habsent
    exact (getKeypairByIndex_scan hheld hne hcount hmax hscan).spared.run
  · intro habsent
    by_cases hnil : ctxs = []
    · subst hnil
      exact getKeypairByIndex_empty hheld hmax
    · have hscan := readKeypairAt_absent (fun h => hheld.keypairBody h)
        (indexStore_ne index) hnamed habsent
      exact ⟨_, (getKeypairByIndex_scan hheld hnil hcount hmax hscan).spared.run⟩

/-- What the two readers owe to each other: the list is given, it has the
keypair that is got for an index and no other of it, and counts what is
stored. -/
structure ReadersAgree (d : Device) (list : BoatIotKeypairContext) : Prop where
  listed : boatKeypairGetKeypairList ⟨d, none⟩ = .ok list ⟨d, none⟩
  fetched : ∀ index ctx,
    (∃ t, boatKeypairGetKeypairByIndex index ⟨d, none⟩ = .ok ctx t) ↔
      ctx ∈ list.keypairs ∧ ctx.keypairIndex = index
  entries : list.keypairs.length = list.keypairNum ∧ list.broken = none
  counted : list.keypairPersistentNum = d.keypairs.length ∧
    list.keypairNum =
      d.keypairs.length + ((d.storedKeypairs .ram).getD []).length

theorem getKeypairByIndex_out (d : Device) (hmax : 5 < index.toNat) :
    boatKeypairGetKeypairByIndex index ⟨d, none⟩ =
      .error (.code boatErrorKeypairKeyIndexExceed) ⟨d, none⟩ := by
  unfold boatKeypairGetKeypairByIndex
  rw [failIf, if_pos (show boatMaxKeypairNum < index.toNat from hmax)]
  rfl

/-- The keypairs that a lookup of an index scans. -/
theorem indexStore_holds (hhas : d.Has layout) (index : UInt8) :
    d.HoldsKeypairs (indexStore index) (if index = 0 then
      layout.onetimeKeypairs else layout.keypairs) := by
  rw [indexStore]
  split
  · exact hhas.onetimeKeypairs
  · exact hhas.keypairs

/-- The entries of an index are in the store that it is looked up in. -/
theorem mem_listed_iff (htidy : layout.Tidy) :
    (ctx ∈ layout.keypairs ++ layout.onetimeKeypairs ∧
        ctx.keypairIndex = index) ↔
      ctx ∈ (if index = 0 then layout.onetimeKeypairs else layout.keypairs) ∧
        ctx.keypairIndex = index := by
  apply and_congr_left
  rintro rfl
  rw [List.mem_append]
  split
  next hzero =>
    refine or_iff_right fun hmem => ?_
    exact (mem_persistentIndices (htidy.inRange ctx hmem)).1 hzero
  next hzero =>
    exact or_iff_left fun hmem => hzero (htidy.onetimeIndex ctx hmem)

/-- No index stands twice in the keypairs that a lookup scans. -/
theorem indexStore_tidy (htidy : layout.Tidy) {ctxs}
    (hctxs : ctxs = if index = 0 then layout.onetimeKeypairs
      else layout.keypairs) :
    AllNamed ctxs ∧ ctxs.length < 0x100 ∧
      (ctxs.map (·.keypairIndex)).Nodup := by
  rw [hctxs]
  split
  · have hfew := htidy.onetimeFew
    refine ⟨htidy.onetimeNamed, by omega, ?_⟩
    cases hlist : layout.onetimeKeypairs with
    | nil => exact List.nodup_nil
    | cons head tail =>
        rw [hlist, List.length_cons] at hfew
        rw [List.eq_nil_of_length_eq_zero (by omega : tail.length = 0)]
        exact List.nodup_singleton _
  · have hfew := htidy.keypairsFew
    exact ⟨htidy.named, by omega, htidy.distinct⟩

section Agree

variable (hhas : d.Has layout) (htidy : layout.Tidy)

include hhas htidy

theorem getKeypairByIndex_iff (index : UInt8) (ctx : BoatKeypairPriKeyCtx) :
    (∃ t, boatKeypairGetKeypairByIndex index ⟨d, none⟩ = .ok ctx t) ↔
      ctx ∈ layout.keypairs ++ layout.onetimeKeypairs ∧
        ctx.keypairIndex = index := by
  rw [mem_listed_iff htidy]
  by_cases hmax : index.toNat ≤ 5
  · obtain ⟨ctxs, hctxs⟩ : ∃ ctxs, ctxs = if index = 0 then
      layout.onetimeKeypairs else layout.keypairs := ⟨_, rfl⟩
    have hheld := indexStore_holds hhas index
    obtain ⟨hnamed, hcount, hdistinct⟩ := indexStore_tidy htidy hctxs
    rw [← hctxs] at hheld ⊢
    obtain ⟨hfound, habsent⟩ :=
      getKeypairByIndex_finds hheld hnamed hcount hmax hdistinct
    constructor
    · rintro ⟨t, hrun⟩
      by_cases hany : ∃ other ∈ ctxs, other.keypairIndex = index
      · obtain ⟨other, hother, hindex⟩ := hany
        have hother' := hfound other hother hindex
        rw [hother'] at hrun
        obtain ⟨rfl, _⟩ := EStateM.Result.ok.inj hrun
        exact ⟨hother, hindex⟩
      · obtain ⟨code, herror⟩ := habsent fun other hother hindex =>
          hany ⟨other, hother, hindex⟩
        rw [herror] at hrun
        cases hrun
    · rintro ⟨hmem, hindex⟩
      exact ⟨_, hfound ctx hmem hindex⟩
  · rw [getKeypairByIndex_out d (Nat.lt_of_not_le hmax)]
    constructor
    · rintro ⟨_, hrun⟩
      cases hrun
    · rintro ⟨hmem, rfl⟩
      split at hmem
      next hzero =>
        rw [hzero] at hmax
        exact absurd (by decide) hmax
      next =>
        exact absurd (mem_persistentIndices (htidy.inRange ctx hmem)).2 hmax

end Agree

/-- On a reachable device the two readers agree. -/
theorem keypairReaders_agree (hreach : Reachable crypto d) :
    ∃ list, ReadersAgree d list := by
  obtain ⟨layout, hhas, htidy⟩ := hreach.tidy
  have hfew := htidy.keypairsFew
  have honetime := htidy.onetimeFew
  have hnum : (layout.keypairs.length + layout.onetimeKeypairs.length) %
      2 ^ 8 = layout.keypairs.length + layout.onetimeKeypairs.length := by
    omega
  refine ⟨_, (getKeypairList_spared hhas htidy).run,
    getKeypairByIndex_iff hhas htidy, ⟨?_, rfl⟩, ?_, ?_⟩
  · rw [List.length_append, hnum]
  · rw [hhas.keypairs_eq htidy]
  · rw [hhas.keypairs_eq htidy, (hhas.onetime_eq htidy).1]
    exact hnum

theorem keypairReaders_agree_one : ∃ list, ReadersAgree oneKeypairDevice list :=
  keypairReaders_agree oneKeypairDevice_reachable

/-- The device with a keypair and another one whose name is empty. -/
def emptyNameDevice : Device :=
  runCalls plainCrypto
    [.create noRandomness (some injectedKey) none .flash,
      .create noRandomness (some injectedKey) (some (.ofBuffer [])) .flash]
    blankDevice

/-- The keypair in front of an empty name is got for its index, but no list is
given. -/
theorem not_keypairReaders_agree :
    (∃ ctx t, boatKeypairGetKeypairByIndex 1 ⟨emptyNameDevice, none⟩ =
      .ok ctx t) ∧
    ¬∃ list, ReadersAgree emptyNameDevice list := by
  have hfetch : Exec.succeeds
      (boatKeypairGetKeypairByIndex 1 ⟨emptyNameDevice, none⟩) = true := by
    decide +kernel
  have hlist : Exec.succeeds
      (boatKeypairGetKeypairList ⟨emptyNameDevice, none⟩) = false := by
    decide +kernel
  constructor
  · obtain ⟨ctx, hrun⟩ := Exec.eq_ok_of_succeeds hfetch
    exact ⟨ctx, _, hrun⟩
  · rintro ⟨list, hagree⟩
    rw [hagree.listed] at hlist
    cases hlist

end BoatFramework
