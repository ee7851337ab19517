/-
Layouts in which every index has one keypair and one private key, and the index
that a new keypair gets: the first free one, as far as the list of keypairs
could be read.
-/
import BoatFramework.Keypair.Layout

namespace BoatFramework

open Fuse

/-- The keypairs of a region as they are read from its bytes. -/
def Device.storedKeypairs (d : Device) (storeType : BoatStoreType) :
    Option (List BoatKeypairPriKeyCtx) :=
  d.readRecords BoatKeypairPriKeyCtx.read .keypair storeType

def Device.storedPrikeys (d : Device) (storeType : BoatStoreType) :
    Option (List PrikeyRecord) :=
  d.readRecords PrikeyRecord.read .prikey storeType

/-- No index stands for two keypairs, and the private keys are those of the
keypairs. -/
structure KeyLayout.Tidy (layout : KeyLayout) : Prop where
  named : AllNamed layout.keypairs
  distinct : (layout.keypairs.map (·.keypairIndex)).Nodup
  inRange : ∀ ctx ∈ layout.keypairs, ctx.keypairIndex ∈ persistentIndices
  paired : (layout.prikeys.map (·.index)).Perm
    (layout.keypairs.map (·.keypairIndex))
  onetimeNamed : AllNamed layout.onetimeKeypairs
  onetimeFew : layout.onetimeKeypairs.length ≤ 1
  onetimeIndex : ∀ ctx ∈ layout.onetimeKeypairs, ctx.keypairIndex = 0
  onetimePrikeysFew : layout.onetimePrikeys.length ≤ 1

variable {d : Device} {layout : KeyLayout} {storeType : BoatStoreType}
  {ctxs : List BoatKeypairPriKeyCtx} {indices zeros : List UInt8}
  {ctx : BoatKeypairPriKeyCtx} {index : UInt8}

theorem length_record_le (hmem : ctx ∈ ctxs) :
    ctx.record.length ≤ (keypairBytes ctxs).length := by
  induction ctxs with
  | nil => cases hmem
  | cons head tail ih =>
      rw [length_keypairBytes_cons]
      rcases List.mem_cons.mp hmem with rfl | htail
      · exact Nat.le_add_right _ _
      · exact Nat.le_trans (ih htail) (Nat.le_add_left _ _)

theorem Device.Region.storedKeypairs
    (hheld : d.HoldsKeypairs storeType ctxs) (hcount : ctxs.length < 0x100) :
    d.storedKeypairs storeType = some ctxs := by
  have hroom := keypairRoom_lt storeType
  have hlength := hheld.length_le
  refine hheld.readRecords_eq hcount fun ctx hctx rest => ?_
  have hrecord := length_record_le hctx
  rw [keypairBytes] at hrecord
  exact BoatKeypairPriKeyCtx.read_record (by omega) rest

theorem Device.Region.storedPrikeys {prikeys : List PrikeyRecord}
    (hheld : d.HoldsPrikeys storeType prikeys)
    (hcount : prikeys.length < 0x100) :
    d.storedPrikeys storeType = some prikeys :=
  hheld.readRecords_eq hcount fun prikey _ rest => prikey.read_record rest

theorem KeyLayout.Tidy.keypairsFew (htidy : layout.Tidy) :
    layout.keypairs.length ≤ 5 := by
  have hsubset : layout.keypairs.map (·.keypairIndex) ⊆ persistentIndices := by
    intro index hindex
    obtain ⟨ctx, hctx, rfl⟩ := List.mem_map.mp hindex
    exact htidy.inRange ctx hctx
  have hlength := (htidy.distinct.subperm hsubset).length_le
  rw [List.length_map] at hlength
  exact hlength

theorem KeyLayout.Tidy.prikeysLength (htidy : layout.Tidy) :
    layout.prikeys.length = layout.keypairs.length := by
  have hlength := htidy.paired.length_eq
  rwa [List.length_map, List.length_map] at hlength

theorem KeyLayout.Tidy.prikeysDistinct (htidy : layout.Tidy) :
    (layout.prikeys.map (·.index)).Nodup :=
  htidy.paired.nodup_iff.mpr htidy.distinct

/-- The index 0 of the onetime keypair is none that is searched. -/
theorem firstFree_append_zeros (hzeros : ∀ index ∈ zeros, index = 0) :
    firstFree (indices ++ zeros) = firstFree indices := by
  refine List.find?_congr fun index hindex => ?_
  have hne : index ∉ zeros := by
    intro hmem
    rw [hzeros index hmem] at hindex
    exact absurd hindex (by decide)
  simp [hne]

/-- The indices that are known where a fault hits the list of keypairs. -/
def knownIndices (indices : List UInt8) : Option Nat → List UInt8
  | none => indices
  | some k => indices.take ((k + 7) / 11)

/-- The operations of reading the list of keypairs. -/
def listOps (num : Nat) : Nat :=
  1 + 11 * num

variable (indices) in
theorem knownIndices_spared {fuse : Option Nat}
    (hspares : Spares fuse (listOps indices.length)) :
    knownIndices indices fuse = indices := by
  cases fuse with
  | none => rfl
  | some k =>
      rw [spares_some, listOps] at hspares
      exact List.take_of_length_le (by omega)

theorem knownIndices_length (indices : List UInt8) (fuse : Option Nat) :
    (knownIndices indices fuse).length ≤ indices.length := by
  cases fuse with
  | none => exact Nat.le_refl _
  | some k => exact List.length_take_le' _ _

/-- The list of keypairs as a call sees it under a fuse. -/
structure Listed (layout : KeyLayout) (fuse : Option Nat)
    (list : BoatIotKeypairContext) : Prop where
  free : firstFree list.indices =
    firstFree (knownIndices (layout.keypairs.map (·.keypairIndex)) fuse)
  num : list.keypairPersistentNum = layout.keypairs.length ∨
    list.keypairPersistentNum = 0 ∧ fuse = some 0

/-- What is left of a fuse after a number of operations. -/
def leftover (fuse : Option Nat) (ops : Nat) : Option Nat :=
  match fuse with
  | none => none
  | some k => if k < ops then none else some (k - ops)

theorem leftover_spared {fuse : Option Nat} {ops : Nat}
    (hspares : Spares fuse ops) : leftover fuse ops = spend fuse ops := by
  cases fuse with
  | none => rfl
  | some k =>
      rw [spares_some] at hspares
      exact if_neg (Nat.not_lt.mpr hspares)

theorem eq_some_of_leftover {fuse : Option Nat} {ops k : Nat}
    (hleft : leftover fuse ops = some k) : fuse = some (ops + k) := by
  cases fuse with
  | none => cases hleft
  | some j =>
      unfold leftover at hleft
      simp only at hleft
      split at hleft
      next => cases hleft
      next hge =>
        obtain rfl := Option.some.inj hleft
        rw [Nat.add_sub_cancel' (Nat.not_lt.mp hge)]

section List

variable (hhas : d.Has layout) (htidy : layout.Tidy)

include hhas htidy

/-- The onetime keypair is read without an operation. -/
theorem readOnetime_spared {slot : Nat} (hslot : slot ≤ 5) :
    Spared (readNumOrZero .keypair .ram) d 0
        (.ok layout.onetimeKeypairs.length) d ∧
      Spared (getKeypairs .ram layout.onetimeKeypairs.length slot 4) d 0
        (.ok ⟨layout.onetimeKeypairs, none, true⟩) d := by
  have hfew := htidy.onetimeFew
  have hnum := readNumOrZero_spared hhas.onetimeKeypairs (by decide) (by
    rw [List.length_map]
    omega)
  rw [List.length_map] at hnum
  refine ⟨hnum, ?_⟩
  exact (getKeypairs_spared slot (fun hne => hhas.onetimeKeypairs.keypairBody hne)
    (by decide) htidy.onetimeNamed (by omega)).cast (Nat.mul_zero _)

theorem getKeypairList_spared :
    Spared boatKeypairGetKeypairList d (listOps layout.keypairs.length)
      (.ok ⟨(layout.keypairs.length + layout.onetimeKeypairs.length) % 2 ^ 8,
        layout.keypairs.length, layout.keypairs ++ layout.onetimeKeypairs,
        none⟩) d := by
  have hfew := htidy.keypairsFew
  have hnum := readNumOrZero_spared hhas.keypairs (by decide) (by
    rw [List.length_map]
    omega)
  rw [List.length_map] at hnum
  have hread := getKeypairs_spared 0
    (fun hne => hhas.keypairs.keypairBody hne) (by decide) htidy.named
    (by omega)
  obtain ⟨hcount, honetime⟩ := readOnetime_spared hhas htidy hfew
  refine Spared.cast (a := 1 + (layout.keypairs.length * (11 * 1) +
    (0 + 0))) ?_ (by
      rw [listOps]
      omega)
  unfold boatKeypairGetKeypairList
  refine hnum.bind (hread.bind ?_)
  rw [if_neg (by simp)]
  exact hcount.bind (honetime.map rfl)

/-- Without a count of the keypairs only the onetime keypair is listed. -/
theorem getKeypairList_unread :
    boatKeypairGetKeypairList ⟨d, some 0⟩ =
      .ok ⟨layout.onetimeKeypairs.length % 2 ^ 8, 0, layout.onetimeKeypairs,
        none⟩ ⟨d, none⟩ := by
  obtain ⟨hcount, honetime⟩ := readOnetime_spared hhas htidy (Nat.zero_le 5)
  have hnothing : getKeypairs .flash 0 0 4 ⟨d, none⟩ =
      .ok ⟨[], none, true⟩ ⟨d, none⟩ := rfl
  unfold boatKeypairGetKeypairList
  rw [run_bind_ok (readNumOrZero_burnt d .keypair), run_bind_ok hnothing]
  rw [if_neg (by simp)]
  rw [run_bind_ok hcount.run]
  refine (run_bind_ok honetime.run).trans ?_
  rw [Nat.zero_add]
  rfl

/-- A list that breaks off counts all keypairs and knows some of them. -/
theorem getKeypairList_burnt {k : Nat}
    (hk : k < 11 * layout.keypairs.length) :
    ∃ list, boatKeypairGetKeypairList ⟨d, some (k + 1)⟩ =
        .ok list ⟨d, none⟩ ∧
      list.keypairPersistentNum = layout.keypairs.length ∧
      list.indices = (layout.keypairs.map (·.keypairIndex)).take
        ((k + 8) / 11) := by
  have hfew := htidy.keypairsFew
  have hne : layout.keypairs ≠ [] := by
    intro hnil
    rw [hnil] at hk
    exact absurd hk (Nat.not_lt_zero k)
  have hnum := readNumOrZero_spared hhas.keypairs (by decide) (by
    rw [List.length_map]
    omega) (some (k + 1)) (spares_some.mpr (Nat.le_add_left 1 k))
  rw [List.length_map] at hnum
  obtain ⟨read, hrun, hcomplete, hindices⟩ := getKeypairs_burnt 0
    (hhas.keypairs.keypairBody hne) htidy.named (by omega) hk
  refine ⟨⟨layout.keypairs.length, layout.keypairs.length, read.keypairs,
    read.broken⟩, ?_, rfl, ?_⟩
  · unfold boatKeypairGetKeypairList
    rw [run_bind_ok hnum]
    refine (run_bind_ok hrun).trans ?_
    rw [if_pos hcomplete]
    rfl
  · change (read.keypairs.map (·.keypairIndex) ++ read.broken.toList).take
      layout.keypairs.length = _
    rw [hindices]
    refine List.take_of_length_le ?_
    refine Nat.le_trans (List.length_take_le' _ _) ?_
    exact Nat.le_of_eq (List.length_map _)

theorem getKeypairList_ends (fuse : Option Nat) :
    Ends boatKeypairGetKeypairList ⟨d, fuse⟩ fun r t =>
      ∃ list, r = .ok list ∧
        t = ⟨d, leftover fuse (listOps layout.keypairs.length)⟩ ∧
        Listed layout fuse list := by
  by_cases hspares : Spares fuse (listOps layout.keypairs.length)
  · refine ⟨_, _, getKeypairList_spared hhas htidy fuse hspares, _, rfl, ?_,
      ⟨?_, Or.inl rfl⟩⟩
    · rw [leftover_spared hspares]
    · have hfew := htidy.keypairsFew
      have honetime := htidy.onetimeFew
      have hknown := knownIndices_spared
        (layout.keypairs.map (·.keypairIndex)) (by rwa [List.length_map])
      have hall : ((layout.keypairs ++ layout.onetimeKeypairs).map
          (·.keypairIndex)).length ≤
            (layout.keypairs.length + layout.onetimeKeypairs.length) % 2 ^ 8 := by
        rw [List.length_map, List.length_append]
        omega
      rw [hknown, BoatIotKeypairContext.indices, Option.toList_none,
        List.append_nil, List.take_of_length_le hall, List.map_append]
      refine firstFree_append_zeros fun index hindex => ?_
      obtain ⟨ctx, hctx, rfl⟩ := List.mem_map.mp hindex
      exact htidy.onetimeIndex ctx hctx
  · match fuse with
    | none => exact absurd (spares_none _) hspares
    | some 0 =>
        refine ⟨.ok _, _, getKeypairList_unread hhas htidy, _, rfl, ?_, ⟨?_,
          Or.inr ⟨rfl, rfl⟩⟩⟩
        · have hlt : 0 < listOps layout.keypairs.length := by
            rw [listOps]
            omega
          rw [leftover, if_pos hlt]
        · have hzeros : ∀ index ∈ (layout.onetimeKeypairs.map
              (·.keypairIndex)), index = 0 := by
            intro index hindex
            obtain ⟨ctx, hctx, rfl⟩ := List.mem_map.mp hindex
            exact htidy.onetimeIndex ctx hctx
          have honly : firstFree ([] ++ (layout.onetimeKeypairs.map
              (·.keypairIndex)).take (layout.onetimeKeypairs.length % 2 ^ 8)) =
                firstFree [] :=
            firstFree_append_zeros fun index hindex =>
              hzeros index (List.mem_of_mem_take hindex)
          rw [BoatIotKeypairContext.indices, Option.toList_none,
            List.append_nil]
          exact honly
    | some (k + 1) =>
        rw [spares_some, listOps] at hspares
        have hk : k < 11 * layout.keypairs.length := by omega
        obtain ⟨list, hrun, hnum, hindices⟩ :=
          getKeypairList_burnt hhas htidy hk
        refine ⟨.ok list, _, hrun, list, rfl, ?_, ⟨?_, Or.inl hnum⟩⟩
        · have hlt : k + 1 < listOps layout.keypairs.length := by
            rw [listOps]
            omega
          rw [leftover, if_pos hlt]
        · rw [hindices]
          rfl

/-- The index of a new keypair is free among those that are known. -/
theorem freeIndex_ends (fuse : Option Nat) :
    Ends boatKeypairGetFreeIndexFromPersistent ⟨d, fuse⟩ fun r t =>
      t = ⟨d, leftover fuse (listOps layout.keypairs.length)⟩ ∧
        ((∃ index, r = .ok index ∧
            firstFree (knownIndices (layout.keypairs.map (·.keypairIndex))
              fuse) = some index ∧
            (layout.keypairs.length = 5 → fuse = some 0)) ∨
          layout.keypairs.length = 5 ∧ ∃ code, r = .error (.code code)) := by
  unfold boatKeypairGetFreeIndexFromPersistent
  refine (getKeypairList_ends hhas htidy fuse).bind ?_ ?_
  · rintro list _ ⟨_, heq, rfl, hlisted⟩
    obtain rfl := Except.ok.inj heq
    by_cases hfull : list.keypairPersistentNum = boatMaxKeypairNum
    · have hnum : layout.keypairs.length = 5 := by
        rcases hlisted.num with hnum | ⟨hzero, _⟩
        · exact hnum.symm.trans hfull
        · rw [hzero] at hfull
          cases hfull
      rw [failIf, if_pos hfull]
      exact ⟨_, _, rfl, rfl, Or.inr ⟨hnum, _, rfl⟩⟩
    · have hroom : layout.keypairs.length = 5 → fuse = some 0 := by
        intro hfive
        rcases hlisted.num with hnum | ⟨_, hfuse⟩
        · exact absurd (hnum.trans hfive) hfull
        · exact hfuse
      have hknown : ∃ index, firstFree list.indices = some index := by
        rw [hlisted.free]
        rcases Nat.lt_or_ge layout.keypairs.length 5 with hlt | hge
        · refine firstFree_of_few (Nat.lt_of_le_of_lt
            (knownIndices_length _ _) ?_)
          rwa [List.length_map]
        · have hfew := htidy.keypairsFew
          rw [hroom (by omega)]
          exact firstFree_of_few (Nat.succ_pos 4)
      obtain ⟨index, hfree⟩ := hknown
      rw [failIf, if_neg hfull]
      refine ⟨.ok index, _, ?_, rfl, Or.inl ⟨index, rfl, ?_, hroom⟩⟩
      · rw [hfree]
        rfl
      · rw [← hlisted.free]
        exact hfree
  · rintro _ _ ⟨list, heq, _⟩
    cases heq

end List

end BoatFramework
