/-
Deleting a keypair and its private key under any fuse: both are gone, or both
are there, unless a fault hits the private keys while they are moved.
-/
import BoatFramework.Keypair.StoreSteps

namespace BoatFramework

open Fuse

variable {d : Device} {layout : KeyLayout} {fuse : Option Nat}
  {t : Fused Device} {index : UInt8}

section Prikey

variable {prikey : PrikeyRecord} {front back : List PrikeyRecord}

theorem Device.Has.prikeysRecounted (hhas : d.Has layout)
    (hsplit : layout.prikeys = front ++ prikey :: back) :
    (d.prikeysRecounted front prikey back).Has layout := by
  have hheld := hhas.prikeys
  have hself : layout.setPrikeys .flash layout.prikeys = layout := rfl
  rw [hsplit] at hheld
  rw [← hself, hsplit]
  exact hhas.setPrikeys ((OnlyIn.putCount _).trans (OnlyIn.putCount _))
    (by decide) (prikeysRecounted_region hheld)

/-- How a delete of a private key ends: with it gone, or too early with an
error, or, for a fault while the others are moved, without a report. -/
inductive KeyDeleted (gone kept undone : KeyLayout)
    (front back : List PrikeyRecord) (fuse : Option Nat) :
    Except Failure Unit → Fused Device → Prop where
  | removed (t : Fused Device)
      (spares : Spares fuse (deletePrikeyOps front + movePrikeysOps back))
      (has : t.state.Has gone) :
      KeyDeleted gone kept undone front back fuse (.ok ()) t
  | swallowed (t : Fused Device) (k : Nat) (fault : fuse = some k)
      (first : deletePrikeyOps front ≤ k)
      (last : k < deletePrikeyOps front + movePrikeysOps back)
      (has : t.state.Has kept) :
      KeyDeleted gone kept undone front back fuse (.ok ()) t
  | failed (t : Device) (k : Nat) (code : BoatResult) (fault : fuse = some k)
      (early : k < deletePrikeyOps front) (has : t.Has undone) :
      KeyDeleted gone kept undone front back fuse (.error (.code code))
        ⟨t, none⟩

/-- What a delete of a private key does to the device. -/
theorem deletePirkey_cases {prikeys : List PrikeyRecord}
    (hheld : d.HoldsPrikeys .flash prikeys)
    (hsplit : Split PrikeyRecord.index index prikeys front prikey back)
    (hcount : prikeys.length < 0x100) (hindex : index ≠ 0)
    (hmax : index.toNat ≤ 5) (fuse : Option Nat) :
    Ends (boatDeletePirkeyByIndex index) ⟨d, fuse⟩ fun r t =>
      (Spares fuse (deletePrikeyOps front + movePrikeysOps back) ∧
          r = .ok () ∧ t.state = d.withoutPrikey front back) ∨
        (∃ k, fuse = some k ∧ deletePrikeyOps front ≤ k ∧
          k < deletePrikeyOps front + movePrikeysOps back ∧
            r = .ok () ∧ t = ⟨d.prikeysRecounted front prikey back, none⟩) ∨
        ∃ k code, fuse = some k ∧ k < deletePrikeyOps front ∧
          r = .error (.code code) ∧ t = ⟨d, none⟩ := by
  obtain ⟨rfl, rfl, hbefore, _⟩ := hsplit
  by_cases hspares : Spares fuse (deletePrikeyOps front + movePrikeysOps back)
  · exact ⟨_, _, deletePirkey_spared hheld hbefore hcount hindex hmax fuse
      hspares, Or.inl ⟨hspares, rfl, rfl⟩⟩
  · cases fuse with
    | none => exact absurd (spares_none _) hspares
    | some k =>
        rw [spares_some, Nat.not_le] at hspares
        by_cases hearly : k < deletePrikeyOps front
        · obtain ⟨e, t, ⟨code, rfl⟩, rfl, hrun⟩ := deletePirkey_burnt hheld
            hbefore hcount hindex hmax k hearly
          exact Ends.of_error hrun
            (Or.inr (Or.inr ⟨k, code, rfl, hearly, rfl, rfl⟩))
        · rw [Nat.not_lt] at hearly
          have hrun := deletePirkey_swallowed hheld hbefore hcount hindex hmax
            (k := k - deletePrikeyOps front) (by omega)
          rw [Nat.add_sub_cancel' hearly] at hrun
          exact Ends.of_ok hrun
            (Or.inr (Or.inl ⟨k, rfl, hearly, hspares, rfl, rfl⟩))

theorem deletePirkey_ends (hhas : d.Has layout)
    (hsplit : Split PrikeyRecord.index index layout.prikeys front prikey back)
    (hcount : layout.prikeys.length < 0x100) (hindex : index ≠ 0)
    (hmax : index.toNat ≤ 5) (fuse : Option Nat) :
    Ends (boatDeletePirkeyByIndex index) ⟨d, fuse⟩
      (KeyDeleted (layout.setPrikeys .flash (front ++ back)) layout layout
        front back fuse) := by
  refine (deletePirkey_cases hhas.prikeys hsplit hcount hindex hmax fuse).mono
    ?_
  rintro r t (⟨hspares, rfl, ht⟩ | ⟨k, hfuse, hfirst, hlast, rfl, ht⟩ |
    ⟨k, code, hfuse, hearly, rfl, rfl⟩)
  · refine .removed t hspares ?_
    rw [ht]
    exact hhas.withoutPrikey hsplit.eq
  · refine .swallowed t k hfuse hfirst hlast ?_
    rw [ht]
    exact hhas.prikeysRecounted hsplit.eq
  · exact .failed d k code hfuse hearly hhas

end Prikey

/-- The keypair is out of its store; where its private key is not deleted it
comes back behind the others. -/
theorem deletePrikeyOrRestore_ends {ctx : BoatKeypairPriKeyCtx}
    {prikey : PrikeyRecord} {front back : List PrikeyRecord}
    (hhas : d.Has layout)
    (hsplit : Split PrikeyRecord.index ctx.keypairIndex layout.prikeys front
      prikey back) (hcount : layout.prikeys.length < 0x100)
    (hindex : ctx.keypairIndex ≠ 0) (hmax : ctx.keypairIndex.toNat ≤ 5)
    (hnamed : AllNamed layout.keypairs) (hroom : layout.keypairs.length < 5)
    (hname : ctx.keypairName.bytes ≠ []) (hfits : layout.Fits ctx)
    (fuse : Option Nat) :
    Ends (deletePrikeyOrRestore ctx.keypairIndex ctx) ⟨d, fuse⟩
      (KeyDeleted (layout.setPrikeys .flash (front ++ back)) layout
        (layout.setKeypairs .flash (layout.keypairs ++ [ctx])) front back
          fuse) := by
  have hwidth := ctx.length_record
  rw [KeyLayout.Fits] at hfits
  unfold deletePrikeyOrRestore
  refine call_ends (deletePirkey_ends hhas hsplit hcount hindex hmax fuse)
    ?_ ?_ ?_
  · intro _ t hlast
    cases hlast with
    | removed _ hspares hgone =>
        exact Ends.pure (.removed t hspares hgone)
    | swallowed _ k hfault hfirst hlast hkept =>
        exact Ends.pure (.swallowed t k hfault hfirst hlast hkept)
  · intro code t hlast
    cases hlast with
    | failed t k _ hfault hearly hundone =>
        refine call_ends (dataCtxStore_ends hundone hnamed hname (by omega)
          (by omega) none) ?_ ?_ ?_
        · intro _ t hstored
          cases hstored with
          | appended t _ _ _ hkept =>
              exact Ends.throw (.failed t k boatError hfault hearly hkept.has)
          | replaced _ hunread => cases hunread
        · intro _ t hstored
          cases hstored with
          | failed t _ _ hwhy => exact absurd rfl (hwhy hroom hfits)
        · intro t hstored
          cases hstored
  · intro t hlast
    cases hlast

/-- The operations of a delete up to where the private keys behind the deleted
one are moved. -/
def beforeMoveOps (keypairs : List BoatKeypairPriKeyCtx)
    (prikeys : List PrikeyRecord) (index : UInt8) : Nat :=
  let place := keypairs.findIdx fun ctx => decide (ctx.keypairIndex = index)
  let keyPlace := prikeys.findIdx fun prikey => decide (prikey.index = index)
  deleteKeypairOps (keypairs.take place) (keypairs.drop (place + 1)) +
    deletePrikeyOps (prikeys.take keyPlace)

def moveOps (prikeys : List PrikeyRecord) (index : UInt8) : Nat :=
  let keyPlace := prikeys.findIdx fun prikey => decide (prikey.index = index)
  movePrikeysOps (prikeys.drop (keyPlace + 1))

/-- The fault of a delete hits the private keys while they are moved. -/
def MoveFault (keypairs : List BoatKeypairPriKeyCtx)
    (prikeys : List PrikeyRecord) (index : UInt8) (fuse : Option Nat) : Prop :=
  index ∈ keypairs.map (·.keypairIndex) ∧
    ∃ k ∈ fuse, beforeMoveOps keypairs prikeys index ≤ k ∧
      k < beforeMoveOps keypairs prikeys index + moveOps prikeys index

/-- The layout without the persistent keypair of an index. -/
def KeyLayout.remove (layout : KeyLayout) (index : UInt8) : KeyLayout :=
  { layout with
    keypairs := layout.keypairs.filter fun ctx =>
      decide (ctx.keypairIndex ≠ index)
    prikeys := layout.prikeys.filter fun prikey =>
      decide (prikey.index ≠ index) }

/-- How `BoATIotKeypairDelete` ends. -/
inductive Deleted (layout : KeyLayout) (index : UInt8) (fuse : Option Nat) :
    Except Failure Unit → Fused Device → Prop where
  | done (t : Fused Device)
      (member : index ∈ layout.keypairs.map (·.keypairIndex))
      (moved : ¬MoveFault layout.keypairs layout.prikeys index fuse)
      (has : t.state.Has (layout.remove index)) :
      Deleted layout index fuse (.ok ()) t
  | swallowed (t : Fused Device)
      (fault : MoveFault layout.keypairs layout.prikeys index fuse)
      (has : t.state.Has { layout.remove index with
        prikeys := layout.prikeys }) :
      Deleted layout index fuse (.ok ()) t
  | onetime (t : Fused Device) (zero : index = 0)
      (has : t.state.Has { layout with onetimeKeypairs := [] }) :
      Deleted layout index fuse (.ok ()) t
  | undone (t : Fused Device) (code : BoatResult)
      (ctxs : List BoatKeypairPriKeyCtx) (perm : ctxs.Perm layout.keypairs)
      (moved : ¬MoveFault layout.keypairs layout.prikeys index fuse)
      (has : t.state.Has { layout with keypairs := ctxs }) :
      Deleted layout index fuse (.error (.code code)) t

theorem boatIotKeypairDelete_persistent (hindex : index ≠ 0)
    (hmax : index.toNat ≤ 5) :
    boatIotKeypairDelete index =
      deleteKeypairRecord index >>= deletePrikeyOrRestore index := by
  have hmaxNum : ¬boatMaxKeypairNum < index.toNat := Nat.not_lt.mpr hmax
  unfold boatIotKeypairDelete
  rw [failIf, if_neg hmaxNum, if_neg hindex]
  rfl

section Delete

variable {ctx : BoatKeypairPriKeyCtx} {front back : List BoatKeypairPriKeyCtx}
  {prikey : PrikeyRecord} {frontKeys backKeys : List PrikeyRecord}
  (hhas : d.Has layout) (htidy : layout.Tidy)
  (hsplit : Split BoatKeypairPriKeyCtx.keypairIndex index layout.keypairs front
    ctx back)
  (hkeySplit : Split PrikeyRecord.index index layout.prikeys frontKeys prikey
    backKeys)

include hsplit hkeySplit

variable (fuse) in
theorem moveFault_iff :
    MoveFault layout.keypairs layout.prikeys index fuse ↔
      ∃ k, fuse = some k ∧
        deleteKeypairOps front back + deletePrikeyOps frontKeys ≤ k ∧
        k < deleteKeypairOps front back + deletePrikeyOps frontKeys +
          movePrikeysOps backKeys := by
  have hmem : index ∈ layout.keypairs.map (·.keypairIndex) := by
    refine List.mem_map.mpr ⟨ctx, ?_, hsplit.here⟩
    rw [hsplit.eq]
    exact List.mem_append_right front List.mem_cons_self
  have hbefore : beforeMoveOps layout.keypairs layout.prikeys index =
      deleteKeypairOps front back + deletePrikeyOps frontKeys := by
    unfold beforeMoveOps
    simp only [hsplit.findIdx, hkeySplit.findIdx, hsplit.take_drop,
      hkeySplit.take_drop]
  have hmove : moveOps layout.prikeys index = movePrikeysOps backKeys := by
    unfold moveOps
    simp only [hkeySplit.findIdx, hkeySplit.take_drop]
  unfold MoveFault
  rw [hbefore, hmove]
  exact ⟨fun ⟨_, k, hk, hfirst, hlast⟩ => ⟨k, hk, hfirst, hlast⟩,
    fun ⟨k, hk, hfirst, hlast⟩ => ⟨hmem, k, hk, hfirst, hlast⟩⟩

theorem remove_eq :
    layout.remove index =
      (layout.setKeypairs .flash (front ++ back)).setPrikeys .flash
        (frontKeys ++ backKeys) := by
  rw [KeyLayout.remove, hsplit.filter, hkeySplit.filter]
  rfl

include hhas htidy

theorem deletePresent_ends (fuse : Option Nat) :
    Ends (boatIotKeypairDelete index) ⟨d, fuse⟩
      (Deleted layout index fuse) := by
  have hfault := moveFault_iff fuse hsplit hkeySplit
  have hremove := remove_eq hsplit hkeySplit
  have hfew := htidy.keypairsFew
  have hkeysFew := htidy.prikeysLength
  have hmember : ctx ∈ layout.keypairs := by
    rw [hsplit.eq]
    exact List.mem_append_right front List.mem_cons_self
  obtain ⟨heq, rfl, hbefore, _⟩ := hsplit
  obtain ⟨hindex, hmax⟩ := mem_persistentIndices (htidy.inRange ctx hmember)
  have hmem : ctx.keypairIndex ∈ layout.keypairs.map (·.keypairIndex) :=
    List.mem_map_of_mem hmember
  have hheld := hhas.keypairs
  have hnamed := htidy.named
  have hcount : (front ++ ctx :: back).length < 0x100 := by
    rw [← heq]
    omega
  have hrecounted := hhas.recounted heq
  have hwithout := hhas.withoutKeypair heq
  rw [heq] at hheld hnamed
  have hruns := deleteKeypairRecord_runs hheld hnamed hbefore hcount hindex hmax
  rw [boatIotKeypairDelete_persistent hindex hmax]
  refine (hruns.ends fuse).bind ?_ ?_
  · rintro v _ (⟨hspares, hok, rfl⟩ | ⟨_, _, _, _, _, hok, _⟩)
    · obtain rfl := Except.ok.inj hok
      have hback : AllNamed (front ++ back) := by
        intro other hother
        refine hnamed other ?_
        rcases List.mem_append.mp hother with hfront | hback
        · exact List.mem_append_left _ hfront
        · exact List.mem_append_right _ (List.mem_cons_of_mem _ hback)
      have hlen : (front ++ back).length < 5 := by
        have hall := congrArg List.length heq
        rw [List.length_append, List.length_cons] at hall
        rw [List.length_append]
        omega
      have hfits : (layout.setKeypairs .flash (front ++ back)).Fits v := by
        have hall := hheld.length_le
        change 4 + ((front ++ v :: back).map
          BoatKeypairPriKeyCtx.record).flatten.length ≤ 717 at hall
        change 4 + (keypairBytes (front ++ back)).length + v.record.length ≤ 717
        rw [List.map_append, List.map_cons, flatten_middle] at hall
        rw [keypairBytes, List.map_append, List.flatten_append]
        simp only [List.length_append] at hall ⊢
        omega
      have hname := hnamed v (List.mem_append_right front List.mem_cons_self)
      refine (deletePrikeyOrRestore_ends hwithout hkeySplit (by
        change layout.prikeys.length < 0x100
        omega) hindex hmax hback hlen hname hfits (spend fuse
          (deleteKeypairOps front back))).mono ?_
      intro r t hdeleted
      cases hdeleted with
      | removed t hrest hgone =>
          refine .done t hmem ?_ ?_
          · rw [hfault]
            rintro ⟨k, rfl, hfirst, hlast⟩
            have hall := spares_add.mpr ⟨hspares, hrest⟩
            rw [spares_some] at hall
            omega
          · rw [hremove]
            exact hgone
      | swallowed t k hspend hfirst hlast hkept =>
          have hfuse := eq_some_of_spend hspares hspend
          refine .swallowed t ?_ ?_
          · rw [hfault]
            exact ⟨_, hfuse, by omega, by omega⟩
          · rw [hremove]
            exact hkept
      | failed t k code hspend hearly hundone =>
          have hfuse := eq_some_of_spend hspares hspend
          refine .undone _ code (front ++ back ++ [v]) ?_ ?_ hundone
          · rw [heq, List.append_assoc]
            refine List.Perm.append_left front ?_
            exact List.perm_append_singleton v back
          · rw [hfault, hfuse]
            rintro ⟨j, hj, hfirst, _⟩
            obtain rfl := Option.some.inj hj
            omega
    · cases hok
  · rintro _ _ (⟨_, herror, _⟩ | ⟨hburnt, _, t, ⟨code, rfl⟩, ht, herror, rfl⟩)
    · cases herror
    · obtain rfl := Except.error.inj herror
      refine .undone _ code layout.keypairs (List.Perm.refl _) ?_ ?_
      · rw [hfault]
        rintro ⟨k, rfl, hfirst, _⟩
        refine hburnt (spares_some.mpr ?_)
        omega
      · rcases ht with rfl | rfl
        · exact hhas
        · exact hrecounted

end Delete

/-- Where nothing is deleted all keys stay. -/
theorem undone_self (hhas : t.state.Has layout)
    (habsent : index ∉ layout.keypairs.map (·.keypairIndex))
    (code : BoatResult) :
    Deleted layout index fuse (.error (.code code)) t :=
  .undone t code layout.keypairs (List.Perm.refl _)
    (fun hfault => habsent hfault.1) hhas

/-- The count of the onetime keypair is cleared, if there is one. -/
theorem deleteOnetime_spared (hhas : d.Has layout) (htidy : layout.Tidy) :
    (∃ code, Spared deleteOnetimeKeypair d 0 (.error (.code code)) d) ∨
      Spared deleteOnetimeKeypair d 0 (.ok ())
        (d.put .keypair .ram 0 [0, 0, 0, 0]) := by
  have hfew := htidy.onetimeFew
  have hread := (readCount_runs d .keypair .ram (by decide)).spared
  have hheld := hhas.onetimeKeypairs
  unfold deleteOnetimeKeypair
  rcases hheld.look_count (by decide) with hlook | ⟨_, ⟨code, hlook⟩ |
    ⟨header, hlook, hcheck⟩⟩
  · rw [hlook, List.length_map] at hread
    have hcheck : utilityCheckNumBytes
        (utilityGetNumBytes layout.onetimeKeypairs.length) =
          .ok layout.onetimeKeypairs.length :=
      utilityCheckNumBytes_get (by omega)
    by_cases hnone : layout.onetimeKeypairs.length = 0
    · refine Or.inl ⟨boatErrorKeypairKeyInexistence, hread.bind (b := 0) ?_⟩
      simp only [hcheck]
      rw [if_pos hnone]
      exact Spared.throw
    · refine Or.inr (hread.bind (b := 0) ?_)
      simp only [hcheck]
      rw [if_neg hnone]
      have hstore := store_runs d [0, 0, 0, 0] (by decide) (by decide)
        (BoatStoreFile.four_le_room .keypair .ram)
      exact hstore.spared
  · rw [hlook] at hread
    exact Or.inl ⟨code, hread.bind_error⟩
  · rw [hlook] at hread
    refine Or.inl ⟨boatErrorKeypairKeyInexistence, hread.bind (b := 0) ?_⟩
    simp only [hcheck]
    exact Spared.throw

/-- A delete leaves both keys, or neither, unless a fault is swallowed. -/
theorem delete_ends (hhas : d.Has layout) (htidy : layout.Tidy)
    (index : UInt8) (fuse : Option Nat) :
    Ends (boatIotKeypairDelete index) ⟨d, fuse⟩
      (Deleted layout index fuse) := by
  have hfew := htidy.keypairsFew
  by_cases hmem : index ∈ layout.keypairs.map (·.keypairIndex)
  · obtain ⟨front, ctx, back, hsplit⟩ := exists_split hmem htidy.distinct
    obtain ⟨frontKeys, prikey, backKeys, hkeySplit⟩ :=
      exists_split (htidy.paired.mem_iff.mpr hmem) htidy.prikeysDistinct
    exact deletePresent_ends hhas htidy hsplit hkeySplit fuse
  · by_cases hmax : boatMaxKeypairNum < index.toNat
    · have hstop : boatIotKeypairDelete index ⟨d, fuse⟩ =
          .error (.code boatErrorKeypairKeyIndexExceed) ⟨d, fuse⟩ := by
        unfold boatIotKeypairDelete
        rw [failIf, if_pos hmax]
        rfl
      exact Ends.of_error hstop (undone_self hhas hmem _)
    · by_cases hzero : index = 0
      · subst hzero
        have hstart : boatIotKeypairDelete 0 ⟨d, fuse⟩ =
            deleteOnetimeKeypair ⟨d, fuse⟩ := rfl
        rcases deleteOnetime_spared hhas htidy with ⟨code, hruns⟩ | hruns
        · exact Ends.of_error (hstart.trans (hruns.run_free fuse))
            (undone_self hhas hmem code)
        · exact Ends.of_ok (hstart.trans (hruns.run_free fuse))
            (.onetime _ rfl hhas.clearOnetime)
      · have habsent : ∀ ctx ∈ layout.keypairs, ctx.keypairIndex ≠ index := by
          intro ctx hctx heq
          exact hmem (List.mem_map.mpr ⟨ctx, hctx, heq⟩)
        obtain ⟨ops, code, hruns⟩ := deleteKeypairRecord_absent hhas.keypairs
          htidy.named habsent (by omega)
        rw [boatIotKeypairDelete_persistent hzero (Nat.not_lt.mp hmax)]
        refine (hruns.bind_error.ends fuse).mono ?_
        rintro _ _ (⟨_, rfl, rfl⟩ | ⟨_, _, _, ⟨code, rfl⟩, rfl, rfl, rfl⟩)
        · exact undone_self hhas hmem _
        · exact undone_self hhas hmem _

end BoatFramework
