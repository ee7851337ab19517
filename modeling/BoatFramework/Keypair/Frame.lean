/-
The keypair routines never write into the private-key store, whatever stands in
the keypair store: every offset that a scan reaches is small.
-/
import BoatFramework.Keypair.KeypairRuns

namespace BoatFramework

open Fuse

variable {α β : Type} {d d' : Device} {c : Nvram α} {f : α → Nvram β}
  {P : α → Prop} {Q : β → Prop} {v : α} {storeType : BoatStoreType}

/-- The private-key store of a later state is that of an earlier one. -/
structure KeepsPrikeys (s t : Fused Device) : Prop where
  region : ∀ records, s.state.Region .prikey .flash records →
    t.state.Region .prikey .flash records
  fuse : s.fuse = none → t.fuse = none

/-- A program that keeps the private-key store, and its value is in `P`. -/
def Framed (P : α → Prop) (c : Nvram α) : Prop :=
  ∀ s, Ends c s fun r t => KeepsPrikeys s t ∧ ∀ v, r = .ok v → P v

theorem KeepsPrikeys.refl (s : Fused Device) : KeepsPrikeys s s where
  region _ hregion := hregion
  fuse hnone := hnone

theorem KeepsPrikeys.trans {s t u : Fused Device} (hfirst : KeepsPrikeys s t)
    (hsecond : KeepsPrikeys t u) : KeepsPrikeys s u where
  region records hregion :=
    hsecond.region records (hfirst.region records hregion)
  fuse hnone := hsecond.fuse (hfirst.fuse hnone)

/-- Any value will do. -/
abbrev Anything : α → Prop := fun _ => True

theorem Framed.pure (hv : P v) : Framed P (pure v) :=
  fun s => Ends.pure ⟨KeepsPrikeys.refl s, fun w hw => by
    obtain rfl := Except.ok.inj hw
    exact hv⟩

theorem Framed.throw {e : Failure} : Framed P (throw e) :=
  fun s => Ends.throw ⟨KeepsPrikeys.refl s, fun _ hw => by cases hw⟩

theorem Framed.bind (hfirst : Framed P c) (hnext : ∀ v, P v → Framed Q (f v)) :
    Framed Q (c >>= f) := by
  intro s
  refine (hfirst s).bind ?_ ?_
  · rintro v t ⟨hkeeps, hv⟩
    refine (hnext v (hv v rfl) t).mono ?_
    rintro _ u ⟨hmore, hw⟩
    exact ⟨hkeeps.trans hmore, hw⟩
  · rintro e t ⟨hkeeps, _⟩
    exact ⟨hkeeps, fun _ hw => by cases hw⟩

theorem Framed.mono {R : α → Prop} (hframed : Framed P c)
    (hPR : ∀ v, P v → R v) : Framed R c :=
  fun s => (hframed s).mono fun _ _ hlast =>
    ⟨hlast.1, fun v hv => hPR v (hlast.2 v hv)⟩

theorem Framed.pass {g : Unit → Nvram β} {p : Prop} [Decidable p] {e : Failure}
    (hnext : ¬p → Framed Q (g ())) : Framed Q (failIf p e >>= g) := by
  by_cases hp : p
  · rw [failIf, if_pos hp]
    exact Framed.bind (P := fun _ => False) Framed.throw fun _ h => h.elim
  · rw [failIf, if_neg hp]
    exact Framed.bind (P := Anything) (Framed.pure trivial) fun _ _ => hnext hp

theorem Framed.ite {p : Prop} [Decidable p] {c' : Nvram α}
    (htrue : p → Framed P c) (hfalse : ¬p → Framed P c') :
    Framed P (if p then c else c') := by
  by_cases hp : p
  · rw [if_pos hp]
    exact htrue hp
  · rw [if_neg hp]
    exact hfalse hp

theorem Framed.call {g : Except BoatResult α → Nvram β}
    (hframed : Framed P c) (hok : ∀ v, P v → Framed Q (g (.ok v)))
    (herror : ∀ code, Framed Q (g (.error code))) :
    Framed Q (attemptCall c >>= g) := by
  intro s
  refine call_ends (hframed s) ?_ ?_ ?_
  · rintro v t ⟨hkeeps, hv⟩
    refine (hok v (hv v rfl) t).mono ?_
    rintro _ u ⟨hmore, hw⟩
    exact ⟨hkeeps.trans hmore, hw⟩
  · rintro code t ⟨hkeeps, _⟩
    refine (herror code t).mono ?_
    rintro _ u ⟨hmore, hw⟩
    exact ⟨hkeeps.trans hmore, hw⟩
  · rintro t ⟨hkeeps, _⟩
    exact ⟨hkeeps, fun _ hw => by cases hw⟩

theorem Framed.withCode {code : BoatResult} (hframed : Framed P c) :
    Framed P (withCode code c) :=
  hframed.call (fun _ hv => Framed.pure hv) fun _ => Framed.throw

theorem tick_framed {e : Failure} : Framed Anything (tick e : Nvram Unit) := by
  intro s
  match hfuse : s.fuse with
  | none =>
      refine Ends.of_ok (v := ()) ?_
        ⟨KeepsPrikeys.refl _, fun _ _ => trivial⟩
      rw [tick, hfuse]
  | some 0 =>
      have hrun : tick e s = .error e ⟨s.state, none⟩ := by
        rw [tick, hfuse]
      exact Ends.of_error hrun
        ⟨⟨fun _ hregion => hregion, fun _ => rfl⟩, fun _ _ => trivial⟩
  | some (k + 1) =>
      have hrun : tick e s = .ok () ⟨s.state, some k⟩ := by
        rw [tick, hfuse]
      refine Ends.of_ok hrun
        ⟨⟨fun _ hregion => hregion, fun hnone => ?_⟩, fun _ _ => trivial⟩
      rw [hfuse] at hnone
      cases hnone

/-- A look at the device. -/
theorem inspect_framed {look : Device → Outcome α}
    (hlook : ∀ d v, look d = .ok v → P v) : Framed P (inspect look) := by
  intro s
  have hrun : inspect look s = result (look s.state) s := by
    rw [inspect]
    cases look s.state <;> rfl
  exact ⟨look s.state, s, hrun, KeepsPrikeys.refl _, fun v hv =>
    hlook s.state v hv⟩

theorem ofOutcome_framed {outcome : Outcome α}
    (hv : ∀ v, outcome = .ok v → P v) : Framed P (ofOutcome outcome) :=
  inspect_framed fun _ => hv

/-- A change of the device that leaves the private-key store. -/
theorem update_framed {change : Device → Device}
    (hkeeps : ∀ d records, d.Region .prikey .flash records →
      (change d).Region .prikey .flash records) :
    Framed Anything (update change) :=
  fun s => Ends.of_ok rfl
    ⟨⟨hkeeps s.state, fun hnone => hnone⟩, fun _ _ => trivial⟩

/-- A read gives as many bytes as it was asked for, inside the bounds. -/
theorem read_framed (storeFile : BoatStoreFile) (offset len : Nat)
    (storeType : BoatStoreType) :
    Framed (fun bytes => bytes.length = len ∧
        buint32 (offset + len) ≤ storeFile.maxLen)
      (boatReadSoftRotNvram storeFile offset len storeType) := by
  have hlength {file bytes : List UInt8} {start n : Nat}
      (hread : ByteFile.read file start n = some bytes) : bytes.length = n :=
    (ByteFile.at_of_read hread).2
  unfold boatReadSoftRotNvram
  refine Framed.pass fun hmax => Framed.pass fun _ => ?_
  have hbound := Nat.not_lt.mp hmax
  cases storeType with
  | flash =>
      refine Framed.bind tick_framed fun _ _ => inspect_framed ?_
      intro d bytes hlook
      refine ⟨?_, hbound⟩
      unfold Device.readFile at hlook
      split at hlook
      next => cases hlook
      next =>
        split at hlook
        next hread =>
          obtain rfl := Except.ok.inj hlook
          exact hlength hread
        next => cases hlook
  | unknown | ram =>
      refine Framed.pass fun _ => inspect_framed ?_
      intro d bytes hlook
      refine ⟨?_, hbound⟩
      unfold Device.readRam at hlook
      split at hlook
      next hread =>
        obtain rfl := Except.ok.inj hlook
        exact hlength hread
      next => cases hlook

/-- Only the file holds the private keys. -/
theorem region_of_flash (hflash : d'.flash = d.flash)
    {records : List (List UInt8)} (hregion : d.Region .prikey .flash records) :
    d'.Region .prikey .flash records := by
  have hbytes : d'.bytes .prikey .flash = d.bytes .prikey .flash := by
    rw [Device.bytes, Device.file, hflash]
    rfl
  rcases hregion with ⟨hnil, hunset⟩ | hholds
  · refine Or.inl ⟨hnil, ?_⟩
    rw [Device.Unset, hbytes]
    exact hunset
  · refine Or.inr ⟨?_, hholds.2⟩
    rw [hbytes]
    exact hholds.1

/-- A write of keypair data whose end is a 32-bit offset. -/
theorem store_framed {offset : Nat} {data : List UInt8}
    (hwidth : offset + data.length < 2 ^ 32) :
    Framed Anything (boatStoreSoftRotNvram .keypair offset data storeType) := by
  unfold boatStoreSoftRotNvram
  refine Framed.pass fun hmax => Framed.pass fun _ => ?_
  rw [buint32_of_lt hwidth] at hmax
  have hfits : offset + data.length ≤ BoatStoreFile.keypair.room .flash :=
    Nat.not_lt.mp hmax
  have hroom := keypairRoom_lt .flash
  cases storeType with
  | flash =>
      have hbase : buint32 (BoatStoreFile.keypair.offset + offset) =
          BoatStoreFile.keypair.offset + offset := (room_bounds hfits).2
      simp only [boatWriteStorage, hbase]
      refine Framed.bind tick_framed fun _ _ => Framed.pass fun _ => ?_
      refine update_framed fun d records hregion => ?_
      exact Device.Region.put_apart hregion (by decide) hfits
  | unknown | ram =>
      refine Framed.pass fun _ => Framed.pass fun _ => update_framed ?_
      exact fun d records hregion => region_of_flash rfl hregion

theorem storeCount_framed (n : Nat) :
    Framed Anything (boatStoreSoftRotNvram .keypair 0 (utilityGetNumBytes n)
      storeType) :=
  store_framed (by rw [length_utilityGetNumBytes]; decide)

/-- Offsets that a scan reaches. -/
def Near (offset : Nat) : Prop := offset < 2 ^ 20

/-- A length is a 16-bit number, or the value of an error. -/
def LengthLike (n : Nat) : Prop := n < 2 ^ 16 ∨ n = 2 ^ 32 - 1

theorem lengthOf_like (bytes : List UInt8) : LengthLike (lengthOf bytes) := by
  have hbyte (n : UInt8) := n.toNat_lt
  unfold LengthLike lengthOf utilityGetLVDataL
  split
  next => have := hbyte (bytes.getD 0 0); omega
  next =>
    split
    next => have := hbyte (bytes.getD 1 0); omega
    next =>
      split
      next =>
        have hhigh : (bytes.getD 1 0).toNat <<< 8 < 2 ^ 16 := by
          have := hbyte (bytes.getD 1 0)
          rw [Nat.shiftLeft_eq]
          omega
        have hlow : (bytes.getD 2 0).toNat < 2 ^ 16 := by
          have := hbyte (bytes.getD 2 0)
          omega
        have hor := Nat.or_lt_two_pow hhigh hlow
        omega
      next => omega

/-- A length is read where the offset is near and ends within the data. -/
theorem readLength_framed (offset : Nat) (storeType : BoatStoreType) :
    Framed (fun n => LengthLike n ∧ (Near offset → offset < 1000))
      (readLength .keypair offset storeType) := by
  refine (read_framed .keypair offset 3 storeType).bind ?_
  rintro bytes ⟨_, hbound⟩
  refine Framed.pure ⟨lengthOf_like bytes, fun hnear => ?_⟩
  have hroom : BoatStoreFile.keypair.maxLen = 717 := rfl
  unfold Near at hnear
  rw [hroom, buint32_of_lt (by omega)] at hbound
  omega

theorem utilityGetTLVLL_like {n : Nat} (hlike : LengthLike n) :
    n < 2 ^ 16 ∧ 1 ≤ utilityGetTLVLLFromLen n ∧ utilityGetTLVLLFromLen n ≤ 3 ∨
      n = 2 ^ 32 - 1 ∧ utilityGetTLVLLFromLen n = 3 := by
  rcases hlike with hsmall | rfl
  · refine Or.inl ⟨hsmall, ?_, utilityGetTLVLLFromLen_le n⟩
    unfold utilityGetTLVLLFromLen
    split
    · exact Nat.le_refl 1
    · split <;> decide
  · exact Or.inr ⟨rfl, rfl⟩

/-- A scan goes on near, also behind the value of an error. -/
theorem near_advance {offset n k : Nat} (hoffset : offset < 1000)
    (hlike : LengthLike n) (hk : k = utilityGetTLVLLFromLen n + n) :
    Near (advance offset k) := by
  unfold Near advance buint32
  rcases utilityGetTLVLL_like hlike with ⟨hsmall, _, hll⟩ | ⟨rfl, hll⟩
  · omega
  · omega

theorem readByte_framed (offset : Nat) (storeType : BoatStoreType) :
    Framed Anything (readByte .keypair offset storeType) :=
  (read_framed .keypair offset 1 storeType).bind fun _ _ =>
    Framed.pure trivial

theorem readNumOrZero_framed (storeType : BoatStoreType) :
    Framed Anything (readNumOrZero .keypair storeType) := by
  refine (read_framed .keypair 0 4 storeType).call ?_
    fun _ => Framed.pure trivial
  intro numBytes _
  dsimp only
  cases utilityCheckNumBytes numBytes with
  | error code => exact Framed.pure trivial
  | ok num => exact Framed.pure trivial

section Reading

variable (frame : RecordFrame) (storeType : BoatStoreType) (offset : Nat)

theorem readFrame_framed : Framed Anything (readFrame offset storeType) :=
  (readLength_framed offset storeType).bind fun _ _ => Framed.pure trivial

theorem readValue_framed (size : Option Nat) {before : Nvram Unit}
    (hbefore : Framed Anything before) :
    Framed Anything (readValue frame storeType size before offset) := by
  refine (readLength_framed offset storeType).bind fun _ _ => ?_
  refine Framed.pass fun _ => Framed.pass fun _ => ?_
  refine hbefore.bind fun _ _ => ?_
  refine (read_framed .keypair _ _ storeType).bind fun _ _ => ?_
  exact Framed.pure trivial

theorem requireSize_framed (n : Nat) (value : List UInt8) :
    Framed Anything (requireSize n value) :=
  ofOutcome_framed fun _ _ => trivial

theorem readContext_framed (index : UInt8) (pubkeySize : Option Nat)
    {before : Nvram Unit} (hbefore : Framed Anything before) :
    Framed Anything
      (readContext frame storeType index pubkeySize before offset) := by
  have hpure : Framed Anything (pure () : Nvram Unit) := Framed.pure trivial
  refine (readValue_framed frame storeType offset none hbefore).bind ?_
  rintro ⟨name, offset⟩ _
  refine (readValue_framed frame storeType offset none hpure).bind ?_
  rintro ⟨format, offset⟩ _
  refine (requireSize_framed 4 format).bind fun _ _ => ?_
  refine (readValue_framed frame storeType offset none hpure).bind ?_
  rintro ⟨type, offset⟩ _
  refine (requireSize_framed 4 type).bind fun _ _ => ?_
  refine (readValue_framed frame storeType offset pubkeySize hpure).bind ?_
  rintro ⟨pubkey, offset⟩ _
  refine (requireSize_framed 64 pubkey).bind fun _ _ => ?_
  exact Framed.pure trivial

theorem readIndex_framed : Framed Anything (readIndex offset storeType) := by
  refine (readFrame_framed storeType offset).bind fun frame _ => ?_
  have hpure : Framed Anything (pure () : Nvram Unit) := Framed.pure trivial
  refine (readValue_framed frame storeType frame.start (some 1) hpure).bind ?_
  rintro ⟨index, offset⟩ _
  exact Framed.pure trivial

theorem getKeypairFromNvram_framed :
    Framed Anything (boatKeypairGetKeypairFromNvram offset storeType) := by
  have hpure : Framed Anything (pure () : Nvram Unit) := Framed.pure trivial
  refine (readIndex_framed storeType offset).call ?_
    fun _ => Framed.pure trivial
  rintro ⟨frame, index, offset⟩ _
  refine (readContext_framed frame storeType offset index (some 64)
    hpure).call ?_ fun _ => Framed.pure trivial
  exact fun _ _ => Framed.pure trivial

theorem getKeypairs_framed (num slot : Nat) :
    Framed Anything (getKeypairs storeType num slot offset) := by
  induction num generalizing slot offset with
  | zero => exact Framed.pure trivial
  | succ num ih =>
      refine Framed.pass fun _ => ?_
      refine (getKeypairFromNvram_framed storeType offset).bind fun read _ => ?_
      cases read with
      | broken _ index => exact Framed.pure trivial
      | complete ctx outlen =>
          exact (ih _ _).bind fun _ _ => Framed.pure trivial

end Reading

theorem getKeypairList_framed :
    Framed Anything boatKeypairGetKeypairList := by
  refine (readNumOrZero_framed .flash).bind fun num _ => ?_
  refine (getKeypairs_framed .flash 4 num 0).bind fun list _ => ?_
  refine Framed.ite (fun _ => Framed.pure trivial) fun _ => ?_
  refine (readNumOrZero_framed .ram).bind fun onetimeNum _ => ?_
  refine (getKeypairs_framed .ram 4 onetimeNum num).bind fun _ _ => ?_
  exact Framed.pure trivial

theorem newIndex_framed (storeType : BoatStoreType) :
    Framed Anything (newIndex storeType) := by
  cases storeType with
  | unknown | ram => exact Framed.pure trivial
  | flash =>
      refine getKeypairList_framed.bind fun list _ => ?_
      refine Framed.pass fun _ => ?_
      cases firstFree list.indices with
      | some index => exact Framed.pure trivial
      | none =>
          exact Framed.ite (fun _ => Framed.pure trivial) fun _ => Framed.throw

theorem skipKeypairs_framed (storeType : BoatStoreType) (num : Nat)
    {offset : Nat} (hnear : Near offset) :
    Framed Near (skipKeypairs storeType num offset) := by
  induction num generalizing offset with
  | zero => exact Framed.pure hnear
  | succ num ih =>
      refine (readLength_framed offset storeType).bind ?_
      rintro n ⟨hlike, hsmall⟩
      exact ih (near_advance (hsmall hnear) hlike (Nat.add_comm n _))

theorem writeRecord_framed {offset num : Nat} {data : List UInt8}
    (hwidth : offset + data.length < 2 ^ 32) :
    Framed Anything (writeRecord .keypair offset data num storeType) :=
  (store_framed hwidth).bind fun _ _ => storeCount_framed _

theorem appendKeypair_framed (ctx : BoatKeypairPriKeyCtx)
    (storeType : BoatStoreType) (num : Nat) :
    Framed Anything (appendKeypair ctx storeType num) := by
  have hnear : Near 4 := by
    unfold Near
    decide
  refine (skipKeypairs_framed storeType num hnear).bind ?_
  intro offset hnear
  refine (ofOutcome_framed (P := fun data => data.length < 2 ^ 31) ?_).bind ?_
  · intro data hdata
    unfold boatKeypairGetDataCtxData at hdata
    simp only at hdata
    split at hdata
    next => cases hdata
    next =>
      split at hdata
      next => cases hdata
      next hlt =>
        obtain rfl := Except.ok.inj hdata
        exact Nat.not_le.mp hlt
  · intro data hdata
    unfold Near at hnear
    exact writeRecord_framed (by omega)

theorem dataCtxStore_framed (ctx : BoatKeypairPriKeyCtx)
    (storeType : BoatStoreType) :
    Framed Anything (boatKeypairDataCtxStore ctx storeType) := by
  refine (readNumOrZero_framed storeType).bind fun num _ => ?_
  exact Framed.pass fun _ => appendKeypair_framed ctx storeType _

theorem readKeypairAt_framed (index : UInt8) (storeType : BoatStoreType)
    (num offset : Nat) :
    Framed Anything (readKeypairAt index storeType num offset) := by
  induction num generalizing offset with
  | zero => exact Framed.throw
  | succ num ih =>
      refine (readFrame_framed storeType offset).bind fun frame _ => ?_
      refine (read_framed .keypair frame.start 3 storeType).bind
        fun bytes _ => ?_
      refine Framed.pass fun _ => Framed.ite (fun _ => ?_) fun _ => ih _
      refine Framed.pass fun _ => ?_
      exact readContext_framed frame storeType _ index none tick_framed

theorem getKeypairByIndex_framed (index : UInt8) :
    Framed Anything (boatKeypairGetKeypairByIndex index) := by
  refine Framed.pass fun _ => ?_
  refine (read_framed .keypair 0 4 _).withCode.bind fun bytes _ => ?_
  cases utilityCheckNumBytes bytes with
  | error code => exact Framed.throw
  | ok num =>
      exact Framed.ite (fun _ => Framed.throw) fun _ =>
        readKeypairAt_framed index _ num 4

/-- A place that a scan finds is near. -/
theorem findKeypair_framed (index : UInt8) (num : Nat) {offset : Nat}
    (hnear : Near offset) :
    Framed (fun place => ∀ p ∈ place, Near p.offset ∧ Near p.next)
      (findKeypair index num offset) := by
  induction num generalizing offset with
  | zero => exact Framed.pure fun p hp => by cases hp
  | succ num ih =>
      refine (readLength_framed offset .flash).bind ?_
      rintro n ⟨hlike, hsmall⟩
      have hnext := near_advance (hsmall hnear) hlike rfl
      refine (readLength_framed _ .flash).bind fun _ _ => ?_
      refine Framed.pass fun _ => ?_
      refine (readByte_framed _ .flash).bind fun _ _ => ?_
      refine Framed.ite (fun _ => Framed.pure ?_) fun _ => ih hnext
      intro p hp
      obtain rfl := Option.some.inj hp
      exact ⟨hnear, hnext⟩

/-- The records that are measured end near. -/
theorem keypairsLength_framed (num : Nat) {offset : Nat} (hnear : Near offset) :
    Framed (fun n => Near (offset + n)) (keypairsLength num offset) := by
  induction num generalizing offset with
  | zero => exact Framed.pure hnear
  | succ num ih =>
      refine (readLength_framed offset .flash).bind ?_
      rintro n ⟨hlike, hsmall⟩
      have hoffset := hsmall hnear
      have hnext := near_advance hoffset hlike rfl
      refine (ih hnext).bind fun rest hrest => Framed.pure ?_
      unfold Near advance buint32 at *
      rcases utilityGetTLVLL_like hlike with ⟨hn, _, hll⟩ | ⟨rfl, hll⟩
      · omega
      · omega

theorem keypairsBehind_framed {place : Place} (hnear : Near place.next) :
    Framed (fun found => Near found.2) (keypairsBehind place) := by
  refine (keypairsLength_framed place.behind hnear).bind fun n hn => ?_
  refine Framed.pure ?_
  unfold Near at *
  exact Nat.lt_of_le_of_lt (Nat.le_add_left n place.next) hn

theorem removeRecord_framed {place : Place}
    (hplace : Near place.offset ∧ Near place.next) :
    Framed Anything
      (removeRecord .keypair place (keypairsBehind place)) := by
  obtain ⟨hoffset, hnext⟩ := hplace
  unfold Near at hoffset
  refine Framed.ite (fun _ => store_framed ?_) fun _ => ?_
  · change place.offset + 3 < 2 ^ 32
    omega
  · refine (keypairsBehind_framed hnext).bind ?_
    rintro ⟨from_, length⟩ hlength
    unfold Near at hlength
    refine tick_framed.bind fun _ _ => ?_
    refine (read_framed .keypair from_ length .flash).withCode.bind ?_
    rintro data ⟨hdata, _⟩
    refine (store_framed ?_).withCode
    omega

theorem removeKeypair_framed {num : Nat} {place : Place}
    (hplace : Near place.offset ∧ Near place.next) :
    Framed Anything (removeKeypair num place) := by
  refine (removeRecord_framed hplace).call (fun _ _ => Framed.pure trivial)
    fun code => ?_
  exact (storeCount_framed num).bind fun _ _ => Framed.throw

theorem deleteKeypairRecord_framed (index : UInt8) :
    Framed Anything (deleteKeypairRecord index) := by
  have hnear : Near 4 := by
    unfold Near
    decide
  refine (read_framed .keypair 0 4 .flash).bind fun bytes _ => ?_
  cases utilityCheckNumBytes bytes with
  | error code => exact Framed.throw
  | ok num =>
      refine Framed.ite (fun _ => Framed.throw) fun _ => ?_
      refine (findKeypair_framed index num hnear).bind fun place hplace => ?_
      cases place with
      | none => exact Framed.throw
      | some place =>
          refine (getKeypairByIndex_framed index).bind fun _ _ => ?_
          refine (storeCount_framed _).bind fun _ _ => ?_
          refine (removeKeypair_framed (hplace place rfl)).bind fun _ _ => ?_
          exact Framed.pure trivial

theorem deleteOnetimeKeypair_framed : Framed Anything deleteOnetimeKeypair := by
  refine (read_framed .keypair 0 4 .ram).bind fun bytes _ => ?_
  cases utilityCheckNumBytes bytes with
  | error code => exact Framed.throw
  | ok num =>
      exact Framed.ite (fun _ => Framed.throw) fun _ =>
        store_framed (by decide)

end BoatFramework
