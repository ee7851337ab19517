/-
What the shared steps do on well-formed content: a length, a byte and a count
are read back, a record is appended to a region or taken out of it.
-/
import BoatFramework.Storage.Region
import BoatFramework.Storage.Scan

namespace BoatFramework

open Fuse

variable {α : Type} {d : Device} {storeFile otherFile : BoatStoreFile}
  {storeType otherType : BoatStoreType} {offset : Nat}
  {value rest : List UInt8} {records front back : List (List UInt8)}
  {entry : List UInt8}

theorem advance_of_lt {offset n : Nat} (hlt : offset + n < 2 ^ 32) :
    advance offset n = offset + n :=
  buint32_of_lt hlt

section Calls

variable {c : Nvram α} {d' : Device} {ops : Nat} {v : α} {code : BoatResult}
  {s s' : Fused Device}

theorem attemptCall_ok (hrun : c s = .ok v s') :
    attemptCall c s = .ok (.ok v) s' :=
  attempt_ok hrun

theorem attemptCall_error (hrun : c s = .error (.code code) s') :
    attemptCall c s = .ok (.error code) s' :=
  attempt_error hrun rfl

theorem call_ok (hruns : Spared c d ops (.ok v) d') :
    Spared (attemptCall c) d ops (.ok (.ok v)) d' :=
  hruns.attempt_ok

theorem call_error
    (hruns : Spared c d ops (.error (.code code)) d') :
    Spared (attemptCall c) d ops (.ok (.error code)) d' :=
  hruns.attempt_error rfl

/-- A call whose result code is looked at, whatever comes of it. -/
theorem call_ends {β : Type} {f : Except BoatResult α → Nvram β}
    {Q : Except Failure α → Fused Device → Prop}
    {S : Except Failure β → Fused Device → Prop} {s : Fused Device}
    (hends : Ends c s Q)
    (hok : ∀ v t, Q (.ok v) t → Ends (f (.ok v)) t S)
    (herror : ∀ code t, Q (.error (.code code)) t → Ends (f (.error code)) t S)
    (hundefined : ∀ t, Q (.error .undefined) t → S (.error .undefined) t) :
    Ends (attemptCall c >>= f) s S := by
  obtain ⟨r, t, hrun, hlast⟩ := hends
  match r with
  | .ok v =>
      obtain ⟨r, t', hnext, hend⟩ := hok v t hlast
      exact ⟨r, t', (run_bind_ok (attemptCall_ok hrun)).trans hnext, hend⟩
  | .error (.code code) =>
      obtain ⟨r, t', hnext, hend⟩ := herror code t hlast
      exact ⟨r, t', (run_bind_ok (attemptCall_error hrun)).trans hnext, hend⟩
  | .error .undefined =>
      have hcall : attemptCall c s = .error .undefined t := by
        rw [attemptCall, attempt, hrun]
        rfl
      exact Ends.of_error (run_bind_error hcall) (hundefined t hlast)

/-- A call whose faults get another code. -/
theorem withCode_runs {P : Device → Prop}
    (hruns : Runs Failure.Coded P c d ops (.ok v) d') :
    Runs Failure.Coded P (withCode code c) d ops (.ok v) d' where
  spared := (call_ok hruns.spared).map rfl
  burnt k hk := by
    obtain ⟨e, t, ⟨result, rfl⟩, ht, hrun⟩ := hruns.burnt k hk
    exact ⟨.code code, t, ⟨code, rfl⟩, ht,
      run_bind_ok (attemptCall_error hrun)⟩

theorem ofOutcome_ends (outcome : Outcome α) (s : Fused Device) :
    Ends (ofOutcome outcome) s fun r t => r = outcome ∧ t = s := by
  cases outcome with
  | ok v => exact Ends.of_ok rfl ⟨rfl, rfl⟩
  | error e => exact Ends.of_error rfl ⟨rfl, rfl⟩

theorem ofOutcome_bind {β : Type} {P : Device → Prop} {f : α → Nvram β}
    {outcome : Outcome α} {r : Except Failure β} (hok : outcome = .ok v)
    (hnext : Runs Failure.Coded P (f v) d ops r d') :
    Runs Failure.Coded P (ofOutcome outcome >>= f) d ops r d' := by
  have hfirst : Runs Failure.Coded P (ofOutcome outcome) d 0 (.ok v) d :=
    Runs.inspect hok
  exact (hfirst.bind hnext).cast (Nat.zero_add ops)

theorem ofOutcome_error {β : Type} {P : Device → Prop} {f : α → Nvram β}
    {outcome : Outcome α} {e : Failure} (herror : outcome = .error e) :
    Runs Failure.Coded P (ofOutcome outcome >>= f) d 0 (.error e) d := by
  have hfirst : Runs Failure.Coded P (ofOutcome outcome) d 0 (.error e) d :=
    Runs.inspect herror
  exact hfirst.bind_error

end Calls

theorem lengthOf_encode (hlen : value.length < 0x10000) (rest : List UInt8) :
    lengthOf ((LengthValue.encode value ++ rest).take 3) = value.length := by
  rw [lengthOf, utilityGetLVDataL_encode hlen]
  omega

theorem Device.Holds.length_lt
    (hholds : d.Holds storeFile storeType offset value)
    (hkeys : storeFile ≠ .network) : offset + value.length < 1000 :=
  Nat.lt_of_le_of_lt hholds.2 (BoatStoreFile.keyRoom_lt hkeys storeType)

/-- The length in front of a value is read, where three bytes can be read. -/
theorem readLength_runs
    (hholds : d.Holds storeFile storeType offset
      (LengthValue.encode value ++ rest))
    (hknown : storeType ≠ .unknown)
    (hthree : 3 ≤ (LengthValue.encode value ++ rest).length)
    (hlen : value.length < 0x10000) :
    Reads (readLength storeFile offset storeType) d storeType.cost
      (.ok value.length) := by
  unfold readLength
  rw [← lengthOf_encode hlen rest]
  exact (hholds.read hknown (by decide) hthree).map rfl

/-- Lengths of keys fit their two bytes. -/
theorem readKeyLength_runs
    (hholds : d.Holds storeFile storeType offset
      (LengthValue.encode value ++ rest))
    (hkeys : storeFile ≠ .network) (hknown : storeType ≠ .unknown)
    (hthree : 3 ≤ (LengthValue.encode value ++ rest).length) :
    Reads (readLength storeFile offset storeType) d storeType.cost
      (.ok value.length) := by
  have hlt := hholds.length_lt hkeys
  rw [List.length_append, LengthValue.length_encode] at hlt
  exact readLength_runs hholds hknown hthree (by omega)

theorem readByte_runs {byte : UInt8}
    (hholds : d.Holds storeFile storeType offset (byte :: rest))
    (hknown : storeType ≠ .unknown) :
    Reads (readByte storeFile offset storeType) d storeType.cost
      (.ok byte) := by
  have hread := hholds.read hknown (by decide : 0 < 1) (by simp)
  exact hread.map rfl

variable (storeFile storeType d) in
/-- The read that gives the count bytes. -/
theorem readCount_runs (hknown : storeType ≠ .unknown) :
    Reads (boatReadSoftRotNvram storeFile 0 4 storeType) d storeType.cost
      (d.look storeFile 0 4 storeType) :=
  read_runs hknown (by decide) (storeFile.four_le_room storeType)

variable (records) in
/-- The count bytes that were written are read. -/
theorem readCount_held
    (hholds : d.Holds storeFile storeType 0
      (utilityGetNumBytes records.length ++ rest))
    (hknown : storeType ≠ .unknown) :
    Reads (boatReadSoftRotNvram storeFile 0 4 storeType) d storeType.cost
      (.ok (utilityGetNumBytes records.length)) :=
  hholds.read hknown (by decide) (by simp [length_utilityGetNumBytes])

theorem readNumOrZero_spared
    (hregion : d.Region storeFile storeType records)
    (hknown : storeType ≠ .unknown) (hcount : records.length < 0x100) :
    Spared (readNumOrZero storeFile storeType) d storeType.cost
      (.ok records.length) d := by
  have hread := (readCount_runs d storeFile storeType hknown).spared
  unfold readNumOrZero
  rcases hregion.look_count hknown with hlook | ⟨rfl, ⟨code, hlook⟩ |
    ⟨header, hlook, hcheck⟩⟩
  · rw [hlook] at hread
    refine Spared.map (call_ok hread) ?_
    simp only [utilityCheckNumBytes_get hcount]
  · rw [hlook] at hread
    exact Spared.map (call_error hread) rfl
  · rw [hlook] at hread
    refine Spared.map (call_ok hread) ?_
    simp only [hcheck]
    rfl

/-- A count that cannot be read counts for none. -/
theorem readNumOrZero_burnt (d : Device) (storeFile : BoatStoreFile) :
    readNumOrZero storeFile .flash ⟨d, some 0⟩ = .ok 0 ⟨d, none⟩ := by
  obtain ⟨e, t, ⟨code, rfl⟩, rfl, hrun⟩ :=
    (readCount_runs d storeFile .flash (by decide)).burnt 0 (by decide)
  unfold readNumOrZero
  exact run_bind_ok (attemptCall_error hrun)

/-- The device after a record and then the count are written. -/
def Device.appendRecord (d : Device) (storeFile : BoatStoreFile)
    (storeType : BoatStoreType) (records : List (List UInt8))
    (entry : List UInt8) : Device :=
  (d.put storeFile storeType (4 + records.flatten.length) entry).put storeFile
    storeType 0 (utilityGetNumBytes (records.length + 1))

theorem Device.Region.appendRecord
    (hregion : d.Region storeFile storeType records)
    (hfits : 4 + records.flatten.length + entry.length ≤
      storeFile.room storeType) :
    (d.appendRecord storeFile storeType records entry).Region storeFile
      storeType (records ++ [entry]) := by
  have hnew := holds_put (d := d) hfits
  have hbody : (d.put storeFile storeType (4 + records.flatten.length)
      entry).Holds storeFile storeType 4 (records ++ [entry]).flatten := by
    rw [List.flatten_append, List.flatten_singleton]
    by_cases hnil : records = []
    · subst hnil
      exact hnew
    · exact holds_append.mpr
        ⟨(hregion.body hnil).put_before hfits (Nat.le_refl _), hnew⟩
  have hlen : records.length + 1 = (records ++ [entry]).length := by simp
  rw [Device.appendRecord, hlen]
  exact region_put_count hbody

section Counted

variable {maxNum : Nat} {full : BoatResult} {append : Nat → Nvram Unit}
  {P : Device → Prop} {ops : Nat} {r : Except Failure Unit} {d' : Device}

theorem storeCounted_spared
    (hregion : d.Region storeFile .flash records)
    (hcount : records.length < maxNum) (hmax : maxNum < 0x100)
    (happend : Spared (append records.length) d ops r d') :
    Spared (storeCounted storeFile .flash maxNum full append) d (1 + ops) r
      d' := by
  have hnum := readNumOrZero_spared hregion (by decide) (by omega)
  exact hnum.bind (Spared.pass (by omega) happend)

/-- A store whose count is not read is overwritten. -/
theorem storeCounted_unread (hmax : 0 < maxNum) :
    storeCounted storeFile .flash maxNum full append ⟨d, some 0⟩ =
      append 0 ⟨d, none⟩ := by
  have hpass : Spared (failIf (maxNum ≤ 0) (Failure.code full) :
      Nvram Unit) d 0 (.ok ()) d := by
    rw [failIf, if_neg (by omega)]
    exact Spared.pure
  refine (run_bind_ok (readNumOrZero_burnt d storeFile)).trans ?_
  exact run_bind_ok (hpass none (spares_none 0))

theorem storeCounted_full (hregion : d.Region storeFile .flash records)
    (hcount : maxNum ≤ records.length) (hlen : records.length < 0x100) :
    Spared (storeCounted storeFile .flash maxNum full append) d 1
      (.error (.code full)) d := by
  have hnum := readNumOrZero_spared hregion (by decide) hlen
  have hstop : Spared (failIf (maxNum ≤ records.length) (Failure.code full) >>=
      fun _ => append records.length) d 0 (.error (.code full)) d :=
    Spared.stop hcount
  refine Spared.cast (a := 1 + 0) ?_ rfl
  refine hnum.bind ?_
  exact hstop

/-- The store in RAM is overwritten. -/
theorem storeCounted_ram (hregion : d.Region storeFile .ram records)
    (hcount : records.length < maxNum) (hmax : maxNum < 0x100)
    (happend : Spared (append 0) d ops r d') :
    Spared (storeCounted storeFile .ram maxNum full append) d ops r d' := by
  have hnum := readNumOrZero_spared hregion (by decide) (by omega)
  exact (hnum.bind (Spared.pass (by omega) happend)).cast (Nat.zero_add ops)

end Counted

/-- Between the two writes the region is as it was. -/
theorem writeRecord_runs (hknown : storeType ≠ .unknown) (hne : entry ≠ [])
    (hfits : 4 + records.flatten.length + entry.length ≤
      storeFile.room storeType) :
    Runs Failure.Coded (fun t => t = d ∨
        t = d.put storeFile storeType (4 + records.flatten.length) entry)
      (writeRecord storeFile (4 + records.flatten.length) entry records.length
        storeType) d (2 * storeType.cost) (.ok ())
      (d.appendRecord storeFile storeType records entry) := by
  have hrecord := store_runs d _ hknown hne hfits
  have hcountBytes : utilityGetNumBytes (records.length + 1) ≠ [] := by
    simp [utilityGetNumBytes]
  have hroom : 0 + (utilityGetNumBytes (records.length + 1)).length ≤
      storeFile.room storeType := storeFile.four_le_room storeType
  have hcount := store_runs
    (d.put storeFile storeType (4 + records.flatten.length) entry) _
    hknown hcountBytes hroom
  refine Runs.cast (a := storeType.cost + storeType.cost) ?_ (by omega)
  refine (hrecord.mono fun t ht => Or.inl ht).bind ?_
  exact hcount.mono fun t ht => Or.inr ht

/-- The device after the records behind one are moved over it, or, for the last
one, after its length bytes are cleared. -/
def Device.closeGap (d : Device) (storeFile : BoatStoreFile) (offset : Nat)
    (back : List (List UInt8)) : Device :=
  d.put storeFile .flash offset
    (if back = [] then [0, 0, 0] else back.flatten)

/-- The device after the count is lowered. -/
def Device.lowerCount (d : Device) (storeFile : BoatStoreFile)
    (front back : List (List UInt8)) : Device :=
  d.put storeFile .flash 0 (utilityGetNumBytes (front ++ back).length)

theorem flatten_middle :
    (front ++ entry :: back).flatten =
      front.flatten ++ (entry ++ back.flatten) := by
  rw [List.flatten_append, List.flatten_cons]

/-- A lower count leaves what stands behind it. -/
theorem Device.Region.lowerCount_body
    (hregion : d.Region storeFile .flash (front ++ entry :: back)) :
    (d.lowerCount storeFile front back).Holds storeFile .flash 4
      (front.flatten ++ (entry ++ back.flatten)) := by
  rw [← flatten_middle]
  exact (hregion.body (by simp)).put_after (storeFile.four_le_room .flash)
    (Nat.le_refl _)

/-- The count is written back. -/
theorem Device.Region.restoreCount
    (hregion : d.Region storeFile .flash (front ++ entry :: back)) :
    ((d.lowerCount storeFile front back).put storeFile .flash 0
      (utilityGetNumBytes (front ++ entry :: back).length)).Region storeFile
        .flash (front ++ entry :: back) := by
  refine region_put_count ?_
  rw [flatten_middle]
  exact hregion.lowerCount_body

/-- What is written over a record fits. -/
theorem gap_fits
    (hholds : d.Holds storeFile .flash 4
      (front.flatten ++ (entry ++ back.flatten)))
    (hthree : 3 ≤ entry.length) :
    4 + front.flatten.length +
        (if back = [] then [0, 0, 0] else back.flatten).length ≤
      storeFile.room .flash := by
  have hroom := hholds.2
  rw [List.length_append, List.length_append] at hroom
  split
  · simp only [List.length_cons, List.length_nil]
    omega
  · omega

theorem Device.Region.closeGap
    (hregion : d.Region storeFile .flash (front ++ entry :: back))
    (hthree : 3 ≤ entry.length) :
    ((d.lowerCount storeFile front back).closeGap storeFile
      (4 + front.flatten.length) back).Region storeFile .flash
        (front ++ back) := by
  have hbody := hregion.lowerCount_body
  have hfits := gap_fits hbody hthree
  have hcount : (d.lowerCount storeFile front back).Holds storeFile .flash 0
      (utilityGetNumBytes (front ++ back).length) :=
    holds_put (storeFile.four_le_room .flash)
  have hfront := (holds_append.mp hbody).1
  right
  rw [List.flatten_append, holds_append, holds_append]
  refine ⟨hcount.put_before hfits ?_, hfront.put_before hfits (Nat.le_refl _),
    ?_⟩
  · rw [length_utilityGetNumBytes]
    omega
  · by_cases hback : back = []
    · subst hback
      have hend := (holds_append.mp (holds_append.mp hbody).2).1
      have hnone : (d.lowerCount storeFile front []).Holds storeFile .flash
          (4 + front.flatten.length) ([] ++ entry) := hend
      exact ((holds_append.mp hnone).1).put_before hfits (Nat.le_refl _)
    · have hmoved := holds_put (d := d.lowerCount storeFile front back) hfits
      rw [Device.closeGap]
      rw [if_neg hback] at hmoved ⊢
      exact hmoved

theorem moveBack_runs {data : List UInt8} {to_ from_ : Nat}
    (hholds : d.Holds storeFile .flash from_ data) (hne : data ≠ [])
    (hfits : to_ + data.length ≤ storeFile.room .flash) :
    Runs Failure.Coded (· = d) (moveBack storeFile to_ from_ data.length) d 3
      (.ok ()) (d.put storeFile .flash to_ data) := by
  have hpos := List.length_pos_of_ne_nil hne
  have hread := hholds.read (by decide) hpos (Nat.le_refl _)
  rw [List.take_length] at hread
  have hstore := store_runs d _ (by decide) hne hfits
  have hmalloc : Reads (boatMalloc boatErrorCommonOutOfMemory) d 1 (.ok ()) :=
    Runs.tick ⟨_, rfl⟩ rfl
  unfold moveBack
  refine Runs.cast (a := 1 + (1 + 1)) ?_ rfl
  refine hmalloc.bind ?_
  refine (withCode_runs hread).bind ?_
  exact withCode_runs hstore

/-- Taking a record out, where the records behind it are found. -/
theorem removeRecord_runs (place : Place) {seek : Nvram (Nat × Nat)}
    {from_ ops : Nat} (hbehind : place.behind = back.length)
    (hseek : back ≠ [] →
      Reads seek d ops (.ok (from_, back.flatten.length)) ∧
        d.Holds storeFile .flash from_ back.flatten ∧ back.flatten ≠ [])
    (hfits : place.offset +
        (if back = [] then [0, 0, 0] else back.flatten).length ≤
      storeFile.room .flash) :
    Runs Failure.Coded (· = d) (removeRecord storeFile place seek) d
      (if back = [] then 1 else ops + 3) (.ok ())
      (d.closeGap storeFile place.offset back) := by
  unfold removeRecord Device.closeGap
  by_cases hback : back = []
  · rw [if_pos (by rw [hbehind, hback]; rfl), if_pos hback, if_pos hback]
    rw [if_pos hback] at hfits
    exact store_runs _ _ (by decide) (by decide) hfits
  · have hne : place.behind ≠ 0 := by
      rw [hbehind]
      exact fun h => hback (List.eq_nil_of_length_eq_zero h)
    rw [if_neg hback] at hfits
    rw [if_neg hne, if_neg hback, if_neg hback]
    obtain ⟨hreads, hholds, hflat⟩ := hseek hback
    exact hreads.bind (moveBack_runs hholds hflat hfits)

end BoatFramework
