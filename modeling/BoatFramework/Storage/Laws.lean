/-
The laws of the storage over any run of reads and stores: a read gives what was
stored last, a store changes one region only, and a request outside its region
changes nothing.  The bound checks add two 32-bit numbers; a request whose sum
wraps into the bound breaks the laws.
-/
import BoatFramework.Storage.Access

namespace BoatFramework

open Fuse

/-- A call of the storage with 32-bit arguments. -/
inductive NvramCall where
  | store (storeFile : BoatStoreFile) (offset : UInt32)
      (data : {data : List UInt8 // data.length < 2 ^ 32})
      (storeType : BoatStoreType)
  | read (storeFile : BoatStoreFile) (offset lenToRead : UInt32)
      (storeType : BoatStoreType)

/-- A call; a store gives no bytes. -/
def NvramCall.run : NvramCall → Nvram (List UInt8)
  | .store storeFile offset data storeType => do
      boatStoreSoftRotNvram storeFile offset.toNat data.1 storeType
      pure []
  | .read storeFile offset lenToRead storeType =>
      boatReadSoftRotNvram storeFile offset.toNat lenToRead.toNat storeType

def NvramCall.storeFile : NvramCall → BoatStoreFile
  | .store storeFile _ _ _ => storeFile
  | .read storeFile _ _ _ => storeFile

def NvramCall.storeType : NvramCall → BoatStoreType
  | .store _ _ _ storeType => storeType
  | .read _ _ _ storeType => storeType

def NvramCall.offset : NvramCall → UInt32
  | .store _ offset _ _ => offset
  | .read _ offset _ _ => offset

def NvramCall.length : NvramCall → Nat
  | .store _ _ data _ => data.1.length
  | .read _ _ lenToRead _ => lenToRead.toNat

/-- What a call gives and leaves where file operations succeed. -/
def NvramCall.step (call : NvramCall) (d : Device) :
    Outcome (List UInt8) × Device :=
  match call.run ⟨d, none⟩ with
  | .ok bytes s => (.ok bytes, s.state)
  | .error failure s => (.error failure, s.state)

/-- The sum of offset and length leaves the addresses and comes back below the
bound, or, for network data in the file, the place in the file leaves them. -/
def NvramCall.Wraps (call : NvramCall) : Prop :=
  call.storeType ≠ .unknown ∧ 0 < call.length ∧
    if call.storeFile = .network ∧ call.storeType = .flash then
      2 ^ 32 ≤ BoatStoreFile.network.offset + call.offset.toNat + call.length
    else 2 ^ 32 ≤ call.offset.toNat + call.length ∧
      call.offset.toNat + call.length - 2 ^ 32 ≤
        call.storeFile.room call.storeType

instance (call : NvramCall) : Decidable call.Wraps :=
  inferInstanceAs (Decidable (_ ∧ _ ∧ _))

/-- The request lies inside its region. -/
def NvramCall.Inside (call : NvramCall) : Prop :=
  call.storeType ≠ .unknown ∧ 0 < call.length ∧
    call.offset.toNat + call.length ≤ call.storeFile.room call.storeType

/-- The bytes of all regions, zero where there is none. -/
abbrev Memory := BoatStoreFile → BoatStoreType → Nat → UInt8

def Memory.store (memory : Memory) (storeFile : BoatStoreFile)
    (storeType : BoatStoreType) (offset : Nat) (data : List UInt8) : Memory :=
  fun otherFile otherType i =>
    if otherFile = storeFile ∧ otherType = storeType ∧ offset ≤ i ∧
        i < offset + data.length then data.getD (i - offset) 0
    else memory otherFile otherType i

/-- The values last stored, after a call. -/
def Memory.after (memory : Memory) (call : NvramCall)
    (outcome : Outcome (List UInt8)) : Memory :=
  match call, outcome with
  | .store storeFile offset data storeType, .ok _ =>
      memory.store storeFile storeType offset.toNat data.1
  | _, _ => memory

def Device.byte (d : Device) : Memory :=
  fun storeFile storeType i =>
    (d.bytes storeFile storeType).getD (storeFile.origin storeType + i) 0

/-- A device shows the values last stored. -/
def Device.Shows (d : Device) (memory : Memory) : Prop :=
  ∀ storeFile storeType i, storeType ≠ .unknown →
    i < storeFile.room storeType →
      d.byte storeFile storeType i = memory storeFile storeType i

/-- What one call has to do. -/
structure CallLawful (memory : Memory) (d : Device) (call : NvramCall)
    (outcome : Outcome (List UInt8)) (d' : Device) : Prop where
  lastStored : ∀ storeFile offset lenToRead storeType bytes,
    call = .read storeFile offset lenToRead storeType → outcome = .ok bytes →
      bytes = (List.range lenToRead.toNat).map fun k =>
        memory storeFile storeType (offset.toNat + k)
  apart : ∀ otherFile otherType i, otherType ≠ .unknown →
    otherFile ≠ call.storeFile ∨ otherType ≠ call.storeType →
      i < otherFile.room otherType →
        d'.byte otherFile otherType i = d.byte otherFile otherType i
  refused : ¬call.Inside → (∃ code, outcome = .error (.code code)) ∧ d' = d

/-- Every call of a run does what it has to. -/
def RunLawful : Memory → Device → List NvramCall → Prop
  | _, _, [] => True
  | memory, d, call :: rest =>
      CallLawful memory d call (call.step d).1 (call.step d).2 ∧
        RunLawful (memory.after call (call.step d).1) (call.step d).2 rest

variable {memory : Memory} {d : Device} {call : NvramCall}
  {storeFile otherFile : BoatStoreFile} {storeType otherType : BoatStoreType}
  {offset len : Nat} {data : List UInt8}

/-- What passes the bound checks without wrapping lies inside. -/
theorem inside_of_passes (hwraps : ¬call.Wraps)
    (hknown : call.storeType ≠ .unknown) (hpos : 0 < call.length)
    (hlen : call.length < 2 ^ 32)
    (hmax : ¬call.storeFile.maxLen < buint32 (call.offset.toNat + call.length))
    (hram : call.storeType ≠ .flash →
      ¬call.storeFile.rambufLen < buint32 (call.offset.toNat + call.length)) :
    call.Inside := by
  refine ⟨hknown, hpos, ?_⟩
  have hoffset := call.offset.toNat_lt
  unfold NvramCall.Wraps at hwraps
  generalize call.offset.toNat = offset at *
  generalize call.length = len at *
  generalize call.storeFile = storeFile at *
  generalize call.storeType = storeType at *
  unfold buint32 at hmax hram
  cases storeType with
  | unknown => exact absurd rfl hknown
  | ram =>
      have hblock := hram (by decide)
      have hroom : storeFile.room .ram =
          min storeFile.maxLen storeFile.rambufLen := rfl
      rw [hroom] at hwraps ⊢
      simp only [hpos, ne_eq, reduceCtorEq, not_false_eq_true, and_false,
        if_false, true_and] at hwraps
      omega
  | flash =>
      cases storeFile with
      | network =>
          have hroom : BoatStoreFile.network.room .flash = 2 ^ 32 - 1 - 1472 :=
            rfl
          have hbase : BoatStoreFile.network.offset = 1472 := rfl
          rw [hroom]
          simp only [hpos, hbase, ne_eq, reduceCtorEq, not_false_eq_true,
            and_self, if_true, true_and] at hwraps
          omega
      | keypair | prikey =>
          simp only [hpos, BoatStoreFile.room, BoatStoreFile.fileRoom, ne_eq,
            reduceCtorEq, not_false_eq_true, false_and, if_false, true_and]
            at hwraps ⊢
          omega

/-- The check that refuses a request outside its region. -/
theorem outside_cases (hwraps : ¬call.Wraps) (houtside : ¬call.Inside)
    (hlen : call.length < 2 ^ 32) :
    call.storeFile.maxLen < buint32 (call.offset.toNat + call.length) ∨
      ¬call.storeFile.maxLen < buint32 (call.offset.toNat + call.length) ∧
        ((call.length = 0 ∨ call.storeType = .unknown) ∨
          ¬(call.length = 0 ∨ call.storeType = .unknown) ∧
            call.storeType = .ram ∧ call.storeFile.rambufLen <
              buint32 (call.offset.toNat + call.length)) := by
  by_cases hmax : call.storeFile.maxLen <
      buint32 (call.offset.toNat + call.length)
  · exact Or.inl hmax
  · refine Or.inr ⟨hmax, ?_⟩
    by_cases hargs : call.length = 0 ∨ call.storeType = .unknown
    · exact Or.inl hargs
    · refine Or.inr ⟨hargs, ?_⟩
      by_contra hram
      apply houtside
      have hpos : 0 < call.length :=
        Nat.pos_of_ne_zero fun hzero => hargs (Or.inl hzero)
      have hknown : call.storeType ≠ .unknown :=
        fun hunknown => hargs (Or.inr hunknown)
      refine inside_of_passes hwraps hknown hpos hlen hmax fun hflash hblock => ?_
      cases htype : call.storeType with
      | unknown => exact hknown htype
      | flash => exact hflash htype
      | ram => exact hram ⟨htype, hblock⟩

/-- A request outside its region is refused before anything is done. -/
theorem refused_of_outside (hwraps : ¬call.Wraps) (houtside : ¬call.Inside) :
    ∃ code, call.run ⟨d, none⟩ = .error (.code code) ⟨d, none⟩ := by
  cases call with
  | store storeFile offset data storeType =>
      have hstop : ∃ code, Spared (boatStoreSoftRotNvram storeFile offset.toNat
          data.1 storeType) d 0 (.error (.code code)) d := by
        rcases outside_cases hwraps houtside data.2 with
          hmax | ⟨hmax, hargs | ⟨hargs, htype, hblock⟩⟩
        · exact ⟨_, Spared.stop hmax⟩
        · exact ⟨_, Spared.pass hmax (Spared.stop hargs)⟩
        · obtain rfl : storeType = .ram := htype
          exact ⟨_, Spared.pass hmax (Spared.pass hargs (Spared.stop hblock))⟩
      obtain ⟨code, hstop⟩ := hstop
      exact ⟨code, hstop.bind_error.run⟩
  | read storeFile offset lenToRead storeType =>
      have hstop : ∃ code, Spared (boatReadSoftRotNvram storeFile offset.toNat
          lenToRead.toNat storeType) d 0 (.error (.code code)) d := by
        rcases outside_cases hwraps houtside lenToRead.toNat_lt with
          hmax | ⟨hmax, hargs | ⟨hargs, htype, hblock⟩⟩
        · exact ⟨_, Spared.stop hmax⟩
        · exact ⟨_, Spared.pass hmax (Spared.stop hargs)⟩
        · obtain rfl : storeType = .ram := htype
          exact ⟨_, Spared.pass hmax (Spared.pass hargs (Spared.stop hblock))⟩
      obtain ⟨code, hstop⟩ := hstop
      exact ⟨code, hstop.run⟩

/-- A byte of a region after a store in bounds. -/
theorem byte_put (hknown : storeType ≠ .unknown)
    (hother : otherType ≠ .unknown)
    (hfits : offset + data.length ≤ storeFile.room storeType) {i : Nat}
    (hi : i < otherFile.room otherType) :
    (d.put storeFile storeType offset data).byte otherFile otherType i =
      d.byte.store storeFile storeType offset data otherFile otherType i := by
  unfold Device.byte Memory.store
  by_cases hsame : otherFile = storeFile ∧ otherType = storeType
  · obtain ⟨rfl, rfl⟩ := hsame
    rw [put_bytes hfits, ByteFile.getD_write]
    simp only [true_and, Nat.add_assoc, Nat.add_le_add_iff_left,
      Nat.add_lt_add_iff_left, Nat.add_sub_add_left]
  · rw [if_neg fun h => hsame ⟨h.1, h.2.1⟩]
    have hapart : Apart storeFile storeType otherFile otherType := by
      refine ⟨hknown, hother, ?_⟩
      rcases Decidable.not_and_iff_or_not.mp hsame with hfile | htype
      · exact Or.inr (Ne.symm hfile)
      · exact Or.inl (Ne.symm htype)
    by_cases hflash : storeType = .flash ∧ otherType = .flash
    · obtain ⟨rfl, rfl⟩ := hflash
      have hne : storeFile ≠ otherFile := by
        rcases hapart.2.2 with hne | hne
        · exact absurd rfl hne
        · exact hne
      rw [put_file hfits, ByteFile.getD_write, if_neg]
      simp only [BoatStoreFile.origin]
      rcases flash_order hne with horder | horder
      · omega
      · omega
    · rw [put_bytes_apart hapart (Decidable.not_and_iff_or_not.mp hflash)]

/-- A store to a region leaves what the other regions show. -/
theorem store_apart {fill : Memory}
    (hne : otherFile ≠ storeFile ∨ otherType ≠ storeType) (i : Nat) :
    fill.store storeFile storeType offset data otherFile otherType i =
      fill otherFile otherType i := by
  rw [Memory.store, if_neg]
  rintro ⟨rfl, rfl, _⟩
  rcases hne with hne | hne
  · exact hne rfl
  · exact hne rfl

/-- The step of a run: the call is lawful, and the device shows what was stored
last after it. -/
theorem call_lawful (hshows : d.Shows memory) (hwraps : ¬call.Wraps) :
    CallLawful memory d call (call.step d).1 (call.step d).2 ∧
      (call.step d).2.Shows (memory.after call (call.step d).1) := by
  by_cases hinside : call.Inside
  · obtain ⟨hknown, hpos, hfits⟩ := hinside
    cases call with
    | store storeFile offset data storeType =>
        change storeType ≠ .unknown at hknown
        change offset.toNat + data.1.length ≤ storeFile.room storeType at hfits
        have hne : data.1 ≠ [] := List.ne_nil_of_length_pos hpos
        have hstore := (store_runs d data.1 hknown hne hfits).spared.run
        have hrun : (NvramCall.store storeFile offset data storeType).run
            ⟨d, none⟩ =
              .ok [] ⟨d.put storeFile storeType offset.toNat data.1, none⟩ :=
          run_bind_ok hstore
        have hstep : (NvramCall.store storeFile offset data storeType).step d =
            (.ok [], d.put storeFile storeType offset.toNat data.1) := by
          rw [NvramCall.step, hrun]
        rw [hstep]
        refine ⟨⟨?_, ?_, fun houtside => absurd ⟨hknown, hpos, hfits⟩
          houtside⟩, ?_⟩
        · intro _ _ _ _ _ hcall
          cases hcall
        · intro otherFile otherType i hother hne hi
          exact (byte_put hknown hother hfits hi).trans (store_apart hne i)
        · intro otherFile otherType i hother hi
          refine (byte_put hknown hother hfits hi).trans ?_
          change d.byte.store storeFile storeType offset.toNat data.1 otherFile
            otherType i = memory.store storeFile storeType offset.toNat data.1
              otherFile otherType i
          unfold Memory.store
          rw [hshows otherFile otherType i hother hi]
    | read storeFile offset lenToRead storeType =>
        change storeType ≠ .unknown at hknown
        change 0 < lenToRead.toNat at hpos
        change offset.toNat + lenToRead.toNat ≤ storeFile.room storeType at hfits
        have hread := (read_runs (d := d) hknown hpos hfits).spared.run
        have hstep : (NvramCall.read storeFile offset lenToRead
            storeType).step d =
              (d.look storeFile offset.toNat lenToRead.toNat storeType, d) := by
          rw [NvramCall.step, NvramCall.run, hread]
          cases d.look storeFile offset.toNat lenToRead.toNat storeType <;> rfl
        rw [hstep]
        refine ⟨⟨?_, fun _ _ _ _ _ _ => rfl, fun houtside =>
          absurd ⟨hknown, hpos, hfits⟩ houtside⟩, hshows⟩
        intro _ _ _ _ bytes hcall hbytes
        cases hcall
        rw [ByteFile.read_eq_map (read_of_look hknown hbytes)]
        apply List.map_congr_left
        intro k hk
        have hlt := List.mem_range.mp hk
        rw [← hshows storeFile storeType _ hknown (by omega), Device.byte,
          Nat.add_assoc]
  · obtain ⟨code, hrun⟩ := refused_of_outside (d := d) hwraps hinside
    have hstep : call.step d = (.error (.code code), d) := by
      rw [NvramCall.step, hrun]
    rw [hstep]
    refine ⟨⟨fun _ _ _ _ _ _ hok => (by cases hok), fun _ _ _ _ _ _ => rfl,
      fun _ => ⟨⟨code, rfl⟩, rfl⟩⟩, ?_⟩
    cases call with
    | store _ _ _ _ => exact hshows
    | read _ _ _ _ => exact hshows

theorem run_lawful (hshows : d.Shows memory) (calls : List NvramCall)
    (hwraps : ∀ call ∈ calls, ¬call.Wraps) : RunLawful memory d calls := by
  induction calls generalizing memory d with
  | nil => exact trivial
  | cons call rest ih =>
      obtain ⟨hlawful, hafter⟩ := call_lawful hshows
        (hwraps call List.mem_cons_self)
      exact ⟨hlawful, ih hafter fun other hother =>
        hwraps other (List.mem_cons_of_mem call hother)⟩

/-- Any run of calls that do not wrap is lawful. -/
theorem nvramStore_lawful (d : Device) (calls : List NvramCall)
    (hwraps : ∀ call ∈ calls, ¬call.Wraps) : RunLawful d.byte d calls :=
  run_lawful (fun _ _ _ _ _ => rfl) calls hwraps

/-- A store behind a gap and a read over it. -/
theorem nvramStore_lawful_gap :
    RunLawful blankDevice.byte blankDevice
      [.store .prikey 2 ⟨[7], by decide⟩ .flash, .read .prikey 0 3 .flash] := by
  generalize blankDevice = d
  exact nvramStore_lawful d _ (by decide)

/-- A store of network data whose place in the file wraps to its beginning
changes a keypair byte. -/
theorem nvramStore_wraps :
    ¬RunLawful blankDevice.byte blankDevice
      [.store .network 4294965824 ⟨[1], by decide⟩ .flash] := by
  have hbefore : blankDevice.byte .keypair .flash 0 = 0 := by decide +kernel
  have hafter : ((NvramCall.store .network 4294965824 ⟨[1], by decide⟩
      .flash).step blankDevice).2.byte .keypair .flash 0 = 1 := by
    decide +kernel
  revert hbefore hafter
  generalize blankDevice = d
  rintro hbefore hafter ⟨hlawful, _⟩
  have hsame := hlawful.apart .keypair .flash 0 (by decide)
    (Or.inl (by decide)) (by decide)
  rw [hafter, hbefore] at hsame
  exact absurd hsame (by decide)

end BoatFramework
