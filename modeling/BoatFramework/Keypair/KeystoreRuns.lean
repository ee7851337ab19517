/-
The private-key routines on a well-formed store: where they stop, what they
leave behind, and how many operations that takes.
-/
import BoatFramework.Keypair.Keystore
import BoatFramework.Storage.ScanRuns

namespace BoatFramework

open Fuse

variable {crypto : Crypto} {d : Device} {storeType : BoatStoreType}
  {offset : Nat} {index : UInt8} {prikey : PrikeyRecord}
  {prikeys front back : List PrikeyRecord}

/-- The bytes of private-key records, one after the other. -/
abbrev prikeyBytes (prikeys : List PrikeyRecord) : List UInt8 :=
  (prikeys.map PrikeyRecord.record).flatten

theorem prikeyBytes_cons :
    prikeyBytes (prikey :: prikeys) =
      [1] ++ ([prikey.index] ++
        (LengthValue.encode prikey.ciphertext ++ prikeyBytes prikeys)) := by
  have hindex : LengthValue.encode [prikey.index] = [1, prikey.index] := rfl
  rw [prikeyBytes, List.map_cons, List.flatten_cons, PrikeyRecord.record,
    hindex]
  rfl

/-- The reads inside a record that lies at an offset. -/
structure PrikeyReads (d : Device) (storeType : BoatStoreType) (offset : Nat)
    (prikey : PrikeyRecord) (prikeys : List PrikeyRecord) : Prop where
  indexLength : Reads (readLength .prikey offset storeType) d storeType.cost
    (.ok 1)
  index : Reads (readByte .prikey (advance offset 1) storeType) d
    storeType.cost (.ok prikey.index)
  dataLength : Reads (readLength .prikey (advance offset 2) storeType) d
    storeType.cost (.ok prikey.ciphertext.length)
  next : advance (advance offset 2)
      (utilityGetTLVLLFromLen prikey.ciphertext.length +
        prikey.ciphertext.length) = offset + prikey.record.length
  tail : d.Holds .prikey storeType (offset + prikey.record.length)
    (prikeyBytes prikeys)

theorem llOfCiphertext (prikey : PrikeyRecord) :
    utilityGetTLVLLFromLen prikey.ciphertext.length = 1 := by
  have hsized := prikey.sized
  rw [utilityGetTLVLLFromLen, if_pos (by omega)]

theorem prikeyReads
    (hholds : d.Holds .prikey storeType offset
      (prikeyBytes (prikey :: prikeys)))
    (hknown : storeType ≠ .unknown) :
    PrikeyReads d storeType offset prikey prikeys := by
  have hsized := prikey.sized
  have hrecord := prikey.length_record
  have hlt := hholds.length_lt (by decide)
  rw [prikeyBytes_cons] at hholds hlt
  obtain ⟨_, hbyte⟩ := holds_append.mp hholds
  obtain ⟨_, hdata⟩ := holds_append.mp hbyte
  obtain ⟨_, htail⟩ := holds_append.mp hdata
  have hindex : LengthValue.encode [prikey.index] = [1, prikey.index] := rfl
  have hwhole : d.Holds .prikey storeType offset
      (LengthValue.encode [prikey.index] ++
        (LengthValue.encode prikey.ciphertext ++ prikeyBytes prikeys)) :=
    hholds
  have hheader := llOfCiphertext prikey
  rw [utilityGetTLVLLFromLen_eq] at hheader
  have htwo : advance offset 2 = offset + 2 := advance_of_lt (by
    have := hholds.length_lt (by decide)
    omega)
  simp only [List.length_append, List.length_singleton,
    LengthValue.length_encode] at hlt hbyte hdata htail
  refine ⟨?_, ?_, ?_, ?_, ?_⟩
  · refine readKeyLength_runs hwhole (by decide) hknown ?_
    rw [hindex]
    simp only [List.length_append, List.length_cons, List.length_nil,
      LengthValue.length_encode]
    omega
  · rw [advance_of_lt (by omega)]
    exact readByte_runs hbyte hknown
  · rw [htwo]
    refine readKeyLength_runs hdata (by decide) hknown ?_
    simp only [List.length_append, LengthValue.length_encode]
    omega
  · rw [utilityGetTLVLLFromLen_eq, hheader, htwo, advance_of_lt (by omega),
      hrecord]
    omega
  · rw [hrecord]
    have hend : offset + 1 + 1 + ((LengthValue.header
        prikey.ciphertext.length).length + prikey.ciphertext.length) =
          offset + (3 + prikey.ciphertext.length) := by
      omega
    rw [hend] at htail
    exact htail

variable (prikey prikeys) in
theorem length_prikeyBytes_cons :
    (prikeyBytes (prikey :: prikeys)).length =
      prikey.record.length + (prikeyBytes prikeys).length := by
  rw [prikeyBytes, List.map_cons, List.flatten_cons, List.length_append]

/-- Private keys of other indices are skipped. -/
theorem skipPrikeys_runs
    (hholds : prikeys ≠ [] →
      d.Holds .prikey storeType offset (prikeyBytes prikeys))
    (hknown : storeType ≠ .unknown)
    (habsent : ∀ prikey ∈ prikeys, prikey.index ≠ index) :
    Reads (skipPrikeys index storeType prikeys.length offset) d
      (prikeys.length * (3 * storeType.cost))
      (.ok (offset + (prikeyBytes prikeys).length)) := by
  induction prikeys generalizing offset with
  | nil => exact Runs.pure.cast (Nat.zero_mul _).symm
  | cons head tail ih =>
      have hreads := prikeyReads (hholds (by simp)) hknown
      have htail := ih (fun _ => hreads.tail) fun prikey hprikey =>
        habsent prikey (List.mem_cons_of_mem head hprikey)
      rw [← hreads.next] at htail
      have hhead := habsent head List.mem_cons_self
      have hops : storeType.cost + (storeType.cost + (storeType.cost +
          tail.length * (3 * storeType.cost))) =
            (head :: tail).length * (3 * storeType.cost) := by
        rw [List.length_cons, Nat.succ_mul tail.length]
        omega
      rw [length_prikeyBytes_cons, ← Nat.add_assoc, ← hreads.next, ← hops]
      refine hreads.indexLength.bind (Runs.pass (by decide) ?_)
      refine hreads.index.bind (Runs.pass hhead ?_)
      exact hreads.dataLength.bind htail

/-- A private key of the index itself ends the scan. -/
theorem skipPrikeys_duplicate
    (hholds : d.Holds .prikey storeType offset
      (prikeyBytes (front ++ prikey :: back)))
    (hknown : storeType ≠ .unknown)
    (habsent : ∀ other ∈ front, other.index ≠ prikey.index) :
    Reads (skipPrikeys prikey.index storeType (front ++ prikey :: back).length
        offset) d
      (front.length * (3 * storeType.cost) + 2 * storeType.cost)
      (.error (.code boatError)) := by
  induction front generalizing offset with
  | nil =>
      have hreads := prikeyReads hholds hknown
      have hops : storeType.cost + (storeType.cost + 0) =
          ([] : List PrikeyRecord).length * (3 * storeType.cost) +
            2 * storeType.cost := by
        rw [List.length_nil]
        omega
      rw [← hops]
      refine hreads.indexLength.bind (Runs.pass (by decide) ?_)
      exact hreads.index.bind (Runs.stop rfl)
  | cons head tail ih =>
      have hreads := prikeyReads hholds hknown
      have htail := ih hreads.tail fun prikey hprikey =>
        habsent prikey (List.mem_cons_of_mem head hprikey)
      rw [← hreads.next] at htail
      have hhead := habsent head List.mem_cons_self
      have hops : storeType.cost + (storeType.cost + (storeType.cost +
          (tail.length * (3 * storeType.cost) + 2 * storeType.cost))) =
            (head :: tail).length * (3 * storeType.cost) +
              2 * storeType.cost := by
        rw [List.length_cons, Nat.succ_mul tail.length]
        omega
      rw [← hops]
      refine hreads.indexLength.bind (Runs.pass (by decide) ?_)
      refine hreads.index.bind (Runs.pass hhead ?_)
      exact hreads.dataLength.bind htail

theorem findPrikey_absent
    (hholds : prikeys ≠ [] →
      d.Holds .prikey .flash offset (prikeyBytes prikeys))
    (habsent : ∀ prikey ∈ prikeys, prikey.index ≠ index) :
    Reads (findPrikey index prikeys.length offset) d (3 * prikeys.length)
      (.ok none) := by
  induction prikeys generalizing offset with
  | nil => exact Runs.pure
  | cons head tail ih =>
      have hreads := prikeyReads (hholds (by simp)) (by decide)
      have htail := ih (fun _ => hreads.tail) fun prikey hprikey =>
        habsent prikey (List.mem_cons_of_mem head hprikey)
      rw [← hreads.next] at htail
      have hhead := habsent head List.mem_cons_self
      refine Runs.cast (a := 1 + (1 + (1 + 3 * tail.length))) ?_ (by
        rw [List.length_cons]
        omega)
      refine hreads.indexLength.bind (Runs.pass (by decide) ?_)
      refine hreads.index.bind ?_
      rw [if_neg hhead]
      exact hreads.dataLength.bind htail

theorem findPrikey_found
    (hholds : d.Holds .prikey .flash offset
      (prikeyBytes (front ++ prikey :: back)))
    (habsent : ∀ other ∈ front, other.index ≠ prikey.index) :
    Reads (findPrikey prikey.index (front ++ prikey :: back).length offset) d
      (3 * front.length + 2)
      (.ok (some ⟨back.length, offset + (prikeyBytes front).length,
        advance (offset + (prikeyBytes front).length) 2⟩)) := by
  induction front generalizing offset with
  | nil =>
      have hreads := prikeyReads hholds (by decide)
      refine Runs.cast (a := 1 + 1) ?_ rfl
      refine hreads.indexLength.bind (Runs.pass (by decide) ?_)
      refine hreads.index.map ?_
      rw [if_pos rfl]
      rfl
  | cons head tail ih =>
      have hreads := prikeyReads hholds (by decide)
      have htail := ih hreads.tail fun prikey hprikey =>
        habsent prikey (List.mem_cons_of_mem head hprikey)
      rw [← hreads.next] at htail
      have hhead := habsent head List.mem_cons_self
      rw [length_prikeyBytes_cons, ← Nat.add_assoc, ← hreads.next]
      refine Runs.cast (a := 1 + (1 + (1 + (3 * tail.length + 2)))) ?_ (by
        rw [List.length_cons]
        omega)
      refine hreads.indexLength.bind (Runs.pass (by decide) ?_)
      refine hreads.index.bind ?_
      rw [if_neg hhead]
      exact hreads.dataLength.bind htail

/-- The records that are measured end within the room. -/
theorem prikeysLength_runs
    (hholds : d.Holds .prikey .flash offset (prikeyBytes prikeys)) :
    Reads (prikeysLength prikeys.length offset) d (2 * prikeys.length)
      (.ok (prikeyBytes prikeys).length) := by
  induction prikeys generalizing offset with
  | nil => exact Runs.pure
  | cons head tail ih =>
      have hlt := hholds.length_lt (by decide)
      have hreads := prikeyReads hholds (by decide)
      have htail := ih hreads.tail
      rw [← hreads.next] at htail
      have hrecord := head.length_record
      have hsum : buint32 (utilityGetTLVLLFromLen 1 + 1 +
          (utilityGetTLVLLFromLen head.ciphertext.length +
            head.ciphertext.length) + (prikeyBytes tail).length) =
          (prikeyBytes (head :: tail)).length := by
        have hone : utilityGetTLVLLFromLen 1 = 1 := rfl
        rw [length_prikeyBytes_cons] at hlt ⊢
        rw [llOfCiphertext, hone, buint32_of_lt (by omega)]
        omega
      refine Runs.cast (a := 1 + (1 + 2 * tail.length)) ?_ (by
        rw [List.length_cons]
        omega)
      refine hreads.indexLength.bind ?_
      refine hreads.dataLength.bind ?_
      refine htail.map ?_
      rw [hsum]

theorem prikeysBehind_runs
    (hholds : d.Holds .prikey .flash offset (prikeyBytes (prikey :: back))) :
    Reads (prikeysBehind ⟨back.length, offset, advance offset 2⟩) d
      (1 + 2 * back.length)
      (.ok (offset + prikey.record.length, (prikeyBytes back).length)) := by
  have hreads := prikeyReads hholds (by decide)
  have hlength := prikeysLength_runs hreads.tail
  rw [← hreads.next] at hlength ⊢
  refine hreads.dataLength.bind ?_
  exact hlength.map rfl

/-- A region of private keys. -/
abbrev Device.HoldsPrikeys (d : Device) (storeType : BoatStoreType)
    (prikeys : List PrikeyRecord) : Prop :=
  d.Region .prikey storeType (prikeys.map PrikeyRecord.record)

theorem Device.Region.prikeyBody (hheld : d.HoldsPrikeys storeType prikeys)
    (hne : prikeys ≠ []) :
    d.Holds .prikey storeType 4 (prikeyBytes prikeys) :=
  hheld.body fun hnil => hne (List.map_eq_nil_iff.mp hnil)

/-- Four records leave room for a fifth. -/
theorem length_prikeyBytes_le (prikeys : List PrikeyRecord) :
    (prikeyBytes prikeys).length ≤ 99 * prikeys.length := by
  induction prikeys with
  | nil => exact Nat.le_refl 0
  | cons head tail ih =>
      have hrecord := head.length_record
      have hsized := head.sized
      rw [length_prikeyBytes_cons, List.length_cons]
      omega

/-- A ciphertext that is stored has the size of a record's. -/
theorem encryptPrikey_sized {salt : Bytes 16} {key chip : List UInt8}
    (hchip : encryptPrikey crypto salt key = .ok chip) :
    boatSoftRotNvramEnc crypto salt key = .ok chip ∧
      2 ≤ chip.length ∧ chip.length ≤ 96 := by
  unfold encryptPrikey at hchip
  split at hchip
  next => cases hchip
  next => cases hchip
  next other henc =>
    split at hchip
    next => cases hchip
    next =>
      split at hchip
      next => cases hchip
      next hfits =>
        obtain rfl := Except.ok.inj hchip
        obtain ⟨hpos, hlen⟩ := length_boatSoftRotNvramEnc crypto henc
        have hbounds := encryptedLen_bounds hpos
        have hmax : boatKeystorePrikeyLen = 97 := rfl
        exact ⟨henc, by omega, by omega⟩

/-- A key of one to 47 bytes can be stored. -/
theorem encryptPrikey_ok (crypto : Crypto) (salt : Bytes 16)
    {key : List UInt8} (hpos : 0 < key.length) (hlen : key.length ≤ 47) :
    ∃ chip, encryptPrikey crypto salt key = .ok chip := by
  have henc : ∃ chip, boatSoftRotNvramEnc crypto salt key = .ok chip :=
    ⟨_, boatSoftRotNvramEnc_eq crypto hpos (by omega)⟩
  obtain ⟨chip, henc⟩ := henc
  have hchip := (length_boatSoftRotNvramEnc crypto henc).2
  have hbounds : encryptedLen key.length ≤ 48 := by
    unfold encryptedLen boatRoundup
    split <;> omega
  refine ⟨chip, ?_⟩
  have hmax : boatKeystorePrikeyLen = 97 := rfl
  unfold encryptPrikey
  simp only [henc]
  rw [if_neg (by omega), if_neg (by omega)]

theorem addL_prikey (prikey : PrikeyRecord) :
    addLWithOffset [prikey.index] ++ addLWithOffset prikey.ciphertext =
      prikey.record := by
  have hsized := prikey.sized
  have hne : prikey.ciphertext ≠ [] := by
    intro hnil
    rw [hnil, List.length_nil] at hsized
    omega
  rw [addLWithOffset_eq_encode (by simp) (by simp),
    addLWithOffset_eq_encode hne (by omega), PrikeyRecord.record]

section Append

variable {salt : Bytes 16} {key : List UInt8}
  (hbody : prikeys ≠ [] → d.Holds .prikey storeType 4 (prikeyBytes prikeys))
  (hknown : storeType ≠ .unknown)
  (habsent : ∀ other ∈ prikeys, other.index ≠ index)

include hbody hknown habsent

theorem appendPrikey_runs (hindex : prikey.index = index)
    (hchip : encryptPrikey crypto salt key = .ok prikey.ciphertext)
    (hfits : 4 + (prikeyBytes prikeys).length + prikey.record.length ≤
      BoatStoreFile.prikey.room storeType) :
    Runs Failure.Coded (fun t => t = d ∨
        t = d.put .prikey storeType (4 + (prikeyBytes prikeys).length)
          prikey.record)
      (appendPrikey crypto salt index key storeType prikeys.length) d
      (prikeys.length * (3 * storeType.cost) + 2 * storeType.cost) (.ok ())
      (d.appendRecord .prikey storeType (prikeys.map PrikeyRecord.record)
        prikey.record) := by
  subst hindex
  have hskip := skipPrikeys_runs hbody hknown habsent
  have hne : prikey.record ≠ [] := by
    intro hnil
    have hlen := prikey.length_record
    rw [hnil, List.length_nil] at hlen
    omega
  have hwrite := writeRecord_runs (d := d) hknown hne hfits
  unfold appendPrikey
  refine (hskip.mono fun t ht => Or.inl ht).bind ?_
  refine ofOutcome_bind hchip ?_
  rw [addL_prikey]
  have hlen : prikeys.length = (prikeys.map PrikeyRecord.record).length :=
    (List.length_map _).symm
  rw [hlen]
  exact hwrite

theorem appendPrikey_refused {failure : Failure}
    (hchip : encryptPrikey crypto salt key = .error failure) :
    Reads (appendPrikey crypto salt index key storeType prikeys.length)
      d (prikeys.length * (3 * storeType.cost)) (.error failure) := by
  have hskip := skipPrikeys_runs hbody hknown habsent
  exact (hskip.bind (ofOutcome_error hchip)).cast (Nat.add_zero _)

end Append

variable (crypto) in
/-- A private key of the index ends the append before anything is written. -/
theorem appendPrikey_duplicate (salt : Bytes 16) (key : List UInt8)
    (hbody : d.Holds .prikey storeType 4
      (prikeyBytes (front ++ prikey :: back)))
    (hknown : storeType ≠ .unknown)
    (habsent : ∀ other ∈ front, other.index ≠ prikey.index) :
    Reads (appendPrikey crypto salt prikey.index key storeType
        (front ++ prikey :: back).length) d
      (front.length * (3 * storeType.cost) + 2 * storeType.cost)
      (.error (.code boatError)) :=
  (skipPrikeys_duplicate hbody hknown habsent).bind_error

section Delete

variable (hheld : d.HoldsPrikeys .flash (front ++ prikey :: back))
  (habsent : ∀ other ∈ front, other.index ≠ prikey.index)
  (hcount : (front ++ prikey :: back).length < 0x100)

/-- The operations of a delete up to its lower count, and behind it. -/
def deletePrikeyOps (front : List PrikeyRecord) : Nat :=
  1 + ((3 * front.length + 2) + 1)

def movePrikeysOps (back : List PrikeyRecord) : Nat :=
  if back = [] then 1 else 1 + 2 * back.length + 3

/-- The device without the private key. -/
def Device.withoutPrikey (d : Device) (front back : List PrikeyRecord) :
    Device :=
  (d.lowerCount .prikey (front.map PrikeyRecord.record)
    (back.map PrikeyRecord.record)).closeGap .prikey
      (4 + (prikeyBytes front).length) (back.map PrikeyRecord.record)

/-- The device after the count was lowered and written back. -/
def Device.prikeysRecounted (d : Device) (front : List PrikeyRecord)
    (prikey : PrikeyRecord) (back : List PrikeyRecord) : Device :=
  (d.lowerCount .prikey (front.map PrikeyRecord.record)
    (back.map PrikeyRecord.record)).put .prikey .flash 0
      (utilityGetNumBytes (front ++ prikey :: back).length)

/-- Where the scan finds the private key. -/
def prikeyPlace (front back : List PrikeyRecord) : Place :=
  ⟨back.length, 4 + (prikeyBytes front).length,
    advance (4 + (prikeyBytes front).length) 2⟩

variable (d front prikey back) in
theorem lowerPrikeyCount :
    Runs Failure.Coded (· = d)
      (boatStoreSoftRotNvram .prikey 0
        (utilityGetNumBytes ((front ++ prikey :: back).length - 1)) .flash) d 1
      (.ok ()) (d.lowerCount .prikey (front.map PrikeyRecord.record)
        (back.map PrikeyRecord.record)) := by
  have hlen : (front ++ prikey :: back).length - 1 =
      (front.map PrikeyRecord.record ++
        back.map PrikeyRecord.record).length := by
    simp only [List.length_append, List.length_cons, List.length_map]
    omega
  rw [hlen]
  exact store_runs _ _ (by decide) (by simp [utilityGetNumBytes])
    (BoatStoreFile.four_le_room .prikey .flash)

include hheld

theorem withoutPrikey_region :
    (d.withoutPrikey front back).HoldsPrikeys .flash (front ++ back) := by
  have hthree : 3 ≤ prikey.record.length := by
    have hlen := prikey.length_record
    omega
  rw [Device.HoldsPrikeys, List.map_append, List.map_cons] at hheld
  rw [Device.HoldsPrikeys, List.map_append]
  exact hheld.closeGap hthree

theorem prikeysRecounted_region :
    (d.prikeysRecounted front prikey back).HoldsPrikeys .flash
      (front ++ prikey :: back) := by
  have hlen : (front ++ prikey :: back).length =
      (front.map PrikeyRecord.record ++
        prikey.record :: back.map PrikeyRecord.record).length := by
    simp
  rw [Device.HoldsPrikeys, List.map_append, List.map_cons] at hheld ⊢
  rw [Device.prikeysRecounted, hlen]
  exact hheld.restoreCount

/-- Behind the lower count the private key is taken out. -/
theorem takePrikey_runs :
    Runs Failure.Coded
      (· = d.lowerCount .prikey (front.map PrikeyRecord.record)
        (back.map PrikeyRecord.record))
      (removeRecord .prikey (prikeyPlace front back)
        (prikeysBehind (prikeyPlace front back)))
      (d.lowerCount .prikey (front.map PrikeyRecord.record)
        (back.map PrikeyRecord.record)) (movePrikeysOps back) (.ok ())
      (d.withoutPrikey front back) := by
  have hthree : 3 ≤ prikey.record.length := by
    have hlen := prikey.length_record
    omega
  rw [Device.HoldsPrikeys, List.map_append, List.map_cons] at hheld
  have hbody := hheld.lowerCount_body
  have hfits := gap_fits hbody hthree
  obtain ⟨_, hplace⟩ := holds_append.mp hbody
  have hseek : back.map PrikeyRecord.record ≠ [] →
      Reads (prikeysBehind (prikeyPlace front back))
        (d.lowerCount .prikey (front.map PrikeyRecord.record)
          (back.map PrikeyRecord.record)) (1 + 2 * back.length)
        (.ok (4 + (prikeyBytes front).length + prikey.record.length,
          (back.map PrikeyRecord.record).flatten.length)) ∧
      (d.lowerCount .prikey (front.map PrikeyRecord.record)
          (back.map PrikeyRecord.record)).Holds .prikey .flash
        (4 + (prikeyBytes front).length + prikey.record.length)
        (back.map PrikeyRecord.record).flatten ∧
      (back.map PrikeyRecord.record).flatten ≠ [] := by
    intro hne
    refine ⟨prikeysBehind_runs hplace, (holds_append.mp hplace).2, ?_⟩
    cases back with
    | nil => exact absurd rfl hne
    | cons head tail =>
        intro hnil
        have hlen := head.length_record
        have hflat := congrArg List.length hnil
        rw [List.length_nil] at hflat
        have hcons := length_prikeyBytes_cons head tail
        rw [prikeyBytes, hflat] at hcons
        omega
  have hbehind : (prikeyPlace front back).behind =
      (back.map PrikeyRecord.record).length := (List.length_map _).symm
  have hremove := removeRecord_runs _ hbehind hseek hfits
  have hops : (if back.map PrikeyRecord.record = [] then 1
      else 1 + 2 * back.length + 3) = movePrikeysOps back := by
    unfold movePrikeysOps
    simp only [List.map_eq_nil_iff]
  rw [hops] at hremove
  exact hremove

theorem removePrikey_spared :
    Spared (removePrikey (front ++ prikey :: back).length
        (prikeyPlace front back))
      (d.lowerCount .prikey (front.map PrikeyRecord.record)
        (back.map PrikeyRecord.record)) (movePrikeysOps back) (.ok ())
      (d.withoutPrikey front back) :=
  (call_ok (takePrikey_runs hheld).spared).map rfl

/-- A fault there brings the count back, and the call succeeds. -/
theorem removePrikey_swallowed {k : Nat} (hk : k < movePrikeysOps back) :
    removePrikey (front ++ prikey :: back).length (prikeyPlace front back)
        ⟨d.lowerCount .prikey (front.map PrikeyRecord.record)
          (back.map PrikeyRecord.record), some k⟩ =
      .ok () ⟨d.prikeysRecounted front prikey back, none⟩ := by
  obtain ⟨e, t, ⟨code, rfl⟩, rfl, hrun⟩ := (takePrikey_runs hheld).burnt k hk
  have hcount := store_runs
    (d.lowerCount .prikey (front.map PrikeyRecord.record)
      (back.map PrikeyRecord.record))
    (utilityGetNumBytes (front ++ prikey :: back).length) (by decide)
    (by simp [utilityGetNumBytes]) (BoatStoreFile.four_le_room .prikey .flash)
  unfold removePrikey
  exact (run_bind_ok (attemptCall_error hrun)).trans hcount.spared.run


theorem readPrikeyCount :
    Reads (boatReadSoftRotNvram .prikey 0 4 .flash) d 1
      (.ok (utilityGetNumBytes (front ++ prikey :: back).length)) := by
  have hholds := hheld.holds (by simp)
  have hread := readCount_held _ hholds (by decide)
  rw [List.length_map] at hread
  exact hread

include habsent hcount

theorem deletePirkey_spared (hindex : prikey.index ≠ 0)
    (hmax : prikey.index.toNat ≤ 5) :
    Spared (boatDeletePirkeyByIndex prikey.index) d
      (deletePrikeyOps front + movePrikeysOps back) (.ok ())
      (d.withoutPrikey front back) := by
  have hfind := findPrikey_found (hheld.prikeyBody (by simp)) habsent
  have hmaxNum : ¬boatMaxKeypairNum < prikey.index.toNat := Nat.not_lt.mpr hmax
  have hne : (front ++ prikey :: back).length ≠ 0 := by simp
  refine Spared.cast (a := 1 + ((3 * front.length + 2) +
    (1 + movePrikeysOps back))) ?_ (by rw [deletePrikeyOps]; omega)
  unfold boatDeletePirkeyByIndex
  refine Spared.pass hmaxNum ?_
  rw [if_neg hindex]
  refine (readPrikeyCount hheld).spared.bind ?_
  simp only [utilityCheckNumBytes_get hcount]
  rw [if_neg hne]
  refine hfind.spared.bind ?_
  refine (lowerPrikeyCount _ _ _ _).spared.bind ?_
  exact removePrikey_spared hheld

/-- A fault before the count is lowered, or on lowering it, is an error. -/
theorem deletePirkey_burnt (hindex : prikey.index ≠ 0)
    (hmax : prikey.index.toNat ≤ 5) :
    Burnt Failure.Coded (· = d) (boatDeletePirkeyByIndex prikey.index) d
      (deletePrikeyOps front) := by
  have hfind := findPrikey_found (hheld.prikeyBody (by simp)) habsent
  have hmaxNum : ¬boatMaxKeypairNum < prikey.index.toNat := Nat.not_lt.mpr hmax
  have hne : (front ++ prikey :: back).length ≠ 0 := by simp
  unfold boatDeletePirkeyByIndex deletePrikeyOps
  refine Burnt.pass hmaxNum ?_
  rw [if_neg hindex]
  refine Burnt.bind (readPrikeyCount hheld) ?_
  simp only [utilityCheckNumBytes_get hcount]
  rw [if_neg hne]
  refine Burnt.bind hfind ?_
  exact (lowerPrikeyCount _ _ _ _).burnt.bind_left

/-- A fault behind that is not reported. -/
theorem deletePirkey_swallowed (hindex : prikey.index ≠ 0)
    (hmax : prikey.index.toNat ≤ 5) {k : Nat} (hk : k < movePrikeysOps back) :
    boatDeletePirkeyByIndex prikey.index
        ⟨d, some (deletePrikeyOps front + k)⟩ =
      .ok () ⟨d.prikeysRecounted front prikey back, none⟩ := by
  have hfind := findPrikey_found (hheld.prikeyBody (by simp)) habsent
  have hmaxNum : ¬boatMaxKeypairNum < prikey.index.toNat := Nat.not_lt.mpr hmax
  have hne : (front ++ prikey :: back).length ≠ 0 := by simp
  have hfuse (a b : Nat) : spend (some (a + b)) a = some b := by
    simp [spend]
  have hspares (a b : Nat) : Spares (some (a + b)) a :=
    spares_some.mpr (Nat.le_add_right a b)
  have hcountRun := (readPrikeyCount hheld).spared _
    (hspares 1 ((3 * front.length + 2) + (1 + k)))
  have hfindRun := hfind.spared _ (hspares (3 * front.length + 2) (1 + k))
  have hlowerRun := (lowerPrikeyCount d prikey front back).spared _ (hspares 1 k)
  rw [hfuse] at hcountRun hfindRun hlowerRun
  have hops : deletePrikeyOps front + k =
      1 + ((3 * front.length + 2) + (1 + k)) := by
    rw [deletePrikeyOps]
    omega
  have hpass : (failIf (boatMaxKeypairNum < prikey.index.toNat)
      (.code boatError) : Nvram Unit) ⟨d, some (deletePrikeyOps front + k)⟩ =
        .ok () ⟨d, some (1 + ((3 * front.length + 2) + (1 + k)))⟩ := by
    rw [failIf, if_neg hmaxNum, ← hops]
    rfl
  unfold boatDeletePirkeyByIndex
  rw [run_bind_ok hpass, if_neg hindex, run_bind_ok hcountRun]
  simp only [utilityCheckNumBytes_get hcount]
  rw [if_neg hne, run_bind_ok hfindRun]
  refine (run_bind_ok hlowerRun).trans ?_
  exact removePrikey_swallowed hheld hk

end Delete

/-- Without a private key of the index a delete reads only. -/
theorem deletePirkey_absent (hheld : d.HoldsPrikeys .flash prikeys)
    (habsent : ∀ other ∈ prikeys, other.index ≠ index)
    (hcount : prikeys.length < 0x100) (hindex : index ≠ 0) :
    ∃ ops r, Reads (boatDeletePirkeyByIndex index) d ops r ∧
      r ≠ .error .undefined := by
  by_cases hmax : boatMaxKeypairNum < index.toNat
  · exact ⟨0, _, Runs.stop hmax, by simp⟩
  · have hread := readCount_runs d .prikey .flash (by decide)
    rcases hheld.look_count (by decide) with hlook | ⟨_, ⟨code, hlook⟩ |
      ⟨header, hlook, hcheck⟩⟩
    · rw [hlook, List.length_map] at hread
      by_cases hnil : prikeys = []
      · subst hnil
        refine ⟨1, .ok (), Runs.pass hmax ?_, by simp⟩
        rw [if_neg hindex]
        exact hread.map rfl
      · have hne : prikeys.length ≠ 0 := fun hzero =>
          hnil (List.eq_nil_of_length_eq_zero hzero)
        have hfind := findPrikey_absent (fun h => hheld.prikeyBody h) habsent
        refine ⟨1 + (3 * prikeys.length + 0), .error (.code boatError),
          Runs.pass hmax ?_, by simp⟩
        rw [if_neg hindex]
        refine hread.bind ?_
        simp only [utilityCheckNumBytes_get hcount]
        rw [if_neg hne]
        exact hfind.bind Runs.throw
    · rw [hlook] at hread
      refine ⟨1, .error (.code code), Runs.pass hmax ?_, by simp⟩
      rw [if_neg hindex]
      exact hread.bind_error
    · rw [hlook] at hread
      refine ⟨1 + 0, .error (.code boatError), Runs.pass hmax ?_, by simp⟩
      rw [if_neg hindex]
      refine hread.bind ?_
      simp only [hcheck]
      exact Runs.throw

/-- In a store that is counted to be empty there is nothing to delete. -/
theorem deletePirkey_empty
    (hholds : d.Holds .prikey .flash 0 (utilityGetNumBytes 0))
    (hindex : index ≠ 0) (hmax : index.toNat ≤ 5) :
    Spared (boatDeletePirkeyByIndex index) d 1 (.ok ()) d := by
  have hmaxNum : ¬boatMaxKeypairNum < index.toNat := Nat.not_lt.mpr hmax
  have hread := readCount_held []
    (by rw [List.append_nil]; exact hholds) (by decide)
  unfold boatDeletePirkeyByIndex
  refine Spared.pass hmaxNum ?_
  rw [if_neg hindex]
  refine hread.spared.map ?_
  rfl

/-- The steps of the scan that decrypts over one record. -/
structure DecryptSteps (d : Device) (storeType : BoatStoreType) (offset : Nat)
    (prikey : PrikeyRecord) : Prop where
  dataLength : Reads (readLength .prikey (advance (advance offset 1) 1)
    storeType) d storeType.cost (.ok prikey.ciphertext.length)
  data : Reads (boatReadSoftRotNvram .prikey
    (advance (advance (advance offset 1) 1)
      (utilityGetTLVLLFromLen prikey.ciphertext.length))
    prikey.ciphertext.length storeType) d storeType.cost (.ok prikey.ciphertext)
  next : advance (advance (advance (advance offset 1) 1)
    (utilityGetTLVLLFromLen prikey.ciphertext.length))
      prikey.ciphertext.length = offset + prikey.record.length

theorem decryptSteps
    (hholds : d.Holds .prikey storeType offset
      (prikeyBytes (prikey :: prikeys)))
    (hknown : storeType ≠ .unknown) :
    DecryptSteps d storeType offset prikey := by
  have hreads := prikeyReads hholds hknown
  have hlt := hholds.length_lt (by decide)
  have hsized := prikey.sized
  have hrecord := prikey.length_record
  rw [length_prikeyBytes_cons] at hlt
  have hfirst : advance offset 1 = offset + 1 := advance_of_lt (by omega)
  have htwo : advance offset 2 = offset + 2 := advance_of_lt (by omega)
  have hone : advance (advance offset 1) 1 = advance offset 2 := by
    rw [hfirst, htwo, advance_of_lt (by omega)]
  have hthree : advance (offset + 2) 1 = offset + 3 :=
    advance_of_lt (by omega)
  have hciphertext : d.Holds .prikey storeType (offset + 3)
      (prikey.ciphertext ++ prikeyBytes prikeys) := by
    have hheader := llOfCiphertext prikey
    rw [utilityGetTLVLLFromLen_eq] at hheader
    rw [prikeyBytes_cons] at hholds
    obtain ⟨_, hbyte⟩ := holds_append.mp hholds
    obtain ⟨_, hdata⟩ := holds_append.mp hbyte
    rw [LengthValue.encode, List.append_assoc] at hdata
    obtain ⟨_, htext⟩ := holds_append.mp hdata
    rw [hheader] at htext
    exact htext
  refine ⟨?_, ?_, ?_⟩
  · rw [hone]
    exact hreads.dataLength
  · rw [hone, htwo, llOfCiphertext, hthree]
    have hread := hciphertext.read hknown (by omega)
      (by rw [List.length_append]; omega : prikey.ciphertext.length ≤ _)
    rwa [List.take_left] at hread
  · rw [hone, htwo, llOfCiphertext, hthree, advance_of_lt (by omega), hrecord]
    omega

/-- The private key of the first record of an index is decrypted. -/
theorem decryptPrikeyAt_found {key : List UInt8}
    (hholds : d.Holds .prikey storeType offset
      (prikeyBytes (front ++ prikey :: back)))
    (hknown : storeType ≠ .unknown)
    (habsent : ∀ other ∈ front, other.index ≠ prikey.index)
    (hopens : boatSoftRotNvramDec crypto (prikey.ciphertext ++ List.replicate
      (boatKeystorePrikeyLen - prikey.ciphertext.length) 0)
        prikey.ciphertext.length = .ok key) :
    ∃ ops, Reads (decryptPrikeyAt crypto prikey.index storeType
      (front ++ prikey :: back).length offset) d ops (.ok key) := by
  induction front generalizing offset with
  | nil =>
      have hreads := prikeyReads hholds hknown
      have hsteps := decryptSteps hholds hknown
      have hsized := prikey.sized
      have hmax : boatKeystorePrikeyLen = 97 := rfl
      refine ⟨storeType.cost + (storeType.cost + (storeType.cost +
        storeType.cost)), ?_⟩
      refine hreads.indexLength.bind (Runs.pass (by decide) ?_)
      refine hreads.index.bind ?_
      refine hsteps.dataLength.bind ?_
      rw [if_pos rfl]
      refine Runs.pass (by omega) ?_
      refine hsteps.data.map ?_
      rw [hopens]
      rfl
  | cons head tail ih =>
      have hreads := prikeyReads hholds hknown
      have hsteps := decryptSteps hholds hknown
      obtain ⟨ops, htail⟩ := ih hreads.tail fun other hother =>
        habsent other (List.mem_cons_of_mem head hother)
      have hhead := habsent head List.mem_cons_self
      have hsized := head.sized
      rw [← hsteps.next] at htail
      refine ⟨storeType.cost + (storeType.cost + (storeType.cost + ops)), ?_⟩
      refine hreads.indexLength.bind (Runs.pass (by decide) ?_)
      refine hreads.index.bind ?_
      refine hsteps.dataLength.bind ?_
      rw [if_neg hhead]
      exact Runs.pass (by omega) htail

end BoatFramework
