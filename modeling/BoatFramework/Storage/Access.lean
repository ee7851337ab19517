/-
What an access to the storage does to content that lies in it: a read inside it
gives it back, a write leaves what lies elsewhere.
-/
import BoatFramework.Storage.Nvram

namespace BoatFramework

open Fuse

variable {d : Device} {storeFile otherFile : BoatStoreFile}
  {storeType otherType : BoatStoreType} {offset start len : Nat}
  {content data left right : List UInt8}

/-- The failures that end a call with a result code. -/
def Failure.Coded (failure : Failure) : Prop :=
  ∃ result, failure = .code result

/-- A program that leaves the device as it is. -/
abbrev Reads {α : Type} (c : Nvram α) (d : Device) (ops : Nat)
    (r : Except Failure α) : Prop :=
  Runs Failure.Coded (· = d) c d ops r d

/-- Content that lies at an offset of the data of a kind. -/
def Device.Holds (d : Device) (storeFile : BoatStoreFile)
    (storeType : BoatStoreType) (offset : Nat) (content : List UInt8) : Prop :=
  ByteFile.At (d.bytes storeFile storeType)
      (storeFile.origin storeType + offset) content ∧
    offset + content.length ≤ storeFile.room storeType

theorem holds_append :
    d.Holds storeFile storeType offset (left ++ right) ↔
      d.Holds storeFile storeType offset left ∧
        d.Holds storeFile storeType (offset + left.length) right := by
  unfold Device.Holds
  rw [ByteFile.at_append, List.length_append, Nat.add_assoc]
  constructor
  · rintro ⟨⟨hleft, hright⟩, hroom⟩
    exact ⟨⟨hleft, by omega⟩, hright, by omega⟩
  · rintro ⟨⟨hleft, _⟩, hright, hroom⟩
    exact ⟨⟨hleft, hright⟩, by omega⟩

theorem BoatStoreFile.room_lt (storeFile : BoatStoreFile)
    (storeType : BoatStoreType) :
    storeFile.offset + storeFile.room storeType < 2 ^ 32 := by
  cases storeFile <;> cases storeType <;> decide

/-- The room for keys is small. -/
theorem BoatStoreFile.keyRoom_lt (hkeys : storeFile ≠ .network)
    (storeType : BoatStoreType) : storeFile.room storeType < 1000 := by
  revert hkeys
  cases storeFile <;> cases storeType <;> decide

/-- An access inside the room passes the bounds of the calls. -/
theorem room_bounds (hfits : offset + len ≤ storeFile.room storeType) :
    ¬storeFile.maxLen < buint32 (offset + len) ∧
      buint32 (storeFile.offset + offset) = storeFile.offset + offset := by
  have hmax := storeFile.room_le storeType
  have hroom := storeFile.room_lt storeType
  rw [buint32_of_lt (by omega), buint32_of_lt (by omega)]
  exact ⟨by omega, rfl⟩

theorem file_bounds (hfits : offset + len ≤ storeFile.room storeType) :
    storeFile.offset + offset + len < 2 ^ 32 := by
  have hroom := storeFile.room_lt storeType
  omega

theorem rambuf_bounds (hflash : storeType ≠ .flash)
    (hfits : offset + len ≤ storeFile.room storeType) :
    offset + len ≤ storeFile.rambufLen ∧
      ¬storeFile.rambufLen < buint32 (offset + len) := by
  have hroom := storeFile.room_lt storeType
  have hram : storeFile.room storeType ≤ storeFile.rambufLen := by
    cases storeType
    · exact Nat.min_le_right _ _
    · exact Nat.min_le_right _ _
    · exact absurd rfl hflash
  rw [buint32_of_lt (by omega)]
  omega

/-- What a read in bounds gives. -/
def Device.look (d : Device) (storeFile : BoatStoreFile) (offset len : Nat) :
    BoatStoreType → Outcome (List UInt8)
  | .flash => d.readFile (storeFile.offset + offset) len
  | _ => d.readRam storeFile offset len

theorem read_runs (hknown : storeType ≠ .unknown) (hpos : 0 < len)
    (hfits : offset + len ≤ storeFile.room storeType) :
    Reads (boatReadSoftRotNvram storeFile offset len storeType) d
      storeType.cost (d.look storeFile offset len storeType) := by
  obtain ⟨hmax, hbase⟩ := room_bounds hfits
  have hargs : ¬(len = 0 ∨ storeType = .unknown) := by
    simp [hknown]
    omega
  unfold boatReadSoftRotNvram
  refine Runs.pass hmax (Runs.pass hargs ?_)
  cases storeType with
  | unknown => exact absurd rfl hknown
  | flash =>
      simp only [boatReadStorage, hbase]
      refine Runs.bind (a := 1) (b := 0) (Runs.tick ?_ rfl) ?_
      · exact ⟨_, rfl⟩
      · exact Runs.inspect rfl
  | ram =>
      obtain ⟨_, hram⟩ := rambuf_bounds (by decide) hfits
      exact Runs.pass hram (Runs.inspect rfl)

theorem look_of_read {bytes : List UInt8}
    (hread : ByteFile.read (d.bytes storeFile storeType)
      (storeFile.origin storeType + offset) len = some bytes) (hpos : 0 < len) :
    d.look storeFile offset len storeType = .ok bytes := by
  cases storeType with
  | flash =>
      change d.readFile (storeFile.offset + offset) len = _
      unfold Device.readFile
      change ByteFile.read d.file.1 (storeFile.offset + offset) len = _
        at hread
      rw [Device.file] at hread
      cases hflash : d.flash with
      | none =>
          have hle := (ByteFile.at_of_read hread).1.length_le
          have hlen := (ByteFile.at_of_read hread).2
          rw [hflash, Option.getD_none, List.length_nil] at hle
          omega
      | some file =>
          rw [hflash, Option.getD_some] at hread
          simp only [hread]
  | unknown | ram =>
      have hbytes : ByteFile.read (d.bytes storeFile .ram) offset len =
          some bytes := by
        cases storeFile <;> simpa [BoatStoreFile.origin, Device.bytes] using hread
      change d.readRam storeFile offset len = _
      rw [Device.readRam, hbytes]

theorem read_of_look {bytes : List UInt8} (hknown : storeType ≠ .unknown)
    (hlook : d.look storeFile offset len storeType = .ok bytes) :
    ByteFile.read (d.bytes storeFile storeType)
      (storeFile.origin storeType + offset) len = some bytes := by
  cases storeType with
  | unknown => exact absurd rfl hknown
  | ram =>
      change d.readRam storeFile offset len = _ at hlook
      change ByteFile.read (d.bytes storeFile .ram) (0 + offset) len = _
      rw [Device.readRam] at hlook
      rw [Nat.zero_add]
      split at hlook
      next hread =>
        obtain rfl := Except.ok.inj hlook
        exact hread
      next => cases hlook
  | flash =>
      change d.readFile (storeFile.offset + offset) len = _ at hlook
      change ByteFile.read d.file.1 (storeFile.offset + offset) len = _
      rw [Device.readFile] at hlook
      rw [Device.file]
      split at hlook
      next => cases hlook
      next hflash =>
        split at hlook
        next hread =>
          obtain rfl := Except.ok.inj hlook
          rw [hflash]
          exact hread
        next => cases hlook

/-- A read inside content gives the content. -/
theorem Device.Holds.read (hholds : d.Holds storeFile storeType offset content)
    (hknown : storeType ≠ .unknown) (hpos : 0 < len)
    (hlen : len ≤ content.length) :
    Reads (boatReadSoftRotNvram storeFile offset len storeType) d
      storeType.cost (.ok (content.take len)) := by
  have hroom := hholds.2
  rw [← look_of_read (hholds.1.read_take hlen) hpos]
  exact read_runs hknown hpos (by omega)

variable (d data) in
theorem store_runs (hknown : storeType ≠ .unknown) (hne : data ≠ [])
    (hfits : offset + data.length ≤ storeFile.room storeType) :
    Runs Failure.Coded (· = d)
      (boatStoreSoftRotNvram storeFile offset data storeType) d
      storeType.cost (.ok ()) (d.put storeFile storeType offset data) := by
  obtain ⟨hmax, hbase⟩ := room_bounds hfits
  have hargs : ¬(data.length = 0 ∨ storeType = .unknown) := by
    simp [hknown, hne]
  unfold boatStoreSoftRotNvram
  refine Runs.pass hmax (Runs.pass hargs ?_)
  cases storeType with
  | unknown => exact absurd rfl hknown
  | flash =>
      simp only [hbase]
      unfold boatWriteStorage
      refine Runs.bind (a := 1) (b := 0) (Runs.tick ?_ rfl) ?_
      · exact ⟨_, rfl⟩
      · exact Runs.pass (Nat.not_le.mpr (file_bounds hfits)) Runs.update
  | ram =>
      obtain ⟨hblock, hram⟩ := rambuf_bounds (by decide) hfits
      exact Runs.pass hram (Runs.pass (by omega) Runs.update)

/-- Data that does not fit is refused before anything is written. -/
theorem store_runs_too_long (hlong : storeFile.maxLen < offset + data.length)
    (hwidth : offset + data.length < 2 ^ 32) :
    Reads (boatStoreSoftRotNvram storeFile offset data storeType) d 0
      (.error (.code boatErrorCommonOutOfMemory)) := by
  unfold boatStoreSoftRotNvram
  refine Runs.stop ?_
  rw [buint32_of_lt hwidth]
  exact hlong

theorem FileBytes.write_val {file : FileBytes}
    (hfits : offset + data.length < 2 ^ 32) :
    (file.write offset data).1 = ByteFile.write file.1 offset data := by
  rw [FileBytes.write, dif_pos hfits]

/-- Any write to the file, whatever kind of data it is for. -/
theorem put_file (hfits : offset + data.length ≤ storeFile.room .flash) :
    (d.put storeFile .flash offset data).bytes otherFile .flash =
      ByteFile.write (d.bytes otherFile .flash) (storeFile.offset + offset)
        data :=
  FileBytes.write_val (file_bounds hfits)

theorem put_bytes (hfits : offset + data.length ≤ storeFile.room storeType) :
    (d.put storeFile storeType offset data).bytes storeFile storeType =
      ByteFile.write (d.bytes storeFile storeType)
        (storeFile.origin storeType + offset) data := by
  have hram : storeType ≠ .flash → offset + data.length ≤ storeFile.rambufLen :=
    fun hflash => (rambuf_bounds hflash hfits).1
  cases storeType with
  | flash => exact put_file hfits
  | unknown | ram =>
      have hblock := hram (by decide)
      change _ = ByteFile.write _ (0 + offset) data
      rw [Nat.zero_add]
      cases storeFile
      · exact Bytes.write_val hblock
      · exact Bytes.write_val hblock
      · exact Bytes.write_val hblock

theorem holds_put (hfits : offset + data.length ≤ storeFile.room storeType) :
    (d.put storeFile storeType offset data).Holds storeFile storeType offset
      data := by
  refine ⟨?_, hfits⟩
  rw [put_bytes hfits]
  exact ByteFile.at_write

theorem Device.Holds.put_before
    (hholds : d.Holds storeFile storeType start content)
    (hfits : offset + data.length ≤ storeFile.room storeType)
    (hbefore : start + content.length ≤ offset) :
    (d.put storeFile storeType offset data).Holds storeFile storeType start
      content := by
  refine ⟨?_, hholds.2⟩
  rw [put_bytes hfits]
  exact hholds.1.write_before (by omega)

theorem Device.Holds.put_after
    (hholds : d.Holds storeFile storeType start content)
    (hfits : offset + data.length ≤ storeFile.room storeType)
    (hafter : offset + data.length ≤ start) :
    (d.put storeFile storeType offset data).Holds storeFile storeType start
      content := by
  refine ⟨?_, hholds.2⟩
  rw [put_bytes hfits]
  exact hholds.1.write_after (by omega)

/-- Two kinds of data that do not share a place. -/
def Apart (storeFile : BoatStoreFile) (storeType : BoatStoreType)
    (otherFile : BoatStoreFile) (otherType : BoatStoreType) : Prop :=
  storeType ≠ .unknown ∧ otherType ≠ .unknown ∧
    (storeType ≠ otherType ∨ storeFile ≠ otherFile)

instance : Decidable (Apart storeFile storeType otherFile otherType) :=
  inferInstanceAs (Decidable (_ ∧ _ ∧ _))

/-- Only the file holds the data of two kinds. -/
theorem put_bytes_apart
    (hapart : Apart storeFile storeType otherFile otherType)
    (hram : storeType ≠ .flash ∨ otherType ≠ .flash) :
    (d.put storeFile storeType offset data).bytes otherFile otherType =
      d.bytes otherFile otherType := by
  obtain ⟨hknown, hother, hne⟩ := hapart
  cases storeType <;> cases otherType <;> cases storeFile <;>
    cases otherFile <;> simp_all [Device.put, Device.bytes, Device.file]

/-- The data of one kind ends in the file before that of the other begins. -/
theorem flash_order (hne : storeFile ≠ otherFile) :
    storeFile.offset + storeFile.room .flash ≤ otherFile.offset ∨
      otherFile.offset + otherFile.room .flash + 4 ≤ storeFile.offset := by
  revert hne
  cases storeFile <;> cases otherFile <;> decide

theorem Device.Holds.put_apart
    (hholds : d.Holds otherFile otherType start content)
    (hapart : Apart storeFile storeType otherFile otherType)
    (hfits : offset + data.length ≤ storeFile.room storeType) :
    (d.put storeFile storeType offset data).Holds otherFile otherType start
      content := by
  refine ⟨?_, hholds.2⟩
  by_cases hflash : storeType = .flash ∧ otherType = .flash
  · obtain ⟨rfl, rfl⟩ := hflash
    have hne : storeFile ≠ otherFile := by
      rcases hapart.2.2 with hne | hne
      · exact absurd rfl hne
      · exact hne
    have hroom := hholds.2
    rw [put_file hfits]
    rcases flash_order hne with horder | horder
    · exact hholds.1.write_after (by simp only [BoatStoreFile.origin]; omega)
    · exact hholds.1.write_before (by simp only [BoatStoreFile.origin]; omega)
  · rw [put_bytes_apart hapart (by
      rcases Decidable.not_and_iff_or_not.mp hflash with hst | hst
      · exact Or.inl hst
      · exact Or.inr hst)]
    exact hholds.1

/-- Bytes without a count at an origin: they end before it, or what stands
there is none. -/
def Blank (file : List UInt8) (origin : Nat) : Prop :=
  file.length ≤ origin ∨
    ∃ header, header.length = 4 ∧
      utilityCheckNumBytes header = .error boatError ∧
      ByteFile.At file origin header

/-- Data of a kind that was never written. -/
def Device.Unset (d : Device) (storeFile : BoatStoreFile)
    (storeType : BoatStoreType) : Prop :=
  Blank (d.bytes storeFile storeType) (storeFile.origin storeType)

theorem Blank.write_above {file : List UInt8} {origin : Nat}
    (hblank : Blank file origin) (habove : origin + 4 ≤ offset) :
    Blank (ByteFile.write file offset data) origin := by
  rcases hblank with hshort | ⟨header, hlen, hcheck, hat⟩
  · exact Or.inr ⟨List.replicate 4 0, rfl, rfl,
      ByteFile.at_write_zeros hshort habove⟩
  · exact Or.inr ⟨header, hlen, hcheck, hat.write_before (by omega)⟩

theorem Blank.write_below {file : List UInt8} {origin : Nat}
    (hblank : Blank file origin) (hbelow : offset + data.length ≤ origin) :
    Blank (ByteFile.write file offset data) origin := by
  rcases hblank with hshort | ⟨header, hlen, hcheck, hat⟩
  · exact Or.inl (by rw [ByteFile.length_write]; omega)
  · exact Or.inr ⟨header, hlen, hcheck, hat.write_after hbelow⟩

/-- A write behind the count does not set it. -/
theorem Device.Unset.put (hunset : d.Unset storeFile storeType)
    (hfits : offset + data.length ≤ storeFile.room storeType)
    (hbehind : 4 ≤ offset) :
    (d.put storeFile storeType offset data).Unset storeFile storeType := by
  rw [Device.Unset, put_bytes hfits]
  exact Blank.write_above hunset (by omega)

theorem Device.Unset.put_apart (hunset : d.Unset otherFile otherType)
    (hapart : Apart storeFile storeType otherFile otherType)
    (hfits : offset + data.length ≤ storeFile.room storeType) :
    (d.put storeFile storeType offset data).Unset otherFile otherType := by
  by_cases hflash : storeType = .flash ∧ otherType = .flash
  · obtain ⟨rfl, rfl⟩ := hflash
    have hne : storeFile ≠ otherFile := by
      rcases hapart.2.2 with hne | hne
      · exact absurd rfl hne
      · exact hne
    rw [Device.Unset, put_file hfits]
    change Blank _ otherFile.offset at hunset
    change Blank _ otherFile.offset
    rcases flash_order hne with horder | horder
    · exact Blank.write_below hunset (by omega)
    · exact Blank.write_above hunset (by omega)
  · rw [Device.Unset, put_bytes_apart hapart]
    · exact hunset
    · exact Decidable.not_and_iff_or_not.mp hflash

theorem Device.length_bytes_ram (d : Device) (storeFile : BoatStoreFile) :
    (d.bytes storeFile .ram).length = storeFile.rambufLen := by
  cases storeFile
  · exact d.ramBoatData.2
  · exact d.ramBoatNetworkData.2
  · exact d.ramBoatPrikeyData.2

/-- The count bytes of data that was never written are missing or are none. -/
theorem Device.Unset.look (hunset : d.Unset storeFile storeType)
    (hknown : storeType ≠ .unknown) :
    (∃ code, d.look storeFile 0 4 storeType = .error (.code code)) ∨
      ∃ header, d.look storeFile 0 4 storeType = .ok header ∧
        utilityCheckNumBytes header = .error boatError := by
  cases hread : ByteFile.read (d.bytes storeFile storeType)
      (storeFile.origin storeType + 0) 4 with
  | some header =>
      obtain ⟨hat, hlen⟩ := ByteFile.at_of_read hread
      refine Or.inr ⟨header, look_of_read hread (by omega), ?_⟩
      rcases hunset with hshort | ⟨other, hother, hcheck, hatOther⟩
      · have hle := hat.length_le
        omega
      · rw [hat.unique hatOther (by omega)]
        exact hcheck
  | none =>
      left
      cases storeType with
      | unknown => exact absurd rfl hknown
      | ram =>
          have hlen := d.length_bytes_ram storeFile
          rw [ByteFile.read, if_pos] at hread
          · cases hread
          · rw [hlen]
            cases storeFile <;> decide
      | flash =>
          change ByteFile.read d.file.1 (storeFile.offset + 0) 4 = _ at hread
          rw [Device.file] at hread
          change ∃ code, d.readFile (storeFile.offset + 0) 4 = _
          unfold Device.readFile
          cases hflash : d.flash with
          | none => exact ⟨_, rfl⟩
          | some file =>
              rw [hflash, Option.getD_some] at hread
              simp only [hread]
              exact ⟨_, rfl⟩

end BoatFramework
