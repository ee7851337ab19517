/-
A region of the storage as a list of records behind its four count bytes.  A
region that was never written holds no record.
-/
import BoatFramework.Storage.Access

namespace BoatFramework

open Fuse

variable {α : Type} {d : Device} {storeFile otherFile : BoatStoreFile}
  {storeType otherType : BoatStoreType} {records : List (List UInt8)}
  {offset : Nat} {data : List UInt8}

/-- The records of a region, read one by one as its count says. -/
def Device.readRecords (read : List UInt8 → Option (α × List UInt8)) (d : Device)
    (storeFile : BoatStoreFile) (storeType : BoatStoreType) :
    Option (List α) :=
  match ByteFile.read (d.bytes storeFile storeType)
      (storeFile.origin storeType) 4 with
  | none => some []
  | some header =>
      match utilityCheckNumBytes header with
      | .error _ => some []
      | .ok num =>
          (LengthValue.readMany read num
            (((d.bytes storeFile storeType).drop
              (storeFile.origin storeType + 4)).take
                (storeFile.room storeType - 4))).map Prod.fst

/-- A region that holds these records. -/
def Device.Region (d : Device) (storeFile : BoatStoreFile)
    (storeType : BoatStoreType) (records : List (List UInt8)) : Prop :=
  (records = [] ∧ d.Unset storeFile storeType) ∨
    d.Holds storeFile storeType 0
      (utilityGetNumBytes records.length ++ records.flatten)

theorem BoatStoreFile.four_le_room (storeFile : BoatStoreFile)
    (storeType : BoatStoreType) : 4 ≤ storeFile.room storeType := by
  cases storeFile <;> cases storeType <;> decide

theorem Device.Region.holds (hregion : d.Region storeFile storeType records)
    (hne : records ≠ []) :
    d.Holds storeFile storeType 0
      (utilityGetNumBytes records.length ++ records.flatten) := by
  rcases hregion with ⟨hnil, _⟩ | hholds
  · exact absurd hnil hne
  · exact hholds

/-- The records of a region that has some lie behind its count. -/
theorem Device.Region.body (hregion : d.Region storeFile storeType records)
    (hne : records ≠ []) :
    d.Holds storeFile storeType 4 records.flatten :=
  (holds_append.mp (hregion.holds hne)).2

theorem Device.Region.length_le
    (hregion : d.Region storeFile storeType records) :
    4 + records.flatten.length ≤ storeFile.room storeType := by
  rcases hregion with ⟨rfl, _⟩ | hholds
  · exact storeFile.four_le_room storeType
  · have hroom := hholds.2
    rw [List.length_append, length_utilityGetNumBytes] at hroom
    omega

/-- Records behind a count that is written make a region. -/
theorem region_put_count
    (hbody : d.Holds storeFile storeType 4 records.flatten) :
    (d.put storeFile storeType 0 (utilityGetNumBytes records.length)).Region
      storeFile storeType records := by
  have hfits : 0 + (utilityGetNumBytes records.length).length ≤
      storeFile.room storeType := storeFile.four_le_room storeType
  right
  rw [holds_append]
  exact ⟨holds_put hfits, hbody.put_after hfits (Nat.le_refl _)⟩

/-- A write behind the records leaves the region. -/
theorem Device.Region.put_behind
    (hregion : d.Region storeFile storeType records)
    (hfits : offset + data.length ≤ storeFile.room storeType)
    (hbehind : 4 + records.flatten.length ≤ offset) :
    (d.put storeFile storeType offset data).Region storeFile storeType
      records := by
  rcases hregion with ⟨rfl, hunset⟩ | hholds
  · exact Or.inl ⟨rfl, hunset.put hfits (by omega)⟩
  · refine Or.inr (hholds.put_before hfits ?_)
    rw [List.length_append, length_utilityGetNumBytes]
    omega

theorem Device.Region.put_apart
    (hregion : d.Region otherFile otherType records)
    (hapart : Apart storeFile storeType otherFile otherType)
    (hfits : offset + data.length ≤ storeFile.room storeType) :
    (d.put storeFile storeType offset data).Region otherFile otherType
      records := by
  rcases hregion with ⟨rfl, hunset⟩ | hholds
  · exact Or.inl ⟨rfl, hunset.put_apart hapart hfits⟩
  · exact Or.inr (hholds.put_apart hapart hfits)

/-- The count bytes as a program finds them: the number of records, or, for no
record, perhaps none. -/
theorem Device.Region.look_count
    (hregion : d.Region storeFile storeType records)
    (hknown : storeType ≠ .unknown) :
    d.look storeFile 0 4 storeType = .ok (utilityGetNumBytes records.length) ∨
      records = [] ∧
        ((∃ code, d.look storeFile 0 4 storeType = .error (.code code)) ∨
          ∃ header, d.look storeFile 0 4 storeType = .ok header ∧
            utilityCheckNumBytes header = .error boatError) := by
  rcases hregion with ⟨rfl, hunset⟩ | hholds
  · exact Or.inr ⟨rfl, hunset.look hknown⟩
  · have hcount := (holds_append.mp hholds).1
    exact Or.inl (look_of_read hcount.1.read (by decide))

/-- Behind a count so many records are read. -/
theorem readRecords_of_holds {body : List UInt8} {num : Nat}
    (read : List UInt8 → Option (α × List UInt8))
    (hholds : d.Holds storeFile storeType 0 (utilityGetNumBytes num ++ body))
    (hcount : num < 0x100) :
    ∃ rest, d.readRecords read storeFile storeType =
      (LengthValue.readMany read num (body ++ rest)).map Prod.fst := by
  unfold Device.readRecords
  have hheader := (holds_append.mp hholds).1
  have hreadHeader := hheader.1.read
  rw [length_utilityGetNumBytes, Nat.add_zero] at hreadHeader
  simp only [hreadHeader, utilityCheckNumBytes_get hcount]
  obtain ⟨⟨front, back, hbytes, hfront⟩, hroom⟩ := hholds
  rw [List.length_append, length_utilityGetNumBytes] at hroom
  rw [Nat.add_zero] at hfront
  have hdrop : (d.bytes storeFile storeType).drop
      (storeFile.origin storeType + 4) = body ++ back := by
    rw [hbytes, ← hfront, ← List.drop_drop, List.drop_left, List.append_assoc]
    rfl
  rw [hdrop, List.take_append, List.take_of_length_le (by omega)]
  exact ⟨_, rfl⟩

/-- The records of a region are read back. -/
theorem Device.Region.readRecords_eq {read : List UInt8 → Option (α × List UInt8)}
    {write : α → List UInt8} {items : List α}
    (hregion : d.Region storeFile storeType (items.map write))
    (hcount : items.length < 0x100)
    (hread : ∀ item ∈ items, ∀ rest,
      read (write item ++ rest) = some (item, rest)) :
    d.readRecords read storeFile storeType = some items := by
  rcases hregion with ⟨hnil, hunset⟩ | hholds
  · unfold Device.readRecords
    obtain rfl : items = [] := List.map_eq_nil_iff.mp hnil
    rcases hunset with hshort | ⟨header, hlen, hcheck, hat⟩
    · have hmissing : ByteFile.read (d.bytes storeFile storeType)
          (storeFile.origin storeType) 4 = none :=
        if_neg (by omega)
      simp only [hmissing]
    · have hreadHeader := hat.read
      rw [hlen] at hreadHeader
      simp only [hreadHeader, hcheck]
  · rw [List.length_map] at hholds
    obtain ⟨rest, hrecords⟩ := readRecords_of_holds read hholds hcount
    rw [hrecords, LengthValue.readMany_flatten items _ hread]
    rfl

end BoatFramework
