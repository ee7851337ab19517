/-
The record of one keypair, written and read: the length that is announced, the
bytes that are written, and what is read back wherever they lie.  Nothing is
written for an empty name, not even its length.
-/
import BoatFramework.Keypair.KeypairRuns

namespace BoatFramework

open Fuse

variable {ctx : BoatKeypairPriKeyCtx}

/-- What writing and reading owe to each other. -/
structure RecordRoundTrip (ctx : BoatKeypairPriKeyCtx) (data : List UInt8) :
    Prop where
  written : boatKeypairGetDataCtxData ctx (boatKeypairGetDataCtxLen ctx) =
    .ok data
  announced : data.length = boatKeypairGetDataCtxLen ctx
  read : ∀ (d : Device) (storeType : BoatStoreType) (offset : Nat)
      (rest : List UInt8), storeType ≠ .unknown →
    d.Holds .keypair storeType offset (data ++ rest) →
    boatKeypairGetKeypairFromNvram offset storeType ⟨d, none⟩ =
      .ok (.complete ctx data.length) ⟨d, none⟩

/-- A record that lies in a region is read, whatever follows it. -/
theorem getKeypairFromNvram_record {d : Device} {storeType : BoatStoreType}
    {offset : Nat} {rest : List UInt8} (hnamed : ctx.keypairName.bytes ≠ [])
    (hknown : storeType ≠ .unknown)
    (hholds : d.Holds .keypair storeType offset (ctx.record ++ rest)) :
    boatKeypairGetKeypairFromNvram offset storeType ⟨d, none⟩ =
      .ok (.complete ctx ctx.record.length) ⟨d, none⟩ := by
  have hrecord : d.Holds .keypair storeType offset (keypairBytes [ctx]) := by
    rw [keypairBytes, List.map_singleton, List.flatten_singleton]
    exact (holds_append.mp hholds).1
  exact (getKeypairFromNvram_spared
    (keypairReads hrecord hknown hnamed)).run

/-- A record is written only below `2 ^ 31` bytes. -/
theorem getDataCtxData_eq_ok {size : Nat} {data : List UInt8}
    (hwritten : boatKeypairGetDataCtxData ctx size = .ok data) :
    data = addLWithOffset (addedValues ctx) ∧ data.length < 2 ^ 31 := by
  rw [getDataCtxData_eq] at hwritten
  split at hwritten
  · cases hwritten
  · split at hwritten
    · cases hwritten
    next hshort =>
      obtain rfl := Except.ok.inj hwritten
      exact ⟨rfl, Nat.lt_of_not_le hshort⟩

/-- A name that is too long makes a record that is not written. -/
theorem not_written_of_long (hnamed : ctx.keypairName.bytes ≠ [])
    (hlong : 2 ^ 31 ≤ ctx.keypairName.bytes.length + 83)
    {size : Nat} {data : List UInt8} :
    boatKeypairGetDataCtxData ctx size ≠ .ok data := by
  intro hwritten
  obtain ⟨rfl, hshort⟩ := getDataCtxData_eq_ok hwritten
  have hvalues := length_addedValues hnamed
  have hname : utilityGetTLVLLFromLen ctx.keypairName.bytes.length = 3 := by
    rw [utilityGetTLVLLFromLen, if_neg (by omega), if_neg (by omega)]
  have hall : utilityGetTLVLLFromLen (addedValues ctx).length = 3 := by
    rw [utilityGetTLVLLFromLen, if_neg (by omega), if_neg (by omega)]
  rw [length_addL_addedValues hnamed, hall] at hshort
  omega

/-- A record with an empty name is one byte shorter than announced. -/
theorem emptyName_lengths (hempty : ctx.keypairName.bytes = []) :
    (addLWithOffset (addedValues ctx)).length = 78 ∧
      boatKeypairGetDataCtxLen ctx = 79 := by
  have hpubkey := ctx.pubkeyContent.2
  have hkey : ctx.pubkeyContent.1 ≠ [] := by
    intro hnil
    rw [hnil] at hpubkey
    cases hpubkey
  have hfour (n : UInt32) : (addLWithOffset (enumBytes n)).length = 5 := rfl
  have hvalues : (addedValues ctx).length = 77 := by
    simp only [addedValues, List.length_append, hempty, hfour]
    rw [length_addL hkey, hpubkey]
    rfl
  have hne : addedValues ctx ≠ [] := by
    intro hnil
    rw [hnil, List.length_nil] at hvalues
    omega
  constructor
  · rw [length_addL hne, hvalues]
    rfl
  · rw [boatKeypairGetDataCtxLen, hempty]
    rfl

/-- A keypair is written with the announced length and read back exactly where
its name is not empty and its record is below `2 ^ 31` bytes. -/
theorem keypairRecord_roundTrip_iff (ctx : BoatKeypairPriKeyCtx) :
    (∃ data, RecordRoundTrip ctx data) ↔
      ctx.keypairName.bytes ≠ [] ∧
        ctx.keypairName.bytes.length + 83 < 2 ^ 31 := by
  constructor
  · rintro ⟨data, hwritten, hannounced, -⟩
    have hnamed : ctx.keypairName.bytes ≠ [] := by
      intro hempty
      obtain ⟨hlength, hlen⟩ := emptyName_lengths hempty
      obtain ⟨rfl, -⟩ := getDataCtxData_eq_ok hwritten
      omega
    refine ⟨hnamed, ?_⟩
    by_contra hlong
    exact not_written_of_long hnamed (Nat.le_of_not_lt hlong) hwritten
  · rintro ⟨hnamed, hshort⟩
    have hsize := getDataCtxLen_eq hnamed (by omega)
    have hvalues := length_addedValues hnamed
    have hlength := length_addL_addedValues hnamed
    have hname := utilityGetTLVLLFromLen_le ctx.keypairName.bytes.length
    have hall := utilityGetTLVLLFromLen_le (addedValues ctx).length
    refine ⟨addLWithOffset (addedValues ctx), ?_, hsize.symm, ?_⟩
    · rw [getDataCtxData_eq, hsize, if_neg (Nat.lt_irrefl _),
        if_neg (by omega)]
    · intro d storeType offset rest hknown hholds
      have hroom := hholds.length_lt (by decide)
      rw [List.length_append] at hroom
      have hrecord : addLWithOffset (addedValues ctx) = ctx.record := by
        refine addL_keypair hnamed ?_
        have hupper := ctx.length_record.2
        omega
      rw [hrecord] at hholds ⊢
      exact getKeypairFromNvram_record hnamed hknown hholds

section Sample

/-- A keypair with an empty name. -/
def unnamedKeypair : BoatKeypairPriKeyCtx :=
  ⟨1, ⟨[], List.not_mem_nil⟩, boatKeypairPrikeyFormatNative,
    boatKeypairPrikeyTypeSecp256k1,
    ⟨List.replicate 64 7, List.length_replicate⟩⟩

/-- One byte less is written than was announced. -/
theorem not_keypairRecord_roundTrip :
    ¬∃ data, RecordRoundTrip unnamedKeypair data := by
  have hempty : unnamedKeypair.keypairName.bytes = [] := rfl
  obtain ⟨hlength, hlen⟩ := emptyName_lengths hempty
  rintro ⟨data, hwritten, hannounced, -⟩
  obtain ⟨rfl, -⟩ := getDataCtxData_eq_ok hwritten
  rw [hlength, hlen] at hannounced
  cases hannounced

end Sample

end BoatFramework
