/-
A generated function of `eth2c.py` turns some of its arguments in the memory of
the caller.  Calls one behind the other with the same variables build the right
data in turns.
-/
import BoatFramework.Tools.Eth2cRuns
import Mathlib.Algebra.Ring.Parity

namespace BoatFramework

open SolidityAbi (encodeTuple)

section Again

variable {keccak256 : List UInt8 → Block 32}
  {malloc : Nat → Option (List UInt8)} {name : CString}
  {input : SolidityInput} {inputs : List SolidityInput} {data : List UInt8}

/-- The data of the last of some calls, one behind the other with the same
variables of the caller. -/
def solidityDataAgain (keccak256 : List UInt8 → Block 32)
    (malloc : Nat → Option (List UInt8)) (name : CString) :
    Nat → List SolidityInput → Outcome (List UInt8)
  | 0, inputs => do
      let built ← solidityData keccak256 malloc name inputs
      pure built.1
  | earlier + 1, inputs => do
      let built ← solidityData keccak256 malloc name inputs
      solidityDataAgain keccak256 malloc name earlier built.2

/-- An argument that a call turns in the memory of the caller is the same in
both orders. -/
def SolidityInput.Symmetric : SolidityInput → Prop
  | .fixedSize type value =>
      isValueType type = false → requireEndianChange false type = true →
        value.1.reverse = value.1
  | _ => True

theorem orderedValue_twice (type : FixedSizeType) (value : Bytes type.size) :
    orderedValue false type (orderedValue false type value) = value := by
  unfold orderedValue
  split
  · exact Subtype.ext (List.reverse_reverse _)
  · rfl

/-- A second call turns back what the first one turned. -/
theorem held_involutive : Function.Involutive SolidityInput.held := by
  intro input
  cases input with
  | fixedSize type value =>
      rw [SolidityInput.held, SolidityInput.held]
      congr 1
      split
      · rfl
      · exact orderedValue_twice type value
  | fixedSizeFixedArray type values => rfl
  | fixedSizeNonFixedArray type values => rfl
  | string text => rfl
  | bytes value => rfl
  | nonFixedSizeFixedArray type values => rfl
  | nonFixedSizeNonFixedArray type values => rfl

theorem functionPrototype_held (name : CString) (inputs : List SolidityInput) :
    functionPrototype name (inputs.map SolidityInput.held) =
      functionPrototype name inputs := by
  have htypes : typeList (inputs.map SolidityInput.held) = typeList inputs := by
    rw [typeList, List.map_map, typeList]
    congr 1
    exact List.map_congr_left fun input _ => by cases input <;> rfl
  unfold functionPrototype
  simp only [htypes]

theorem held_part_alike (input : SolidityInput) :
    SolidityAbi.Part.Alike input.held.part input.abiPart := by
  cases input with
  | fixedSize type value =>
      exact .static ((length_signedWord _).trans (length_abiWord value).symm)
  | fixedSizeFixedArray type values => exact SolidityInput.part_alike _
  | fixedSizeNonFixedArray type values => exact SolidityInput.part_alike _
  | string text => exact alike_self _
  | bytes value => exact alike_self _
  | nonFixedSizeFixedArray type values => exact alike_self _
  | nonFixedSizeNonFixedArray type values => exact alike_self _

/-- Arguments as a call leaves them can be built where they could before. -/
theorem Buildable.held (hbuildable : Buildable inputs) :
    Buildable (inputs.map SolidityInput.held) := by
  have hwords : headWords (inputs.map SolidityInput.held) =
      headWords inputs := by
    rw [headWords, List.map_map, headWords]
    congr 1
    exact List.map_congr_left fun input _ => by cases input <;> rfl
  refine ⟨?_, hwords ▸ hbuildable.heads, ?_⟩
  · intro held hheld
    obtain ⟨input, hmem, rfl⟩ := List.mem_map.mp hheld
    have hdeclared := hbuildable.declared input hmem
    cases input <;> exact hdeclared
  · have hsame := length_encodeTuple_parts held_part_alike inputs
    have hparts := length_encodeTuple_parts SolidityInput.part_alike
      (inputs.map SolidityInput.held)
    rw [List.map_map] at hparts
    have hsize := hbuildable.size
    rw [← hsame] at hsize
    rw [← hparts]
    exact hsize

theorem words_reverse {type : FixedSizeType} {value value' : Bytes type.size}
    {fill fill' : UInt8} (hright : isRightAlignedType type = true)
    (hwords : fixedWord fill type value = fixedWord fill' type value') :
    value.1.reverse = value'.1.reverse := by
  rw [fixedWord, fixedWord, if_pos hright, if_pos hright] at hwords
  exact List.append_inj_right hwords (by simp)

/-- The word of a value as a call leaves it. -/
theorem orderedWord_eq_iff {type : FixedSizeType} {value : Bytes type.size} :
    signedWord type (orderedValue false type value) = abiWord type value ↔
      SignKept false type value ∧
        (requireEndianChange false type = true →
          value.1.reverse = value.1) := by
  rw [orderedValue]
  by_cases hturned : requireEndianChange false type = true
  · rw [if_pos hturned]
    have hright : isRightAlignedType type = true := by
      cases type with
      | fixedBytes last => cases hturned
      | address | bool | uint width | int width => rfl
    constructor
    · intro hword
      have hsame := hword
      rw [signedWord, abiWord_eq] at hsame
      have hvalue : reverseValue value = value :=
        Subtype.ext (List.reverse_injective (words_reverse hright hsame))
      rw [hvalue] at hword
      exact ⟨signedWord_eq_iff.mp hword, fun _ => congrArg Subtype.val hvalue⟩
    · rintro ⟨hsigns, hsymmetric⟩
      have hvalue : reverseValue value = value :=
        Subtype.ext (hsymmetric hturned)
      rw [hvalue]
      exact signedWord_eq_iff.mpr hsigns
  · rw [if_neg hturned, signedWord_eq_iff]
    exact (and_iff_left fun hchange => absurd hchange hturned).symm

/-- The part of an argument as a call leaves it. -/
theorem held_part_eq_iff : input.held.part = input.abiPart ↔
    input.SignsKept ∧ input.Symmetric := by
  cases input with
  | fixedSize type value =>
      rw [SolidityInput.held, SolidityInput.part, SolidityInput.abiPart,
        SolidityAbi.Part.static.injEq, SolidityInput.SignsKept,
        SolidityInput.Symmetric]
      cases hdirect : isValueType type with
      | true =>
          rw [if_pos rfl, signedWord_eq_iff]
          exact (and_iff_left fun hpointer =>
            absurd hpointer.symm Bool.false_ne_true).symm
      | false =>
          rw [if_neg Bool.false_ne_true, orderedWord_eq_iff]
          exact and_congr_right fun _ =>
            ⟨fun hsymmetric _ => hsymmetric, fun hsymmetric => hsymmetric rfl⟩
  | fixedSizeFixedArray type values =>
      exact SolidityInput.part_eq_iff.trans (and_iff_left trivial).symm
  | fixedSizeNonFixedArray type values =>
      exact SolidityInput.part_eq_iff.trans (and_iff_left trivial).symm
  | string text => exact iff_of_true rfl ⟨trivial, trivial⟩
  | bytes value => exact iff_of_true rfl ⟨trivial, trivial⟩
  | nonFixedSizeFixedArray type values =>
      exact iff_of_true rfl ⟨trivial, trivial⟩
  | nonFixedSizeNonFixedArray type values =>
      exact iff_of_true rfl ⟨trivial, trivial⟩

theorem builtData_held_iff :
    builtData keccak256 name (inputs.map SolidityInput.held) =
        solidityCall keccak256 name inputs ↔
      ∀ input ∈ inputs, input.SignsKept ∧ input.Symmetric := by
  rw [builtData, functionPrototype_held, solidityCall, List.map_map,
    List.append_right_inj,
    @encodeTuple_parts_iff (SolidityInput.part ∘ SolidityInput.held)
      held_part_alike]
  exact forall₂_congr fun input _ => held_part_eq_iff

/-- The data of arguments behind a number of calls: evenly many leave them as
they were, and what an odd number leaves is what one leaves. -/
theorem builtData_iterate_iff (earlier : Nat) :
    builtData keccak256 name ((List.map SolidityInput.held)^[earlier] inputs) =
        solidityCall keccak256 name inputs ↔
      (∀ input ∈ inputs, input.SignsKept) ∧
        (Even earlier ∨ ∀ input ∈ inputs, input.Symmetric) := by
  rcases Nat.even_or_odd earlier with heven | hodd
  · rw [held_involutive.list_map.iterate_even heven, id, builtData_eq_iff]
    exact (and_iff_left (.inl heven)).symm
  · have hnot : ¬Even earlier := Nat.not_even_iff_odd.mpr hodd
    rw [held_involutive.list_map.iterate_odd hodd, builtData_held_iff,
      or_iff_right hnot]
    exact forall₂_and

/-- The data of the last call, by induction on those in front of it. -/
theorem solidityDataAgain_eq (hmalloc : Fresh malloc) (hgrants : Grants malloc)
    (hbuildable : Buildable inputs) (earlier : Nat) :
    solidityDataAgain keccak256 malloc name earlier inputs =
      .ok (builtData keccak256 name
        ((List.map SolidityInput.held)^[earlier] inputs)) := by
  induction earlier generalizing inputs with
  | zero =>
      rw [solidityDataAgain, solidityData_eq hmalloc hgrants hbuildable]
      rfl
  | succ earlier ih =>
      rw [solidityDataAgain, solidityData_eq hmalloc hgrants hbuildable,
        Exec.except_ok_bind, ih hbuildable.held, Function.iterate_succ_apply]

theorem solidityDataAgain_ok (hmalloc : Fresh malloc) {earlier : Nat}
    (hrun : solidityDataAgain keccak256 malloc name earlier inputs =
      .ok data) :
    data.length < 2 ^ 32 ∧ (∀ input ∈ inputs, input.Declared) ∧
      ¬(headWords inputs < 2 ^ 31 ∧ 2 ^ 31 ≤ headWords inputs * 32 + 4) := by
  induction earlier generalizing inputs with
  | zero =>
      obtain ⟨⟨_, held⟩, hbuilt, hdata⟩ := Exec.except_bind_eq_ok.mp hrun
      obtain rfl := Except.ok.inj hdata
      exact solidityData_ok hmalloc hbuilt
  | succ earlier ih =>
      obtain ⟨⟨_, held⟩, hbuilt, hrest⟩ := Exec.except_bind_eq_ok.mp hrun
      exact ⟨(ih hrest).1, (solidityData_ok hmalloc hbuilt).2⟩

/-- With memory granted the last of some calls with the same variables builds
the encoding of what was in them at first exactly where the first builds it, and
there are evenly many in front of it or the arguments that are turned are the
same in both orders. -/
theorem solidityDataAgain_right_iff (hmalloc : Fresh malloc)
    (hgrants : Grants malloc) (keccak256 : List UInt8 → Block 32)
    (name : CString) (inputs : List SolidityInput) (earlier : Nat) :
    solidityDataAgain keccak256 malloc name earlier inputs =
        .ok (solidityCall keccak256 name inputs) ↔
      Buildable inputs ∧ (∀ input ∈ inputs, input.SignsKept) ∧
        (Even earlier ∨ ∀ input ∈ inputs, input.Symmetric) := by
  constructor
  · intro hrun
    obtain ⟨hshort, hdeclared, hfixed⟩ := solidityDataAgain_ok hmalloc hrun
    have hbuildable := buildable_of_length hshort hdeclared hfixed
      length_solidityCall
    rw [solidityDataAgain_eq hmalloc hgrants hbuildable] at hrun
    exact ⟨hbuildable, (builtData_iterate_iff earlier).mp (Except.ok.inj hrun)⟩
  · rintro ⟨hbuildable, hall⟩
    rw [solidityDataAgain_eq hmalloc hgrants hbuildable,
      (builtData_iterate_iff earlier).mpr hall]

end Again

/-- An address that is not the same in both orders. -/
def sampleAddress : List SolidityInput :=
  [.fixedSize .address ⟨1 :: List.replicate 19 0, rfl⟩]

/-- The second call with an address in a variable sends another one, the third
the first one again. -/
theorem solidityDataAgain_right_address :
    solidityDataAgain (fun _ => .zero 32) zeroMalloc sampleFunction 1
        sampleAddress ≠
      .ok (solidityCall (fun _ => .zero 32) sampleFunction sampleAddress) ∧
    solidityDataAgain (fun _ => .zero 32) zeroMalloc sampleFunction 2
        sampleAddress =
      .ok (solidityCall (fun _ => .zero 32) sampleFunction sampleAddress) := by
  have hright (earlier : Nat) := solidityDataAgain_right_iff zeroMalloc_fresh
    zeroMalloc_grants (fun _ => .zero 32) sampleFunction sampleAddress earlier
  refine ⟨fun hsame => ?_, (hright 2).mpr ⟨⟨by decide, by decide,
    by decide +kernel⟩, by decide +kernel, .inl (by decide)⟩⟩
  obtain ⟨-, -, heven | hsymmetric⟩ := (hright 1).mp hsame
  · exact absurd heven (by decide)
  · have hreverse := hsymmetric _ List.mem_cons_self rfl rfl
    exact absurd hreverse (by decide)

end BoatFramework
