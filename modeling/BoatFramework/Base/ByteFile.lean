/-
A file as a list of bytes: reading inside it, writing at an offset with zeros
in front where it is too short, and where a piece of content lies.
-/
import Mathlib.Data.List.Basic
import Mathlib.Data.List.GetD

namespace ByteFile

/-- The bytes at an offset; nothing when the file ends before them. -/
def read (file : List UInt8) (offset len : Nat) : Option (List UInt8) :=
  if offset + len ≤ file.length then some ((file.drop offset).take len)
  else none

/-- The file after a write; a file that ends before the offset is filled with
zeros first. -/
def write (file : List UInt8) (offset : Nat) (bytes : List UInt8) :
    List UInt8 :=
  let filled := file ++ List.replicate (offset - file.length) 0
  filled.take offset ++ (bytes ++ filled.drop (offset + bytes.length))

/-- The bytes lie in the file at an offset. -/
def At (file : List UInt8) (offset : Nat) (bytes : List UInt8) : Prop :=
  ∃ front back, file = front ++ (bytes ++ back) ∧ front.length = offset

variable {file bytes left right : List UInt8} {offset start : Nat}

theorem at_append :
    At file offset (left ++ right) ↔
      At file offset left ∧ At file (offset + left.length) right := by
  constructor
  · rintro ⟨front, back, rfl, rfl⟩
    refine ⟨⟨front, right ++ back, by simp, rfl⟩,
      ⟨front ++ left, back, by simp, by simp⟩⟩
  · rintro ⟨⟨front, back, rfl, rfl⟩, ⟨front', back', heq, hlen⟩⟩
    rw [← List.append_assoc] at heq
    obtain ⟨rfl, rfl⟩ := List.append_inj heq (by simpa using hlen.symm)
    exact ⟨front, back', by simp, rfl⟩

theorem At.fst (hat : At file offset (left ++ right)) : At file offset left :=
  (at_append.mp hat).1

theorem At.snd (hat : At file offset (left ++ right)) :
    At file (offset + left.length) right :=
  (at_append.mp hat).2

theorem At.length_le (hat : At file offset bytes) :
    offset + bytes.length ≤ file.length := by
  obtain ⟨front, back, rfl, rfl⟩ := hat
  simp only [List.length_append]
  omega

/-- A read inside a piece of content. -/
theorem At.read_take (hat : At file offset bytes) {len : Nat}
    (hlen : len ≤ bytes.length) :
    read file offset len = some (bytes.take len) := by
  have hle := hat.length_le
  obtain ⟨front, back, rfl, rfl⟩ := hat
  rw [read, if_pos (by omega), List.drop_left, List.take_append_of_le_length hlen]

theorem At.read (hat : At file offset bytes) :
    read file offset bytes.length = some bytes := by
  simpa using hat.read_take (Nat.le_refl _)

theorem At.unique {other : List UInt8} (hat : At file offset bytes)
    (hother : At file offset other) (hlen : bytes.length = other.length) :
    bytes = other := by
  have hread := hat.read
  rw [hlen, hother.read] at hread
  exact (Option.some.inj hread).symm

theorem at_of_read {len : Nat} (hread : read file offset len = some bytes) :
    At file offset bytes ∧ bytes.length = len := by
  unfold ByteFile.read at hread
  split at hread
  next hlen =>
    obtain rfl := Option.some.inj hread
    refine ⟨⟨file.take offset, (file.drop offset).drop len, ?_, ?_⟩, ?_⟩
    · rw [List.take_append_drop, List.take_append_drop]
    · rw [List.length_take]
      omega
    · rw [List.length_take, List.length_drop]
      omega
  next => cases hread

theorem length_take_filled :
    ((file ++ List.replicate (offset - file.length) 0).take offset).length =
      offset := by
  rw [List.length_take, List.length_append, List.length_replicate]
  omega

/-- What was written lies where it was written. -/
theorem at_write : At (write file offset bytes) offset bytes :=
  ⟨_, _, rfl, length_take_filled⟩

/-- A write behind a piece of content goes over what follows it. -/
theorem write_append (front back bytes : List UInt8) :
    write (front ++ back) front.length bytes =
      front ++ (bytes ++ back.drop bytes.length) := by
  have hfilled : front.length - (front ++ back).length = 0 := by
    rw [List.length_append]
    omega
  simp only [write]
  rw [hfilled, List.replicate_zero, List.append_nil, List.take_left,
    List.drop_append]
  simp

/-- Content in front of a write stays. -/
theorem At.write_before (hat : At file start left)
    (hbefore : start + left.length ≤ offset) :
    At (write file offset bytes) start left := by
  have hfilled : At ((file ++ List.replicate (offset - file.length) 0).take
      offset) start left := by
    obtain ⟨front, back, rfl, rfl⟩ := hat
    refine ⟨front, (back ++ List.replicate
      (offset - (front ++ (left ++ back)).length) 0).take
        (offset - front.length - left.length), ?_, rfl⟩
    rw [List.append_assoc, List.append_assoc, List.take_append,
      List.take_of_length_le (by omega), List.take_append,
      List.take_of_length_le (by omega)]
  obtain ⟨front, back, heq, hlen⟩ := hfilled
  exact ⟨front, back ++ (bytes ++ _), by rw [write, heq]; simp; rfl, hlen⟩

/-- Content behind a write stays. -/
theorem At.write_after (hat : At file start right)
    (hafter : offset + bytes.length ≤ start) :
    At (write file offset bytes) start right := by
  have hle := hat.length_le
  obtain ⟨front, back, rfl, rfl⟩ := hat
  refine ⟨(front.take offset ++ bytes) ++ front.drop (offset + bytes.length),
    back, ?_, ?_⟩
  · have hfill : offset - (front ++ (right ++ back)).length = 0 := by
      simp only [List.length_append]
      omega
    rw [write, hfill, List.replicate_zero, List.append_nil,
      List.take_append_of_le_length (by omega),
      List.drop_append_of_le_length (by omega)]
    simp
  · simp only [List.length_append, List.length_take, List.length_drop]
    omega

/-- A write behind the end of a file leaves zeros in front of it. -/
theorem at_write_zeros {len : Nat} (hshort : file.length ≤ start)
    (hbefore : start + len ≤ offset) :
    At (write file offset bytes) start (List.replicate len 0) := by
  have hfill : offset - file.length =
      (start - file.length) + (len + (offset - start - len)) := by
    omega
  refine ⟨file ++ List.replicate (start - file.length) 0,
    List.replicate (offset - start - len) 0 ++ bytes, ?_, ?_⟩
  · have hall : (file ++ List.replicate (offset - file.length) 0).take offset =
        file ++ List.replicate (offset - file.length) 0 := by
      rw [List.take_of_length_le]
      rw [List.length_append, List.length_replicate]
      omega
    have hnone : (file ++ List.replicate (offset - file.length) 0).drop
        (offset + bytes.length) = [] := by
      rw [List.drop_of_length_le]
      rw [List.length_append, List.length_replicate]
      omega
    rw [write, hall, hnone, hfill, List.replicate_add, List.replicate_add]
    simp only [List.append_assoc, List.append_nil]
  · rw [List.length_append, List.length_replicate]
    omega

theorem length_write :
    (write file offset bytes).length =
      max file.length (offset + bytes.length) := by
  simp only [write, List.length_append, List.length_take, List.length_drop,
    List.length_replicate]
  omega

/-- A byte of a written file: what was written there, or what there was, zero
behind the end. -/
theorem getD_write {i : Nat} :
    (write file offset bytes).getD i 0 =
      if offset ≤ i ∧ i < offset + bytes.length then bytes.getD (i - offset) 0
      else file.getD i 0 := by
  have hfilled (j : Nat) : (file ++ List.replicate (offset - file.length)
      0).getD j 0 = file.getD j 0 := by
    rcases Nat.lt_or_ge j file.length with hlt | hge
    · exact List.getD_append _ _ _ _ hlt
    · rw [List.getD_append_right _ _ _ _ hge, List.getD_eq_default _ _ hge]
      simp only [List.getD_eq_getElem?_getD, List.getElem?_replicate]
      split <;> rfl
  have hfront : ((file ++ List.replicate (offset - file.length) 0).take
      offset).length = offset := length_take_filled
  rw [write]
  rcases Nat.lt_or_ge i offset with hlt | hge
  · rw [if_neg (by omega), List.getD_append _ _ _ _ (by omega), ← hfilled i]
    simp only [List.getD_eq_getElem?_getD, List.getElem?_take, if_pos hlt]
  · rw [List.getD_append_right _ _ _ _ (by omega), hfront]
    rcases Nat.lt_or_ge i (offset + bytes.length) with hin | hout
    · rw [if_pos ⟨hge, hin⟩, List.getD_append _ _ _ _ (by omega)]
    · rw [if_neg (by omega), List.getD_append_right _ _ _ _ (by omega),
        ← hfilled i]
      simp only [List.getD_eq_getElem?_getD, List.getElem?_drop]
      congr 2
      omega

/-- The bytes that a read gives. -/
theorem read_eq_map {len : Nat} (hread : read file offset len = some bytes) :
    bytes = (List.range len).map fun k => file.getD (offset + k) 0 := by
  unfold ByteFile.read at hread
  split at hread
  next hlen =>
    obtain rfl := Option.some.inj hread
    apply List.ext_getElem
    · simp only [List.length_take, List.length_drop, List.length_map,
        List.length_range]
      omega
    · intro k hleft hright
      rw [List.length_map, List.length_range] at hright
      have hin : offset + k < file.length := by omega
      simp only [List.getElem_take, List.getElem_drop, List.getElem_map,
        List.getElem_range]
      exact (List.getD_eq_getElem _ _ hin).symm
  next => cases hread

/-- A write is undone by writing what was there. -/
theorem At.write_back (hat : At file offset left)
    (hlen : right.length = left.length) :
    write (write file offset right) offset left = file := by
  obtain ⟨front, back, rfl, rfl⟩ := hat
  have hinside : ∀ old : List UInt8, old.length = left.length →
      ∀ new : List UInt8, new.length = left.length →
        write (front ++ (old ++ back)) front.length new =
          front ++ (new ++ back) := by
    intro old hold new hnew
    have hfill : front.length - (front ++ (old ++ back)).length = 0 := by
      rw [List.length_append]
      omega
    have hdrop : front.length + new.length = (front ++ old).length := by
      rw [List.length_append]
      omega
    rw [write, hfill, List.replicate_zero, List.append_nil, hdrop,
      List.take_left, ← List.append_assoc front old, List.drop_left]
  rw [hinside left rfl right hlen, hinside right hlen left rfl]

end ByteFile
