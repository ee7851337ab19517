/-
`UtilityChangeEndian`, with its counter in a signed char.  The counter is
compared as a 32-bit unsigned number, so that behind 127 it stands at or above
every length and the loop is left: 128 pairs change places and no more.
-/
import BoatFramework.Base.Swap
import BoatFramework.Utility.Result

namespace BoatFramework

open Swap

/-- The value of an expression that is stored in a `BSINT8`. -/
def bsint8 (n : Int) : Int :=
  n.bmod 256

/-- The entries at the two cursors change places; a cursor outside the buffer
is undefined. -/
def swapOctets (value : List UInt8) (i : Int) (mirror : Nat) :
    Outcome (List UInt8) :=
  if i < 0 then .error .undefined
  else
    match exchange value i.toNat mirror with
    | some value => .ok value
    | none => .error .undefined

/-- The loop of `UtilityChangeEndian`, in at most that many rounds. -/
def changeEndianLoop (valueLen : UInt32) :
    Nat → Int → List UInt8 → Option (Outcome (List UInt8))
  | 0, _, _ => none
  | rounds + 1, i, value =>
      if asBuint32 i < valueLen.toNat / 2 then
        match swapOctets value i (asBuint32 (valueLen.toNat - 1 - i)) with
        | .error failure => some (.error failure)
        | .ok value => changeEndianLoop valueLen rounds (bsint8 (i + 1)) value
      else some (.ok value)

/-- `UtilityChangeEndian` on the bytes of the buffer. -/
def utilityChangeEndian (value : List UInt8) (valueLen : UInt32) :
    Option (Outcome (List UInt8)) :=
  changeEndianLoop valueLen (valueLen.toNat / 2 + 1) 0 value

example : utilityChangeEndian [1, 2, 3] 3 = some (.ok [3, 2, 1]) := by decide

/-- The pairs that change places. -/
def swappedPairs (valueLen : UInt32) : Nat :=
  min 128 (valueLen.toNat / 2)

/-- The counter behind `n` rounds. -/
theorem bsint8_ofNat {n : Nat} (hn : n < 128) : bsint8 n = n := by
  rw [bsint8, Int.bmod_def]
  split <;> omega

/-- While pairs are left, the counter is the number of pairs done and is below
the bound. -/
theorem asBuint32_bsint8_lt_iff (valueLen : UInt32) {pairs : Nat}
    (hpairs : pairs ≤ swappedPairs valueLen) :
    asBuint32 (bsint8 pairs) < valueLen.toNat / 2 ↔
      pairs < swappedPairs valueLen := by
  have hlen := valueLen.toNat_lt
  unfold swappedPairs at hpairs ⊢
  by_cases hlast : pairs = 128
  · have hcounter : asBuint32 (bsint8 pairs) = 2 ^ 32 - 128 := by
      rw [hlast]
      decide
    omega
  · rw [bsint8_ofNat (by omega), asBuint32_ofNat (by omega)]
    omega

/-- One round of the loop is one more pair. -/
theorem changeEndianLoop_succ {valueLen : UInt32}
    {front middle back : List UInt8} (a b : UInt8)
    (hsame : front.length = back.length)
    (hlength : valueLen.toNat =
      front.length + ((middle.length + 2) + back.length))
    (hpairs : front.length < swappedPairs valueLen) (rounds : Nat) :
    changeEndianLoop valueLen (rounds + 1) (bsint8 front.length)
        (turned front (a :: (middle ++ [b])) back) =
      changeEndianLoop valueLen rounds (bsint8 (front ++ [a]).length)
        (turned (front ++ [a]) middle (b :: back)) := by
  have hlen := valueLen.toNat_lt
  have hcounter : bsint8 front.length = front.length :=
    bsint8_ofNat (by unfold swappedPairs at hpairs; omega)
  have hmirror : asBuint32 (valueLen.toNat - 1 - front.length) =
      front.length + (middle.length + 1) := by
    unfold asBuint32
    omega
  have hpair := exchange_turned [] [] a b middle hsame
  simp only [List.nil_append, List.append_nil, List.length_nil,
    Nat.zero_add] at hpair
  have hswap : swapOctets (turned front (a :: (middle ++ [b])) back)
      front.length (front.length + (middle.length + 1)) =
        .ok (turned (front ++ [a]) middle (b :: back)) := by
    rw [swapOctets, if_neg (by omega), Int.toNat_natCast, hpair]
  rw [changeEndianLoop,
    if_pos ((asBuint32_bsint8_lt_iff valueLen (Nat.le_of_lt hpairs)).mpr hpairs),
    hcounter, hmirror, hswap, List.length_append]
  rfl

/-- The loop from any number of pairs done to its end. -/
theorem changeEndianLoop_turned (valueLen : UInt32) (rounds : Nat)
    (front middle back : List UInt8) (hsame : front.length = back.length)
    (hlength : valueLen.toNat =
      front.length + (middle.length + back.length))
    (hpairs : front.length ≤ swappedPairs valueLen)
    (hrounds : swappedPairs valueLen < front.length + rounds) :
    ∃ front' middle' back', front ++ (middle ++ back) =
        front' ++ (middle' ++ back') ∧
      front'.length = back'.length ∧
      front'.length = swappedPairs valueLen ∧
      changeEndianLoop valueLen rounds (bsint8 front.length)
        (turned front middle back) =
          some (.ok (turned front' middle' back')) := by
  induction rounds generalizing front middle back with
  | zero => omega
  | succ rounds ih =>
      by_cases hmore : front.length < swappedPairs valueLen
      · have hlong : 2 ≤ middle.length := by
          unfold swappedPairs at hmore
          omega
        obtain ⟨a, middle, b, rfl⟩ := exists_ends hlong
        have hinner : (a :: (middle ++ [b])).length = middle.length + 2 := by
          simp
        rw [hinner] at hlength
        have hfront : (front ++ [a]).length = front.length + 1 := by
          simp
        have hback : (b :: back).length = back.length + 1 := rfl
        obtain ⟨front', middle', back', hparts, hends, hdone, hloop⟩ :=
          ih (front ++ [a]) middle (b :: back) (by omega) (by omega)
            (by omega) (by omega)
        refine ⟨front', middle', back', ?_, hends, hdone, ?_⟩
        · rw [← hparts]
          simp
        · rw [changeEndianLoop_succ a b hsame hlength hmore]
          exact hloop
      · refine ⟨front, middle, back, rfl, hsame, by omega, ?_⟩
        rw [changeEndianLoop, if_neg]
        exact fun hlt =>
          hmore ((asBuint32_bsint8_lt_iff valueLen hpairs).mp hlt)

/-- The outermost bytes, at most 128 on each side, change places. -/
theorem utilityChangeEndian_turned {valueLen : UInt32} {value : List UInt8}
    (hlength : value.length = valueLen.toNat) :
    ∃ front middle back, value = front ++ (middle ++ back) ∧
      front.length = back.length ∧ front.length = swappedPairs valueLen ∧
      utilityChangeEndian value valueLen =
        some (.ok (turned front middle back)) := by
  have hrounds : swappedPairs valueLen <
      ([] : List UInt8).length + (valueLen.toNat / 2 + 1) := by
    unfold swappedPairs
    simp only [List.length_nil]
    omega
  obtain ⟨front, middle, back, hparts, hsame, hdone, hloop⟩ :=
    changeEndianLoop_turned valueLen _ [] value [] rfl
      (by simp [hlength]) (Nat.zero_le _) hrounds
  simp only [List.nil_append, List.append_nil] at hparts
  simp only [turned, List.nil_append, List.append_nil, List.reverse_nil]
    at hloop
  exact ⟨front, middle, back, hparts, hsame, hdone, hloop⟩

theorem utilityChangeEndian_twice {valueLen : UInt32} {value : List UInt8}
    (hlength : value.length = valueLen.toNat) :
    ∃ swapped, utilityChangeEndian value valueLen = some (.ok swapped) ∧
      utilityChangeEndian swapped valueLen = some (.ok value) := by
  obtain ⟨front, middle, back, rfl, hsame, hdone, hrun⟩ :=
    utilityChangeEndian_turned hlength
  have hswapped : (turned front middle back).length = valueLen.toNat := by
    rw [length_turned, ← hlength, List.length_append, List.length_append]
  obtain ⟨front', middle', back', hparts, hsame', hdone', hrun'⟩ :=
    utilityChangeEndian_turned hswapped
  obtain ⟨rfl, hrest⟩ := List.append_inj hparts
    (by rw [List.length_reverse, ← hsame, hdone, hdone'])
  obtain ⟨rfl, rfl⟩ := List.append_inj' hrest
    (by rw [List.length_reverse, hsame, ← hsame', List.length_reverse])
  rw [turned_reverse] at hrun'
  exact ⟨_, hrun, hrun'⟩

theorem utilityChangeEndian_short {valueLen : UInt32} {value : List UInt8}
    (hlength : value.length = valueLen.toNat)
    (hshort : valueLen.toNat ≤ 257) :
    utilityChangeEndian value valueLen = some (.ok value.reverse) := by
  obtain ⟨front, middle, back, rfl, hsame, hdone, hrun⟩ :=
    utilityChangeEndian_turned hlength
  have hmiddle : middle.length ≤ 1 := by
    unfold swappedPairs at hdone
    simp only [List.length_append] at hlength
    omega
  rw [hrun, turned_of_short hmiddle]

/-- A buffer with a mark just behind the 128 bytes in front. -/
def markedBuffer (length : Nat) : List UInt8 :=
  List.replicate 128 0 ++ 1 :: List.replicate (length - 129) 0

theorem length_markedBuffer {length : Nat} (hlong : 257 < length) :
    (markedBuffer length).length = length := by
  simp only [markedBuffer, List.length_append, List.length_cons,
    List.length_replicate]
  omega

theorem getElem?_reverse_markedBuffer {length : Nat} (hlong : 257 < length) :
    (markedBuffer length).reverse[128]? = some 0 := by
  have hbehind : 128 < (List.replicate (length - 129) (0 : UInt8)).length := by
    rw [List.length_replicate]
    omega
  rw [markedBuffer, List.reverse_append, List.reverse_cons,
    List.reverse_replicate, List.append_assoc,
    List.getElem?_append_left hbehind, List.getElem?_replicate,
    if_pos (by omega)]

/-- The mark of a buffer of more than 257 bytes stays where it is. -/
theorem utilityChangeEndian_markedBuffer {valueLen : UInt32}
    (hlong : 257 < valueLen.toNat) :
    utilityChangeEndian (markedBuffer valueLen.toNat) valueLen ≠
      some (.ok (markedBuffer valueLen.toNat).reverse) := by
  intro hreversed
  obtain ⟨front, middle, back, hparts, hsame, hdone, hrun⟩ :=
    utilityChangeEndian_turned (length_markedBuffer hlong)
  have hfront : front.length = 128 := by
    unfold swappedPairs at hdone
    omega
  obtain ⟨-, hrest⟩ := List.append_inj hparts
    (by rw [List.length_replicate, hfront])
  have hmiddle : middle[0]? = some 1 := by
    have hlength := length_markedBuffer hlong
    rw [hparts, List.length_append, List.length_append] at hlength
    have hnonempty : 0 < middle.length := by
      omega
    rw [← List.getElem?_append_left hnonempty, ← hrest]
    rfl
  have hmark : (turned front middle back)[128]? = some 1 := by
    have hback : back.reverse.length = 128 := by
      rw [List.length_reverse, ← hsame, hfront]
    have hnonempty : 0 < middle.length :=
      (List.getElem?_eq_some_iff.mp hmiddle).1
    rw [turned, List.getElem?_append_right (Nat.le_of_eq hback), hback,
      List.getElem?_append_left hnonempty]
    exact hmiddle
  rw [hrun] at hreversed
  rw [Except.ok.inj (Option.some.inj hreversed),
    getElem?_reverse_markedBuffer hlong] at hmark
  cases hmark

/-- All buffers of a length are reversed when it is at most 257; at every
length the loop ends with its cursors inside the buffer, and a second call
gives the buffer back. -/
theorem utilityChangeEndian_reverses_iff (valueLen : UInt32) :
    ((∀ value : List UInt8, value.length = valueLen.toNat →
        utilityChangeEndian value valueLen = some (.ok value.reverse)) ↔
      valueLen.toNat ≤ 257) ∧
    ∀ value : List UInt8, value.length = valueLen.toNat →
      ∃ swapped, utilityChangeEndian value valueLen = some (.ok swapped) ∧
        utilityChangeEndian swapped valueLen = some (.ok value) := by
  refine ⟨⟨?_, ?_⟩, ?_⟩
  · intro hall
    by_contra hlong
    have hlong : 257 < valueLen.toNat := Nat.lt_of_not_le hlong
    exact utilityChangeEndian_markedBuffer hlong
      (hall _ (length_markedBuffer hlong))
  · intro hshort value hlength
    exact utilityChangeEndian_short hlength hshort
  · intro value hlength
    exact utilityChangeEndian_twice hlength

/-- A buffer of 258 bytes is not reversed. -/
theorem not_utilityChangeEndian_reverses :
    ¬ ∀ (valueLen : UInt32) (value : List UInt8),
      value.length = valueLen.toNat →
        utilityChangeEndian value valueLen = some (.ok value.reverse) :=
  fun hall => utilityChangeEndian_markedBuffer (by decide)
    (hall 258 _ (length_markedBuffer (by decide)))

end BoatFramework
