/-
The nonce of a CITA transaction over any sequence of `BoatCitaTxSetNonce`.  A
value is written at the front of the nonce field, and the text in the
transaction spells 16 bytes of that field: bytes of an earlier value stay in
it, and a value cannot be told from the value with zero bytes behind it.
-/
import BoatFramework.Base.Exec
import BoatFramework.Base.ZeroPad
import BoatFramework.Cita.Transaction

namespace BoatFramework

open ByteString

def boatCitaNonceAuto : UInt64 := 0xFFFFFFFFFFFFFFFF

/-- A call of the setter: its argument, and what `BoatRandom` answers should it
be asked. -/
structure NonceCall where
  nonce : UInt64
  random : Except RpcFailure (Block 16)

/-- `BoatCitaTxSetNonce` on the nonce field. -/
def boatCitaTxSetNonce (call : NonceCall) (nonce : BoatFieldMax 32) :
    BoatResult × BoatFieldMax 32 :=
  if call.nonce = boatCitaNonceAuto then
    match call.random with
    | .error code => (code, ⟨nonce.field, 16⟩)
    | .ok random => (boatSuccess, ⟨nonce.field.overlay random.bytes, 16⟩)
  else
    let bytes := utilityUint64ToBigend call.nonce.toNat .leftTrim
    (boatSuccess, ⟨nonce.field.overlay bytes, bytes.length⟩)

/-- The nonce field after a sequence of calls. -/
def setNonces (nonce : BoatFieldMax 32) (calls : List NonceCall) :
    BoatFieldMax 32 :=
  calls.foldl (fun nonce call => (boatCitaTxSetNonce call nonce).2) nonce

/-- The value a call sets, if it sets one: the number that is given or the
bytes that are drawn. -/
inductive NonceValue where
  | number (nonce : UInt64)
  | drawn (random : Block 16)

def NonceCall.value? (call : NonceCall) : Option NonceValue :=
  if call.nonce = boatCitaNonceAuto then
    match call.random with
    | .error _ => none
    | .ok random => some (.drawn random)
  else some (.number call.nonce)

/-- The bytes that are written for a value. -/
def NonceValue.bytes : NonceValue → List UInt8
  | .number nonce => utilityUint64ToBigend nonce.toNat .leftTrim
  | .drawn random => random.bytes

def NonceCall.bytes (call : NonceCall) : List UInt8 :=
  (call.value?.map NonceValue.bytes).getD []

/-- The last call of a sequence that sets a value, and the calls in front of
it. -/
def LastSet (calls front : List NonceCall) (call : NonceCall) : Prop :=
  call.value? ≠ none ∧ ∃ failed, calls = front ++ call :: failed ∧
    ∀ other ∈ failed, other.value? = none

/-- The nonce field of a transaction that was just initialized. -/
def citaInitNonce : BoatFieldMax 32 :=
  BoatCitaRawtxFields.zero.nonce

/-- The text in the transaction after a sequence of calls. -/
def nonceAfter (calls : List NonceCall) : List Char :=
  citaNonceStr (setNonces citaInitNonce calls)

/-- Nothing but zero bytes behind a value that is set. -/
def ZerosBehind (front : List NonceCall) (call : NonceCall) : Prop :=
  ∀ byte ∈ ((setNonces citaInitNonce front).field.bytes.take 16).drop
    call.bytes.length, byte = 0

theorem citaNonceStr_inj (left right : BoatFieldMax 32) :
    citaNonceStr left = citaNonceStr right ↔
      left.field.bytes.take 16 = right.field.bytes.take 16 := by
  rw [citaNonceStr, citaNonceStr, utilityBinToHex_bare, utilityBinToHex_bare]
  exact Hex.toHex_injective.eq_iff

theorem NonceCall.length_bytes_le (call : NonceCall) :
    call.bytes.length ≤ 16 := by
  cases hvalue : call.value? with
  | none => simp [bytes, hvalue]
  | some value =>
      rw [bytes, hvalue]
      cases value with
      | number nonce =>
          have hle := length_utilityUintToBigend_le (by decide : 0 < 8)
            nonce.toNat .leftTrim
          exact hle.trans (by decide)
      | drawn random => exact random.length_bytes.le

/-- What a call does to the field. -/
theorem boatCitaTxSetNonce_field (call : NonceCall) (nonce : BoatFieldMax 32) :
    (boatCitaTxSetNonce call nonce).2.field =
      nonce.field.overlay call.bytes := by
  have hnone : nonce.field.overlay [] = nonce.field := by
    simp [Block.overlay, List.take_of_length_le nonce.field.length_bytes.le]
  unfold boatCitaTxSetNonce NonceCall.bytes NonceCall.value?
  split
  · cases call.random with
    | error code => exact hnone.symm
    | ok random => rfl
  · rfl

theorem take_overlay {block : Block 32} {out : List UInt8}
    (hout : out.length ≤ 16) :
    (block.overlay out).bytes.take 16 =
      out ++ (block.bytes.take 16).drop out.length := by
  rw [Block.overlay, List.take_take, List.take_append, List.drop_take,
    List.take_of_length_le (hout.trans (by decide))]
  rfl

/-- Calls that set no value leave the field. -/
theorem setNonces_failed {failed : List NonceCall} (nonce : BoatFieldMax 32)
    (hfailed : ∀ other ∈ failed, other.value? = none) :
    (setNonces nonce failed).field = nonce.field := by
  induction failed generalizing nonce with
  | nil => rfl
  | cons head tail ih =>
      have hhead : head.bytes = [] := by
        rw [NonceCall.bytes, hfailed head List.mem_cons_self]
        rfl
      have hstep := boatCitaTxSetNonce_field head nonce
      rw [hhead] at hstep
      rw [setNonces, List.foldl_cons]
      apply (ih _ fun other hmem =>
        hfailed other (List.mem_cons_of_mem _ hmem)).trans
      rw [hstep]
      simp [Block.overlay, List.take_of_length_le nonce.field.length_bytes.le]

/-- The 16 bytes that are spelled after a sequence of calls. -/
theorem take_setNonces {calls front : List NonceCall} {call : NonceCall}
    (hlast : LastSet calls front call) :
    (setNonces citaInitNonce calls).field.bytes.take 16 =
      call.bytes ++ ((setNonces citaInitNonce front).field.bytes.take 16).drop
        call.bytes.length := by
  obtain ⟨_, failed, rfl, hfailed⟩ := hlast
  have hrun : setNonces citaInitNonce (front ++ call :: failed) = setNonces
      (boatCitaTxSetNonce call (setNonces citaInitNonce front)).2 failed := by
    rw [setNonces, List.foldl_append]
    rfl
  rw [hrun, setNonces_failed _ hfailed, boatCitaTxSetNonce_field,
    take_overlay call.length_bytes_le]

section Sequences

variable {calls front others rest : List NonceCall} {call other : NonceCall}

theorem LastSet.single (hlast : LastSet calls front call) :
    LastSet [call] [] call :=
  ⟨hlast.1, [], rfl, by simp⟩

/-- A value set alone is spelled with zero bytes behind it. -/
theorem take_setNonces_single (hlast : LastSet calls front call) :
    (setNonces citaInitNonce [call]).field.bytes.take 16 =
      call.bytes.rightpad 16 0 := by
  have hzeros : (setNonces citaInitNonce []).field.bytes.take 16 =
      List.replicate 16 0 := rfl
  rw [take_setNonces hlast.single, hzeros, List.drop_replicate, List.rightpad]

/-- The text is the one of the last value alone where zeros stood behind
it. -/
theorem nonceAfter_eq_single_iff (hlast : LastSet calls front call) :
    nonceAfter calls = nonceAfter [call] ↔ ZerosBehind front call := by
  have hlength : (((setNonces citaInitNonce front).field.bytes.take 16).drop
      call.bytes.length).length = 16 - call.bytes.length := by
    rw [List.length_drop, List.length_take,
      (setNonces citaInitNonce front).field.length_bytes]
    rfl
  rw [nonceAfter, nonceAfter, citaNonceStr_inj, take_setNonces_single hlast,
    take_setNonces hlast, List.rightpad]
  constructor
  · intro heq byte hmem
    rw [List.append_cancel_left heq] at hmem
    exact List.eq_of_mem_replicate hmem
  · intro hzeros
    rw [List.eq_replicate_of_mem hzeros, hlength]

/-- Two values alone have one text when they differ in trailing zero bytes
only. -/
theorem nonceAfter_single_iff (hlast : LastSet calls front call)
    (hother : LastSet others rest other) :
    nonceAfter [call] = nonceAfter [other] ↔
      trimRight call.bytes = trimRight other.bytes := by
  rw [nonceAfter, nonceAfter, citaNonceStr_inj, take_setNonces_single hlast,
    take_setNonces_single hother]
  exact rightpad_eq_iff call.length_bytes_le other.length_bytes_le

/-- The text depends on the last value alone, and tells the values of two
sequences apart, where each is set in front of zeros and the values differ in
more than trailing zero bytes. -/
theorem nonceAfter_iff (hlast : LastSet calls front call)
    (hother : LastSet others rest other) :
    (nonceAfter calls = nonceAfter [call] ∧
        nonceAfter others = nonceAfter [other] ∧
        (call.value? ≠ other.value? →
          nonceAfter calls ≠ nonceAfter others)) ↔
      ZerosBehind front call ∧ ZerosBehind rest other ∧
        (call.value? ≠ other.value? →
          trimRight call.bytes ≠ trimRight other.bytes) := by
  have hsingle := not_congr (nonceAfter_single_iff hlast hother)
  rw [← nonceAfter_eq_single_iff hlast, ← nonceAfter_eq_single_iff hother]
  constructor
  · rintro ⟨hcalls, hothers, hdiffer⟩
    rw [hcalls, hothers] at hdiffer
    exact ⟨hcalls, hothers, fun hne => hsingle.mp (hdiffer hne)⟩
  · rintro ⟨hcalls, hothers, hdiffer⟩
    refine ⟨hcalls, hothers, ?_⟩
    rw [hcalls, hothers]
    exact fun hne => hsingle.mpr (hdiffer hne)

/-- A call that needs no random bytes. -/
def numberCall (nonce : UInt64) : NonceCall :=
  ⟨nonce, .ok (.zero 16)⟩

/-- The numbers 2 and 1 set in one sequence, and 3 alone. -/
theorem nonceAfter_iff_three :
    (nonceAfter [numberCall 2, numberCall 1] = nonceAfter [numberCall 1] ∧
        nonceAfter [numberCall 3] = nonceAfter [numberCall 3] ∧
        ((numberCall 1).value? ≠ (numberCall 3).value? →
          nonceAfter [numberCall 2, numberCall 1] ≠
            nonceAfter [numberCall 3])) ↔
      ZerosBehind [numberCall 2] (numberCall 1) ∧
        ZerosBehind [] (numberCall 3) ∧
        ((numberCall 1).value? ≠ (numberCall 3).value? →
          trimRight (numberCall 1).bytes ≠ trimRight (numberCall 3).bytes) := by
  have hfirst : LastSet [numberCall 2, numberCall 1] [numberCall 2]
      (numberCall 1) := ⟨nofun, [], rfl, by simp⟩
  have hsecond : LastSet [numberCall 3] [] (numberCall 3) :=
    ⟨nofun, [], rfl, by simp⟩
  exact nonceAfter_iff hfirst hsecond

/-- The numbers 1 and 256 have one text, and 1 behind 513 has a text of its
own. -/
theorem not_nonceAfter :
    nonceAfter [numberCall 1] = nonceAfter [numberCall 256] ∧
      (numberCall 1).value? ≠ (numberCall 256).value? ∧
      nonceAfter [numberCall 513, numberCall 1] ≠
        nonceAfter [numberCall 1] := by
  refine ⟨by decide +kernel, ?_, by decide +kernel⟩
  intro heq
  exact absurd (NonceValue.number.inj (Option.some.inj heq)) (by decide)

end Sequences

end BoatFramework
