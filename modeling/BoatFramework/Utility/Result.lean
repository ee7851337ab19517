/-
Result codes and the ways a call can end.  `BOAT_RESULT` is a 32-bit signed
integer; a call that runs into undefined behaviour (a write outside its block)
has no result code at all.
-/
import Mathlib.Algebra.Group.Int.Defs
import Mathlib.Algebra.Group.Nat.Defs

namespace BoatFramework

abbrev BoatResult := Int

def boatSuccess : BoatResult := 0
def boatError : BoatResult := -1

def boatErrorCommonInvalidArgument : BoatResult := -10100000
def boatErrorCommonOutOfMemory : BoatResult := -10100001

def boatErrorCommonTxPending : BoatResult := -10100003
def boatErrorCommonUtility : BoatResult := -10100004
def boatErrorCommonGenSignFail : BoatResult := -10110002

def boatErrorWalletResultParseFail : BoatResult := -10200003

def boatErrorKeypairKeyFormatErr : BoatResult := -10210000
def boatErrorKeypairKeyTypeErr : BoatResult := -10210002
def boatErrorKeypairKeyGenmodeErr : BoatResult := -10210003
def boatErrorKeypairKeyStoretypeErr : BoatResult := -10210004
def boatErrorKeypairKeyInexistence : BoatResult := -10210005
def boatErrorKeypairKeyIndexExceed : BoatResult := -10210007
def boatErrorNetworkInexistence : BoatResult := -10210008
def boatErrorNetworkIndexExceed : BoatResult := -10210009
def boatErrorNetworkNodecfgErr : BoatResult := -10210010

def boatErrorStorageFileOpenFail : BoatResult := -10400000
def boatErrorStorageFileWriteFail : BoatResult := -10400001
def boatErrorStorageFileReadFail : BoatResult := -10400002

def boatErrorRlpStringInitFail : BoatResult := -10500000
def boatErrorRlpListInitFail : BoatResult := -10500001
def boatErrorRlpEncoderAppendFail : BoatResult := -10500002
def boatErrorRlpEncoderReplaceFail : BoatResult := -10500003
def boatErrorRlpEncoderFail : BoatResult := -10500004

def boatErrorHttp2ReceiveFail : BoatResult := -10600004

def boatErrorWeb3JsonParseFail : BoatResult := -10700000
def boatErrorWeb3JsonGetobjFail : BoatResult := -10700001
def boatErrorWeb3GetGaspriceFail : BoatResult := -10700004
def boatErrorJsonObjIsNull : BoatResult := -10700005

/-- Why a call does not succeed. -/
inductive Failure where
  | code (result : BoatResult)
  | undefined
deriving DecidableEq, Repr

abbrev Outcome (α : Type) := Except Failure α

/-- A failed remote call leaves an error code, never success. -/
abbrev RpcFailure := { code : BoatResult // code ≠ boatSuccess }

/-- A failure that is not the code of success. -/
abbrev RealFailure := { failure : Failure // failure ≠ .code boatSuccess }

/-- Leave with a result code, as `boat_throw` does. -/
def boatThrow {α : Type} (result : BoatResult) : Outcome α :=
  .error (.code result)

/-- The value of a 32-bit unsigned expression. -/
def buint32 (n : Nat) : Nat :=
  n % 2 ^ 32

theorem buint32_lt (n : Nat) : buint32 n < 2 ^ 32 :=
  Nat.mod_lt _ (by omega)

theorem buint32_of_lt {n : Nat} (hn : n < 2 ^ 32) : buint32 n = n :=
  Nat.mod_eq_of_lt hn

/-- The value of a signed expression that is taken as a `BUINT32`. -/
def asBuint32 (n : Int) : Nat :=
  (n % 2 ^ 32).toNat

theorem asBuint32_ofNat {n : Nat} (hn : n < 2 ^ 32) : asBuint32 n = n := by
  unfold asBuint32
  omega

/-- The value of an unsigned expression that is stored in a `BSINT32`. -/
def bsint32 (n : Int) : Int :=
  n.bmod (2 ^ 32)

theorem bsint32_of_lt {n : Int} (hlow : 0 ≤ n) (hhigh : n < 2 ^ 31) :
    bsint32 n = n := by
  rw [bsint32, Int.bmod_def]
  split <;> omega

/-- A block of memory. -/
abbrev Bytes (n : Nat) := {bytes : List UInt8 // bytes.length = n}

theorem length_zeroByte (n : Nat) : (List.replicate n (0 : UInt8)).length = n :=
  List.length_replicate

def zeroBytes (n : Nat) : Bytes n :=
  ⟨List.replicate n 0, length_zeroByte n⟩

/-- Store `bytes` into a block at `offset`; outside the block is undefined. -/
def storeAt (block : List UInt8) (offset : Nat) (bytes : List UInt8) :
    Outcome (List UInt8) :=
  if offset + bytes.length ≤ block.length then
    .ok (block.take offset ++ bytes ++ block.drop (offset + bytes.length))
  else .error .undefined

/-- Read `len` bytes of a block at `offset`. -/
def loadAt (block : List UInt8) (offset len : Nat) : Outcome (List UInt8) :=
  if offset + len ≤ block.length then .ok ((block.drop offset).take len)
  else .error .undefined

theorem storeAt_of_le {block : List UInt8} {offset : Nat} {bytes : List UInt8}
    (hfits : offset + bytes.length ≤ block.length) :
    storeAt block offset bytes =
      .ok (block.take offset ++ bytes ++
        block.drop (offset + bytes.length)) :=
  if_pos hfits

theorem storeAt_eq_ok {block stored : List UInt8} {offset : Nat}
    {bytes : List UInt8} (hstore : storeAt block offset bytes = .ok stored) :
    offset + bytes.length ≤ block.length ∧
      stored = block.take offset ++ bytes ++
        block.drop (offset + bytes.length) := by
  unfold storeAt at hstore
  split at hstore
  next hfits => exact ⟨hfits, (Except.ok.inj hstore).symm⟩
  next => cases hstore

theorem length_of_storeAt {block stored : List UInt8} {offset : Nat}
    {bytes : List UInt8} (hstore : storeAt block offset bytes = .ok stored) :
    stored.length = block.length := by
  obtain ⟨hfits, rfl⟩ := storeAt_eq_ok hstore
  simp only [List.length_append, List.length_take, List.length_drop]
  omega

theorem length_of_loadAt {block bytes : List UInt8} {offset len : Nat}
    (hload : loadAt block offset len = .ok bytes) :
    offset + len ≤ block.length ∧ bytes.length = len := by
  unfold loadAt at hload
  split at hload
  next hfits =>
    obtain rfl := Except.ok.inj hload
    rw [List.length_take, List.length_drop]
    omega
  next => cases hload

theorem storeAt_append (before behind : List UInt8) {target bytes : List UInt8}
    (hlength : bytes.length = target.length) :
    storeAt (before ++ target ++ behind) before.length bytes =
      .ok (before ++ bytes ++ behind) := by
  have hfits : before.length + bytes.length ≤
      (before ++ target ++ behind).length := by
    simp only [List.length_append]
    omega
  rw [storeAt_of_le hfits, hlength, ← List.length_append, List.drop_left,
    List.append_assoc before target, List.take_left]

theorem loadAt_append (before value behind : List UInt8) :
    loadAt (before ++ value ++ behind) before.length value.length =
      .ok value := by
  have hfits : before.length + value.length ≤
      (before ++ value ++ behind).length := by
    simp only [List.length_append]
    omega
  rw [loadAt, if_pos hfits, List.append_assoc, List.drop_left, List.take_left]

end BoatFramework
