/-
The strings a transaction is set up with, and the numbers they denote: gas
price, gas limit, recipient and value of the Ethereum family.  The conversion
keeps the first bytes it has room for and reads what is not hexadecimal as zero.
-/
import BoatFramework.Tx.Canonical
import BoatFramework.Tx.FiscobcosInit
import BoatFramework.Tx.Receipt
import BoatFramework.Utility.HexNumber

namespace BoatFramework

open ByteString

/-- The minimal encoding of the number a string denotes. -/
def EncodesNumber (text : List Char) (bytes : List UInt8) : Prop :=
  ∃ n, numberOf text = some n ∧ bytes = bigEndian n

/-- The string denotes a number of 256 bits. -/
def FitsField (text : List Char) : Prop :=
  ∃ n, numberOf text = some n ∧ n < 256 ^ 32

/-- The bytes of a field that a string is converted into. -/
theorem bytes_ofHex {size : Nat} (storage : Block size) (text : List Char) :
    (BoatFieldMax.ofHex storage text).field.bytes.take
        (BoatFieldMax.ofHex storage text).fieldLen =
      (utilityHexToBin size text .leftTrim true).1.take
        (utilityHexToBin size text .leftTrim true).2 := by
  obtain ⟨hsize, hlen⟩ := utilityHexToBin_length size text .leftTrim true
  have htake := congrArg
    (List.take (utilityHexToBin size text .leftTrim true).2)
    (storage.take_overlay hsize)
  rw [List.take_take, Nat.min_eq_left hlen] at htake
  exact htake

/-- A string is converted into the number it denotes where that fits. -/
theorem ofHex_encodesNumber_iff (storage : Block 32) (text : List Char) :
    EncodesNumber text ((BoatFieldMax.ofHex storage text).field.bytes.take
        (BoatFieldMax.ofHex storage text).fieldLen) ↔ FitsField text := by
  rw [bytes_ofHex]
  constructor
  · rintro ⟨n, hn, hbytes⟩
    refine ⟨n, hn, (length_bigEndian_le_iff n 32).mp ?_⟩
    have hsize := (utilityHexToBin_length 32 text .leftTrim true).1
    rw [← hbytes]
    exact (List.length_take_le' _ _).trans hsize
  · rintro ⟨n, hn, hfits⟩
    obtain ⟨bytes, hspelled, rfl⟩ := Option.map_eq_some_iff.mp hn
    refine ⟨_, hn, ?_⟩
    rw [← length_bigEndian_le_iff, bigEndian_ofBigEndian_eq_trimLeft] at hfits
    have hmode : (TrimbinTrimMode.leftTrim == .trimNo) = false := rfl
    rw [utilityHexToBin_spelled hspelled (by decide), hmode, written,
      bigEndian_ofBigEndian_eq_trimLeft]
    simp only [Bool.false_eq_true, ↓reduceIte]
    rw [List.take_of_length_le hfits, List.take_length]

/-- Twenty bytes are read from a string exactly where it spells as many. -/
theorem overlay_spelled_iff (stack : Block 20) (text : List Char) :
    spelledBytes text =
        some (stack.overlay (utilityHexToBin 20 text .trimNo true).1).bytes ↔
      ∃ bytes, spelledBytes text = some bytes ∧ bytes.length = 20 := by
  constructor
  · intro hspelled
    exact ⟨_, hspelled, Block.length_bytes _⟩
  · rintro ⟨bytes, hspelled, hlength⟩
    have hmode : (TrimbinTrimMode.trimNo == .trimNo) = true := rfl
    have hread : (utilityHexToBin 20 text .trimNo true).1 = bytes := by
      rw [utilityHexToBin_spelled hspelled (by decide), hmode, written,
        if_pos rfl]
      exact List.take_of_length_le hlength.le
    rw [hread, Block.bytes_overlay_full stack hlength, hspelled]

/-- Pairs of digits are read. -/
theorem exists_ofHex {digits : List Char} (n : Nat)
    (hdigits : ∀ c ∈ digits, (Hex.value c).isSome)
    (hlength : digits.length = 2 * n) :
    ∃ bytes, Hex.ofHex digits = some bytes ∧ bytes.length = n := by
  induction n generalizing digits with
  | zero =>
      rw [Nat.mul_zero, List.length_eq_zero_iff] at hlength
      subst hlength
      exact ⟨[], rfl, rfl⟩
  | succ n ih =>
      match digits, hlength with
      | high :: low :: rest, hlength =>
          rw [List.length_cons, List.length_cons] at hlength
          obtain ⟨bytes, hrest, hbytes⟩ := ih
            (fun c hc => hdigits c
              (List.mem_cons_of_mem _ (List.mem_cons_of_mem _ hc)))
            (by omega)
          obtain ⟨highHalf, hhigh⟩ := Option.isSome_iff_exists.mp
            (hdigits high List.mem_cons_self)
          obtain ⟨lowHalf, hlow⟩ := Option.isSome_iff_exists.mp
            (hdigits low (List.mem_cons_of_mem _ List.mem_cons_self))
          refine ⟨UInt8.ofNat (16 * highHalf + lowHalf) :: bytes, ?_, ?_⟩
          · rw [Hex.ofHex, hhigh, hlow, hrest]
          · rw [List.length_cons, hbytes]

/-- A recipient that is let through spells twenty bytes. -/
theorem checkHexRecipient_spelled {text : List Char}
    (hcheck : checkHexRecipient text = true) :
    ∃ bytes, spelledBytes text = some bytes ∧ bytes.length = 20 := by
  unfold checkHexRecipient utilityStringIsHex at hcheck
  split at hcheck
  next x digits =>
    simp only [Bool.and_eq_true, Bool.or_eq_true, beq_iff_eq,
      decide_eq_true_eq, List.all_eq_true, List.length_cons] at hcheck
    obtain ⟨⟨⟨hlead, -⟩, hall⟩, hlength⟩ := hcheck
    have hdigits : hexDigits ('0' :: x :: digits) = digits := by
      rcases hlead with rfl | rfl <;> rfl
    obtain ⟨bytes, hread, hbytes⟩ := exists_ofHex 20 hall (by omega)
    have hne : digits ≠ [] := by
      rintro rfl
      cases hlength
    refine ⟨bytes, ?_, hbytes⟩
    rw [spelledBytes, hdigits, if_neg hne, if_pos (by omega), hread]
  next =>
    rw [Bool.false_and] at hcheck
    cases hcheck

section Init

variable {api : TxApi} {env : SendEnv} {args : TxInitArgs}
  {state state' : SendState}

/-- What an initialization leaves of its strings. -/
structure InitAmounts (gaspriceStr gaslimitStr : Option (List Char))
    (recipientStr : List Char) (fields : RawtxFields) : Prop where
  gasprice : ∀ text ∈ gaspriceStr, EncodesNumber text (fields.bytes .gasprice)
  gaslimit : ∀ text ∈ gaslimitStr, EncodesNumber text (fields.bytes .gaslimit)
  recipient : spelledBytes recipientStr = some (fields.bytes .recipient)

/-- The bytes of a field that was given. -/
def BoatFieldMax.given {size : Nat} (field : BoatFieldMax size) : List UInt8 :=
  field.field.bytes.take field.fieldLen

theorem modifyFields_bytes {change : RawtxFields → RawtxFields} {done : Unit}
    (hrun : modifyFields change state = .ok done state') (object : RlpVar) :
    state'.tx.rawtxFields.bytes object =
      (change state.tx.rawtxFields).bytes object := by
  cases hrun
  rfl

theorem txInitGasPrice_bytes
    (hzero : state.tx.rawtxFields.gasprice.fieldLen = 0)
    (hrun : txInitGasPrice api env args state = .ok () state') :
    (api.gasPriceGiven = true → ∀ text ∈ args.gaspriceStr,
        state'.tx.rawtxFields.bytes .gasprice = (localField text).given) ∧
      (api.gasPriceGiven = false →
        state'.tx.rawtxFields.bytes .gasprice = []) := by
  constructor
  · intro hgiven text htext
    rw [txInitGasPrice, if_pos hgiven, Option.mem_def.mp htext,
      Option.map_some, txSetGasPrice] at hrun
    exact modifyFields_bytes hrun .gasprice
  · intro hgiven
    rw [txInitGasPrice, hgiven, if_neg Bool.false_ne_true] at hrun
    rw [modifyFields_bytes hrun, RawtxFields.bytes, RawtxFields.stringLen,
      hzero, List.take_zero]

theorem txInitRecipient_bytes {recipientStr : List Char}
    (hrun : txInitRecipient api recipientStr state = .ok () state') :
    ∃ recipient, api.recipient recipientStr = .ok recipient ∧
      state'.tx.rawtxFields.bytes .recipient = recipient.bytes := by
  unfold txInitRecipient at hrun
  cases hrecipient : api.recipient recipientStr with
  | error code =>
      rw [hrecipient] at hrun
      cases hrun
  | ok recipient =>
      rw [hrecipient] at hrun
      refine ⟨recipient, rfl, ?_⟩
      rw [modifyFields_bytes hrun]
      exact List.take_of_length_le recipient.length_bytes.le

/-- The fields after an initialization that is not rejected. -/
theorem txInit_bytes (hrun : txInit api env args state = .ok () state') :
    txInitRefuses api args = false ∧
      (api.gasPriceGiven = true → ∀ text ∈ args.gaspriceStr,
        state'.tx.rawtxFields.bytes .gasprice = (localField text).given) ∧
      (api.gasPriceGiven = false →
        state'.tx.rawtxFields.bytes .gasprice = []) ∧
      state'.tx.rawtxFields.bytes .gaslimit =
        (localField (args.gaslimitStr.getD [])).given ∧
      ∃ recipient, api.recipient args.recipientStr = .ok recipient ∧
        state'.tx.rawtxFields.bytes .recipient = recipient.bytes := by
  unfold txInit at hrun
  split at hrun
  · cases hrun
  next hpassed =>
    obtain ⟨_, cleared, hclear, hrun⟩ := Exec.bind_eq_ok.mp hrun
    obtain ⟨_, priced, hprice, hrun⟩ := Exec.bind_eq_ok.mp hrun
    obtain ⟨_, limited, hlimit, hrun⟩ := Exec.bind_eq_ok.mp hrun
    obtain ⟨_, addressed, haddress, hrun⟩ := Exec.bind_eq_ok.mp hrun
    obtain ⟨_, valued, hvalue, htxtype⟩ := Exec.bind_eq_ok.mp hrun
    cases hclear
    have hkept : ∀ object, object ≠ .txtype → object ≠ .value →
        state'.tx.rawtxFields.bytes object =
          addressed.tx.rawtxFields.bytes object := by
      intro object htype hother
      rw [← (txSetValue_wrote hvalue).others object hother]
      split at htxtype
      · exact (txSetTxtype_wrote htxtype).others object htype
      · obtain ⟨_, rfl⟩ := Exec.pure_eq_ok.mp htxtype
        rfl
    have hlimited : limited.tx.rawtxFields.bytes .gaslimit =
        (localField (args.gaslimitStr.getD [])).given := by
      have hset := hlimit
      rw [txSetGasLimit] at hset
      exact modifyFields_bytes hset .gaslimit
    have hpriced := txInitGasPrice_bytes rfl hprice
    rw [← (txSetGasLimit_wrote hlimit).others .gasprice (by decide),
      ← (txInitRecipient_wrote haddress).others .gasprice (by decide),
      ← hkept .gasprice (by decide) (by decide)] at hpriced
    rw [← (txInitRecipient_wrote haddress).others .gaslimit (by decide),
      ← hkept .gaslimit (by decide) (by decide)] at hlimited
    obtain ⟨recipient, hrecipient, hbytes⟩ := txInitRecipient_bytes haddress
    rw [← hkept .recipient (by decide) (by decide)] at hbytes
    exact ⟨by simpa using hpassed, hpriced.1, hpriced.2, hlimited, recipient,
      hrecipient, hbytes⟩

/-- The gas limit of an initialization. -/
theorem gaslimit_iff {gaslimitStr : Option (List Char)} {fields : RawtxFields}
    (hbytes : ∀ text ∈ gaslimitStr,
      fields.bytes .gaslimit = (localField text).given) :
    (∀ text ∈ gaslimitStr, EncodesNumber text (fields.bytes .gaslimit)) ↔
      ∀ text ∈ gaslimitStr, FitsField text := by
  refine forall_congr' fun text => forall_congr' fun htext => ?_
  rw [hbytes text htext]
  exact ofHex_encodesNumber_iff _ text

/-- The recipient of an initialization that looks at its text. -/
theorem hexRecipient_spelled {recipientStr : List Char} {recipient : Block 20}
    (hcheck : checkHexRecipient recipientStr = true)
    (hrecipient : hexRecipient recipientStr = .ok recipient) :
    spelledBytes recipientStr = some recipient.bytes := by
  simp only [hexRecipient] at hrecipient
  split at hrecipient
  · cases hrecipient
  · obtain rfl := Except.ok.inj hrecipient
    exact (overlay_spelled_iff _ _).mpr (checkHexRecipient_spelled hcheck)

/-- The recipient after an initialization that looks at its text. -/
theorem txInit_spelled (hcheck : api.checkRecipient = checkHexRecipient)
    (hrecipient : api.recipient = hexRecipient)
    (hrun : txInit api env args state = .ok () state') :
    spelledBytes args.recipientStr =
      some (state'.tx.rawtxFields.bytes .recipient) := by
  obtain ⟨hpassed, -, -, -, recipient, hread, haddress⟩ := txInit_bytes hrun
  rw [hrecipient] at hread
  rw [haddress]
  refine hexRecipient_spelled ?_ hread
  rw [← hcheck]
  simp only [txInitRefuses, Bool.or_eq_false_iff, Bool.not_eq_false'] at hpassed
  exact hpassed.2

/-- The gas limit after an initialization. -/
theorem txInit_gaslimit_iff
    (hrun : txInit api env args state = .ok () state') :
    (∀ text ∈ args.gaslimitStr,
        EncodesNumber text (state'.tx.rawtxFields.bytes .gaslimit)) ↔
      ∀ text ∈ args.gaslimitStr, FitsField text := by
  obtain ⟨-, -, -, hlimit, -⟩ := txInit_bytes hrun
  refine gaslimit_iff fun text htext => ?_
  rw [hlimit, Option.mem_def.mp htext, Option.getD_some]

/-- Ethereum keeps what its strings denote where the numbers fit. -/
theorem ethTxInit_amounts
    (hrun : txInit ethApi env args state = .ok () state') :
    InitAmounts args.gaspriceStr args.gaslimitStr args.recipientStr
        state'.tx.rawtxFields ↔
      (∀ text ∈ args.gaspriceStr, FitsField text) ∧
        ∀ text ∈ args.gaslimitStr, FitsField text := by
  obtain ⟨-, hprice, -⟩ := txInit_bytes hrun
  have hgasprice : (∀ text ∈ args.gaspriceStr,
      EncodesNumber text (state'.tx.rawtxFields.bytes .gasprice)) ↔
        ∀ text ∈ args.gaspriceStr, FitsField text := by
    refine forall_congr' fun text => forall_congr' fun htext => ?_
    rw [hprice rfl text htext]
    exact ofHex_encodesNumber_iff _ text
  rw [← hgasprice, ← txInit_gaslimit_iff hrun]
  constructor
  · intro hamounts
    exact ⟨hamounts.gasprice, hamounts.gaslimit⟩
  · rintro ⟨hprices, hlimits⟩
    exact ⟨hprices, hlimits, txInit_spelled rfl rfl hrun⟩

/-- Quorum ignores the gas price: only a zero is kept. -/
theorem quorumTxInit_amounts
    (hrun : txInit quorumApi env args state = .ok () state') :
    InitAmounts args.gaspriceStr args.gaslimitStr args.recipientStr
        state'.tx.rawtxFields ↔
      (∀ text ∈ args.gaspriceStr, numberOf text = some 0) ∧
        ∀ text ∈ args.gaslimitStr, FitsField text := by
  obtain ⟨-, -, hprice, -⟩ := txInit_bytes hrun
  have hgasprice : (∀ text ∈ args.gaspriceStr,
      EncodesNumber text (state'.tx.rawtxFields.bytes .gasprice)) ↔
        ∀ text ∈ args.gaspriceStr, numberOf text = some 0 := by
    refine forall_congr' fun text => forall_congr' fun htext => ?_
    rw [hprice rfl]
    constructor
    · rintro ⟨n, hn, hnil⟩
      rw [hn, (bigEndian_eq_nil_iff n).mp hnil.symm]
    · intro hzero
      exact ⟨0, hzero, rfl⟩
  rw [← hgasprice, ← txInit_gaslimit_iff hrun]
  constructor
  · intro hamounts
    exact ⟨hamounts.gasprice, hamounts.gaslimit⟩
  · rintro ⟨hprices, hlimits⟩
    exact ⟨hprices, hlimits, txInit_spelled rfl rfl hrun⟩

end Init

section Fiscobcos

variable {env : SendEnv} {stack : Block 20} {args : FiscobcosInitArgs}
  {state state' : SendState}

/-- The fields that prices, limits and recipients go into. -/
def RawtxFields.amounts (fields : RawtxFields) :
    List UInt8 × List UInt8 × List UInt8 :=
  (fields.bytes .gasprice, fields.bytes .gaslimit, fields.bytes .recipient)

def SendState.amounts (state : SendState) :
    List UInt8 × List UInt8 × List UInt8 :=
  state.tx.rawtxFields.amounts

theorem modifyFields_amounts {change : RawtxFields → RawtxFields}
    (hchange : ∀ fields, RawtxFields.amounts (change fields) = fields.amounts) :
    Exec.Keeps SendState.amounts (modifyFields change) :=
  fun state => hchange state.tx.rawtxFields

theorem setNonEmpty_amounts {field : RawtxFields → BoatFieldMax 32}
    {change : RawtxFields → RawtxFields}
    (hchange : ∀ fields, RawtxFields.amounts (change fields) = fields.amounts) :
    Exec.Keeps SendState.amounts (setNonEmpty field change) := by
  refine (modifyFields_amounts hchange).bind fun _ => ?_
  intro state
  simp only
  split <;> rfl

theorem keepBlockNumber_amounts (response : List Char) :
    Exec.Keeps SendState.amounts (keepBlockNumber env response) :=
  fun state => keepParsed_keeps _ (fun _ _ => rfl) _ state

theorem initBlocklimit_amounts (blockNumber : NodeAnswer) :
    Exec.Keeps SendState.amounts (initBlocklimit env blockNumber) := by
  cases blockNumber with
  | error code => exact fun _ => rfl
  | ok response =>
      refine (keepBlockNumber_amounts response).bind fun _ => ?_
      have hnumber : Exec.Keeps SendState.amounts setBlockNumber := by
        intro state
        refine setNonEmpty_amounts ?_ state
        exact fun _ => rfl
      exact hnumber.bind fun _ => modifyFields_amounts fun _ => rfl

variable (env) in
theorem fiscobcosInitGroup_amounts (args : FiscobcosInitArgs) :
    Exec.Keeps SendState.amounts (fiscobcosInitGroup env args) := by
  refine Exec.Keeps.bind (setNonEmpty_amounts ?_) fun _ =>
    Exec.Keeps.bind (setNonEmpty_amounts ?_) fun _ =>
      (initBlocklimit_amounts _).bind fun _ _ => rfl
  · exact fun _ => rfl
  · exact fun _ => rfl

/-- The fields after an initialization for FISCO BCOS that is not rejected. -/
theorem boatFiscobcosTxInit_bytes
    (hrun : boatFiscobcosTxInit env stack args state = .ok () state') :
    ∃ gaspriceStr recipientStr recipient,
      args.gaspriceStr = some gaspriceStr ∧
      args.recipientStr = some recipientStr ∧
      fiscobcosRecipient stack recipientStr = .ok recipient ∧
      state'.amounts = ((localField gaspriceStr).given,
        (BoatFieldMax.ofHexStr (.zero 32) args.gaslimitStr).given,
        recipient.bytes) := by
  cases hgasprice : args.gaspriceStr with
  | none =>
      rw [boatFiscobcosTxInit, hgasprice] at hrun
      cases hrun
  | some gaspriceStr =>
  cases hrecipientStr : args.recipientStr with
  | none =>
      rw [boatFiscobcosTxInit, hgasprice, hrecipientStr] at hrun
      cases hrun
  | some recipientStr =>
  rw [boatFiscobcosTxInit, hgasprice, hrecipientStr] at hrun
  obtain ⟨_, cleared, hclear, hrun⟩ := Exec.bind_eq_ok.mp hrun
  obtain ⟨_, priced, hprice, hrun⟩ := Exec.bind_eq_ok.mp hrun
  obtain ⟨_, limited, hlimit, hrun⟩ := Exec.bind_eq_ok.mp hrun
  obtain ⟨_, addressed, haddress, hrun⟩ := Exec.bind_eq_ok.mp hrun
  have hamounts := fiscobcosInitGroup_amounts env args addressed
  rw [hrun] at hamounts
  unfold fiscobcosInitRecipient at haddress
  cases hrecipient : fiscobcosRecipient stack recipientStr with
  | error code =>
      rw [hrecipient] at haddress
      cases haddress
  | ok recipient =>
      rw [hrecipient] at haddress
      cases hclear
      cases hprice
      cases hlimit
      cases haddress
      refine ⟨gaspriceStr, recipientStr, recipient, rfl, rfl, hrecipient,
        hamounts.trans ?_⟩
      have hfull : recipient.bytes.take 20 = recipient.bytes :=
        List.take_of_length_le recipient.length_bytes.le
      exact congrArg (fun bytes => ((localField gaspriceStr).given,
        (BoatFieldMax.ofHexStr (.zero 32) args.gaslimitStr).given, bytes)) hfull

/-- FISCO BCOS looks at no string: each must denote a number that fits, and the
recipient twenty bytes. -/
theorem boatFiscobcosTxInit_amounts
    (hrun : boatFiscobcosTxInit env stack args state = .ok () state') :
    InitAmounts args.gaspriceStr args.gaslimitStr
        (args.recipientStr.getD []) state'.tx.rawtxFields ↔
      (∀ text ∈ args.gaspriceStr, FitsField text) ∧
        (∀ text ∈ args.gaslimitStr, FitsField text) ∧
        ∃ bytes, spelledBytes (args.recipientStr.getD []) = some bytes ∧
          bytes.length = 20 := by
  obtain ⟨gaspriceStr, recipientStr, recipient, hgasprice, hrecipientStr,
    hrecipient, hamounts⟩ := boatFiscobcosTxInit_bytes hrun
  obtain ⟨hprice, hrest⟩ := Prod.mk.inj hamounts
  obtain ⟨hlimit, haddress⟩ := Prod.mk.inj hrest
  have hprices : (∀ text ∈ args.gaspriceStr,
      EncodesNumber text (state'.tx.rawtxFields.bytes .gasprice)) ↔
        ∀ text ∈ args.gaspriceStr, FitsField text := by
    refine forall_congr' fun text => forall_congr' fun htext => ?_
    obtain rfl := Option.some.inj (hgasprice.symm.trans htext)
    rw [hprice]
    exact ofHex_encodesNumber_iff _ _
  have hlimits : (∀ text ∈ args.gaslimitStr,
      EncodesNumber text (state'.tx.rawtxFields.bytes .gaslimit)) ↔
        ∀ text ∈ args.gaslimitStr, FitsField text := by
    refine gaslimit_iff fun text htext => ?_
    rw [hlimit, Option.mem_def.mp htext]
    rfl
  have hrecipients : spelledBytes (args.recipientStr.getD []) =
      some (state'.tx.rawtxFields.bytes .recipient) ↔
        ∃ bytes, spelledBytes (args.recipientStr.getD []) = some bytes ∧
          bytes.length = 20 := by
    simp only [fiscobcosRecipient] at hrecipient
    split at hrecipient
    · cases hrecipient
    · obtain rfl := Except.ok.inj hrecipient
      rw [haddress, hrecipientStr, Option.getD_some]
      exact overlay_spelled_iff stack recipientStr
  rw [← hprices, ← hlimits, ← hrecipients]
  constructor
  · intro hkept
    exact ⟨hkept.gasprice, hkept.gaslimit, hkept.recipient⟩
  · rintro ⟨hgasprices, hgaslimits, hspelled⟩
    exact ⟨hgasprices, hgaslimits, hspelled⟩

end Fiscobcos

/-- `BoatEthTxSend`. -/
def boatEthTxSend (env : SendEnv) (node : ReceiptNode) (isSyncTx : Bool) :
    SendM Unit :=
  if isSyncTx then boatEthSendRawtxWithReceipt env node else ethSendRawtx env

/-- `BoatEthTransfer`, with the node's answer about the transaction count. -/
def boatEthTransfer (env : SendEnv) (node : ReceiptNode) (isSyncTx : Bool)
    (txCount : NodeAnswer) (valueHexStr : Option (List Char)) : SendM Unit :=
  match valueHexStr with
  | none => sendThrow boatErrorCommonInvalidArgument
  | some text => do
      txSetNonce ethApi env boatNonceAuto txCount
      txSetValue (some (localField text))
      txSetData none
      boatEthTxSend env node isSyncTx

/-- A run sent one transaction, and its value is the number a string denotes. -/
def TransfersNumber (text : List Char) (state state' : SendState) : Prop :=
  ∃ request items value, state'.sends = state.sends ++ [request] ∧
    request.Carries items ∧ items[4]? = some value ∧ EncodesNumber text value

section Transfer

variable {env : SendEnv} {node : ReceiptNode} {isSyncTx : Bool}
  {txCount : NodeAnswer} {state state' : SendState}

theorem keepAnswer_sends (api : TxApi) (response : List Char) :
    Exec.Keeps SendState.sends (keepAnswer api env response) :=
  fun state => keepParsed_keeps _ (fun _ _ => rfl) _ state

theorem txSetNonce_sends (api : TxApi) (nonce : UInt64) (txCount : NodeAnswer) :
    Exec.Keeps SendState.sends (txSetNonce api env nonce txCount) := by
  unfold txSetNonce
  split
  · cases txCount with
    | error code => exact sendThrow_keeps _
    | ok response => exact (keepAnswer_sends api response).bind fun _ _ => rfl
  · exact fun _ => rfl

theorem judgeParsed_sends {again : SendM Unit}
    (hagain : Exec.Keeps SendState.sends again)
    (parsed : BoatResult × ResultBuffer) :
    Exec.Keeps SendState.sends (judgeParsed again parsed) := by
  intro state
  unfold judgeParsed
  simp only
  split
  · exact hagain _
  · split
    · unfold judgeReceipt
      split
      · rfl
      · split <;> rfl
    · rfl

theorem judgeAnswer_sends {again : SendM Unit}
    (hagain : Exec.Keeps SendState.sends again) (response : List Char) :
    Exec.Keeps SendState.sends (judgeAnswer env again response) := by
  intro state
  unfold judgeAnswer
  split
  · rfl
  · exact judgeParsed_sends hagain _ state

/-- The poll for a receipt sends no transaction; by induction on the polls. -/
theorem pollReceipt_sends (answers : Nat → NodeAnswer) (polls poll : Nat) :
    Exec.Keeps SendState.sends (pollReceipt env answers polls poll) := by
  induction polls generalizing poll with
  | zero => exact sendThrow_keeps _
  | succ polls ih =>
      rw [pollReceipt]
      split
      · exact sendThrow_keeps _
      · exact judgeAnswer_sends (ih (poll + 1)) _

/-- A send that succeeds sent one transaction, with the value it was given. -/
theorem boatEthTxSend_value (hmalloc : Fresh env.malloc)
    (hrun : boatEthTxSend env node isSyncTx state = .ok () state') :
    ∃ request items, state'.sends = state.sends ++ [request] ∧
      request.Carries items ∧
      items[4]? = some (state.tx.rawtxFields.bytes .value) := by
  obtain ⟨sent, hsend, hsends⟩ : ∃ sent,
      sendRawtx ethSender env state = .ok () sent ∧
        state'.sends = sent.sends := by
    unfold boatEthTxSend at hrun
    split at hrun
    · obtain ⟨_, sent, hsend, hpoll⟩ := Exec.bind_eq_ok.mp hrun
      have hkept : Exec.Keeps SendState.sends (pollReceipt env
          (node (txHashStr sent)) receiptPolls 0) := pollReceipt_sends _ _ _
      replace hkept := hkept sent
      unfold boatEthGetTransactionReceipt at hpoll
      rw [hpoll] at hkept
      exact ⟨sent, hsend, hkept⟩
    · exact ⟨state', hrun, rfl⟩
  obtain ⟨fields, message, signature, stream, request, hfields, hevents, -, -,
    hstream, hsize, hrequest⟩ := sendRawtx_ok ethSender_wellFormed hmalloc hsend
  refine ⟨request, ethSender.leading.map fields.bytes ++
    ethSender.signatureItems state.tx signature,
    hsends.trans (SendState.sends_of_events hevents), ⟨?_, ?_⟩, ?_⟩
  · exact hstream ▸ hsize
  · exact hstream ▸ hrequest
  · rw [← hfields .value List.not_mem_nil]
    rfl

/-- A transfer sends the number its string denotes where that fits. -/
theorem boatEthTransfer_number (hmalloc : Fresh env.malloc) {text : List Char}
    (hrun : boatEthTransfer env node isSyncTx txCount (some text) state =
      .ok () state') :
    TransfersNumber text state state' ↔ FitsField text := by
  obtain ⟨_, counted, hnonce, hrun⟩ := Exec.bind_eq_ok.mp hrun
  obtain ⟨_, valued, hvalue, hrun⟩ := Exec.bind_eq_ok.mp hrun
  obtain ⟨_, ready, hdata, hrun⟩ := Exec.bind_eq_ok.mp hrun
  obtain ⟨request, items, hsends, hcarries, hitem⟩ :=
    boatEthTxSend_value hmalloc hrun
  have hkept : Exec.Keeps SendState.sends
      (txSetNonce ethApi env boatNonceAuto txCount) := txSetNonce_sends _ _ _
  have hcounted := hkept state
  rw [hnonce] at hcounted
  rw [(txSetData_wrote hdata).others .value (by decide)] at hitem
  rw [txSetValue] at hvalue
  rw [modifyFields_bytes hvalue] at hitem
  cases hvalue
  cases hdata
  replace hsends : state'.sends = state.sends ++ [request] :=
    hsends.trans (congrArg (· ++ [request]) hcounted)
  rw [← ofHex_encodesNumber_iff (.zero 32) text]
  constructor
  · rintro ⟨other, otherItems, value, hother, hotherCarries, hvalue, hnumber⟩
    obtain rfl : request = other :=
      List.singleton_inj.mp (List.append_cancel_left (hsends.symm.trans hother))
    rw [hotherCarries.unique hcarries, hitem] at hvalue
    obtain rfl := Option.some.inj hvalue
    exact hnumber
  · intro hnumber
    exact ⟨request, items, _, hsends, hcarries, hitem, hnumber⟩

end Transfer

/-- Which accepted strings are kept as the numbers they denote. -/
theorem acceptedAmounts_iff {env : SendEnv} (hmalloc : Fresh env.malloc) :
    (∀ args state state', txInit ethApi env args state = .ok () state' →
      (InitAmounts args.gaspriceStr args.gaslimitStr args.recipientStr
          state'.tx.rawtxFields ↔
        (∀ text ∈ args.gaspriceStr, FitsField text) ∧
          ∀ text ∈ args.gaslimitStr, FitsField text)) ∧
    (∀ args state state', txInit quorumApi env args state = .ok () state' →
      (InitAmounts args.gaspriceStr args.gaslimitStr args.recipientStr
          state'.tx.rawtxFields ↔
        (∀ text ∈ args.gaspriceStr, numberOf text = some 0) ∧
          ∀ text ∈ args.gaslimitStr, FitsField text)) ∧
    (∀ stack args state state',
      boatFiscobcosTxInit env stack args state = .ok () state' →
      (InitAmounts args.gaspriceStr args.gaslimitStr
          (args.recipientStr.getD []) state'.tx.rawtxFields ↔
        (∀ text ∈ args.gaspriceStr, FitsField text) ∧
          (∀ text ∈ args.gaslimitStr, FitsField text) ∧
          ∃ bytes, spelledBytes (args.recipientStr.getD []) = some bytes ∧
            bytes.length = 20)) ∧
    ∀ node isSyncTx txCount text state state',
      boatEthTransfer env node isSyncTx txCount (some text) state =
        .ok () state' →
      (TransfersNumber text state state' ↔ FitsField text) :=
  ⟨fun _ _ _ hrun => ethTxInit_amounts hrun,
    fun _ _ _ hrun => quorumTxInit_amounts hrun,
    fun _ _ _ _ hrun => boatFiscobcosTxInit_amounts hrun,
    fun _ _ _ _ _ _ hrun => boatEthTransfer_number hmalloc hrun⟩

/-- A transfer of one wei to the zero address is accepted and right. -/
theorem acceptedAmounts_iff_one :
    ∃ state', boatEthTransfer (sampleEnv 1) (fun _ _ => .ok []) false (.ok [])
        (some "0x1".toList) (sampleState ⟨1, true⟩ .zero) = .ok () state' ∧
      TransfersNumber "0x1".toList (sampleState ⟨1, true⟩ .zero) state' := by
  obtain ⟨state', hrun⟩ := exists_of_succeeds
    (boatEthTransfer (sampleEnv 1) (fun _ _ => .ok []) false (.ok [])
      (some "0x1".toList) (sampleState ⟨1, true⟩ .zero)) (by decide +kernel)
  exact ⟨state', hrun, ((acceptedAmounts_iff zeroMalloc_fresh).2.2.2 _ _ _ _ _ _
    hrun).mpr ⟨1, rfl, by decide⟩⟩

/-- A value that is no number is accepted, and nothing is transferred. -/
theorem not_transfersNumber_word :
    ∃ state', boatEthTransfer (sampleEnv 1) (fun _ _ => .ok []) false (.ok [])
        (some "1 ether".toList) (sampleState ⟨1, true⟩ .zero) =
          .ok () state' ∧
      ¬ TransfersNumber "1 ether".toList (sampleState ⟨1, true⟩ .zero)
        state' := by
  obtain ⟨state', hrun⟩ := exists_of_succeeds
    (boatEthTransfer (sampleEnv 1) (fun _ _ => .ok []) false (.ok [])
      (some "1 ether".toList) (sampleState ⟨1, true⟩ .zero)) (by decide +kernel)
  refine ⟨state', hrun, ?_⟩
  rintro ⟨_, _, _, -, -, -, n, hn, -⟩
  have hnone : numberOf "1 ether".toList = none := by decide
  rw [hnone] at hn
  cases hn

end BoatFramework
