/-
`BoatPlatONTxInit`: the recipient is a text in the Bech32 form, decoded into an
array of 20 bytes and kept as a text of 45.
-/
import BoatFramework.Platon.RoundTrip
import BoatFramework.Tx.Chains
import BoatFramework.Tx.Setters

namespace BoatFramework

open Bech32 (separator)

/-- `BoatPlatONTx`: what it shares with the other chains, the text of the
recipient and the text of the sender's address. -/
structure BoatPlatONTx where
  send : SendState
  recipientbech32 : Block 45
  address : Block 45

abbrev PlatonM := EStateM Failure BoatPlatONTx

/-- The arguments of `BoatPlatONTxInit`, the account of the wallet, and the
node's answer about the gas price. -/
structure PlatonInitArgs where
  gaspriceStr : Option (List Char)
  gaslimitStr : Option (List Char)
  recipientStr : List UInt8
  hrpStr : List UInt8
  account : Block 20
  netPrice : NodeAnswer

def platonThrow {α : Type} (code : BoatResult) : PlatonM α :=
  fun tx => .error (.code code) tx

/-- A step on what is shared with the other chains. -/
def onSend (program : SendM Unit) : PlatonM Unit :=
  fun tx =>
    match program tx.send with
    | .ok _ send => .ok () { tx with send }
    | .error failure send => .error failure { tx with send }

/-- The texts that are refused before anything is changed. -/
def platonRefuses (args : PlatonInitArgs) : Bool :=
  (args.gaspriceStr.any fun text => !utilityStringIsHex text) ||
    (args.gaslimitStr.any fun text => !utilityStringIsHex text) ||
    decide (boatStringMaxLen ≤ args.recipientStr.length)

/-- `memset` over the raw fields, the text of the recipient among them. -/
def clearRawtxFields : PlatonM Unit :=
  fun tx => .ok () { tx with
    send := tx.send.clear false
    recipientbech32 := .zero 45 }

/-- The prefix as the encoder is given it: its length is a `BUINT8`. -/
def hrpGiven (args : PlatonInitArgs) : List UInt8 :=
  args.hrpStr.take (args.hrpStr.length % 256)

/-- The address of the account, with its terminator. -/
def encodeAddress (args : PlatonInitArgs) : PlatonM Unit :=
  fun tx =>
    match boatPlatONBech32Encode args.account.bytes (hrpGiven args) with
    | .error failure => .error failure tx
    | .ok (result, text) =>
        if result = boatError then
          .error (.code boatErrorCommonInvalidArgument) tx
        else if 45 < text.length + 1 then .error .undefined tx
        else .ok () { tx with address := tx.address.overlay (text ++ [0]) }

/-- The recipient, decoded over what the stack held, and its text. -/
def setRecipient (stack : Block 20) (recipientStr : List UInt8) :
    PlatonM Unit :=
  fun tx =>
    match boatPlatONBech32Decode recipientStr with
    | .error failure => .error failure tx
    | .ok (convertedLen, out) =>
        if 20 < out.length then .error .undefined tx
        else if convertedLen ≤ 0 then
          .error (.code boatErrorCommonInvalidArgument) tx
        else if 45 < recipientStr.length then .error .undefined tx
        else
          onSend (txSetRecipient (stack.overlay out))
            { tx with recipientbech32 := (Block.zero 45).overlay recipientStr }

/-- `BoatPlatONTxSetGasPrice` on the price a transaction starts with. -/
def platonTxSetGasPrice (env : SendEnv) (args : PlatonInitArgs) : SendM Unit :=
  txSetGasPrice (platonApi fun _ => none) env (args.gaspriceStr.map localField)
    args.netPrice

/-- `BoatPlatONTxInit`; `stack` is what its local array held before. -/
def boatPlatONTxInit (env : SendEnv) (stack : Block 20)
    (args : PlatonInitArgs) : PlatonM Unit :=
  if platonRefuses args then platonThrow boatErrorCommonInvalidArgument
  else do
    clearRawtxFields
    encodeAddress args
    onSend (platonTxSetGasPrice env args)
    onSend (txSetGasLimit (some (localField (args.gaslimitStr.getD []))))
    setRecipient stack args.recipientStr
    onSend (txSetValue none)

/-- A text is an address of 20 bytes under the prefix. -/
def AddressUnder (hrp text out : List UInt8) : Prop :=
  boatPlatONBech32Decode text = .ok (20, out) ∧
    text.take (text.idxOf separator) = hrp

/-- A recipient is stored for an address under the prefix only, as its bytes,
and everything else ends in an error code. -/
def StoresAddress (args : PlatonInitArgs) :
    EStateM.Result Failure BoatPlatONTx Unit → Prop
  | .ok _ tx => ∃ out, AddressUnder args.hrpStr args.recipientStr out ∧
      tx.send.tx.rawtxFields.recipient.bytes = out
  | .error (.code code) _ => code ≠ boatSuccess
  | .error .undefined _ => False

/-- The node gives no gas price where one is asked for. -/
def PriceFails (env : SendEnv) (args : PlatonInitArgs) (buffer : ResultBuffer) :
    Prop :=
  args.gaspriceStr = none ∧
    ∀ response, args.netPrice = .ok response → ∃ code left,
      platonParseJsonResult env.cJSONParse env.malloc response [] buffer =
        .ok (code, left) ∧ code ≠ boatSuccess

/-- The node answers with an array where a gas price is asked for. -/
def PriceUndefined (env : SendEnv) (args : PlatonInitArgs) : Prop :=
  args.gaspriceStr = none ∧
    ∃ response, args.netPrice = .ok response ∧
      Nameless (env.cJSONParse response)

section Steps

variable {env : SendEnv} {args : PlatonInitArgs} {stack : Block 20}
  {tx tx' : BoatPlatONTx} {program : SendM Unit}

theorem onSend_ok {send : SendState} (hrun : program tx.send = .ok () send) :
    onSend program tx = .ok () { tx with send } := by
  rw [onSend, hrun]

theorem onSend_error {failure : Failure} {send : SendState}
    (hrun : program tx.send = .error failure send) :
    onSend program tx = .error failure { tx with send } := by
  rw [onSend, hrun]

/-- The account takes 32 characters and the checksum six. -/
theorem boatPlatONBech32Encode_account (account : Block 20) {hrp : List UInt8}
    (hhrp : 1 ≤ hrp.length ∧ hrp.length ≤ 83) :
    ∃ text, boatPlatONBech32Encode account.bytes hrp =
        .ok ((text.length : Int), text) ∧ text.length = hrp.length + 39 := by
  have haccount := account.length_bytes
  have hlength := length_bech32Text account.bytes hrp
  rw [haccount] at hlength
  refine ⟨_, boatPlatONBech32Encode_eq hhrp ?_, hlength⟩
  rw [haccount]
  omega

theorem length_hrpGiven (args : PlatonInitArgs) :
    (hrpGiven args).length = args.hrpStr.length % 256 := by
  rw [hrpGiven, List.length_take]
  exact Nat.min_eq_left (Nat.mod_le _ _)

theorem encodeAddress_refuses
    (hhrp : args.hrpStr.length % 256 = 0 ∨ 83 < args.hrpStr.length % 256) :
    encodeAddress args tx =
      .error (.code boatErrorCommonInvalidArgument) tx := by
  have hencode : boatPlatONBech32Encode args.account.bytes (hrpGiven args) =
      .ok (-1, []) := by
    rw [boatPlatONBech32Encode, length_hrpGiven, if_pos hhrp]
  simp only [encodeAddress, hencode]
  rfl

theorem encodeAddress_writes (hhrp : 1 ≤ args.hrpStr.length % 256)
    (hshort : args.hrpStr.length % 256 ≤ 5) :
    ∃ address, encodeAddress args tx = .ok () { tx with address } := by
  have hgiven := length_hrpGiven args
  obtain ⟨text, hencode, hlength⟩ := @boatPlatONBech32Encode_account
    args.account (hrpGiven args) (by omega)
  have hresult : (text.length : Int) ≠ boatError := by
    rw [boatError]
    omega
  refine ⟨tx.address.overlay (text ++ [0]), ?_⟩
  simp only [encodeAddress, hencode]
  rw [if_neg hresult, if_neg (by omega)]

theorem encodeAddress_undefined (hhrp : 5 < args.hrpStr.length % 256)
    (hshort : args.hrpStr.length % 256 ≤ 83) :
    encodeAddress args tx = .error .undefined tx := by
  have hgiven := length_hrpGiven args
  obtain ⟨text, hencode, hlength⟩ := @boatPlatONBech32Encode_account
    args.account (hrpGiven args) (by omega)
  have hresult : (text.length : Int) ≠ boatError := by
    rw [boatError]
    omega
  simp only [encodeAddress, hencode]
  rw [if_neg hresult, if_pos (by omega)]

/-- The gas price is set, unless the node gives none. -/
theorem platonTxSetGasPrice_ok
    (hprice : ¬PriceFails env args tx.send.resultBuf)
    (hdefined : ¬PriceUndefined env args) :
    ∃ send, onSend (platonTxSetGasPrice env args) tx =
      .ok () { tx with send } := by
  unfold platonTxSetGasPrice
  cases hgasprice : args.gaspriceStr with
  | some gaspriceStr => exact ⟨_, onSend_ok rfl⟩
  | none =>
      cases hnet : args.netPrice with
      | error code =>
          exfalso
          apply hprice
          refine ⟨hgasprice, fun response hresponse => ?_⟩
          rw [hnet] at hresponse
          cases hresponse
      | ok response =>
          have hnamed : ¬Nameless (env.cJSONParse response) :=
            fun hnameless => hdefined ⟨hgasprice, response, hnet, hnameless⟩
          obtain ⟨⟨code, left⟩, hparsed⟩ := @ethParseJsonResult_defined
            env.cJSONParse env.malloc response [] tx.send.resultBuf hnamed
          have hsuccess : code = boatSuccess := by
            by_contra hne
            apply hprice
            refine ⟨hgasprice, fun response' hresponse => ?_⟩
            obtain rfl := Except.ok.inj (hnet.symm.trans hresponse)
            exact ⟨code, left, hparsed, hne⟩
          subst hsuccess
          have hkeep : keepAnswer (platonApi fun _ => none) env response
              tx.send = .ok () (tx.send.setResultBuf left) :=
            keepParsed_ok_iff.mpr ⟨left, hparsed, rfl⟩
          exact ⟨_, onSend_ok (Exec.bind_ok hkeep)⟩

theorem platonTxSetGasPrice_fails
    (hprice : PriceFails env args tx.send.resultBuf) :
    ∃ code tx', code ≠ boatSuccess ∧
      onSend (platonTxSetGasPrice env args) tx = .error (.code code) tx' := by
  obtain ⟨hgasprice, hfails⟩ := hprice
  unfold platonTxSetGasPrice
  rw [hgasprice]
  cases hnet : args.netPrice with
  | error code => exact ⟨_, tx, by decide, rfl⟩
  | ok response =>
      obtain ⟨code, left, hparsed, hne⟩ := hfails response hnet
      have hkeep : keepAnswer (platonApi fun _ => none) env response
          tx.send = .error (.code code) (tx.send.setResultBuf left) :=
        keepParsed_code hparsed hne
      exact ⟨_, { tx with send := _ }, hne,
        onSend_error (Exec.bind_error hkeep)⟩

theorem platonTxSetGasPrice_undefined (hundefined : PriceUndefined env args) :
    ∃ tx', onSend (platonTxSetGasPrice env args) tx =
      .error .undefined tx' := by
  obtain ⟨hgasprice, response, hnet, hnameless⟩ := hundefined
  unfold platonTxSetGasPrice
  rw [hgasprice, hnet]
  have hkeep : keepAnswer (platonApi fun _ => none) env response tx.send =
      .error .undefined tx.send :=
    keepParsed_undefined (ethParseJsonResult_nameless _ _ hnameless)
  exact ⟨_, onSend_error (Exec.bind_error hkeep)⟩

end Steps

section Recipient

variable {args : PlatonInitArgs} {stack : Block 20} {tx : BoatPlatONTx}

/-- Twenty bytes take 32 characters at most behind the prefix. -/
theorem length_of_addressUnder {hrp text out : List UInt8}
    (hlength : text.length < 2 ^ 32) (haddress : AddressUnder hrp text out) :
    hrp.length ≤ 83 ∧ text.length ≤ hrp.length + 39 ∧ out.length = 20 := by
  obtain ⟨hdecode, hprefix⟩ := haddress
  obtain ⟨hrp', data, chk, values, hreading, hvalues, hresult, hout⟩ :=
    decode_eq_ok hlength hdecode (by decide)
  have hdata := (Exec.except_mapM_eq_ok hvalues).1
  have hbytes := length_boatConvertBits 5 (show 0 < 8 by decide) values
  rw [← hout] at hbytes
  have htext := hreading.length_input
  have hhrp := hreading.length_hrp
  rw [hreading.idxOf_separator, hreading.text, List.take_left] at hprefix
  subst hprefix
  omega

/-- The recipient is stored right, or refused, when its text is refused or an
address under the prefix. -/
theorem setRecipient_right_iff (hlength : args.recipientStr.length < 2 ^ 31)
    (hhrp : args.hrpStr.length % 256 ≤ 5) :
    StoresAddress args (setRecipient stack args.recipientStr tx) ↔
      (∃ result out, boatPlatONBech32Decode args.recipientStr =
          .ok (result, out) ∧ result ≤ 0) ∨
        ∃ out, AddressUnder args.hrpStr args.recipientStr out := by
  unfold setRecipient
  cases hdecode : boatPlatONBech32Decode args.recipientStr with
  | error failure =>
      obtain rfl := decode_eq_error hlength hdecode
      constructor
      · exact False.elim
      · rintro (⟨result, out, hok, -⟩ | ⟨out, hok, -⟩)
        · cases hok
        · rw [hdecode] at hok
          cases hok
  | ok decoded =>
      obtain ⟨result, out⟩ := decoded
      by_cases hrefused : result ≤ 0
      · have hout : out.length = 0 := by
          rcases decode_result (by omega) hdecode with hresult | ⟨-, rfl⟩
          · omega
          · rfl
        dsimp only
        rw [if_neg (by omega), if_pos hrefused]
        have hcode : boatErrorCommonInvalidArgument ≠ boatSuccess := by decide
        exact iff_of_true hcode (.inl ⟨result, out, rfl, hrefused⟩)
      · have hresult : result = out.length := by
          rcases decode_result (by omega) hdecode with hresult | ⟨rfl, -⟩
          · exact hresult
          · omega
        constructor
        · intro hstores
          dsimp only at hstores
          split at hstores
          next => exact hstores.elim
          next =>
            split at hstores
            next => exact hstores.elim
            next =>
              obtain ⟨out, haddress, -⟩ := hstores
              exact .inr ⟨out, haddress⟩
        · rintro (⟨result', out', hok, hle⟩ | ⟨out', haddress⟩)
          · obtain ⟨rfl, -⟩ := Prod.mk.inj (Except.ok.inj hok)
            exact absurd hle hrefused
          · obtain ⟨hhrp', htext, htwenty⟩ :=
              length_of_addressUnder (by omega) haddress
            have hsame := hdecode.symm.trans haddress.1
            obtain ⟨-, rfl⟩ := Prod.mk.inj (Except.ok.inj hsame)
            dsimp only
            rw [if_neg (by omega), if_neg hrefused, if_neg (by omega)]
            refine ⟨out, haddress, ?_⟩
            have hwhole := stack.take_overlay htwenty.le
            have hblock := (stack.overlay out).length_bytes
            rw [htwenty, List.take_of_length_le hblock.le] at hwhole
            exact hwhole

end Recipient

section Init

variable {env : SendEnv} {args : PlatonInitArgs} {stack : Block 20}
  {tx : BoatPlatONTx}

/-- The steps behind the address of the account. -/
def platonInitFields (env : SendEnv) (stack : Block 20)
    (args : PlatonInitArgs) : PlatonM Unit := do
  onSend (platonTxSetGasPrice env args)
  onSend (txSetGasLimit (some (localField (args.gaslimitStr.getD []))))
  setRecipient stack args.recipientStr
  onSend (txSetValue none)

/-- Setting the value keeps the recipient. -/
theorem storesAddress_value :
    StoresAddress args
        ((setRecipient stack args.recipientStr >>= fun _ =>
          onSend (txSetValue none)) tx) ↔
      StoresAddress args (setRecipient stack args.recipientStr tx) := by
  cases hrun : setRecipient stack args.recipientStr tx with
  | ok _ left =>
      rw [Exec.bind_ok hrun]
      rfl
  | error failure left => rw [Exec.bind_error hrun]

theorem platonInitFields_right_iff
    (hlength : args.recipientStr.length < 2 ^ 31)
    (hhrp : args.hrpStr.length % 256 ≤ 5) :
    StoresAddress args (platonInitFields env stack args tx) ↔
      PriceFails env args tx.send.resultBuf ∨
        ¬PriceUndefined env args ∧
          ((∃ result out, boatPlatONBech32Decode args.recipientStr =
            .ok (result, out) ∧ result ≤ 0) ∨
          ∃ out, AddressUnder args.hrpStr args.recipientStr out) := by
  by_cases hprice : PriceFails env args tx.send.resultBuf
  · obtain ⟨code, left, hcode, hrun⟩ := platonTxSetGasPrice_fails hprice
    have hend : platonInitFields env stack args tx = .error (.code code) left :=
      Exec.bind_error hrun
    rw [hend]
    exact iff_of_true hcode (.inl hprice)
  by_cases hundefined : PriceUndefined env args
  · obtain ⟨left, hrun⟩ := @platonTxSetGasPrice_undefined env args tx hundefined
    have hend : platonInitFields env stack args tx = .error .undefined left :=
      Exec.bind_error hrun
    rw [hend]
    refine iff_of_false id ?_
    rintro (hfails | ⟨hdefined, -⟩)
    · exact hprice hfails
    · exact hdefined hundefined
  · obtain ⟨send, hrun⟩ := platonTxSetGasPrice_ok hprice hundefined
    have hlimit : onSend (txSetGasLimit
        (some (localField (args.gaslimitStr.getD [])))) { tx with send } =
        .ok () { tx with send := _ } := onSend_ok rfl
    rw [platonInitFields, Exec.bind_ok hrun, Exec.bind_ok hlimit,
      storesAddress_value, setRecipient_right_iff hlength hhrp,
      or_iff_right hprice]
    exact (and_iff_right hundefined).symm

theorem boatPlatONTxInit_eq (hrefuses : platonRefuses args = false) :
    boatPlatONTxInit env stack args = (do
      clearRawtxFields
      encodeAddress args
      platonInitFields env stack args) := by
  rw [boatPlatONTxInit, hrefuses]
  rfl

/-- Initialization stores addresses of 20 bytes under the prefix and refuses
every other text when the prefix leaves room for the address of the account and
the text is such an address or refused by the decoder, or when it fails before
it comes to the recipient; an array as the answer to the question for a gas
price aside. -/
theorem boatPlatONTxInit_storesAddress_iff :
    StoresAddress args (boatPlatONTxInit env stack args tx) ↔
      platonRefuses args = true ∨
      args.hrpStr.length % 256 = 0 ∨ 83 < args.hrpStr.length % 256 ∨
      args.hrpStr.length % 256 ≤ 5 ∧
        (PriceFails env args tx.send.resultBuf ∨
          ¬PriceUndefined env args ∧
            ((∃ result out, boatPlatONBech32Decode args.recipientStr =
              .ok (result, out) ∧ result ≤ 0) ∨
            ∃ out, AddressUnder args.hrpStr args.recipientStr out)) := by
  have hcode : boatErrorCommonInvalidArgument ≠ boatSuccess := by decide
  cases hrefuses : platonRefuses args with
  | true =>
      rw [boatPlatONTxInit, if_pos hrefuses]
      exact iff_of_true hcode (.inl rfl)
  | false =>
      have hlength : args.recipientStr.length < 2 ^ 31 := by
        have hshort := of_decide_eq_false (Bool.or_eq_false_iff.mp hrefuses).2
        rw [boatStringMaxLen] at hshort
        omega
      have hclear : clearRawtxFields tx = .ok () { tx with
          send := tx.send.clear false
          recipientbech32 := .zero 45 } := rfl
      rw [boatPlatONTxInit_eq hrefuses, Exec.bind_ok hclear]
      by_cases hnone : args.hrpStr.length % 256 = 0 ∨
          83 < args.hrpStr.length % 256
      · rw [Exec.bind_error (encodeAddress_refuses hnone)]
        refine iff_of_true hcode (.inr ?_)
        rcases hnone with hzero | hlong
        · exact .inl hzero
        · exact .inr (.inl hlong)
      · by_cases hshort : args.hrpStr.length % 256 ≤ 5
        · obtain ⟨address, hrun⟩ := @encodeAddress_writes args { tx with
            send := tx.send.clear false
            recipientbech32 := .zero 45 } (by omega) hshort
          rw [Exec.bind_ok hrun, platonInitFields_right_iff hlength hshort]
          simp only [SendState.clear_resultBuf]
          constructor
          · exact fun hright => .inr (.inr (.inr ⟨hshort, hright⟩))
          · rintro (hfalse | hzero | hlong | ⟨-, hright⟩)
            · cases hfalse
            · exact absurd (.inl hzero) hnone
            · exact absurd (.inr hlong) hnone
            · exact hright
        · rw [Exec.bind_error (encodeAddress_undefined (by omega) (by omega))]
          refine iff_of_false id ?_
          rintro (hfalse | hzero | hlong | ⟨hle, -⟩)
          · cases hfalse
          · exact hnone (.inl hzero)
          · exact hnone (.inr hlong)
          · exact hshort hle

end Init

/-- `l1lulzkvtc` for an account under `lat`. -/
def shortRecipientArgs : PlatonInitArgs where
  gaspriceStr := some "0x1".toList
  gaslimitStr := some "0x1".toList
  recipientStr :=
    [0x6C, 0x31, 0x6C, 0x75, 0x6C, 0x7A, 0x6B, 0x76, 0x74, 0x63]
  hrpStr := [0x6C, 0x61, 0x74]
  account := .zero 20
  netPrice := .ok []

def sampleTx : BoatPlatONTx where
  send := sampleState ⟨1, true⟩ .zero
  recipientbech32 := .zero 45
  address := .zero 45

/-- Two bytes are stored as a recipient. -/
theorem not_boatPlatONTxInit_storesAddress :
    ¬ ∀ (env : SendEnv) (stack : Block 20) (args : PlatonInitArgs)
        (tx : BoatPlatONTx),
      StoresAddress args (boatPlatONTxInit env stack args tx) := by
  intro hclaim
  have hstores := hclaim (sampleEnv 1) (.zero 20) shortRecipientArgs sampleTx
  have hdecode : boatPlatONBech32Decode shortRecipientArgs.recipientStr =
      .ok (2, [0xFF, 0x00]) := by decide
  cases hrun : boatPlatONTxInit (sampleEnv 1) (.zero 20) shortRecipientArgs
      sampleTx with
  | ok _ tx =>
      rw [hrun] at hstores
      obtain ⟨out, haddress, -⟩ := hstores
      have hsame := hdecode.symm.trans haddress.1
      cases hsame
  | error failure tx =>
      have hruns : (match boatPlatONTxInit (sampleEnv 1) (.zero 20)
          shortRecipientArgs sampleTx with
        | .ok _ _ => true
        | .error _ _ => false) = true := by decide +kernel
      rw [hrun] at hruns
      cases hruns

end BoatFramework
