/-
The request builders of web3intf: a JSON text is formatted into the buffer of the
context, which is enlarged by a step and formatted again until the text fits.
-/
import BoatFramework.Curl.Response
import BoatFramework.Tx.CallContract
import BoatFramework.Web3.ParseResult

namespace BoatFramework

/-- A `BoatFieldVariable`: a block of the recorded size, or a null pointer beside
some size. -/
structure JsonStringBuf where
  fieldLen : UInt32
  fieldPtr : Option (Bytes fieldLen.toNat)

/-- A null pointer has the size zero. -/
def JsonStringBuf.Usable (buf : JsonStringBuf) : Prop :=
  buf.fieldPtr = none → buf.fieldLen = 0

/-- What an allocator answers to its n-th request, of some size. -/
abbrev BlockMallocs := Nat → UInt32 → Option (Nat → UInt8)

def web3Step : UInt32 :=
  UInt32.ofNat web3StringBufStepSize

/-- The string in the block behind a pointer. -/
def JsonStringBuf.StringIs (buf : JsonStringBuf) (text : List UInt8) : Prop :=
  ∃ block behind, buf.fieldPtr = some block ∧ block.1 = text ++ 0 :: behind

/-- A block with as much of a text as fits before a terminator. -/
def printed (text block : List UInt8) : List UInt8 :=
  match block.length with
  | 0 => block
  | room + 1 => text.take room ++ 0 :: block.drop (min text.length room + 1)

theorem length_printed (text block : List UInt8) :
    (printed text block).length = block.length := by
  unfold printed
  split
  · rfl
  next room hroom =>
    rw [List.length_append, List.length_cons, List.length_drop,
      List.length_take]
    omega

/-- What `snprintf` returns for a text: its length, or an error where that is no
`int`. -/
def formattedSize (text : List UInt8) : Int :=
  if text.length < 2 ^ 31 then text.length else -1

/-- `snprintf` of a text; through a null pointer only nothing can be written. -/
def snprintfText (text : List UInt8) (buf : JsonStringBuf) :
    Outcome (Int × JsonStringBuf) :=
  match buf.fieldPtr with
  | none =>
      if buf.fieldLen = 0 then .ok (formattedSize text, buf)
      else .error .undefined
  | some block =>
      .ok (formattedSize text, ⟨buf.fieldLen, some ⟨printed text block.1,
        (length_printed text block.1).trans block.2⟩⟩)

/-- `BoatFieldVariable_malloc_size_expand`; the old block is freed first. -/
def boatFieldVariableMallocSizeExpand (malloc : UInt32 → Option (Nat → UInt8))
    (mem : JsonStringBuf) (stepSize : UInt32) : BoatResult × JsonStringBuf :=
  match malloc (mem.fieldLen + stepSize) with
  | none => (boatErrorCommonOutOfMemory, ⟨0, none⟩)
  | some contents => (boatSuccess, ⟨mem.fieldLen + stepSize,
      some ⟨mallocBlock contents (mem.fieldLen + stepSize).toNat,
        length_mallocBlock contents _⟩⟩)

/-- The loop that formats a request, in at most that many rounds: an error, or
the length that `RpcRequestSync` gets beside the buffer. -/
def formatLoop (malloc : BlockMallocs) (text : List UInt8) :
    Nat → Nat → JsonStringBuf →
      Option (Outcome (Except BoatResult Nat × JsonStringBuf))
  | 0, _, _ => none
  | fuel + 1, asked, buf =>
      match snprintfText text buf with
      | .error failure => some (.error failure)
      | .ok (expectedStringSize, buf) =>
          if buf.fieldLen.toNat ≤ asBuint32 expectedStringSize then
            match boatFieldVariableMallocSizeExpand (malloc asked) buf
                web3Step with
            | (result, buf) =>
                if result ≠ boatSuccess then
                  some (.ok (.error boatErrorCommonOutOfMemory, buf))
                else formatLoop malloc text fuel (asked + 1) buf
          else some (.ok (.ok (asBuint32 expectedStringSize), buf))

section Texts

def quoted (text : List Char) : List Char :=
  "\"".toList ++ text ++ "\"".toList

def commaed (texts : List (List Char)) : List Char :=
  List.intercalate ",".toList texts

def jsonMember (name : String) (value : List Char) : List Char :=
  quoted name.toList ++ ":".toList ++ value

def jsonObject (members : List (List Char)) : List Char :=
  "\x7b".toList ++ commaed members ++ "\x7d".toList

def jsonArray (items : List (List Char)) : List Char :=
  "[".toList ++ commaed items ++ "]".toList

/-- The text of a request with these parameters, an array. -/
def jsonRequest (method params : List Char) (messageId : UInt32) : List Char :=
  jsonObject [jsonMember "jsonrpc" (quoted "2.0".toList),
    jsonMember "method" (quoted method), jsonMember "params" params,
    jsonMember "id" (formatUnsigned messageId.toNat)]

def web3GetTransactionCount
    (methodNameStr addressStr blockNumStr : List Char) : UInt32 → List Char :=
  jsonRequest methodNameStr (jsonArray [quoted addressStr, quoted blockNumStr])

def web3GasPrice (methodNameStr : List Char) : UInt32 → List Char :=
  jsonRequest methodNameStr (jsonArray [])

def web3GetBalance
    (methodNameStr addressStr blockNumStr : List Char) : UInt32 → List Char :=
  jsonRequest methodNameStr (jsonArray [quoted addressStr, quoted blockNumStr])

def web3SendRawTransaction (methodNameStr signedtxStr : List Char) :
    UInt32 → List Char :=
  jsonRequest methodNameStr (jsonArray [quoted signedtxStr])

def web3GetStorageAt
    (methodNameStr addressStr positionStr blockNumStr : List Char) :
    UInt32 → List Char :=
  jsonRequest methodNameStr
    (jsonArray [quoted addressStr, quoted positionStr, quoted blockNumStr])

def web3GetTransactionReceiptStatus (methodNameStr txHashStr : List Char) :
    UInt32 → List Char :=
  jsonRequest methodNameStr (jsonArray [quoted txHashStr])

def web3Call (param : ParamWeb3Call) : UInt32 → List Char :=
  jsonRequest param.methodNameStr
    (jsonArray [jsonObject [jsonMember "to" (quoted param.to),
      jsonMember "gas" (quoted param.gas),
      jsonMember "gasPrice" (quoted param.gasPrice),
      jsonMember "data" (quoted param.data)], quoted param.blockNumStr])

def platonWeb3Call («from» : List Char) (param : ParamWeb3Call) :
    UInt32 → List Char :=
  jsonRequest param.methodNameStr
    (jsonArray [jsonObject [jsonMember "from" (quoted «from»),
      jsonMember "to" (quoted param.to),
      jsonMember "gas" (quoted param.gas),
      jsonMember "gasPrice" (quoted param.gasPrice),
      jsonMember "data" (quoted param.data)], quoted param.blockNumStr])

def web3FiscobcosCall (param : ParamFiscobcosCall) : UInt32 → List Char :=
  jsonRequest "call".toList
    (jsonArray [param.groupid, jsonObject [
      jsonMember "from" (quoted param.from),
      jsonMember "to" (quoted param.to),
      jsonMember "value" (quoted param.value),
      jsonMember "data" (quoted param.data)]])

def web3FiscobcosSendRawTransaction (groupid signedtxStr : List Char) :
    UInt32 → List Char :=
  jsonRequest "sendRawTransaction".toList
    (jsonArray [groupid, quoted signedtxStr])

def web3FiscobcosGetTransactionReceiptStatus (groupid txHashStr : List Char) :
    UInt32 → List Char :=
  jsonRequest "getTransactionReceipt".toList
    (jsonArray [groupid, quoted txHashStr])

def web3FiscobcosGetBlockNumber (groupid : List Char) : UInt32 → List Char :=
  jsonRequest "getBlockNumber".toList (jsonArray [groupid])

def web3FillTransaction (methodNameStr «to» data privateFor : List Char) :
    UInt32 → List Char :=
  jsonRequest methodNameStr
    (jsonArray [jsonObject [jsonMember "to" (quoted «to»),
      jsonMember "data" (quoted data),
      jsonMember "privateFor" (jsonArray [quoted privateFor])]])

/-- A blank stands behind the comma. -/
def web3SendRawPrivateTransaction
    (methodNameStr signedtxStr privateforStr : List Char) :
    UInt32 → List Char :=
  jsonRequest methodNameStr
    (jsonArray [quoted signedtxStr, " ".toList ++
      jsonObject [jsonMember "privateFor" (jsonArray [quoted privateforStr])]])

def web3CitaCall («from» «to» data : List Char) : UInt32 → List Char :=
  jsonRequest "call".toList
    (jsonArray [jsonObject [jsonMember "from" (quoted «from»),
      jsonMember "to" (quoted «to»), jsonMember "data" (quoted data)],
      " ".toList ++ quoted "latest".toList])

def web3CitaSendRawTransaction (signedtxStr : List Char) :
    UInt32 → List Char :=
  jsonRequest "sendRawTransaction".toList (jsonArray [quoted signedtxStr])

def web3CitaGetTransactionReceiptStatus (txHashStr : List Char) :
    UInt32 → List Char :=
  jsonRequest "getTransactionReceipt".toList (jsonArray [quoted txHashStr])

def web3CitaGetBlockNumber : UInt32 → List Char :=
  jsonRequest "blockNumber".toList (jsonArray [])

example : web3CitaCall "a".toList "b".toList [] 7 =
    "\x7b\"jsonrpc\":\"2.0\",\"method\":\"call\",\"params\":[\x7b\"from\":\"a\",\"to\":\"b\",\"data\":\"\"\x7d, \"latest\"],\"id\":7\x7d".toList := by
  decide +kernel

end Texts

/-- A request with its arguments. -/
inductive Web3Request where
  | getTransactionCount (methodNameStr addressStr blockNumStr : List Char)
  | gasPrice (methodNameStr : List Char)
  | getBalance (methodNameStr addressStr blockNumStr : List Char)
  | sendRawTransaction (methodNameStr signedtxStr : List Char)
  | getStorageAt
      (methodNameStr addressStr positionStr blockNumStr : List Char)
  | getTransactionReceiptStatus (methodNameStr txHashStr : List Char)
  | call (param : ParamWeb3Call)
  | platonCall («from» : List Char) (param : ParamWeb3Call)
  | fiscobcosCall (param : ParamFiscobcosCall)
  | fiscobcosSendRawTransaction (groupid signedtxStr : List Char)
  | fiscobcosGetTransactionReceiptStatus (groupid txHashStr : List Char)
  | fiscobcosGetBlockNumber (groupid : List Char)
  | fillTransaction (methodNameStr «to» data privateFor : List Char)
  | sendRawPrivateTransaction
      (methodNameStr signedtxStr privateforStr : List Char)
  | citaCall («from» «to» data : List Char)
  | citaSendRawTransaction (signedtxStr : List Char)
  | citaGetTransactionReceiptStatus (txHashStr : List Char)
  | citaGetBlockNumber

def Web3Request.jsonText : Web3Request → UInt32 → List Char
  | getTransactionCount methodNameStr addressStr blockNumStr =>
      web3GetTransactionCount methodNameStr addressStr blockNumStr
  | gasPrice methodNameStr => web3GasPrice methodNameStr
  | getBalance methodNameStr addressStr blockNumStr =>
      web3GetBalance methodNameStr addressStr blockNumStr
  | sendRawTransaction methodNameStr signedtxStr =>
      web3SendRawTransaction methodNameStr signedtxStr
  | getStorageAt methodNameStr addressStr positionStr blockNumStr =>
      web3GetStorageAt methodNameStr addressStr positionStr blockNumStr
  | getTransactionReceiptStatus methodNameStr txHashStr =>
      web3GetTransactionReceiptStatus methodNameStr txHashStr
  | call param => web3Call param
  | platonCall «from» param => platonWeb3Call «from» param
  | fiscobcosCall param => web3FiscobcosCall param
  | fiscobcosSendRawTransaction groupid signedtxStr =>
      web3FiscobcosSendRawTransaction groupid signedtxStr
  | fiscobcosGetTransactionReceiptStatus groupid txHashStr =>
      web3FiscobcosGetTransactionReceiptStatus groupid txHashStr
  | fiscobcosGetBlockNumber groupid => web3FiscobcosGetBlockNumber groupid
  | fillTransaction methodNameStr «to» data privateFor =>
      web3FillTransaction methodNameStr «to» data privateFor
  | sendRawPrivateTransaction methodNameStr signedtxStr privateforStr =>
      web3SendRawPrivateTransaction methodNameStr signedtxStr privateforStr
  | citaCall «from» «to» data => web3CitaCall «from» «to» data
  | citaSendRawTransaction signedtxStr =>
      web3CitaSendRawTransaction signedtxStr
  | citaGetTransactionReceiptStatus txHashStr =>
      web3CitaGetTransactionReceiptStatus txHashStr
  | citaGetBlockNumber => web3CitaGetBlockNumber

/-- The text a builder formats: the id of the message is counted up first. -/
def Web3Request.text (request : Web3Request) (messageId : UInt32) :
    List UInt8 :=
  asciiBytes (request.jsonText (messageId + 1))

/-- The request of a builder, from what the context holds. -/
def web3Request (malloc : BlockMallocs) (request : Web3Request)
    (messageId : UInt32) (buf : JsonStringBuf) (fuel : Nat) :
    Option (Outcome (Except BoatResult Nat × JsonStringBuf)) :=
  formatLoop malloc (request.text messageId) fuel 0 buf

/-- What a builder owes: success means that the buffer holds the whole text,
terminated, and that the length passed on is the text's; anything else is an
error; and the next builder can use the buffer. -/
structure RequestBuilt (text : List UInt8) (result : Except BoatResult Nat)
    (after : JsonStringBuf) : Prop where
  success : ∀ len, result = .ok len → len = text.length ∧ after.StringIs text
  failure : ∀ code, result = .error code → code ≠ boatSuccess
  usable : after.Usable

/-- The loop ends, and with what a builder owes. -/
def BuildsRequest (malloc : BlockMallocs) (request : Web3Request)
    (messageId : UInt32) (buf : JsonStringBuf) : Prop :=
  ∃ fuel result after,
    (∀ more, web3Request malloc request messageId buf (fuel + more) =
      some (.ok (result, after))) ∧
    RequestBuilt (request.text messageId) result after

/-- The size of a buffer after `n` expansions. -/
def expandedLen (fieldLen : UInt32) : Nat → UInt32
  | 0 => fieldLen
  | n + 1 => expandedLen fieldLen n + web3Step

theorem expandedLen_succ (fieldLen : UInt32) (n : Nat) :
    expandedLen fieldLen (n + 1) = expandedLen (fieldLen + web3Step) n := by
  induction n with
  | zero => simp only [expandedLen]
  | succ n ih => rw [expandedLen, ih, expandedLen]

section Loop

variable {malloc : BlockMallocs} {text : List UInt8} {buf : JsonStringBuf}

theorem printed_fits {block : List UInt8} (hfits : text.length < block.length) :
    ∃ behind, printed text block = text ++ 0 :: behind := by
  unfold printed
  split
  next hempty => omega
  next room hroom =>
    rw [List.take_of_length_le (by omega)]
    exact ⟨_, rfl⟩

theorem asBuint32_formattedSize (hshort : text.length < 2 ^ 31) :
    asBuint32 (formattedSize text) = text.length := by
  rw [formattedSize, if_pos hshort]
  exact asBuint32_ofNat (by omega)

theorem asBuint32_formattedSize_long (hlong : ¬ text.length < 2 ^ 31) :
    asBuint32 (formattedSize text) = 2 ^ 32 - 1 := by
  rw [formattedSize, if_neg hlong]
  decide

theorem snprintfText_usable (husable : buf.Usable) (text : List UInt8) :
    ∃ next, snprintfText text buf = .ok (formattedSize text, next) ∧
      next.fieldLen = buf.fieldLen ∧ next.Usable ∧
      (text.length < buf.fieldLen.toNat → next.StringIs text) := by
  obtain ⟨fieldLen, fieldPtr⟩ := buf
  cases fieldPtr with
  | none =>
      obtain rfl : fieldLen = 0 := husable rfl
      refine ⟨⟨0, none⟩, rfl, rfl, husable, fun hfits => ?_⟩
      exact absurd hfits (Nat.not_lt_zero _)
  | some block =>
      refine ⟨_, rfl, rfl, fun hnull => (by cases hnull), fun hfits => ?_⟩
      obtain ⟨behind, hprinted⟩ :=
        printed_fits (Nat.lt_of_lt_of_eq hfits block.2.symm)
      exact ⟨_, behind, rfl, hprinted⟩

/-- What one round of the loop does. -/
inductive FormatStep (malloc : BlockMallocs) (text : List UInt8) (asked : Nat)
    (buf : JsonStringBuf) : Prop where
  | ends (result : Except BoatResult Nat) (after : JsonStringBuf)
      (run : ∀ fuel, formatLoop malloc text (fuel + 1) asked buf =
        some (.ok (result, after)))
      (built : RequestBuilt text result after)
      (reason : text.length < 2 ^ 31 ∨
        malloc asked (buf.fieldLen + web3Step) = none)
  | expands (next : JsonStringBuf)
      (run : ∀ fuel, formatLoop malloc text (fuel + 1) asked buf =
        formatLoop malloc text fuel (asked + 1) next)
      (usable : next.Usable)
      (len : next.fieldLen = buf.fieldLen + web3Step)
      (full : text.length < 2 ^ 31 → buf.fieldLen.toNat ≤ text.length)
      (granted : malloc asked (buf.fieldLen + web3Step) ≠ none)

theorem formatStep (malloc : BlockMallocs) (text : List UInt8) (asked : Nat)
    (husable : buf.Usable) : FormatStep malloc text asked buf := by
  obtain ⟨⟨fieldLen, fieldPtr⟩, hprint, hlen, hprinted, hstring⟩ :=
    snprintfText_usable husable text
  obtain rfl : fieldLen = buf.fieldLen := hlen
  by_cases hfull : buf.fieldLen.toNat ≤ asBuint32 (formattedSize text)
  · cases hmalloc : malloc asked (buf.fieldLen + web3Step) with
    | none =>
        have hexpand : boatFieldVariableMallocSizeExpand (malloc asked)
            ⟨buf.fieldLen, fieldPtr⟩ web3Step =
              (boatErrorCommonOutOfMemory, ⟨0, none⟩) := by
          simp only [boatFieldVariableMallocSizeExpand, hmalloc]
        refine .ends (.error boatErrorCommonOutOfMemory) ⟨0, none⟩ ?_
          ⟨?_, ?_, fun _ => rfl⟩ (.inr hmalloc)
        · intro fuel
          simp only [formatLoop, hprint, if_pos hfull, hexpand]
          exact if_pos (by decide)
        · intro len hresult
          cases hresult
        · intro code hresult
          obtain rfl := Except.error.inj hresult
          decide
    | some contents =>
        have hexpand : boatFieldVariableMallocSizeExpand (malloc asked)
            ⟨buf.fieldLen, fieldPtr⟩ web3Step = (boatSuccess,
              ⟨buf.fieldLen + web3Step, some ⟨mallocBlock contents _,
                length_mallocBlock contents _⟩⟩) := by
          simp only [boatFieldVariableMallocSizeExpand, hmalloc]
        refine .expands ⟨buf.fieldLen + web3Step,
          some ⟨mallocBlock contents (buf.fieldLen + web3Step).toNat,
            length_mallocBlock contents _⟩⟩ ?_ ?_ rfl ?_ ?_
        · intro fuel
          simp only [formatLoop, hprint, if_pos hfull, hexpand]
          exact if_neg (not_not.mpr rfl)
        · intro hnull
          cases hnull
        · intro hshort
          rw [asBuint32_formattedSize hshort] at hfull
          exact hfull
        · rw [hmalloc]
          exact Option.some_ne_none contents
  · have hshort : text.length < 2 ^ 31 := by
      by_contra hlong
      have hlt := buf.fieldLen.toNat_lt
      rw [asBuint32_formattedSize_long hlong] at hfull
      omega
    rw [asBuint32_formattedSize hshort] at hfull
    refine .ends (.ok text.length) _ ?_ ⟨?_, ?_, hprinted⟩ (.inl hshort)
    · intro fuel
      simp only [formatLoop, hprint, asBuint32_formattedSize hshort,
        if_neg hfull]
    · intro len hresult
      obtain rfl := Except.ok.inj hresult
      exact ⟨rfl, hstring (Nat.lt_of_not_le hfull)⟩
    · intro code hresult
      cases hresult

/-- A run that ends, with what a builder owes, whatever rounds are left. -/
def LoopBuilds (malloc : BlockMallocs) (text : List UInt8) (asked : Nat)
    (buf : JsonStringBuf) : Prop :=
  ∃ fuel result after,
    (∀ more, formatLoop malloc text (fuel + more) asked buf =
      some (.ok (result, after))) ∧ RequestBuilt text result after

theorem LoopBuilds.of_ends {asked : Nat} {result : Except BoatResult Nat}
    {after : JsonStringBuf}
    (hrun : ∀ fuel, formatLoop malloc text (fuel + 1) asked buf =
      some (.ok (result, after)))
    (hbuilt : RequestBuilt text result after) :
    LoopBuilds malloc text asked buf := by
  refine ⟨1, result, after, fun more => ?_, hbuilt⟩
  rw [Nat.add_comm]
  exact hrun more

theorem LoopBuilds.of_expands {asked : Nat} {next : JsonStringBuf}
    (hrun : ∀ fuel, formatLoop malloc text (fuel + 1) asked buf =
      formatLoop malloc text fuel (asked + 1) next)
    (hnext : LoopBuilds malloc text (asked + 1) next) :
    LoopBuilds malloc text asked buf := by
  obtain ⟨fuel, result, after, hends, hbuilt⟩ := hnext
  refine ⟨fuel + 1, result, after, fun more => ?_, hbuilt⟩
  rw [Nat.add_right_comm, hrun]
  exact hends more

/-- A text whose length is an `int` is reached by the size. -/
theorem loopBuilds_short (hshort : text.length < 2 ^ 31) (rounds : Nat)
    {asked : Nat} (husable : buf.Usable)
    (hrounds : text.length < buf.fieldLen.toNat + rounds) :
    LoopBuilds malloc text asked buf := by
  induction rounds generalizing asked buf with
  | zero =>
      cases formatStep malloc text asked husable with
      | ends result after hrun hbuilt hreason =>
          exact .of_ends hrun hbuilt
      | expands next hrun hnext hlen hfull hgranted =>
          exact absurd (hfull hshort) (Nat.not_le.mpr hrounds)
  | succ rounds ih =>
      cases formatStep malloc text asked husable with
      | ends result after hrun hbuilt hreason =>
          exact .of_ends hrun hbuilt
      | expands next hrun hnext hlen hfull hgranted =>
          have hsize : next.fieldLen.toNat = buf.fieldLen.toNat + 1024 := by
            have hle := hfull hshort
            have hstep : web3Step.toNat = 1024 := by
              decide
            rw [hlen, UInt32.toNat_add, hstep]
            omega
          exact .of_expands hrun (ih hnext (by omega))

/-- An allocator that refuses ends the loop. -/
theorem loopBuilds_refused (rounds : Nat) {asked : Nat} (husable : buf.Usable)
    (hrefused : malloc (asked + rounds)
      (expandedLen buf.fieldLen (rounds + 1)) = none) :
    LoopBuilds malloc text asked buf := by
  induction rounds generalizing asked buf with
  | zero =>
      cases formatStep malloc text asked husable with
      | ends result after hrun hbuilt hreason =>
          exact .of_ends hrun hbuilt
      | expands next hrun hnext hlen hfull hgranted =>
          exact absurd hrefused hgranted
  | succ rounds ih =>
      cases formatStep malloc text asked husable with
      | ends result after hrun hbuilt hreason =>
          exact .of_ends hrun hbuilt
      | expands next hrun hnext hlen hfull hgranted =>
          apply LoopBuilds.of_expands hrun
          apply ih hnext
          rw [hlen, ← expandedLen_succ, Nat.add_right_comm]
          exact hrefused

/-- Where memory is granted for ever, a text whose length is no `int` keeps the
loop running. -/
theorem formatLoop_runs (hlong : ¬ text.length < 2 ^ 31) (fuel : Nat)
    {asked : Nat} (husable : buf.Usable)
    (hgranted : ∀ n, malloc (asked + n) (expandedLen buf.fieldLen (n + 1)) ≠
      none) :
    formatLoop malloc text fuel asked buf = none := by
  induction fuel generalizing asked buf with
  | zero => rfl
  | succ fuel ih =>
      cases formatStep malloc text asked husable with
      | ends result after hrun hbuilt hreason =>
          rcases hreason with hshort | hrefused
          · exact absurd hshort hlong
          · exact absurd hrefused (hgranted 0)
      | expands next hrun hnext hlen hfull hsome =>
          rw [hrun]
          apply ih hnext
          intro n
          rw [hlen, ← expandedLen_succ, Nat.add_right_comm]
          exact hgranted (n + 1)

/-- Nothing is formatted through a null pointer with a size. -/
theorem formatLoop_null (hnull : ¬ buf.Usable) (fuel asked : Nat) :
    formatLoop malloc text (fuel + 1) asked buf =
      some (.error .undefined) := by
  obtain ⟨fieldLen, fieldPtr⟩ := buf
  cases fieldPtr with
  | none =>
      have hsize : ¬ fieldLen = 0 := fun hzero => hnull fun _ => hzero
      simp only [formatLoop, snprintfText, if_neg hsize]
  | some block => exact absurd (fun hnone => by cases hnone) hnull

end Loop

/-- A builder meets what it owes from every buffer it can use: for a text whose
length is an `int`, and for a longer one where memory is refused in the end. -/
theorem buildsRequest_iff (malloc : BlockMallocs) (request : Web3Request)
    (messageId : UInt32) (buf : JsonStringBuf) :
    BuildsRequest malloc request messageId buf ↔ buf.Usable ∧
      ((request.text messageId).length < 2 ^ 31 ∨
        ∃ n, malloc n (expandedLen buf.fieldLen (n + 1)) = none) := by
  constructor
  · rintro ⟨fuel, result, after, hends, -⟩
    have hrun : formatLoop malloc (request.text messageId) (fuel + 1) 0 buf =
        some (.ok (result, after)) :=
      hends 1
    by_cases husable : buf.Usable
    · refine ⟨husable, ?_⟩
      by_contra hneither
      obtain ⟨hlong, hnone⟩ := not_or.mp hneither
      rw [formatLoop_runs hlong _ husable] at hrun
      · cases hrun
      · intro n hrefused
        rw [Nat.zero_add] at hrefused
        exact hnone ⟨n, hrefused⟩
    · rw [formatLoop_null husable] at hrun
      cases Option.some.inj hrun
  · rintro ⟨husable, hshort | ⟨n, hrefused⟩⟩
    · exact loopBuilds_short hshort ((request.text messageId).length + 1)
        husable (by omega)
    · apply loopBuilds_refused n husable
      rw [Nat.zero_add]
      exact hrefused

/-- The expansion that `web3_platone_call_getNodesManagerAddr` makes by hand:
the size stays where memory is refused. -/
def platoneSizeExpand (malloc : UInt32 → Option (Nat → UInt8))
    (mem : JsonStringBuf) : JsonStringBuf where
  fieldLen := mem.fieldLen + web3Step
  fieldPtr := (malloc (mem.fieldLen + web3Step)).map fun contents =>
    ⟨mallocBlock contents _, length_mallocBlock contents _⟩

/-- After it no builder has a buffer. -/
theorem not_buildsRequest_platone {grow : UInt32 → Option (Nat → UInt8)}
    {mem : JsonStringBuf} (hrefused : grow (mem.fieldLen + web3Step) = none)
    (hsize : mem.fieldLen + web3Step ≠ 0) (malloc : BlockMallocs)
    (request : Web3Request) (messageId : UInt32) :
    ¬ BuildsRequest malloc request messageId (platoneSizeExpand grow mem) := by
  intro hbuilds
  have husable := ((buildsRequest_iff malloc request messageId _).mp hbuilds).1
  apply hsize
  apply husable
  rw [platoneSizeExpand, hrefused]
  rfl

/-- The buffer of `web3_init`. -/
def web3InitBuf (contents : Nat → UInt8) : JsonStringBuf where
  fieldLen := web3Step
  fieldPtr := some ⟨mallocBlock contents _, length_mallocBlock contents _⟩

theorem length_le_web3GasPrice (methodNameStr : List Char)
    (messageId : UInt32) :
    methodNameStr.length ≤ (web3GasPrice methodNameStr messageId).length := by
  simp only [web3GasPrice, jsonRequest, jsonObject, jsonMember, quoted, commaed,
    List.intercalate, List.intersperse, List.flatten_cons, List.length_append]
  omega

/-- A text of 2 ^ 31 bytes and more while memory is granted, and the buffer that
is left where PlatONE's own expansion of a fresh one is refused. -/
theorem not_buildsRequest :
    ¬ BuildsRequest (fun _ _ => some fun _ => 0)
      (.gasPrice (List.replicate (2 ^ 31) 'a')) 0 (web3InitBuf fun _ => 0) ∧
    ¬ BuildsRequest (fun _ _ => some fun _ => 0)
      (.gasPrice "eth_gasPrice".toList) 0
      (platoneSizeExpand (fun _ => none) (web3InitBuf fun _ => 0)) := by
  constructor
  · intro hbuilds
    obtain ⟨-, hshort | ⟨n, hrefused⟩⟩ := (buildsRequest_iff ..).mp hbuilds
    · have hle := length_le_web3GasPrice (List.replicate (2 ^ 31) 'a') (0 + 1)
      have hlength : (Web3Request.text (.gasPrice (List.replicate (2 ^ 31) 'a'))
          0).length = (web3GasPrice (List.replicate (2 ^ 31) 'a')
            (0 + 1)).length :=
        List.length_map ..
      rw [List.length_replicate, ← hlength] at hle
      exact absurd hshort (Nat.not_lt.mpr hle)
    · cases hrefused
  · exact not_buildsRequest_platone rfl (by decide) _ _ _

end BoatFramework
