/-
What the discovery of nodes owes, and exactly when it is met: the request buffer
has to be large enough from the first request on, and there must be no nodes.
-/
import BoatFramework.Platone.NodeInfo
import BoatFramework.Base.ZeroPad

namespace BoatFramework

open ByteString Exec

/-- The C string at the front of some bytes. -/
def textBytes (bytes : List UInt8) : List UInt8 :=
  bytes.takeWhile (· ≠ 0)

section Blocks

variable {text : List Char} {bytes : List UInt8}

theorem decodedBlock_eq (hread : Hex.ofHex (paired (digitsOf text)) = some bytes) :
    decodedBlock text =
      (bytes.take (text.length / 2)).rightpad (text.length / 2) 0 := by
  have hdigits : AllHex (digitsOf text) :=
    allHex_paired.mp (Hex.digits_of_ofHex hread)
  have hconverted : converted text .trimNo = bytes :=
    Hex.readPairs_of_ofHex hread
  rw [decodedBlock, utilityHexToBin_digits hdigits, hconverted]
  cases bytes with
  | nil =>
      have hnulled : nulled false [] = [0] := by simp [nulled]
      rw [hnulled]
      cases text.length / 2 with
      | zero => rfl
      | succ size =>
          rw [List.take_succ_cons, List.take_nil, List.take_nil, List.rightpad,
            List.rightpad, List.nil_append]
          rfl
  | cons byte bytes =>
      have hnulled : nulled false (byte :: bytes) = byte :: bytes := by
        simp [nulled]
      rw [hnulled]

/-- A string is shorter than its bytes exactly where a NUL follows it. -/
theorem textBytes_split (bytes : List UInt8) :
    textBytes bytes = bytes ∨
      ∃ rest, bytes = textBytes bytes ++ 0 :: rest := by
  by_cases hnul : 0 ∈ bytes
  · exact .inr (exists_behind_nul hnul)
  · left
    rw [textBytes, List.takeWhile_eq_self_iff]
    intro byte hbyte
    have hne : byte ≠ 0 := fun hzero => hnul (hzero ▸ hbyte)
    simpa using hne

theorem zero_notMem_textBytes (bytes : List UInt8) : 0 ∉ textBytes bytes :=
  (CString.ofBuffer bytes).noNul

/-- A block of `size` bytes holds the string exactly where there is room behind
it for its terminator. -/
theorem cString_rightpad (bytes : List UInt8) (size : Nat) :
    cString ((bytes.take size).rightpad size 0) =
      if (textBytes bytes).length < size then .ok (CString.ofBuffer bytes)
      else .error .undefined := by
  have hstring : CString.ofBuffer bytes =
      ⟨textBytes bytes, zero_notMem_textBytes bytes⟩ := rfl
  split
  next hroom =>
    suffices hblock : ∃ rest, (bytes.take size).rightpad size 0 =
        textBytes bytes ++ 0 :: rest by
      obtain ⟨rest, hblock⟩ := hblock
      rw [hblock, hstring]
      exact cString_append ⟨textBytes bytes, zero_notMem_textBytes bytes⟩ rest
    rcases textBytes_split bytes with hwhole | ⟨rest, hsplit⟩
    · rw [hwhole] at hroom ⊢
      obtain ⟨more, rfl⟩ := Nat.exists_eq_add_of_lt hroom
      refine ⟨List.replicate more 0, ?_⟩
      rw [List.take_of_length_le (Nat.le_of_lt hroom), List.rightpad,
        ← List.replicate_succ]
      congr 2
      omega
    · obtain ⟨more, hmore⟩ := Nat.exists_eq_add_of_lt hroom
      have htake : bytes.take size =
          textBytes bytes ++ 0 :: rest.take more := by
        conv_lhs => rw [hsplit, hmore, Nat.add_assoc, List.take_length_add_append]
        rfl
      rw [htake, List.rightpad, List.append_assoc, List.cons_append]
      exact ⟨_, rfl⟩
  next hfull =>
    have hfull := Nat.le_of_not_lt hfull
    have htake : bytes.take size = (textBytes bytes).take size := by
      rcases textBytes_split bytes with hwhole | ⟨rest, hsplit⟩
      · rw [hwhole]
      · conv_lhs => rw [hsplit, List.take_append_of_le_length hfull]
    have hlength : ((textBytes bytes).take size).length = size := by
      rw [List.length_take, Nat.min_eq_left hfull]
    have hpad : ((textBytes bytes).take size).rightpad size 0 =
        (textBytes bytes).take size := by
      rw [List.rightpad, hlength, Nat.sub_self, List.replicate_zero,
        List.append_nil]
    rw [htake, hpad]
    refine if_neg fun hmem => ?_
    exact zero_notMem_textBytes bytes (List.mem_of_mem_take hmem)

/-- The decoded text holds the string of its bytes where there is room. -/
theorem cString_decodedBlock
    (hread : Hex.ofHex (paired (digitsOf text)) = some bytes) :
    cString (decodedBlock text) =
      if (textBytes bytes).length < text.length / 2 then
        .ok (CString.ofBuffer bytes)
      else .error .undefined := by
  rw [decodedBlock_eq hread, cString_rightpad]

end Blocks

section Buffers

variable {malloc : Nat → Option (List UInt8)} {len fieldLen : Nat}

/-- The allocator grants the sizes that a buffer of `fieldLen` bytes takes on
its way to hold `len` bytes and a terminator. -/
def GrantedFor (malloc : Nat → Option (List UInt8)) (len fieldLen : Nat) :
    Prop :=
  ∀ n, fieldLen + n * web3StringBufStepSize ≤ len →
    (malloc (fieldLen + (n + 1) * web3StringBufStepSize)).isSome

/-- The size such a buffer comes to. -/
def enlargedFor (len fieldLen : Nat) : Nat :=
  if len < fieldLen then fieldLen
  else fieldLen + ((len - fieldLen) / web3StringBufStepSize + 1) *
    web3StringBufStepSize

theorem grantedFor_of_lt (hroom : len < fieldLen) :
    GrantedFor malloc len fieldLen := by
  intro n hn
  omega

theorem grantedFor_step (hfull : ¬len < fieldLen) :
    GrantedFor malloc len fieldLen ↔
      (malloc (fieldLen + web3StringBufStepSize)).isSome ∧
        GrantedFor malloc len (fieldLen + web3StringBufStepSize) := by
  have hshift (n : Nat) : fieldLen + web3StringBufStepSize +
      n * web3StringBufStepSize = fieldLen + (n + 1) * web3StringBufStepSize := by
    rw [Nat.succ_mul]
    omega
  constructor
  · intro hgranted
    constructor
    · have hfirst := hgranted 0 (by omega)
      rwa [Nat.zero_add, Nat.one_mul] at hfirst
    · intro n hn
      rw [hshift] at hn ⊢
      exact hgranted (n + 1) hn
  · rintro ⟨hfirst, hrest⟩ n hn
    cases n with
    | zero => rwa [Nat.zero_add, Nat.one_mul]
    | succ n =>
        rw [← hshift] at hn ⊢
        exact hrest n hn

theorem enlargedFor_step (hfull : ¬len < fieldLen) :
    enlargedFor len fieldLen =
      enlargedFor len (fieldLen + web3StringBufStepSize) := by
  have hstep : web3StringBufStepSize = 1024 := rfl
  simp only [enlargedFor, hstep, if_neg hfull]
  split <;> omega

/-- The loop that enlarges a buffer comes to that size, where memory is
granted. -/
theorem growUntil_cases (rounds : Nat) (hlen : len < fieldLen + rounds) :
    (GrantedFor malloc len fieldLen ∧
        growUntil malloc len (rounds + 1) fieldLen =
          some (enlargedFor len fieldLen)) ∨
      (¬GrantedFor malloc len fieldLen ∧
        growUntil malloc len (rounds + 1) fieldLen = none) := by
  induction rounds generalizing fieldLen with
  | zero =>
      have hroom : len < fieldLen := hlen
      exact .inl ⟨grantedFor_of_lt hroom, by
        rw [growUntil, if_pos hroom, enlargedFor, if_pos hroom]⟩
  | succ rounds ih =>
      by_cases hroom : len < fieldLen
      · exact .inl ⟨grantedFor_of_lt hroom, by
          rw [growUntil, if_pos hroom, enlargedFor, if_pos hroom]⟩
      · have hstep : web3StringBufStepSize = 1024 := rfl
        rw [growUntil, if_neg hroom, grantedFor_step hroom,
          enlargedFor_step hroom]
        cases malloc (fieldLen + web3StringBufStepSize) with
        | none => exact .inr ⟨fun hgranted => (by cases hgranted.1), rfl⟩
        | some block =>
            have hnext : len < fieldLen + web3StringBufStepSize + rounds := by
              omega
            rcases ih hnext with ⟨hgranted, hgrown⟩ | ⟨hrefused, hgrown⟩
            · exact .inl ⟨⟨rfl, hgranted⟩, hgrown⟩
            · exact .inr ⟨fun hgranted => hrefused hgranted.2, hgrown⟩

theorem copyResult_granted {text : List Char} {buffer : ResultBuffer}
    (hgranted : GrantedFor malloc text.length buffer.fieldLen) :
    copyResult malloc text buffer =
      (boatSuccess, ⟨some text, enlargedFor text.length buffer.fieldLen⟩) := by
  have hlen : text.length < buffer.fieldLen + (text.length + 1) := by omega
  rcases @growUntil_cases malloc _ _ _ hlen with ⟨-, hgrown⟩ | ⟨hrefused, -⟩
  · rw [copyResult, hgrown]
  · exact absurd hgranted hrefused

theorem copyResult_refused {text : List Char} {buffer : ResultBuffer}
    (hrefused : ¬GrantedFor malloc text.length buffer.fieldLen) :
    copyResult malloc text buffer =
      (boatErrorCommonOutOfMemory, ⟨none, 0⟩) := by
  have hlen : text.length < buffer.fieldLen + (text.length + 1) := by omega
  rcases @growUntil_cases malloc _ _ _ hlen with ⟨hgranted, -⟩ | ⟨-, hgrown⟩
  · exact absurd hgranted hrefused
  · rw [copyResult, hgrown]

end Buffers

section Steps

variable {env : DiscoveryEnv} {answer childName text : List Char}
  {buffer after : ResultBuffer}

theorem named_of_value
    (hvalue : responseValue childName (env.cJSONParse answer) = some text) :
    ¬Nameless (env.cJSONParse answer) := by
  rintro ⟨item, items, hjson⟩
  rw [hjson] at hvalue
  cases hvalue

/-- The value that is asked for is copied. -/
theorem parse_of_value
    (hvalue : responseValue childName (env.cJSONParse answer) = some text) :
    boatPlatoneParseRpcResponseResult env answer childName buffer =
      .ok (copyResult env.malloc text buffer) := by
  have hnamed := named_of_value hvalue
  cases hjson : env.cJSONParse answer with
  | none =>
      rw [hjson] at hvalue
      cases hvalue
  | some json =>
      refine (ethParseJsonResult_named childName buffer hjson hnamed).trans ?_
      apply congrArg Except.ok
      simp only [hjson, responseValue] at hvalue
      cases hresult : json.getObjectItem "result".toList with
      | none =>
          rw [hresult] at hvalue
          cases hvalue
      | some result =>
          simp only [hresult] at hvalue
          cases result with
          | string text' =>
              obtain rfl := Option.some.inj hvalue
              rfl
          | object members =>
              simp only [Json.namedValue] at hvalue
              simp only [ethParseResult, ethParseChild]
              cases hchild : (Json.object members).getObjectItem childName with
              | none =>
                  rw [hchild] at hvalue
                  cases hvalue
              | some child =>
                  rw [hchild] at hvalue
                  cases child with
                  | string text' =>
                      obtain rfl := Option.some.inj hvalue
                      rfl
                  | _ => cases hvalue
          | _ => cases hvalue

/-- What a decoding says of the text in the buffer. -/
theorem decodeContent_eq_ok {block : HeapBlock}
    (hdecode : decodeContent env buffer = .ok block) :
    ∃ text, buffer.content = some text ∧
      (env.malloc (text.length / 2)).isSome ∧
      block = .live (decodedBlock text) := by
  unfold decodeContent at hdecode
  split at hdecode
  next => cases hdecode
  next text hcontent =>
    split at hdecode
    next => cases hdecode
    next granted hgranted =>
      refine ⟨text, hcontent, ?_, (Except.ok.inj hdecode).symm⟩
      rw [hgranted]
      rfl

theorem decodeContent_of_content (hcontent : buffer.content = some text)
    (hgranted : (env.malloc (text.length / 2)).isSome) :
    decodeContent env buffer = .ok (.live (decodedBlock text)) := by
  obtain ⟨granted, hgranted⟩ := Option.isSome_iff_exists.mp hgranted
  rw [decodeContent, hcontent]
  simp only [hgranted]

/-- A value that was copied and decoded. -/
theorem copied_of_decodeContent {block : HeapBlock} {code : BoatResult}
    (hvalue : responseValue childName (env.cJSONParse answer) = some text)
    (hparse : boatPlatoneParseRpcResponseResult env answer childName buffer =
      .ok (code, after))
    (hdecode : decodeContent env after = .ok block) :
    GrantedFor env.malloc text.length buffer.fieldLen ∧
      (env.malloc (text.length / 2)).isSome ∧
      after = ⟨some text, enlargedFor text.length buffer.fieldLen⟩ ∧
      block = .live (decodedBlock text) := by
  rw [parse_of_value hvalue] at hparse
  have hafter := congrArg Prod.snd (Except.ok.inj hparse)
  obtain ⟨text', hcontent, hmalloc, hblock⟩ := decodeContent_eq_ok hdecode
  by_cases hgranted : GrantedFor env.malloc text.length buffer.fieldLen
  · rw [copyResult_granted hgranted] at hafter
    subst hafter
    obtain rfl := Option.some.inj hcontent
    exact ⟨hgranted, hmalloc, rfl, hblock⟩
  · rw [copyResult_refused hgranted] at hafter
    subst hafter
    cases hcontent

variable {request : CString → List Char} {rounds fieldLen : Nat}
  {bytes : List UInt8} {formatted : Option (List Char)} {block : HeapBlock}

/-- The loop reads the address once: where its request does not fit, memory has
been refused. -/
theorem nodesRequestLoop_eq_ok
    (hloop : nodesRequestLoop env request rounds (.live bytes) fieldLen =
      .ok (formatted, block)) :
    block = .freed ∧ ∃ address, cString bytes = .ok address ∧
      (formatted = none ∨ formatted = some (request address) ∧
        (request address).length < fieldLen) := by
  cases rounds with
  | zero => cases hloop
  | succ rounds =>
      rw [nodesRequestLoop] at hloop
      cases haddress : cString bytes with
      | error failure =>
          rw [HeapBlock.read, haddress] at hloop
          cases hloop
      | ok address =>
          rw [HeapBlock.read, haddress, except_ok_bind] at hloop
          split at hloop
          next hfits =>
            cases hloop
            exact ⟨rfl, address, rfl, .inr ⟨rfl, hfits⟩⟩
          next =>
            split at hloop
            next =>
              cases hloop
              exact ⟨rfl, address, rfl, .inl rfl⟩
            next =>
              -- the address is read from memory that was given back
              cases rounds with
              | zero => cases hloop
              | succ rounds => cases hloop

theorem nodesRequestLoop_of_fits {address : CString}
    (haddress : cString bytes = .ok address)
    (hfits : (request address).length < fieldLen) :
    nodesRequestLoop env request (rounds + 1) (.live bytes) fieldLen =
      .ok (some (request address), .freed) := by
  rw [nodesRequestLoop, HeapBlock.read, haddress]
  exact if_pos hfits

end Steps

section Nodes

variable {env : DiscoveryEnv} {items : List Json} {nodes : List Web3NodeInfo}
  {num : Nat} {result : NodesResult}

/-- No node's address is in a block. -/
def NoBlock (nodes : List Web3NodeInfo) : Prop :=
  ∀ node ∈ nodes, ∀ bytes, node.IP ≠ .block bytes

theorem noBlock_append {node : Web3NodeInfo} (hnodes : NoBlock nodes)
    (hnode : ∀ bytes, node.IP ≠ .block bytes) : NoBlock (nodes ++ [node]) := by
  intro other hother
  rcases List.mem_append.mp hother with hother | hother
  · exact hnodes other hother
  · rw [List.mem_singleton.mp hother]
    exact hnode

/-- A block of the text's length has no room for its terminator. -/
theorem strcpyBlock_length (text : List Char) :
    strcpyBlock text.length text = .error .undefined :=
  if_neg (Nat.lt_irrefl _)

/-- An address that is a string is never stored. -/
theorem nodeinfoLoop_noBlock
    (hloop : nodeinfoLoop env items num nodes = .ok result)
    (hnodes : NoBlock nodes) : NoBlock result.nodeInfo := by
  induction items generalizing num nodes with
  | nil =>
      cases hloop
      exact hnodes
  | cons resolution rest ih =>
      rw [nodeinfoLoop] at hloop
      cases hip : resolution.namedItem "externalIP".toList with
      | error failure =>
          rw [hip] at hloop
          cases hloop
      | ok externalIP =>
          cases hheight : resolution.namedItem "rpcPort".toList with
          | error failure =>
              rw [hip, hheight] at hloop
              cases hloop
          | ok height =>
              rw [hip, hheight] at hloop
              simp only [bind, Except.bind] at hloop
              split at hloop
              next => cases hloop
              next =>
                split at hloop
                next text =>
                  split at hloop
                  next =>
                    cases hloop
                    exact noBlock_append hnodes fun _ hblock => by cases hblock
                  next =>
                    rw [strcpyBlock_length] at hloop
                    cases hloop
                next =>
                  split at hloop
                  next => cases hloop
                  next =>
                    exact ih hloop
                      (noBlock_append hnodes fun _ hblock => by cases hblock)

/-- The node of an item: its address is complete, with its terminator, in a
block of its own. -/
def HoldsNode (item : Json) (node : Web3NodeInfo) : Prop :=
  ∃ text rest, item.getObjectItem "externalIP".toList = some (.string text) ∧
    node.IP = .block (asciiBytes text ++ 0 :: rest)

/-- One node for each item, in order. -/
structure ListsNodes (items : List Json) (result : NodesResult) : Prop where
  count : result.num = items.length
  nodes : List.Forall₂ HoldsNode items result.nodeInfo

theorem ListsNodes.eq_nil (hlists : ListsNodes items result)
    (hresult : NoBlock result.nodeInfo) : items = [] := by
  obtain ⟨num, nodes⟩ := result
  have hnodes := hlists.nodes
  cases hnodes with
  | nil => rfl
  | cons hnode _ =>
      obtain ⟨text, rest, -, hblock⟩ := hnode
      exact absurd hblock (hresult _ List.mem_cons_self _)

theorem platoneGetNodeinfo_noBlock {monitor : CString}
    (hnodes : platoneGetNodeinfo env monitor = .ok result) :
    NoBlock result.nodeInfo := by
  have hempty : NoBlock NodesResult.empty.nodeInfo := fun _ hnode => by
    cases hnode
  unfold platoneGetNodeinfo at hnodes
  split at hnodes
  next =>
    cases hnodes
    exact hempty
  next json _ =>
    cases hcode : json.namedItem "code".toList with
    | error failure =>
        rw [hcode] at hnodes
        cases hnodes
    | ok code =>
        cases hdata : json.namedItem "data".toList with
        | error failure =>
            rw [hcode, hdata] at hnodes
            cases hnodes
        | ok resolutions =>
            rw [hcode, hdata] at hnodes
            simp only [bind, Except.bind] at hnodes
            split at hnodes
            next =>
              cases hnodes
              exact hempty
            next =>
              exact nodeinfoLoop_noBlock hnodes hempty

/-- An array without items gives no nodes. -/
theorem platoneGetNodeinfo_nil {monitor : CString} {json : Json}
    (hjson : env.cJSONParse (charsOf monitor.bytes) = some json)
    (hdata : json.getObjectItem "data".toList = some (.array [])) :
    platoneGetNodeinfo env monitor = .ok .empty := by
  have hnamed (name : List Char) :
      json.namedItem name = .ok (json.getObjectItem name) := by
    cases json with
    | array items => cases hdata
    | _ => rfl
  rw [platoneGetNodeinfo, hjson]
  simp only [hnamed, hdata, bind, Except.bind, Option.map_some,
    Option.getD_some, Json.children]
  split
  · rfl
  · rfl

end Nodes

section Requests

variable {bytes : List UInt8}

theorem asciiBytes_charsOf (bytes : List UInt8) :
    asciiBytes (charsOf bytes) = bytes := by
  induction bytes with
  | nil => rfl
  | cons byte bytes ih =>
      have hall : ∀ n : Fin 256, (Char.ofNat n.val).toNat = n.val := by
        decide +kernel
      have hbyte : UInt8.ofNat (Char.ofNat byte.toNat).toNat = byte := by
        rw [hall ⟨byte.toNat, byte.toNat_lt⟩, UInt8.ofNat_toNat]
      change UInt8.ofNat (Char.ofNat byte.toNat).toNat ::
        asciiBytes (charsOf bytes) = byte :: bytes
      rw [hbyte, ih]

/-- A request carries one address. -/
theorem nodesRequest_injective (param : ParamWeb3Call) (messageId : Nat) :
    Function.Injective (nodesRequest param messageId) := by
  intro left right heq
  have hchars := List.append_cancel_left (List.append_cancel_right heq)
  rw [← asciiBytes_charsOf left, hchars, asciiBytes_charsOf]

/-- A text without its padding is a C string exactly where it has no NUL. -/
theorem textBytes_eq_trimRight_iff :
    textBytes bytes = trimRight bytes ↔ 0 ∉ trimRight bytes := by
  constructor
  · intro heq
    rw [← heq]
    exact zero_notMem_textBytes bytes
  · intro hnul
    obtain ⟨count, hbytes⟩ := eq_trimRight_append bytes
    have hall : ∀ byte ∈ trimRight bytes, decide (byte ≠ 0) = true := by
      intro byte hbyte
      exact decide_eq_true fun hzero => hnul (hzero ▸ hbyte)
    have hzeros : (List.replicate count (0 : UInt8)).takeWhile (· ≠ 0) = [] := by
      cases count with
      | zero => rfl
      | succ count => rfl
    rw [textBytes]
    conv_lhs => rw [hbytes, List.takeWhile_append_of_pos hall, hzeros,
      List.append_nil]

end Requests

section Property

variable (env : DiscoveryEnv) (param : ParamWeb3Call) (messageId fieldLen : Nat)
  (first second : Option (List Char)) (earlier : NodesResult)

/-- The bytes that the hexadecimal text in an answer stands for. -/
def answerBytes (childName : List Char) (answer : Option (List Char)) :
    Option (List UInt8) := do
  let answer ← answer
  let text ← responseValue childName (env.cJSONParse answer)
  Hex.ofHex (paired (digitsOf text))

/-- The address of the node manager that the first answer returns, without the
zero bytes that fill it up. -/
def managerAddress : Option (List UInt8) :=
  (answerBytes env "result".toList first).map trimRight

/-- The array of nodes that the second answer returns. -/
def returnedNodes : Option (List Json) := do
  let bytes ← answerBytes env "data".toList second
  let json ← env.cJSONParse (charsOf (textBytes bytes))
  match json.getObjectItem "data".toList with
  | some (.array items) => some items
  | _ => none

/-- What the call owes: it is defined, its second request carries the address
of the manager, and a success comes with the nodes. -/
def Discovers (run : Outcome Discovery) : Prop :=
  ∃ found, run = .ok found ∧
    (∀ request, found.sent[1]? = some request →
      ∃ address, managerAddress env first = some address ∧
        request = nodesRequest param messageId address) ∧
    (found.returned.isSome → ∃ items, returnedNodes env second = some items ∧
      ListsNodes items found.nodes)

/-- The first answer carries an address that its block holds with a terminator,
and whose request fits into the buffer as the first one left it. -/
def AddressFits (text : List Char) (bytes : List UInt8) : Prop :=
  Hex.ofHex (paired (digitsOf text)) = some bytes ∧
    0 ∉ trimRight bytes ∧ (trimRight bytes).length < text.length / 2 ∧
    GrantedFor env.malloc text.length 0 ∧
    (env.malloc (text.length / 2)).isSome ∧
    (nodesRequest param messageId (trimRight bytes)).length <
      enlargedFor (managerRequest param messageId).length fieldLen

/-- The second answer carries an array without nodes, in a text that its block
holds with a terminator. -/
def NoNodes (size : Nat) (text : List Char) : Prop :=
  ∃ bytes json, Hex.ofHex (paired (digitsOf text)) = some bytes ∧
    (textBytes bytes).length < text.length / 2 ∧
    GrantedFor env.malloc text.length size ∧
    (env.malloc (text.length / 2)).isSome ∧
    env.cJSONParse (charsOf (textBytes bytes)) = some json ∧
    json.getObjectItem "data".toList = some (.array [])

/-- Both answers are there and carry what they have to, and nothing that the
earlier result holds is unset. -/
def DiscoversNothing : Prop :=
  ∃ answer text bytes answer' text', first = some answer ∧
    responseValue "result".toList (env.cJSONParse answer) = some text ∧
    AddressFits env param messageId fieldLen text bytes ∧
    second = some answer' ∧
    responseValue "data".toList (env.cJSONParse answer') = some text' ∧
    NoNodes env (enlargedFor text.length 0) text' ∧
    ∃ released, nodeResFree earlier = .ok released

end Property

section Runs

variable {env : DiscoveryEnv} {param : ParamWeb3Call}
  {messageId fieldLen rounds : Nat} {first second : Option (List Char)}
  {earlier : NodesResult} {buffer : ResultBuffer} {bytes : List UInt8}
  {found : Discovery}

/-- What a second half that is defined went through.  It has no way out with an
error: the address would be released a second time. -/
theorem askManager_eq_ok
    (hask : askManager env rounds param messageId fieldLen second earlier buffer
      (.live bytes) = .ok found) :
    ∃ address answer code after block released monitor nodes,
      cString bytes = .ok address ∧
      (nodesRequest param messageId address.bytes).length < fieldLen ∧
      second = some answer ∧
      boatPlatoneParseRpcResponseResult env answer "data".toList buffer =
        .ok (code, after) ∧
      decodeContent env after = .ok block ∧
      nodeResFree earlier = .ok released ∧
      block.read = .ok monitor ∧
      platoneGetNodeinfo env monitor = .ok nodes ∧
      found = ⟨[managerRequest param messageId,
        nodesRequest param messageId address.bytes], some answer, nodes⟩ := by
  unfold askManager at hask
  obtain ⟨⟨formatted, block⟩, hloop, hask⟩ := except_bind_eq_ok.mp hask
  obtain ⟨rfl, address, haddress, hformatted⟩ := nodesRequestLoop_eq_ok hloop
  rcases hformatted with rfl | ⟨rfl, hfits⟩
  · cases hask
  · cases second with
    | none => cases hask
    | some answer =>
        obtain ⟨⟨code, after⟩, hparse, hask⟩ := except_bind_eq_ok.mp hask
        obtain ⟨block, hdecode, hask⟩ := except_bind_eq_ok.mp hask
        obtain ⟨released, hreleased, hask⟩ := except_bind_eq_ok.mp hask
        obtain ⟨monitor, hmonitor, hask⟩ := except_bind_eq_ok.mp hask
        obtain ⟨nodes, hnodes, hask⟩ := except_bind_eq_ok.mp hask
        obtain ⟨_, _, hask⟩ := except_bind_eq_ok.mp hask
        exact ⟨address, answer, code, after, block, released, monitor, nodes,
          haddress, hfits, rfl, hparse, hdecode, hreleased, hmonitor, hnodes,
          (Except.ok.inj hask).symm⟩

theorem discovery_refused
    (hrefused : ¬GrantedFor env.malloc (managerRequest param messageId).length
      fieldLen) :
    web3PlatoneCallGetNodesManagerAddr env rounds param messageId fieldLen first
      second earlier = .ok ⟨[], none, earlier⟩ := by
  have hlen : (managerRequest param messageId).length <
      fieldLen + ((managerRequest param messageId).length + 1) := by omega
  rcases @growUntil_cases env.malloc _ _ _ hlen with
    ⟨hgranted, -⟩ | ⟨-, hgrown⟩
  · exact absurd hgranted hrefused
  · rw [web3PlatoneCallGetNodesManagerAddr]
    simp only [hgrown]

/-- With memory granted the first request is sent from the enlarged buffer. -/
theorem discovery_granted
    (hgranted : GrantedFor env.malloc (managerRequest param messageId).length
      fieldLen) (answer : List Char) :
    web3PlatoneCallGetNodesManagerAddr env rounds param messageId fieldLen none
        second earlier =
        .ok ⟨[managerRequest param messageId], none, earlier⟩ ∧
      web3PlatoneCallGetNodesManagerAddr env rounds param messageId fieldLen
          (some answer) second earlier =
        (boatPlatoneParseRpcResponseResult env answer "result".toList
            ⟨none, 0⟩ >>= fun parsed =>
          decodeContent env parsed.2 >>=
            askManager env rounds param messageId
              (enlargedFor (managerRequest param messageId).length fieldLen)
              second earlier parsed.2) := by
  have hlen : (managerRequest param messageId).length <
      fieldLen + ((managerRequest param messageId).length + 1) := by omega
  rcases @growUntil_cases env.malloc _ _ _ hlen with
    ⟨-, hgrown⟩ | ⟨hrefused, -⟩
  · have hsize : growUntil env.malloc (managerRequest param messageId).length
        ((managerRequest param messageId).length + 2) fieldLen =
          some (enlargedFor (managerRequest param messageId).length fieldLen) :=
      hgrown
    unfold web3PlatoneCallGetNodesManagerAddr
    dsimp only
    rw [hsize]
    exact ⟨rfl, rfl⟩
  · exact absurd hgranted hrefused

theorem answerBytes_eq_some {childName : List Char} {answer : Option (List Char)}
    (hbytes : answerBytes env childName answer = some bytes) :
    ∃ answered text, answer = some answered ∧
      responseValue childName (env.cJSONParse answered) = some text ∧
      Hex.ofHex (paired (digitsOf text)) = some bytes := by
  obtain ⟨answered, hanswer, hbytes⟩ := Option.bind_eq_some_iff.mp hbytes
  obtain ⟨text, hvalue, hread⟩ := Option.bind_eq_some_iff.mp hbytes
  exact ⟨answered, text, hanswer, hvalue, hread⟩

/-- A block that was read holds the string of its bytes. -/
theorem read_decodedBlock {text : List Char} {monitor : CString}
    (hread : Hex.ofHex (paired (digitsOf text)) = some bytes)
    (hmonitor : cString (decodedBlock text) = .ok monitor) :
    (textBytes bytes).length < text.length / 2 ∧
      monitor.bytes = textBytes bytes := by
  rw [cString_decodedBlock hread] at hmonitor
  split at hmonitor
  next hroom => exact ⟨hroom, by rw [← Except.ok.inj hmonitor]; rfl⟩
  next => cases hmonitor

/-- The nodes of an answer come from the text in it. -/
theorem returnedNodes_eq_some {items : List Json}
    (hitems : returnedNodes env second = some items) :
    ∃ answered text bytes json, second = some answered ∧
      responseValue "data".toList (env.cJSONParse answered) = some text ∧
      Hex.ofHex (paired (digitsOf text)) = some bytes ∧
      env.cJSONParse (charsOf (textBytes bytes)) = some json ∧
      json.getObjectItem "data".toList = some (.array items) := by
  unfold returnedNodes at hitems
  obtain ⟨bytes, hbytes, hitems⟩ := Option.bind_eq_some_iff.mp hitems
  obtain ⟨json, hjson, hitems⟩ := Option.bind_eq_some_iff.mp hitems
  obtain ⟨answered, text, hanswer, hvalue, hread⟩ := answerBytes_eq_some hbytes
  split at hitems
  next items' hdata =>
    obtain rfl := Option.some.inj hitems
    exact ⟨answered, text, bytes, json, hanswer, hvalue, hread, hjson, hdata⟩
  next => cases hitems

/-- A discovery that is defined, carries the address and lists the nodes has
found none. -/
theorem discoversNothing_of_ok
    (hgranted : GrantedFor env.malloc (managerRequest param messageId).length
      fieldLen) {answer : List Char}
    (hdiscovers : Discovers env param messageId (some answer) second
      (web3PlatoneCallGetNodesManagerAddr env rounds param messageId fieldLen
        (some answer) second earlier)) :
    DiscoversNothing env param messageId fieldLen (some answer) second
      earlier := by
  obtain ⟨found, hrun, hrequest, hnodes⟩ := hdiscovers
  rw [(discovery_granted hgranted answer).2] at hrun
  obtain ⟨⟨code, after⟩, hparse, hrun⟩ := except_bind_eq_ok.mp hrun
  obtain ⟨block, hdecode, hask⟩ := except_bind_eq_ok.mp hrun
  obtain ⟨content, -, -, hblock⟩ := decodeContent_eq_ok hdecode
  subst hblock
  obtain ⟨address, answer', code', after', block', released, monitor, nodes,
    haddress, hfits, rfl, hparse', hdecode', hreleased, hmonitor, hlisted,
    rfl⟩ := askManager_eq_ok hask
  obtain ⟨carried, hcarried, hsame⟩ := hrequest _ rfl
  obtain ⟨bytes, hbytes, rfl⟩ := Option.map_eq_some_iff.mp hcarried
  obtain ⟨_, text, ⟨⟩, hvalue, hread⟩ := answerBytes_eq_some hbytes
  obtain ⟨hcopied, hmalloc, rfl, hblock⟩ :=
    copied_of_decodeContent hvalue hparse hdecode
  rw [HeapBlock.live.inj hblock] at haddress
  obtain ⟨hroom, hstring⟩ := read_decodedBlock hread haddress
  have htrimmed := nodesRequest_injective param messageId hsame
  rw [hstring] at htrimmed
  obtain ⟨items, hitems, hlists⟩ := hnodes rfl
  obtain ⟨_, text', bytes', json, ⟨⟩, hvalue', hread', hjson, hdata⟩ :=
    returnedNodes_eq_some hitems
  obtain ⟨hcopied', hmalloc', -, rfl⟩ :=
    copied_of_decodeContent hvalue' hparse' hdecode'
  obtain ⟨hroom', hstring'⟩ := read_decodedBlock hread' hmonitor
  obtain rfl := hlists.eq_nil (platoneGetNodeinfo_noBlock hlisted)
  refine ⟨answer, text, bytes, answer', text', rfl, hvalue, ?_, rfl, hvalue', ?_,
    released, hreleased⟩
  · rw [hstring, htrimmed] at hfits
    rw [htrimmed] at hroom
    exact ⟨hread, textBytes_eq_trimRight_iff.mp htrimmed, hroom, hcopied, hmalloc,
      hfits⟩
  · exact ⟨bytes', json, hread', hroom', hcopied', hmalloc', hjson, hdata⟩

theorem read_of_room {text : List Char}
    (hread : Hex.ofHex (paired (digitsOf text)) = some bytes)
    (hroom : (textBytes bytes).length < text.length / 2) :
    cString (decodedBlock text) = .ok (CString.ofBuffer bytes) := by
  rw [cString_decodedBlock hread, if_pos hroom]

/-- Where the address fits and no nodes are returned, none are found. -/
theorem discovers_of_nothing
    (hgranted : GrantedFor env.malloc (managerRequest param messageId).length
      fieldLen)
    (hnothing : DiscoversNothing env param messageId fieldLen first second
      earlier) :
    Discovers env param messageId first second
      (web3PlatoneCallGetNodesManagerAddr env (rounds + 1) param messageId
        fieldLen first second earlier) := by
  obtain ⟨answer, text, bytes, answer', text', rfl, hvalue,
    ⟨hread, hnul, hroom, hcopied, hmalloc, hfits⟩, rfl, hvalue',
    ⟨bytes', json, hread', hroom', hcopied', hmalloc', hjson, hdata⟩, released,
    hreleased⟩ := hnothing
  have htrimmed := textBytes_eq_trimRight_iff.mpr hnul
  have haddress := read_of_room hread (by rw [htrimmed]; exact hroom)
  have hmonitor := read_of_room hread' hroom'
  have hrequest : nodesRequest param messageId (CString.ofBuffer bytes).bytes =
      nodesRequest param messageId (trimRight bytes) := by
    rw [← htrimmed]
    rfl
  have hloop := @nodesRequestLoop_of_fits env
    (fun address => nodesRequest param messageId address.bytes) rounds
    (enlargedFor (managerRequest param messageId).length fieldLen) _ _ haddress
    (by rw [hrequest]; exact hfits)
  have hlisted := @platoneGetNodeinfo_nil env (CString.ofBuffer bytes') json
    hjson hdata
  refine ⟨⟨[managerRequest param messageId,
    nodesRequest param messageId (trimRight bytes)], some answer', .empty⟩,
    ?_, ?_, ?_⟩
  · rw [(discovery_granted hgranted answer).2, parse_of_value hvalue,
      copyResult_granted hcopied]
    rw [except_ok_bind]
    dsimp only
    rw [decodeContent_of_content rfl hmalloc, except_ok_bind, askManager, hloop,
      except_ok_bind]
    dsimp only
    rw [parse_of_value hvalue', copyResult_granted hcopied', except_ok_bind]
    dsimp only
    rw [decodeContent_of_content rfl hmalloc', except_ok_bind, hreleased,
      except_ok_bind, HeapBlock.read, hmonitor, except_ok_bind, hlisted,
      except_ok_bind, hrequest]
    rfl
  · intro request hsent
    obtain rfl := Option.some.inj hsent
    refine ⟨trimRight bytes, ?_, rfl⟩
    simp only [managerAddress, answerBytes, Option.bind_eq_bind,
      Option.bind_some, hvalue, hread, Option.map_some]
  · intro _
    refine ⟨[], ?_, rfl, .nil⟩
    simp only [returnedNodes, answerBytes, Option.bind_eq_bind,
      Option.bind_some, hvalue', hread', hjson, hdata]

/-- The discovery does what it owes exactly where memory is refused or the first
exchange fails, before an address is read, or no nodes are there to be found. -/
theorem discovers_iff (env : DiscoveryEnv) (param : ParamWeb3Call)
    (messageId fieldLen rounds : Nat) (first second : Option (List Char))
    (earlier : NodesResult) :
    Discovers env param messageId first second
        (web3PlatoneCallGetNodesManagerAddr env (rounds + 1) param messageId
          fieldLen first second earlier) ↔
      ¬GrantedFor env.malloc (managerRequest param messageId).length fieldLen ∨
        first = none ∨
        DiscoversNothing env param messageId fieldLen first second earlier := by
  by_cases hgranted : GrantedFor env.malloc
      (managerRequest param messageId).length fieldLen
  · constructor
    · intro hdiscovers
      cases first with
      | none => exact .inr (.inl rfl)
      | some answer =>
          exact .inr (.inr (discoversNothing_of_ok hgranted hdiscovers))
    · rintro (hrefused | rfl | hnothing)
      · exact absurd hgranted hrefused
      · refine ⟨_, (discovery_granted hgranted []).1, ?_, ?_⟩
        · intro request hsent
          cases hsent
        · intro hreturned
          cases hreturned
      · exact discovers_of_nothing hgranted hnothing
  · constructor
    · exact fun _ => .inl hgranted
    · intro _
      refine ⟨_, discovery_refused hgranted, ?_, ?_⟩
      · intro request hsent
        cases hsent
      · intro hreturned
        cases hreturned

end Runs

section Sample

/-- The nodes of a network with one node. -/
def oneNode : List Char :=
  "\x7b\"data\":[\x7b\"externalIP\":\"1.2.3.4\",\"rpcPort\":6791\x7d]\x7d".toList

/-- The answer whose result is the hexadecimal text of these characters. -/
def hexAnswer (text : List Char) : List Char :=
  "\x7b\"result\":\"0x".toList ++ Hex.toHex (asciiBytes text) ++ "\"\x7d".toList

/-- The address of the manager, and the nodes, as they are parsed. -/
def parseNodes (text : List Char) : Option Json :=
  if text = oneNode then
    some (.object [("data".toList, .array [.object
      [("externalIP".toList, .string "1.2.3.4".toList),
        ("rpcPort".toList, .number "6791".toList)]])])
  else if text = hexAnswer oneNode then
    some (.object [("result".toList,
      .string ('0' :: 'x' :: Hex.toHex (asciiBytes oneNode)))])
  else if text = hexAnswer "0x11".toList then
    some (.object [("result".toList,
      .string ('0' :: 'x' :: Hex.toHex (asciiBytes "0x11".toList)))])
  else none

def sampleDiscovery : DiscoveryEnv :=
  ⟨fun _ => some [], parseNodes, fun _ => 6791⟩

def sampleCall : ParamWeb3Call :=
  ⟨"eth_call".toList, "0x12".toList, [], [], "0xd5".toList, "latest".toList⟩

/-- The address of a single node is copied past the end of its block. -/
theorem not_discovers_oneNode :
    ¬Discovers sampleDiscovery sampleCall 1
      (some (hexAnswer "0x11".toList)) (some (hexAnswer oneNode))
      (web3PlatoneCallGetNodesManagerAddr sampleDiscovery 2 sampleCall 1 1024
        (some (hexAnswer "0x11".toList)) (some (hexAnswer oneNode)) .empty) := by
  have hrun : (web3PlatoneCallGetNodesManagerAddr sampleDiscovery 2 sampleCall 1
      1024 (some (hexAnswer "0x11".toList)) (some (hexAnswer oneNode))
      .empty).toBool = false := by
    decide +kernel
  rintro ⟨found, hfound, -⟩
  rw [hfound] at hrun
  cases hrun

end Sample

end BoatFramework
