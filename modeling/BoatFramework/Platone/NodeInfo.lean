/-
Discovery of the nodes of a PlatONE network: the node manager's address is asked
for, and then the manager for its nodes.  Both answers are hexadecimal texts,
decoded into blocks of half their length.
-/
import BoatFramework.Tx.CallContract
import BoatFramework.Utility.HexCodec
import BoatFramework.Web3.ResultGrowth

namespace BoatFramework

/-- The request for the address of the node manager. -/
def managerRequest (param : ParamWeb3Call) (messageId : Nat) : List Char :=
  "\x7b\"jsonrpc\":\"2.0\",\"method\":\"eth_call\",\"params\":[\x7b\"from\":\"".toList ++
    param.to ++
    "\",\"to\":\"0x0000000000000000000000000000000000000011\",\"gas\":\"0x0\",\"gasPrice\":\"0x0\",\"value\":\"\",\"data\":\"".toList ++
    param.data ++ "\",\"txType\":9\x7d,\"".toList ++ param.blockNumStr ++
    "\"],\"id\":".toList ++ formatUnsigned messageId ++ "\x7d".toList

def nodesRequestFront (param : ParamWeb3Call) : List Char :=
  "\x7b\"jsonrpc\":\"2.0\",\"method\":\"eth_call\",\"params\":[\x7b\"from\":\"".toList ++
    param.to ++ "\",\"to\":\"".toList

def nodesRequestBack (param : ParamWeb3Call) (messageId : Nat) : List Char :=
  "\",\"gas\":\"0x0\",\"gasPrice\":\"0x0\",\"value\":\"\",\"data\":\"0xd58800000000000000098b676574416c6c4e6f646573\",\"txType\":9\x7d,\"".toList ++
    param.blockNumStr ++ "\"],\"id\":".toList ++ formatUnsigned messageId ++
    "\x7d".toList

/-- The request that a manager at this address gets. -/
def nodesRequest (param : ParamWeb3Call) (messageId : Nat)
    (address : List UInt8) : List Char :=
  nodesRequestFront param ++ charsOf address ++ nodesRequestBack param messageId

/-- A block of memory behind a pointer, or what is left of one. -/
inductive HeapBlock where
  | live (bytes : List UInt8)
  | freed

namespace HeapBlock

/-- The C string in the block. -/
def read : HeapBlock → Outcome CString
  | live bytes => cString bytes
  | freed => .error .undefined

def free : HeapBlock → Outcome HeapBlock
  | live _ => .ok freed
  | freed => .error .undefined

end HeapBlock

/-- The pointer to a node's address: unset memory, null, or a block. -/
inductive IpPointer where
  | unset
  | null
  | block (bytes : List UInt8)

structure Web3NodeInfo where
  IP : IpPointer
  rpcPort : Option Nat

structure NodesResult where
  num : Nat
  nodeInfo : List Web3NodeInfo

def NodesResult.empty : NodesResult :=
  ⟨0, []⟩

/-- The result is released; a pointer that was never set is undefined. -/
def nodeResFree (result : NodesResult) : Outcome NodesResult :=
  if result.nodeInfo.any fun node => node.IP matches .unset then
    .error .undefined
  else .ok .empty

/-- The items that `cJSON_ArrayForEach` comes to. -/
def Json.children : Json → List Json
  | .array items => items
  | .object members => members.map (·.2)
  | _ => []

/-- A text is copied, with its terminator, into a block of `size` bytes. -/
def strcpyBlock (size : Nat) (text : List Char) : Outcome (List UInt8) :=
  if text.length < size then .ok ((asciiBytes text ++ [0]).rightpad size 0)
  else .error .undefined

structure DiscoveryEnv where
  malloc : Nat → Option (List UInt8)
  cJSONParse : List Char → Option Json
  valueint : Json → Nat

section Run

variable (env : DiscoveryEnv)

/-- The loop of `Platone_get_Nodeinfo` over the items.  `num` is an octet, and
a node in front of the first one is undefined. -/
def nodeinfoLoop : List Json → Nat → List Web3NodeInfo → Outcome NodesResult
  | [], num, nodes => .ok ⟨num, nodes⟩
  | resolution :: rest, num, nodes => do
      let externalIP ← resolution.namedItem "externalIP".toList
      let height ← resolution.namedItem "rpcPort".toList
      if (num + 1) % 256 = 0 then .error .undefined
      else
        match externalIP with
        | some (.string text) =>
            match env.malloc text.length with
            | none => .ok ⟨(num + 1) % 256, nodes ++ [⟨.null, none⟩]⟩
            | some _ => do
                let ip ← strcpyBlock text.length text
                match height with
                | none => .error .undefined
                | some height =>
                    nodeinfoLoop rest ((num + 1) % 256)
                      (nodes ++ [⟨.block ip, some (env.valueint height)⟩])
        | _ =>
            match height with
            | none => .error .undefined
            | some height =>
                nodeinfoLoop rest ((num + 1) % 256)
                  (nodes ++ [⟨.unset, some (env.valueint height)⟩])

def web3NodeInfoSize : Nat := 16

/-- The nodes in a JSON text; a text that is not JSON has none, and neither has
one whose nodes memory is refused for. -/
def platoneGetNodeinfo (monitor : CString) : Outcome NodesResult :=
  match env.cJSONParse (charsOf monitor.bytes) with
  | none => .ok .empty
  | some json => do
      let _ ← json.namedItem "code".toList
      let resolutions ← json.namedItem "data".toList
      let items := (resolutions.map Json.children).getD []
      match env.malloc (items.length * web3NodeInfoSize) with
      | none => .ok .empty
      | some _ => nodeinfoLoop env items 0 []

/-- The part of an answer that is asked for. -/
def boatPlatoneParseRpcResponseResult (answer childName : List Char)
    (buffer : ResultBuffer) : Outcome (BoatResult × ResultBuffer) :=
  platoneParseJsonResult env.cJSONParse env.malloc answer childName buffer

/-- What is decoded of a hexadecimal text: a block of half its length, cleared
in front of the conversion. -/
def decodedBlock (text : List Char) : List UInt8 :=
  (utilityHexToBin (text.length / 2) text .trimNo false).1.rightpad
    (text.length / 2) 0

/-- The text in the buffer decoded; a null pointer, in the buffer or from the
allocator, is undefined. -/
def decodeContent (buffer : ResultBuffer) : Outcome HeapBlock :=
  match buffer.content with
  | none => .error .undefined
  | some text =>
      match env.malloc (text.length / 2) with
      | none => .error .undefined
      | some _ => .ok (.live (decodedBlock text))

/-- The loop that formats the second request and enlarges the request buffer
for it: the request, if memory is granted, and what is left of the address. -/
def nodesRequestLoop (request : CString → List Char) :
    Nat → HeapBlock → Nat → Outcome (Option (List Char) × HeapBlock)
  | 0, _, _ => .error .undefined
  | rounds + 1, block, fieldLen => do
      let address ← block.read
      let block ← block.free
      if (request address).length < fieldLen then
        .ok (some (request address), block)
      else
        match env.malloc (fieldLen + web3StringBufStepSize) with
        | none => .ok (none, block)
        | some _ =>
            nodesRequestLoop request rounds block
              (fieldLen + web3StringBufStepSize)

/-- What a call leaves: the requests handed to the network, the answer it
returns, and the nodes. -/
structure Discovery where
  sent : List (List Char)
  returned : Option (List Char)
  nodes : NodesResult

/-- The second half of the call, from the decoded first answer on. -/
def askManager (rounds : Nat) (param : ParamWeb3Call) (messageId : Nat)
    (fieldLen : Nat) (second : Option (List Char)) (earlier : NodesResult)
    (buffer : ResultBuffer) (block : HeapBlock) : Outcome Discovery := do
  let (request, block) ← nodesRequestLoop env
    (fun address => nodesRequest param messageId address.bytes) rounds block
    fieldLen
  match request with
  | none => do
      let _ ← block.free
      .ok ⟨[managerRequest param messageId], none, earlier⟩
  | some request =>
      match second with
      | none => do
          let _ ← block.free
          .ok ⟨[managerRequest param messageId, request], none, earlier⟩
      | some answer => do
          let (_, buffer) ← boatPlatoneParseRpcResponseResult env answer
            "data".toList buffer
          let block ← decodeContent env buffer
          let _ ← nodeResFree earlier
          let monitor ← block.read
          let nodes ← platoneGetNodeinfo env monitor
          let _ ← block.free
          .ok ⟨[managerRequest param messageId, request], some answer, nodes⟩

/-- `web3_platone_call_getNodesManagerAddr`, from a request buffer of `fieldLen`
bytes.  Its two exchanges are answered, or not, and what `earlier` holds is
replaced. -/
def web3PlatoneCallGetNodesManagerAddr (rounds : Nat) (param : ParamWeb3Call)
    (messageId : Nat) (fieldLen : Nat) (first second : Option (List Char))
    (earlier : NodesResult) : Outcome Discovery :=
  let request := managerRequest param messageId
  match growUntil env.malloc request.length (request.length + 2) fieldLen with
  | none => .ok ⟨[], none, earlier⟩
  | some fieldLen =>
      match first with
      | none => .ok ⟨[request], none, earlier⟩
      | some answer => do
          let (_, buffer) ← boatPlatoneParseRpcResponseResult env answer
            "result".toList ⟨none, 0⟩
          let block ← decodeContent env buffer
          askManager env rounds param messageId fieldLen second earlier buffer
            block

end Run

end BoatFramework
