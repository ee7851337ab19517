/-
The poll for the receipt of a transaction.  The chains share it up to the
member of the receipt they look for, the text they compare it with and the
parser of the response: `BoatPlatONGetTransactionReceipt` and its copies.
-/
import BoatFramework.Base.Exec
import BoatFramework.Base.Poll
import BoatFramework.Cita.Transaction
import BoatFramework.Tx.Receipt

namespace BoatFramework

/-- What a node is asked for; FISCO BCOS names the group besides. -/
structure ReceiptRequest where
  methodName : List Char
  txHashStr : List Char
  extra : List (List Char)

/-- The answers to a receipt query, by poll. -/
abbrev ReceiptAnswers := ReceiptRequest → Nat → NodeAnswer

/-- The poll touches the result buffer only. -/
abbrev ReceiptM := EStateM Failure ResultBuffer Unit

/-- What distinguishes the polls of the chains. -/
structure ReceiptPoll where
  methodName : List Char
  /-- Seconds between two polls. -/
  mineInterval : Nat
  /-- Seconds to wait for a transaction being mined. -/
  waitPendingTxTimeout : Nat
  childName : List Char
  minedText : List Char
  parse : SendEnv → List Char → List Char → ResultBuffer →
    Outcome (BoatResult × ResultBuffer)

namespace ReceiptPoll

variable (poll : ReceiptPoll) (env : SendEnv)

/-- The timeout goes down by the interval at each pending answer. -/
def polls : Nat := poll.waitPendingTxTimeout / poll.mineInterval

/-- The comparison behind a parsed receipt; both branches leave the loop with
success. -/
def compare : ReceiptM :=
  fun buffer =>
    match buffer.content with
    | none => .error .undefined buffer
    | some status =>
        if status = poll.minedText then .ok () buffer else .ok () buffer

/-- Go on with what was parsed, or poll again. -/
def judge (again : ReceiptM) (parsed : BoatResult × ResultBuffer) : ReceiptM :=
  fun _ =>
    if parsed.1 = boatErrorJsonObjIsNull then again parsed.2
    else if parsed.1 = boatSuccess then poll.compare parsed.2
    else .error (.code boatErrorWalletResultParseFail) parsed.2

/-- One round of the loop, behind the sleep. -/
def round (again : ReceiptM) (answer : NodeAnswer) : ReceiptM :=
  fun buffer =>
    match answer with
    | .error code => .error (.code code) buffer
    | .ok response =>
        match poll.parse env response poll.childName buffer with
        | .error failure => .error failure buffer
        | .ok parsed => poll.judge again parsed buffer

/-- The end of the loop with no time left. -/
def timedOut : ReceiptM :=
  fun buffer => .error (.code boatErrorCommonTxPending) buffer

/-- The loop over the answers to the queries. -/
def wait (answers : Nat → NodeAnswer) : ReceiptM :=
  Poll.run (poll.round env) timedOut answers poll.polls 0

end ReceiptPoll

/-- `BoatEthParseRpcResponseResult` and its three copies. -/
def parseRpcResponseResult (env : SendEnv) (response childName : List Char)
    (buffer : ResultBuffer) : Outcome (BoatResult × ResultBuffer) :=
  ethParseJsonResult env.cJSONParse env.malloc response childName buffer

/-- `BoatQuorumParseRpcResponseResult`: the grandchild has no name. -/
def quorumParseRpcResponseResult (env : SendEnv)
    (response childName : List Char) (buffer : ResultBuffer) :
    Outcome (BoatResult × ResultBuffer) :=
  quorumParseJsonResult env.cJSONParse env.malloc response childName [] buffer

/-- `BoatCitaParseRpcResponseResult`. -/
def citaParseRpcResponseResult (env : SendEnv) (response childName : List Char)
    (buffer : ResultBuffer) : Outcome (BoatResult × ResultBuffer) :=
  citaParseJsonResult env.cJSONParse env.malloc response childName buffer

def ethReceiptPoll : ReceiptPoll where
  methodName := "eth_getTransactionReceipt".toList
  mineInterval := 3
  waitPendingTxTimeout := 30
  childName := "status".toList
  minedText := "0x1".toList
  parse := parseRpcResponseResult

def platonReceiptPoll : ReceiptPoll where
  methodName := "platon_getTransactionReceipt".toList
  mineInterval := 2
  waitPendingTxTimeout := 30
  childName := "status".toList
  minedText := "0x1".toList
  parse := parseRpcResponseResult

def platoneReceiptPoll : ReceiptPoll where
  methodName := "eth_getTransactionReceipt".toList
  mineInterval := 3
  waitPendingTxTimeout := 30
  childName := "status".toList
  minedText := "0x1".toList
  parse := parseRpcResponseResult

def venachainReceiptPoll : ReceiptPoll where
  methodName := "eth_getTransactionReceipt".toList
  mineInterval := 3
  waitPendingTxTimeout := 30
  childName := "status".toList
  minedText := "0x1".toList
  parse := parseRpcResponseResult

def quorumReceiptPoll : ReceiptPoll where
  methodName := "eth_getTransactionReceipt".toList
  mineInterval := 3
  waitPendingTxTimeout := 30
  childName := "status".toList
  minedText := "0x1".toList
  parse := quorumParseRpcResponseResult

/-- A status of zero says that the transaction was mined. -/
def fiscobcosReceiptPoll : ReceiptPoll where
  methodName := "getTransactionReceipt".toList
  mineInterval := 3
  waitPendingTxTimeout := 30
  childName := "status".toList
  minedText := "0x0".toList
  parse := parseRpcResponseResult

/-- The parser writes `null` for a message that is no text. -/
def citaReceiptPoll : ReceiptPoll where
  methodName := "getTransactionReceipt".toList
  mineInterval := 3
  waitPendingTxTimeout := 30
  childName := "errorMessage".toList
  minedText := "null".toList
  parse := citaParseRpcResponseResult

/-- What an answer to a receipt query tells. -/
inductive ReceiptAnswer where
  | unanswered
  | unreadable
  | pending
  | reported (status : Json)
  | bare (text : List Char)

/-- What the result of a response tells: `null` for a transaction that is not
mined, or a receipt. -/
def resultAnswer (childName : List Char) : Option Json → ReceiptAnswer
  | some .null => .pending
  | some (.string text) => .bare text
  | some (.object members) =>
      match (Json.object members).getObjectItem childName with
      | none => .unreadable
      | some status => .reported status
  | _ => .unreadable

def readReceipt (env : SendEnv) (childName : List Char) :
    NodeAnswer → ReceiptAnswer
  | .error _ => .unanswered
  | .ok response =>
      resultAnswer childName
        ((env.cJSONParse response).bind (Json.getObjectItem "result".toList))

/-- The answer says to poll again. -/
def ReceiptAnswer.waits : ReceiptAnswer → Bool
  | .pending => true
  | _ => false

/-- Memory for a text in the result buffer is granted. -/
def Held (env : SendEnv) (text : List Char) (buffer : ResultBuffer) : Prop :=
  (copyResult env.malloc text buffer).1 = boatSuccess

/-- The answer ends the poll with success: a text that the buffer takes, or a
status of another type where the parser passes over it. -/
def ReceiptAnswer.Ends (passes : Json → ResultBuffer → Prop) (env : SendEnv)
    (buffer : ResultBuffer) : ReceiptAnswer → Prop
  | .bare text => Held env text buffer
  | .reported (.string text) => Held env text buffer
  | .reported status => passes status buffer
  | _ => False

end BoatFramework
