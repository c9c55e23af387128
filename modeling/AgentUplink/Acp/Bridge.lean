import AgentUplink.Lib.JsonAccess
import AgentUplink.Lib.Ledger
import AgentUplink.Lib.Trace

/-!
# The connections of an ACP export

An `initialize` request opens a connection that owns an agent process. Between its two
await points, the agent's answer and the end of a refused agent, other requests run
and connections end. The state below is what these steps share: the table of tracked
connections, the counter that names them, and where each request stands.
-/

namespace AgentUplink.Acp

open JsonText (Value)
open Std

/-! ## The pinned protocol version -/

inductive AcpRule
  | contentType
  | accept
  | connectionHeaderRequired
  | connectionHeaderForbidden
  | sessionHeaderRequired
  | sessionHeaderMismatch
  | batchNotSupported
  | notStrictJson
  | notJsonRpcMessage
  | jsonRpcVersion
  | requestId
  | methodNotAccepted
  | protocolVersionShape
  | unsupportedProtocolVersion
  | v2PromptAcknowledgement
  | unknownStopReason
  | turnCompletionShape
  deriving DecidableEq

namespace AcpRule

def status : AcpRule → Nat
  | contentType => 415
  | accept => 406
  | batchNotSupported => 501
  | _ => 400

def code : AcpRule → Int
  | notStrictJson => -32700
  | batchNotSupported => -32030
  | unsupportedProtocolVersion => -32031
  | methodNotAccepted => -32601
  | sessionHeaderMismatch
  | connectionHeaderRequired
  | connectionHeaderForbidden
  | sessionHeaderRequired => -32032
  | v2PromptAcknowledgement => -32033
  | unknownStopReason => -32034
  | contentType
  | accept
  | notJsonRpcMessage
  | jsonRpcVersion
  | requestId
  | protocolVersionShape
  | turnCompletionShape => -32600

end AcpRule

structure AcpRejection where
  rule : AcpRule
  status : Nat
  code : Int
  message : String
  id : Option Value := none
  supported : Option Nat := none

def AcpRejection.new (rule : AcpRule) (message : String) : AcpRejection :=
  { rule, status := rule.status, code := rule.code, message }

def protocolVersionV1 : Nat := 1

def negotiateProtocolVersion (value : Value) : Except AcpRejection Nat :=
  match value.asU64.filter fun n => decide (n < 2 ^ 16) with
  | none =>
    .error (.new .protocolVersionShape "protocolVersion must be an unsigned integer")
  | some number =>
    if number = protocolVersionV1 then .ok number
    else
      .error { AcpRejection.new .unsupportedProtocolVersion
        "this export speaks ACP protocol version 1 only" with supported := some protocolVersionV1 }

/-- The agent's `initialize` result must negotiate version 1. -/
def checkResultVersion (result : Value) : Except AcpRejection Unit :=
  match result.get "protocolVersion" with
  | none => .error (.new .protocolVersionShape "protocolVersion is required")
  | some version => (negotiateProtocolVersion version).map fun _ => ()

/-! ## Connections and requests -/

def maxTrackedConnections : Nat := 256

def maxConnectionsPerBinding : Nat := maxTrackedConnections / 8

/-- Both caps: of the export's connections, and of those of the principal who asks. -/
def admits (live held : Nat) : Bool :=
  live < maxTrackedConnections && held < maxConnectionsPerBinding

structure Connection where
  id : String
  /-- The opaque binding of the principal, if the ingress derived one. -/
  principal : Option String

inductive Response
  | failed (status : Nat) (code : Int) (message : String)
  | rejected (rejection : AcpRejection)
  | opened (connection : String) (id : Value) (result : Value)

namespace Response

def atConnectionLimit : Response := failed 503 (-32002) "the export is at its connection limit"

def agentNotStarted : Response := failed 503 (-32603) "the configured agent could not be started"

def agentNotInitialized : Response :=
  failed 503 (-32603) "the agent did not complete initialization"

end Response

/-- Where an `initialize` request stands. `dropped` is an exchange given up at an await
point: the supervisor it held goes away, and with it the agent. -/
inductive Phase
  | initializing (id : String) (messageId : Option Value)
  | draining (response : Response)
  | answered (response : Response)
  | dropped

/-- The answer a request got or will get once its agent has ended. -/
def Phase.response : Phase → Option Response
  | draining response => some response
  | answered response => some response
  | initializing _ _ => none
  | dropped => none

structure Request where
  binding : Option String
  started : Bool
  phase : Phase

/-- The name of a connection: the export's epoch and the connection's number, in
hexadecimal. -/
def connectionId (epoch sequence : UInt64) : String :=
  String.ofList ("acp-".toList ++ (Nat.toDigits 16 epoch.toNat).leftpad 16 '0' ++
    '-' :: Nat.toDigits 16 sequence.toNat)

structure AcpExport where
  connections : ExtTreeMap String Connection
  next : UInt64
  epoch : UInt64
  requests : List Request

namespace AcpExport

def fromConfig (epoch : UInt64) : AcpExport where
  connections := ∅
  next := 0
  epoch := epoch
  requests := []

variable (s : AcpExport)

def live : Nat := s.connections.size

variable (binding : Option String)

def heldBy : Nat :=
  (s.connections.toList.filter fun entry => entry.2.principal = binding).length

def hasRoomFor : Bool :=
  admits s.live (s.heldBy binding)

def receive (request : Request) : AcpExport :=
  { s with requests := s.requests ++ [request] }

def setPhase (i : Nat) (request : Request) (phase : Phase) : AcpExport :=
  { s with requests := s.requests.set i { request with phase } }

/-- `initialize` up to its first await: the request is refused, or its agent is started
and asked. Nothing is set aside for the connection it may become. -/
def initializeRequest (messageId : Option Value)
    (spawned : Bool) : AcpExport :=
  if s.hasRoomFor binding then
    let id := connectionId s.epoch s.next
    let s := { s with next := s.next + 1 }
    if spawned then s.receive ⟨binding, true, .initializing id messageId⟩
    else s.receive ⟨binding, false, .answered .agentNotStarted⟩
  else s.receive ⟨binding, false, .answered .atConnectionLimit⟩

/-- `initialize` after the agent's answer: the agent is refused and ended, or the
connection is inserted and the request answered. -/
def agentAnswered (i : Nat) (answer : Except Unit Value) : AcpExport :=
  match s.requests[i]? with
  | some request =>
    match request.phase with
    | .initializing id messageId =>
      match answer with
      | .error _ => s.setPhase i request (.draining .agentNotInitialized)
      | .ok result =>
        match checkResultVersion result with
        | .error rejection => s.setPhase i request (.draining (.rejected rejection))
        | .ok _ =>
          { s with connections := s.connections.insert id ⟨id, request.binding⟩ }.setPhase i request
            (.answered (.opened id (messageId.getD .null) result))
    | _ => s
  | none => s

/-- `initialize` after the refused agent has ended. -/
def drained (i : Nat) : AcpExport :=
  match s.requests[i]? with
  | some request =>
    match request.phase with
    | .draining response => s.setPhase i request (.answered response)
    | _ => s
  | none => s

/-- The exchange is given up while `initialize` waits. -/
def drop (i : Nat) : AcpExport :=
  match s.requests[i]? with
  | some request =>
    match request.phase with
    | .initializing _ _ => s.setPhase i request .dropped
    | .draining _ => s.setPhase i request .dropped
    | _ => s
  | none => s

def remove (id : String) : AcpExport :=
  { s with connections := s.connections.erase id }

def shutdown : AcpExport :=
  { s with connections := ∅ }

end AcpExport

inductive Event
  | initializeRequest (binding : Option String) (messageId : Option Value) (spawned : Bool)
  | agentAnswered (request : Nat) (answer : Except Unit Value)
  | drained (request : Nat)
  | drop (request : Nat)
  | remove (id : String)
  | shutdown

def Event.isRequest : Event → Bool
  | initializeRequest .. => true
  | _ => false

def AcpExport.step : Event → AcpExport → AcpExport
  | .initializeRequest binding messageId spawned, s =>
    s.initializeRequest binding messageId spawned
  | .agentAnswered i answer, s => s.agentAnswered i answer
  | .drained i, s => s.drained i
  | .drop i, s => s.drop i
  | .remove id, s => s.remove id
  | .shutdown, s => s.shutdown

def AcpExport.after (epoch : UInt64) (events : List Event) : AcpExport :=
  Trace.run step (fromConfig epoch) events

end AgentUplink.Acp
