import DcCluster.Rpc.CommonTypes

/-!
Executable model of the generated clients and processors of `Regist.cpp` and
`Request.cpp`, with `TDispatchProcessor`. A processor is handed bytes and takes one
message from them; when the server calls it, and again for what the message leaves, is
not decided here. A handler changes the state of its server and returns or throws.
-/

namespace DcCluster.Rpc

open DcCluster.Lib

/-- What a handler throws. The processor only catches a `std::exception`. -/
inductive Thrown
  | stdException (what : Bytes)
  | other
  deriving DecidableEq, Repr

abbrev Handler (σ args result : Type) := σ → args → σ × Except Thrown result

/-- What the generated code of one method fills in. `readArgs` and `readResult` start from
new structs. -/
structure Method (args result : Type) where
  name : Bytes
  readArgs : Reader args
  writeArgs : args → Written
  readResult : Reader (OneField result)
  writeResult : OneField result → Bytes
  unknownResult : String

inductive TApplicationExceptionType
  | unknown
  | unknownMethod
  deriving DecidableEq, Repr

structure TApplicationException where
  type : TApplicationExceptionType
  message : Bytes
  deriving DecidableEq, Repr

def bytesOf (text : List Char) : Bytes := text.map fun character => UInt8.ofNat character.toNat

def registClientName : Bytes :=
  bytesOf ['r', 'e', 'g', 'i', 's', 't', 'C', 'l', 'i', 'e', 'n', 't']

def heartbeatName : Bytes := bytesOf ['h', 'e', 'a', 'r', 't', 'b', 'e', 'a', 't']

def clusterWorkName : Bytes :=
  bytesOf ['C', 'l', 'u', 's', 't', 'e', 'r', 'W', 'o', 'r', 'k']

def invalidMethodName (fname : Bytes) : Bytes :=
  bytesOf ['I', 'n', 'v', 'a', 'l', 'i', 'd', ' ', 'm', 'e', 't', 'h', 'o', 'd', ' ', 'n', 'a',
    'm', 'e', ':', ' ', Char.ofNat 39] ++ fname ++ bytesOf [Char.ofNat 39]

section Protocol

variable (protocol : TBinaryProtocol) {args result σ : Type}

def registClient : Method NodeInfo Int32 where
  name := registClientName
  readArgs := do
    let args ← readRegistClientArgs protocol recursionLimit { value := {} }
    pure args.value
  writeArgs := writeRegistClientArgs
  readResult := readRegistClientResult protocol recursionLimit { value := 0 }
  writeResult := writeRegistClientResult
  unknownResult := "registClient failed: unknown result"

def heartbeat : Method NodeInfo Bool where
  name := heartbeatName
  readArgs := do
    let args ← readHeartbeatArgs protocol recursionLimit { value := {} }
    pure args.value
  writeArgs := writeHeartbeatArgs
  readResult := readHeartbeatResult protocol recursionLimit { value := false }
  writeResult := writeHeartbeatResult
  unknownResult := "heartbeat failed: unknown result"

def clusterWork : Method Bytes Bool where
  name := clusterWorkName
  readArgs := do
    let args ← readClusterWorkArgs protocol recursionLimit { value := [] }
    pure args.value
  writeArgs := writeClusterWorkArgs
  readResult := readClusterWorkResult protocol recursionLimit { value := false }
  writeResult := writeClusterWorkResult
  unknownResult := "ClusterWork failed: unknown result"

def Method.send (method : Method args result) (request : args) : Written :=
  writeMessageBegin protocol method.name tCall 0 ++ method.writeArgs request

def skipStructIf (wrong : Bool) : Reader Unit :=
  if wrong then skip protocol recursionLimit .struct else pure ()

/-- `recv_X`. After a wrong type or name of the message it skips a struct and goes on. -/
def Method.recv (method : Method args result) : Reader result := do
  let reply ← readMessageBegin protocol
  if reply.messageType = tException then Decoder.fail .application
  else
    skipStructIf protocol (reply.messageType ≠ tReply)
    skipStructIf protocol (reply.name ≠ method.name)
    let result ← method.readResult
    if result.isset then pure result.value
    else Decoder.fail (.missingResult method.unknownResult)

/-- The state after a call, and the reply if the processor writes one. -/
structure Processed (σ : Type) where
  state : σ
  reply : Option Written

abbrev Process (σ : Type) := Int32 → σ → Reader (Processed σ)

variable (writeException : TApplicationException → Bytes)

def exceptionReply (fname : Bytes) (seqid : Int32) (x : TApplicationException) : Written :=
  writeMessageBegin protocol fname tException seqid ++ .ok (writeException x)

/-- `process_X` of the processor from the handler on. -/
def Method.handled (method : Method args result) (handler : Handler σ args result)
    (seqid : Int32) (state : σ) (request : args) : Processed σ :=
  match handler state request with
  | (state, .ok value) =>
      { state := state
        reply := some (writeMessageBegin protocol method.name tReply seqid ++
          .ok (method.writeResult { value := value, isset := true })) }
  | (state, .error (.stdException what)) =>
      { state := state
        reply := some (exceptionReply protocol writeException method.name seqid
          { type := .unknown, message := what }) }
  | (state, .error .other) => { state := state, reply := none }

def Method.process (method : Method args result) (handler : Handler σ args result) :
    Process σ := fun seqid state => do
  let request ← method.readArgs
  pure (method.handled protocol writeException handler seqid state request)

def dispatchCall (processMap : List (Bytes × Process σ)) (fname : Bytes) (seqid : Int32)
    (state : σ) : Reader (Processed σ) :=
  match processMap.lookup fname with
  | none => do
      skip protocol recursionLimit .struct
      let x : TApplicationException :=
        { type := .unknownMethod, message := invalidMethodName fname }
      pure
        { state := state, reply := some (exceptionReply protocol writeException fname seqid x) }
  | some process => process seqid state

def processMessage (processMap : List (Bytes × Process σ)) (state : σ) :
    Reader (Processed σ) := do
  let call ← readMessageBegin protocol
  if call.messageType ≠ tCall ∧ call.messageType ≠ tOneway then
    pure { state := state, reply := none }
  else dispatchCall protocol writeException processMap call.name call.seqid state

/-- What leaves the server after a call. A reply that cannot be written is not sent. -/
def Processed.sent (processed : Processed σ) : σ × Option Bytes :=
  match processed.reply with
  | some (.ok reply) => (processed.state, some reply)
  | _ => (processed.state, none)

/-- What one call of `process` on these bytes does: the state and the reply that it writes. An
exception of a read comes before the handler. -/
def serveMessage (processMap : List (Bytes × Process σ)) (state : σ) (input : Bytes) :
    σ × Option Bytes :=
  match processMessage protocol writeException processMap state input with
  | .ok (processed, _) => processed.sent
  | .error _ => (state, none)

def registProcessor (registClientHandler : Handler σ NodeInfo Int32)
    (heartbeatHandler : Handler σ NodeInfo Bool) : List (Bytes × Process σ) :=
  [(heartbeatName, (heartbeat protocol).process protocol writeException heartbeatHandler),
    (registClientName,
      (registClient protocol).process protocol writeException registClientHandler)]

def requestProcessor (clusterWorkHandler : Handler σ Bytes Bool) : List (Bytes × Process σ) :=
  [(clusterWorkName, (clusterWork protocol).process protocol writeException clusterWorkHandler)]

/-- A call of a client over a transport that delivers both messages. `unanswered` is how the
wait for a reply that the server does not write ends, when it does. -/
def Method.call (unanswered : TException) (method : Method args result)
    (processMap : List (Bytes × Process σ)) (state : σ) (request : args) :
    σ × Except TException result :=
  match method.send protocol request with
  | .error error => (state, .error error)
  | .ok message =>
      match serveMessage protocol writeException processMap state message with
      | (state, some reply) => (state, (method.recv protocol reply).map Prod.fst)
      | (state, none) => (state, .error unanswered)

end Protocol

end DcCluster.Rpc
