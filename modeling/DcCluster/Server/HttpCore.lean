import DcCluster.Node.Dp
import DcCluster.Server.RegistryCore
import DcCluster.XLogger.EnsureLog

/-!
Executable model of one HTTP request: from `HttpCallback` through the thread pool
to `WorkService` and `CollectWorkProc`, with the Thrift call to the picked node.
What happens to the request's `http_task_t` is recorded as a list of events. How
the calls into libevent, rapidjson, Thrift and CMS end is an input.
-/

namespace DcCluster.Server

open DcCluster.Lib DcCluster.Mq DcCluster.Node

inductive DcHttpReply
  | noErr
  | urlErr
  | bodyErr
  | noNode
  | nodeErr
  deriving DecidableEq, Repr

inductive TaskEvent
  | access
  | reply (strMsg : String) (msgType : DcHttpReply)
  | delete
  deriving DecidableEq, Repr

def sendReply (strMsg : String) (msgType : DcHttpReply) : List TaskEvent :=
  [.reply strMsg msgType, .delete]

/-- A parsed document. Nothing reads the value of a number. -/
inductive Json
  | null
  | bool (value : Bool)
  | number
  | string (text : Text)
  | array (elements : List Json)
  | object (members : List (Text × Json))

/-- The part of rapidjson that is used. `parse` fails where `HasParseError` holds, and
`asserts` tells whether `RAPIDJSON_ASSERT` was compiled in. Without it, `misread` is the
pointer found in a value that is no string, or in what an index into a value that is no
object returns. -/
structure Rapidjson where
  parse : Text → Option Json
  asserts : Bool
  misread : Json → Option Text

inductive Fetched
  | aborted
  | pointer (szIndexCode : Option Text)
  deriving DecidableEq, Repr

def Rapidjson.violated (json : Rapidjson) (pointer : Option Text) : Fetched :=
  if json.asserts then .aborted else .pointer pointer

def indexCode : Text := ['i', 'n', 'd', 'e', 'x', 'C', 'o', 'd', 'e']

/-- `document["indexCode"].GetString()`. The index returns a null value for a
missing member, and the pointer in a null value is `NULL`. -/
def Rapidjson.fetchIndexCode (json : Rapidjson) : Json → Fetched
  | .object members =>
      match lookup Prod.fst Prod.snd members indexCode with
      | some (.string text) => .pointer (some text)
      | some value => json.violated (json.misread value)
      | none => json.violated none
  | value => json.violated (json.misread value)

inductive Command
  | get
  | post
  | head
  | put
  | delete
  | options
  | trace
  | connect
  | patch
  deriving DecidableEq, Repr

/-- `host` is what `evhttp_request_get_host` finds. A text has one character for each byte. -/
structure HttpRequest where
  command : Command
  host : Option Text
  uri : Text
  body : Text
  deriving DecidableEq, Repr

def dcService : Text :=
  ['/', 'D', 'c', 'C', 'l', 'u', 's', 't', 'e', 'r', '/', 'a', 'p', 'i', '/', 'v', '1', '.', '0',
    '/', 'S', 'e', 'r', 'v', 'i', 'c', 'e']

/-- How far the `try` block of `ClusterWorkProc` gets. Thrift delivers what the
handler returns or throws. -/
inductive Rpc
  | openThrows
  | requestLost
  | replyLost
  | closeThrows
  | completes
  deriving DecidableEq, Repr

/-- What code outside of the server decides while one request is handled: `ret` is the
result of `evbuffer_remove`, `mq` the outcome of the calls into CMS on the node, `during`
what other threads do to the registry while the call is under way. -/
structure Surroundings where
  json : Rapidjson
  ret : Int
  rpc : Rpc
  mq : Env
  during : List Op

structure World where
  registry : Registry
  nodes : NodeKey → Dp

structure Collected where
  events : List TaskEvent
  world : World
  chain : Option (NodeKey × Option Int)

def World.leaves (world : World) (events : List TaskEvent) : Collected :=
  { events := events, world := world, chain := none }

def Collected.after (earlier : List TaskEvent) (collected : Collected) : Collected :=
  { collected with events := earlier ++ collected.events }

def bytesOf (text : Text) : Bytes := text.map fun char => UInt8.ofNat char.toNat

/-- What `%s` prints; a `NULL` is printed as the C library of the makefile does. -/
def printedString : Option Text → Bytes
  | some text => bytesOf (cString text)
  | none => bytesOf ['(', 'n', 'u', 'l', 'l', ')']

def stringDirective : Directive (Option Text) :=
  { arity := 1, render := fun args => args.head?.map printedString }

def literal (text : String) : Directive (Option Text) := .literal (bytesOf text.toList)

def acceptFormat : List (Directive (Option Text)) :=
  [literal "accept request host:", stringDirective, literal ", url:", stringDirective,
    literal " ,body:", stringDirective]

def parseErrorFormat : List (Directive (Option Text)) :=
  [literal "parse URL  Body err,info = ", stringDirective]

/-- A log call that comes back, with memory for its buffers. The arguments are consumed by
the first of the two rounds. -/
def logReturns (format : List (Directive (Option Text))) (args : List (Option Text)) : Bool :=
  (XLogger.ensureLogComplete (fun _ => true) 2 (some format) args).isSome

/-- A log call and what follows it. A call that reads past its arguments is undefined, and
ends the handling here. -/
def World.logs (world : World) (format : List (Directive (Option Text)))
    (args : List (Option Text)) (rest : Collected) : Collected :=
  if logReturns format args then rest else world.leaves []

/-- `ClusterWorkProc`: the run of the handler, if it was reached, and `bsuccess`. An
exception of the handler comes back as an exception of the call. -/
def clusterWorkProc (rpc : Rpc) (mq : Env) (dp : Dp) (msg : Text) : Option Served × Bool :=
  match rpc with
  | .openThrows => (none, false)
  | .requestLost => (none, false)
  | .replyLost => (some (clusterWork dp mq msg), false)
  | .closeThrows => (some (clusterWork dp mq msg), false)
  | .completes => (some (clusterWork dp mq msg), (clusterWork dp mq msg).returned.getD false)

def dispatchTo (surroundings : Surroundings) (world : World) (node : DcNode) (msg : Text) :
    Collected :=
  let (served, bsuccess) :=
    clusterWorkProc surroundings.rpc surroundings.mq (world.nodes node.key) msg
  let nodes := match served with
    | some served => Function.update world.nodes node.key served.dp
    | none => world.nodes
  let chain := served.map fun served => (node.key, served.sendMessage)
  let registry := performAll world.registry surroundings.during
  if bsuccess then
    { events := sendReply "200 OK" .noErr
      world := { registry := registry, nodes := nodes }
      chain := chain }
  else
    { events := sendReply "DCNODE ERROR" .nodeErr
      world := { registry := failureRemoval registry node, nodes := nodes }
      chain := chain }

/-- `CollectWorkProc` from the pick on. An index out of range or a `std::string` made
from `NULL` ends it without a reply of its own. -/
def scheduleWork (surroundings : Surroundings) (world : World) (szIndexCode : Option Text) :
    Collected :=
  let picking : World := { world with registry := (pick world.registry).1 }
  match (pick world.registry).2, szIndexCode with
  | .noNode, _ => picking.leaves (sendReply "NO AVAILABLE Node" .noNode)
  | .outOfRange, _ => picking.leaves []
  | .node _, none => picking.leaves []
  | .node node, some text => dispatchTo surroundings picking node (cString text)

def processBody (surroundings : Surroundings) (world : World) (reqBuf : Text) : Collected :=
  match surroundings.json.parse (cString reqBuf) with
  | none =>
      world.logs parseErrorFormat [some reqBuf]
        (world.leaves (sendReply "Body Data Error" .bodyErr))
  | some document =>
      match surroundings.json.fetchIndexCode document with
      | .aborted => world.leaves []
      | .pointer none =>
          -- this reply is not followed by a return
          (scheduleWork surroundings world none).after (sendReply "Body Data Error" .bodyErr)
      | .pointer (some text) => scheduleWork surroundings world (some text)

def allocatable (reqLen : Int) : Bool := 0 ≤ reqLen && reqLen.toNat < intMax

def collectWorkProc (surroundings : Surroundings) (world : World) (request : HttpRequest) :
    Collected :=
  let reqLen := toInt request.body.length
  if allocatable reqLen = false then world.leaves [.access]
  else if surroundings.ret ≠ reqLen then
    world.leaves (.access :: sendReply "Body Data Recv Error" .bodyErr)
  else
    let reqBuf := request.body.take reqLen.toNat
    (world.logs acceptFormat [request.host, some request.uri, some reqBuf]
      (processBody surroundings world reqBuf)).after [.access, .access, .access]

def workService (surroundings : Surroundings) (world : World) (request : HttpRequest) :
    Collected :=
  if request.command ≠ .post then
    world.leaves ([.access, .access, .access] ++
      sendReply "Just Support The POST Request" .urlErr)
  else if request.uri = dcService then
    (collectWorkProc surroundings world request).after [.access, .access, .access]
  else
    world.leaves ([.access, .access, .access] ++ sendReply "Not Support The Url Request" .urlErr)

/-- What `swartz_threadpool_work` answers, and whether a worker passes the task to
`S_WorkService`. A task can be in the queue although it was refused, and an accepted
one can stay there; no task is passed on twice. -/
inductive PoolOutcome
  | accepted (runs : Bool)
  | refused (runs : Bool)
  deriving DecidableEq, Repr

def PoolOutcome.runs : PoolOutcome → Bool
  | .accepted runs => runs
  | .refused runs => runs

/-- `HttpCallback` and the worker that takes the task. A refusal is only logged. -/
def httpCallback (surroundings : Surroundings) (outcome : PoolOutcome) (world : World)
    (request : HttpRequest) : Collected :=
  if outcome.runs then
    -- two members are written, and `S_WorkService` reads one
    (workService surroundings world request).after [.access, .access, .access]
  else
    world.leaves [.access, .access]

end DcCluster.Server
