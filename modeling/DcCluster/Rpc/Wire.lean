import DcCluster.Node.HeartBeatCore
import DcCluster.Rpc.Calls
import DcCluster.Server.HttpCore

/-!
The registration server and the node's handler behind their Thrift processors. A call
over the wire is the operation that the rest of the model takes for it, and what a
processor makes of a message does not depend on who sent it.
-/

namespace DcCluster.Rpc

open DcCluster.Lib DcCluster.Server DcCluster.Mq

/-- The bytes of a `std::string`, one character for each. -/
def textOf (bytes : Bytes) : Text := bytes.map fun byte => Char.ofNat byte.toNat

def NodeInfo.clientInfo (info : NodeInfo) : ClientInfo :=
  { Ip := String.ofList (textOf info.Ip), Port := info.Port.toInt }

def NodeInfo.heartBeatInfo (info : NodeInfo) : HeartBeatInfo :=
  { Ip := String.ofList (textOf info.Ip), Port := info.Port.toInt }

def resultCode : RegistResult → Int32
  | .success => 0
  | .invaliePara => 1
  | .undefineErr => 2

/-- `RegistHandler::registClient` at the time `clock`. -/
def registClientHandler (clock : Int) : Handler Registry NodeInfo Int32 := fun registry info =>
  ((registerWork registry info.clientInfo clock).1,
    .ok (resultCode (registerWork registry info.clientInfo clock).2))

def heartbeatHandler (clock : Int) : Handler Registry NodeInfo Bool := fun registry info =>
  ((heartBeatWork registry info.heartBeatInfo clock).1,
    .ok (heartBeatWork registry info.heartBeatInfo clock).2)

/-- `RequestHandler::ClusterWork`. `thrown` is the exception of a run that has no result. -/
def clusterWorkHandler (env : Env) (thrown : Thrown) : Handler Node.Dp Bytes Bool :=
  fun dp msg =>
    ((Node.clusterWork dp env (textOf msg)).dp,
      match (Node.clusterWork dp env (textOf msg)).returned with
      | some returned => .ok returned
      | none => .error thrown)

def runsCall : Server.Rpc → Bool
  | .openThrows | .requestLost => false
  | .replyLost | .closeThrows | .completes => true

def assigns : Server.Rpc → Bool
  | .openThrows | .requestLost | .replyLost => false
  | .closeThrows | .completes => true

section Protocol

variable (protocol : TBinaryProtocol) (writeException : TApplicationException → Bytes)

def registServer (clock : Int) : List (Bytes × Process Registry) :=
  registProcessor protocol writeException (registClientHandler clock) (heartbeatHandler clock)

def requestServer (env : Env) (thrown : Thrown) : List (Bytes × Process Node.Dp) :=
  requestProcessor protocol writeException (clusterWorkHandler env thrown)

/-- The `try` blocks of `NodeServer`: what the call leaves on the server and returns to the
node. A throw of `close` comes after the assignment. -/
def nodeCall {result : Type} (rpc : Server.Rpc) (registry : Registry)
    (called : Registry × Except TException result) (success : result → Bool) :
    Registry × Bool :=
  (if runsCall rpc then called.1 else registry,
    if assigns rpc then
      match called.2 with
      | .ok value => success value
      | .error _ => false
    else false)

variable (unanswered : TException)

def registerClient (rpc : Server.Rpc) (clock : Int) (registry : Registry) (info : NodeInfo) :
    Registry × Bool :=
  nodeCall rpc registry ((registClient protocol).call protocol writeException unanswered
    (registServer protocol writeException clock) registry info) fun resType => resType == 0

def heartBeat (rpc : Server.Rpc) (clock : Int) (registry : Registry) (hbinfo : NodeInfo) :
    Registry × Bool :=
  nodeCall rpc registry ((heartbeat protocol).call protocol writeException unanswered
    (registServer protocol writeException clock) registry hbinfo) fun bsuccess => bsuccess

def nodeCallOf (kind : HeartBeat.RpcKind) (rpc : Server.Rpc) (clock : Int) (registry : Registry)
    (info : NodeInfo) : Registry × Bool :=
  match kind with
  | .registClient => registerClient protocol writeException unanswered rpc clock registry info
  | .heartbeat => heartBeat protocol writeException unanswered rpc clock registry info

/-- `DcServer::ClusterWorkProc`, which turns every throw into `false`. -/
def clusterWorkProc (rpc : Server.Rpc) (env : Env) (thrown : Thrown) (dp : Node.Dp)
    (msg : Bytes) : Node.Dp × Bool :=
  let called := (clusterWork protocol).call protocol writeException unanswered
    (requestServer protocol writeException env thrown) dp msg
  (if runsCall rpc then called.1 else dp,
    match rpc, called.2 with
    | .completes, .ok bsuccess => bsuccess
    | _, _ => false)

/-- What happens at the registration server: `process` is called at some time with the bytes
of some connection, or one of its own threads works on the registry. A server that goes on
in a frame hands over what the calls before have left of it. -/
inductive ServerEvent
  | process (clock : Int) (input : Bytes)
  | operation (op : Op)

def serveEvent (registry : Registry) : ServerEvent → Registry
  | .process clock input =>
      (serveMessage protocol writeException (registServer protocol writeException clock) registry
        input).1
  | .operation op => (perform registry op).1

def requestOf (kind : HeartBeat.RpcKind) (info : NodeInfo) : Written :=
  match kind with
  | .registClient => (registClient protocol).send protocol info
  | .heartbeat => (heartbeat protocol).send protocol info

def opOf (kind : HeartBeat.RpcKind) (clock : Int) (info : NodeInfo) : Op :=
  match kind with
  | .registClient => .registerWork info.clientInfo clock
  | .heartbeat => .heartBeatWork info.heartBeatInfo clock

/-- The operation that the message at the front of these bytes asks for. -/
def askedOp (clock : Int) (input : Bytes) : Option Op :=
  match readMessageBegin protocol input with
  | .error _ => none
  | .ok (call, rest) =>
      if call.messageType ≠ tCall ∧ call.messageType ≠ tOneway then none
      else if call.name = heartbeatName then
        match (heartbeat protocol).readArgs rest with
        | .ok (hbinfo, _) => some (.heartBeatWork hbinfo.heartBeatInfo clock)
        | .error _ => none
      else if call.name = registClientName then
        match (registClient protocol).readArgs rest with
        | .ok (info, _) => some (.registerWork info.clientInfo clock)
        | .error _ => none
      else none

def ServerEvent.op : ServerEvent → Option Op
  | .process clock input => askedOp protocol clock input
  | .operation op => some op

end Protocol

section Address

theorem charOf_injective {first second : UInt8}
    (same : Char.ofNat first.toNat = Char.ofNat second.toNat) : first = second := by
  have numbers := congrArg Char.toNat same
  have small : ∀ byte : UInt8, (Char.ofNat byte.toNat).toNat = byte.toNat := by
    intro byte
    have bound := byte.toNat_lt
    have valid : byte.toNat.isValidChar := Or.inl (by omega)
    unfold Char.ofNat
    rw [dif_pos valid]
    rfl
  rw [small, small] at numbers
  exact UInt8.toNat_inj.mp numbers

theorem textOf_injective : Function.Injective textOf :=
  List.map_injective_iff.mpr fun _ _ same => charOf_injective same

/-- Addresses that differ on the wire differ in the registry. -/
theorem NodeInfo.key_eq_iff (first second : NodeInfo) :
    first.clientInfo.key = second.clientInfo.key ↔
      first.Ip = second.Ip ∧ first.Port = second.Port := by
  simp only [NodeInfo.clientInfo, ClientInfo.key, Prod.mk.injEq, String.ofList_inj,
    textOf_injective.eq_iff, Int32.toInt_inj]

end Address

section Calls

variable {protocol : TBinaryProtocol} {writeException : TApplicationException → Bytes}

theorem names_differ : registClientName ≠ heartbeatName := by
  decide

theorem lookup_heartbeat (clock : Int) :
    (registServer protocol writeException clock).lookup heartbeatName =
      some ((heartbeat protocol).process protocol writeException (heartbeatHandler clock)) := by
  simp [registServer, registProcessor]

theorem lookup_registClient (clock : Int) :
    (registServer protocol writeException clock).lookup registClientName =
      some ((registClient protocol).process protocol writeException
        (registClientHandler clock)) := by
  simp [registServer, registProcessor, List.lookup_cons, beq_false_of_ne names_differ]

theorem lookup_other (clock : Int) {name : Bytes} (first : name ≠ heartbeatName)
    (second : name ≠ registClientName) :
    (registServer protocol writeException clock).lookup name = none := by
  simp [registServer, registProcessor, List.lookup_cons, beq_false_of_ne first,
    beq_false_of_ne second]

theorem lookup_clusterWork (env : Env) (thrown : Thrown) :
    (requestServer protocol writeException env thrown).lookup clusterWorkName =
      some ((clusterWork protocol).process protocol writeException
        (clusterWorkHandler env thrown)) := by
  simp [requestServer, requestProcessor]

theorem registerClient_eq (plain : protocol.Plain) (unanswered : TException) (rpc : Server.Rpc) (clock : Int)
    (registry : Registry) (info : NodeInfo) :
    registerClient protocol writeException unanswered rpc clock registry info =
      if info.Writable then
        (if runsCall rpc then (registerWork registry info.clientInfo clock).1 else registry,
          assigns rpc)
      else (registry, false) := by
  unfold registerClient
  rw [(registClient_sound plain).call_eq plain (lookup_registClient clock)]
  by_cases writable : info.Writable
  · have success := registerWork_result registry info.received.clientInfo clock
    rw [if_pos writable, if_pos writable]
    unfold nodeCall registClientHandler
    rw [success]
    cases rpc <;> rfl
  · rw [if_neg writable, if_neg writable]
    cases rpc <;> rfl

theorem heartBeat_eq (plain : protocol.Plain) (unanswered : TException) (rpc : Server.Rpc) (clock : Int)
    (registry : Registry) (hbinfo : NodeInfo) :
    heartBeat protocol writeException unanswered rpc clock registry hbinfo =
      if hbinfo.Writable then
        (if runsCall rpc then (heartBeatWork registry hbinfo.heartBeatInfo clock).1
          else registry,
          assigns rpc && (heartBeatWork registry hbinfo.heartBeatInfo clock).2)
      else (registry, false) := by
  unfold heartBeat
  rw [(heartbeat_sound plain).call_eq plain (lookup_heartbeat clock)]
  by_cases writable : hbinfo.Writable
  · rw [if_pos writable, if_pos writable]
    cases rpc <;> rfl
  · rw [if_neg writable, if_neg writable]
    cases rpc <;> rfl

/-- Both calls of a node, over the wire, against the operations of the heartbeat loop: what
the server executes, and what the node gets back. -/
theorem nodeCallOf_serves (plain : protocol.Plain) (unanswered : TException)
    (rpc : Server.Rpc) (clock : Int) (registry : Registry) (loop : HeartBeat.NodeLoop) (info : NodeInfo)
    (address : loop.key = info.clientInfo.key) (kind : HeartBeat.RpcKind) :
    nodeCallOf protocol writeException unanswered kind rpc clock registry info =
      if info.Writable then
        (if runsCall rpc then (HeartBeat.serve registry loop kind clock).1 else registry,
          assigns rpc && (HeartBeat.serve registry loop kind clock).2)
      else (registry, false) := by
  have Ip : loop.NodeIp = info.clientInfo.Ip := congrArg Prod.fst address
  have Port : loop.NodePort = info.clientInfo.Port := congrArg Prod.snd address
  cases kind with
  | registClient =>
      have success := registerWork_result registry info.clientInfo clock
      simp only [nodeCallOf, registerClient_eq plain, HeartBeat.serve, Ip, Port, success,
        decide_true, Bool.and_true]
  | heartbeat =>
      simp only [nodeCallOf, heartBeat_eq plain, HeartBeat.serve, Ip, Port]
      rfl

def nodeOne : NodeInfo := { Ip := [49], Port := 6001 }

/-- A `TApplicationException` as the struct of its message and its type. -/
def exceptionStruct (x : TApplicationException) : Bytes :=
  encodeFields [(1, .string x.message), (2, .i32 (if x.type = .unknown then 0 else 1))]

theorem nodeCallOf_serves_replyLost :
    nodeCallOf {} exceptionStruct .endOfFile .registClient .replyLost 50 Registry.empty nodeOne =
      ({ nodeVec := [⟨"1", 6001, 50⟩], pickNum := 0 }, false) :=
  (nodeCallOf_serves plain_default .endOfFile .replyLost 50 Registry.empty
    (HeartBeat.NodeLoop.constructed "1" 6001) nodeOne (by decide) .registClient).trans (by decide)

/-- `ClusterWorkProc` over the wire is the call that the model of a request makes. -/
theorem clusterWorkProc_eq (plain : protocol.Plain) (unanswered : TException)
    (rpc : Server.Rpc) (env : Env) (thrown : Thrown) (dp : Node.Dp) (msg : Bytes) :
    clusterWorkProc protocol writeException unanswered rpc env thrown dp msg =
      let (served, bsuccess) := Server.clusterWorkProc
        (if msg.length ≤ int32Max then rpc else .requestLost) env dp (textOf msg)
      ((served.map Node.Served.dp).getD dp, bsuccess) := by
  unfold clusterWorkProc
  rw [(clusterWork_sound plain).call_eq plain (lookup_clusterWork env thrown)]
  unfold clusterWorkHandler Server.clusterWorkProc
  split
  next =>
    cases returned : (Node.clusterWork dp env (textOf msg)).returned with
    | none =>
        cases thrown with
        | stdException what => cases rpc <;> simp [runsCall, outcome, returned]
        | other => cases rpc <;> simp [runsCall, outcome, returned]
    | some value => cases rpc <;> simp [runsCall, outcome, returned]
  next => cases rpc <;> rfl

def nodeUp : Node.Dp := (Node.Dp.init MqMgr.allSucceeds ['h'] 61616 ['q']).1

theorem clusterWorkProc_eq_completes :
    (clusterWorkProc {} exceptionStruct .endOfFile .completes MqMgr.allSucceeds .other nodeUp
      [97]).2 = true :=
  (congrArg Prod.snd
    (clusterWorkProc_eq plain_default .endOfFile .completes MqMgr.allSucceeds .other nodeUp
      [97])).trans
    (by decide)

end Calls

section Inputs

variable {protocol : TBinaryProtocol} {writeException : TApplicationException → Bytes}

theorem sent_state {σ : Type} (processed : Processed σ) : processed.sent.1 = processed.state := by
  unfold Processed.sent
  split
  next => rfl
  next => rfl

theorem handled_state {args result σ : Type} (method : Method args result)
    (handler : Handler σ args result) (seqid : Int32) (state : σ) (request : args) :
    (method.handled protocol writeException handler seqid state request).state =
      (handler state request).1 := by
  unfold Method.handled
  obtain ⟨next, ended⟩ := handler state request
  cases ended with
  | ok value => rfl
  | error thrown =>
      cases thrown with
      | stdException what => rfl
      | other => rfl

theorem serveMessage_registry (clock : Int) (registry : Registry) (input : Bytes) :
    (serveMessage protocol writeException (registServer protocol writeException clock) registry
      input).1 =
      match askedOp protocol clock input with
      | some op => (perform registry op).1
      | none => registry := by
  unfold serveMessage processMessage askedOp
  rw [Decoder.bind_run]
  cases begun : readMessageBegin protocol input with
  | error error => rfl
  | ok read =>
      obtain ⟨call, rest⟩ := read
      dsimp only
      by_cases invalid : call.messageType ≠ tCall ∧ call.messageType ≠ tOneway
      · rw [if_pos invalid, if_pos invalid]
        rfl
      · rw [if_neg invalid, if_neg invalid]
        unfold dispatchCall
        by_cases beats : call.name = heartbeatName
        · rw [if_pos beats, beats, lookup_heartbeat]
          unfold Method.process
          dsimp only
          rw [Decoder.bind_run]
          cases args : (heartbeat protocol).readArgs rest with
          | error error => rfl
          | ok request =>
              dsimp only [Decoder.pure_run]
              rw [sent_state, handled_state]
              rfl
        · rw [if_neg beats]
          by_cases registers : call.name = registClientName
          · rw [if_pos registers, registers, lookup_registClient]
            unfold Method.process
            dsimp only
            rw [Decoder.bind_run]
            cases args : (registClient protocol).readArgs rest with
            | error error => rfl
            | ok request =>
                dsimp only [Decoder.pure_run]
                rw [sent_state, handled_state]
                rfl
          · rw [if_neg registers, lookup_other clock beats registers]
            dsimp only
            rw [Decoder.bind_run]
            cases skip protocol recursionLimit .struct rest with
            | error error => rfl
            | ok skipped =>
                dsimp only [Decoder.pure_run]
                rw [sent_state]

theorem serveEvent_eq (registry : Registry) (event : ServerEvent) :
    serveEvent protocol writeException registry event =
      performAll registry (event.op protocol).toList := by
  cases event with
  | operation op => rfl
  | process clock input =>
      dsimp only [serveEvent, ServerEvent.op]
      rw [serveMessage_registry]
      cases askedOp protocol clock input with
      | none => rfl
      | some op => rfl

/-- Whatever bytes `process` is called with, the server is the registry that performs, in
their order, the operations of its own threads and those that well-formed calls ask for. -/
theorem serveEvents_eq (registry : Registry) (events : List ServerEvent) :
    events.foldl (serveEvent protocol writeException) registry =
      performAll registry (events.filterMap fun event => event.op protocol) := by
  induction events generalizing registry with
  | nil => rfl
  | cons event events ih =>
      rw [List.foldl_cons, ih, serveEvent_eq]
      cases asked : event.op protocol with
      | none =>
          rw [List.filterMap_cons_none asked]
          rfl
      | some op =>
          rw [List.filterMap_cons_some asked]
          rfl

theorem server_refines_registry (events : List ServerEvent) :
    let registry := events.foldl (serveEvent protocol writeException) Registry.empty
    let ops := events.filterMap fun event => event.op protocol
    registry = performAll Registry.empty ops ∧ registry.keys.Nodup ∧
      registry.table = ops.foldl NodeMap.apply NodeMap.empty := by
  intro registry ops
  have same : registry = performAll Registry.empty ops := serveEvents_eq Registry.empty events
  refine ⟨same, ?_, ?_⟩
  · rw [same]
    exact (performAll_valid Registry.empty_valid ops).distinct
  · rw [same]
    exact performAll_table Registry.empty_valid ops

theorem framed_registServer (clock : Int) :
    ∀ entry ∈ registServer protocol writeException clock, ∀ seqid registry,
      Framed (entry.2 seqid registry) := by
  intro entry member seqid registry
  simp only [registServer, registProcessor, List.mem_cons, List.not_mem_nil, or_false] at member
  rcases member with rfl | rfl
  · exact framed_process (framed_args (fun depth old => framed_readNodeInfo depth old) _) seqid
      registry
  · exact framed_process (framed_args (fun depth old => framed_readNodeInfo depth old) _) seqid
      registry

theorem call_valid : ¬ (tCall ≠ tCall ∧ tCall ≠ tOneway) := by
  decide

theorem registClient_name : (registClient protocol).name = registClientName := rfl

theorem heartbeat_name : (heartbeat protocol).name = heartbeatName := rfl

theorem request_sent (plain : protocol.Plain) {kind : HeartBeat.RpcKind} {info : NodeInfo}
    {message : Bytes} (sent : requestOf protocol kind info = .ok message) (clock : Int) :
    (∀ rest, askedOp protocol clock (message ++ rest) = some (opOf kind clock info)) ∧
      ∀ registry, ∃ processed, Decodes (processMessage protocol writeException
        (registServer protocol writeException clock) registry) message processed := by
  have writable : info.Writable := by
    by_contra long
    cases kind with
    | registClient =>
        rw [requestOf, (registClient_sound plain).send_error long] at sent
        cases sent
    | heartbeat =>
        rw [requestOf, (heartbeat_sound plain).send_error long] at sent
        cases sent
  cases kind with
  | registClient =>
      obtain ⟨bytes, written, reads⟩ := (registClient_sound plain).send_eq protocol writable
      rw [requestOf, written] at sent
      cases sent
      have begins := readMessageBegin_decodes plain (registClient_sound plain).named tCall
        (by decide) 0
      constructor
      · intro rest
        unfold askedOp
        rw [List.append_assoc, begins]
        dsimp only
        rw [if_neg call_valid, registClient_name, if_neg names_differ, if_pos rfl, reads rest]
        rfl
      · intro registry
        exact ⟨_, processMessage_call plain (registClient_sound plain).named
          (lookup_registClient clock) (.inl rfl) 0 reads registry⟩
  | heartbeat =>
      obtain ⟨bytes, written, reads⟩ := (heartbeat_sound plain).send_eq protocol writable
      rw [requestOf, written] at sent
      cases sent
      have begins := readMessageBegin_decodes plain (heartbeat_sound plain).named tCall
        (by decide) 0
      constructor
      · intro rest
        unfold askedOp
        rw [List.append_assoc, begins]
        dsimp only
        rw [if_neg call_valid, heartbeat_name, if_pos rfl, reads rest]
        rfl
      · intro registry
        exact ⟨_, processMessage_call plain (heartbeat_sound plain).named
          (lookup_heartbeat clock) (.inl rfl) 0 reads registry⟩

/-- A request works whole, leaving the bytes behind it to be read next, or not at all. -/
theorem request_whole_or_nothing (plain : protocol.Plain) {kind : HeartBeat.RpcKind}
    {info : NodeInfo} {message : Bytes} (sent : requestOf protocol kind info = .ok message)
    (clock : Int) (registry : Registry) :
    let process := processMessage protocol writeException
      (registServer protocol writeException clock) registry
    let serve := serveMessage protocol writeException (registServer protocol writeException clock)
      registry
    (∀ rest, ∃ processed, process (message ++ rest) = .ok (processed, rest) ∧
        serve (message ++ rest) = processed.sent ∧
        processed.state = (perform registry (opOf kind clock info)).1) ∧
      ∀ kept lost, message = kept ++ lost → lost ≠ [] →
        process kept = .error .endOfFile ∧ serve kept = (registry, none) := by
  intro process serve
  obtain ⟨asked, reads⟩ := @request_sent protocol writeException plain kind info message sent clock
  obtain ⟨processed, decodes⟩ := reads registry
  constructor
  · intro rest
    have served := serveMessage_of_decodes decodes rest
    refine ⟨processed, decodes rest, served, ?_⟩
    rw [← sent_state processed, ← served, serveMessage_registry, asked rest]
  · intro kept lost split cut
    rw [split] at decodes
    exact processMessage_cut (framed_registServer clock) decodes cut

def oneRequest : Bytes := ((requestOf {} .registClient nodeOne).toOption).getD []

theorem oneRequest_sent : requestOf {} .registClient nodeOne = .ok oneRequest := rfl

theorem request_whole_or_nothing_one :
    (∃ processed, processMessage {} exceptionStruct (registServer {} exceptionStruct 50)
        Registry.empty (oneRequest ++ [7]) = .ok (processed, [7]) ∧
      processed.state = { nodeVec := [⟨"1", 6001, 50⟩], pickNum := 0 }) ∧
      serveMessage {} exceptionStruct (registServer {} exceptionStruct 50) Registry.empty
        (oneRequest.take 20) = (Registry.empty, none) := by
  obtain ⟨whole, cut⟩ := @request_whole_or_nothing {} exceptionStruct plain_default .registClient
    nodeOne oneRequest oneRequest_sent 50 Registry.empty
  obtain ⟨processed, leaves, _, performed⟩ := whole [7]
  exact ⟨⟨processed, leaves, performed.trans (by decide)⟩,
    (cut _ (oneRequest.drop 20) (List.take_append_drop 20 oneRequest).symm (by decide)).2⟩

/-- A call to an unknown method is answered as well, with its own name. -/
theorem replies_echo_calls (plain : protocol.Plain) :
    (∀ clock registry next input reply,
      serveMessage protocol writeException (registServer protocol writeException clock) registry
        input = (next, some reply) → Echoes protocol input reply) ∧
      ∀ env thrown dp next input reply,
        serveMessage protocol writeException (requestServer protocol writeException env thrown) dp
          input = (next, some reply) → Echoes protocol input reply := by
  constructor
  · intro clock registry next input reply served
    refine reply_echoes plain ?_ served
    intro entry member
    simp only [registServer, registProcessor, List.mem_cons, List.not_mem_nil, or_false]
      at member
    rcases member with rfl | rfl
    · exact process_answersAs (heartbeat_sound plain).named
    · exact process_answersAs (registClient_sound plain).named
  · intro env thrown dp next input reply served
    refine reply_echoes plain ?_ served
    intro entry member
    simp only [requestServer, requestProcessor, List.mem_singleton] at member
    subst member
    exact process_answersAs (clusterWork_sound plain).named

def oneReply : Bytes :=
  messageBegin {} registClientName tReply 0 ++
    writeRegistClientResult { value := 0, isset := true }

theorem replies_echo_calls_one : Echoes {} oneRequest oneReply :=
  (@replies_echo_calls {} exceptionStruct plain_default).1 50 Registry.empty _ oneRequest oneReply
    (by rfl)

end Inputs

end DcCluster.Rpc
