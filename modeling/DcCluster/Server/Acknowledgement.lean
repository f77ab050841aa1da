import DcCluster.Server.HttpCore

/-!
What a reply `DC_NO_ERR` says about the node. `RequestHandler::ClusterWork` drops
the result of `send_message`, so the reply only tells that the call came back; it
is backed by the broker exactly when the MQ layer of the node takes the message.
-/

namespace DcCluster.Server

open DcCluster.Lib DcCluster.Mq DcCluster.Node

/-- If the reply is `DC_NO_ERR`, then `send_message` returned 0 for this request on
the picked node, and a CMS producer took one more message there. -/
def Backed (world : World) (collected : Collected) : Prop :=
  (∃ strMsg, .reply strMsg .noErr ∈ collected.events) →
    ∃ node, (pick world.registry).2 = .node node ∧
      collected.chain = some (node.key, some swartzOk) ∧
      ∃ pPro strMsg, (collected.world.nodes node.key).mgr.sent =
        (world.nodes node.key).mgr.sent ++ [(pPro, strMsg)]

structure Dispatches (surroundings : Surroundings) (world : World) (request : HttpRequest)
    (node : DcNode) (text : Text) : Prop where
  fits : allocatable (toInt request.body.length) = true
  received : surroundings.ret = toInt request.body.length
  logged : logReturns acceptFormat [request.host, some request.uri,
    some (request.body.take (toInt request.body.length).toNat)] = true
  fetched : ∃ document,
    surroundings.json.parse (cString (request.body.take (toInt request.body.length).toNat)) =
        some document ∧
      surroundings.json.fetchIndexCode document = .pointer (some text)
  picked : (pick world.registry).2 = .node node

/-- The request gets to a node whose handler runs to its end and whose answer comes
back. -/
structure Acknowledges (surroundings : Surroundings) (world : World) (request : HttpRequest)
    (node : DcNode) : Prop where
  dispatches : ∃ text, Dispatches surroundings world request node text
  completes : surroundings.rpc = .completes
  returns : (world.nodes node.key).mgr.throwsOn (world.nodes node.key).uri = false

theorem clusterWorkProc_succeeds_iff (rpc : Rpc) (mq : Env) (dp : Dp) (msg : Text) :
    (clusterWorkProc rpc mq dp msg).2 = true ↔
      rpc = .completes ∧ dp.mgr.throwsOn dp.uri = false := by
  cases rpc with
  | completes =>
      simp only [clusterWorkProc, clusterWork_returned, true_and]
      cases dp.mgr.throwsOn dp.uri <;> simp
  | openThrows => simp [clusterWorkProc]
  | requestLost => simp [clusterWorkProc]
  | replyLost => simp [clusterWorkProc]
  | closeThrows => simp [clusterWorkProc]

theorem dispatchTo_of_served {surroundings : Surroundings} {world : World} {node : DcNode}
    {msg : Text} {served : Served}
    (serves : (clusterWorkProc surroundings.rpc surroundings.mq (world.nodes node.key) msg).1 =
      some served) :
    (dispatchTo surroundings world node msg).chain = some (node.key, served.sendMessage) ∧
      (dispatchTo surroundings world node msg).world.nodes node.key = served.dp := by
  simp only [dispatchTo, serves]
  split <;> simp

theorem dispatchTo_of_success {surroundings : Surroundings} {world : World} {node : DcNode}
    {msg : Text} (completes : surroundings.rpc = .completes)
    (returns : (world.nodes node.key).mgr.throwsOn (world.nodes node.key).uri = false) :
    let served := clusterWork (world.nodes node.key) surroundings.mq msg
    (dispatchTo surroundings world node msg).events = sendReply "200 OK" .noErr ∧
      (dispatchTo surroundings world node msg).chain = some (node.key, served.sendMessage) ∧
      (dispatchTo surroundings world node msg).world.nodes node.key = served.dp := by
  have succeeds := (clusterWorkProc_succeeds_iff surroundings.rpc surroundings.mq
    (world.nodes node.key) msg).mpr ⟨completes, returns⟩
  refine ⟨by simp only [dispatchTo, succeeds, ↓reduceIte], dispatchTo_of_served ?_⟩
  simp only [clusterWorkProc, completes]

theorem dispatchTo_of_failure {surroundings : Surroundings} {world : World} {node : DcNode}
    {msg : Text}
    (fails : ¬ (surroundings.rpc = .completes ∧
      (world.nodes node.key).mgr.throwsOn (world.nodes node.key).uri = false)) :
    (dispatchTo surroundings world node msg).events = sendReply "DCNODE ERROR" .nodeErr := by
  rw [← clusterWorkProc_succeeds_iff surroundings.rpc surroundings.mq (world.nodes node.key) msg]
    at fails
  simp only [dispatchTo, fails, Bool.false_eq_true, ↓reduceIte]

section CollectWorkProc

variable {surroundings : Surroundings} {world : World} {request : HttpRequest}

theorem collectWorkProc_of_dispatches {node : DcNode} {text : Text}
    (dispatches : Dispatches surroundings world request node text) :
    collectWorkProc surroundings world request =
      (dispatchTo surroundings { world with registry := (pick world.registry).1 } node
        (cString text)).after [.access, .access, .access] := by
  obtain ⟨fits, received, logged, ⟨document, parsed, fetched⟩, picked⟩ := dispatches
  simp only [collectWorkProc, fits, received, Bool.true_eq_false, ne_eq, not_true_eq_false,
    ↓reduceIte, World.logs, logged, processBody, parsed, fetched, scheduleWork, picked]

theorem collectWorkProc_of_success {node : DcNode} {text : Text}
    (dispatches : Dispatches surroundings world request node text)
    (completes : surroundings.rpc = .completes)
    (returns : (world.nodes node.key).mgr.throwsOn (world.nodes node.key).uri = false) :
    let served := clusterWork (world.nodes node.key) surroundings.mq (cString text)
    (collectWorkProc surroundings world request).events =
        [.access, .access, .access] ++ sendReply "200 OK" .noErr ∧
      (collectWorkProc surroundings world request).chain =
        some (node.key, served.sendMessage) ∧
      (collectWorkProc surroundings world request).world.nodes node.key = served.dp := by
  obtain ⟨events, chain, nodes⟩ := @dispatchTo_of_success surroundings
    { world with registry := (pick world.registry).1 } node (cString text) completes returns
  rw [collectWorkProc_of_dispatches dispatches]
  exact ⟨by rw [Collected.after, events], chain, nodes⟩

theorem collectWorkProc_of_failure {node : DcNode} {text : Text}
    (dispatches : Dispatches surroundings world request node text)
    (fails : ¬ (surroundings.rpc = .completes ∧
      (world.nodes node.key).mgr.throwsOn (world.nodes node.key).uri = false)) :
    (collectWorkProc surroundings world request).events =
      [.access, .access, .access] ++ sendReply "DCNODE ERROR" .nodeErr := by
  have events := @dispatchTo_of_failure surroundings
    { world with registry := (pick world.registry).1 } node (cString text) fails
  rw [collectWorkProc_of_dispatches dispatches]
  rw [Collected.after, events]

/-- No message went to a node, and no reply says that one did. -/
structure Collected.Idle (collected : Collected) : Prop where
  chain : collected.chain = none
  reply : ∀ strMsg, .reply strMsg .noErr ∉ collected.events

theorem Collected.Idle.after {collected : Collected} (idle : collected.Idle)
    {earlier : List TaskEvent} (noReply : ∀ strMsg, .reply strMsg .noErr ∉ earlier) :
    (collected.after earlier).Idle := by
  refine ⟨idle.chain, fun strMsg member => ?_⟩
  rcases List.mem_append.mp member with before | later
  · exact noReply strMsg before
  · exact idle.reply strMsg later

theorem World.leaves_idle (world : World) {events : List TaskEvent}
    (noReply : ∀ strMsg, .reply strMsg .noErr ∉ events) : (world.leaves events).Idle :=
  ⟨rfl, noReply⟩

theorem World.logs_idle {world : World} {format : List (Directive (Option Text))}
    {args : List (Option Text)} {rest : Collected} (idle : rest.Idle) :
    (world.logs format args rest).Idle := by
  simp only [World.logs]
  split
  next => exact idle
  next => exact World.leaves_idle _ (by simp)

theorem scheduleWork_idle_or_picks (szIndexCode : Option Text) :
    (scheduleWork surroundings world szIndexCode).Idle ∨
      ∃ node text, szIndexCode = some text ∧ (pick world.registry).2 = .node node := by
  cases picked : (pick world.registry).2 with
  | noNode =>
      simp only [scheduleWork, picked]
      exact .inl (World.leaves_idle _ (by simp [sendReply]))
  | outOfRange =>
      simp only [scheduleWork, picked]
      exact .inl (World.leaves_idle _ (by simp))
  | node node =>
      cases szIndexCode with
      | none =>
          simp only [scheduleWork, picked]
          exact .inl (World.leaves_idle _ (by simp))
      | some text => exact .inr ⟨node, text, rfl, rfl⟩

theorem processBody_idle_or_picks (reqBuf : Text) :
    (processBody surroundings world reqBuf).Idle ∨
      ∃ document node text, surroundings.json.parse (cString reqBuf) = some document ∧
        surroundings.json.fetchIndexCode document = .pointer (some text) ∧
        (pick world.registry).2 = .node node := by
  simp only [processBody]
  split
  next => exact .inl (World.logs_idle (World.leaves_idle _ (by simp [sendReply])))
  next document parsed =>
    split
    next => exact .inl (World.leaves_idle _ (by simp))
    next fetched =>
      rcases @scheduleWork_idle_or_picks surroundings world none with idle | ⟨_, _, null, _⟩
      · exact .inl (idle.after (by simp [sendReply]))
      · cases null
    next text fetched =>
      rcases @scheduleWork_idle_or_picks surroundings world (some text) with
        idle | ⟨node, _, _, picked⟩
      · exact .inl idle
      · exact .inr ⟨document, node, text, parsed, fetched, picked⟩

theorem collectWorkProc_idle_or_dispatches :
    (collectWorkProc surroundings world request).Idle ∨
      ∃ node text, Dispatches surroundings world request node text := by
  simp only [collectWorkProc, World.logs]
  split
  next => exact .inl (World.leaves_idle _ (by simp))
  next fits =>
    split
    next => exact .inl (World.leaves_idle _ (by simp [sendReply]))
    next received =>
      simp only [Bool.not_eq_false, ne_eq, Decidable.not_not] at fits received
      split
      next logged =>
        rcases processBody_idle_or_picks (request.body.take (toInt request.body.length).toNat)
          with idle | ⟨document, node, text, parsed, fetched, picked⟩
        · exact .inl (idle.after (by simp))
        · exact .inr ⟨node, text, fits, received, logged, ⟨document, parsed, fetched⟩, picked⟩
      next => exact .inl ((World.leaves_idle _ (by simp)).after (by simp))

theorem noErr_iff_acknowledges :
    (∃ strMsg, .reply strMsg .noErr ∈ (collectWorkProc surroundings world request).events) ↔
      ∃ node, Acknowledges surroundings world request node := by
  constructor
  · rintro ⟨strMsg, replied⟩
    obtain ⟨node, text, dispatches⟩ := collectWorkProc_idle_or_dispatches.resolve_left
      fun idle => idle.reply strMsg replied
    by_contra unacknowledged
    have fails : ¬ (surroundings.rpc = .completes ∧
        (world.nodes node.key).mgr.throwsOn (world.nodes node.key).uri = false) :=
      fun ⟨completes, returns⟩ => unacknowledged ⟨node, ⟨text, dispatches⟩, completes, returns⟩
    rw [collectWorkProc_of_failure dispatches fails] at replied
    simp [sendReply] at replied
  · rintro ⟨node, ⟨text, dispatches⟩, completes, returns⟩
    refine ⟨"200 OK", ?_⟩
    rw [(collectWorkProc_of_success dispatches completes returns).1]
    simp [sendReply]

end CollectWorkProc

/-- The reply `DC_NO_ERR` is backed by the broker exactly when every node that
acknowledges the request has a producer with a session, and CMS takes the message. -/
theorem backed_iff_takesMessage (surroundings : Surroundings) (world : World)
    (request : HttpRequest) :
    Backed world (collectWorkProc surroundings world request) ↔
      ∀ node, Acknowledges surroundings world request node →
        (world.nodes node.key).mgr.takesMessage surroundings.mq (world.nodes node.key).uri =
          true := by
  unfold Backed
  rw [noErr_iff_acknowledges]
  constructor
  · intro backed node acknowledges
    obtain ⟨picked, same, chain, _⟩ := backed ⟨node, acknowledges⟩
    obtain ⟨⟨text, dispatches⟩, completes, returns⟩ := acknowledges
    obtain rfl : picked = node := by
      rw [dispatches.picked] at same
      exact (Picked.node.inj same).symm
    by_contra refuses
    rw [(collectWorkProc_of_success dispatches completes returns).2.1,
      (clusterWork_of_refuses _ _ _ returns (by simpa using refuses)).1] at chain
    simp [swartzOk, swartzErr] at chain
  · rintro taken ⟨node, ⟨text, dispatches⟩, completes, returns⟩
    obtain ⟨sendMessage, _, pPro, sent⟩ := clusterWork_of_takes (world.nodes node.key)
      surroundings.mq (cString text) (taken node ⟨⟨text, dispatches⟩, completes, returns⟩)
    obtain ⟨_, chain, nodes⟩ := collectWorkProc_of_success dispatches completes returns
    refine ⟨node, dispatches.picked, ?_, pPro, cString (cString text), ?_⟩
    · rw [chain, sendMessage]
    · rw [nodes, sent]

def brokerDown : Env := { MqMgr.allSucceeds with conn := false }

def oneNode : World :=
  { registry := (registerWork Registry.empty { Ip := "10.0.0.2", Port := 6002 } 0).1
    nodes := fun _ => (Dp.init brokerDown ['h'] 1 ['q']).1 }

/-- The request `\x7b"indexCode":"1"\x7d`, which arrives and is answered. -/
def collectOne : HttpRequest :=
  { command := .post, host := some ['h'], uri := dcService
    body := ['\x7b', '"'] ++ indexCode ++ ['"', ':', '"', '1', '"', '\x7d'] }

def collectOneArrives : Surroundings :=
  { json :=
      { parse := fun _ => some (.object [(indexCode, .string ['1'])])
        asserts := true
        misread := fun _ => none }
    ret := 17
    rpc := .completes
    mq := brokerDown
    during := [] }

/-- The node has no session, `send_message` fails, and the reply is `200 OK`. -/
theorem brokerDown_acknowledged :
    ¬ Backed oneNode (collectWorkProc collectOneArrives oneNode collectOne) ∧
      (collectWorkProc collectOneArrives oneNode collectOne).chain =
        some (("10.0.0.2", 6002), some swartzErr) := by
  have replied : .reply "200 OK" .noErr ∈
      (collectWorkProc collectOneArrives oneNode collectOne).events := by decide +kernel
  have chain : (collectWorkProc collectOneArrives oneNode collectOne).chain =
      some (("10.0.0.2", 6002), some swartzErr) := by decide +kernel
  refine ⟨fun backed => ?_, chain⟩
  obtain ⟨node, _, sent, _⟩ := backed ⟨_, replied⟩
  rw [chain] at sent
  simp [swartzOk, swartzErr] at sent

end DcCluster.Server
