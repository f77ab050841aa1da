import DcCluster.Server.HttpCore
import DcCluster.Server.Registry

/-!
When a request is answered exactly once. Every exit of the handling either ends
with one `SendReply` or does not; the exits that do not are the ones excluded by
`AnsweredOnce`, which speaks only of the request, the registry and the outcomes of
the calls.
-/

namespace DcCluster.Server

open DcCluster.Lib DcCluster.Mq DcCluster.Node

def TaskEvent.isReply : TaskEvent → Bool
  | .reply _ _ => true
  | _ => false

/-- One reply, and one deletion after which the task is not used any more. -/
structure ExactlyOneReply (events : List TaskEvent) : Prop where
  replies : events.countP TaskEvent.isReply = 1
  deletes : events.count .delete = 1
  deletedLast : events.getLast? = some .delete

theorem exactlyOneReply_sendReply (strMsg : String) (msgType : DcHttpReply) :
    ExactlyOneReply (sendReply strMsg msgType) := ⟨rfl, rfl, rfl⟩

theorem not_exactlyOneReply_nil : ¬ ExactlyOneReply [] := fun once => nomatch once.replies

theorem exactlyOneReply_append {earlier : List TaskEvent}
    (accesses : ∀ event ∈ earlier, event = .access) (events : List TaskEvent) :
    ExactlyOneReply (earlier ++ events) ↔ ExactlyOneReply events := by
  have noReply : earlier.countP TaskEvent.isReply = 0 := by
    rw [List.countP_eq_zero]
    intro event member
    simp [accesses event member, TaskEvent.isReply]
  have noDelete : earlier.count .delete = 0 := by
    rw [List.count_eq_zero]
    intro member
    cases accesses _ member
  constructor
  · rintro ⟨replies, deletes, deletedLast⟩
    rw [List.countP_append, noReply, Nat.zero_add] at replies
    rw [List.count_append, noDelete, Nat.zero_add] at deletes
    refine ⟨replies, deletes, ?_⟩
    cases events with
    | nil => simp at replies
    | cons event rest => rwa [List.getLast?_append_cons] at deletedLast
  · rintro ⟨replies, deletes, deletedLast⟩
    refine ⟨?_, ?_, ?_⟩
    · rw [List.countP_append, noReply, replies]
    · rw [List.count_append, noDelete, deletes]
    · simp [deletedLast]

def Json.HasIndexCode (document : Json) : Prop :=
  ∃ members text, document = .object members ∧
    lookup Prod.fst Prod.snd members indexCode = some (.string text)

theorem Json.HasIndexCode.fetch {document : Json} (present : document.HasIndexCode)
    (json : Rapidjson) : ∃ text, json.fetchIndexCode document = .pointer (some text) := by
  obtain ⟨members, text, rfl, found⟩ := present
  exact ⟨text, by simp only [Rapidjson.fetchIndexCode, found]⟩

theorem fetchIndexCode_of_absent {document : Json} (absent : ¬ document.HasIndexCode)
    (json : Rapidjson) : ∃ pointer, json.fetchIndexCode document = json.violated pointer := by
  cases document with
  | object members =>
      simp only [Rapidjson.fetchIndexCode]
      split
      next text found => exact absurd ⟨members, text, rfl, found⟩ absent
      next value _ _ => exact ⟨_, rfl⟩
      next => exact ⟨_, rfl⟩
  | null => exact ⟨_, rfl⟩
  | bool value => exact ⟨_, rfl⟩
  | number => exact ⟨_, rfl⟩
  | string text => exact ⟨_, rfl⟩
  | array elements => exact ⟨_, rfl⟩

theorem fetchIndexCode_aborted_iff (json : Rapidjson) (document : Json) :
    json.fetchIndexCode document = .aborted ↔
      json.asserts = true ∧ ¬ document.HasIndexCode := by
  by_cases present : document.HasIndexCode
  · obtain ⟨text, fetched⟩ := present.fetch json
    simp [fetched, present]
  · obtain ⟨pointer, fetched⟩ := fetchIndexCode_of_absent present json
    rw [fetched, Rapidjson.violated]
    cases json.asserts <;> simp [present]

theorem dispatchTo_events (surroundings : Surroundings) (world : World) (node : DcNode)
    (msg : Text) :
    ∃ strMsg msgType, (dispatchTo surroundings world node msg).events =
      sendReply strMsg msgType := by
  simp only [dispatchTo]
  split
  · exact ⟨_, _, rfl⟩
  · exact ⟨_, _, rfl⟩

/-- The line that is logged before a received body is parsed. -/
def acceptLine (host : Option Text) (uri reqBuf : Text) : Bytes :=
  bytesOf "accept request host:".toList ++ printedString host ++ bytesOf ", url:".toList ++
    printedString (some uri) ++ bytesOf " ,body:".toList ++ printedString (some reqBuf)

theorem logReturns_iff_short {format : List (Directive (Option Text))}
    {args : List (Option Text)} {text : Bytes} (consumes : 0 < arityOf format)
    (formatted : formatText format args = some (text, [])) :
    logReturns format args = true ↔ text.length < 1024 :=
  XLogger.ensureLogComplete_returns_iff (fun _ => rfl) consumes formatted 1

theorem logReturns_accept_iff (host : Option Text) (uri reqBuf : Text) :
    logReturns acceptFormat [host, some uri, some reqBuf] = true ↔
      (acceptLine host uri reqBuf).length < 1024 := by
  refine logReturns_iff_short (by decide) ?_
  simp [acceptFormat, acceptLine, literal, Directive.literal, stringDirective, formatText]

/-- The line for a body that does not parse is shorter than the first line. -/
theorem logReturns_parseError {host : Option Text} {uri reqBuf : Text}
    (short : (acceptLine host uri reqBuf).length < 1024) :
    logReturns parseErrorFormat [some reqBuf] = true := by
  have formatted : formatText parseErrorFormat [some reqBuf] =
      some (bytesOf "parse URL  Body err,info = ".toList ++ printedString (some reqBuf), []) := by
    simp [parseErrorFormat, literal, Directive.literal, stringDirective, formatText]
  rw [logReturns_iff_short (by decide) formatted]
  have first : (bytesOf "accept request host:".toList).length = 20 := by decide
  have second : (bytesOf ", url:".toList).length = 6 := by decide
  have third : (bytesOf " ,body:".toList).length = 7 := by decide
  have error : (bytesOf "parse URL  Body err,info = ".toList).length = 27 := by decide
  simp only [acceptLine, List.length_append] at short ⊢
  omega

theorem not_exactlyOneReply_logs {world : World} {format : List (Directive (Option Text))}
    {args : List (Option Text)} {rest : Collected} (lost : logReturns format args = false) :
    ¬ ExactlyOneReply (world.logs format args rest).events := by
  simpa [World.logs, lost, World.leaves] using not_exactlyOneReply_nil

section ScheduleWork

variable (surroundings : Surroundings) {world : World} (valid : world.registry.Valid)
include valid

theorem scheduleWork_replies (text : Text) :
    ExactlyOneReply (scheduleWork surroundings world (some text)).events := by
  by_cases positive : 0 < nodeSize world.registry.nodeVec
  · obtain ⟨node, _, picked⟩ := pick_of_positive valid positive
    simp only [scheduleWork, picked]
    obtain ⟨strMsg, msgType, events⟩ := dispatchTo_events surroundings
      { world with registry := (pick world.registry).1 } node (cString text)
    rw [events]
    exact exactlyOneReply_sendReply strMsg msgType
  · simp only [scheduleWork, pick_of_nonpositive positive]
    exact exactlyOneReply_sendReply _ _

theorem scheduleWork_null_replies_iff (strMsg : String) (msgType : DcHttpReply) :
    ExactlyOneReply (sendReply strMsg msgType ++ (scheduleWork surroundings world none).events) ↔
      0 < nodeSize world.registry.nodeVec := by
  -- With a node there is an exception instead of a second reply.
  by_cases positive : 0 < nodeSize world.registry.nodeVec
  · obtain ⟨node, _, picked⟩ := pick_of_positive valid positive
    simp only [scheduleWork, picked, World.leaves, List.append_nil, positive, iff_true]
    exact exactlyOneReply_sendReply strMsg msgType
  · simp only [scheduleWork, pick_of_nonpositive positive, World.leaves, positive, iff_false]
    exact fun once => nomatch once.replies

end ScheduleWork

/-- The body does not parse, or it has a string under `indexCode`. Without assertions
a `NULL` pointer is harmless when there is a node. -/
def BodyAnswered (json : Rapidjson) (registry : Registry) (reqBuf : Text) : Prop :=
  ∀ document, json.parse (cString reqBuf) = some document →
    document.HasIndexCode ∨
      json.asserts = false ∧
        (json.fetchIndexCode document = .pointer none → 0 < nodeSize registry.nodeVec)

theorem processBody_replies_iff (surroundings : Surroundings) {world : World}
    (valid : world.registry.Valid) {reqBuf : Text}
    (returns : logReturns parseErrorFormat [some reqBuf] = true) :
    ExactlyOneReply (processBody surroundings world reqBuf).events ↔
      BodyAnswered surroundings.json world.registry reqBuf := by
  unfold processBody BodyAnswered
  cases parsed : surroundings.json.parse (cString reqBuf) with
  | none => simpa [World.logs, returns, World.leaves] using exactlyOneReply_sendReply _ _
  | some document =>
      simp only [Option.some.injEq, forall_eq']
      have aborts := fetchIndexCode_aborted_iff surroundings.json document
      cases fetched : surroundings.json.fetchIndexCode document with
      | aborted =>
          obtain ⟨asserts, absent⟩ := aborts.mp fetched
          simp only [World.leaves, asserts, absent]
          simpa using not_exactlyOneReply_nil
      | pointer szIndexCode =>
          have passes : document.HasIndexCode ∨ surroundings.json.asserts = false := by
            by_contra neither
            obtain ⟨absent, asserts⟩ := not_or.mp neither
            rw [aborts.mpr ⟨by simpa using asserts, absent⟩] at fetched
            cases fetched
          cases szIndexCode with
          | some text =>
              refine iff_of_true (scheduleWork_replies surroundings valid text) ?_
              exact passes.imp_right fun asserts => ⟨asserts, by simp⟩
          | none =>
              have absent : ¬ document.HasIndexCode := by
                intro present
                obtain ⟨text, pointer⟩ := present.fetch surroundings.json
                simp [fetched] at pointer
              simp only [Collected.after, absent, false_or, passes.resolve_left absent, true_and,
                forall_const]
              exact scheduleWork_null_replies_iff surroundings valid _ _

/-- The line with the whole body can be logged, and the body is answered. -/
def ReceivedAnswered (json : Rapidjson) (registry : Registry) (request : HttpRequest)
    (reqBuf : Text) : Prop :=
  (acceptLine request.host request.uri reqBuf).length < 1024 ∧ BodyAnswered json registry reqBuf

theorem collectWorkProc_replies_iff (surroundings : Surroundings) {world : World}
    (valid : world.registry.Valid) (request : HttpRequest) :
    ExactlyOneReply (collectWorkProc surroundings world request).events ↔
      allocatable (toInt request.body.length) = true ∧
        (surroundings.ret = toInt request.body.length →
          ReceivedAnswered surroundings.json world.registry request
            (request.body.take (toInt request.body.length).toNat)) := by
  simp only [collectWorkProc]
  split
  next tooLong =>
    simp only [tooLong, Bool.false_eq_true, false_and, iff_false]
    exact fun once => nomatch once.replies
  next fits =>
    rw [Bool.not_eq_false] at fits
    split
    next short =>
      refine iff_of_true ?_ ⟨fits, fun received => absurd received short⟩
      exact (@exactlyOneReply_append [.access] (by simp) _).mpr (exactlyOneReply_sendReply _ _)
    next received =>
      simp only [ne_eq, Decidable.not_not] at received
      simp only [fits, received, true_and, forall_const, Collected.after]
      rw [exactlyOneReply_append (by simp)]
      unfold ReceivedAnswered
      have returns := logReturns_accept_iff request.host request.uri
        (request.body.take (toInt request.body.length).toNat)
      rw [← returns]
      cases logged : logReturns acceptFormat [request.host, some request.uri,
          some (request.body.take (toInt request.body.length).toNat)] with
      | false =>
          simp only [Bool.false_eq_true, false_and, iff_false]
          exact not_exactlyOneReply_logs logged
      | true =>
          simp only [World.logs, logged, ↓reduceIte, true_and]
          exact processBody_replies_iff surroundings valid
            (logReturns_parseError (returns.mp logged))

/-- When a request is answered once: a worker takes it, and if it is a request for the
service, its length fits into an `int` with room for one more and its body, once
received, is logged and answered. -/
def AnsweredOnce (surroundings : Surroundings) (outcome : PoolOutcome) (registry : Registry)
    (request : HttpRequest) : Prop :=
  outcome.runs = true ∧
    (request.command = .post → request.uri = dcService →
      allocatable (toInt request.body.length) = true ∧
        (surroundings.ret = toInt request.body.length →
          ReceivedAnswered surroundings.json registry request
            (request.body.take (toInt request.body.length).toNat)))

theorem workService_replies_iff (surroundings : Surroundings) {world : World}
    (valid : world.registry.Valid) (request : HttpRequest) :
    ExactlyOneReply (workService surroundings world request).events ↔
      AnsweredOnce surroundings (.accepted true) world.registry request := by
  have refused (strMsg : String) (msgType : DcHttpReply) :
      ExactlyOneReply ([.access, .access, .access] ++ sendReply strMsg msgType) :=
    (exactlyOneReply_append (by simp) _).mpr (exactlyOneReply_sendReply strMsg msgType)
  simp only [workService, AnsweredOnce, PoolOutcome.runs, true_and]
  split
  next otherCommand =>
    exact iff_of_true (refused _ _) fun post => absurd post otherCommand
  next post =>
    simp only [ne_eq, Decidable.not_not] at post
    split
    next service =>
      simp only [post, service, forall_const, Collected.after]
      rw [exactlyOneReply_append (by simp)]
      exact collectWorkProc_replies_iff surroundings valid request
    next otherUri =>
      exact iff_of_true (refused _ _) fun _ service => absurd service otherUri

/-- A request gets exactly one reply, and its task is deleted once and not used
afterwards, exactly when `AnsweredOnce` holds; for every reachable registry, every
node and every outcome of the calls. -/
theorem exactlyOneReply_iff_answeredOnce (surroundings : Surroundings) (outcome : PoolOutcome)
    (ops : List Op) (nodes : NodeKey → Dp) (request : HttpRequest) :
    let world : World := { registry := performAll Registry.empty ops, nodes := nodes }
    ExactlyOneReply (httpCallback surroundings outcome world request).events ↔
      AnsweredOnce surroundings outcome world.registry request := by
  intro world
  have valid : world.registry.Valid := performAll_valid Registry.empty_valid ops
  simp only [httpCallback]
  split
  next runs =>
    have service := workService_replies_iff surroundings valid request
    simp only [AnsweredOnce, PoolOutcome.runs, true_and] at service
    simp only [AnsweredOnce, runs, true_and, Collected.after]
    rw [exactlyOneReply_append (by simp)]
    exact service
  next idle =>
    refine iff_of_false (fun once => nomatch once.replies) fun answered => ?_
    exact idle answered.1

def emptyObject : HttpRequest :=
  { command := .post, host := some ['h'], uri := dcService, body := ['\x7b', '\x7d'] }

def emptyObjectArrives (asserts : Bool) : Surroundings :=
  { json := { parse := fun _ => some (.object []), asserts := asserts, misread := fun _ => none }
    ret := 2
    rpc := .completes
    mq := MqMgr.allSucceeds
    during := [] }

def emptyCluster : World :=
  { registry := Registry.empty, nodes := fun _ => Dp.constructed [] }

/-- A refused task is never answered; a body without `indexCode` is not answered when
it trips an assertion, and answered twice, the second time through the deleted task,
when assertions are compiled out and no node is registered. -/
theorem emptyObject_not_answered_once :
    ¬ ExactlyOneReply (httpCallback (emptyObjectArrives true) (.refused false) emptyCluster
        emptyObject).events ∧
      ¬ ExactlyOneReply (httpCallback (emptyObjectArrives true) (.accepted true) emptyCluster
        emptyObject).events ∧
      (httpCallback (emptyObjectArrives false) (.accepted true) emptyCluster emptyObject).events =
        List.replicate 9 .access ++ [.reply "Body Data Error" .bodyErr, .delete,
          .reply "NO AVAILABLE Node" .noNode, .delete] ∧
      ¬ ExactlyOneReply (httpCallback (emptyObjectArrives false) (.accepted true) emptyCluster
        emptyObject).events := by
  refine ⟨fun once => ?_, fun once => ?_, by decide +kernel, fun once => ?_⟩
  · exact absurd once.replies (by decide +kernel)
  · exact absurd once.replies (by decide +kernel)
  · exact absurd once.replies (by decide +kernel)

end DcCluster.Server
