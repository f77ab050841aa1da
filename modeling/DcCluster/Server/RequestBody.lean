import DcCluster.Rapidjson.Document
import DcCluster.Server.Replies

/-!
Requests with the real parser: the string under `indexCode` in any JSON text reaches the
broker, and the body that the comment above `CollectWorkProc` shows is refused.
-/

namespace DcCluster.Server

open DcCluster.Lib DcCluster.Mq DcCluster.Node DcCluster.Rapidjson

def documentReader (tooBig : Text → Bool) (asserts : Bool) (misread : Json → Option Text) :
    Server.Rapidjson :=
  { parse := fun text => (parse tooBig text).toOption, asserts := asserts, misread := misread }

theorem toOption_eq_some {ε α : Type} {result : Except ε α} {value : α} :
    result.toOption = some value ↔ result = .ok value := by
  cases result with
  | error error => simp [Except.toOption]
  | ok other => simp [Except.toOption]

theorem documentReader_reads (tooBig : Text → Bool) (asserts : Bool)
    (misread : Json → Option Text) : (documentReader tooBig asserts misread).Reads := by
  constructor
  · intro source rest first second parsed extended
    exact parse_unique (toOption_eq_some.mp parsed) (toOption_eq_some.mp extended)
  · intro source members text parsed found
    exact parse_member_length (toOption_eq_some.mp parsed) found

section Requests

variable {surroundings : Surroundings} {world : World} {request : HttpRequest}
  {tooBig : Text → Bool} {asserts : Bool} {misread : Json → Option Text}

/-- A request with a JSON text whose first `indexCode` is this string: when the node has
passed it on, the broker has got the string up to its first NUL. -/
theorem indexCode_arrives (surroundings : Surroundings) (outcome : PoolOutcome) (world : World)
    (request : HttpRequest) (tooBig : Text → Bool) (asserts : Bool) (misread : Json → Option Text)
    (members : List (Text × Json)) (characters : List Char) (key : NodeKey)
    (reader : surroundings.json = documentReader tooBig asserts misread)
    (document : DocumentText tooBig (cString request.body) (.object members))
    (assigned : lookup Prod.fst Prod.snd members indexCode = some (.string (utf8 characters)))
    (dispatched : (httpCallback surroundings outcome world request).chain =
      some (key, some swartzOk)) :
    Passes world (httpCallback surroundings outcome world request) key
      (cString (utf8 characters)) := by
  have reads : surroundings.json.Reads := by
    rw [reader]
    exact documentReader_reads tooBig asserts misread
  have denotes : Denotes surroundings.json request characters := by
    refine ⟨members, ?_, assigned⟩
    rw [reader]
    refine toOption_eq_some.mpr ((parse_eq_ok_iff _ _ _).mpr ?_)
    rw [(cString_eq_self_iff (cString request.body)).mpr (nul_not_mem_cString request.body)]
    exact document
  obtain ⟨pPro, sent, message⟩ := httpCallback_sent reads denotes dispatched
  exact (passes_iff sent _).mpr message

theorem processBody_of_error {error : ParseErrorCode} {reqBuf : Text}
    (reader : surroundings.json = documentReader tooBig asserts misread)
    (returns : logReturns parseErrorFormat [some reqBuf] = true)
    (refused : parse tooBig reqBuf = .error error) :
    processBody surroundings world reqBuf =
      world.leaves (sendReply "Body Data Error" .bodyErr) := by
  have failed : surroundings.json.parse (cString reqBuf) = none := by
    have same : cString (cString reqBuf) = cString reqBuf := cString_cString reqBuf
    rw [reader]
    show (parse tooBig (cString reqBuf)).toOption = none
    unfold parse at refused ⊢
    rw [same, refused]
    rfl
  unfold processBody World.logs
  rw [failed, returns]
  rfl

end Requests

def documentArrives (body : Text) : Surroundings :=
  { json := documentReader noLimit true fun _ => none
    ret := toInt body.length
    rpc := .completes
    mq := MqMgr.allSucceeds
    during := [] }

def postBody (body : Text) : HttpRequest :=
  { command := .post, host := some ['h'], uri := dcService, body := body }

/-- `{ "x" : [-1e2, "\u00e9"], "index\u0043ode" : "1" }`. -/
def foreignBody : Text :=
  ['\x7b', ' ', '"', 'x', '"', ' ', ':', ' ', '[', '-', '1', 'e', '2', ',', ' ', '"', '\\', 'u',
    '0', '0', 'e', '9', '"', ']', ',', ' ', '"', 'i', 'n', 'd', 'e', 'x', '\\', 'u', '0', '0', '4',
    '3', 'o', 'd', 'e', '"', ' ', ':', ' ', '"', '1', '"', ' ', '\x7d']

def foreignMembers : List (Text × Json) :=
  [(['x'], .array [.number, .string [Char.ofNat 0xC3, Char.ofNat 0xA9]]),
    (indexCode, .string (utf8 ['1']))]

theorem indexCode_arrives_foreign :
    Passes brokerUp (httpCallback (documentArrives foreignBody) (.accepted true) brokerUp
      (postBody foreignBody)) ("10.0.0.2", 6002) (cString (utf8 ['1'])) := by
  have document : DocumentText noLimit (cString foreignBody) (.object foreignMembers) :=
    (parse_eq_ok_iff _ _ _).mp rfl
  have dispatched : (httpCallback (documentArrives foreignBody) (.accepted true) brokerUp
      (postBody foreignBody)).chain = some (("10.0.0.2", 6002), some swartzOk) := by
    decide +kernel
  exact indexCode_arrives _ _ _ _ noLimit true (fun _ => none) foreignMembers ['1'] _ rfl document
    rfl dispatched

/-- A request that reaches the parser and whose object has a comma before the closing brace
is answered with `DC_BODY_ERR`, and neither the registry nor a node sees it. -/
theorem trailingComma_refused (surroundings : Surroundings) (outcome : PoolOutcome)
    (world : World) (request : HttpRequest) (tooBig : Text → Bool) (asserts : Bool)
    (misread : Json → Option Text) (start blank body before tail : Text)
    (members : List (Text × Json))
    (reader : surroundings.json = documentReader tooBig asserts misread)
    (runs : outcome.runs = true) (post : request.command = .post)
    (service : request.uri = dcService) (fits : request.body.length < intMax)
    (received : surroundings.ret = toInt request.body.length)
    (logged : (acceptLine request.host request.uri request.body).length < 1024)
    (split : cString request.body =
      start ++ '\x7b' :: (blank ++ (body ++ ',' :: (before ++ '\x7d' :: tail))))
    (blanks : Blanks start ∧ Blanks blank ∧ Blanks before)
    (inner : Derives tooBig (.members members) body) :
    ∃ accesses, (∀ event ∈ accesses, event = .access) ∧
      httpCallback surroundings outcome world request =
        world.leaves (accesses ++ sendReply "Body Data Error" .bodyErr) := by
  have length : toInt request.body.length = request.body.length := toInt_of_fits (by omega)
  have whole : request.body.take (toInt request.body.length).toNat = request.body := by
    rw [length, Int.toNat_natCast, List.take_length]
  have fitting : ¬ allocatable (toInt request.body.length) = false := by
    rw [length]
    simp only [allocatable, Int.toNat_natCast, Bool.and_eq_false_iff, decide_eq_false_iff_not]
    omega
  have refused := parse_trailingComma split blanks.1 blanks.2.1 blanks.2.2 inner
  have answered := @processBody_of_error surroundings world tooBig asserts misread
    .objectMissName request.body reader (logReturns_parseError logged) refused
  refine ⟨List.replicate 9 .access, ?_, ?_⟩
  · intro event member
    exact List.eq_of_mem_replicate member
  · unfold httpCallback workService collectWorkProc World.logs
    rw [if_pos runs, if_neg (by rw [post]; exact fun different => different rfl), if_pos service]
    dsimp only
    rw [if_neg fitting, if_neg (by rw [received]; exact fun different => different rfl), whole,
      if_pos ((logReturns_accept_iff _ _ _).mpr logged), answered]
    rfl

/-- The body in the comment above `CollectWorkProc`. -/
def documentedBody : Text :=
  ['\x7b', '\n', '\t', '"', 'i', 'n', 'd', 'e', 'x', 'C', 'o', 'd', 'e', '"', ':', '"', '1', '3', '1',
    '0', '0', '0', '0', '0', '0', '5', '1', '4', '"', ',', '\n', '\x7d', '\n']

theorem trailingComma_refused_documented :
    ∃ accesses, (∀ event ∈ accesses, event = .access) ∧
      httpCallback (documentArrives documentedBody) (.accepted true) brokerUp
          (postBody documentedBody) =
        brokerUp.leaves (accesses ++ sendReply "Body Data Error" .bodyErr) := by
  have code : Derives noLimit _ _ := Derives.string
    (writeString_reads ['1', '3', '1', '0', '0', '0', '0', '0', '0', '5', '1', '4'])
  have inner := Derives.member (labelText_writeString indexCode) code blanks_nil
  exact trailingComma_refused _ _ _ _ noLimit true (fun _ => none) [] ['\n', '\t'] _ ['\n'] ['\n']
    _ rfl rfl rfl rfl (by decide) rfl (by decide +kernel) rfl ⟨blanks_nil, by decide, by decide⟩ inner

end DcCluster.Server
