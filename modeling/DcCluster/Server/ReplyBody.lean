import DcCluster.Rapidjson.RoundTrip
import DcCluster.Server.Replies

/-!
The body of a reply. `SendReply` passes it to `evbuffer_add_printf` as the format; every
reply that the server makes goes out as it is, and the client reads back its two members.
-/

namespace DcCluster.Server

open DcCluster.Lib DcCluster.Mq DcCluster.Node DcCluster.Rapidjson

/-- The value of the enumerator. -/
def DcHttpReply.value : DcHttpReply → Nat
  | .noErr => 0
  | .urlErr => 1
  | .bodyErr => 2
  | .noNode => 3
  | .nodeErr => 4

def codeName : Text := ['c', 'o', 'd', 'e']

def msgName : Text := ['m', 's', 'g']

/-- `std::to_string`. -/
def codeText (msgType : DcHttpReply) : Text := Nat.toDigits 10 msgType.value

def replyCalls (strMsg : Text) (msgType : DcHttpReply) : List Rapidjson.Call :=
  [.startObject, .string codeName, .string (cString (codeText msgType)), .string msgName,
    .string (cString strMsg), .endObject]

/-- What `evbuffer_add_printf` puts into the buffer for a format and no arguments is libevent's. -/
def replyBody (evbufferAddPrintf : Text → Option Text) (strMsg : Text) (msgType : DcHttpReply) :
    Option Text :=
  (run Writer.step {} (replyCalls strMsg msgType)).bind fun writer =>
    evbufferAddPrintf (cString writer.os)

def replyTree (strMsg : Text) (msgType : DcHttpReply) : Tree :=
  .object [(codeName, .string (codeText msgType)), (msgName, .string strMsg)]

theorem replyTree_calls {strMsg : Text} (shown : nul ∉ strMsg) (msgType : DcHttpReply) :
    replyCalls strMsg msgType = (replyTree strMsg msgType).calls := by
  have code : cString (codeText msgType) = codeText msgType := by
    cases msgType <;> decide
  rw [replyCalls, code, (cString_eq_self_iff strMsg).mpr shown]
  rfl

theorem hexDigitsUpper_ne_percent (n : Nat) : hexDigitsUpper.getD n '0' ≠ '%' := by
  by_cases bound : n < 16
  · revert n
    decide
  · have outside : hexDigitsUpper[n]? = none := by
      rw [List.getElem?_eq_none_iff]
      exact Nat.le_of_not_lt bound
    rw [List.getD_eq_getElem?_getD, outside]
    decide

theorem escapeOf_ne_percent {c e : Char} (named : escapeOf c = some e) : e ≠ '%' := by
  rintro rfl
  unfold escapeOf at named
  split_ifs at named <;> exact absurd (Option.some.inj named) (by decide)

theorem percent_mem_writeChar (c : Char) : '%' ∈ writeChar c ↔ c = '%' := by
  constructor
  · intro member
    unfold writeChar at member
    cases named : escapeOf c with
    | none =>
        rw [named] at member
        exact (List.mem_singleton.mp member).symm
    | some e =>
        rw [named] at member
        have noEscape := escapeOf_ne_percent named
        have noHigh := hexDigitsUpper_ne_percent (c.toNat / 16)
        have noLow := hexDigitsUpper_ne_percent (c.toNat % 16)
        dsimp only at member
        split at member
        · simp only [List.mem_cons, List.not_mem_nil, or_false] at member
          rcases member with backslash | escape | zero | zero | high | low
          · exact absurd backslash (by decide)
          · exact absurd escape.symm noEscape
          · exact absurd zero (by decide)
          · exact absurd zero (by decide)
          · exact absurd high.symm noHigh
          · exact absurd low.symm noLow
        · simp [Ne.symm noEscape] at member
  · rintro rfl
    decide

theorem percent_mem_writeString (str : Text) : '%' ∈ writeString str ↔ '%' ∈ str := by
  simp [writeString, percent_mem_writeChar]

theorem replyTree_text_noPercent {strMsg : Text} (literal : '%' ∉ strMsg)
    (msgType : DcHttpReply) : '%' ∉ (replyTree strMsg msgType).text := by
  have code : '%' ∉ codeText msgType := by
    cases msgType <;> decide
  have name : '%' ∉ codeName ∧ '%' ∉ msgName := by decide
  simp [replyTree, Tree.text, memberTexts, joined, percent_mem_writeString, literal, code, name]

/-- A format without conversions is put as it is. -/
def PutsLiterals (evbufferAddPrintf : Text → Option Text) : Prop :=
  ∀ fmt, '%' ∉ fmt → evbufferAddPrintf fmt = some fmt

/-- A message without a NUL and without a percent sign. -/
theorem replyBody_reads {evbufferAddPrintf : Text → Option Text}
    (puts : PutsLiterals evbufferAddPrintf) {strMsg : Text} (shown : nul ∉ strMsg) (literal : '%' ∉ strMsg)
    (msgType : DcHttpReply) (tooBig : Text → Bool) :
    ∃ body, replyBody evbufferAddPrintf strMsg msgType = some body ∧
      parse tooBig body = .ok (.object [(codeName, .string (codeText msgType)),
        (msgName, .string strMsg)]) := by
  have numbers : ∀ digits, .number digits ∈ (replyTree strMsg msgType).calls →
      NumberText tooBig digits := by
    intro digits isCall
    simp [replyTree, Tree.calls, memberCalls] at isCall
  have visible := ((replyTree strMsg msgType).derives numbers).visible
  refine ⟨(replyTree strMsg msgType).text, ?_, Tree.parse_text numbers⟩
  unfold replyBody
  rw [replyTree_calls shown, Tree.run_fresh, Option.bind_some,
    (cString_eq_self_iff _).mpr visible, puts _ (replyTree_text_noPercent literal msgType)]

/-- The messages of the server. -/
def replies : List (String × DcHttpReply) :=
  [("Just Support The POST Request", .urlErr), ("Not Support The Url Request", .urlErr),
    ("Body Data Recv Error", .bodyErr), ("Body Data Error", .bodyErr), ("200 OK", .noErr),
    ("DCNODE ERROR", .nodeErr), ("NO AVAILABLE Node", .noNode)]

def RepliesIn (events : List TaskEvent) : Prop :=
  ∀ strMsg msgType, .reply strMsg msgType ∈ events → (strMsg, msgType) ∈ replies

theorem repliesIn_append {first second : List TaskEvent} (before : RepliesIn first)
    (later : RepliesIn second) : RepliesIn (first ++ second) := by
  intro strMsg msgType member
  rcases List.mem_append.mp member with here | there
  · exact before _ _ here
  · exact later _ _ there

theorem repliesIn_accesses {events : List TaskEvent} (accesses : ∀ event ∈ events, event = .access) :
    RepliesIn events := by
  intro strMsg msgType member
  cases accesses _ member

theorem repliesIn_sendReply {strMsg : String} {msgType : DcHttpReply}
    (known : (strMsg, msgType) ∈ replies) : RepliesIn (sendReply strMsg msgType) := by
  intro other otherType member
  simp only [sendReply, List.mem_cons, TaskEvent.reply.injEq, reduceCtorEq, List.not_mem_nil,
    or_false] at member
  rw [member.1, member.2]
  exact known

theorem repliesIn_nil : RepliesIn [] := fun _ _ member => absurd member List.not_mem_nil

theorem repliesIn_logs {world : World} {format : List (Directive (Option Text))}
    {args : List (Option Text)} {rest : Collected} (known : RepliesIn rest.events) :
    RepliesIn (world.logs format args rest).events := by
  simp only [World.logs]
  split
  · exact known
  · exact repliesIn_nil

section Requests

variable (surroundings : Surroundings) (world : World) (request : HttpRequest)

theorem dispatchTo_repliesIn (node : DcNode) (msg : Text) :
    RepliesIn (dispatchTo surroundings world node msg).events := by
  simp only [dispatchTo]
  split
  · exact repliesIn_sendReply (by decide)
  · exact repliesIn_sendReply (by decide)

theorem scheduleWork_repliesIn (szIndexCode : Option Text) :
    RepliesIn (scheduleWork surroundings world szIndexCode).events := by
  simp only [scheduleWork]
  split
  · exact repliesIn_sendReply (by decide)
  · exact repliesIn_nil
  · exact repliesIn_nil
  · exact dispatchTo_repliesIn surroundings _ _ _

theorem processBody_repliesIn (reqBuf : Text) :
    RepliesIn (processBody surroundings world reqBuf).events := by
  simp only [processBody]
  split
  · exact repliesIn_logs (repliesIn_sendReply (by decide))
  · split
    · exact repliesIn_nil
    · exact repliesIn_append (repliesIn_sendReply (by decide)) (scheduleWork_repliesIn _ _ _)
    · exact scheduleWork_repliesIn _ _ _

theorem collectWorkProc_repliesIn :
    RepliesIn (collectWorkProc surroundings world request).events := by
  simp only [collectWorkProc]
  split
  · exact repliesIn_accesses (by simp [World.leaves])
  · split
    · exact @repliesIn_append [.access] _ (repliesIn_accesses (by simp))
        (repliesIn_sendReply (by decide))
    · exact repliesIn_append (repliesIn_accesses (by simp))
        (repliesIn_logs (processBody_repliesIn _ _ _))

theorem workService_repliesIn : RepliesIn (workService surroundings world request).events := by
  simp only [workService]
  split
  · exact repliesIn_append (repliesIn_accesses (by simp)) (repliesIn_sendReply (by decide))
  · split
    · exact repliesIn_append (repliesIn_accesses (by simp)) (collectWorkProc_repliesIn _ _ _)
    · exact repliesIn_append (repliesIn_accesses (by simp)) (repliesIn_sendReply (by decide))

theorem httpCallback_repliesIn (outcome : PoolOutcome) :
    RepliesIn (httpCallback surroundings outcome world request).events := by
  simp only [httpCallback]
  split
  · exact repliesIn_append (repliesIn_accesses (by simp)) (workService_repliesIn _ _ _)
  · exact repliesIn_accesses (by simp [World.leaves])

end Requests

/-- Whatever the server answers to any request, the format is its own text, and the client
reads back the code and the message. -/
theorem reply_reads_back (evbufferAddPrintf : Text → Option Text)
    (puts : PutsLiterals evbufferAddPrintf) (surroundings : Surroundings) (outcome : PoolOutcome)
    (world : World) (request : HttpRequest) (tooBig : Text → Bool) (strMsg : String) (msgType : DcHttpReply)
    (replied : .reply strMsg msgType ∈ (httpCallback surroundings outcome world request).events) :
    ∃ body, replyBody evbufferAddPrintf strMsg.toList msgType = some body ∧
      parse tooBig body = .ok (.object [(codeName, .string (codeText msgType)),
        (msgName, .string strMsg.toList)]) := by
  have known := httpCallback_repliesIn surroundings world request outcome strMsg msgType replied
  have plain : ∀ reply ∈ replies, nul ∉ reply.1.toList ∧ '%' ∉ reply.1.toList := by decide
  obtain ⟨shown, literal⟩ := plain _ known
  exact replyBody_reads puts shown literal msgType tooBig

def getRequest : HttpRequest := { command := .get, host := none, uri := dcService, body := [] }

/-- Conversions have no argument to read. -/
def printLiteral (fmt : Text) : Option Text := if '%' ∈ fmt then none else some fmt

theorem reply_reads_back_get : ∃ body,
    replyBody printLiteral "Just Support The POST Request".toList .urlErr = some body ∧
      parse noLimit body = .ok (.object [(codeName, .string ['1']),
        (msgName, .string "Just Support The POST Request".toList)]) :=
  reply_reads_back printLiteral (fun _ literal => if_neg literal) (stringArrives ['1'] ['1']) (.accepted true) brokerUp getRequest noLimit
    "Just Support The POST Request" .urlErr (by decide)

end DcCluster.Server
