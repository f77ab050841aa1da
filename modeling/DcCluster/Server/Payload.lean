import Mathlib.Data.List.TakeWhile
import DcCluster.Server.Acknowledgement

/-!
What the broker gets of the string under `indexCode`. On its way to the node and to CMS
the string is passed on as a `const char*` twice, and then as a pointer and an `int`; it
arrives as it was exactly if it has no NUL character.
-/

namespace DcCluster.Server

open DcCluster.Lib DcCluster.Mq DcCluster.Node

/-- The bytes of a string, one for each character of a `std::string`. -/
def utf8 (characters : List Char) : Text :=
  (characters.flatMap String.utf8EncodeChar).map Char.ofUInt8

theorem zero_mem_utf8EncodeChar (char : Char) :
    0 ∈ String.utf8EncodeChar char ↔ char = Char.ofNat 0 := by
  have small (size : Nat) (bound : size < 256) : (0 : UInt8) = UInt8.ofNat size ↔ size = 0 := by
    rw [← UInt8.toNat_inj, UInt8.toNat_ofNat', Nat.mod_eq_of_lt bound]
    exact eq_comm
  have isNul : char = Char.ofNat 0 ↔ char.val.toNat = 0 := by
    constructor
    · rintro rfl
      rfl
    · intro zero
      exact Char.ext (UInt32.toNat_inj.mp zero)
  rw [isNul]
  simp only [String.utf8EncodeChar]
  split
  next ascii => rw [List.mem_singleton, small _ (by omega)]
  next wide =>
    refine iff_of_false ?_ (by omega)
    split
    · simp only [List.mem_cons, List.not_mem_nil, or_false]
      rw [small _ (by omega), small _ (by omega)]
      omega
    · split
      · simp only [List.mem_cons, List.not_mem_nil, or_false]
        rw [small _ (by omega), small _ (by omega), small _ (by omega)]
        omega
      · simp only [List.mem_cons, List.not_mem_nil, or_false]
        rw [small _ (by omega), small _ (by omega), small _ (by omega), small _ (by omega)]
        omega

theorem nul_mem_utf8 (characters : List Char) :
    Char.ofNat 0 ∈ utf8 characters ↔ Char.ofNat 0 ∈ characters := by
  have isZero (byte : UInt8) : Char.ofUInt8 byte = Char.ofNat 0 ↔ byte = 0 := by
    constructor
    · intro same
      have sizes : byte.toUInt32.toNat = 0 := congrArg (fun char => char.val.toNat) same
      rw [UInt8.toNat_toUInt32] at sizes
      exact UInt8.toNat_inj.mp sizes
    · rintro rfl
      rfl
  simp only [utf8, List.mem_map, List.mem_flatMap, isZero, exists_eq_right,
    zero_mem_utf8EncodeChar]

theorem cString_eq_self_iff (text : Text) : cString text = text ↔ Char.ofNat 0 ∉ text := by
  rw [cString, List.takeWhile_eq_self_iff]
  simp only [ne_eq, decide_eq_true_eq]
  constructor
  · intro all member
    exact all _ member rfl
  · rintro absent char member rfl
    exact absent member

theorem cString_cString (text : Text) : cString (cString text) = cString text := by
  rw [cString_eq_self_iff]
  intro member
  simpa using List.mem_takeWhile_imp member

theorem cString_prefix (text : Text) (size : Nat) : cString (text.take size) <+: cString text := by
  induction text generalizing size with
  | nil => simp [cString]
  | cons char rest ih =>
      cases size with
      | zero => simp [cString]
      | succ size =>
          by_cases isNul : char = Char.ofNat 0
          · simp [cString, isNul]
          · have later := ih size
            simpa [cString, isNul] using later

/-- What `createBytesMessage` gets: a pointer to the message, and `size()` as an `int`. -/
def bytesMessage (strMsg : Text) : Text := strMsg.take (toInt strMsg.length).toNat

theorem bytesMessage_of_fits {strMsg : Text} (fits : strMsg.length ≤ intMax) :
    bytesMessage strMsg = strMsg := by
  rw [bytesMessage, toInt_of_fits fits, Int.toNat_natCast, List.take_length]

/-- How rapidjson reads a text: nothing but blanks can follow a document, and a string takes
no more bytes than its source. -/
structure Rapidjson.Reads (json : Rapidjson) : Prop where
  ends : ∀ source rest first second, json.parse source = some first →
    json.parse (source ++ rest) = some second → first = second
  shrinks : ∀ source members text, json.parse source = some (.object members) →
    lookup Prod.fst Prod.snd members indexCode = some (.string text) →
      text.length ≤ source.length

/-- The body is a JSON object in which `indexCode` is this string. -/
def Denotes (json : Rapidjson) (request : HttpRequest) (characters : List Char) : Prop :=
  ∃ members, json.parse (cString request.body) = some (.object members) ∧
    lookup Prod.fst Prod.snd members indexCode = some (.string (utf8 characters))

/-- The node got one more message through CMS, with exactly these bytes. -/
def Passes (world : World) (collected : Collected) (key : NodeKey) (bytes : Text) : Prop :=
  ∃ pPro strMsg, (collected.world.nodes key).mgr.sent =
    (world.nodes key).mgr.sent ++ [(pPro, strMsg)] ∧ bytesMessage strMsg = bytes

theorem passes_iff {world : World} {collected : Collected} {key : NodeKey} {pPro : Nat}
    {strMsg : Text} (sent : (collected.world.nodes key).mgr.sent =
      (world.nodes key).mgr.sent ++ [(pPro, strMsg)]) (bytes : Text) :
    Passes world collected key bytes ↔ bytesMessage strMsg = bytes := by
  constructor
  · rintro ⟨other, message, same, isBytes⟩
    have entries := List.append_cancel_left (sent.symm.trans same)
    obtain ⟨-, rfl⟩ := Prod.mk.inj (List.cons.inj entries).1
    exact isBytes
  · intro isBytes
    exact ⟨pPro, strMsg, sent, isBytes⟩

/-- A string that is sent to a node fits into an `int`, and it is the one of the body. -/
theorem Dispatches.text_eq {surroundings : Surroundings} {world : World} {request : HttpRequest}
    {node : DcNode} {text : Text} (dispatches : Dispatches surroundings world request node text)
    (reads : surroundings.json.Reads) {characters : List Char}
    (denotes : Denotes surroundings.json request characters) :
    text = utf8 characters ∧ text.length ≤ intMax := by
  obtain ⟨members, whole, member⟩ := denotes
  obtain ⟨document, parsed, fetched⟩ := dispatches.fetched
  obtain ⟨rest, appended⟩ := cString_prefix request.body (toInt request.body.length).toNat
  rw [← appended] at whole
  obtain rfl := reads.ends _ _ _ _ parsed whole
  have isText : text = utf8 characters := by
    simpa [Rapidjson.fetchIndexCode, member] using fetched.symm
  refine ⟨isText, ?_⟩
  have shrinks := reads.shrinks _ _ _ parsed member
  have bound := toInt_le_intMax request.body.length
  have taken : (cString (request.body.take (toInt request.body.length).toNat)).length ≤
      (toInt request.body.length).toNat := by
    refine (List.takeWhile_sublist _).length_le.trans ?_
    rw [List.length_take]
    omega
  rw [isText]
  omega

theorem clusterWork_sent {dp : Dp} {env : Env} {msg : Text}
    (succeeds : (clusterWork dp env msg).sendMessage = some swartzOk) :
    ∃ pPro, (clusterWork dp env msg).dp.mgr.sent = dp.mgr.sent ++ [(pPro, cString msg)] := by
  cases takes : dp.mgr.takesMessage env dp.uri with
  | true => exact (clusterWork_of_takes dp env msg takes).2.2
  | false =>
      cases throws : dp.mgr.throwsOn dp.uri with
      | true =>
          have failed := clusterWork_of_throws dp env msg throws
          have result : (dp.sendMessage env msg).2 = some swartzOk := succeeds
          simp [clusterWork, result] at failed
      | false =>
          rw [(clusterWork_of_refuses dp env msg throws takes).1] at succeeds
          cases succeeds

theorem clusterWorkProc_served (rpc : Rpc) (mq : Env) (dp : Dp) (msg : Text) :
    (clusterWorkProc rpc mq dp msg).1 = none ∨
      (clusterWorkProc rpc mq dp msg).1 = some (clusterWork dp mq msg) := by
  cases rpc with
  | openThrows => exact .inl rfl
  | requestLost => exact .inl rfl
  | replyLost => exact .inr rfl
  | closeThrows => exact .inr rfl
  | completes => exact .inr rfl

theorem dispatchTo_sent {surroundings : Surroundings} {world : World} {node : DcNode}
    {msg : Text} {key : NodeKey}
    (dispatched : (dispatchTo surroundings world node msg).chain = some (key, some swartzOk)) :
    ∃ pPro, ((dispatchTo surroundings world node msg).world.nodes key).mgr.sent =
      (world.nodes key).mgr.sent ++ [(pPro, cString msg)] := by
  rcases clusterWorkProc_served surroundings.rpc surroundings.mq (world.nodes node.key) msg with
    unreached | serves
  · have noChain : (dispatchTo surroundings world node msg).chain = none := by
      simp only [dispatchTo, unreached]
      split <;> rfl
    rw [noChain] at dispatched
    cases dispatched
  · obtain ⟨chain, nodes⟩ := dispatchTo_of_served serves
    obtain ⟨rfl, succeeds⟩ := Prod.mk.inj (Option.some.inj (chain.symm.trans dispatched))
    rw [nodes]
    exact clusterWork_sent succeeds

theorem httpCallback_collects (surroundings : Surroundings) (outcome : PoolOutcome)
    (world : World) (request : HttpRequest) :
    (httpCallback surroundings outcome world request).chain = none ∨
      ∃ earlier, httpCallback surroundings outcome world request =
        (collectWorkProc surroundings world request).after earlier := by
  unfold httpCallback
  split
  · unfold workService
    split
    · exact .inl rfl
    · split
      · exact .inr ⟨[.access, .access, .access, .access, .access, .access], rfl⟩
      · exact .inl rfl
  · exact .inl rfl

section Payload

variable {surroundings : Surroundings} {outcome : PoolOutcome} {world : World}
  {request : HttpRequest} {characters : List Char} {key : NodeKey}

/-- The message of a dispatch that succeeded is the part before the first NUL. -/
theorem httpCallback_sent (reads : surroundings.json.Reads)
    (denotes : Denotes surroundings.json request characters)
    (dispatched : (httpCallback surroundings outcome world request).chain =
      some (key, some swartzOk)) :
    ∃ pPro, ((httpCallback surroundings outcome world request).world.nodes key).mgr.sent =
        (world.nodes key).mgr.sent ++ [(pPro, cString (utf8 characters))] ∧
      bytesMessage (cString (utf8 characters)) = cString (utf8 characters) := by
  rcases httpCallback_collects surroundings outcome world request with
    noChain | ⟨earlier, collects⟩
  · rw [noChain] at dispatched
    cases dispatched
  · rw [collects] at dispatched ⊢
    rcases @collectWorkProc_idle_or_dispatches surroundings world request with
      idle | ⟨node, text, dispatches⟩
    · cases idle.chain.symm.trans dispatched
    · obtain ⟨rfl, fits⟩ := dispatches.text_eq reads denotes
      rw [collectWorkProc_of_dispatches dispatches] at dispatched ⊢
      obtain ⟨pPro, sent⟩ := dispatchTo_sent dispatched
      rw [cString_cString] at sent
      refine ⟨pPro, sent, bytesMessage_of_fits ?_⟩
      exact (List.takeWhile_sublist _).length_le.trans fits

end Payload

/-- A request whose `indexCode` is a string, and whose message the broker took: the message
has the bytes of the string exactly if there is no NUL among its characters. -/
theorem payload_exact_iff (surroundings : Surroundings) (outcome : PoolOutcome) (world : World)
    (request : HttpRequest) (characters : List Char) (key : NodeKey)
    (reads : surroundings.json.Reads) (denotes : Denotes surroundings.json request characters)
    (dispatched : (httpCallback surroundings outcome world request).chain =
      some (key, some swartzOk)) :
    Passes world (httpCallback surroundings outcome world request) key (utf8 characters) ↔
      Char.ofNat 0 ∉ characters := by
  obtain ⟨pPro, sent, message⟩ := httpCallback_sent reads denotes dispatched
  rw [passes_iff sent, message, cString_eq_self_iff, nul_mem_utf8]

def collectString (source : Text) : HttpRequest :=
  { command := .post, host := some ['h'], uri := dcService
    body := ['\x7b', '"'] ++ indexCode ++ ['"', ':', '"'] ++ source ++ ['"', '\x7d'] }

/-- It arrives, the node answers, and CMS takes the message. -/
def stringArrives (source : Text) (characters : List Char) : Surroundings :=
  { json :=
      { parse := fun text =>
          if text = (collectString source).body then
            some (.object [(indexCode, .string (utf8 characters))])
          else none
        asserts := true
        misread := fun _ => none }
    ret := toInt (collectString source).body.length
    rpc := .completes
    mq := MqMgr.allSucceeds
    during := [] }

def brokerUp : World :=
  { oneNode with nodes := fun _ => (Dp.init MqMgr.allSucceeds ['h'] 1 ['q']).1 }

theorem stringArrives_reads {source : Text} {characters : List Char}
    (shrinks : (utf8 characters).length ≤ (collectString source).body.length) :
    (stringArrives source characters).json.Reads := by
  constructor
  · intro text rest first second parsed extended
    simp only [stringArrives, Option.ite_none_right_eq_some, Option.some.injEq] at parsed extended
    rw [← parsed.2, ← extended.2]
  · intro text members string parsed found
    simp only [stringArrives, Option.ite_none_right_eq_some, Option.some.injEq,
      Json.object.injEq] at parsed
    obtain ⟨rfl, rfl⟩ := parsed
    simp only [lookup_cons, ↓reduceIte, Option.some.injEq, Json.string.injEq] at found
    rw [← found]
    exact shrinks

theorem payload_exact_iff_one :
    (httpCallback (stringArrives ['1'] ['1']) (.accepted true) brokerUp
        (collectString ['1'])).chain = some (("10.0.0.2", 6002), some swartzOk) ∧
      Passes brokerUp
        (httpCallback (stringArrives ['1'] ['1']) (.accepted true) brokerUp (collectString ['1']))
        ("10.0.0.2", 6002) ['1'] := by
  have dispatched : (httpCallback (stringArrives ['1'] ['1']) (.accepted true) brokerUp
      (collectString ['1'])).chain = some (("10.0.0.2", 6002), some swartzOk) := by decide +kernel
  have denotes : Denotes (stringArrives ['1'] ['1']).json (collectString ['1']) ['1'] :=
    ⟨[(indexCode, .string ['1'])], rfl, rfl⟩
  refine ⟨dispatched, ?_⟩
  exact (payload_exact_iff _ _ _ _ ['1'] _ (stringArrives_reads (by decide)) denotes
    dispatched).mpr (by decide)

def escapedNul : Text := ['a', '\\', 'u', '0', '0', '0', '0', 'b']

def withNul : List Char := ['a', Char.ofNat 0, 'b']

/-- The string `"a\u0000b"` arrives at the broker as `a`. -/
theorem nulCharacter_truncates :
    ¬ ∀ (surroundings : Surroundings) (outcome : PoolOutcome) (world : World)
      (request : HttpRequest) (characters : List Char) (key : NodeKey),
      surroundings.json.Reads → Denotes surroundings.json request characters →
      (httpCallback surroundings outcome world request).chain = some (key, some swartzOk) →
      Passes world (httpCallback surroundings outcome world request) key (utf8 characters) := by
  intro always
  have dispatched : (httpCallback (stringArrives escapedNul withNul) (.accepted true) brokerUp
      (collectString escapedNul)).chain = some (("10.0.0.2", 6002), some swartzOk) := by
    decide +kernel
  have denotes : Denotes (stringArrives escapedNul withNul).json (collectString escapedNul)
      withNul := ⟨[(indexCode, .string withNul)], rfl, rfl⟩
  have reads := @stringArrives_reads escapedNul withNul (by decide)
  obtain ⟨pPro, sent, -⟩ := httpCallback_sent reads denotes dispatched
  have passes := always _ _ _ _ _ _ reads denotes dispatched
  have whole := (passes_iff sent _).mp passes
  revert whole
  decide

end DcCluster.Server
