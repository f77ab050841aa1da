import DcCluster.Rpc.Methods

/-!
A call over the wire against a call of the handler, a request that was cut, and what a
processor makes of any bytes at all.
-/

namespace DcCluster.Rpc

open DcCluster.Lib

section Messages

variable {protocol : TBinaryProtocol}

/-- A reader of this kind understands what it wrote itself. -/
structure TBinaryProtocol.Plain (protocol : TBinaryProtocol) : Prop where
  unlimited : protocol.stringLimit = 0
  agrees : protocol.strictWrite = true ∨ protocol.strictRead = false

def TMessageType.named : List TMessageType := [tCall, tReply, tException, tOneway]

theorem version_of_named {messageType : TMessageType}
    (known : messageType ∈ TMessageType.named) :
    (version1 ||| messageType) < 0 ∧ (version1 ||| messageType) &&& versionMask = version1 ∧
      (version1 ||| messageType) &&& 0xff = messageType ∧
      messageType.toInt8.toInt32 = messageType := by
  simp only [TMessageType.named, List.mem_cons, List.not_mem_nil, or_false] at known
  rcases known with rfl | rfl | rfl | rfl <;> decide

/-- What `writeMessageBegin` puts out for a name that is not too long. -/
def messageBegin (protocol : TBinaryProtocol) (name : Bytes) (messageType : TMessageType)
    (seqid : Int32) : Bytes :=
  if protocol.strictWrite then
    writeI32 (version1 ||| messageType) ++ (writeI32 (Int32.ofNat name.length) ++ name) ++
      writeI32 seqid
  else
    writeI32 (Int32.ofNat name.length) ++ name ++ writeByte messageType.toInt8 ++ writeI32 seqid

theorem writeMessageBegin_ok {name : Bytes} (writable : name.length ≤ int32Max)
    (messageType : TMessageType) (seqid : Int32) :
    writeMessageBegin protocol name messageType seqid =
      .ok (messageBegin protocol name messageType seqid) := by
  unfold writeMessageBegin messageBegin
  rw [writeString_ok writable]
  split
  next => rfl
  next => rfl

theorem readMessageBegin_decodes (plain : protocol.Plain) {name : Bytes}
    (writable : name.length ≤ int32Max) (messageType : TMessageType)
    (known : messageType ∈ TMessageType.named) (seqid : Int32) :
    Decodes (readMessageBegin protocol) (messageBegin protocol name messageType seqid)
      { name := name, messageType := messageType, seqid := seqid } := by
  obtain ⟨negative, version, type, byte⟩ := version_of_named known
  have fits := stringFits_of_unlimited plain.unlimited writable
  unfold messageBegin
  split
  next strict =>
    rw [List.append_assoc]
    refine (readI32_writeI32 _).bind ?_
    rw [if_pos negative, if_neg (not_not_intro version), type]
    exact (readString_decodes fits).bind ((readI32_writeI32 seqid).bind_pure fun seqid =>
      ({ name := name, messageType := messageType, seqid := seqid } : MessageBegin))
  next lax =>
    have lenient : ¬ protocol.strictRead = true := by
      rcases plain.agrees with strict | lenient
      · exact absurd strict lax
      · rw [lenient]
        exact Bool.false_ne_true
    rw [List.append_assoc, List.append_assoc]
    refine (readI32_writeI32 _).bind ?_
    rw [if_neg (ofNat_nonneg writable), if_neg lenient]
    refine (readStringBody_decodes fits).bind ((readByte_writeByte _).bind ?_)
    rw [byte]
    exact (readI32_writeI32 seqid).bind_pure fun seqid =>
      ({ name := name, messageType := messageType, seqid := seqid } : MessageBegin)

/-- The protocol that both programs make with the one-argument constructor. -/
theorem plain_default : TBinaryProtocol.Plain {} := ⟨rfl, .inl rfl⟩

end Messages

section Method

variable {protocol : TBinaryProtocol} {args result σ : Type}

/-- What is known of the generated code of a method: `received` is what arrives of arguments
that were written, and `writable` tells when they can be. -/
structure Method.Sound (method : Method args result) (received : args → args)
    (writable : args → Prop) : Prop where
  named : method.name.length ≤ int32Max
  refusesLong : ∀ request, ¬ writable request → method.writeArgs request = .error .sizeLimit
  writesArgs : ∀ request, writable request → ∃ bytes, method.writeArgs request = .ok bytes ∧
    Decodes method.readArgs bytes (received request)
  readsResult : ∀ value : result,
    Decodes method.readResult (method.writeResult { value := value, isset := true })
      { value := value, isset := true }
  framedArgs : Framed method.readArgs
  framedResult : Framed method.readResult

/-- What the caller sees of the end of a handler. -/
def outcome (unanswered : TException) : Except Thrown result → Except TException result
  | .ok value => .ok value
  | .error (.stdException _) => .error .application
  | .error .other => .error unanswered

variable {method : Method args result} {received : args → args} {writable : args → Prop}

theorem Method.Sound.send_eq (sound : method.Sound received writable)
    (protocol : TBinaryProtocol) {request : args} (fits : writable request) :
    ∃ bytes, method.send protocol request =
        .ok (messageBegin protocol method.name tCall 0 ++ bytes) ∧
      Decodes method.readArgs bytes (received request) := by
  obtain ⟨bytes, written, reads⟩ := sound.writesArgs request fits
  refine ⟨bytes, ?_, reads⟩
  unfold Method.send
  rw [writeMessageBegin_ok sound.named, written]
  rfl

theorem Method.Sound.send_error (sound : method.Sound received writable) {request : args}
    (long : ¬ writable request) : method.send protocol request = .error .sizeLimit := by
  unfold Method.send
  rw [writeMessageBegin_ok sound.named, sound.refusesLong request long]
  rfl

theorem Method.Sound.recv_reply (sound : method.Sound received writable)
    (plain : protocol.Plain) (seqid : Int32) (value : result) :
    Decodes (method.recv protocol)
      (messageBegin protocol method.name tReply seqid ++
        method.writeResult { value := value, isset := true }) value := by
  refine (readMessageBegin_decodes plain sound.named tReply (by decide) seqid).bind ?_
  have reply : tReply ≠ tException := by decide
  have right : skipStructIf protocol (method.name ≠ method.name) = pure () :=
    if_neg (by simp)
  have typed : skipStructIf protocol (tReply ≠ tReply) = pure () := if_neg (by simp)
  dsimp only
  rw [if_neg reply, right, typed]
  intro rest
  rw [Decoder.bind_ok (Decoder.pure_run () _), Decoder.bind_ok (Decoder.pure_run () _),
    Decoder.bind_ok (sound.readsResult value rest)]
  rfl

theorem Method.Sound.recv_exception (sound : method.Sound received writable)
    (plain : protocol.Plain) (seqid : Int32) (more : Bytes) :
    Refuses (method.recv protocol) (messageBegin protocol method.name tException seqid ++ more)
      .application := by
  refine (readMessageBegin_decodes plain sound.named tException (by decide) seqid).bind_refuses ?_
  rw [if_pos rfl]
  exact (Refuses.fail TException.application).append more

variable {writeException : TApplicationException → Bytes}
variable {processMap : List (Bytes × Process σ)} {handler : Handler σ args result}

theorem serveMessage_of_decodes {state : σ} {message : Bytes} {processed : Processed σ}
    (reads : Decodes (processMessage protocol writeException processMap state) message processed)
    (rest : Bytes) :
    serveMessage protocol writeException processMap state (message ++ rest) = processed.sent := by
  unfold serveMessage
  rw [reads rest]

theorem processMessage_call (plain : protocol.Plain) (named : method.name.length ≤ int32Max)
    (served : processMap.lookup method.name =
      some (method.process protocol writeException handler))
    {messageType : TMessageType} (calls : messageType = tCall ∨ messageType = tOneway)
    (seqid : Int32) {bytes : Bytes} {request : args}
    (reads : Decodes method.readArgs bytes request) (state : σ) :
    Decodes (processMessage protocol writeException processMap state)
      (messageBegin protocol method.name messageType seqid ++ bytes)
      (method.handled protocol writeException handler seqid state request) := by
  have known : messageType ∈ TMessageType.named := by
    rcases calls with rfl | rfl <;> decide
  have valid : ¬ (messageType ≠ tCall ∧ messageType ≠ tOneway) := by
    rcases calls with rfl | rfl <;> decide
  refine (readMessageBegin_decodes plain named messageType known seqid).bind ?_
  rw [if_neg valid]
  unfold dispatchCall
  rw [served]
  exact reads.bind_pure _

theorem Method.Sound.recv_handled (sound : method.Sound received writable)
    (plain : protocol.Plain) (unanswered : TException) (seqid : Int32) (state : σ)
    (request : args) :
    (match (method.handled protocol writeException handler seqid state request).sent with
      | (state, some reply) => (state, (method.recv protocol reply).map Prod.fst)
      | (state, none) => (state, .error unanswered)) =
      ((handler state request).1, outcome unanswered (handler state request).2) := by
  unfold Method.handled
  obtain ⟨next, ended⟩ := handler state request
  cases ended with
  | ok value =>
      dsimp only [outcome]
      rw [writeMessageBegin_ok sound.named]
      dsimp only [Processed.sent, written_ok_append]
      rw [(sound.recv_reply plain seqid value).exact]
      rfl
  | error thrown =>
      cases thrown with
      | stdException what =>
          dsimp only [outcome, exceptionReply]
          rw [writeMessageBegin_ok sound.named]
          dsimp only [Processed.sent, written_ok_append]
          have refused := sound.recv_exception plain seqid
            (writeException { type := .unknown, message := what }) []
          rw [List.append_nil] at refused
          rw [refused]
          rfl
      | other => rfl

/-- A call over the wire runs the handler once on what was sent and ends the way it ended, or
does not leave the client because a string is too long. -/
theorem Method.Sound.call_eq [DecidablePred writable] (sound : method.Sound received writable)
    (plain : protocol.Plain)
    (served : processMap.lookup method.name =
      some (method.process protocol writeException handler)) (unanswered : TException)
    (state : σ) (request : args) :
    method.call protocol writeException unanswered processMap state request =
      if writable request then
        ((handler state (received request)).1,
          outcome unanswered (handler state (received request)).2)
      else (state, .error .sizeLimit) := by
  unfold Method.call
  by_cases fits : writable request
  · obtain ⟨bytes, written, reads⟩ := sound.send_eq protocol fits
    have decodes := processMessage_call plain sound.named served (.inl rfl) 0 reads state
    have once := serveMessage_of_decodes decodes []
    rw [List.append_nil] at once
    rw [written, if_pos fits]
    dsimp only
    rw [once]
    exact sound.recv_handled plain unanswered 0 state (received request)
  · rw [sound.send_error fits, if_neg fits]

theorem framed_process (framed : Framed method.readArgs) (seqid : Int32) (state : σ) :
    Framed (method.process protocol writeException handler seqid state) :=
  framed.bind fun _ => Streaming.pure _ _

theorem framed_processMessage
    (framed : ∀ entry ∈ processMap, ∀ seqid state, Framed (entry.2 seqid state)) (state : σ) :
    Framed (processMessage protocol writeException processMap state) := by
  refine (framed_readMessageBegin protocol).bind fun call => ?_
  split
  next => exact Streaming.pure _ _
  next =>
    unfold dispatchCall
    split
    next => exact (framed_skip protocol _ _).bind fun _ => Streaming.pure _ _
    next process found =>
      obtain ⟨first, second, split, _⟩ := List.lookup_eq_some_iff.mp found
      exact framed (call.name, process) (by rw [split]; simp) call.seqid state

/-- Every reply of such a process starts with the name and the number of its call. -/
def AnswersAs (protocol : TBinaryProtocol) (name : Bytes) (process : Process σ) : Prop :=
  ∀ seqid state input processed rest reply, process seqid state input = .ok (processed, rest) →
    processed.reply = some (.ok reply) →
      ∃ messageType body, (messageType = tReply ∨ messageType = tException) ∧
        reply = messageBegin protocol name messageType seqid ++ body

theorem process_answersAs (named : method.name.length ≤ int32Max) :
    AnswersAs protocol method.name (method.process protocol writeException handler) := by
  intro seqid state input processed rest reply taken answered
  obtain ⟨request, left, _, ends⟩ := Decoder.of_bind_ok taken
  cases ends
  unfold Method.handled at answered
  split at answered
  next =>
    rw [writeMessageBegin_ok named] at answered
    cases answered
    exact ⟨tReply, _, .inl rfl, rfl⟩
  next =>
    dsimp only [exceptionReply] at answered
    rw [writeMessageBegin_ok named] at answered
    cases answered
    exact ⟨tException, _, .inr rfl, rfl⟩
  next => cases answered

theorem dispatchCall_answersAs {call : MessageBegin} (named : call.name.length ≤ int32Max)
    (answers : ∀ entry ∈ processMap, AnswersAs protocol entry.1 entry.2) :
    AnswersAs protocol call.name fun seqid state =>
      dispatchCall protocol writeException processMap call.name seqid state := by
  intro seqid state input processed rest reply taken answered
  dsimp only at taken
  unfold dispatchCall at taken
  cases found : processMap.lookup call.name with
  | none =>
      rw [found] at taken
      obtain ⟨skipped, left, _, ends⟩ := Decoder.of_bind_ok taken
      cases ends
      dsimp only [exceptionReply] at answered
      rw [writeMessageBegin_ok named] at answered
      cases answered
      exact ⟨tException, _, .inr rfl, rfl⟩
  | some process =>
      rw [found] at taken
      obtain ⟨first, second, split, _⟩ := List.lookup_eq_some_iff.mp found
      have listed : (call.name, process) ∈ processMap := by
        rw [split]
        simp
      exact answers _ listed seqid state input processed rest reply taken answered

/-- The reply answers the call that was read: it carries that call's name and number. -/
def Echoes (protocol : TBinaryProtocol) (input reply : Bytes) : Prop :=
  ∃ call rest messageType body, readMessageBegin protocol input = .ok (call, rest) ∧
    (call.messageType = tCall ∨ call.messageType = tOneway) ∧
    (messageType = tReply ∨ messageType = tException) ∧
    readMessageBegin protocol reply =
      .ok ({ name := call.name, messageType := messageType, seqid := call.seqid }, body)

theorem reply_echoes (plain : protocol.Plain)
    (answers : ∀ entry ∈ processMap, AnswersAs protocol entry.1 entry.2) {state next : σ}
    {input reply : Bytes}
    (served : serveMessage protocol writeException processMap state input = (next, some reply)) :
    Echoes protocol input reply := by
  unfold serveMessage at served
  split at served
  next processed rest taken =>
    obtain ⟨call, left, begun, follows⟩ := Decoder.of_bind_ok taken
    split at follows
    next =>
      cases follows
      cases served
    next valid =>
      have named := readMessageBegin_name protocol begun
      have answered : processed.reply = some (.ok reply) := by
        unfold Processed.sent at served
        split at served
        next sent =>
          cases served
          exact sent
        next => cases served
      obtain ⟨messageType, body, known, same⟩ := dispatchCall_answersAs named answers call.seqid
        state left processed rest reply follows answered
      refine ⟨call, left, messageType, body, begun, ?_, known, ?_⟩
      · by_contra neither
        exact valid (not_or.mp neither)
      · rw [same]
        have listed : messageType ∈ TMessageType.named := by
          rcases known with rfl | rfl <;> decide
        exact readMessageBegin_decodes plain named messageType listed call.seqid body
  next => cases served

/-- Of a message that was cut anywhere, the reads throw before a handler runs. -/
theorem processMessage_cut
    (framed : ∀ entry ∈ processMap, ∀ seqid state, Framed (entry.2 seqid state)) {state : σ}
    {kept lost : Bytes} {processed : Processed σ}
    (reads : Decodes (processMessage protocol writeException processMap state) (kept ++ lost)
      processed) (cut : lost ≠ []) :
    processMessage protocol writeException processMap state kept = .error .endOfFile ∧
      serveMessage protocol writeException processMap state kept = (state, none) := by
  have thrown := (framed_processMessage framed state).cut reads cut
  refine ⟨thrown, ?_⟩
  unfold serveMessage
  rw [thrown]

end Method

section Members

variable {protocol : TBinaryProtocol}

theorem readOneField_written {α β : Type} {id : Int16} {expected : TType}
    {readField : Nat → α → Reader α} {pick : Int16 × Value → Option β} {merge : α → β → α}
    (reads : Reads protocol id expected readField 63 pick merge) (value : Value) {found : β}
    (picked : pick (id, value) = some found) (fits : value.Fits protocol)
    (shallow : value.depth ≤ 63) (struct : OneField α) :
    Decodes (struct.read protocol id expected readField recursionLimit)
      (writeFieldBegin value.type id ++ value.encode ++ writeFieldStop)
      { value := merge struct.value found, isset := true } := by
  have decodes := readOneField_fields reads struct [(id, value)] ⟨fits, trivial⟩
    (by simpa [depthFields] using shallow)
  have updated : struct.updatedBy pick merge [(id, value)] =
      { value := merge struct.value found, isset := true } := by
    simp [OneField.updatedBy, picked]
  rw [updated] at decodes
  exact decodes

theorem framed_args {α : Type} {id : Int16} {expected : TType} {readField : Nat → α → Reader α}
    (framed : ∀ depth old, Framed (readField depth old)) (struct : OneField α) :
    Framed (do
      let args ← struct.read protocol id expected readField recursionLimit
      pure args.value) :=
  (framed_readOneField framed recursionLimit struct).bind fun _ => Streaming.pure _ _

/-- The args structs of `registClient` and `heartbeat`. -/
theorem nodeInfo_sent (plain : protocol.Plain) {request : NodeInfo}
    (writable : request.Writable) :
    ∃ bytes, writeArgs .struct request.write = .ok bytes ∧
      Decodes (do
        let args ← OneField.read protocol 1 .struct (NodeInfo.read protocol) recursionLimit
          { value := {} }
        pure args.value) bytes request.received := by
  have fits : (Value.struct request.fields).Fits protocol :=
    NodeInfo.fits_fields writable plain.unlimited
  have shallow : (Value.struct request.fields).depth ≤ 63 := by
    simp only [Value.depth, request.depth_fields]
    decide
  have reads := (readOneField_written reads_nodeInfo (.struct request.fields) rfl fits shallow
    { value := {} }).bind_pure OneField.value
  rw [NodeInfo.updatedBy_fields] at reads
  refine ⟨_, ?_, reads⟩
  unfold writeArgs
  rw [NodeInfo.write_eq, if_pos writable]
  rfl

theorem nodeInfo_refused {request : NodeInfo} (long : ¬ request.Writable) :
    writeArgs .struct request.write = .error .sizeLimit := by
  unfold writeArgs
  rw [NodeInfo.write_eq, if_neg long]
  rfl

theorem boolResult_back (value : Bool) :
    Decodes (OneField.read protocol 0 .bool (fun _ _ => readBool) recursionLimit
      { value := false }) (writeResult .bool writeBool { value := value, isset := true })
      { value := value, isset := true } := by
  have shallow : (Value.bool value).depth ≤ 63 := by
    simp [Value.depth]
  exact readOneField_written reads_bool (.bool value) rfl trivial shallow _

theorem registClient_sound (plain : protocol.Plain) :
    (registClient protocol).Sound NodeInfo.received NodeInfo.Writable where
  named := (by decide : registClientName.length ≤ int32Max)
  refusesLong _ long := nodeInfo_refused long
  writesArgs _ writable := nodeInfo_sent plain writable
  readsResult value := by
    have shallow : (Value.i32 value).depth ≤ 63 := by
      simp [Value.depth]
    exact readOneField_written reads_i32 (.i32 value) rfl trivial shallow _
  framedArgs := framed_args (fun depth old => framed_readNodeInfo depth old) _
  framedResult := framed_readOneField (fun _ _ => framed_readI32) recursionLimit _

theorem heartbeat_sound (plain : protocol.Plain) :
    (heartbeat protocol).Sound NodeInfo.received NodeInfo.Writable where
  named := (by decide : heartbeatName.length ≤ int32Max)
  refusesLong _ long := nodeInfo_refused long
  writesArgs _ writable := nodeInfo_sent plain writable
  readsResult := boolResult_back
  framedArgs := framed_args (fun depth old => framed_readNodeInfo depth old) _
  framedResult := framed_readOneField (fun _ _ => framed_readBool) recursionLimit _

theorem clusterWork_sound (plain : protocol.Plain) :
    (clusterWork protocol).Sound id fun msg => msg.length ≤ int32Max where
  named := (by decide : clusterWorkName.length ≤ int32Max)
  refusesLong msg long := by
    show writeArgs .string (writeString msg) = _
    rw [writeString_error long]
    rfl
  writesArgs msg writable := by
    have fits : (Value.string msg).Fits protocol :=
      stringFits_of_unlimited plain.unlimited writable
    have shallow : (Value.string msg).depth ≤ 63 := by
      simp [Value.depth]
    have reads := (readOneField_written reads_string (.string msg) rfl fits shallow
      { value := [] }).bind_pure OneField.value
    refine ⟨_, ?_, reads⟩
    show writeArgs .string (writeString msg) = _
    rw [writeString_ok writable]
    rfl
  readsResult := boolResult_back
  framedArgs := framed_args (fun _ _ => framed_readString protocol) _
  framedResult := framed_readOneField (fun _ _ => framed_readBool) recursionLimit _

end Members

end DcCluster.Rpc
