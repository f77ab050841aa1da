import DcCluster.Mq.ProducerCache

/-!
What `MqMgr_SendMsg` returns, read off the state before the call: it throws, it
hands the message to a CMS producer and returns 0, or it returns -1.
-/

namespace DcCluster.Mq.MqMgr

open DcCluster.Lib

def sessionFor (mgr : MqMgr) (env : Env) (strMqSvr : Text) : Option Nat :=
  match mgr.findConn strMqSvr with
  | some conn => conn.pSession
  | none => if env.newConnection && env.conn then some mgr.nextSession else none

/-- The producer behind the URI, cached or still to be created, has a session and a
CMS producer. -/
def attached (mgr : MqMgr) (env : Env) (strUrl : Text) : Bool :=
  match mgr.findProcucer strUrl with
  | some pPro =>
      (mgr.producerAt pPro).any fun producer =>
        producer.pSession.isSome && producer.pHandle.isSome
  | none =>
      match parseMqUri strUrl with
      | .ok strMqSvr _ _ =>
          env.newEndpoint && (mgr.sessionFor env strMqSvr).isSome &&
            decide (env.create mgr.nextPtr = .created)
      | _ => false

def takesMessage (mgr : MqMgr) (env : Env) (strUrl : Text) : Bool :=
  mgr.attached env strUrl && env.createBytesMessage && env.send

/-- `ParseMqUri` leaves `MqMgr_SendMsg` by an exception. -/
def throwsOn (mgr : MqMgr) (strUrl : Text) : Bool :=
  (mgr.findProcucer strUrl).isNone && decide (parseMqUri strUrl = .outOfRange)

theorem producerAt_ptr {mgr : MqMgr} {ptr : Nat} {producer : MqProducer}
    (here : mgr.producerAt ptr = some producer) : producer.ptr = ptr := by
  simpa using List.find?_some here

theorem WellFormed.ptr_lt {mgr : MqMgr} (wellFormed : mgr.WellFormed) {entry : Text × MqConnection}
    (member : entry ∈ mgr.mapConn) {producer : MqProducer}
    (listed : producer ∈ entry.2.listProducer) : producer.ptr < mgr.nextPtr := by
  have isLive : producer.ptr ∈ mgr.live :=
    List.mem_flatMap.mpr ⟨entry, member,
      List.mem_append_left _ (List.mem_map_of_mem listed)⟩
  exact List.mem_range.mp (wellFormed.objects.mem_iff.mp (List.mem_append_right _ isLive))

theorem producerAt_withProducer {mgr : MqMgr} (wellFormed : mgr.WellFormed) (env : Env)
    (strUrl : Text) {strMqSvr : Text} (strDst : Text) (nMode : MqMsgMode) {conn : MqConnection}
    (found : mgr.findConn strMqSvr = some conn) :
    (mgr.withProducer env strUrl strMqSvr strDst nMode conn).producerAt mgr.nextPtr =
      some ((MqEndpoint.new mgr.nextPtr strDst nMode).create (env.create mgr.nextPtr)
        conn.pSession) := by
  have owned : (mgr.withProducer env strUrl strMqSvr strDst nMode conn).Owns strMqSvr
      mgr.nextPtr := by
    refine ⟨conn.addProducer env mgr.nextPtr strDst nMode, ?_, ?_⟩
    · have changed := congrFun (findConn_setConn (conn.addProducer env mgr.nextPtr strDst nMode)
        found) strMqSvr
      rw [Function.update_self] at changed
      exact changed
    · simp [MqConnection.addProducer, MqEndpoint.new]
  obtain ⟨producer, here⟩ := Option.isSome_iff_exists.mp owned.producerAt
  have sameIdentity := producerAt_ptr here
  rw [here]
  have listed := List.mem_of_find?_eq_some here
  obtain ⟨entry, member, inList⟩ := List.mem_flatMap.mp listed
  -- the entry is the changed connection or one that was there before
  have parts := modifyFirst_perm (fun entry => entry.1 = strMqSvr)
    (fun entry => (entry.1, conn.addProducer env mgr.nextPtr strDst nMode)) mgr.mapConn
  rw [find?_of_lookup found] at parts
  rcases List.mem_append.mp (parts.mem_iff.mp member) with changed | kept
  · obtain rfl : entry = (strMqSvr, conn.addProducer env mgr.nextPtr strDst nMode) := by
      simpa using changed
    rcases List.mem_append.mp inList with old | new
    · have before : (strMqSvr, conn) ∈ mgr.mapConn :=
        List.mem_of_find?_eq_some (find?_of_lookup found)
      have bound := wellFormed.ptr_lt before old
      omega
    · rw [List.mem_singleton.mp new]
  · have bound := wellFormed.ptr_lt (List.mem_of_mem_eraseP kept) inList
    omega

theorem addConnection_sent (mgr : MqMgr) (env : Env) (strMqSvr : Text) :
    (mgr.addConnection env strMqSvr).1.sent = mgr.sent := by
  unfold addConnection
  split
  · rfl
  · split <;> rfl

theorem addConnection_session (mgr : MqMgr) (env : Env) (strMqSvr : Text) :
    (mgr.addConnection env strMqSvr).2.bind (·.pSession) = mgr.sessionFor env strMqSvr := by
  unfold addConnection sessionFor
  cases mgr.findConn strMqSvr with
  | some conn => rfl
  | none => cases env.newConnection <;> cases env.conn <;> rfl

theorem addNewProducer_spec {mgr : MqMgr} (wellFormed : mgr.WellFormed) (env : Env)
    (strUrl strMqSvr strDst : Text) (nMode : MqMsgMode) :
    (mgr.addNewProducer env strUrl strMqSvr strDst nMode).1.sent = mgr.sent ∧
      (((env.newEndpoint && (mgr.sessionFor env strMqSvr).isSome) = false ∧
          (mgr.addNewProducer env strUrl strMqSvr strDst nMode).2 = none) ∨
        (env.newEndpoint = true ∧
          (mgr.addNewProducer env strUrl strMqSvr strDst nMode).2 = some mgr.nextPtr ∧
          (mgr.addNewProducer env strUrl strMqSvr strDst nMode).1.producerAt mgr.nextPtr =
            some ((MqEndpoint.new mgr.nextPtr strDst nMode).create (env.create mgr.nextPtr)
              (mgr.sessionFor env strMqSvr)))) := by
  have session := mgr.addConnection_session env strMqSvr
  have sameSent := mgr.addConnection_sent env strMqSvr
  obtain ⟨base, pConn, connected, extension, found⟩ := mgr.addConnection_spec env strMqSvr
  rw [connected] at session sameSent
  unfold addNewProducer
  rw [connected]
  cases pConn with
  | none =>
      rw [← session]
      exact ⟨sameSent, .inl ⟨by simp, rfl⟩⟩
  | some conn =>
      simp only
      split
      next allocated =>
        have placed := producerAt_withProducer (extension.wellFormed wellFormed) env strUrl strDst
          nMode (found conn rfl)
        rw [← session, ← extension.nextPtr]
        exact ⟨sameSent, .inr ⟨allocated, rfl, placed⟩⟩
      next failed => exact ⟨sameSent, .inl ⟨by simp [failed], rfl⟩⟩

theorem create_sends (ptr : Nat) (strName : Text) (nMode : MqMsgMode) (outcome : CreateOutcome)
    (session : Option Nat) (env : Env) :
    ((MqEndpoint.new ptr strName nMode).create outcome session).sends env =
      (session.isSome && decide (outcome = .created) && env.createBytesMessage && env.send) := by
  cases session <;> cases outcome <;>
    simp [MqEndpoint.new, MqEndpoint.create, MqEndpoint.sends]

theorem sendThrough_spec {mgr : MqMgr} {pPro : Nat} {producer : MqProducer}
    (here : mgr.producerAt pPro = some producer) (env : Env) (strMsg : Text) :
    (producer.sends env = true ∧ (mgr.sendThrough env pPro strMsg).2 = .code 0 ∧
        (mgr.sendThrough env pPro strMsg).1.sent = mgr.sent ++ [(pPro, strMsg)]) ∨
      (producer.sends env = false ∧ (mgr.sendThrough env pPro strMsg).2 = .code (-1)) := by
  unfold sendThrough
  rw [here]
  cases taken : producer.sends env with
  | true => simp [taken]
  | false => simp [taken]

structure SendsAs (mgr : MqMgr) (env : Env) (strUrl strMsg : Text) : Prop where
  throws : mgr.throwsOn strUrl = true → (mgr.sendMsg env strUrl strMsg).2 = .outOfRange
  takes : mgr.takesMessage env strUrl = true → (mgr.sendMsg env strUrl strMsg).2 = .code 0 ∧
    ∃ pPro, (mgr.sendMsg env strUrl strMsg).1.sent = mgr.sent ++ [(pPro, strMsg)]
  refuses : mgr.throwsOn strUrl = false → mgr.takesMessage env strUrl = false →
    (mgr.sendMsg env strUrl strMsg).2 = .code (-1)

theorem SendsAs.through {mgr base : MqMgr} {env : Env} {strUrl strMsg : Text} {pPro : Nat}
    {producer : MqProducer}
    (result : mgr.sendMsg env strUrl strMsg = base.sendThrough env pPro strMsg)
    (sameSent : base.sent = mgr.sent) (here : base.producerAt pPro = some producer)
    (noThrow : mgr.throwsOn strUrl = false)
    (taken : mgr.takesMessage env strUrl = producer.sends env) : mgr.SendsAs env strUrl strMsg := by
  refine ⟨by simp [noThrow], fun takes => ?_, fun _ refuses => ?_⟩
  · rw [result]
    rcases sendThrough_spec here env strMsg with ⟨_, code, sent⟩ | ⟨refused, _⟩
    · exact ⟨code, pPro, by rw [sent, sameSent]⟩
    · simp [taken, refused] at takes
  · rw [result]
    rcases sendThrough_spec here env strMsg with ⟨accepted, _, _⟩ | ⟨_, code⟩
    · simp [taken, accepted] at refuses
    · exact code

theorem sendMsg_of_cached {mgr : MqMgr} (coherent : mgr.Coherent) {strUrl : Text} {pPro : Nat}
    (cached : mgr.findProcucer strUrl = some pPro) (env : Env) (strMsg : Text) :
    mgr.SendsAs env strUrl strMsg := by
  obtain ⟨_, _, _, _, _, owned⟩ := coherent _ (mem_cache_of_findProcucer cached)
  obtain ⟨producer, here⟩ := Option.isSome_iff_exists.mp owned.producerAt
  refine @SendsAs.through mgr mgr env strUrl strMsg pPro producer ?_ rfl here ?_ ?_
  · simp only [sendMsg, cached]
  · simp [throwsOn, cached]
  · simp only [takesMessage, attached, cached, here, Option.any_some, MqEndpoint.sends]
    cases producer.pSession.isSome <;> cases producer.pHandle.isSome <;> simp

theorem sendMsg_of_uncached {mgr : MqMgr} (wellFormed : mgr.WellFormed) {strUrl : Text}
    (uncached : mgr.findProcucer strUrl = none) (env : Env) (strMsg : Text) :
    mgr.SendsAs env strUrl strMsg := by
  cases parsed : parseMqUri strUrl with
  | fail =>
      refine ⟨?_, ?_, ?_⟩ <;>
        simp [throwsOn, takesMessage, attached, sendMsg, addProducer, uncached, parsed]
  | outOfRange =>
      refine ⟨?_, ?_, ?_⟩ <;>
        simp [throwsOn, takesMessage, attached, sendMsg, addProducer, uncached, parsed]
  | ok strMqSvr strDst nMode =>
      have noThrow : mgr.throwsOn strUrl = false := by simp [throwsOn, parsed]
      obtain ⟨sameSent, ⟨noProducer, null⟩ | ⟨allocated, pointer, here⟩⟩ :=
        addNewProducer_spec wellFormed env strUrl strMqSvr strDst nMode
      · have refused : mgr.takesMessage env strUrl = false := by
          simp [takesMessage, attached, uncached, parsed, noProducer]
        refine ⟨by simp [noThrow], by simp [refused], fun _ _ => ?_⟩
        simp only [sendMsg, addProducer, uncached, parsed, null]
      · refine SendsAs.through ?_ sameSent here noThrow ?_
        · simp only [sendMsg, addProducer, uncached, parsed, pointer]
        · rw [create_sends]
          simp [takesMessage, attached, uncached, parsed, allocated]

/-- How `MqMgr_SendMsg` ends is decided by the state before the call and by the
environment. -/
theorem sendMsg_spec {mgr : MqMgr} (wellFormed : mgr.WellFormed) (coherent : mgr.Coherent)
    (env : Env) (strUrl strMsg : Text) : mgr.SendsAs env strUrl strMsg := by
  cases cached : mgr.findProcucer strUrl with
  | some pPro => exact sendMsg_of_cached coherent cached env strMsg
  | none => exact sendMsg_of_uncached wellFormed cached env strMsg

end DcCluster.Mq.MqMgr
