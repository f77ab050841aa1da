import DcCluster.Mq.ReconnectLoopCore
import DcCluster.Mq.Registrations

/-!
Reconnecting keeps what is registered. However the calls into CMS end, a pass of the
loop first clears every pointer of the connection and of its producers and consumers,
and then attaches all of them to the session of this attempt or none.
-/

namespace DcCluster.Mq

open DcCluster.Lib

namespace MqEndpoint

def identity (endpoint : MqEndpoint) : Nat × Text × MqMsgMode :=
  (endpoint.ptr, endpoint.strName, endpoint.nMode)

def Uses (pSession : Option Nat) (endpoint : MqEndpoint) : Prop :=
  endpoint.pSession = pSession ∧
    (endpoint.pDestination = none ∨ endpoint.pDestination = pSession) ∧
    (endpoint.pHandle = none ∨ endpoint.pHandle = pSession)

theorem always_createOutcome (pSession : Nat) (endpoint : MqEndpoint)
    (released : endpoint = endpoint.destroy) :
    Always (fun outcome => (endpoint.create outcome (some pSession)).Uses (some pSession))
      createOutcome := by
  have noHandle : endpoint.pHandle = none := by rw [released]; rfl
  have noDestination : endpoint.pDestination = none := by rw [released]; rfl
  refine always_ask fun made => always_ite (fun _ => ?_) fun _ => ?_
  · refine always_ask fun opened => always_ite (fun _ => ?_) fun _ => ?_
    · refine always_ask fun _ => always_pure ?_
      exact ⟨rfl, .inr rfl, .inr rfl⟩
    · exact always_pure ⟨rfl, .inr rfl, .inl noHandle⟩
  · exact always_pure ⟨rfl, .inl noDestination, .inl noHandle⟩

theorem always_createCalls (pSession : Option Nat) {endpoint : MqEndpoint}
    (released : endpoint = endpoint.destroy) :
    Always (fun new => new.identity = endpoint.identity ∧ new.Uses pSession)
      (endpoint.createCalls pSession) := by
  cases pSession with
  | none =>
      refine always_pure ⟨rfl, ?_⟩
      rw [released]
      exact ⟨rfl, .inl rfl, .inl rfl⟩
  | some session =>
      refine always_bind (always_createOutcome session endpoint released) fun outcome uses => ?_
      exact always_pure ⟨by simp [identity], uses⟩

theorem always_deletePtr (pointer : Option Nat) : Always (· = none) (deletePtr pointer) := by
  cases pointer with
  | none => exact always_pure rfl
  | some _ => exact always_ask fun _ => always_pure rfl

theorem always_closePtr (pointer : Option Nat) : Always (· = none) (closePtr pointer) := by
  cases pointer with
  | none => exact always_pure rfl
  | some _ =>
      refine always_ask fun closed => always_ite (fun _ => ?_) fun _ => ?_
      · exact always_ask fun _ => always_pure rfl
      · exact always_pure rfl

theorem always_destroyCalls (endpoint : MqEndpoint) :
    Always (fun new => new.identity = endpoint.identity ∧ new = new.destroy)
      endpoint.destroyCalls := by
  have nulled : Always (· = (none, none)) (releaseDst endpoint.pDestination endpoint.pHandle) := by
    refine always_bind (always_deletePtr _) fun pdst noDst => ?_
    refine always_bind (always_closePtr _) fun pCp noCp => ?_
    exact always_pure (by rw [noDst, noCp])
  refine always_bind nulled fun pointers areNull => ?_
  subst pointers
  exact always_pure ⟨rfl, rfl⟩

end MqEndpoint

namespace MqConsumer

def identity (consumer : MqConsumer) : (Nat × Text × MqMsgMode) × Nat × Nat :=
  (consumer.toMqEndpoint.identity, consumer.pMsgCb, consumer.pUser)

theorem always_createCalls (pSession : Option Nat) {consumer : MqConsumer}
    (released : consumer.toMqEndpoint = consumer.toMqEndpoint.destroy) :
    Always (fun new => new.identity = consumer.identity ∧ new.toMqEndpoint.Uses pSession)
      (consumer.createCalls pSession) := by
  refine always_bind (MqEndpoint.always_createCalls pSession released) fun endpoint made => ?_
  exact always_pure ⟨by rw [identity, identity, made.1], made.2⟩

theorem always_destroyCalls (consumer : MqConsumer) :
    Always (fun new => new.identity = consumer.identity ∧
      new.toMqEndpoint = new.toMqEndpoint.destroy) consumer.destroyCalls := by
  refine always_bind consumer.toMqEndpoint.always_destroyCalls fun endpoint made => ?_
  exact always_pure ⟨by rw [identity, identity, made.1], made.2⟩

end MqConsumer

namespace ConnMembers

/-- What `AddProducer` and `AddConsumer` registered: the objects in their order, with their
names and modes and the callbacks and user pointers of the consumers. -/
def registrations (members : ConnMembers) :
    List (Nat × Text × MqMsgMode) × List ((Nat × Text × MqMsgMode) × Nat × Nat) :=
  (members.listProducer.map MqEndpoint.identity, members.listConsumer.map MqConsumer.identity)

/-- Every pointer is `NULL`. -/
structure Released (members : ConnMembers) : Prop where
  connection : members.pConnection = none
  session : members.pSession = none
  endpoints : ∀ endpoint ∈ members.endpoints, endpoint = endpoint.destroy

/-- Every producer and consumer has the session of the connection, and nothing from
another one. -/
def InStep (members : ConnMembers) : Prop :=
  ∀ endpoint ∈ members.endpoints, endpoint.Uses members.pSession

theorem forall_endpoints {members : ConnMembers} {good : MqEndpoint → Prop}
    (producers : ∀ producer ∈ members.listProducer, good producer)
    (consumers : ∀ consumer ∈ members.listConsumer, good consumer.toMqEndpoint) :
    ∀ endpoint ∈ members.endpoints, good endpoint := by
  intro endpoint member
  rcases List.mem_append.mp member with isProducer | isConsumer
  · exact producers endpoint isProducer
  · obtain ⟨consumer, inList, rfl⟩ := List.mem_map.mp isConsumer
    exact consumers consumer inList

theorem always_destroyConn (members : ConnMembers) :
    Always (fun new => new.registrations = members.registrations ∧ new.Released)
      members.destroyConn := by
  refine always_bind (always_mapM fun producer _ => producer.always_destroyCalls) ?_
  rintro producers ⟨sameProducers, clearProducers⟩
  refine always_bind (always_mapM fun consumer _ => consumer.always_destroyCalls) ?_
  rintro consumers ⟨sameConsumers, clearConsumers⟩
  refine always_bind (MqEndpoint.always_deletePtr _) fun pSession noSession => ?_
  refine always_bind (MqEndpoint.always_deletePtr _) fun pConnection noConnection => ?_
  refine always_pure ⟨by rw [registrations, sameProducers, sameConsumers, registrations], ?_⟩
  exact ⟨noConnection, noSession, forall_endpoints clearProducers clearConsumers⟩

/-- `Conn` touches the pointers to the connection and the session only. -/
theorem always_conn {members : ConnMembers} (released : members.Released) :
    Always (fun result => result.1.listProducer = members.listProducer ∧
      result.1.listConsumer = members.listConsumer ∧
      result.1.pSession = if result.2 then some members.attempts else none) members.conn := by
  refine always_ask fun factory => always_ite (fun _ => ?_) fun _ => ?_
  · refine always_ask fun created => always_ite (fun _ => ?_) fun _ => ?_
    · refine always_ask fun listens => always_ite (fun _ => ?_) fun _ => ?_
      · refine always_ask fun started => always_ite (fun _ => ?_) fun _ => ?_
        · refine always_ask fun opened => always_ite (fun _ => ?_) fun _ => ?_
          · exact always_pure ⟨rfl, rfl, rfl⟩
          · exact always_pure ⟨rfl, rfl, released.session⟩
        · exact always_pure ⟨rfl, rfl, released.session⟩
      · exact always_pure ⟨rfl, rfl, released.session⟩
    · exact always_pure ⟨rfl, rfl, released.session⟩
  · exact always_pure ⟨rfl, rfl, released.session⟩

theorem always_reBuildConn {members : ConnMembers} (released : members.Released) :
    Always (fun result => result.1.registrations = members.registrations ∧ result.1.InStep ∧
      (result.1.pSession = none ∨ result.1.pSession = some members.attempts))
      members.reBuildConn := by
  refine always_bind (always_conn released) ?_
  rintro ⟨connected, success⟩ ⟨sameProducers, sameConsumers, session⟩
  have producersClear (producer) (inList : producer ∈ connected.listProducer) :
      producer = producer.destroy := by
    rw [sameProducers] at inList
    exact released.endpoints producer (List.mem_append_left _ inList)
  have consumersClear (consumer) (inList : consumer ∈ connected.listConsumer) :
      consumer.toMqEndpoint = consumer.toMqEndpoint.destroy := by
    rw [sameConsumers] at inList
    exact released.endpoints _ (List.mem_append_right _ (List.mem_map_of_mem inList))
  refine always_ite (fun connects => ?_) fun fails => ?_
  · refine always_bind (always_mapM fun producer inList =>
      MqEndpoint.always_createCalls _ (producersClear producer inList)) ?_
    rintro producers ⟨keptProducers, usedProducers⟩
    refine always_bind (always_mapM fun consumer inList =>
      MqConsumer.always_createCalls _ (consumersClear consumer inList)) ?_
    rintro consumers ⟨keptConsumers, usedConsumers⟩
    refine always_pure ⟨?_, forall_endpoints usedProducers usedConsumers, ?_⟩
    · rw [registrations, keptProducers, keptConsumers, sameProducers, sameConsumers, registrations]
    · right
      simpa [connects] using session
  · have noSession : connected.pSession = none := by simpa [fails] using session
    refine always_pure ⟨?_, ?_, .inl noSession⟩
    · rw [registrations, sameProducers, sameConsumers, registrations]
    · refine forall_endpoints (fun producer inList => ?_) fun consumer inList => ?_
      · rw [noSession, producersClear producer inList]
        exact ⟨rfl, .inl rfl, .inl rfl⟩
      · rw [noSession, consumersClear consumer inList]
        exact ⟨rfl, .inl rfl, .inl rfl⟩

/-- What one iteration establishes, whatever the state before it. -/
structure Pass.Sound (members : ConnMembers) (pass : Pass) : Prop where
  destroyed : pass.destroyed.registrations = members.registrations ∧ pass.destroyed.Released
  rebuilt : pass.rebuilt.registrations = members.registrations ∧ pass.rebuilt.InStep
  session : pass.rebuilt.pSession = none ∨ pass.rebuilt.pSession = some pass.destroyed.attempts

theorem always_pass (members : ConnMembers) : Always (Pass.Sound members) members.pass := by
  refine always_bind members.always_destroyConn fun destroyed cleared => ?_
  refine always_bind (always_reBuildConn cleared.2) ?_
  rintro ⟨rebuilt, success⟩ ⟨kept, inStep, session⟩
  exact always_pure ⟨cleared, ⟨kept.trans cleared.1, inStep⟩, session⟩

theorem Pass.Sound.trans {members later : ConnMembers} {pass : Pass} (sound : pass.Sound later)
    (same : later.registrations = members.registrations) : pass.Sound members :=
  ⟨⟨sound.destroyed.1.trans same, sound.destroyed.2⟩, ⟨sound.rebuilt.1.trans same, sound.rebuilt.2⟩,
    sound.session⟩

theorem always_doReconnWork (members : ConnMembers) (iterations : Nat) :
    Always (fun result => (∀ pass ∈ result.1, pass.Sound members) ∧
      ∀ left, result.2 = some left → ∃ pass ∈ result.1, left = pass.rebuilt)
      (members.doReconnWork iterations) := by
  induction iterations generalizing members with
  | zero => exact always_pure ⟨by simp, by simp⟩
  | succ iterations ih =>
      refine always_bind members.always_pass fun first sound => ?_
      have leaves : Always (fun result => (∀ pass ∈ result.1, pass.Sound members) ∧
          ∀ left, result.2 = some left → ∃ pass ∈ result.1, left = pass.rebuilt)
          (pure ([first], some first.rebuilt)) := by
        refine always_pure ⟨by simpa using sound, ?_⟩
        rintro left ⟨⟩
        exact ⟨first, by simp, rfl⟩
      refine always_ite (fun _ => leaves) fun _ => ?_
      refine always_ask fun token => always_ite (fun _ => leaves) fun _ => ?_
      refine always_bind (ih first.rebuilt) ?_
      rintro ⟨passes, left⟩ ⟨sounds, ends⟩
      refine always_pure ⟨?_, ?_⟩
      · intro pass member
        rcases List.mem_cons.mp member with rfl | later
        · exact sound
        · exact (sounds pass later).trans sound.rebuilt.1
      · intro final isFinal
        obtain ⟨pass, member, same⟩ := ends final isFinal
        exact ⟨pass, List.mem_cons_of_mem _ member, same⟩

/-- For every number of iterations and every outcome of the calls: the registrations stay as
they were, `DestroyConn` leaves every pointer `NULL`, and when the loop is left, every producer
and consumer has the session of the connection, which is none or the one of the last attempt. -/
theorem doReconnWork_keeps_registrations (members : ConnMembers) (iterations : Nat)
    (outcomes : Nat → Bool) :
    let result := ((members.doReconnWork iterations).run outcomes).1
    (∀ pass ∈ result.1,
      (pass.destroyed.registrations = members.registrations ∧
        pass.destroyed.pConnection = none ∧ pass.destroyed.pSession = none ∧
        ∀ endpoint ∈ pass.destroyed.endpoints, endpoint.pDestination = none ∧
          endpoint.pHandle = none ∧ endpoint.pSession = none) ∧
      pass.rebuilt.registrations = members.registrations ∧
      (pass.rebuilt.pSession = none ∨ pass.rebuilt.pSession = some pass.destroyed.attempts)) ∧
    ∀ left, result.2 = some left → left.registrations = members.registrations ∧
      ∀ endpoint ∈ left.endpoints, endpoint.pSession = left.pSession ∧
        (endpoint.pDestination = none ∨ endpoint.pDestination = left.pSession) ∧
        (endpoint.pHandle = none ∨ endpoint.pHandle = left.pSession) := by
  intro result
  obtain ⟨sounds, ends⟩ := members.always_doReconnWork iterations outcomes
  constructor
  · intro pass member
    have sound := sounds pass member
    obtain ⟨kept, released⟩ := sound.destroyed
    refine ⟨⟨kept, released.connection, released.session, ?_⟩, sound.rebuilt.1, sound.session⟩
    intro endpoint inConn
    rw [released.endpoints endpoint inConn]
    exact ⟨rfl, rfl, rfl⟩
  · intro left isLeft
    obtain ⟨pass, member, rfl⟩ := ends left isLeft
    exact (sounds pass member).rebuilt

end ConnMembers

end DcCluster.Mq
