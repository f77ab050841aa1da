import DcCluster.Mq.ReconnectLoop

/-!
Whether a successful pass of the reconnect loop attaches everything. `ReBuildConn`
returns what `Conn` returned; a `Create` whose destination or whose producer or
consumer could not be made in CMS has swallowed the exception.
-/

namespace DcCluster.Mq

open DcCluster.Lib

/-- The producer or consumer of CMS is there, on this session. -/
def MqEndpoint.Attached (session : Nat) (endpoint : MqEndpoint) : Prop :=
  endpoint.pSession = some session ∧ endpoint.pHandle = some session

/-- `createQueue` or `createTopic` succeeds, and so does the call after it. -/
def CreateSucceeds (outcomes : Nat → Bool) : Prop := outcomes 0 = true ∧ outcomes 1 = true

theorem MqEndpoint.createCalls_attached {endpoint : MqEndpoint}
    (released : endpoint = endpoint.destroy) (session : Nat) (outcomes : Nat → Bool) :
    (((endpoint.createCalls (some session)).run outcomes).1.Attached session ↔
        CreateSucceeds outcomes) ∧
      (CreateSucceeds outcomes →
        ((endpoint.createCalls (some session)).run outcomes).2 = after 3 outcomes) := by
  have noHandle : endpoint.pHandle = none := by rw [released]; rfl
  have result : (endpoint.createCalls (some session)).run outcomes =
      if outcomes 0 then
        if outcomes 1 then (endpoint.create .created (some session), after 3 outcomes)
        else (endpoint.create .noHandle (some session), after 2 outcomes)
      else (endpoint.create .noDestination (some session), after 1 outcomes) := by
    have next : after 1 outcomes 0 = outcomes 1 := rfl
    cases first : outcomes 0 <;> cases second : outcomes 1 <;>
      simp only [createCalls, createOutcome, run_bind, run_succeeds, run_pure, first, next, second,
        after_after, Bool.false_eq_true, ↓reduceIte]
  rw [result]
  cases first : outcomes 0 <;> cases second : outcomes 1 <;>
    simp [CreateSucceeds, first, second, Attached, MqEndpoint.create, noHandle]

theorem MqConsumer.createCalls_attached {consumer : MqConsumer}
    (released : consumer.toMqEndpoint = consumer.toMqEndpoint.destroy) (session : Nat)
    (outcomes : Nat → Bool) :
    (((consumer.createCalls (some session)).run outcomes).1.toMqEndpoint.Attached session ↔
        CreateSucceeds outcomes) ∧
      (CreateSucceeds outcomes →
        ((consumer.createCalls (some session)).run outcomes).2 = after 3 outcomes) :=
  MqEndpoint.createCalls_attached released session outcomes

namespace ConnMembers

/-- The first so many calls of `Create` make their CMS objects. Each of them asks for
three answers if the first two are good. -/
def CreatesSucceed (count : Nat) (outcomes : Nat → Bool) : Prop :=
  ∀ index < count, CreateSucceeds (after (3 * index) outcomes)

def AllAttached (members : ConnMembers) : Prop :=
  ∃ session, members.pSession = some session ∧
    ∀ endpoint ∈ members.endpoints, endpoint.Attached session

theorem createsSucceed_add (count more : Nat) (outcomes : Nat → Bool) :
    CreatesSucceed (count + more) outcomes ↔
      CreatesSucceed count outcomes ∧ CreatesSucceed more (after (3 * count) outcomes) := by
  simp only [CreatesSucceed, after_after]
  constructor
  · intro all
    refine ⟨fun index inside => all index (by omega), fun index inside => ?_⟩
    have later := all (count + index) (by omega)
    rwa [Nat.mul_add] at later
  · rintro ⟨early, late⟩ index inside
    by_cases before : index < count
    · exact early index before
    · have later := late (index - count) (by omega)
      rwa [← Nat.mul_add, Nat.add_sub_cancel' (by omega)] at later

/-- `createCMSConnectionFactory`, `createConnection`, `setExceptionListener`, `start` and
`createSession` succeed. -/
def ConnSucceeds (outcomes : Nat → Bool) : Prop :=
  outcomes 0 = true ∧ outcomes 1 = true ∧ outcomes 2 = true ∧ outcomes 3 = true ∧
    outcomes 4 = true

def connected (members : ConnMembers) : ConnMembers :=
  { members with
    attempts := members.attempts + 1
    pConnection := some members.attempts
    pSession := some members.attempts }

section Conn

variable (members : ConnMembers) {outcomes : Nat → Bool}

theorem run_conn (succeeds : ConnSucceeds outcomes) :
    members.conn.run outcomes = ((members.connected, true), after 5 outcomes) := by
  have next (call : Nat) : after call outcomes 0 = outcomes call := by simp [after]
  obtain ⟨factory, created, listens, started, opened⟩ := succeeds
  simp only [conn, connected, run_ask, run_pure, after_after, next, factory, created, listens,
    started, opened, ↓reduceIte]

theorem conn_fails (fails : ¬ConnSucceeds outcomes) : (members.conn.run outcomes).1.2 = false := by
  have next (call : Nat) : after call outcomes 0 = outcomes call := by simp [after]
  simp only [conn, run_ask, run_pure, after_after, next]
  split
  next factory =>
    split
    next created =>
      split
      next listens =>
        split
        next started =>
          split
          next opened => exact absurd ⟨factory, created, listens, started, opened⟩ fails
          next => rfl
        next => rfl
      next => rfl
    next => rfl
  next => rfl

end Conn

theorem endpoints_length (members : ConnMembers) :
    members.endpoints.length = members.listProducer.length + members.listConsumer.length := by
  simp [MqConnection.endpoints]

/-- After a `Conn` that succeeded, everything is attached exactly if every `Create` made
its CMS objects. -/
theorem run_reBuildConn {members : ConnMembers} (released : members.Released)
    {outcomes : Nat → Bool} (succeeds : ConnSucceeds outcomes) :
    (members.reBuildConn.run outcomes).1.2 = true ∧
      ((members.reBuildConn.run outcomes).1.1.AllAttached ↔
        CreatesSucceed members.endpoints.length (after 5 outcomes)) := by
  have connects := members.run_conn succeeds
  have producers := forall_mapM_iff (MqEndpoint.Attached members.attempts)
    (MqEndpoint.createCalls (some members.attempts)) (fun producer inList =>
      MqEndpoint.createCalls_attached
        (released.endpoints producer (List.mem_append_left _ inList)) members.attempts)
    (after 5 outcomes)
  have consumers := forall_mapM_iff
    (fun consumer : MqConsumer => consumer.toMqEndpoint.Attached members.attempts)
    (MqConsumer.createCalls (some members.attempts)) (fun consumer inList =>
      MqConsumer.createCalls_attached
        (released.endpoints _ (List.mem_append_right _ (List.mem_map_of_mem inList)))
        members.attempts)
    ((members.listProducer.mapM (MqEndpoint.createCalls (some members.attempts))).run
      (after 5 outcomes)).2
  simp only [reBuildConn, run_bind, connects, connected, ↓reduceIte, run_pure, true_and]
  rw [endpoints_length, createsSucceed_add]
  constructor
  · rintro ⟨session, isSession, attached⟩
    obtain rfl := Option.some.inj isSession
    have made := producers.1.mp fun producer member =>
      attached producer (List.mem_append_left _ member)
    rw [producers.2 made] at consumers
    refine ⟨made, consumers.1.mp fun consumer member => ?_⟩
    rw [← producers.2 made] at member
    exact attached _ (List.mem_append_right _ (List.mem_map_of_mem member))
  · rintro ⟨made, opened⟩
    refine ⟨members.attempts, rfl, forall_endpoints (producers.1.mpr made) ?_⟩
    rw [producers.2 made] at consumers ⊢
    exact consumers.1.mpr opened

theorem reBuildConn_fails {members : ConnMembers} {outcomes : Nat → Bool}
    (fails : ¬ConnSucceeds outcomes) : (members.reBuildConn.run outcomes).1.2 = false := by
  have failed := members.conn_fails fails
  simp only [reBuildConn, run_bind, failed, Bool.false_eq_true, ↓reduceIte, run_pure]

/-- The answers that each `ReBuildConn` of the loop starts with. -/
def rebuildOutcomes (members : ConnMembers) : Nat → (Nat → Bool) → List (Nat → Bool)
  | 0, _ => []
  | iterations + 1, outcomes =>
      let first := members.pass.run outcomes
      (members.destroyConn.run outcomes).2 ::
        if first.1.success || first.2 0 then []
        else rebuildOutcomes first.1.rebuilt iterations (after 1 first.2)

/-- A pass in which `ReBuildConn` returns `true` ends the loop with everything attached. -/
def SuccessAttaches (members : ConnMembers) (iterations : Nat) (outcomes : Nat → Bool) : Prop :=
  ∀ pass ∈ ((members.doReconnWork iterations).run outcomes).1.1, pass.success = true →
    ((members.doReconnWork iterations).run outcomes).1.2 = some pass.rebuilt ∧
      pass.rebuilt.AllAttached

/-- Besides, as long as the loop is not left, every iteration is another attempt. -/
def ReattachesAll (members : ConnMembers) (iterations : Nat) (outcomes : Nat → Bool) : Prop :=
  members.SuccessAttaches iterations outcomes ∧
    (((members.doReconnWork iterations).run outcomes).1.2 = none →
      ((members.doReconnWork iterations).run outcomes).1.1.length = iterations)

theorem endpoints_length_of_registrations {members new : ConnMembers}
    (kept : new.registrations = members.registrations) :
    new.endpoints.length = members.endpoints.length := by
  have producers := congrArg (fun lists => lists.1.length) kept
  have consumers := congrArg (fun lists => lists.2.length) kept
  simp only [registrations, List.length_map] at producers consumers
  rw [endpoints_length, endpoints_length, producers, consumers]

theorem pass_length (members : ConnMembers) (outcomes : Nat → Bool) :
    (members.pass.run outcomes).1.rebuilt.endpoints.length = members.endpoints.length :=
  endpoints_length_of_registrations (members.always_pass outcomes).rebuilt.1

theorem pass_attaches (members : ConnMembers) (outcomes : Nat → Bool) :
    let answers := (members.destroyConn.run outcomes).2
    ((members.pass.run outcomes).1.success = true ↔ ConnSucceeds answers) ∧
      (ConnSucceeds answers → ((members.pass.run outcomes).1.rebuilt.AllAttached ↔
        CreatesSucceed members.endpoints.length (after 5 answers))) := by
  intro answers
  obtain ⟨kept, released⟩ := members.always_destroyConn outcomes
  simp only [pass, run_bind, run_pure]
  constructor
  · constructor
    · intro success
      by_contra fails
      rw [reBuildConn_fails fails] at success
      cases success
    · intro succeeds
      exact (run_reBuildConn released succeeds).1
  · intro succeeds
    rw [← endpoints_length_of_registrations kept]
    exact (run_reBuildConn released succeeds).2

theorem doReconnWork_leaves (members : ConnMembers) (iterations : Nat) {outcomes : Nat → Bool}
    (leaves : ((members.pass.run outcomes).1.success || (members.pass.run outcomes).2 0) = true) :
    ((members.doReconnWork (iterations + 1)).run outcomes).1 =
      ([(members.pass.run outcomes).1], some (members.pass.run outcomes).1.rebuilt) := by
  cases success : (members.pass.run outcomes).1.success with
  | true => simp only [doReconnWork, run_bind, success, ↓reduceIte, run_pure]
  | false =>
      have token : (members.pass.run outcomes).2 0 = true := by simpa [success] using leaves
      simp only [doReconnWork, run_bind, run_succeeds, success, token, Bool.false_eq_true,
        ↓reduceIte, run_pure]

theorem doReconnWork_goes_on (members : ConnMembers) (iterations : Nat) {outcomes : Nat → Bool}
    (fails : (members.pass.run outcomes).1.success = false)
    (noToken : (members.pass.run outcomes).2 0 = false) :
    ((members.doReconnWork (iterations + 1)).run outcomes).1 =
      let result := (((members.pass.run outcomes).1.rebuilt.doReconnWork iterations).run
        (after 1 (members.pass.run outcomes).2)).1
      ((members.pass.run outcomes).1 :: result.1, result.2) := by
  simp only [doReconnWork, run_bind, run_succeeds, fails, noToken, Bool.false_eq_true,
    ↓reduceIte, run_pure]

theorem doReconnWork_retries (members : ConnMembers) (iterations : Nat) (outcomes : Nat → Bool)
    (notLeft : ((members.doReconnWork iterations).run outcomes).1.2 = none) :
    ((members.doReconnWork iterations).run outcomes).1.1.length = iterations := by
  induction iterations generalizing members outcomes with
  | zero => rfl
  | succ iterations ih =>
      cases leaves : (members.pass.run outcomes).1.success || (members.pass.run outcomes).2 0 with
      | true =>
          rw [doReconnWork_leaves members iterations leaves] at notLeft
          cases notLeft
      | false =>
          simp only [Bool.or_eq_false_iff] at leaves
          rw [doReconnWork_goes_on members iterations leaves.1 leaves.2] at notLeft ⊢
          rw [List.length_cons, ih _ _ notLeft]

theorem successAttaches_iff (members : ConnMembers) (iterations : Nat)
    (outcomes : Nat → Bool) :
    members.SuccessAttaches iterations outcomes ↔
      ∀ answers ∈ members.rebuildOutcomes iterations outcomes, ConnSucceeds answers →
        CreatesSucceed members.endpoints.length (after 5 answers) := by
  induction iterations generalizing members outcomes with
  | zero =>
      refine iff_of_true (fun pass member => ?_) (by simp [rebuildOutcomes])
      exact absurd member List.not_mem_nil
  | succ iterations ih =>
      obtain ⟨succeeds, attaches⟩ := members.pass_attaches outcomes
      cases leaves : (members.pass.run outcomes).1.success || (members.pass.run outcomes).2 0 with
      | true =>
          have asked : members.rebuildOutcomes (iterations + 1) outcomes =
              [(members.destroyConn.run outcomes).2] := by
            simp only [rebuildOutcomes, leaves, ↓reduceIte]
          rw [SuccessAttaches, doReconnWork_leaves members iterations leaves, asked]
          simp only [List.mem_singleton, forall_eq, true_and, succeeds]
          exact forall_congr' attaches
      | false =>
          simp only [Bool.or_eq_false_iff] at leaves
          have asked : members.rebuildOutcomes (iterations + 1) outcomes =
              (members.destroyConn.run outcomes).2 ::
                (members.pass.run outcomes).1.rebuilt.rebuildOutcomes iterations
                  (after 1 (members.pass.run outcomes).2) := by
            simp only [rebuildOutcomes, leaves.1, leaves.2, Bool.or_self, Bool.false_eq_true,
              ↓reduceIte]
          have failed : ¬ConnSucceeds (members.destroyConn.run outcomes).2 := by
            rw [← succeeds, leaves.1]
            simp
          have later := ih (members.pass.run outcomes).1.rebuilt
            (after 1 (members.pass.run outcomes).2)
          rw [pass_length, SuccessAttaches] at later
          rw [SuccessAttaches, doReconnWork_goes_on members iterations leaves.1 leaves.2, asked]
          simp only [List.mem_cons, forall_eq_or_imp, leaves.1, Bool.false_eq_true, false_implies,
            failed, true_and, later]

/-- The loop is left through a successful `ReBuildConn` only with everything attached exactly
if, in the attempt whose `Conn` succeeds, no `Create` fails to make its CMS objects. -/
theorem doReconnWork_reattaches_iff (members : ConnMembers) (iterations : Nat)
    (outcomes : Nat → Bool) :
    members.ReattachesAll iterations outcomes ↔
      ∀ answers ∈ members.rebuildOutcomes iterations outcomes, ConnSucceeds answers →
        CreatesSucceed members.endpoints.length (after 5 answers) := by
  have retries := members.doReconnWork_retries iterations outcomes
  rw [ReattachesAll, and_iff_left retries]
  exact members.successAttaches_iff iterations outcomes

def lostConnection : ConnMembers :=
  { pSession := none
    listProducer := [MqEndpoint.new 0 ['q'] .queue]
    listConsumer := []
    pConnection := none
    attempts := 1 }

/-- `Conn` succeeds and `createQueue` throws: the loop is left, and the producer has no
CMS producer. -/
theorem failedCreateQueue_detaches_producer :
    ¬ ∀ (members : ConnMembers) (iterations : Nat) (outcomes : Nat → Bool),
      members.ReattachesAll iterations outcomes := by
  intro always
  have success : (lostConnection.pass.run fun call => call != 5).1.success = true := by decide
  have left : ((lostConnection.doReconnWork 1).run fun call => call != 5).1 =
      ([(lostConnection.pass.run fun call => call != 5).1],
        some (lostConnection.pass.run fun call => call != 5).1.rebuilt) :=
    doReconnWork_leaves lostConnection 0 (by rw [success, Bool.true_or])
  have reattaches := (always lostConnection 1 fun call => call != 5).1
  rw [SuccessAttaches, left] at reattaches
  obtain ⟨session, -, attached⟩ := (reattaches _ (List.mem_singleton_self _) success).2
  have noHandle := (attached _ List.mem_cons_self).2
  cases noHandle

end ConnMembers

end DcCluster.Mq
