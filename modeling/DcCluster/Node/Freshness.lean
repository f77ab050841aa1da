import DcCluster.Node.HeartBeat
import DcCluster.Node.TimedCore

/-!
How old a stamp in the registry can be. A pass of `StartService` leaves no stamp older
than 60 seconds before the clock it read, and the next pass begins after 45 seconds, so
as long as the passes keep their time a registered node was heard from recently.
-/

namespace DcCluster.HeartBeat

open DcCluster.Lib DcCluster.Server

section Loop

variable {loop next : NodeLoop}

theorem proceed_cases {bstop : Bool} (taken : loop.proceed bstop = some next) :
    loop.pc = .top ∧ loop.bregisterOk = false ∧ next = loop.send .registClient .inRegisterClient ∨
      loop.pc = .top ∧ loop.bregisterOk = true ∧ next = { loop with pc := .afterRegister } ∨
      loop.pc = .afterRegister ∧ loop.bregisterOk = true ∧
        next = loop.send .heartbeat .inHeartBeatWork ∨
      loop.pc = .afterRegister ∧ loop.bregisterOk = false ∧ next = { loop with pc := .semWait } ∨
      loop.pc = .semWait ∧ bstop = true ∧ next = { loop with pc := .stopped } ∨
      loop.pc = .semWait ∧ bstop = false ∧
        next = { loop with pc := .top, iteration := loop.iteration + 1 } := by
  unfold NodeLoop.proceed at taken
  split at taken
  next atTop =>
    cases ok : loop.bregisterOk <;> simp_all
  next atRegister =>
    cases ok : loop.bregisterOk <;> simp_all
  next atWait =>
    cases stop : bstop <;> simp_all
  next => cases taken

theorem returns_key {delivered : Bool} (taken : loop.returns delivered = some next) :
    next.key = loop.key := by
  simp only [NodeLoop.returns, Option.bind_eq_bind, Option.bind_eq_some_iff] at taken
  obtain ⟨call, _, success, _, taken⟩ := taken
  split at taken
  next =>
    cases taken
    rfl
  next =>
    cases taken
    rfl
  next => cases taken

end Loop

/-- The loop after the server executed one of its calls. -/
def withExecution (registry : Registry) (loop : NodeLoop) (place : Nat) (request : RemoteCall)
    (clock : Int) : NodeLoop :=
  { loop with
    calls := loop.calls.set place
      { request with executed := some (execution registry loop request.kind clock) } }

/-- A step of the system as one of the loops sees it. -/
inductive LoopStep (registry : Registry) (index : Nat) : Action → NodeLoop → NodeLoop → Prop
  | stays (action : Action) (loop : NodeLoop) : LoopStep registry index action loop loop
  | proceeds {bstop : Bool} {loop next : NodeLoop} : loop.proceed bstop = some next →
      LoopStep registry index (.proceed index bstop) loop next
  | returns {delivered : Bool} {loop next : NodeLoop} : loop.returns delivered = some next →
      LoopStep registry index (.returns index delivered) loop next
  | executes {call : Nat} {clock : Int} {loop : NodeLoop} {request : RemoteCall} :
      loop.calls[call]? = some request → request.executed = none →
      LoopStep registry index (.execute index call clock) loop
        (withExecution registry loop call request clock)

section Step

variable {system next : System} {action : Action}

theorem step_loop (taken : step system action = some next) {index : Nat} {loop : NodeLoop}
    (found : system.loops[index]? = some loop) :
    ∃ moved, next.loops[index]? = some moved ∧
      LoopStep system.registry index action loop moved := by
  have others {other : Nat} (updated : NodeLoop) (differs : other ≠ index) :
      (system.loops.set other updated)[index]? = some loop := by
    rw [List.getElem?_set_ne differs, found]
  have here (updated : NodeLoop) : (system.loops.set index updated)[index]? = some updated := by
    have inside : index < system.loops.length := (List.getElem?_eq_some_iff.mp found).1
    rw [List.getElem?_set_self inside]
  cases action with
  | start NodeIp NodePort =>
      cases taken
      refine ⟨loop, ?_, .stays _ _⟩
      rw [List.getElem?_append_left (List.getElem?_eq_some_iff.mp found).1, found]
  | proceed other bstop =>
      simp only [step, Option.bind_eq_bind, Option.bind_eq_some_iff] at taken
      obtain ⟨own, isOwn, updated, moved, ⟨⟩⟩ := taken
      by_cases same : other = index
      · subst same
        cases isOwn.symm.trans found
        exact ⟨updated, here updated, .proceeds moved⟩
      · exact ⟨loop, others updated same, .stays _ _⟩
  | execute other call clock =>
      simp only [step, execute, Option.bind_eq_bind, Option.bind_eq_some_iff] at taken
      obtain ⟨own, isOwn, request, isCall, taken⟩ := taken
      split at taken
      · cases taken
      next unexecuted =>
        cases taken
        by_cases same : other = index
        · subst same
          cases isOwn.symm.trans found
          exact ⟨_, here _, .executes isCall (by simpa using unexecuted)⟩
        · exact ⟨loop, others _ same, .stays _ _⟩
  | returns other delivered =>
      simp only [step, Option.bind_eq_bind, Option.bind_eq_some_iff] at taken
      obtain ⟨own, isOwn, updated, moved, ⟨⟩⟩ := taken
      by_cases same : other = index
      · subst same
        cases isOwn.symm.trans found
        exact ⟨updated, here updated, .returns moved⟩
      · exact ⟨loop, others updated same, .stays _ _⟩
  | server op =>
      cases taken
      exact ⟨loop, found, .stays _ _⟩

theorem step_new (taken : step system action = some next) {index : Nat} {moved : NodeLoop}
    (absent : system.loops[index]? = none) (found : next.loops[index]? = some moved) :
    ∃ NodeIp NodePort, moved = NodeLoop.constructed NodeIp NodePort := by
  have outside := List.getElem?_eq_none_iff.mp absent
  have inside := (List.getElem?_eq_some_iff.mp found).1
  cases action with
  | start NodeIp NodePort =>
      cases taken
      rw [List.getElem?_append_right outside] at found
      exact ⟨NodeIp, NodePort, List.mem_singleton.mp (List.mem_of_getElem? found)⟩
  | proceed =>
      simp only [step, Option.bind_eq_bind, Option.bind_eq_some_iff] at taken
      obtain ⟨_, _, _, _, ⟨⟩⟩ := taken
      simp only [List.length_set] at inside
      omega
  | execute =>
      simp only [step, execute, Option.bind_eq_bind, Option.bind_eq_some_iff] at taken
      obtain ⟨_, _, _, _, taken⟩ := taken
      split at taken
      · cases taken
      · cases taken
        simp only [List.length_set] at inside
        omega
  | returns =>
      simp only [step, Option.bind_eq_bind, Option.bind_eq_some_iff] at taken
      obtain ⟨_, _, _, _, ⟨⟩⟩ := taken
      simp only [List.length_set] at inside
      omega
  | server =>
      cases taken
      simp only at inside
      omega

end Step

theorem LoopStep.key {registry : Registry} {index : Nat} {action : Action} {loop next : NodeLoop}
    (moves : LoopStep registry index action loop next) : next.key = loop.key := by
  cases moves with
  | stays => rfl
  | proceeds taken =>
      rcases proceed_cases taken with ⟨-, -, rfl⟩ | ⟨-, -, rfl⟩ | ⟨-, -, rfl⟩ | ⟨-, -, rfl⟩ |
        ⟨-, -, rfl⟩ | ⟨-, -, rfl⟩ <;> rfl
  | returns taken => exact returns_key taken
  | executes => rfl

theorem LoopStep.executed {registry : Registry} {index : Nat} {action : Action}
    {loop next : NodeLoop} (moves : LoopStep registry index action loop next) {call : RemoteCall}
    {done : Execution} (member : call ∈ loop.calls) (executed : call.executed = some done) :
    ∃ later ∈ next.calls, later.executed = some done := by
  cases moves with
  | stays => exact ⟨call, member, executed⟩
  | proceeds taken =>
      refine ⟨call, ?_, executed⟩
      rcases proceed_cases taken with ⟨-, -, rfl⟩ | ⟨-, -, rfl⟩ | ⟨-, -, rfl⟩ | ⟨-, -, rfl⟩ |
        ⟨-, -, rfl⟩ | ⟨-, -, rfl⟩ <;> simp [NodeLoop.send, member]
  | returns taken =>
      obtain ⟨before, last, success, split, -, calls, -⟩ := returns_cases taken
      rw [split] at member
      rw [calls]
      rcases List.mem_append.mp member with earlier | isLast
      · exact ⟨call, by simp [earlier], executed⟩
      · rw [List.mem_singleton.mp isLast] at executed
        exact ⟨{ last with returned := some success }, by simp, executed⟩
  | @executes place clock _ request isCall fresh =>
      obtain ⟨position, inside, rfl⟩ := List.getElem_of_mem member
      have other : place ≠ position := by
        rintro rfl
        rw [List.getElem?_eq_getElem inside] at isCall
        cases isCall
        rw [fresh] at executed
        cases executed
      refine ⟨loop.calls[position], ?_, executed⟩
      refine List.mem_iff_getElem.mpr ⟨position, by simpa [withExecution] using inside, ?_⟩
      exact List.getElem_set_ne other _

/-- A call of this node was executed at this instant, and its answer was `SUCCESS` or `true`. -/
def HeardAt (system : System) (key : NodeKey) (clock : Int) : Prop :=
  ∃ loop ∈ system.loops, loop.key = key ∧ ∃ call ∈ loop.calls, ∃ done,
    call.executed = some done ∧ done.clock = clock ∧ done.answer = true

theorem HeardAt.step {system next : System} {action : Action} {key : NodeKey} {clock : Int}
    (heard : HeardAt system key clock) (taken : step system action = some next) :
    HeardAt next key clock := by
  obtain ⟨loop, member, rfl, call, isCall, done, executed, stamped, answered⟩ := heard
  obtain ⟨index, found⟩ := List.getElem?_of_mem member
  obtain ⟨moved, foundNext, moves⟩ := step_loop taken found
  obtain ⟨later, laterCall, stillExecuted⟩ := moves.executed isCall executed
  exact ⟨moved, List.mem_of_getElem? foundNext, moves.key, later, laterCall, done, stillExecuted,
    stamped, answered⟩

section Serve

variable {registry : Registry} {loop : NodeLoop} {kind : RpcKind} {clock : Int}

theorem serve_valid (valid : registry.Valid) : (serve registry loop kind clock).1.Valid := by
  cases kind with
  | registClient => exact registerWork_valid registry ⟨loop.NodeIp, loop.NodePort⟩ clock valid
  | heartbeat => exact heartBeatWork_valid registry ⟨loop.NodeIp, loop.NodePort⟩ clock valid

theorem serve_answer :
    (serve registry loop kind clock).2 = true ↔
      kind = .registClient ∨ registry.table loop.key ≠ none := by
  cases kind with
  | registClient => simp [serve, registerWork_result]
  | heartbeat =>
      have found := heartBeatWork_result registry ⟨loop.NodeIp, loop.NodePort⟩ clock
      simp only [serve, found, Option.isSome_iff_ne_none, reduceCtorEq, false_or]
      rfl

/-- A call with a good answer stamps the node's own entry, another one changes nothing. -/
theorem serve_table (key : NodeKey) :
    (serve registry loop kind clock).1.table key =
      if key = loop.key ∧ (serve registry loop kind clock).2 = true then some clock
      else registry.table key := by
  cases kind with
  | registClient =>
      have stamped := registerWork_table registry ⟨loop.NodeIp, loop.NodePort⟩ clock
      have answered : (serve registry loop .registClient clock).2 = true := serve_answer.mpr (.inl rfl)
      simp only [answered, and_true]
      exact (congrFun stamped key).trans (Function.update_apply registry.table loop.key _ key)
  | heartbeat =>
      have stamped := heartBeatWork_table registry ⟨loop.NodeIp, loop.NodePort⟩ clock
      have after := congrFun stamped key
      rw [NodeMap.apply_heartBeatWork] at after
      refine after.trans ?_
      have own : HeartBeatInfo.key ⟨loop.NodeIp, loop.NodePort⟩ = loop.key := rfl
      rw [own]
      by_cases same : key = loop.key
      · subst same
        simp only [serve_answer, reduceCtorEq, false_or, true_and, Option.isSome_iff_ne_none]
      · rw [if_neg (fun both => same both.1), if_neg (fun both => same both.1)]

end Serve

section Table

variable {system next : System} {action : Action} {now : Int}

theorem step_valid (valid : system.registry.Valid) (taken : step system action = some next) :
    next.registry.Valid := by
  cases action with
  | start => cases taken; exact valid
  | proceed =>
      simp only [step, Option.bind_eq_bind, Option.bind_eq_some_iff] at taken
      obtain ⟨_, _, _, _, ⟨⟩⟩ := taken
      exact valid
  | execute =>
      simp only [step, execute, Option.bind_eq_bind, Option.bind_eq_some_iff] at taken
      obtain ⟨_, _, _, _, taken⟩ := taken
      split at taken
      · cases taken
      · cases taken
        exact serve_valid valid
  | returns =>
      simp only [step, Option.bind_eq_bind, Option.bind_eq_some_iff] at taken
      obtain ⟨_, _, _, _, ⟨⟩⟩ := taken
      exact valid
  | server op =>
      cases taken
      exact perform_valid valid op

/-- What an action of the nodes, a pick or a failure removal does to one entry. -/
theorem step_table (valid : system.registry.Valid) (onClock : onTime now action = true)
    (taken : step system action = some next) (key : NodeKey) :
    next.registry.table key = system.registry.table key ∨
      next.registry.table key = some now ∧ HeardAt next key now ∨
      next.registry.table key = none ∧ ∃ node, action = .server (.failureRemoval node) ∧
        node.key = key := by
  cases action with
  | start =>
      cases taken
      exact .inl rfl
  | proceed =>
      simp only [step, Option.bind_eq_bind, Option.bind_eq_some_iff] at taken
      obtain ⟨_, _, _, _, ⟨⟩⟩ := taken
      exact .inl rfl
  | execute index call clock =>
      have sameClock : clock = now := by simpa [onTime] using onClock
      subst sameClock
      simp only [step, execute, Option.bind_eq_bind, Option.bind_eq_some_iff] at taken
      obtain ⟨loop, found, request, isCall, taken⟩ := taken
      split at taken
      · cases taken
      next unexecuted =>
        cases taken
        simp only [serve_table]
        split
        next good =>
          obtain ⟨rfl, answered⟩ := good
          refine .inr (.inl ⟨rfl, ?_⟩)
          have inside := (List.getElem?_eq_some_iff.mp found).1
          have insideCall := (List.getElem?_eq_some_iff.mp isCall).1
          refine ⟨_, List.mem_set inside _, rfl, _, List.mem_set insideCall _, _, rfl, rfl, ?_⟩
          exact answered
        next => exact .inl rfl
  | returns =>
      simp only [step, Option.bind_eq_bind, Option.bind_eq_some_iff] at taken
      obtain ⟨_, _, _, _, ⟨⟩⟩ := taken
      exact .inl rfl
  | server op =>
      cases taken
      rw [perform_table valid op]
      cases op with
      | registerWork => cases onClock
      | heartBeatWork => cases onClock
      | sweep => cases onClock
      | pick => exact .inl rfl
      | failureRemoval node =>
          rw [NodeMap.apply_failureRemoval]
          split
          next same => exact .inr (.inr ⟨rfl, node, rfl, same.symm⟩)
          next => exact .inl rfl

end Table

section Service

/-- No stamp is older than this after the last pass of `StartService`. -/
def oldest (slack : Nat) (cluster : Cluster) : Int :=
  match cluster.service with
  | .semWait => cluster.serviceSince - slack - 60 * 1000
  | _ => cluster.serviceSince - 2 * slack - 105 * 1000

structure Fresh (slack : Nat) (now : Int) (cluster : Cluster) : Prop where
  valid : cluster.system.registry.Valid
  began : cluster.serviceSince ≤ now
  lasts : ServiceLasts slack now cluster
  read : ∀ lCheckTime, cluster.service = .locking lCheckTime →
    cluster.serviceSince ≤ lCheckTime ∧ lCheckTime ≤ now
  recent : cluster.service ≠ .stopped → ∀ key stamp,
    cluster.system.registry.table key = some stamp → oldest slack cluster ≤ stamp
  heard : ∀ key stamp, cluster.system.registry.table key = some stamp →
    stamp ≤ now ∧ HeardAt cluster.system key stamp

variable {slack : Nat} {now : Int} {cluster next : Cluster}

theorem oldest_le : oldest slack cluster ≤ cluster.serviceSince := by
  unfold oldest
  split <;> omega

theorem Fresh.start {timed : Timed Cluster} (started : serverStarted timed) :
    Fresh slack timed.now timed.state := by
  rw [serverStarted] at started
  rw [started]
  have absent (key : NodeKey) : initial.registry.table key = none := rfl
  constructor
  · exact Registry.empty_valid
  · exact Int.le_refl timed.now
  · simp only [ServiceLasts]
    omega
  · simp
  · simp [absent]
  · simp [absent]

theorem Fresh.passes {later : Int} (fresh : Fresh slack now cluster) (passed : now ≤ later)
    (lasts : ServiceLasts slack later cluster) : Fresh slack later cluster where
  valid := fresh.valid
  began := Int.le_trans fresh.began passed
  lasts := lasts
  read lCheckTime locking := by
    have bounds := fresh.read lCheckTime locking
    omega
  recent := fresh.recent
  heard key stamp registered := by
    obtain ⟨past, heard⟩ := fresh.heard key stamp registered
    exact ⟨Int.le_trans past passed, heard⟩

theorem Fresh.system (fresh : Fresh slack now cluster) {action : Action}
    (taken : clusterStep now cluster (.system action) = some next) : Fresh slack now next := by
  obtain ⟨onClock, taken⟩ := Option.ite_none_right_eq_some.mp taken
  obtain ⟨moved, stepped, rfl⟩ := Option.map_eq_some_iff.mp taken
  have entry := step_table fresh.valid onClock stepped
  refine ⟨step_valid fresh.valid stepped, fresh.began, fresh.lasts, fresh.read, ?_, ?_⟩
  · intro serving key stamp registered
    rcases entry key with same | ⟨stamped, -⟩ | ⟨removed, -⟩
    · exact fresh.recent serving key stamp (same.symm.trans registered)
    · cases stamped.symm.trans registered
      exact Int.le_trans oldest_le fresh.began
    · cases removed.symm.trans registered
  · intro key stamp registered
    rcases entry key with same | ⟨stamped, heard⟩ | ⟨removed, -⟩
    · obtain ⟨past, heard⟩ := fresh.heard key stamp (same.symm.trans registered)
      exact ⟨past, heard.step stepped⟩
    · cases stamped.symm.trans registered
      exact ⟨Int.le_refl now, heard⟩
    · cases removed.symm.trans registered

theorem Fresh.checkTime (fresh : Fresh slack now cluster)
    (taken : clusterStep now cluster .checkTime = some next) : Fresh slack now next := by
  simp only [clusterStep] at taken
  split at taken
  next atTop =>
    cases taken
    have lasts := fresh.lasts
    have recent := fresh.recent
    simp only [ServiceLasts, oldest, atTop] at lasts recent
    refine ⟨fresh.valid, fresh.began, lasts, ?_, fun _ => recent (by simp), fresh.heard⟩
    rintro lCheckTime ⟨⟩
    exact ⟨fresh.began, Int.le_refl now⟩
  next => cases taken

theorem Fresh.sweep (fresh : Fresh slack now cluster)
    (taken : clusterStep now cluster .sweep = some next) : Fresh slack now next := by
  simp only [clusterStep] at taken
  split at taken
  next lCheckTime locking =>
    obtain ⟨moved, stepped, rfl⟩ := Option.map_eq_some_iff.mp taken
    have read := fresh.read lCheckTime locking
    have lasts := fresh.lasts
    simp only [ServiceLasts, locking] at lasts
    have swept (key : NodeKey) (stamp : Int) (registered : moved.registry.table key = some stamp) :
        cluster.system.registry.table key = some stamp ∧ lCheckTime - stamp ≤ 60000 := by
      cases stepped
      simp only [perform_table fresh.valid, NodeMap.apply, Option.filter_eq_some_iff,
        NodeMap.recent, decide_eq_true_eq] at registered
      exact registered
    refine ⟨step_valid fresh.valid stepped, Int.le_refl now, ?_, by simp, ?_, ?_⟩
    · simp only [ServiceLasts]
      omega
    · intro _ key stamp registered
      have recent := (swept key stamp registered).2
      simp only [oldest]
      omega
    · intro key stamp registered
      obtain ⟨past, heard⟩ := fresh.heard key stamp (swept key stamp registered).1
      exact ⟨past, heard.step stepped⟩
  next => cases taken

theorem Fresh.wake (fresh : Fresh slack now cluster) {bstop : Bool}
    (taken : clusterStep now cluster (.wake bstop) = some next) : Fresh slack now next := by
  simp only [clusterStep] at taken
  split at taken
  next waiting =>
    cases taken
    have lasts := fresh.lasts
    have recent := fresh.recent
    simp only [ServiceLasts, oldest, waiting] at lasts recent
    cases bstop with
    | true =>
        refine ⟨fresh.valid, Int.le_refl now, trivial, by simp, by simp, fresh.heard⟩
    | false =>
        refine ⟨fresh.valid, Int.le_refl now, ?_, by simp, ?_, fresh.heard⟩
        · simp only [ServiceLasts, Bool.false_eq_true, ↓reduceIte]
          omega
        · intro _ key stamp registered
          have bound := recent (by simp) key stamp registered
          simp only [oldest, Bool.false_eq_true, ↓reduceIte]
          omega
  next => cases taken

theorem Fresh.acts (fresh : Fresh slack now cluster) {action : ClusterAction}
    (taken : clusterStep now cluster action = some next) : Fresh slack now next := by
  cases action with
  | system action => exact fresh.system taken
  | checkTime => exact fresh.checkTime taken
  | sweep => exact fresh.sweep taken
  | wake bstop => exact fresh.wake taken

theorem Fresh.age (fresh : Fresh slack now cluster) (serving : cluster.service ≠ .stopped)
    {key : NodeKey} {stamp : Int} (registered : cluster.system.registry.table key = some stamp) :
    now - stamp ≤ 105 * 1000 + 3 * slack := by
  have bound := fresh.recent serving key stamp registered
  have lasts := fresh.lasts
  cases service : cluster.service with
  | stopped => exact absurd service serving
  | _ =>
      simp only [oldest, ServiceLasts, service] at bound lasts
      omega

end Service

/-- In every run of the nodes and the server in which each pass of `StartService` takes at most
`slack` and each wait at most 45 seconds and `slack`: while the service runs, a request is only
given to a node that the server answered well at most 105 seconds and three times `slack` ago. -/
theorem picked_recently {slack : Nat} {timed : Timed Cluster}
    (reached : Reachable (timedStep clusterStep) serverStarted
      (timely (ServiceLasts slack) anyAction) timed)
    (serving : timed.state.service ≠ .stopped) {node : DcNode}
    (picked : (pick timed.state.system.registry).2 = .node node) :
    ∃ clock, HeardAt timed.state.system node.key clock ∧ clock ≤ timed.now ∧
      timed.now - clock ≤ 105 * 1000 + 3 * slack := by
  have fresh : Fresh slack timed.now timed.state := by
    refine Timed.invariant (Fresh slack) ?_ ?_ ?_ reached
    · intro first started
      exact Fresh.start started
    · intro now later state holds passed lasts
      exact holds.passes passed lasts
    · intro now state action next holds _ taken
      exact holds.acts taken
  have answers := perform_answers fresh.valid .pick
  simp only [perform, picked] at answers
  rcases answers with none | ⟨found, same, registered⟩
  · cases none
  · cases same
    obtain ⟨past, heard⟩ := fresh.heard node.key node.lHeartBeatTime registered
    exact ⟨node.lHeartBeatTime, heard, past, fresh.age serving registered⟩

/-- A node registers and is silent until a request is given to it 45 seconds later. -/
def silentNode : List (TimedAction ClusterAction) :=
  [.act (.system (.start "10.0.0.2" 6002)), .act (.system (.proceed 0 false)), .delay 5,
    .act (.system (.execute 0 0 1005)), .act .checkTime, .act .sweep, .delay 45000]

theorem silentNode_timely :
    Permitted (timedStep clusterStep) (timely (ServiceLasts 10) anyAction) startedAtOneSecond
      silentNode := by
  decide

theorem silentNode_finishes :
    (run (timedStep clusterStep) startedAtOneSecond silentNode).isSome = true := by
  decide

theorem picked_recently_silentNode :
    let final := (run (timedStep clusterStep) startedAtOneSecond silentNode).get silentNode_finishes
    ∃ clock, HeardAt final.state.system ("10.0.0.2", 6002) clock ∧ clock ≤ final.now ∧
      final.now - clock ≤ 105 * 1000 + 3 * (10 : Nat) :=
  @picked_recently 10 _ (.of_run startedAtOneSecond_started silentNode_timely silentNode_finishes) (by decide)
    ⟨"10.0.0.2", 6002, 1005⟩ (by decide)

end DcCluster.HeartBeat
