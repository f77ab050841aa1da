import DcCluster.Node.Stabilization

/-!
A node none of whose calls is lost is never taken for dead: it registers once, and every
heartbeat finds its entry.
-/

namespace DcCluster.HeartBeat

open DcCluster.Lib DcCluster.Server

/-- What holds of a loop none of whose calls failed. -/
structure Undisturbed (slack latency : Nat) (since : Int) (registry : Registry)
    (loop : NodeLoop) : Prop where
  answers : ∀ call ∈ loop.calls, ∀ done, call.executed = some done → done.answer = true
  returned : ∀ call ∈ loop.calls, call.returned ≠ some false
  once : ∀ kind ∈ (loop.calls.map RemoteCall.kind).tail, kind = .heartbeat
  phase : Secured slack latency since registry loop ∨
    (loop.pc = .top ∧ loop.bregisterOk = false ∧ loop.calls = []) ∨
    loop.pc = .inRegisterClient ∧ ∃ call, loop.calls = [call] ∧ call.executed = none

section Undisturbed

variable {slack latency : Nat} {since after now : Int} {registry later : Registry}
  {loop next : NodeLoop}

theorem Undisturbed.constructed (NodeIp : String) (NodePort : Int) :
    Undisturbed slack latency since registry (NodeLoop.constructed NodeIp NodePort) := by
  refine ⟨?_, ?_, ?_, .inr (.inl ⟨rfl, rfl, rfl⟩)⟩ <;> simp [NodeLoop.constructed]

theorem Undisturbed.secured (undisturbed : Undisturbed slack latency since registry loop)
    (registered : loop.pc = .top → loop.bregisterOk = true)
    (answered : loop.pc = .inRegisterClient → current loop ≠ none) :
    Secured slack latency since registry loop := by
  rcases undisturbed.phase with secured | ⟨pc, ok, -⟩ | ⟨pc, call, only, fresh⟩
  · exact secured
  · rw [registered pc] at ok
    cases ok
  · have unanswered : current loop = none := by simp [current, only, fresh]
    exact absurd unanswered (answered pc)

theorem Undisturbed.proceed (undisturbed : Undisturbed slack latency since registry loop)
    (taken : loop.proceed false = some next)
    (kept : Secured slack latency since registry loop → Secured slack latency after later next) :
    Undisturbed slack latency after later next := by
  have goesOn (pc : loop.pc ≠ .inRegisterClient) (ok : loop.pc = .top → loop.bregisterOk = true) :
      Secured slack latency after later next :=
    kept (undisturbed.secured ok fun calling => absurd calling pc)
  obtain ⟨answers, returned, once, phase⟩ := undisturbed
  rcases proceed_cases taken with ⟨pc, ok, rfl⟩ | ⟨pc, ok, rfl⟩ | ⟨pc, ok, rfl⟩ | ⟨pc, ok, rfl⟩ |
    ⟨-, stop, -⟩ | ⟨pc, -, rfl⟩
  · have empty : loop.calls = [] := by
      rcases phase with ⟨good, -⟩ | ⟨-, -, empty⟩ | ⟨calling, -⟩
      · simp [Good, pc, ok] at good
      · exact empty
      · rw [pc] at calling
        cases calling
    refine ⟨?_, ?_, ?_, .inr (.inr ⟨rfl, _, by rw [NodeLoop.send, empty]; rfl, rfl⟩)⟩ <;>
      simp [NodeLoop.send, empty]
  · exact ⟨answers, returned, once, .inl (goesOn (by simp [pc]) fun _ => ok)⟩
  · refine ⟨?_, ?_, ?_, .inl (goesOn (by simp [pc]) fun _ => ok)⟩
    · intro call member done executed
      rcases List.mem_append.mp member with old | new
      · exact answers call old done executed
      · rw [List.mem_singleton.mp new] at executed
        cases executed
    · intro call member
      rcases List.mem_append.mp member with old | new
      · exact returned call old
      · rw [List.mem_singleton.mp new]
        simp
    · intro kind member
      rw [NodeLoop.send, List.map_append] at member
      cases calls : loop.calls.map RemoteCall.kind with
      | nil => simp [calls] at member
      | cons first rest =>
          rw [calls, List.cons_append, List.tail_cons] at member
          rcases List.mem_append.mp member with old | new
          · exact once kind (by rw [calls]; exact old)
          · exact List.mem_singleton.mp new
  · exact ⟨answers, returned, once, .inl (goesOn (by simp [pc]) (by simp [pc]))⟩
  · cases stop
  · exact ⟨answers, returned, once, .inl (goesOn (by simp [pc]) (by simp [pc]))⟩

theorem Undisturbed.returns (undisturbed : Undisturbed slack latency since registry loop)
    (taken : loop.returns true = some next)
    (kept : Secured slack latency since registry loop → Secured slack latency after later next) :
    Undisturbed slack latency after later next := by
  obtain ⟨before, call, success, split, result, calls, -, point⟩ := returns_cases taken
  obtain ⟨done, executed, isSuccess⟩ := Option.map_eq_some_iff.mp result
  have isLast : call ∈ loop.calls := by simp [split]
  have answered := undisturbed.answers call isLast done executed
  have secured := undisturbed.secured
    (by rcases point with ⟨pc, -⟩ | ⟨pc, -⟩ <;> simp [pc])
    (by simp [current_of_calls split, executed])
  refine ⟨?_, ?_, ?_, .inl (kept secured)⟩
  · rw [calls]
    intro other member otherDone otherExecuted
    rcases List.mem_append.mp member with earlier | last
    · exact undisturbed.answers other (by simp [split, earlier]) otherDone otherExecuted
    · rw [List.mem_singleton.mp last] at otherExecuted
      exact undisturbed.answers call isLast otherDone otherExecuted
  · rw [calls]
    intro other member
    rcases List.mem_append.mp member with earlier | last
    · exact undisturbed.returned other (by simp [split, earlier])
    · rw [List.mem_singleton.mp last, ← isSuccess, answered]
      simp
  · have sameKinds : next.calls.map RemoteCall.kind = loop.calls.map RemoteCall.kind := by
      simp [calls, split]
    rw [sameKinds]
    exact undisturbed.once

theorem Undisturbed.executes (undisturbed : Undisturbed slack latency since registry loop)
    (inv : LoopInv loop) (began : since ≤ now) {place : Nat} {request : RemoteCall}
    (isCall : loop.calls[place]? = some request)
    (kept : Secured slack latency since registry loop →
      Secured slack latency since (serve registry loop request.kind now).1
        (withExecution registry loop place request now)) :
    Undisturbed slack latency since (serve registry loop request.kind now).1
      (withExecution registry loop place request now) := by
  have phase : (serve registry loop request.kind now).2 = true ∧
      Secured slack latency since (serve registry loop request.kind now).1
        (withExecution registry loop place request now) := by
    rcases undisturbed.phase with secured | ⟨-, -, empty⟩ | ⟨pc, call, only, -⟩
    · have present := Registry.mem_keys_iff.mp secured.heard.mem_keys
      exact ⟨serve_answer.mpr (.inr present), kept secured⟩
    · simp [empty] at isCall
    · obtain ⟨inside, isRequest⟩ := List.getElem?_eq_some_iff.mp isCall
      have first : place = 0 := by
        rw [only, List.length_singleton] at inside
        omega
      subst first
      have isLast : loop.calls.getLast? = some request := by
        rw [← isCall, only]
        rfl
      have answered : (serve registry loop request.kind now).2 = true :=
        serve_answer.mpr (.inl (kind_of_register inv pc isLast))
      have executed : current (withExecution registry loop 0 request now) =
          some (execution registry loop request.kind now) := by
        simp [current, withExecution, only]
      exact ⟨answered, secured_answered began (by rw [pc]; rfl) executed answered⟩
  refine ⟨?_, ?_, ?_, .inl phase.2⟩
  · intro call member done executed
    rcases List.mem_or_eq_of_mem_set member with old | rfl
    · exact undisturbed.answers call old done executed
    · cases executed
      exact phase.1
  · intro call member
    rcases List.mem_or_eq_of_mem_set member with old | rfl
    · exact undisturbed.returned call old
    · exact undisturbed.returned request (List.mem_of_getElem? isCall)
  · have sameKinds : (withExecution registry loop place request now).calls.map RemoteCall.kind =
        loop.calls.map RemoteCall.kind := by
      obtain ⟨inside, isRequest⟩ := List.getElem?_eq_some_iff.mp isCall
      have insideKinds : place < (loop.calls.map RemoteCall.kind).length := by simpa using inside
      have here : (loop.calls.map RemoteCall.kind)[place] = request.kind := by
        rw [List.getElem_map, isRequest]
      simp only [withExecution, List.map_set, ← here, List.set_getElem_self]
    rw [sameKinds]
    exact undisturbed.once

end Undisturbed

section Cluster

variable {slack latency index : Nat} {now : Int} {cluster next : Cluster} {action : ClusterAction}
  {moved : NodeLoop}

theorem undisturbed_new (taken : clusterStep now cluster action = some next)
    (absent : cluster.system.loops[index]? = none)
    (foundNext : next.system.loops[index]? = some moved) :
    Undisturbed slack latency (next.loopSince index) next.system.registry moved := by
  have isNew {own : Action} (stepped : step cluster.system own = some next.system) :
      Undisturbed slack latency (next.loopSince index) next.system.registry moved := by
    obtain ⟨NodeIp, NodePort, rfl⟩ := step_new stepped absent foundNext
    exact Undisturbed.constructed NodeIp NodePort
  rcases clusterStep_cases taken with ⟨own, -, -, stepped, -, -⟩ | ⟨lCheckTime, -, -, stepped, -⟩ |
    ⟨sameSystem, -, -⟩
  · exact isNew stepped
  · exact isNew stepped
  · rw [sameSystem, absent] at foundNext
    cases foundNext

theorem undisturbed_acts (margin : 30 * 1000 + slack + 2 * latency ≤ 60 * 1000)
    (timely : Timely slack latency index now cluster) (fair : faultless index cluster action)
    (taken : clusterStep now cluster action = some next) {loop : NodeLoop}
    (found : cluster.system.loops[index]? = some loop)
    (foundNext : next.system.loops[index]? = some moved)
    (undisturbed : Undisturbed slack latency (cluster.loopSince index) cluster.system.registry
      loop) : Undisturbed slack latency (next.loopSince index) next.system.registry moved := by
  have kept (secured : Secured slack latency (cluster.loopSince index) cluster.system.registry
      loop) : Secured slack latency (next.loopSince index) next.system.registry moved := by
    obtain ⟨other, isOther, -, keeps⟩ := secured_acts margin timely fair taken found secured
    cases isOther.symm.trans foundNext
    exact keeps
  obtain ⟨other, isOther, -, marked, moves⟩ := fair_cases fair taken found
  cases isOther.symm.trans foundNext
  rcases moves with rfl | proceeded | returned | ⟨place, request, isCall, -, rfl, served⟩
  · obtain ⟨answers, returned, once, phase⟩ := undisturbed
    exact ⟨answers, returned, once, phase.imp_left kept⟩
  · exact undisturbed.proceed proceeded kept
  · exact undisturbed.returns returned kept
  · rw [marked, sinceAfter_withExecution, served] at kept ⊢
    exact undisturbed.executes (timely.loops loop (List.mem_of_getElem? found)) timely.began isCall
      kept

end Cluster

/-- In every run in which the loop of a node keeps its time and none of its calls is lost, with 30
seconds, `slack` and twice `latency` within the 60 seconds of the sweep: every call is answered
well and no call returns a failure, only the first one is a `registClient`, and from its execution
on the node is registered. -/
theorem never_suspected {slack latency index : Nat}
    (margin : 30 * 1000 + slack + 2 * latency ≤ 60 * 1000) {timed : Timed Cluster}
    (reached : Reachable (timedStep clusterStep) serverStarted
      (timely (LoopLasts slack latency index) (faultless index)) timed)
    {loop : NodeLoop} (found : timed.state.system.loops[index]? = some loop) :
    (∀ call ∈ loop.calls, call.returned ≠ some false ∧
        ∀ done, call.executed = some done → done.answer = true) ∧
      (∀ call ∈ loop.calls.tail, call.kind = .heartbeat) ∧
      ((∃ call ∈ loop.calls, call.executed ≠ none) →
        loop.key ∈ timed.state.system.registry.keys) := by
  have holds : Timely slack latency index timed.now timed.state ∧
      ∀ own, timed.state.system.loops[index]? = some own →
        Undisturbed slack latency (timed.state.loopSince index) timed.state.system.registry own := by
    refine Timed.invariant (fun now cluster => Timely slack latency index now cluster ∧
      ∀ own, cluster.system.loops[index]? = some own →
        Undisturbed slack latency (cluster.loopSince index) cluster.system.registry own)
      ?_ ?_ ?_ reached
    · intro first started
      refine ⟨Timely.start started, ?_⟩
      rw [serverStarted] at started
      simp [started, initial]
    · intro now later cluster holds passed lasts
      exact ⟨holds.1.passes passed lasts, holds.2⟩
    · rintro now cluster action next ⟨timely, undisturbed⟩ fair taken
      refine ⟨timely.acts taken, ?_⟩
      intro own foundNext
      cases before : cluster.system.loops[index]? with
      | none => exact undisturbed_new taken before foundNext
      | some loop =>
          exact undisturbed_acts margin timely fair taken before foundNext (undisturbed loop before)
  obtain ⟨answers, returned, once, phase⟩ := holds.2 loop found
  refine ⟨?_, ?_, ?_⟩
  · intro call member
    exact ⟨returned call member, answers call member⟩
  · intro call member
    rw [← List.map_tail] at once
    exact once call.kind (List.mem_map_of_mem member)
  · rintro ⟨call, member, executed⟩
    rcases phase with secured | ⟨-, -, empty⟩ | ⟨-, only, isOnly, fresh⟩
    · exact secured.heard.mem_keys
    · simp [empty] at member
    · rw [isOnly, List.mem_singleton] at member
      rw [member, fresh] at executed
      exact absurd rfl executed

/-- A node registers and sends a heartbeat at once and after 30 seconds. -/
def healthyNode : List (TimedAction ClusterAction) :=
  [.act (.system (.start "10.0.0.2" 6002)), .act (.system (.proceed 0 false)), .delay 20,
    .act (.system (.execute 0 0 1020)), .act (.system (.returns 0 true)),
    .act (.system (.proceed 0 false)), .act (.system (.execute 0 1 1020)), .delay 20,
    .act (.system (.returns 0 true)), .delay 30010, .act .checkTime,
    .act (.system (.proceed 0 false)), .act (.system (.proceed 0 false)),
    .act (.system (.proceed 0 false)), .delay 20, .act .sweep, .act (.system (.execute 0 2 31070)),
    .act (.system (.returns 0 true))]

theorem healthyNode_timely :
    Permitted (timedStep clusterStep) (timely (LoopLasts 10 20 0) (faultless 0)) startedAtOneSecond
      healthyNode := by
  decide

theorem healthyNode_finishes :
    (run (timedStep clusterStep) startedAtOneSecond healthyNode).isSome = true := by
  decide

def afterHealthy : Timed Cluster :=
  (run (timedStep clusterStep) startedAtOneSecond healthyNode).get healthyNode_finishes

theorem afterHealthy_loop : (afterHealthy.state.system.loops[0]?).isSome = true := by decide

theorem never_suspected_healthyNode :
    let loop := (afterHealthy.state.system.loops[0]?).get afterHealthy_loop
    (∀ call ∈ loop.calls, call.returned ≠ some false ∧
        ∀ done, call.executed = some done → done.answer = true) ∧
      (∀ call ∈ loop.calls.tail, call.kind = .heartbeat) ∧
      ((∃ call ∈ loop.calls, call.executed ≠ none) →
        loop.key ∈ afterHealthy.state.system.registry.keys) :=
  @never_suspected 10 20 0 (by decide) afterHealthy
    (.of_run startedAtOneSecond_started healthyNode_timely healthyNode_finishes) _
    (Option.some_get afterHealthy_loop).symm

end DcCluster.HeartBeat
